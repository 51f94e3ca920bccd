import Coap.Proofs.Exchange.Ids

/-!
# Ids and tokens over a full cycle

An id is taken by stepping a 16-bit counter until it tells a number other than 0.
Only one of the 65536 numbers is left out, so a second step is enough, and the ids
go round the numbers from 1 to 65535. All that follows is read off the formula for
the id that comes after so many others: ids repeat after 65535 of them and not
before, wherever the counter started.

A token begins with the two bytes of its id, so it differs from the tokens of other
ids whatever the random word is that ends it.

## Main results

* `Endpoint.countsOn_takeId_iff` — the counter is stepped once or twice for an id.
* `Endpoint.toNat_idAt` — the id that is taken after so many others.
* `Endpoint.tokenFor_inj` — a token tells the id that it was made for.
* `Endpoint.ids_go_round` — ids and tokens over any number of ids.
-/

namespace Coap

/-! ## Stepping a counter -/

/-- A counter is stepped until it tells a number other than 0: how many steps that
takes, what it tells, and where it stands then. A step tells where the counter
stood before it. -/
inductive CountsOn : UInt16 → Nat → UInt16 → UInt16 → Prop where
  | tells {counter : UInt16} (h : counter ≠ 0) :
      CountsOn counter 1 counter (counter + 1)
  | skips {steps : Nat} {id after : UInt16} (h : CountsOn (0 + 1) steps id after) :
      CountsOn 0 (steps + 1) id after

theorem countsOn_iff_of_ne_zero {counter id after : UInt16} {steps : Nat}
    (h : counter ≠ 0) :
    CountsOn counter steps id after ↔
      steps = 1 ∧ id = counter ∧ after = counter + 1 := by
  constructor
  · intro hcounts
    cases hcounts with
    | tells => exact ⟨rfl, rfl, rfl⟩
    | skips => exact absurd rfl h
  · rintro ⟨rfl, rfl, rfl⟩
    exact .tells h

theorem countsOn_zero_iff {id after : UInt16} {steps : Nat} :
    CountsOn 0 steps id after ↔ steps = 2 ∧ id = 1 ∧ after = 2 := by
  have hone : (0 : UInt16) + 1 ≠ 0 := by decide
  constructor
  · intro hcounts
    cases hcounts with
    | tells h => exact absurd rfl h
    | skips hrest =>
        obtain ⟨rfl, rfl, rfl⟩ := (countsOn_iff_of_ne_zero hone).mp hrest
        exact ⟨rfl, rfl, rfl⟩
  · rintro ⟨rfl, rfl, rfl⟩
    exact .skips (.tells hone)

namespace Endpoint

/-- Taking an id is stepping the counter, twice if it stands at 0 and once
otherwise. -/
theorem countsOn_takeId_iff (e : Endpoint) {steps : Nat} {id after : UInt16} :
    CountsOn e.counter steps id after ↔
      steps = (if e.counter = 0 then 2 else 1) ∧ id = e.takeId.2 ∧
        after = e.takeId.1.counter := by
  by_cases h : e.counter = 0
  · rw [takeId, if_pos h, if_pos h, h]
    exact countsOn_zero_iff
  · rw [takeId, if_neg h, if_neg h]
    exact countsOn_iff_of_ne_zero h

/-! ## One id after the other -/

/-- The endpoint after so many ids were taken. -/
def afterIds (e : Endpoint) : Nat → Endpoint
  | 0 => e
  | n + 1 => (e.afterIds n).takeId.1

/-- The id that is taken after so many others. -/
def idAt (e : Endpoint) (n : Nat) : UInt16 := (e.afterIds n).takeId.2

/-- As many ids as there are, the first of them taken after so many others. -/
def idsFrom (e : Endpoint) (n : Nat) : List UInt16 :=
  (List.range 65535).map fun i => e.idAt (n + i)

theorem idAt_ne_zero (e : Endpoint) (n : Nat) : e.idAt n ≠ 0 :=
  takeId_ne_zero _

theorem toNat_idAt_pos (e : Endpoint) (n : Nat) : 0 < (e.idAt n).toNat := by
  have hne := e.idAt_ne_zero n
  rw [Ne, ← UInt16.toNat_inj] at hne
  exact Nat.pos_of_ne_zero hne

theorem toNat_idAt (e : Endpoint) (n : Nat) :
    (e.idAt n).toNat = idNumber (e.idAt 0).toNat n := by
  induction n with
  | zero =>
      have hpos := e.toNat_idAt_pos 0
      have hlt := (e.idAt 0).toNat_lt
      unfold idNumber
      omega
  | succ n ih =>
      have hnext : (e.idAt (n + 1)).toNat = (e.idAt n).toNat % 65535 + 1 :=
        toNat_takeId_takeId (e.afterIds n)
      unfold idNumber at ih ⊢
      omega

/-- Ids that are taken less than a cycle apart are different. -/
theorem idAt_inj (e : Endpoint) {n i j : Nat} (hi : i < 65535) (hj : j < 65535)
    (h : e.idAt (n + i) = e.idAt (n + j)) : i = j := by
  have hleft := e.toNat_idAt (n + i)
  have hright := e.toNat_idAt (n + j)
  rw [h] at hleft
  unfold idNumber at hleft hright
  omega

theorem nodup_idsFrom (e : Endpoint) (n : Nat) : (e.idsFrom n).Nodup := by
  refine List.Nodup.map_on ?_ List.nodup_range
  intro i hi j hj h
  exact e.idAt_inj (List.mem_range.mp hi) (List.mem_range.mp hj) h

/-- Every number but 0 comes once in a cycle. -/
theorem mem_idsFrom_iff (e : Endpoint) {n : Nat} {id : UInt16} :
    id ∈ e.idsFrom n ↔ id ≠ 0 := by
  rw [idsFrom, List.mem_map]
  constructor
  · rintro ⟨i, -, rfl⟩
    exact e.idAt_ne_zero _
  · intro hne
    rw [Ne, ← UInt16.toNat_inj] at hne
    have hpos : 0 < id.toNat := Nat.pos_of_ne_zero hne
    have hlt := id.toNat_lt
    -- how far the id is from the first one of the cycle
    refine ⟨(id.toNat + 65535 - (e.idAt n).toNat) % 65535, ?_, ?_⟩
    · exact List.mem_range.mpr (Nat.mod_lt _ (by decide))
    · have hfirst := e.toNat_idAt n
      apply UInt16.toNat_inj.mp
      rw [toNat_idAt]
      unfold idNumber at hfirst ⊢
      omega

/-- After a cycle the same ids come again. -/
theorem idAt_add_cycle (e : Endpoint) (n : Nat) : e.idAt (n + 65535) = e.idAt n := by
  have hlater := e.toNat_idAt (n + 65535)
  have hnow := e.toNat_idAt n
  unfold idNumber at hlater hnow
  apply UInt16.toNat_inj.mp
  omega

/-- The first id of a new endpoint is told by the lower half of a random word. -/
theorem toNat_idAt_zero_of_new {config : Config} {random : UInt32} {e : Endpoint}
    (h : Endpoint.new config random = .ok e) :
    (e.idAt 0).toNat =
      if random.toNat % 65536 = 0 then 1 else random.toNat % 65536 := by
  have hcounter : e.counter.toNat = random.toNat % 65536 := by
    unfold Endpoint.new at h
    split at h
    · cases h
    · cases h
      exact UInt16.toNat_ofNat'
  have hzero : e.counter = 0 ↔ random.toNat % 65536 = 0 := by
    rw [← UInt16.toNat_inj, hcounter]
    rfl
  have htake : e.idAt 0 = e.takeId.2 := rfl
  by_cases h0 : e.counter = 0
  · rw [htake, takeId, if_pos h0, if_pos (hzero.mp h0)]
    rfl
  · rw [htake, takeId, if_neg h0, if_neg (mt hzero.mpr h0)]
    exact hcounter

/-! ## Tokens -/

theorem bytes_tokenFor (id : UInt16) (word : UInt32) :
    (tokenFor id word).bytes = Bytes.ofUInt16 id ++ Bytes.ofUInt32 word := by
  have hlow : UInt16.ofNat id.toUInt32.toNat = id := by
    rw [UInt16.toNat_toUInt32, UInt16.ofNat_toNat]
  simp only [tokenFor, Token.generate, PrefixWidth.bytes, hlow]

theorem length_tokenFor (id : UInt16) (word : UInt32) :
    (tokenFor id word).bytes.length = 6 := by
  rw [bytes_tokenFor]
  rfl

theorem tokenFor_inj {id id' : UInt16} {word word' : UInt32}
    (h : tokenFor id word = tokenFor id' word') : id = id' := by
  have hbytes := congrArg Token.bytes h
  rw [bytes_tokenFor, bytes_tokenFor] at hbytes
  have hfirst : Bytes.ofUInt16 id = Bytes.ofUInt16 id' :=
    (List.append_inj hbytes rfl).1
  have hnumber := congrArg Bytes.toNat hfirst
  rw [Bytes.toNat_ofUInt16, Bytes.toNat_ofUInt16] at hnumber
  exact UInt16.toNat_inj.mp hnumber

/-- The tokens made for the ids of a cycle, the first one taken after so many
others, when these random words are drawn. -/
def tokensFrom (e : Endpoint) (n : Nat) (words : Nat → UInt32) : List Token :=
  (List.range 65535).map fun i => tokenFor (e.idAt (n + i)) (words i)

theorem nodup_tokensFrom (e : Endpoint) (n : Nat) (words : Nat → UInt32) :
    (e.tokensFrom n words).Nodup := by
  refine List.Nodup.map_on ?_ List.nodup_range
  intro i hi j hj h
  exact e.idAt_inj (List.mem_range.mp hi) (List.mem_range.mp hj) (tokenFor_inj h)

/-! ## The cycle as a whole -/

/-- The ids of an endpoint go round, and the tokens that are made for them with
them. -/
structure GoesRound (e : Endpoint) : Prop where
  ne_zero : ∀ n, e.idAt n ≠ 0
  /-- Each id is found in at most two steps of the counter. -/
  counted : ∀ n, ∃ steps, steps ≤ 2 ∧ ∀ steps' id after,
    CountsOn (e.afterIds n).counter steps' id after ↔
      steps' = steps ∧ id = e.idAt n ∧ after = (e.afterIds (n + 1)).counter
  /-- No id comes twice within a cycle. -/
  distinct : ∀ n, (e.idsFrom n).Nodup
  /-- Every number but 0 comes in each cycle. -/
  complete : ∀ n id, id ∈ e.idsFrom n ↔ id ≠ 0
  again : ∀ n, e.idAt (n + 65535) = e.idAt n
  /-- No token comes twice within a cycle of ids. -/
  tokens : ∀ n words, (e.tokensFrom n words).Nodup
  /-- The tokens are not too long. -/
  valid : ∀ n word, (tokenFor (e.idAt n) word).bytes.length = 6 ∧
    Token.ofBytes (tokenFor (e.idAt n) word).bytes = .ok (tokenFor (e.idAt n) word)

theorem goesRound (e : Endpoint) : e.GoesRound where
  ne_zero := e.idAt_ne_zero
  counted := by
    intro n
    refine ⟨if (e.afterIds n).counter = 0 then 2 else 1, ?_, ?_⟩
    · split <;> omega
    · intro steps' id after
      exact (e.afterIds n).countsOn_takeId_iff
  distinct := e.nodup_idsFrom
  complete _ _ := e.mem_idsFrom_iff
  again := e.idAt_add_cycle
  tokens := e.nodup_tokensFrom
  valid := by
    intro n word
    have hlength := length_tokenFor (e.idAt n) word
    refine ⟨hlength, ?_⟩
    rw [Token.ofBytes, dif_pos (by rw [hlength]; decide)]

/-- A new endpoint takes its first id from the lower half of any random word, and 1
for a half that is 0. Its ids go round from there, and so do the tokens. -/
theorem ids_go_round {config : Config} (hconfig : config.validate = .ok ())
    (random : UInt32) :
    ∃ e, Endpoint.new config random = .ok e ∧
      (e.idAt 0).toNat =
        (if random.toNat % 65536 = 0 then 1 else random.toNat % 65536) ∧
      e.GoesRound := by
  have hnew : ∃ e, Endpoint.new config random = .ok e := by
    unfold Endpoint.new
    rw [hconfig]
    exact ⟨_, rfl⟩
  obtain ⟨e, he⟩ := hnew
  exact ⟨e, he, toNat_idAt_zero_of_new he, e.goesRound⟩

/-- A random word whose lower half is 0: the first id is 1, and it comes again as
the id after 65535 others. -/
theorem ids_go_round_lowerHalfZero :
    World.sampleEndpoint.config.validate = .ok () ∧
      ∃ e, Endpoint.new World.sampleEndpoint.config 65536 = .ok e ∧
        e.idAt 0 = 1 ∧ e.idAt 65535 = 1 := by
  have hconfig : World.sampleEndpoint.config.validate = .ok () := rfl
  obtain ⟨e, hnew, hfirst, hround⟩ := ids_go_round hconfig 65536
  have hone : e.idAt 0 = 1 := UInt16.toNat_inj.mp hfirst
  have hagain := hround.again 0
  rw [hone] at hagain
  exact ⟨hconfig, e, hnew, hone, hagain⟩

end Endpoint

end Coap
