import Coap.Proofs.Runs.Chronicle

/-!
# The message ids of requests

The ids of an endpoint go round the numbers from 1 to 65535, whoever takes them.
Only requests take ids, and each takes one at most. So as long as there are not
more requests than ids, no two of them get the same id.

## Main results

* `Endpoint.toNat_takeId_takeId` — how ids go round.
* `Chronicle.numbered` — the ids that were taken, in order, and that no thread
  took two of them.
* `Chronicle.place_eq_of_id` — among at most 65535 requests, an id tells which
  thread took it.
-/

namespace Coap

/-! ## How ids go round -/

namespace Endpoint

/-- The id that comes after 65535 is 1. -/
theorem toNat_takeId_takeId (e : Endpoint) :
    e.takeId.1.takeId.2.toNat = e.takeId.2.toNat % 65535 + 1 := by
  have hone : (1 : UInt16).toNat = 1 := rfl
  have hlt := e.counter.toNat_lt
  have hnext : (e.counter + 1).toNat = (e.counter.toNat + 1) % 65536 := by
    rw [UInt16.toNat_add, hone]
  have hzero (counter : UInt16) : counter = 0 ↔ counter.toNat = 0 :=
    UInt16.toNat_inj.symm
  by_cases hstart : e.counter = 0
  · have htake : e.takeId = ({ e with counter := 2 }, 1) := if_pos hstart
    rw [htake]
    rfl
  · have htake : e.takeId = ({ e with counter := e.counter + 1 }, e.counter) :=
      if_neg hstart
    rw [hzero] at hstart
    rw [htake]
    by_cases hwrap : e.counter + 1 = 0
    · rw [takeId, if_pos hwrap]
      rw [hzero] at hwrap
      simp only [hone]
      omega
    · rw [takeId, if_neg hwrap]
      rw [hzero] at hwrap
      simp only [hnext] at hwrap ⊢
      omega

/-- The id that is taken next is told by the counter. -/
theorem takeId_snd_of_counter_eq {e e' : Endpoint} (h : e'.counter = e.counter) :
    e'.takeId.2 = e.takeId.2 := by
  unfold takeId
  rw [h]
  split <;> rfl

/-- No id is taken in a change. -/
def TakesNone (e e' : Endpoint) : Prop := e'.counter = e.counter

theorem enduring_takesNone : Enduring TakesNone where
  refl _ := rfl
  openReadBuffer _ := rfl
  accept _ _ _ _ := rfl
  dequeue _ _ := rfl
  noteRetransmission _ _ _ := rfl
  serialize _ _ := rfl
  enqueue _ _ _ _ _ _ _ := by
    unfold TakesNone enqueue
    split <;> rfl

end Endpoint

/-- The id that is taken after `n` others, if the first of them is given. -/
def idNumber (first n : Nat) : Nat := (first + 65534 + n) % 65535 + 1

theorem idNumber_inj {first n n' : Nat} (hn : n < 65535) (hn' : n' < 65535)
    (h : idNumber first n = idNumber first n') : n = n' := by
  unfold idNumber at h
  omega

/-! ## Threads that take ids -/

namespace Thread

/-- A thread that takes no id any more. -/
def Spent (th : Thread) : Prop := th.rest.Moves Endpoint.TakesNone

/-- A request that has not begun. -/
def Unspent (th : Thread) : Prop :=
  ∃ r, th.operation = .request r ∧ th.rest = (Operation.request r).call

theorem spent_or_unspent_start (operation : Operation) :
    (start operation).Spent ∨ (start operation).Unspent := by
  by_cases hrequest : ∃ r, operation = .request r
  · obtain ⟨r, rfl⟩ := hrequest
    exact .inr ⟨r, rfl, rfl⟩
  · refine .inl (operation.moves Endpoint.enduring_takesNone ?_)
    intro r hr
    exact absurd ⟨r, hr⟩ hrequest

theorem Spent.step {th : Thread} (h : th.Spent) {e e' : Endpoint}
    {action : Action} {rest : Call Result} (hstep : th.rest.Step e action e' rest) :
    e'.counter = e.counter ∧
      (th.after e.inFlight e'.inFlight action rest).Spent :=
  Call.Moves.step h (fun _ => rfl) hstep

/-- A request begins by taking an id, and takes none after that. -/
theorem Unspent.step {th : Thread} (h : th.Unspent) {e e' : Endpoint}
    {action : Action} {rest : Call Result} (hstep : th.rest.Step e action e' rest) :
    e' = e.takeId.1 ∧ (th.after e.inFlight e'.inFlight action rest).Spent := by
  obtain ⟨r, -, hrest⟩ := h
  rw [hrest] at hstep
  cases huri : Uri.ofText r.uri with
  | error err =>
      have hcall : (Operation.request r).call =
          .done (.requested (.error (.uri err))) := by
        rw [Operation.call, Call.request, huri]
        rfl
      rw [hcall] at hstep
      cases hstep
  | ok u =>
      have hcall : (Operation.request r).call =
          .update (fun e => e.takeId.1) fun e => Result.requested <$> do
            let random ← Call.word
            let sent ← Call.send r.destination
              (r.message u e.takeId.2 random) r.ticket
            return sent.map fun _ => e.takeId.2 := by
        rw [Operation.call, Call.request, huri]
        rfl
      rw [hcall] at hstep
      cases hstep
      refine ⟨rfl, Call.Moves.bind (Call.Moves.bind Call.moves_word ?_) ?_⟩
      · intro random
        exact Call.Moves.bind
          (Call.moves_send Endpoint.enduring_takesNone _ _ _) fun _ => trivial
      · exact fun _ => trivial

end Thread

/-! ## Ids that were taken -/

/-- The id that is taken with a deed. -/
def Deed.id? : Deed → Option UInt16
  | acted _ id => id
  | _ => none

/-- Whether a request is started. -/
def Deed.isRequest : Deed → Bool
  | started (.request _) => true
  | _ => false

/-- The ids that were taken, with the places of the threads that took them. -/
def takings (history : List (Nat × Deed)) : List (Nat × UInt16) :=
  history.filterMap fun x => x.2.id?.map fun id => (x.1, id)

/-- The places of the threads that took ids. -/
def takers (history : List (Nat × Deed)) : List Nat :=
  (takings history).map (·.1)

/-- The places of the requests. -/
def requests (history : List (Nat × Deed)) : List Nat :=
  (history.filter (·.2.isRequest)).map (·.1)

section Concat

variable (history : List (Nat × Deed)) (place : Nat) (deed : Deed)

theorem takings_concat :
    takings (history ++ [(place, deed)]) =
      takings history ++ (deed.id?.map fun id => (place, id)).toList := by
  rw [takings, List.filterMap_append]
  refine congrArg (takings history ++ ·) ?_
  cases hid : deed.id? <;> simp only [List.filterMap_cons, hid, Option.map_none,
    Option.map_some, List.filterMap_nil, Option.toList_none, Option.toList_some]

theorem takers_concat :
    takers (history ++ [(place, deed)]) =
      takers history ++ (deed.id?.map fun _ => place).toList := by
  rw [takers, takings_concat, List.map_append]
  cases deed.id? <;> rfl

end Concat

theorem mem_requests {history : List (Nat × Deed)} {place : Nat} :
    place ∈ requests history ↔ ∃ r, (place, .started (.request r)) ∈ history := by
  simp only [requests, List.mem_map, List.mem_filter]
  constructor
  · rintro ⟨⟨_, deed⟩, ⟨hmem, hdeed⟩, rfl⟩
    cases deed with
    | started operation =>
        cases operation with
        | request r => exact ⟨r, hmem⟩
        | _ => cases hdeed
    | _ => cases hdeed
  · rintro ⟨r, hmem⟩
    exact ⟨_, ⟨hmem, rfl⟩, rfl⟩

/-- The ids that were taken go round from the first one, and no thread takes
another one. -/
structure Numbered (first : Endpoint) (history : List (Nat × Deed)) (w : World) :
    Prop where
  numbers : (takings history).map (·.2.toNat) =
    (List.range (takings history).length).map (idNumber first.takeId.2.toNat)
  next : w.endpoint.takeId.2.toNat =
    idNumber first.takeId.2.toNat (takings history).length
  once : (takers history).Nodup
  requested : ∀ place ∈ takers history, place ∈ requests history
  threads : w.All fun place th =>
    th.Spent ∨ th.Unspent ∧ place ∉ takers history

namespace Numbered

variable {config : Config} {first : Endpoint} {history : List (Nat × Deed)}
  {w w' : World} {place : Nat} {deed : Deed}

/-- No id is taken, or a thread takes the next one that has taken none before. -/
theorem takes (h : Numbered first history w) (hdoes : w.Does place deed w') :
    deed.id? = none ∧ w'.endpoint.counter = w.endpoint.counter ∨
    deed.id? = some w.endpoint.takeId.2 ∧ w'.endpoint = w.endpoint.takeId.1 ∧
      place ∉ takers history ∧
      ∃ th r, w.threads[place]? = some th ∧ th.operation = .request r := by
  cases deed with
  | started operation =>
      rw [hdoes.endpoint_eq fun _ _ hdeed => by cases hdeed]
      exact .inl ⟨rfl, rfl⟩
  | abandoned =>
      rw [hdoes.endpoint_eq fun _ _ hdeed => by cases hdeed]
      exact .inl ⟨rfl, rfl⟩
  | acted action id =>
      obtain ⟨th, rest, hth, hstep, rfl⟩ := hdoes.acted
      rcases h.threads place th hth with hspent | ⟨hunspent, hnew⟩
      · have hcounter := (hspent.step hstep).1
        exact .inl ⟨Endpoint.issued?_of_counter_eq hcounter, hcounter⟩
      · obtain ⟨hafter, -⟩ := hunspent.step hstep
        obtain ⟨r, hrequest, -⟩ := hunspent
        refine .inr ⟨?_, hafter, hnew, th, r, hth, hrequest⟩
        rw [hafter]
        exact Endpoint.issued?_takeId _

theorem start (e : Endpoint) : Numbered e [] (.start e) where
  numbers := rfl
  next := by
    have hlt := e.takeId.2.toNat_lt
    have hpos : e.takeId.2.toNat ≠ 0 := by
      intro hzero
      exact e.takeId_ne_zero (UInt16.toNat_inj.mp hzero)
    change e.takeId.2.toNat = idNumber e.takeId.2.toNat 0
    unfold idNumber
    omega
  once := .nil
  requested place hplace := by cases hplace
  threads place th hth := by cases hth

/-- The threads that may still take an id have taken none. -/
theorem threads_step (h : Numbered first history w)
    (hchronicle : Chronicle config first history w)
    (hdoes : w.Does place deed w') :
    w'.All fun p th =>
      th.Spent ∨ th.Unspent ∧ p ∉ takers (history ++ [(place, deed)]) := by
  rw [takers_concat]
  refine hdoes.all ?_ ?_ ?_
  · intro p th hth hself
    refine (h.threads p th hth).imp_right ?_
    rintro ⟨hunspent, hnew⟩
    refine ⟨hunspent, ?_⟩
    intro hmem
    rcases List.mem_append.mp hmem with hbefore | hnow
    · exact hnew hbefore
    · obtain ⟨id, hid, rfl⟩ := Option.map_eq_some_iff.mp (Option.mem_toList.mp hnow)
      rw [hself rfl] at hid
      cases hid
  · rintro operation rfl
    refine (Thread.spent_or_unspent_start operation).imp_right ?_
    intro hunspent
    refine ⟨hunspent, ?_⟩
    intro hmem
    have hbefore : place ∈ takers history := by
      rcases List.mem_append.mp hmem with hbefore | hnow
      · exact hbefore
      · cases hnow
    obtain ⟨r, hstarted⟩ := mem_requests.mp (h.requested place hbefore)
    obtain ⟨th, hth, -⟩ := hchronicle.operation_of_started hstarted
    rw [hdoes.started.1] at hth
    cases hth
  · intro action rest th hth _ hstep
    rcases h.threads place th hth with hspent | ⟨hunspent, -⟩
    · exact .inl (hspent.step hstep).2
    · exact .inl (hunspent.step hstep).2

theorem step (h : Numbered first history w)
    (hchronicle : Chronicle config first history w)
    (hdoes : w.Does place deed w') :
    Numbered first (history ++ [(place, deed)]) w' := by
  have hgrows (p : Nat) (hp : p ∈ requests history) :
      p ∈ requests (history ++ [(place, deed)]) := by
    obtain ⟨r, hr⟩ := mem_requests.mp hp
    exact mem_requests.mpr ⟨r, List.mem_append_left _ hr⟩
  have hthreads := h.threads_step hchronicle hdoes
  rcases h.takes hdoes with
    ⟨hnone, hcounter⟩ | ⟨hsome, hafter, hnew, th, r, hth, hr⟩
  · have htakings : takings (history ++ [(place, deed)]) = takings history := by
      rw [takings_concat, hnone]
      exact List.append_nil _
    have htakers : takers (history ++ [(place, deed)]) = takers history :=
      congrArg (List.map Prod.fst) htakings
    refine ⟨?_, ?_, ?_, ?_, hthreads⟩
    · rw [htakings]
      exact h.numbers
    · rw [htakings, Endpoint.takeId_snd_of_counter_eq hcounter]
      exact h.next
    · rw [htakers]
      exact h.once
    · rw [htakers]
      exact fun p hp => hgrows p (h.requested p hp)
  · have htakings : takings (history ++ [(place, deed)]) =
        takings history ++ [(place, w.endpoint.takeId.2)] := by
      rw [takings_concat, hsome]
      rfl
    have htakers : takers (history ++ [(place, deed)]) =
        takers history ++ [place] := by
      rw [takers, htakings, List.map_append]
      rfl
    refine ⟨?_, ?_, ?_, ?_, hthreads⟩
    · rw [htakings, List.map_append, h.numbers, List.length_append,
        List.length_singleton, List.range_succ, List.map_append,
        List.map_singleton, List.map_singleton, h.next]
    · rw [htakings, hafter, Endpoint.toNat_takeId_takeId, h.next,
        List.length_append, List.length_singleton]
      unfold idNumber
      omega
    · rw [htakers, List.nodup_append]
      refine ⟨h.once, List.nodup_singleton _, ?_⟩
      intro p hp p' hp' hsame
      cases List.mem_singleton.mp hp'
      exact hnew (hsame ▸ hp)
    · rw [htakers]
      intro p hp
      rcases List.mem_append.mp hp with hbefore | hnow
      · exact hgrows p (h.requested p hbefore)
      · cases List.mem_singleton.mp hnow
        refine hgrows place (mem_requests.mpr ⟨r, ?_⟩)
        rw [← hr]
        exact hchronicle.started place th hth

end Numbered

namespace Chronicle

variable {config : Config} {first : Endpoint} {history : List (Nat × Deed)}
  {w : World}

theorem numbered (h : Chronicle config first history w) :
    Numbered first history w := by
  induction h with
  | start => exact .start _
  | step hbefore hdoes ih => exact ih.step hbefore hdoes

/-- Every request has its thread. -/
theorem length_requests_le (h : Chronicle config first history w) :
    (requests history).length ≤ w.threads.length := by
  induction h with
  | start => exact Nat.le_refl 0
  | @step first history w w' place deed _ hdoes ih =>
      rw [requests, List.length_map] at ih ⊢
      rw [List.filter_append, List.length_append]
      cases hdoes with
      | start operation hfresh =>
          have hone : ([(w.threads.length, Deed.started operation)].filter
              (·.2.isRequest)).length ≤ 1 := List.length_filter_le _ _
          rw [List.length_append, List.length_singleton]
          exact Nat.add_le_add ih hone
      | act hthreads hstep hfree =>
          rw [hthreads] at ih
          simp only [List.length_append, List.length_cons] at ih ⊢
          exact ih
      | abandon hthreads hrest => exact ih

/-- As long as there are not more requests than ids, all ids that were taken are
different. -/
theorem nodup_takings (h : Chronicle config first history w)
    (hfew : (requests history).length ≤ 65535) :
    ((takings history).map (·.2)).Nodup := by
  have hnumbered := h.numbered
  have hlength : (takings history).length ≤ (requests history).length := by
    have hsubperm := hnumbered.once.subperm hnumbered.requested
    have hle := hsubperm.length_le
    rw [takers, List.length_map] at hle
    exact hle
  have hnumbers : ((takings history).map (·.2.toNat)).Nodup := by
    rw [hnumbered.numbers]
    refine List.Nodup.map_on ?_ List.nodup_range
    intro n hn n' hn' hsame
    have hlt := List.mem_range.mp hn
    have hlt' := List.mem_range.mp hn'
    exact idNumber_inj (by omega) (by omega) hsame
  have hmap : (takings history).map (·.2.toNat) =
      ((takings history).map (·.2)).map UInt16.toNat := by
    rw [List.map_map]
    rfl
  rw [hmap] at hnumbers
  exact hnumbers.of_map _

/-- Among not more requests than there are ids, an id tells who took it. -/
theorem place_eq_of_id (h : Chronicle config first history w)
    (hfew : (requests history).length ≤ 65535) {place place' : Nat}
    {action action' : Action} {id : UInt16}
    (htaken : (place, .acted action (some id)) ∈ history)
    (htaken' : (place', .acted action' (some id)) ∈ history) :
    place = place' := by
  have hmem {p : Nat} {a : Action} (hp : (p, .acted a (some id)) ∈ history) :
      (p, id) ∈ takings history :=
    List.mem_filterMap.mpr ⟨_, hp, rfl⟩
  have hsame := List.inj_on_of_nodup_map (h.nodup_takings hfew) (hmem htaken)
    (hmem htaken') rfl
  exact congrArg Prod.fst hsame

end Chronicle

end Coap
