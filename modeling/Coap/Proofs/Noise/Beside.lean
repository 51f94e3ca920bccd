import Coap.Proofs.Noise.Moments
import Coap.Proofs.Runs.Locks

/-!
# Two worlds side by side

Two worlds differ in one thread, which holds no lock in the second one, and in the bytes
that were left in the read buffer. All that the others do in the first world they can do
in the second one: the locks that are free there are free here, and no call looks at the
bytes. This is said of one deed, and then of all that follows.

The thread that differs may also do something in the first world alone. If this concerns
nobody else the worlds are still side by side.

## Main results

* `World.Beside.does` — what another thread does in the one world it does in the other.
* `World.Beside.own` — what the thread itself does may be left out.
* `World.Beside.follows` — what others do after that they do in both.
-/

namespace Coap

namespace World

variable {config : Config} {first : Endpoint} {history later : List (Nat × Deed)}
  {v v₁ v₂ w w₁ : World} {k place : Nat} {deed : Deed} {other : Thread}

/-! ## Another thread at one place -/

section Threads

variable {α : Type} {l : List Thread} {f : Thread → α}

/-- What two threads have in common is not changed by putting one for the other. -/
theorem map_set_eq (h : ∀ th, l[k]? = some th → f other = f th) :
    (l.set k other).map f = l.map f := by
  apply List.ext_getElem?
  intro p
  rw [List.getElem?_map, List.getElem?_map]
  by_cases hp : p = k
  · subst hp
    rw [List.getElem?_set_self']
    cases hth : l[p]? with
    | none => rfl
    | some th => exact congrArg some (h th hth)
  · rw [List.getElem?_set_ne (Ne.symm hp)]

/-- A list is split at a place as it is split when another place has another thread. -/
theorem exists_set_elsewhere (front back : List Thread) (other : Thread)
    (h : k ≠ front.length) :
    ∃ front' back', front'.length = front.length ∧
      ∀ th, (front ++ th :: back).set k other = front' ++ th :: back' := by
  by_cases hlt : k < front.length
  · refine ⟨front.set k other, back, List.length_set, fun th => ?_⟩
    exact List.set_append_left k other hlt
  · refine ⟨front, back.set (k - front.length - 1) other, rfl, fun th => ?_⟩
    rw [List.set_append_right k other (by omega)]
    obtain ⟨n, hn⟩ : ∃ n, k - front.length = n + 1 := ⟨k - front.length - 1, by omega⟩
    rw [hn, List.set_cons_succ]
    rfl

theorem set_here (front back : List Thread) (th other : Thread) :
    (front ++ th :: back).set front.length other = front ++ other :: back := by
  rw [List.set_append_right _ _ (Nat.le_refl _), Nat.sub_self, List.set_cons_zero]

/-- A new thread comes after another one that was put in its place, or in its own. -/
theorem set_append_singleton {th : Thread} (h : k = l.length → other = th) :
    (l ++ [th]).set k other = l.set k other ++ [th] := by
  by_cases hlt : k < l.length
  · exact List.set_append_left k other hlt
  · rw [List.set_eq_of_length_le (Nat.le_of_not_lt hlt)]
    by_cases hk : k = l.length
    · subst hk
      rw [set_here, h rfl]
    · apply List.set_eq_of_length_le
      rw [List.length_append, List.length_singleton]
      omega

end Threads

/-! ## Locks of the others -/

/-- An action changes the holders of the locks in the same way where another thread holds
none. -/
theorem holderAfter_congr {action : Action} (hplace : place ≠ k)
    (h : ∀ lock p, w.holder lock = some p ↔ p ≠ k ∧ v.holder lock = some p)
    (lock : Lock) (p : Nat) :
    w.holderAfter place action lock = some p ↔
      p ≠ k ∧ v.holderAfter place action lock = some p := by
  cases action with
  | acquired lock' =>
      show (if lock = lock' then some place else w.holder lock) = some p ↔
        p ≠ k ∧ (if lock = lock' then some place else v.holder lock) = some p
      by_cases hlock : lock = lock'
      · rw [if_pos hlock, if_pos hlock, Option.some_inj]
        constructor
        · rintro rfl
          exact ⟨hplace, rfl⟩
        · exact And.right
      · rw [if_neg hlock, if_neg hlock]
        exact h lock p
  | released lock' =>
      show (if lock = lock' then none else w.holder lock) = some p ↔
        p ≠ k ∧ (if lock = lock' then none else v.holder lock) = some p
      by_cases hlock : lock = lock'
      · rw [if_pos hlock, if_pos hlock]
        simp
      · rw [if_neg hlock, if_neg hlock]
        exact h lock p
  | _ => exact h lock p

/-! ## Deeds in both worlds -/

/-- The second world differs from the first one in the thread at a place, which is another
one, and holds no lock there; but it has the same operation and has told the same. -/
structure Beside (k : Nat) (other : Thread) (v w : World) : Prop where
  endpoint : v.endpoint.Alike w.endpoint
  holder : ∀ lock p, w.holder lock = some p ↔ p ≠ k ∧ v.holder lock = some p
  threads : w.threads = v.threads.set k other
  thread : ∀ th, v.threads[k]? = some th →
    th.operation = other.operation ∧ th.told = other.told

namespace Beside

variable (h : Beside k other v w)

include h

theorem issued_eq : w.issued = v.issued := by
  have hmap : w.threads.map (·.operation) = v.threads.map (·.operation) := by
    rw [h.threads]
    exact map_set_eq fun th hth => (h.thread th hth).1.symm
  have hflat (x : World) :
      x.issued = (x.threads.map (·.operation)).flatMap (·.ticket.toList) := by
    rw [List.flatMap_map]
    rfl
  rw [hflat, hflat, hmap]

theorem told_eq (ticket : Ticket) : w.told ticket = v.told ticket := by
  have hmap : w.threads.map (·.told) = v.threads.map (·.told) := by
    rw [h.threads]
    exact map_set_eq fun th hth => (h.thread th hth).2.symm
  have hflat (x : World) : x.threads.flatMap (·.told) =
      (x.threads.map (·.told)).flatten :=
    rfl
  rw [told, told, hflat, hflat, hmap]

theorem free {lock : Lock} (hfree : v.holder lock = none) : w.holder lock = none := by
  cases hholder : w.holder lock with
  | none => rfl
  | some p =>
      rw [((h.holder lock p).mp hholder).2] at hfree
      cases hfree

/-- An operation that is started in the first world is started in the second one, also if
it is the thread that differs. -/
theorem start {operation : Operation} (hdoes : v.Does place (.started operation) v₁)
    (hplace : place = k → other = .start operation) :
    ∃ w₁, w.Does place (.started operation) w₁ ∧ Beside k other v₁ w₁ := by
  have hlength : w.threads.length = v.threads.length := by
    rw [h.threads, List.length_set]
  generalize hdeed : Deed.started operation = deed at hdoes
  cases hdoes with
  | act => cases hdeed
  | abandon => cases hdeed
  | start operation' hfresh =>
      cases hdeed
      refine ⟨{ w with threads := w.threads ++ [.start operation] }, ?_,
        h.endpoint, h.holder, ?_, ?_⟩
      · rw [← hlength]
        exact .start operation (h.issued_eq ▸ hfresh)
      · show w.threads ++ _ = _
        rw [h.threads, set_append_singleton fun hk => hplace hk.symm]
      · intro th hth
        by_cases hlt : k < v.threads.length
        · rw [List.getElem?_append_left hlt] at hth
          exact h.thread th hth
        · obtain ⟨hle, -⟩ := List.getElem?_eq_some_iff.mp hth
          rw [List.length_append, List.length_singleton] at hle
          have hk : v.threads.length = k := by omega
          subst hk
          rw [getElem?_here] at hth
          cases hth
          rw [hplace rfl]
          exact ⟨rfl, rfl⟩

/-- An action of another thread. -/
theorem act (hblind : ∀ th ∈ v.threads, th.rest.Blind) {action : Action}
    {id : Option UInt16} (hdoes : v.Does place (.acted action id) v₁)
    (hplace : place ≠ k) :
    ∃ w₁, w.Does place (.acted action id) w₁ ∧ Beside k other v₁ w₁ := by
  generalize hdeed : Deed.acted action id = deed at hdoes
  cases hdoes with
  | start => cases hdeed
  | abandon => cases hdeed
  | @act front back th action' e rest hthreads hstep hfree =>
      cases hdeed
      obtain ⟨front', back', hfront, hset⟩ :=
        exists_set_elsewhere front back other hplace.symm
      have hmem : th ∈ v.threads := by
        rw [hthreads]
        exact List.mem_append_right _ List.mem_cons_self
      -- The call goes on in the second world as it does in the first one.
      obtain ⟨-, e', halike, hstep'⟩ := (hblind th hmem).step h.endpoint hstep
      refine ⟨{ endpoint := e'
                holder := w.holderAfter front'.length action
                threads := front' ++
                  th.after w.endpoint.inFlight e'.inFlight action rest :: back' },
        ?_, halike, ?_, ?_, ?_⟩
      · rw [← hfront, ← h.endpoint.issued?_eq halike]
        apply Does.act ?_ hstep'
        · intro lock hlock
          exact h.free (hfree lock hlock)
        · rw [h.threads, hthreads, hset]
      · intro lock p
        rw [hfront]
        exact holderAfter_congr hplace h.holder lock p
      · show _ = (front ++ _ :: back).set k other
        rw [hset, h.endpoint.inFlight_eq, halike.inFlight_eq]
      · intro th' hth'
        rw [getElem?_elsewhere hplace.symm, ← hthreads] at hth'
        exact h.thread th' hth'

/-- Another thread gives its locks back. -/
theorem abandon (hdoes : v.Does place .abandoned v₁) (hplace : place ≠ k) :
    ∃ w₁, w.Does place .abandoned w₁ ∧ Beside k other v₁ w₁ := by
  generalize hdeed : Deed.abandoned = deed at hdoes
  cases hdoes with
  | start => cases hdeed
  | act => cases hdeed
  | @abandon front back th hthreads hrest =>
      obtain ⟨front', back', hfront, hset⟩ :=
        exists_set_elsewhere front back other hplace.symm
      have hthreads' : w.threads = front' ++ th :: back' := by
        rw [h.threads, hthreads, hset]
      refine ⟨{ w with holder := w.holderWithout front'.length }, ?_,
        h.endpoint, ?_, h.threads, h.thread⟩
      · rw [← hfront]
        exact .abandon hthreads' hrest
      · intro lock p
        show w.holderWithout front'.length lock = some p ↔
          p ≠ k ∧ v.holderWithout front.length lock = some p
        rw [hfront]
        by_cases hp : p = front.length
        · subst hp
          exact iff_of_false (holderWithout_ne w _ lock)
            fun hboth => holderWithout_ne v _ lock hboth.2
        · rw [holderWithout_elsewhere hp, holderWithout_elsewhere hp]
          exact h.holder lock p

/-- What another thread does in the first world it does in the second one. -/
theorem does (hblind : ∀ th ∈ v.threads, th.rest.Blind) (hdoes : v.Does place deed v₁)
    (hplace : place ≠ k) : ∃ w₁, w.Does place deed w₁ ∧ Beside k other v₁ w₁ := by
  cases deed with
  | started operation => exact h.start hdoes fun hk => absurd hk hplace
  | acted action id => exact h.act hblind hdoes hplace
  | abandoned => exact h.abandon hdoes hplace

/-- What the thread that differs does is left out in the second world, if it makes no
difference to the endpoint and if nobody is told. -/
theorem own (hcustody : v.Custody) (hdoes : v.Does k deed v₁)
    (hstarted : ∀ operation, deed ≠ .started operation)
    (halike : v.endpoint.Alike v₁.endpoint)
    (htold : ∀ th, v₁.threads[k]? = some th → th.told = other.told) :
    Beside k other v₁ w := by
  have hendpoint := halike.symm.trans h.endpoint
  cases hdoes with
  | start operation hfresh => exact absurd rfl (hstarted operation)
  | @act front back th action e rest hthreads hstep hfree =>
      have hhere : v.threads[front.length]? = some th := by
        rw [hthreads, getElem?_here]
      obtain ⟨held, hlocks, hheld⟩ := hcustody.threads _ th hhere
      obtain ⟨held', haction, -⟩ := hlocks.step hstep
      refine ⟨hendpoint, ?_, ?_, ?_⟩
      · intro lock p
        rw [h.holder lock p]
        refine and_congr_right fun hp => ?_
        exact (holderAfter_elsewhere hheld haction hfree hp lock).symm
      · show w.threads = (front ++ _ :: back).set front.length other
        rw [h.threads, hthreads, set_here, set_here]
      · intro th' hth'
        have htold' := htold th' hth'
        rw [getElem?_here] at hth'
        cases hth'
        exact ⟨(h.thread th hhere).1, htold'⟩
  | @abandon front back th hthreads hrest =>
      refine ⟨hendpoint, ?_, h.threads, h.thread⟩
      intro lock p
      rw [h.holder lock p]
      exact and_congr_right fun hp => (holderWithout_elsewhere hp lock).symm

end Beside

/-! ## What follows -/

/-- One deed after the other leads from a world to another one. -/
inductive Follows : World → List (Nat × Deed) → World → Prop where
  | here (w : World) : Follows w [] w
  | step {w w₁ w₂ : World} {place : Nat} {deed : Deed} {later : List (Nat × Deed)}
      (hdoes : w.Does place deed w₁) (hmore : Follows w₁ later w₂) :
      Follows w ((place, deed) :: later) w₂

theorem Follows.chronicle (hfollows : v.Follows later v₂)
    (h : Chronicle config first history v) :
    Chronicle config first (history ++ later) v₂ := by
  induction hfollows generalizing history with
  | here =>
      rw [List.append_nil]
      exact h
  | step hdoes hmore ih =>
      have hall := ih (h.step hdoes)
      rw [List.append_assoc] at hall
      exact hall

end World

/-- What the others go on to do in the first world they do in the second one. -/
theorem World.Beside.follows {config : Config} {first : Endpoint}
    {history later : List (Nat × Deed)} {k : Nat} {other : Thread} {v v₂ w : World}
    (h : Beside k other v w) (hchronicle : Chronicle config first history v)
    (hfollows : v.Follows later v₂) (helse : ∀ p ∈ later, p.1 ≠ k) :
    ∃ w₂, w.Follows later w₂ ∧ Beside k other v₂ w₂ := by
  induction hfollows generalizing history w with
  | here => exact ⟨w, .here w, h⟩
  | step hdoes hmore ih =>
      rw [List.forall_mem_cons] at helse
      obtain ⟨w₁, hdoes', hbeside⟩ := h.does hchronicle.blind hdoes helse.1
      obtain ⟨w₂, hfollows', hend⟩ := ih hbeside (hchronicle.step hdoes) helse.2
      exact ⟨w₂, .step hdoes' hfollows', hend⟩

end Coap
