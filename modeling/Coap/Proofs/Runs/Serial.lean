import Coap.Proofs.InFlight.Index
import Coap.Proofs.Runs.Alone

/-!
# Calls made one after another

A turn is one call that runs alone: a send, a receive or a scan. Its actions
come in parts, each for the sake of the message that is in flight under some
number, or for the sake of none. A send acts for the message that it puts in
flight. A scan goes over the ids that are due, one visit for each, and a visit
acts for the message that the index finds under the id. So every datagram that
a turn has sent is sent for one message, whatever its bytes say.

A serial run is a new endpoint and a list of turns, each beginning where the
one before has ended.

## Main results

* `Call.runs_scan_iff`, `Call.runs_checkQueues_iff` — the runs of a scan are
  exactly those that its visits make up.
* `Turn.Taken.runs`, `Turn.exists_taken` — turns are taken exactly as the calls
  run.
-/

namespace Coap

/-! ## Parts and visits -/

/-- Some actions, taken for the message in flight under a number, or for
none. -/
structure Part where
  subject : Option Nat
  actions : List Action

namespace Call

/-- Those who are told that messages have ended, and how. -/
def notices (finished : List Finished) : List Notification :=
  finished.filterMap fun (entry, outcome) => entry.notify outcome

/-- What a scan does about one id. -/
def visit (now : Instant) (id : UInt16) : Call (List Finished) := do
  let e ← endpoint
  match e.inFlight.get? id with
  | some entry => retry now entry
  | none => return []

/-- A scan is a visit to the first id and a scan of the others. -/
theorem scan_cons (now : Instant) (id : UInt16) (rest : List UInt16) :
    scan now (id :: rest) = (visit now id).bind fun first =>
      (scan now rest).bind fun others => done (first ++ others) := by
  refine congrArg (update fun e => e) (funext fun e => ?_)
  simp only [bind]
  cases e.inFlight.get? id <;> rfl

/-- A scan of the whole queue: it looks for what is due, visits it, and tells
what has ended when the lock is free again. -/
theorem checkQueues_eq :
    checkQueues = acquire .inFlight (askTime fun now => endpoint >>= fun e =>
      (ofOption (e.inFlight.expiredIds? now)).bind fun due =>
        (scan now due).bind fun finished =>
          release .inFlight (notifyAll (notices finished))) := by
  refine congrArg (acquire _) (congrArg askTime (funext fun now => ?_))
  refine congrArg (update _) (funext fun e => ?_)
  simp only [bind]
  cases e.inFlight.expiredIds? now with
  | none => rfl
  | some due => exact bind_assoc _ _ _

/-- A scan's visits, one for each id, with what they found to have ended. -/
inductive Visits (now : Instant) :
    Endpoint → List UInt16 → List Part → Endpoint → List Finished → Prop where
  | nil (e) : Visits now e [] [] e []
  | cons {e e₁ e₂ : Endpoint} {id : UInt16} {rest : List UInt16}
      {actions : List Action} {parts : List Part} {first others : List Finished}
      (hvisit : (visit now id).Runs e actions e₁ (some first))
      (hrest : Visits now e₁ rest parts e₂ others) :
      Visits now e (id :: rest)
        (⟨e.inFlight.index.lookup id, actions⟩ :: parts) e₂ (first ++ others)

variable {e e' : Endpoint} {now : Instant} {ids : List UInt16}
  {actions : List Action}

theorem runs_finish_iff {id : UInt16} {outcome : Outcome}
    {value : Option (List Finished)} :
    (finish id outcome).Runs e actions e' value ↔
      actions = [.updated] ∧ e' = (e.dequeue id).1 ∧
        value = some ((e.dequeue id).2.map (·, outcome)).toList := by
  rw [finish, runs_perform_iff]
  simp only [runs_done_iff, pure]
  constructor
  · rintro ⟨_, rfl, rfl, rfl, rfl⟩
    exact ⟨rfl, rfl, rfl⟩
  · rintro ⟨rfl, rfl, rfl⟩
    exact ⟨[], rfl, rfl, rfl, rfl⟩

/-- A visit either finds nothing, or gives up on the message it finds, or sends
it again. It does not break off. -/
theorem runs_visit_iff {id : UInt16} {value : Option (List Finished)} :
    (visit now id).Runs e actions e' value ↔
      (e.inFlight.get? id = none ∧ actions = [.updated] ∧ e' = e ∧
        value = some []) ∨
      ∃ entry, e.inFlight.get? id = some entry ∧
        ((e.config.transmission.maxRetransmit < entry.transmissions ∧
          actions = [.updated, .updated, .updated] ∧
          e' = (e.dequeue entry.id).1 ∧
          value = some ((e.dequeue entry.id).2.map
            (·, Outcome.retriesExhausted)).toList) ∨
        (¬e.config.transmission.maxRetransmit < entry.transmissions ∧
          ∃ result,
            actions = [.updated, .updated,
              .transmitted entry.destination entry.message result, .updated] ∧
            match result with
            | .ok () =>
                e' = e.noteRetransmission entry.id now ∧ value = some []
            | .error cause =>
                e' = (e.dequeue entry.id).1 ∧
                  value = some ((e.dequeue entry.id).2.map
                    (·, Outcome.failed cause)).toList)) := by
  rw [visit, runs_endpoint_iff]
  cases hget : e.inFlight.get? id with
  | none =>
      simp only [pure, runs_done_iff, reduceCtorEq, false_and, exists_false,
        or_false, true_and]
      constructor
      · rintro ⟨_, rfl, rfl, rfl, rfl⟩
        exact ⟨rfl, rfl, rfl⟩
      · rintro ⟨rfl, rfl, rfl⟩
        exact ⟨[], rfl, rfl, rfl, rfl⟩
  | some entry =>
      simp only [reduceCtorEq, false_and, false_or, Option.some.injEq,
        exists_eq_left', retry, runs_endpoint_iff]
      by_cases hmax : e.config.transmission.maxRetransmit < entry.transmissions
      · simp only [hmax, if_true, runs_finish_iff, true_and, not_true_eq_false,
          false_and, or_false]
        constructor
        · rintro ⟨_, rfl, _, rfl, rfl, rfl, rfl⟩
          exact ⟨rfl, rfl, rfl⟩
        · rintro ⟨rfl, rfl, rfl⟩
          exact ⟨_, rfl, _, rfl, rfl, rfl, rfl⟩
      · simp only [hmax, if_false, runs_sendDatagram_iff, false_and, false_or,
          not_false_eq_true, true_and]
        constructor
        · rintro ⟨_, rfl, _, rfl, result, _, rfl, h⟩
          cases result with
          | ok =>
              rw [runs_modify_iff] at h
              obtain ⟨_, rfl, h⟩ := h
              obtain ⟨rfl, rfl, rfl⟩ := runs_done_iff.mp h
              exact ⟨.ok (), rfl, rfl, rfl⟩
          | error cause =>
              obtain ⟨rfl, rfl, rfl⟩ := runs_finish_iff.mp h
              exact ⟨.error cause, rfl, rfl, rfl⟩
        · rintro ⟨result, rfl, h⟩
          refine ⟨_, rfl, _, rfl, result, _, rfl, ?_⟩
          cases result with
          | ok =>
              obtain ⟨rfl, rfl⟩ := h
              exact runs_modify_iff.mpr ⟨_, rfl, .done _ _⟩
          | error cause =>
              obtain ⟨rfl, rfl⟩ := h
              exact runs_finish_iff.mpr ⟨rfl, rfl, rfl⟩

/-- The runs of a scan are those that visits make up. -/
theorem runs_scan_iff {value : Option (List Finished)} :
    (scan now ids).Runs e actions e' value ↔
      ∃ parts finished, Visits now e ids parts e' finished ∧
        actions = parts.flatMap (·.actions) ∧ value = some finished := by
  induction ids generalizing e e' actions value with
  | nil =>
      rw [scan]
      constructor
      · intro h
        obtain ⟨rfl, rfl, rfl⟩ := runs_done_iff.mp h
        exact ⟨[], [], .nil _, rfl, rfl⟩
      · rintro ⟨parts, finished, h, rfl, rfl⟩
        cases h
        exact .done _ _
  | cons id rest ih =>
      rw [scan_cons, runs_bind_iff]
      simp only [runs_bind_iff, ih, runs_done_iff]
      constructor
      · rintro (⟨first, _, e₁, l, rfl, hvisit, ⟨_, _, e₂, others, rfl,
          ⟨parts, _, hvisits, rfl, ⟨⟩⟩, rfl, rfl, rfl⟩ |
          ⟨-, _, _, -, -, hnone⟩⟩ | ⟨-, hbroken⟩)
        · refine ⟨_, _, .cons hvisit hvisits, ?_, rfl⟩
          rw [List.flatMap_cons, List.append_nil]
        · cases hnone
        · rcases runs_visit_iff.mp hbroken with ⟨-, -, -, h⟩ |
            ⟨_, -, ⟨-, -, -, h⟩ | ⟨-, _ | _, -, -, h⟩⟩ <;> cases h
      · rintro ⟨_, _, h, rfl, rfl⟩
        cases h with
        | cons hvisit hrest =>
            refine .inl ⟨_, _, _, _, rfl, hvisit, .inl ⟨_, [], _, _, ?_,
              ⟨_, _, hrest, rfl, rfl⟩, rfl, rfl, rfl⟩⟩
            exact (List.append_nil _).symm

/-- The actions of a scan before it knows what is due. -/
def opening (now : Instant) : List Action :=
  [.acquired .inFlight, .readTime now, .updated]

/-- The actions of a scan after its last visit. -/
def closing (finished : List Finished) : List Action :=
  .released .inFlight ::
    (notices finished).map fun n => .told (.notified n)

/-- The runs of a call that goes over all messages: it breaks off if a deadline
cannot be told, and visits the ids that are due otherwise. -/
theorem runs_checkQueues_iff {value : Option Unit} :
    checkQueues.Runs e actions e' value ↔
      (∃ now, e.inFlight.expiredIds? now = none ∧ actions = opening now ∧
        e' = e ∧ value = none) ∨
      ∃ now due parts finished, e.inFlight.expiredIds? now = some due ∧
        Visits now e due parts e' finished ∧
        actions = opening now ++ parts.flatMap (·.actions) ++ closing finished ∧
        value = some () := by
  rw [checkQueues_eq]
  simp only [runs_acquire_iff, runs_askTime_iff, runs_endpoint_iff]
  constructor
  · rintro ⟨_, rfl, now, _, rfl, _, rfl, h⟩
    cases hdue : e.inFlight.expiredIds? now with
    | none =>
        rw [hdue] at h
        obtain ⟨rfl, rfl, rfl⟩ := runs_fault_iff.mp h
        exact .inl ⟨now, hdue, rfl, rfl, rfl⟩
    | some due =>
        simp only [hdue, ofOption, bind, runs_bind_iff] at h
        rcases h with ⟨_, _, e₁, finished, rfl, hscan, h⟩ | ⟨-, h⟩
        · obtain ⟨parts, _, hvisits, rfl, hfinished⟩ := runs_scan_iff.mp hscan
          cases hfinished
          rw [runs_release_iff] at h
          obtain ⟨_, rfl, h⟩ := h
          obtain ⟨rfl, rfl, rfl⟩ := runs_notifyAll_iff.mp h
          exact .inr ⟨now, due, parts, finished, hdue, hvisits, rfl, rfl⟩
        · obtain ⟨_, _, _, _, hnone⟩ := runs_scan_iff.mp h
          cases hnone
  · rintro (⟨now, hdue, rfl, rfl, rfl⟩ |
      ⟨now, due, parts, finished, hdue, hvisits, rfl, rfl⟩)
    · refine ⟨_, rfl, now, _, rfl, _, rfl, ?_⟩
      rw [hdue]
      exact .fault _
    · refine ⟨_, rfl, now, _, rfl, _, rfl, ?_⟩
      rw [hdue]
      refine (runs_scan_iff.mpr ⟨parts, finished, hvisits, rfl, rfl⟩).bind ?_
      refine runs_release_iff.mpr ⟨_, rfl, ?_⟩
      exact runs_notifyAll_iff.mpr ⟨rfl, rfl, rfl⟩

end Call

/-! ## Turns -/

/-- The number that a message got between two states of the queue, if one was
put in flight. -/
def InFlight.numbered (q q' : InFlight) : Option Nat :=
  if q'.nextSeq = q.nextSeq then none else some q.nextSeq

/-- One call that runs alone. -/
structure Turn where
  before : Endpoint
  operation : Operation
  parts : List Part
  after : Endpoint

namespace Turn

/-- All actions of a turn. -/
def actions (t : Turn) : List Action := t.parts.flatMap (·.actions)

/-- The turns that may be taken. -/
inductive Taken : Turn → Prop
  /-- A message is sent, for the sake of that message. -/
  | send {e e' : Endpoint} {destination : SocketAddress} {m : Message}
      {ticket : Option Ticket} {actions : List Action}
      {value : Option (Except SendError Unit)}
      (h : (Call.send destination m ticket).Runs e actions e' value) :
      Taken ⟨e, .send destination m ticket,
        [⟨e.inFlight.numbered e'.inFlight, actions⟩], e'⟩
  /-- A datagram is waited for. -/
  | receive {e e' : Endpoint} {actions : List Action}
      {value : Option (Except TransportError (Option Message))}
      (h : Call.receiveNext.Runs e actions e' value) :
      Taken ⟨e, .receive, [⟨none, actions⟩], e'⟩
  /-- The messages that are due are visited. -/
  | scan {e e' : Endpoint} {now : Instant} {due : List UInt16}
      {visits : List Part} {finished : List Call.Finished}
      (hdue : e.inFlight.expiredIds? now = some due)
      (hvisits : Call.Visits now e due visits e' finished) :
      Taken ⟨e, .checkQueues, ⟨none, Call.opening now⟩ ::
        visits ++ [⟨none, Call.closing finished⟩], e'⟩
  /-- A deadline cannot be told, so nothing is visited. -/
  | brokenScan {e : Endpoint} {now : Instant}
      (hdue : e.inFlight.expiredIds? now = none) :
      Taken ⟨e, .checkQueues, [⟨none, Call.opening now⟩], e⟩

/-- A turn that is taken is a run of its call. -/
theorem Taken.runs {t : Turn} (h : t.Taken) :
    ∃ value, t.operation.call.Runs t.before t.actions t.after value := by
  have hmap {α : Type} {f : α → Result} {c : Call α} {e e' : Endpoint}
      {actions : List Action} {value : Option α}
      (h : c.Runs e actions e' value) :
      ∃ value', (f <$> c).Runs e (actions ++ []) e' value' := by
    cases value with
    | none =>
        rw [List.append_nil]
        exact ⟨none, h.bind_none _⟩
    | some a => exact ⟨_, h.bind (.done _ _)⟩
  cases h with
  | send h => exact hmap h
  | receive h => exact hmap h
  | scan hdue hvisits =>
      have h := Call.runs_checkQueues_iff.mpr
        (.inr ⟨_, _, _, _, hdue, hvisits, rfl, rfl⟩)
      obtain ⟨value, h⟩ := hmap (f := fun _ => Result.scanned) h
      simp only [actions, List.flatMap_cons, List.flatMap_append,
        List.cons_append, List.flatMap_nil, List.append_nil,
        List.append_assoc] at h ⊢
      exact ⟨value, h⟩
  | brokenScan hdue =>
      exact hmap (Call.runs_checkQueues_iff.mpr
        (.inl ⟨_, hdue, rfl, rfl, rfl⟩))

/-- Every run of a send, a receive or a scan is a turn. -/
theorem exists_taken {operation : Operation} {e e' : Endpoint}
    {actions : List Action} {value : Option Result}
    (hkind : (∃ destination m ticket,
      operation = .send destination m ticket) ∨ operation = .receive ∨
        operation = .checkQueues)
    (h : operation.call.Runs e actions e' value) :
    ∃ t : Turn, t.Taken ∧ t.before = e ∧ t.operation = operation ∧
      t.actions = actions ∧ t.after = e' := by
  have hmap {α : Type} {f : α → Result} {c : Call α}
      (h : (f <$> c).Runs e actions e' value) :
      ∃ value', c.Runs e actions e' value' := by
    rcases Call.runs_bind_iff.mp h with
      ⟨first, _, _, a, rfl, hc, hdone⟩ | ⟨-, hc⟩
    · obtain ⟨rfl, rfl, -⟩ := Call.runs_done_iff.mp hdone
      rw [List.append_nil]
      exact ⟨_, hc⟩
    · exact ⟨none, hc⟩
  rcases hkind with ⟨destination, m, ticket, rfl⟩ | rfl | rfl
  · obtain ⟨value', h⟩ := hmap h
    exact ⟨_, .send h, rfl, rfl, List.append_nil _, rfl⟩
  · obtain ⟨value', h⟩ := hmap h
    exact ⟨_, .receive h, rfl, rfl, List.append_nil _, rfl⟩
  · obtain ⟨value', h⟩ := hmap h
    rcases Call.runs_checkQueues_iff.mp h with ⟨now, hdue, rfl, rfl, -⟩ |
      ⟨now, due, parts, finished, hdue, hvisits, rfl, -⟩
    · exact ⟨_, .brokenScan hdue, rfl, rfl, List.append_nil _, rfl⟩
    · refine ⟨_, .scan hdue hvisits, rfl, rfl, ?_, rfl⟩
      simp only [Turn.actions, List.flatMap_cons, List.flatMap_append,
        List.cons_append, List.flatMap_nil, List.append_nil,
        List.append_assoc]

end Turn

/-! ## Serial runs -/

/-- The turns that a new endpoint may take one after the other, and what it has
become. A ticket stands for one who waits for one message, so no two turns
bring the same ticket. -/
inductive Serial (config : Config) : List Turn → Endpoint → Prop
  | start {random : UInt32} {e : Endpoint}
      (h : Endpoint.new config random = .ok e) : Serial config [] e
  | turn {turns : List Turn} {t : Turn} (h : Serial config turns t.before)
      (ht : t.Taken)
      (hfresh : ∀ ticket, t.operation.ticket = some ticket →
        ∀ t' ∈ turns, t'.operation.ticket ≠ some ticket) :
      Serial config (turns ++ [t]) t.after

end Coap
