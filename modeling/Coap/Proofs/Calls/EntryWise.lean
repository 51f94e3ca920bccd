import Mathlib.Logic.Function.Basic
import Coap.Proofs.Calls.Reached
import Coap.Proofs.InFlight.Deadlines
import Coap.Proofs.Runs.Scans

/-!
# A scan, message by message

A scan finds the ids that are due before it visits the first of them, and while it
goes from one to the next the queue changes under it: messages are taken out and
timers are set again. Still it comes to the same as looking at each message by
itself. What is made of a message depends on its own entry, on the clock reading and
on what the socket answers when it is given this message, and on nothing else; the
whole scan is that, done along the queue from its front to its end.

The argument keeps the queue in two pieces: what is left of the messages that were
looked at, and the messages that are still to come, which nobody has touched. Since
no two messages have one id, a visit to the first message of the second piece changes
neither what is before it nor what is after it.

## Main results

* `Call.runs_checkQueues_iff_findings` — the runs of a scan, told by what it makes of
  each message.
* `Endpoint.Reached.scan_entryWise` — the queue, the datagrams and the notifications
  of a scan, message by message and in the order of the queue.
-/

namespace Coap

/-- What is made of a message. -/
inductive Verdict where
  /-- Its timer still runs. -/
  | spared
  /-- It was sent too often to be sent again. -/
  | exhausted
  /-- It was sent again. -/
  | resent
  /-- It could not be sent again. -/
  | failed (cause : TransportError)

namespace Entry

/-- What is made of a message when it may be sent again so many times, and the socket
gives this answer if it is asked to send it. -/
def verdict (maxRetransmit : UInt16) (now : Instant)
    (answer : Except TransportError Unit) (entry : Entry) : Verdict :=
  if entry.timer.HasRunOut now then
    if maxRetransmit < entry.transmissions then .exhausted
    else
      match answer with
      | .ok () => .resent
      | .error cause => .failed cause
  else .spared

section Verdict

variable {maxRetransmit : UInt16} {now : Instant} {entry : Entry}
  (answer : Except TransportError Unit)

theorem verdict_of_running (h : ¬entry.timer.HasRunOut now) :
    entry.verdict maxRetransmit now answer = .spared := by
  simp only [verdict, h, if_false]

theorem verdict_of_lt (h : entry.timer.HasRunOut now)
    (hmax : maxRetransmit < entry.transmissions) :
    entry.verdict maxRetransmit now answer = .exhausted := by
  simp only [verdict, h, hmax, if_true]

theorem verdict_of_not_lt (h : entry.timer.HasRunOut now)
    (hmax : ¬maxRetransmit < entry.transmissions) :
    entry.verdict maxRetransmit now answer =
      match answer with
      | .ok () => .resent
      | .error cause => .failed cause := by
  simp only [verdict, h, hmax, if_true, if_false]

end Verdict

/-- The entry of a message that was sent once more: this is counted as far as counting
goes, and the timer starts again with twice the timeout. -/
def resentAt (entry : Entry) (now : Instant) : Entry :=
  { entry with
    transmissions := .ofNat (min (entry.transmissions.toNat + 1) 65535)
    timer := ⟨now, .ofNanos (2 * entry.timer.timeout.nanos)⟩ }

theorem retransmitted_eq (entry : Entry) (now : Instant) :
    entry.retransmitted now = entry.resentAt now := by
  have hcount : countUp entry.transmissions =
      .ofNat (min (entry.transmissions.toNat + 1) 65535) := by
    have hlt := entry.transmissions.toNat_lt
    apply UInt16.toNat_inj.mp
    by_cases hmore : entry.transmissions.toNat < 65535
    · have hone : (1 : UInt16).toNat = 1 := rfl
      rw [countUp, if_pos hmore, UInt16.toNat_add, UInt16.toNat_ofNat', hone]
      omega
    · rw [countUp, if_neg hmore, UInt16.toNat_ofNat']
      omega
  have htimer : entry.timer.backoff now =
      ⟨now, .ofNanos (2 * entry.timer.timeout.nanos)⟩ := by
    rw [Timer.backoff, Duration.double, Duration.checkedMul, Nat.mul_comm]
    rfl
  rw [retransmitted, resentAt, hcount, htimer]

/-- The doubling is exact if the deadline before it can be told. -/
theorem timeout_resentAt {entry : Entry} (h : entry.timer.deadline? ≠ none)
    (now : Instant) :
    (entry.resentAt now).timer.timeout.nanos = 2 * entry.timer.timeout.nanos := by
  obtain ⟨deadline, hdeadline⟩ := Option.ne_none_iff_exists'.mp h
  obtain ⟨hnanos, hlimit⟩ := Instant.nanos_add? hdeadline
  apply Duration.nanos_ofNanos
  unfold Instant.limit at hlimit
  unfold Duration.limit
  omega

end Entry

/-! ## Findings -/

theorem filterMap_cons_eq_append {α β : Type} (f : α → Option β) (a : α)
    (l : List α) : (a :: l).filterMap f = (f a).toList ++ l.filterMap f := by
  cases h : f a with
  | none => rw [List.filterMap_cons_none h, Option.toList_none, List.nil_append]
  | some b => rw [List.filterMap_cons_some h, Option.toList_some,
      List.singleton_append]

/-- A message in flight under a number, and what a scan makes of it. -/
structure Finding where
  seq : Nat
  entry : Entry
  verdict : Verdict

namespace Finding

/-- What is left of the message in flight. -/
def left (now : Instant) (f : Finding) : Option (Nat × Entry) :=
  match f.verdict with
  | .spared => some (f.seq, f.entry)
  | .resent => some (f.seq, f.entry.resentAt now)
  | .exhausted => none
  | .failed _ => none

/-- What is left of a message keeps its number and its id. -/
theorem left_eq_some {f : Finding} {now : Instant} {p : Nat × Entry}
    (h : f.left now = some p) : p.1 = f.seq ∧ p.2.id = f.entry.id := by
  unfold left at h
  cases hverdict : f.verdict with
  | spared =>
      rw [hverdict] at h
      cases h
      exact ⟨rfl, rfl⟩
  | resent =>
      rw [hverdict] at h
      cases h
      exact ⟨rfl, rfl⟩
  | exhausted =>
      rw [hverdict] at h
      cases h
  | failed cause =>
      rw [hverdict] at h
      cases h

/-- The datagram that is sent for it. -/
def sending (f : Finding) : Option Sending :=
  match f.verdict with
  | .resent => some ⟨f.entry.destination, f.entry.message, .ok ()⟩
  | .failed cause => some ⟨f.entry.destination, f.entry.message, .error cause⟩
  | .spared => none
  | .exhausted => none

/-- How it ends, if it does. -/
def outcome (f : Finding) : Option Outcome :=
  match f.verdict with
  | .exhausted => some .retriesExhausted
  | .failed cause => some (.failed cause)
  | .spared => none
  | .resent => none

/-- Who is told that it ended, and how. -/
def notice (f : Finding) : Option Notification :=
  f.outcome.bind fun outcome =>
    f.entry.ticket.map fun ticket => ⟨ticket, f.entry.id, outcome⟩

/-- The message with its outcome. -/
def ended (f : Finding) : Option Call.Finished := f.outcome.map (f.entry, ·)

/-- The actions of the visit to the message, if there is one. -/
def actions (f : Finding) : List Action :=
  match f.verdict with
  | .spared => []
  | .exhausted => [.updated, .updated, .updated]
  | .resent =>
      [.updated, .updated,
        .transmitted f.entry.destination f.entry.message (.ok ()), .updated]
  | .failed cause =>
      [.updated, .updated,
        .transmitted f.entry.destination f.entry.message (.error cause), .updated]

theorem sendings_actions (l : List Finding) :
    sendings (l.flatMap (·.actions)) = l.filterMap (·.sending) := by
  induction l with
  | nil => rfl
  | cons f rest ih =>
      have hfirst : sendings f.actions = f.sending.toList := by
        unfold actions sending
        cases f.verdict <;> rfl
      rw [List.flatMap_cons, sendings_append, hfirst, ih, filterMap_cons_eq_append]

theorem announced_actions (l : List Finding) :
    announced (l.flatMap (·.actions)) = [] := by
  induction l with
  | nil => rfl
  | cons f rest ih =>
      have hfirst : announced f.actions = [] := by
        unfold actions
        cases f.verdict <;> rfl
      rw [List.flatMap_cons, announced_append, hfirst, ih, List.append_nil]

theorem notices_ended (l : List Finding) :
    Call.notices (l.filterMap (·.ended)) = l.filterMap (·.notice) := by
  rw [Call.notices, List.filterMap_filterMap]
  refine List.filterMap_congr ?_
  intro f _
  rw [ended, notice, Option.bind_map]
  rfl

end Finding

/-- What is made of some messages when the socket answers like this: the answer is
looked up under the number of the message. -/
def findingsOf (maxRetransmit : UInt16) (now : Instant)
    (answers : Nat → Except TransportError Unit) (l : List (Nat × Entry)) :
    List Finding :=
  l.map fun p => ⟨p.1, p.2, p.2.verdict maxRetransmit now (answers p.1)⟩

/-- What is made of the messages in flight, in their order. -/
def Endpoint.findings (e : Endpoint) (now : Instant)
    (answers : Nat → Except TransportError Unit) : List Finding :=
  findingsOf e.config.transmission.maxRetransmit now answers e.inFlight.entries

/-! ## Changes of the state -/

/-- No two messages in flight have one id. -/
theorem InFlight.Sound.id_ne_of_split {q : InFlight} (hq : q.Sound)
    {first rest : List (Nat × Entry)} {p p' : Nat × Entry}
    (h : q.entries = first ++ p :: rest) (hp' : p' ∈ first ++ rest) :
    p'.2.id ≠ p.2.id := by
  have hnodup := hq.nodup_ids
  rw [InFlight.toList, List.map_map, h, List.map_append, List.map_cons,
    List.nodup_middle, List.nodup_cons, ← List.map_append] at hnodup
  intro hid
  exact hnodup.1 (List.mem_map.mpr ⟨p', hp', hid⟩)

namespace Endpoint

variable {config : Config} {e : Endpoint} {now : Instant} {f : Finding}

/-- What is made of a message changes the state like this. -/
def carryOut (now : Instant) (e : Endpoint) (f : Finding) : Endpoint :=
  match f.verdict with
  | .spared => e
  | .resent => e.noteRetransmission f.entry.id now
  | .exhausted => (e.dequeue f.entry.id).1
  | .failed _ => (e.dequeue f.entry.id).1

theorem Fits.fits_carryOut (he : e.Fits config) (now : Instant) (f : Finding) :
    (e.carryOut now f).Fits config := by
  unfold carryOut
  split
  · exact he
  · exact he.noteRetransmission _ _
  · exact he.dequeue _
  · exact he.dequeue _

/-- Only the messages in flight change, and no number is used. -/
theorem exists_carryOut_eq (now : Instant) (e : Endpoint) (f : Finding) :
    ∃ q, e.carryOut now f = { e with inFlight := q } ∧
      q.nextSeq = e.inFlight.nextSeq := by
  unfold carryOut
  split
  · exact ⟨_, rfl, rfl⟩
  · exact ⟨_, rfl, InFlight.nextSeq_update _ _ _⟩
  · exact ⟨_, rfl, InFlight.nextSeq_remove _ _⟩
  · exact ⟨_, rfl, InFlight.nextSeq_remove _ _⟩

/-- The messages before and after the one that something is made of stay as they
are. -/
theorem Fits.entries_carryOut (he : e.Fits config) (now : Instant) (f : Finding)
    {first rest : List (Nat × Entry)}
    (h : e.inFlight.entries = first ++ (f.seq, f.entry) :: rest) :
    (e.carryOut now f).inFlight.entries =
      first ++ (f.left now).toList ++ rest := by
  have hother := fun p' (hp' : p' ∈ first ++ rest) => he.sound.id_ne_of_split h hp'
  have hfirst := fun p' hp' => hother p' (List.mem_append_left rest hp')
  have hrest := fun p' hp' => hother p' (List.mem_append_right first hp')
  have hremove :
      (e.inFlight.remove f.entry.id).2.entries = first ++ rest := by
    have hkeep (l : List (Nat × Entry)) (hl : ∀ p' ∈ l, p'.2.id ≠ f.entry.id) :
        l.filter (fun p' => p'.2.id != f.entry.id) = l :=
      List.filter_eq_self.mpr fun p' hp' => bne_iff_ne.mpr (hl p' hp')
    rw [he.sound.entries_remove, h, List.filter_append, List.filter_cons,
      hkeep first hfirst, hkeep rest hrest, bne_self_eq_false,
      if_neg Bool.false_ne_true]
  have hupdate :
      (e.inFlight.update f.entry.id fun entry => entry.retransmitted now).entries =
        first ++ (f.seq, f.entry.resentAt now) :: rest := by
    have hkeep (l : List (Nat × Entry)) (hl : ∀ p' ∈ l, p'.2.id ≠ f.entry.id) :
        (l.map fun p' => if p'.2.id = f.entry.id
          then (p'.1, p'.2.retransmitted now) else p') = l :=
      (List.map_congr_left fun p' hp' => if_neg (hl p' hp')).trans (List.map_id' l)
    rw [he.sound.entries_update, h, List.map_append, List.map_cons,
      hkeep first hfirst, hkeep rest hrest, if_pos rfl, Entry.retransmitted_eq]
  unfold carryOut Finding.left
  cases f.verdict with
  | spared => rw [h, Option.toList_some, List.append_assoc, List.singleton_append]
  | resent =>
      rw [Option.toList_some, List.append_assoc, List.singleton_append]
      exact hupdate
  | exhausted =>
      rw [Option.toList_none, List.append_nil]
      exact hremove
  | failed cause =>
      rw [Option.toList_none, List.append_nil]
      exact hremove

/-- What is made of one message after the other. -/
theorem Fits.entries_foldl_carryOut {l : List Finding} (he : e.Fits config)
    {first : List (Nat × Entry)}
    (h : e.inFlight.entries = first ++ l.map fun f => (f.seq, f.entry)) :
    (l.foldl (carryOut now) e).inFlight.entries =
      first ++ l.filterMap (·.left now) := by
  induction l generalizing e first with
  | nil => exact h
  | cons f rest ih =>
      have hnext := he.entries_carryOut now f h
      rw [List.foldl_cons, ih (he.fits_carryOut now f) hnext, List.append_assoc,
        filterMap_cons_eq_append]

theorem exists_foldl_carryOut_eq (now : Instant) (l : List Finding) (e : Endpoint) :
    ∃ q, l.foldl (carryOut now) e = { e with inFlight := q } ∧
      q.nextSeq = e.inFlight.nextSeq := by
  induction l generalizing e with
  | nil => exact ⟨_, rfl, rfl⟩
  | cons f rest ih =>
      obtain ⟨q, hfirst, hnumber⟩ := exists_carryOut_eq now e f
      obtain ⟨q', hothers, hnumbers⟩ := ih { e with inFlight := q }
      rw [List.foldl_cons, hfirst]
      exact ⟨q', hothers, hnumbers.trans hnumber⟩

end Endpoint

/-! ## Runs -/

/-- What is made of a message depends on the answer under its own number. -/
theorem findingsOf_cons_update {maxRetransmit : UInt16} {now : Instant}
    {answers : Nat → Except TransportError Unit} {seq : Nat} {entry : Entry}
    {rest : List (Nat × Entry)} (answer : Except TransportError Unit)
    (hrest : ∀ p ∈ rest, p.1 ≠ seq) :
    findingsOf maxRetransmit now (Function.update answers seq answer)
        ((seq, entry) :: rest) =
      ⟨seq, entry, entry.verdict maxRetransmit now answer⟩ ::
        findingsOf maxRetransmit now answers rest := by
  rw [findingsOf, List.map_cons, Function.update_self]
  congr 1
  apply List.map_congr_left
  intro p hp
  rw [Function.update_of_ne (hrest p hp)]

/-- The ids of the messages whose timers have run out. -/
def dueIds (now : Instant) (l : List (Nat × Entry)) : List UInt16 :=
  (l.filter fun p => p.2.timer.HasRunOut now).map (·.2.id)

theorem dueIds_cons_of_due {now : Instant} {p : Nat × Entry}
    {rest : List (Nat × Entry)} (h : p.2.timer.HasRunOut now) :
    dueIds now (p :: rest) = p.2.id :: dueIds now rest := by
  simp only [dueIds, List.filter_cons, h, decide_true, if_true, List.map_cons]

theorem dueIds_cons_of_running {now : Instant} {p : Nat × Entry}
    {rest : List (Nat × Entry)} (h : ¬p.2.timer.HasRunOut now) :
    dueIds now (p :: rest) = dueIds now rest := by
  simp only [dueIds, List.filter_cons, h, decide_false, Bool.false_eq_true, if_false]

namespace Call

variable {config : Config} {e e' : Endpoint} {now : Instant} {seq : Nat}
  {entry : Entry} {actions : List Action}

/-- The visit to a message that is due does what the socket's answer, or the number
of its transmissions, makes of it. -/
theorem runs_visit_iff_finding (he : e.Fits config)
    (hmem : (seq, entry) ∈ e.inFlight.entries) (hdue : entry.timer.HasRunOut now)
    {value : Option (List Finished)} :
    (visit now entry.id).Runs e actions e' value ↔
      ∃ answer, ∃ f : Finding, f = ⟨seq, entry,
          entry.verdict config.transmission.maxRetransmit now answer⟩ ∧
        actions = f.actions ∧ e' = e.carryOut now f ∧
        value = some f.ended.toList := by
  have hget : e.inFlight.get? entry.id = some entry := he.sound.get?_of_mem hmem
  have htaken : (e.dequeue entry.id).2 = some entry :=
    (InFlight.fst_remove e.inFlight entry.id).trans hget
  rw [runs_visit_iff, hget, he.config_eq]
  simp only [reduceCtorEq, false_and, false_or, Option.some.injEq, exists_eq_left',
    exists_eq_left, htaken, Option.map_some, Option.toList_some]
  by_cases hmax : config.transmission.maxRetransmit < entry.transmissions
  · simp only [hmax, not_true_eq_false, false_and, or_false, true_and,
      Entry.verdict_of_lt _ hdue hmax]
    constructor
    · intro h
      exact ⟨.ok (), h⟩
    · rintro ⟨-, h⟩
      exact h
  · simp only [hmax, not_false_eq_true, false_and, false_or, true_and,
      Entry.verdict_of_not_lt _ hdue hmax]
    refine exists_congr fun answer => ?_
    cases answer with
    | ok => exact Iff.rfl
    | error cause => exact Iff.rfl

/-- A scan visits the first id and goes on with the others. -/
theorem runs_scan_cons_iff {id : UInt16} {ids : List UInt16}
    {value : Option (List Finished)} :
    (scan now (id :: ids)).Runs e actions e' value ↔
      ∃ first visited e₁ others rest,
        (visit now id).Runs e visited e₁ (some first) ∧
        (scan now ids).Runs e₁ rest e' (some others) ∧
        actions = visited ++ rest ∧ value = some (first ++ others) := by
  rw [runs_scan_iff]
  constructor
  · rintro ⟨_, _, hvisits, rfl, rfl⟩
    cases hvisits with
    | cons hvisit hrest =>
        exact ⟨_, _, _, _, _, hvisit, runs_scan_iff.mpr ⟨_, _, hrest, rfl, rfl⟩,
          List.flatMap_cons, rfl⟩
  · rintro ⟨first, visited, e₁, others, rest, hvisit, hscan, rfl, rfl⟩
    obtain ⟨parts, _, hvisits, rfl, ⟨⟩⟩ := runs_scan_iff.mp hscan
    exact ⟨_, _, .cons hvisit hvisits, rfl, rfl⟩

/-- Going over the messages that are due comes to looking at each message by
itself. -/
theorem runs_scan_iff_findings {first todo : List (Nat × Entry)} (he : e.Fits config)
    (hentries : e.inFlight.entries = first ++ todo)
    {value : Option (List Finished)} :
    (scan now (dueIds now todo)).Runs e actions e' value ↔
      ∃ answers, ∃ l : List Finding,
        l = findingsOf config.transmission.maxRetransmit now answers todo ∧
        actions = l.flatMap (·.actions) ∧ e' = l.foldl (Endpoint.carryOut now) e ∧
        value = some (l.filterMap (·.ended)) := by
  induction todo generalizing e first actions value with
  | nil =>
      rw [dueIds, List.filter_nil, List.map_nil, scan]
      constructor
      · intro h
        obtain ⟨rfl, rfl, rfl⟩ := runs_done_iff.mp h
        exact ⟨fun _ => .ok (), [], rfl, rfl, rfl, rfl⟩
      · rintro ⟨-, _, rfl, rfl, rfl, rfl⟩
        exact .done _ _
  | cons p rest ih =>
      obtain ⟨seq, entry⟩ := p
      by_cases hdue : entry.timer.HasRunOut now
      · have hmem : (seq, entry) ∈ e.inFlight.entries := by
          rw [hentries]
          exact List.mem_append_right _ List.mem_cons_self
        have hothers (p : Nat × Entry) (hp : p ∈ rest) : p.1 ≠ seq := by
          rintro rfl
          have hp' : p ∈ e.inFlight.entries := by
            rw [hentries]
            exact List.mem_append_right _ (List.mem_cons_of_mem _ hp)
          apply he.sound.id_ne_of_split hentries (List.mem_append_right _ hp)
          rw [he.sound.entry_unique hp' hmem]
        have hnext (verdict : Verdict) :=
          he.entries_carryOut now ⟨seq, entry, verdict⟩ hentries
        rw [dueIds_cons_of_due hdue, runs_scan_cons_iff]
        simp only [runs_visit_iff_finding he hmem hdue]
        constructor
        · rintro ⟨_, _, _, others, remaining, ⟨answer, f, rfl, rfl, rfl, ⟨⟩⟩, hrest,
            rfl, rfl⟩
          obtain ⟨answers, l, rfl, rfl, rfl, ⟨⟩⟩ :=
            (ih (he.fits_carryOut now _) (hnext _)).mp hrest
          refine ⟨Function.update answers seq answer, _,
            (findingsOf_cons_update answer hothers).symm, rfl, rfl, ?_⟩
          rw [filterMap_cons_eq_append]
        · rintro ⟨answers, _, rfl, rfl, rfl, rfl⟩
          refine ⟨_, _, _, _, _, ⟨answers seq, _, rfl, rfl, rfl, rfl⟩,
            (ih (he.fits_carryOut now _) (hnext _)).mpr
              ⟨answers, _, rfl, rfl, rfl, rfl⟩, rfl, ?_⟩
          exact congrArg some (filterMap_cons_eq_append _ _ _)
      · have hsplit : e.inFlight.entries = (first ++ [(seq, entry)]) ++ rest := by
          rw [hentries, List.append_assoc, List.singleton_append]
        have hcons (answers : Nat → Except TransportError Unit) :
            findingsOf config.transmission.maxRetransmit now answers
                ((seq, entry) :: rest) =
              ⟨seq, entry, .spared⟩ ::
                findingsOf config.transmission.maxRetransmit now answers rest := by
          rw [findingsOf, List.map_cons, Entry.verdict_of_running _ hdue]
          rfl
        rw [dueIds_cons_of_running hdue, ih he hsplit]
        constructor
        · rintro ⟨answers, l, rfl, h⟩
          exact ⟨answers, _, (hcons answers).symm, h⟩
        · rintro ⟨answers, _, rfl, h⟩
          rw [hcons] at h
          exact ⟨answers, _, rfl, h⟩

/-- The ids that are due are those of the messages whose timers have run out. -/
theorem expiredIds?_eq_dueIds (htells : e.TellsDeadlines) (now : Instant) :
    e.inFlight.expiredIds? now = some (dueIds now e.inFlight.entries) := by
  have hall : ∀ entry ∈ e.inFlight.toList, entry.timer.InRange := by
    intro entry hentry
    obtain ⟨p, hp, rfl⟩ := List.mem_map.mp hentry
    exact Timer.inRange_iff.mpr (htells p hp)
  rw [InFlight.expiredIds?, InFlight.expiredEntries?_of_inRange hall,
    InFlight.toList, List.filter_map, Option.map_some, List.map_map, dueIds]
  rfl

/-- The runs of a scan, told by what it makes of each message. -/
theorem runs_checkQueues_iff_findings (he : e.Fits config) (htells : e.TellsDeadlines)
    {value : Option Unit} :
    checkQueues.Runs e actions e' value ↔
      ∃ now answers, ∃ l : List Finding, l = e.findings now answers ∧
        actions = opening now ++ l.flatMap (·.actions) ++
          closing (l.filterMap (·.ended)) ∧
        e' = l.foldl (Endpoint.carryOut now) e ∧ value = some () := by
  have hsplit : e.inFlight.entries = [] ++ e.inFlight.entries := rfl
  rw [runs_checkQueues_iff]
  simp only [expiredIds?_eq_dueIds htells, reduceCtorEq, false_and, exists_false,
    false_or, Option.some.injEq]
  constructor
  · rintro ⟨now, _, parts, finished, rfl, hvisits, rfl, rfl⟩
    obtain ⟨answers, l, hl, hactions, rfl, ⟨⟩⟩ :=
      (runs_scan_iff_findings he hsplit).mp
        (runs_scan_iff.mpr ⟨parts, finished, hvisits, rfl, rfl⟩)
    refine ⟨now, answers, l, ?_, ?_, rfl, rfl⟩
    · rw [hl, Endpoint.findings, he.config_eq]
    · rw [hactions]
  · rintro ⟨now, answers, l, hl, rfl, rfl, rfl⟩
    rw [Endpoint.findings, he.config_eq] at hl
    obtain ⟨parts, _, hvisits, hactions, ⟨⟩⟩ := runs_scan_iff.mp
      ((runs_scan_iff_findings he hsplit).mpr ⟨answers, l, hl, rfl, rfl, rfl⟩)
    exact ⟨now, _, parts, _, rfl, hvisits, by rw [hactions], rfl⟩

end Call

/-! ## Scans as a whole -/

/-- A scan at this time, in this state, that takes these actions and leaves that
state, makes this of the messages in flight. -/
structure EntryWise (now : Instant) (l : List Finding) (e : Endpoint)
    (actions : List Action) (e' : Endpoint) : Prop where
  /-- What is left in flight is what is left of each message. -/
  entries : e'.inFlight.entries = l.filterMap (·.left now)
  /-- The datagrams go out in the order of the messages. -/
  sent : sendings actions = l.filterMap (·.sending)
  /-- Those who are told are told in that order, too. -/
  told : announced actions = l.filterMap (·.notice)
  /-- The clock is read before the first message is visited. Each message that is due
  has one visit, and nobody is told anything before the queue is free again. -/
  order : actions = Call.opening now ++ l.flatMap (·.actions) ++
    .released .inFlight :: (l.filterMap (·.notice)).map fun n => .told (.notified n)
  /-- Nothing else changes, and no number is used. -/
  rest : e' = { e with inFlight := e'.inFlight } ∧
    e'.inFlight.nextSeq = e.inFlight.nextSeq

namespace Endpoint

variable {config : Config} {e : Endpoint}

/-- The messages of the findings are those in flight. -/
theorem map_findings (e : Endpoint) (now : Instant)
    (answers : Nat → Except TransportError Unit) :
    ((e.findings now answers).map fun f => (f.seq, f.entry)) = e.inFlight.entries := by
  rw [findings, findingsOf, List.map_map]
  exact List.map_id' _

theorem Fits.entryWise_foldl (he : e.Fits config) (now : Instant)
    (answers : Nat → Except TransportError Unit) :
    EntryWise now (e.findings now answers) e
      (Call.opening now ++ (e.findings now answers).flatMap (·.actions) ++
        Call.closing ((e.findings now answers).filterMap (·.ended)))
      ((e.findings now answers).foldl (carryOut now) e) where
  entries := by
    have hall : e.inFlight.entries =
        [] ++ (e.findings now answers).map fun f => (f.seq, f.entry) := by
      rw [map_findings, List.nil_append]
    exact he.entries_foldl_carryOut hall
  sent := by
    have hclosing (finished : List Call.Finished) :
        sendings (Call.closing finished) = [] := by
      refine List.filterMap_eq_nil_iff.mpr ?_
      intro action haction
      rcases List.mem_cons.mp haction with rfl | htold
      · rfl
      · obtain ⟨n, -, rfl⟩ := List.mem_map.mp htold
        rfl
    rw [sendings_append, sendings_append, Finding.sendings_actions, hclosing,
      List.append_nil]
    rfl
  told := by
    rw [announced_append, announced_append, Finding.announced_actions,
      List.append_nil, ← Finding.notices_ended]
    exact announced_told _
  order := by rw [Call.closing, Finding.notices_ended]
  rest := by
    obtain ⟨q, hq, hnumber⟩ :=
      exists_foldl_carryOut_eq now (e.findings now answers) e
    rw [hq]
    exact ⟨rfl, hnumber⟩

/-- In every state that calls lead to, a scan comes to the same as looking at each
message in flight by itself. It does not break off, if all deadlines can be told,
whatever the clock reads and the socket answers. The wait for a message that is sent
again is twice the wait before. -/
theorem Reached.scan_entryWise (h : e.Reached config) (htells : e.TellsDeadlines) :
    (∀ now answers, ∃ actions e', Call.checkQueues.Runs e actions e' (some ()) ∧
      EntryWise now (e.findings now answers) e actions e') ∧
    (∀ actions e' value, Call.checkQueues.Runs e actions e' value →
      value = some () ∧
        ∃ now answers, EntryWise now (e.findings now answers) e actions e') ∧
    ∀ p ∈ e.inFlight.entries, ∀ now,
      (p.2.resentAt now).timer.timeout.nanos = 2 * p.2.timer.timeout.nanos := by
  refine ⟨?_, ?_, ?_⟩
  · intro now answers
    have hrun := (Call.runs_checkQueues_iff_findings h.fits htells).mpr
      ⟨now, answers, _, rfl, rfl, rfl, rfl⟩
    exact ⟨_, _, hrun, h.fits.entryWise_foldl now answers⟩
  · intro actions e' value hrun
    obtain ⟨now, answers, _, rfl, rfl, rfl, rfl⟩ :=
      (Call.runs_checkQueues_iff_findings h.fits htells).mp hrun
    exact ⟨rfl, now, answers, h.fits.entryWise_foldl now answers⟩
  · intro p hp now
    exact Entry.timeout_resentAt (htells p hp) now

section Sample

open Interrupted

/-- The socket refuses the first of two messages and takes the second one. -/
def refusesFirst (seq : Nat) : Except TransportError Unit :=
  if seq = 0 then .error .unreachable else .ok ()

theorem findings_bothInFlight :
    (launchedWith bothInFlight 3).findings ⟨2000000000⟩ refusesFirst =
      [⟨0, refusedEntry, .failed .unreachable⟩, ⟨1, delayedEntry, .resent⟩] := by
  have hdue : refusedEntry.timer.HasRunOut ⟨2000000000⟩ ∧
      delayedEntry.timer.HasRunOut ⟨2000000000⟩ := by decide +kernel
  have hfirst : refusedEntry.verdict 4 ⟨2000000000⟩ (refusesFirst 0) =
      .failed .unreachable := Entry.verdict_of_not_lt _ hdue.1 (by decide)
  have hsecond : delayedEntry.verdict 4 ⟨2000000000⟩ (refusesFirst 1) = .resent :=
    Entry.verdict_of_not_lt _ hdue.2 (by decide)
  change [Finding.mk 0 refusedEntry (refusedEntry.verdict 4 _ (refusesFirst 0)),
    Finding.mk 1 delayedEntry (delayedEntry.verdict 4 _ (refusesFirst 1))] = _
  rw [hfirst, hsecond]

/-- The first of two messages cannot be sent again when both are due, the second one
can. -/
theorem scan_entryWise_bothInFlight :
    (launchedWith bothInFlight 3).Reached World.sampleEndpoint.config ∧
    (launchedWith bothInFlight 3).TellsDeadlines ∧
    ∃ actions e',
      Call.checkQueues.Runs (launchedWith bothInFlight 3) actions e' (some ()) ∧
      e'.inFlight.entries = [(1, delayedEntry.resentAt ⟨2000000000⟩)] ∧
      sendings actions =
        [⟨refusedEntry.destination, refusedEntry.message, .error .unreachable⟩,
          ⟨delayedEntry.destination, delayedEntry.message, .ok ()⟩] ∧
      announced actions = [⟨7, 2, .failed .unreachable⟩] := by
  obtain ⟨hexists, -, -⟩ :=
    reached_bothInFlight.scan_entryWise tellsDeadlines_bothInFlight
  obtain ⟨actions, e', hruns, hscan⟩ := hexists ⟨2000000000⟩ refusesFirst
  rw [findings_bothInFlight] at hscan
  exact ⟨reached_bothInFlight, tellsDeadlines_bothInFlight, actions, e', hruns,
    hscan.entries, hscan.sent, hscan.told⟩

end Sample

end Endpoint

end Coap
