import Mathlib.Data.List.Forall2
import Coap.Proofs.Outcome.Causes

/-!
# A run repeated for one message

What becomes of a message in flight depends on its own send, on the answers with
its id, on when the scans come and on what comes of sending it, and on nothing
else. So a run may be repeated for the message alone: the second run makes the
send that queues it, every scan, and every receive of an answer to it, with the
same clock readings, the same random fraction, the same receptions, and the same
results of sending the message. It makes no other calls, and there the message
has the number 0.

Both runs are kept in step by one relation: under its number the message has the
same entry in both, or none. A turn that meets the message decides on its fate,
and the fates in both runs are the same, since they are asked for by the same
causes. A turn that the second run leaves out does nothing about the message.

## Main results

* `Turn.Fate.agree_of_mem`, `Turn.Fate.agree_of_queues` — the same inputs bring
  about the same fate.
* `Turn.Taken.spares` — a turn that does not concern a message leaves it alone.
* `Serial.inStep` — a run and its repetition are in step.
-/

namespace Coap

variable {config : Config} {t t' : Turn} {turns turns' : List Turn}
  {e e' : Endpoint} {seq : Nat} {entry origin : Entry} {id : UInt16}
  {ticket : Option Ticket}

/-! ## Two runs -/

namespace Turn

/-- A turn may matter to the message with a number and an id: it puts that
message in flight, it is a scan, or it receives an answer with the id. -/
def Concerns (config : Config) (seq : Nat) (id : UInt16) (t : Turn) : Prop :=
  t.number? = some seq ∨ t.operation = .checkQueues ∨
    t.Answers config .acknowledgement id ∨ t.Answers config .reset id

/-- A turn is repeated for the sake of the message with a number, which has the
number 0 in the second run: its call is made again, with the same clock
readings, fraction and reception, and the transport does the same with the
datagrams of the message. -/
structure Repeats (seq : Nat) (t t' : Turn) : Prop where
  operation : t'.operation = t.operation
  clock : t'.clock = t.clock
  draws : t'.draws = t.draws
  received : ∀ r, .received r ∈ t'.actions ↔ .received r ∈ t.actions
  results : ∀ s ∈ t.sentFor seq, ∀ s' ∈ t'.sentFor 0, s'.result = s.result

/-- The message fares alike in a turn and in its repetition: the same is sent
for it, it has the same entry in flight before and after, or none, and the
holder of its ticket is told the same. -/
structure Alike (seq : Nat) (ticket : Option Ticket) (t t' : Turn) : Prop where
  sent : t'.sentFor 0 = t.sentFor seq
  before : ∀ entry, (0, entry) ∈ t'.before.inFlight.entries ↔
    (seq, entry) ∈ t.before.inFlight.entries
  after : ∀ entry, (0, entry) ∈ t'.after.inFlight.entries ↔
    (seq, entry) ∈ t.after.inFlight.entries
  told : ∀ holder, ticket = some holder →
    ∀ outcome, outcome ∈ t'.toldTo holder ↔ outcome ∈ t.toldTo holder

/-- A turn does nothing about the message with a number and a ticket. -/
structure Spares (seq : Nat) (ticket : Option Ticket) (t : Turn) : Prop where
  sent : t.sentFor seq = []
  entries : ∀ entry, (seq, entry) ∈ t.after.inFlight.entries ↔
    (seq, entry) ∈ t.before.inFlight.entries
  told : ∀ holder, ticket = some holder → t.toldTo holder = []

end Turn

open Classical in
/-- The turns that may matter to the message with a number and an id. -/
noncomputable def concerning (config : Config) (seq : Nat) (id : UInt16)
    (turns : List Turn) : List Turn :=
  turns.filter fun t => t.Concerns config seq id

theorem mem_concerning :
    t ∈ concerning config seq id turns ↔
      t ∈ turns ∧ t.Concerns config seq id := by
  simp [concerning]

theorem concerning_snoc_of_concerns (ht : t.Concerns config seq id) :
    concerning config seq id (turns ++ [t]) =
      concerning config seq id turns ++ [t] := by
  simp [concerning, ht]

theorem concerning_snoc_of_not_concerns (ht : ¬t.Concerns config seq id) :
    concerning config seq id (turns ++ [t]) = concerning config seq id turns := by
  simp [concerning, ht]

/-! ## The same inputs bring about the same fate -/

/-- A scan treats a message alike wherever sending it comes to the same. -/
theorem Treated.agree {now : Instant} {sent sent' : List Sending}
    {left left' : Option Entry} {outcome outcome' : Option Outcome}
    (h : Treated config now entry sent left outcome)
    (h' : Treated config now entry sent' left' outcome')
    (hresults : ∀ s ∈ sent, ∀ s' ∈ sent', s'.result = s.result) :
    sent' = sent ∧ left' = left ∧ outcome' = outcome := by
  cases h with
  | exhausted hmax =>
      cases h' with
      | exhausted => exact ⟨rfl, rfl, rfl⟩
      | failed _ hless => exact absurd hmax hless
      | resent hless => exact absurd hmax hless
  | failed cause hless =>
      cases h' with
      | exhausted hmax => exact absurd hmax hless
      | failed cause' =>
          cases hresults _ List.mem_cons_self _ List.mem_cons_self
          exact ⟨rfl, rfl, rfl⟩
      | resent => cases hresults _ List.mem_cons_self _ List.mem_cons_self
  | resent hless =>
      cases h' with
      | exhausted hmax => exact absurd hmax hless
      | failed => cases hresults _ List.mem_cons_self _ List.mem_cons_self
      | resent => exact ⟨rfl, rfl, rfl⟩

namespace Turn

theorem Repeats.answers_iff (h : t.Repeats seq t') {type : MessageType} :
    t'.Answers config type id ↔ t.Answers config type id := by
  simp only [Answers, h.received]

namespace Fate

variable {sent sent' : List Sending} {left left' : Option Entry}
  {outcome outcome' : Option Outcome}

/-- A message that is in flight fares alike in a turn and in its repetition. -/
theorem agree_of_mem (h : Fate config t seq entry sent left outcome)
    (h' : Fate config t' 0 entry sent' left' outcome')
    (hrepeats : t.Repeats seq t')
    (hresults : ∀ s ∈ sent, ∀ s' ∈ sent', s'.result = s.result)
    (ht : t.Taken) (he : t.before.Fits config) (he' : t'.before.Fits config)
    (hmem : (seq, entry) ∈ t.before.inFlight.entries)
    (hmem' : (0, entry) ∈ t'.before.inFlight.entries)
    (hclock : ∀ p ∈ t.before.inFlight.entries, p.2.timer.deadline? ≠ none)
    (hclock' : ∀ p ∈ t'.before.inFlight.entries, p.2.timer.deadline? ≠ none) :
    sent' = sent ∧ left' = left ∧ outcome' = outcome := by
  have hnotQueues : ¬t.Queues config seq entry := fun hqueues =>
    hqueues.notMem_seqs he (InFlight.mem_seqs_of_mem hmem)
  have hnotQueues' : ¬t'.Queues config 0 entry := fun hqueues =>
    hqueues.notMem_seqs he' (InFlight.mem_seqs_of_mem hmem')
  have hanswerType {type : MessageType} {o : Outcome}
      (ho : (type = .acknowledgement ∧ o = .acknowledged) ∨
        (type = .reset ∧ o = .rejected)) :
      type = .acknowledgement ∨ type = .reset :=
    ho.imp And.left And.left
  have hnotScan {type : MessageType} (hanswers : t.Answers config type entry.id)
      (hoperation : t.operation = .checkQueues) : False := by
    have hreceive := (ht.answers_unique he hanswers).1
    rw [hoperation] at hreceive
    cases hreceive
  cases h with
  | kept _ hno hdue =>
      cases h' with
      | kept => exact ⟨rfl, rfl, rfl⟩
      | answered _ hanswers ho =>
          exact absurd (hrepeats.answers_iff.mp hanswers)
            (hno _ (hanswerType ho))
      | launched hqueues => exact absurd hqueues hnotQueues'
      | stranded _ hqueues => exact absurd hqueues hnotQueues'
      | @scanned now _ _ _ _ hoperation hnow hisdue _ =>
          have hthen : ∃ now ∈ t.clock, entry.IsDue now := by
            refine ⟨now, ?_, hisdue⟩
            rw [← hrepeats.clock, hnow]
            exact List.mem_singleton_self now
          obtain ⟨p, hp, hnone⟩ :=
            hdue (hrepeats.operation.symm.trans hoperation) hthen
          exact absurd hnone (hclock p hp)
  | answered _ hanswers ho =>
      cases h' with
      | kept _ hno =>
          exact absurd (hrepeats.answers_iff.mpr hanswers)
            (hno _ (hanswerType ho))
      | answered _ hanswers' ho' =>
          obtain ⟨rfl, -⟩ := (ht.answers_unique he hanswers).2 _ _
            (hrepeats.answers_iff.mp hanswers')
          rcases ho with ⟨rfl, rfl⟩ | ⟨rfl, rfl⟩
          · rcases ho' with ⟨-, rfl⟩ | ⟨htype, -⟩
            · exact ⟨rfl, rfl, rfl⟩
            · cases htype
          · rcases ho' with ⟨htype, -⟩ | ⟨-, rfl⟩
            · cases htype
            · exact ⟨rfl, rfl, rfl⟩
      | launched hqueues => exact absurd hqueues hnotQueues'
      | stranded _ hqueues => exact absurd hqueues hnotQueues'
      | scanned _ hoperation =>
          exact (hnotScan hanswers
            (hrepeats.operation.symm.trans hoperation)).elim
  | launched hqueues => exact absurd hqueues hnotQueues
  | stranded _ hqueues => exact absurd hqueues hnotQueues
  | @scanned now _ _ _ _ hoperation hnow hisdue htreated =>
      have hnow' := hrepeats.clock.trans hnow
      cases h' with
      | kept _ _ hdue =>
          have hthen : ∃ now ∈ t'.clock, entry.IsDue now := by
            refine ⟨now, ?_, hisdue⟩
            rw [hnow']
            exact List.mem_singleton_self now
          obtain ⟨p, hp, hnone⟩ :=
            hdue (hrepeats.operation.trans hoperation) hthen
          exact absurd hnone (hclock' p hp)
      | answered _ hanswers =>
          exact (hnotScan (hrepeats.answers_iff.mp hanswers) hoperation).elim
      | launched hqueues => exact absurd hqueues hnotQueues'
      | stranded _ hqueues => exact absurd hqueues hnotQueues'
      | scanned _ _ hnow'' _ htreated' =>
          rw [hnow'] at hnow''
          cases hnow''
          exact htreated.agree htreated' hresults

/-- A message that is being queued fares alike in a turn and in its
repetition. -/
theorem agree_of_queues (h : Fate config t seq entry sent left outcome)
    (h' : Fate config t' 0 entry sent' left' outcome')
    (hresults : ∀ s ∈ sent, ∀ s' ∈ sent', s'.result = s.result)
    (he : t.before.Fits config) (he' : t'.before.Fits config)
    (hqueues : t.Queues config seq entry) (hqueues' : t'.Queues config 0 entry) :
    sent' = sent ∧ left' = left ∧ outcome' = outcome := by
  have hnotMem : (seq, entry) ∉ t.before.inFlight.entries := fun hmem =>
    hqueues.notMem_seqs he (InFlight.mem_seqs_of_mem hmem)
  have hnotMem' : (0, entry) ∉ t'.before.inFlight.entries := fun hmem =>
    hqueues'.notMem_seqs he' (InFlight.mem_seqs_of_mem hmem)
  cases h with
  | kept hmem => exact absurd hmem hnotMem
  | answered hmem => exact absurd hmem hnotMem
  | scanned hmem => exact absurd hmem hnotMem
  | launched =>
      cases h' with
      | kept hmem => exact absurd hmem hnotMem'
      | answered hmem => exact absurd hmem hnotMem'
      | scanned hmem => exact absurd hmem hnotMem'
      | launched => exact ⟨rfl, rfl, rfl⟩
      | stranded => cases hresults _ List.mem_cons_self _ List.mem_cons_self
  | stranded cause =>
      cases h' with
      | kept hmem => exact absurd hmem hnotMem'
      | answered hmem => exact absurd hmem hnotMem'
      | scanned hmem => exact absurd hmem hnotMem'
      | launched => cases hresults _ List.mem_cons_self _ List.mem_cons_self
      | stranded =>
          cases hresults _ List.mem_cons_self _ List.mem_cons_self
          exact ⟨rfl, rfl, rfl⟩

end Fate

/-- What the repetition of a turn does about the message: it meets what the turn
meets, sends the same, leaves the same in flight, and tells the same of it. -/
structure Agrees (config : Config) (seq : Nat) (t t' : Turn) : Prop where
  meets : ∀ entry, t'.Meets config 0 entry ↔ t.Meets config seq entry
  sent : t'.sentFor 0 = t.sentFor seq
  before : ∀ entry, (0, entry) ∈ t'.before.inFlight.entries ↔
    (seq, entry) ∈ t.before.inFlight.entries
  after : ∀ entry, (0, entry) ∈ t'.after.inFlight.entries ↔
    (seq, entry) ∈ t.after.inFlight.entries
  told : ∀ entry, t.Meets config seq entry → ∀ n outcome,
    entry.notify outcome = some n → (n ∈ t'.told ↔ n ∈ t.told)

section

variable (ht : t.Taken) (ht' : t'.Taken) (he : t.before.Fits config)
  (he' : t'.before.Fits config) (hrepeats : t.Repeats seq t')
  (hbefore : ∀ entry, (0, entry) ∈ t'.before.inFlight.entries ↔
    (seq, entry) ∈ t.before.inFlight.entries)

include ht ht' he he' hbefore

/-- Two turns that meet one entry and bring about one fate agree. -/
theorem agrees_of_fates
    (hagree : ∀ {left left' outcome outcome'},
      Fate config t seq entry (t.sentFor seq) left outcome →
      Fate config t' 0 entry (t'.sentFor 0) left' outcome' →
      t'.sentFor 0 = t.sentFor seq ∧ left' = left ∧ outcome' = outcome)
    (hmeets : t.Meets config seq entry) (hmeets' : t'.Meets config 0 entry) :
    Agrees config seq t t' := by
  obtain ⟨left, outcome, hfate, hleft, htold⟩ := ht.decides he hmeets
  obtain ⟨left', outcome', hfate', hleft', htold'⟩ := ht'.decides he' hmeets'
  obtain ⟨hsent, rfl, rfl⟩ := hagree hfate hfate'
  refine ⟨?_, hsent, hbefore, ?_, ?_⟩
  · intro entry₁
    constructor
    · intro h
      rwa [h.unique hmeets' he']
    · intro h
      rwa [h.unique hmeets he]
  · intro entry₁
    rw [hleft, hleft']
  · intro entry₁ h n o hn
    obtain rfl := h.unique hmeets he
    rw [htold n o hn, htold' n o hn]

/-- A turn that does not meet the message agrees with a repetition that does not
meet it. -/
theorem agrees_of_not_meets (hmeets : ∀ entry, ¬t.Meets config seq entry)
    (hmeets' : ∀ entry, ¬t'.Meets config 0 entry) : Agrees config seq t t' := by
  obtain ⟨hgone, hsent⟩ := ht.of_not_meets he hmeets
  obtain ⟨hgone', hsent'⟩ := ht'.of_not_meets he' hmeets'
  refine ⟨?_, hsent'.trans hsent.symm, hbefore, ?_, ?_⟩
  · exact fun entry => iff_of_false (hmeets' entry) (hmeets entry)
  · intro entry
    exact iff_of_false (fun h => hgone' (InFlight.mem_seqs_of_mem h))
      (fun h => hgone (InFlight.mem_seqs_of_mem h))
  · exact fun entry h => absurd h (hmeets entry)

include hrepeats

/-- A turn that queues nothing under the number agrees with its repetition, if
that queues nothing under the number 0. -/
theorem agrees_of_not_queues (hqueues : ∀ entry, ¬t.Queues config seq entry)
    (hqueues' : ∀ entry, ¬t'.Queues config 0 entry)
    (hclock : ∀ p ∈ t.before.inFlight.entries, p.2.timer.deadline? ≠ none)
    (hclock' : ∀ p ∈ t'.before.inFlight.entries, p.2.timer.deadline? ≠ none) :
    Agrees config seq t t' := by
  by_cases hmem : ∃ entry, (seq, entry) ∈ t.before.inFlight.entries
  · obtain ⟨entry, hmem⟩ := hmem
    have hmem' := (hbefore entry).mpr hmem
    refine agrees_of_fates ht ht' he he' hbefore ?_ (.inl hmem) (.inl hmem')
    intro left left' outcome outcome' hfate hfate'
    exact hfate.agree_of_mem hfate' hrepeats hrepeats.results ht he he' hmem
      hmem' hclock hclock'
  · refine agrees_of_not_meets ht ht' he he' hbefore ?_ ?_
    · rintro entry (h | h)
      · exact hmem ⟨entry, h⟩
      · exact hqueues entry h
    · rintro entry (h | h)
      · exact hmem ⟨entry, (hbefore entry).mp h⟩
      · exact hqueues' entry h

/-- The repetition of a send that queues a message queues it too, with the same
entry, if nothing is in flight there. -/
theorem agrees_of_queues (hqueues : t.Queues config seq entry)
    (hempty : t'.before.inFlight.entries = [])
    (hnext : t'.before.inFlight.nextSeq = 0) :
    t'.Queues config 0 entry ∧ Agrees config seq t t' := by
  obtain ⟨hoperation, -, hencode, -, hdraws, htimeout, hclock⟩ := id hqueues
  rename_i destination m ticket text fraction timeout now
  have hoperation' := hrepeats.operation.trans hoperation
  have hclock' := hrepeats.clock.trans hclock
  -- the repetition reads the clock, so it queues its message
  have hnumber : t'.number? = some 0 := by
    have hfree := he'.sound.contains_of_entries_nil hempty m.id
    cases ht' with
    | send hrun =>
        cases hoperation'
        have hread := hrun.send_numbers ?_ hfree
        · rw [hnext] at hread
          exact hread
        · rw [Turn.clock, actions_singleton] at hclock'
          rw [hclock']
          exact List.cons_ne_nil _ _
    | receive => cases hoperation'
    | scan => cases hoperation'
    | brokenScan => cases hoperation'
  obtain ⟨entry', hqueues'⟩ := ht'.queues he' hoperation' hnumber
  have hsame : entry' = Entry.new m.id destination text ticket now timeout := by
    obtain ⟨text', fraction', timeout', now', hencode', -, hdraws', htimeout',
      hnow', rfl⟩ := hqueues'.origin hoperation'
    rw [hencode] at hencode'
    rw [hrepeats.draws, hdraws] at hdraws'
    cases hencode'
    cases hdraws'
    rw [hclock'] at hnow'
    cases hnow'
    rw [htimeout] at htimeout'
    cases htimeout'
    rfl
  subst hsame
  refine ⟨hqueues', ?_⟩
  refine agrees_of_fates ht ht' he he' hbefore ?_ (.inr hqueues) (.inr hqueues')
  intro left left' outcome outcome' hfate hfate'
  exact hfate.agree_of_queues hfate' hrepeats.results he he' hqueues hqueues'

end

end Turn

/-! ## Two runs in step -/

/-- No call but a send gives out numbers. -/
theorem Endpoint.lasting_nextSeq (n : Nat) :
    Endpoint.Lasting fun e e' => e.inFlight.nextSeq = n → e'.inFlight.nextSeq = n
    where
  refl _ he := he
  openReadBuffer _ he := he
  accept _ _ _ _ he := he
  dequeue e id he := (InFlight.nextSeq_remove e.inFlight id).trans he
  noteRetransmission e id _ he :=
    (InFlight.nextSeq_update e.inFlight id _).trans he

namespace Turn

theorem Taken.nextSeq_eq (ht : t.Taken)
    (hoperation : t.operation = .receive ∨ t.operation = .checkQueues) :
    t.after.inFlight.nextSeq = t.before.inFlight.nextSeq := by
  have hlasting := Endpoint.lasting_nextSeq t.before.inFlight.nextSeq
  have hkeeps : t.operation.call.Keeps fun e =>
      e.inFlight.nextSeq = t.before.inFlight.nextSeq := by
    rcases hoperation with hreceive | hscan
    · rw [hreceive]
      exact Call.Moves.bind (Call.moves_receiveNext hlasting.receptive) fun _ => trivial
    · rw [hscan]
      exact Call.Moves.bind (Call.moves_checkQueues hlasting) fun _ => trivial
  obtain ⟨value, hruns⟩ := ht.runs
  exact hkeeps.runs rfl hruns

/-- A turn that does not concern a message in flight does nothing about it. -/
theorem Taken.spares (ht : t.Taken) (he : t.before.Fits config)
    (hconcerns : ¬t.Concerns config seq id)
    (hid : ∀ entry, (seq, entry) ∈ t.before.inFlight.entries → entry.id = id) :
    t.sentFor seq = [] ∧
      (∀ entry, (seq, entry) ∈ t.after.inFlight.entries ↔
        (seq, entry) ∈ t.before.inFlight.entries) ∧
      ∀ entry, t.Meets config seq entry → ∀ n outcome,
        entry.notify outcome = some n → n ∉ t.told := by
  have hnotQueues (entry : Entry) : ¬t.Queues config seq entry :=
    fun hqueues => hconcerns (.inl hqueues.number)
  by_cases hmeets : ∃ entry, t.Meets config seq entry
  · obtain ⟨entry, hmeets⟩ := hmeets
    obtain ⟨left, outcome, hfate, hleft, htold⟩ := ht.decides he hmeets
    have hmem := hmeets.resolve_right (hnotQueues entry)
    have hkept : t.sentFor seq = [] ∧ left = some entry ∧ outcome = none := by
      generalize t.sentFor seq = sent at hfate
      cases hfate with
      | kept => exact ⟨rfl, rfl, rfl⟩
      | answered _ hanswers ho =>
          rw [hid entry hmem] at hanswers
          rcases ho with ⟨rfl, -⟩ | ⟨rfl, -⟩
          · exact absurd (.inr (.inr (.inl hanswers))) hconcerns
          · exact absurd (.inr (.inr (.inr hanswers))) hconcerns
      | launched hqueues => exact absurd hqueues (hnotQueues entry)
      | stranded _ hqueues => exact absurd hqueues (hnotQueues entry)
      | scanned _ hoperation =>
          exact absurd (.inr (.inl hoperation)) hconcerns
    obtain ⟨hsent, rfl, rfl⟩ := hkept
    refine ⟨hsent, ?_, ?_⟩
    · intro entry'
      rw [hleft, Option.some.injEq]
      constructor
      · rintro rfl
        exact hmem
      · intro hmem'
        exact he.sound.entry_unique hmem hmem'
    · intro entry' hmeets' n o hn htold'
      obtain rfl := hmeets'.unique hmeets he
      cases (htold n o hn).mp htold'
  · obtain ⟨hgone, hsent⟩ := ht.of_not_meets he (not_exists.mp hmeets)
    refine ⟨hsent, ?_, fun entry h => absurd ⟨entry, h⟩ hmeets⟩
    intro entry
    exact iff_of_false (fun h => hgone (InFlight.mem_seqs_of_mem h))
      fun h => hmeets ⟨entry, .inl h⟩

end Turn

/-- Two runs are in step about a message: it has the same entry in both, or
none, there is nothing else in the second one, and no number is given there
before the message has one. -/
structure InStep (seq : Nat) (turns : List Turn) (e e' : Endpoint) : Prop where
  same : ∀ entry, (0, entry) ∈ e'.inFlight.entries ↔
    (seq, entry) ∈ e.inFlight.entries
  only : ∀ p ∈ e'.inFlight.entries, p.1 = 0
  fresh : (∀ t ∈ turns, t.number? ≠ some seq) → e'.inFlight.nextSeq = 0

namespace InStep

/-- The deadlines of the second run can be told if those of the first can. -/
theorem clock (h : InStep seq turns e e')
    (hclock : ∀ p ∈ e.inFlight.entries, p.2.timer.deadline? ≠ none) :
    ∀ p ∈ e'.inFlight.entries, p.2.timer.deadline? ≠ none := by
  rintro ⟨number, entry⟩ hp
  obtain rfl : number = 0 := h.only _ hp
  exact hclock (seq, entry) ((h.same entry).mp hp)

/-- A turn that puts nothing in flight but under the number 0 leaves nothing
else there. -/
theorem only_after (ht : t.Taken) (he : t.before.Fits config)
    (honly : ∀ p ∈ t.before.inFlight.entries, p.1 = 0)
    (hqueues : ∀ number entry, t.Queues config number entry → number = 0) :
    ∀ p ∈ t.after.inFlight.entries, p.1 = 0 := by
  rintro ⟨number, entry⟩ hp
  by_contra hne
  have hmeets (entry' : Entry) : ¬t.Meets config number entry' := by
    rintro (hmem | hnew)
    · exact hne (honly (number, entry') hmem)
    · exact hne (hqueues _ _ hnew)
  exact (ht.of_not_meets he hmeets).1 (InFlight.mem_seqs_of_mem hp)

end InStep

theorem exists_of_forall₂_snoc {α β : Type} {R : α → β → Prop} {l : List α}
    {a : α} {l' : List β} (h : List.Forall₂ R (l ++ [a]) l') :
    ∃ first b, l' = first ++ [b] ∧ List.Forall₂ R l first ∧ R a b := by
  induction l generalizing l' with
  | nil =>
      cases h with
      | cons hab hnil =>
          cases hnil
          exact ⟨[], _, rfl, .nil, hab⟩
  | cons x l ih =>
      cases h with
      | cons hx hrest =>
          obtain ⟨first, b, rfl, hfirst, hab⟩ := ih hrest
          exact ⟨_ :: first, b, rfl, .cons hx hfirst, hab⟩

theorem exists_of_mem_forall₂ {α β : Type} {R : α → β → Prop} {l : List α}
    {l' : List β} (h : List.Forall₂ R l l') {a : α} (ha : a ∈ l) :
    ∃ b ∈ l', R a b := by
  induction h with
  | nil => cases ha
  | cons hab _ ih =>
      rcases List.mem_cons.mp ha with rfl | ha
      · exact ⟨_, List.mem_cons_self, hab⟩
      · obtain ⟨b, hb, hab⟩ := ih ha
        exact ⟨b, List.mem_cons_of_mem _ hb, hab⟩

namespace Serial

theorem inFlight_of_nil (h : Serial config [] e) : e.inFlight = .empty := by
  generalize hnil : ([] : List Turn) = all at h
  cases h with
  | start hnew => exact (Endpoint.fits_new hnew).2
  | turn => exact absurd hnil (by simp)

/-- In every run the message has the id that it was sent with. -/
theorem id_of_mem (h : Serial config turns e)
    (hsend : ∀ t ∈ turns, t.number? = some seq → ∃ destination m ticket,
      t.operation = .send destination m ticket ∧ m.id = id)
    (hmem : (seq, entry) ∈ e.inFlight.entries) : entry.id = id := by
  obtain ⟨t, ht, origin, hqueues, hslot⟩ := h.originates hmem
  obtain ⟨destination, m, ticket, hoperation, hid⟩ := hsend t ht hqueues.number
  obtain ⟨_, _, _, _, -, -, -, -, -, rfl⟩ := hqueues.origin hoperation
  exact (congrArg Slot.id hslot).trans hid

/-- No turn before the one that gives a message its number has given it, so the
second run has given none so far. -/
theorem nextSeq_eq_zero (h : Serial config turns t.before)
    (hstep : InStep seq turns t.before e') (ht : t.Taken)
    (hnumber : t.number? = some seq) : e'.inFlight.nextSeq = 0 := by
  refine hstep.fresh ?_
  intro t₁ ht₁ hnumber₁
  have hlt := h.number_lt ht₁ hnumber₁
  have heq := (Turn.number?_eq_some ht h.fits hnumber).1
  omega

theorem entries_eq_nil (h : Serial config turns t.before)
    (h' : Serial config turns' e') (hstep : InStep seq turns t.before e')
    (ht : t.Taken) (hnumber : t.number? = some seq) :
    e'.inFlight.entries = [] := by
  have hnext := h.nextSeq_eq_zero hstep ht hnumber
  refine List.eq_nil_iff_forall_not_mem.mpr ?_
  rintro ⟨number, entry⟩ hp
  have hlt := h'.fits.sound.seq_lt hp
  omega

/-- A run and its repetition for one message are in step, and their turns agree
about that message. -/
theorem inStep (h : Serial config turns e)
    (hclock : ∀ t ∈ turns, ∀ p ∈ t.before.inFlight.entries,
      p.2.timer.deadline? ≠ none)
    (hsend : ∀ t ∈ turns, t.number? = some seq → ∃ destination m ticket,
      t.operation = .send destination m ticket ∧ m.id = id)
    (h' : Serial config turns' e')
    (hrepeats : List.Forall₂ (Turn.Repeats seq) (concerning config seq id turns)
      turns') :
    InStep seq turns e e' ∧
      List.Forall₂ (Turn.Agrees config seq) (concerning config seq id turns)
        turns' := by
  induction h generalizing turns' e' with
  | start hnew =>
      cases hrepeats
      have hempty := (Endpoint.fits_new hnew).2
      have hempty' := h'.inFlight_of_nil
      refine ⟨⟨?_, ?_, ?_⟩, .nil⟩
      · rw [hempty, hempty']
        exact fun entry => iff_of_false nofun nofun
      · rw [hempty']
        exact nofun
      · rw [hempty']
        exact fun _ => rfl
  | @turn turns t hrun ht hfresh ih =>
      have hclock₀ := fun t ht => hclock t (List.mem_append_left _ ht)
      have hsend₀ := fun t ht => hsend t (List.mem_append_left _ ht)
      have hself : t ∈ turns ++ [t] :=
        List.mem_append_right _ (List.mem_singleton_self t)
      by_cases hconcerns : t.Concerns config seq id
      · rw [concerning_snoc_of_concerns hconcerns] at hrepeats ⊢
        obtain ⟨first, t', rfl, hfirst, hrepeat⟩ :=
          exists_of_forall₂_snoc hrepeats
        obtain ⟨hrun', ht', rfl⟩ := h'.of_snoc
        obtain ⟨hstep, hall⟩ := ih hclock₀ hsend₀ hrun' hfirst
        have hclockT := hclock t hself
        have hsnoc (hagrees : Turn.Agrees config seq t t') :
            List.Forall₂ (Turn.Agrees config seq)
              (concerning config seq id turns ++ [t]) (first ++ [t']) :=
          List.rel_append hall (.cons hagrees .nil)
        by_cases hnumber : t.number? = some seq
        · obtain ⟨destination, m, ticket, hoperation, -⟩ :=
            hsend t hself hnumber
          obtain ⟨entry, hqueues⟩ := ht.queues hrun.fits hoperation hnumber
          have hnext := hrun.nextSeq_eq_zero hstep ht hnumber
          have hempty := hrun.entries_eq_nil hrun' hstep ht hnumber
          obtain ⟨-, hagrees⟩ := Turn.agrees_of_queues ht ht' hrun.fits
            hrun'.fits hrepeat hstep.same hqueues hempty hnext
          refine ⟨⟨hagrees.after, ?_, ?_⟩, hsnoc hagrees⟩
          · refine InStep.only_after ht' hrun'.fits hstep.only ?_
            intro number entry' hqueues'
            rw [hqueues'.seq_eq, hnext]
          · exact fun hnone => absurd hnumber (hnone t hself)
        · have hoperation : t.operation = .receive ∨
              t.operation = .checkQueues := by
            rcases hconcerns with h | h | h | h
            · exact absurd h hnumber
            · exact .inr h
            · exact .inl (ht.answers_unique hrun.fits h).1
            · exact .inl (ht.answers_unique hrun.fits h).1
          have hoperation' := hoperation
          rw [← hrepeat.operation] at hoperation'
          have hnotQueues' (number : Nat) (entry : Entry) :
              ¬t'.Queues config number entry := fun hqueues =>
            hoperation'.elim hqueues.operation_ne.1 hqueues.operation_ne.2
          have hagrees : Turn.Agrees config seq t t' := by
            refine Turn.agrees_of_not_queues ht ht' hrun.fits hrun'.fits
              hrepeat hstep.same ?_ (hnotQueues' 0) hclockT
              (hstep.clock hclockT)
            exact fun entry hqueues => hnumber hqueues.number
          refine ⟨⟨hagrees.after, ?_, ?_⟩, hsnoc hagrees⟩
          · refine InStep.only_after ht' hrun'.fits hstep.only ?_
            exact fun number entry hqueues =>
              absurd hqueues (hnotQueues' number entry)
          · intro hnone
            rw [ht'.nextSeq_eq hoperation']
            exact hstep.fresh fun t₁ ht₁ => hnone t₁ (List.mem_append_left _ ht₁)
      · rw [concerning_snoc_of_not_concerns hconcerns] at hrepeats ⊢
        obtain ⟨hstep, hall⟩ := ih hclock₀ hsend₀ h' hrepeats
        obtain ⟨-, hentries, -⟩ := ht.spares hrun.fits hconcerns
          fun entry hmem => hrun.id_of_mem hsend₀ hmem
        refine ⟨⟨?_, hstep.only, ?_⟩, hall⟩
        · exact fun entry => (hstep.same entry).trans (hentries entry).symm
        · exact fun hnone =>
            hstep.fresh fun t₁ ht₁ => hnone t₁ (List.mem_append_left _ ht₁)

end Serial

end Coap
