import Coap.Proofs.Calls.EntryWise
import Coap.Proofs.Calls.Receiving

/-!
# Answers before expiries

A message may be answered at the very moment at which it is due, or at which it was
sent too often already. Which of the two counts is settled by the order of a poll: it
receives first and looks for what is due afterwards, so an answer that is there in time
takes its message out before anybody looks at the message's timer. The scan after it
does what it would do had the message never been in flight. If a scan comes first and
gives up on the message, an answer that comes later finds nothing.

## Main results

* `Call.runs_poll_iff` — a poll is a receive and then a scan, whatever the receive gives.
* `Endpoint.Reached.answer_wins` — who wins, whichever of the two comes first.
-/

namespace Coap

namespace Call

variable {config : Config} {e e' : Endpoint} {actions : List Action}

/-- A receive leaves no deadline that cannot be told. -/
theorem Runs.tellsDeadlines {value : Option (Except TransportError (Option Message))}
    (he : e.Fits config) (htells : e.TellsDeadlines)
    (h : receiveNext.Runs e actions e' value) : e'.TellsDeadlines := by
  obtain ⟨r, -, hcases⟩ := h.receiveNext_cases he
  intro p hp
  cases hanswer : answerIn config r with
  | none =>
      rw [hanswer] at hcases
      rw [hcases.1] at hp
      exact htells p hp
  | some m =>
      rw [hanswer] at hcases
      rw [hcases.1] at hp
      exact htells p (he.sound.mem_remove.mp hp).1

theorem keeps_receiveNext : receiveNext.Keeps (Endpoint.Fits config) :=
  moves_receiveNext (Endpoint.enduring_fits config).toLasting.receptive

theorem keeps_checkQueues : checkQueues.Keeps (Endpoint.Fits config) :=
  moves_checkQueues (Endpoint.enduring_fits config).toLasting

/-- A poll is a receive, then a scan. Whatever the receive gives is what the poll gives,
and neither of them breaks off. -/
theorem runs_poll_iff (he : e.Fits config) (htells : e.TellsDeadlines)
    {value : Option (Except TransportError (Option Message))} :
    poll.Runs e actions e' value ↔
      ∃ receiving e₁ result scanning,
        receiveNext.Runs e receiving e₁ (some result) ∧
        checkQueues.Runs e₁ scanning e' (some ()) ∧
        actions = receiving ++ scanning ∧ value = some result := by
  have hpoll : poll = receiveNext.bind fun received =>
      checkQueues.bind fun _ => done received := rfl
  rw [hpoll, runs_bind_iff]
  constructor
  · rintro (⟨receiving, rest, e₁, result, rfl, hreceive, hrest⟩ | ⟨rfl, hreceive⟩)
    · have hfits : e₁.Fits config := keeps_receiveNext.runs he hreceive
      have hscan {scanning : List Action} {e' : Endpoint} {value : Option Unit}
          (h : checkQueues.Runs e₁ scanning e' value) : value = some () := by
        obtain ⟨_, _, _, _, _, _, hvalue⟩ := (runs_checkQueues_iff_findings hfits
          (hreceive.tellsDeadlines he htells)).mp h
        exact hvalue
      rcases runs_bind_iff.mp hrest with
        ⟨scanning, _, e₂, _, rfl, hqueues, hdone⟩ | ⟨-, hqueues⟩
      · obtain ⟨rfl, rfl, rfl⟩ := runs_done_iff.mp hdone
        refine ⟨receiving, e₁, result, scanning, hreceive, hqueues, ?_, rfl⟩
        rw [List.append_nil]
      · cases hscan hqueues
    · obtain ⟨r, hnone, -⟩ := (runs_receiveNext_iff he).mp hreceive
      cases hnone
  · rintro ⟨receiving, e₁, result, scanning, hreceive, hqueues, rfl, rfl⟩
    refine .inl ⟨receiving, scanning, e₁, result, rfl, hreceive, ?_⟩
    have hrest := hqueues.bind (f := fun _ => done result) (.done _ _)
    rw [List.append_nil] at hrest
    exact hrest

/-- A scan receives nothing. -/
theorem Runs.received_notMem_checkQueues {value : Option Unit}
    (h : checkQueues.Runs e actions e' value) (r : Except TransportError Reception) :
    .received r ∉ actions := by
  rcases runs_checkQueues_iff.mp h with ⟨now, -, rfl, -, -⟩ |
    ⟨now, due, parts, finished, -, hvisits, rfl, -⟩
  · simp [opening]
  · have hsilent := hvisits.silent.2.2 r
    simp [opening, closing, hsilent]

end Call

namespace Endpoint

variable {config : Config} {e e' : Endpoint} {seq : Nat} {entry : Entry}
  {actions : List Action}

/-- What a poll that was given an answer does: first the message that is answered is
taken out and the holder of its ticket is told, then a scan treats the other messages as
they are treated when the answered one is not looked at. -/
def SettlesFirst (e : Endpoint) (seq : Nat) (entry : Entry) (outcome : Outcome)
    (actions : List Action) (e' : Endpoint) : Prop :=
  ∃ receiving e₁ scanning now answers others,
    others = (e.findings now answers).filter (·.seq != seq) ∧
    actions = receiving ++ scanning ∧
    sendings receiving = [] ∧
    announced receiving =
      (entry.ticket.map fun ticket => ⟨ticket, entry.id, outcome⟩).toList ∧
    e₁.inFlight.entries = e.inFlight.entries.filter (·.1 != seq) ∧
    Call.checkQueues.Runs e₁ scanning e' (some ()) ∧
    EntryWise now others e₁ scanning e' ∧
    ∀ f ∈ others, f.entry.id ≠ entry.id

/-- What is made of the other messages does not depend on the one that is gone. -/
theorem findings_of_filter {e₁ : Endpoint} (hconfig : e₁.config = e.config)
    (hentries : e₁.inFlight.entries = e.inFlight.entries.filter (·.1 != seq))
    (now : Instant) (answers : Nat → Except TransportError Unit) :
    e₁.findings now answers = (e.findings now answers).filter (·.seq != seq) := by
  rw [findings, findings, hconfig, hentries, findingsOf, findingsOf, List.filter_map]
  rfl

theorem Fits.settlesFirst (he : e.Fits config) (htells : e.TellsDeadlines)
    {datagram : Bytes} {sender : SocketAddress} {m : Message}
    (hlength : datagram.length ≤ config.readBufferSize)
    (hread : Message.read datagram = .ok m)
    (hversion : m.header.version = Header.version1) (hanswered : e.Answered m seq entry)
    {value : Option (Except TransportError (Option Message))}
    (h : Call.poll.Runs e actions e' value)
    (hreceived : .received (.ok (some (datagram, sender))) ∈ actions) :
    value = some (.ok (some (m.withSender sender))) ∧
      e.SettlesFirst seq entry (outcomeOf m) actions e' := by
  obtain ⟨receiving, e₁, result, scanning, hreceive, hscan, rfl, rfl⟩ :=
    (Call.runs_poll_iff he htells).mp h
  have hfits : e₁.Fits config := Call.keeps_receiveNext.runs he hreceive
  obtain ⟨now, answers, _, rfl, rfl, rfl, -⟩ :=
    (Call.runs_checkQueues_iff_findings hfits
      (hreceive.tellsDeadlines he htells)).mp hscan
  have hscanned := hfits.entryWise_foldl now answers
  have hin : .received (.ok (some (datagram, sender))) ∈ receiving := by
    rcases List.mem_append.mp hreceived with hfirst | hlater
    · exact hfirst
    · exact absurd hlater (hscan.received_notMem_checkQueues _)
  obtain ⟨message, ⟨⟩, hdid⟩ := he.receiveDid hreceive hin
  have hmessage : message = some (m.withSender sender) :=
    (hdid.message_eq _).mpr ⟨hlength, m, hread, hversion, rfl⟩
  obtain ⟨hentries, htold⟩ := hdid.answered _ seq entry hmessage
    ⟨hanswered.answers, hanswered.mem, hanswered.id_eq⟩
  have hothers := findings_of_filter (hfits.config_eq.trans he.config_eq.symm) hentries
    now answers
  rw [hothers] at hscanned hscan ⊢
  refine ⟨by rw [hmessage], receiving, e₁, _, now, answers, _, rfl, rfl, hdid.sent,
    htold, hentries, hscan, hscanned, ?_⟩
  intro f hf hid
  obtain ⟨hf, hseq⟩ := List.mem_filter.mp hf
  have hmem : (f.seq, f.entry) ∈ e.inFlight.entries := by
    rw [← map_findings e now answers]
    exact List.mem_map_of_mem hf
  exact bne_iff_ne.mp hseq
    (congrArg Prod.fst (he.sound.pair_unique hmem hanswered.mem hid))

/-! ## After a message was given up on -/

/-- Once a scan has taken a message out, no message has its id. -/
theorem Fits.id_ne_of_scan (he : e.Fits config) (htells : e.TellsDeadlines)
    {value : Option Unit} (h : Call.checkQueues.Runs e actions e' value)
    (hmem : (seq, entry) ∈ e.inFlight.entries) (hgone : seq ∉ e'.inFlight.seqs) :
    ∀ p ∈ e'.inFlight.entries, p.2.id ≠ entry.id := by
  obtain ⟨now, answers, _, rfl, rfl, rfl, -⟩ :=
    (Call.runs_checkQueues_iff_findings he htells).mp h
  intro p hp hid
  have hleft := hp
  rw [(he.entryWise_foldl now answers).entries] at hleft
  obtain ⟨f, hf, hp'⟩ := List.mem_filterMap.mp hleft
  obtain ⟨hseq, hsame⟩ := Finding.left_eq_some hp'
  have hfound : (f.seq, f.entry) ∈ e.inFlight.entries := by
    rw [← map_findings e now answers]
    exact List.mem_map_of_mem hf
  have hpair := he.sound.pair_unique hfound hmem (hsame.symm.trans hid)
  apply hgone
  rw [← show f.seq = seq from congrArg Prod.fst hpair, ← hseq]
  exact InFlight.mem_seqs_of_mem hp

/-- An action that queues no message with an id leaves none with it in flight if there
was none. -/
theorem Acts.id_ne {id : UInt16} (h : e.Acts e') (he : e.Fits config)
    (hjoined : ∀ p ∈ e.inFlight.joined e'.inFlight, p.2.id ≠ id)
    (hnone : ∀ p ∈ e.inFlight.entries, p.2.id ≠ id) :
    ∀ p ∈ e'.inFlight.entries, p.2.id ≠ id := by
  intro p hp
  have hslot : Slot.of p ∈ slots e'.inFlight.entries +
      slots (e.inFlight.departed e'.inFlight) :=
    Multiset.mem_add.mpr (.inl (mem_slots.mpr ⟨p, hp, rfl⟩))
  rw [(h.evolves he).balance, Multiset.mem_add, mem_slots, mem_slots] at hslot
  rcases hslot with ⟨p', hp', hsame⟩ | ⟨p', hp', hsame⟩
  · have hid : p'.2.id = p.2.id := congrArg Slot.id hsame
    rw [← hid]
    exact hnone p' hp'
  · have hid : p'.2.id = p.2.id := congrArg Slot.id hsame
    rw [← hid]
    exact hjoined p' hp'

/-- Calls act, and none of them queues a message with this id. -/
def ActsWithout (id : UInt16) (e e' : Endpoint) : Prop :=
  e.Acts e' ∧ ∀ p ∈ e.inFlight.joined e'.inFlight, p.2.id ≠ id

theorem Fits.id_ne_of_actsWithout {id : UInt16} (he : e.Fits config)
    (h : Relation.ReflTransGen (ActsWithout id) e e')
    (hnone : ∀ p ∈ e.inFlight.entries, p.2.id ≠ id) :
    e'.Fits config ∧ ∀ p ∈ e'.inFlight.entries, p.2.id ≠ id := by
  induction h with
  | refl => exact ⟨he, hnone⟩
  | tail _ hacts ih =>
      obtain ⟨hfits, hbefore⟩ := ih
      exact ⟨hacts.1.fits hfits, hacts.1.id_ne hfits hacts.2 hbefore⟩

/-! ## Both orders -/

/-- In every state that calls lead to, an answer that a poll receives comes before what
is due, whatever else is due; and whatever a poll receives, it goes over all messages
afterwards. If a message was given up on first, no later answer changes anything, as
long as no message with its id is queued again. -/
theorem Reached.answer_wins (h : e.Reached config) (htells : e.TellsDeadlines) :
    (∀ actions e' value, Call.poll.Runs e actions e' value ↔
      ∃ receiving e₁ result scanning,
        Call.receiveNext.Runs e receiving e₁ (some result) ∧
        Call.checkQueues.Runs e₁ scanning e' (some ()) ∧
        actions = receiving ++ scanning ∧ value = some result) ∧
    (∀ r now, ∃ actions e',
      Call.poll.Runs e actions e' (some (r.map fun _ => Call.messageIn config r)) ∧
        .received r ∈ actions ∧ .readTime now ∈ actions) ∧
    (∀ datagram sender m seq entry, datagram.length ≤ config.readBufferSize →
      Message.read datagram = .ok m → m.header.version = Header.version1 →
      e.Answered m seq entry →
      ∀ actions e' value, Call.poll.Runs e actions e' value →
        .received (.ok (some (datagram, sender))) ∈ actions →
        value = some (.ok (some (m.withSender sender))) ∧
          e.SettlesFirst seq entry (if m.isAck then .acknowledged else .rejected)
            actions e') ∧
    ∀ scanning e₁ seq entry, Call.checkQueues.Runs e scanning e₁ (some ()) →
      (seq, entry) ∈ e.inFlight.entries → seq ∉ e₁.inFlight.seqs →
      ∀ e₂, Relation.ReflTransGen (ActsWithout entry.id) e₁ e₂ →
        ∀ datagram sender m actions e₃ value, Message.read datagram = .ok m →
          m.id = entry.id → Call.receiveNext.Runs e₂ actions e₃ value →
          .received (.ok (some (datagram, sender))) ∈ actions →
          e₃.inFlight = e₂.inFlight ∧ announced actions = [] := by
  have he := h.fits
  refine ⟨?_, ?_, ?_, ?_⟩
  · intro actions e' value
    exact Call.runs_poll_iff he htells
  · intro r now
    obtain ⟨receiving, e₁, hreceive, hmem⟩ := Call.exists_receiveNext he r
    have hscan := (Call.runs_checkQueues_iff_findings
      (Call.keeps_receiveNext.runs he hreceive) (hreceive.tellsDeadlines he htells)).mpr
        ⟨now, fun _ => .ok (), _, rfl, rfl, rfl, rfl⟩
    refine ⟨_, _, (Call.runs_poll_iff he htells).mpr
      ⟨receiving, e₁, _, _, hreceive, hscan, rfl, rfl⟩,
      List.mem_append_left _ hmem, List.mem_append_right _ ?_⟩
    apply List.mem_append_left
    apply List.mem_append_left
    simp [Call.opening]
  · intro datagram sender m seq entry hlength hread hversion hanswered actions e' value
      hpoll hreceived
    exact he.settlesFirst htells hlength hread hversion hanswered hpoll hreceived
  · intro scanning e₁ seq entry hscan hmem hgone e₂ hacts datagram sender m actions e₃
      value hread hid hreceive hreceived
    have hnone := he.id_ne_of_scan htells hscan hmem hgone
    have hscanned : e₁.Fits config := Call.keeps_checkQueues.runs he hscan
    obtain ⟨hfits, hfree⟩ := hscanned.id_ne_of_actsWithout hacts hnone
    obtain ⟨message, -, hdid⟩ := hfits.receiveDid hreceive hreceived
    refine hdid.unanswered ?_
    rintro m' hmessage seq' entry' ⟨-, hmem', hid'⟩
    obtain ⟨-, read, hread', -, rfl⟩ := (hdid.message_eq m').mp hmessage
    obtain rfl := Except.ok.inj (hread.symm.trans hread')
    exact hfree _ hmem' (hid'.trans hid)

section Sample

open Interrupted

/-- The acknowledgement of the first of two messages. -/
def firstAnswer : Message := .ack .empty 2

def firstAnswerDatagram : Bytes := [0x60, 0, 0, 2]

/-- Two messages are due. The answer to the first one wins if it comes before the scan,
and changes nothing if the scan has given up on the message. -/
theorem answer_wins_bothInFlight :
    (launchedWith bothInFlight 3).Reached World.sampleEndpoint.config ∧
    (launchedWith bothInFlight 3).TellsDeadlines ∧
    (∃ actions e',
      Call.poll.Runs (launchedWith bothInFlight 3) actions e'
        (some (.ok (some (firstAnswer.withSender refusedEntry.destination)))) ∧
      (launchedWith bothInFlight 3).SettlesFirst 0 refusedEntry .acknowledged
        actions e' ∧
      (announced actions).head? = some ⟨7, 2, .acknowledged⟩) ∧
    ∃ scanning e₁ actions e₂ value,
      Call.checkQueues.Runs (launchedWith bothInFlight 3) scanning e₁ (some ()) ∧
      announced scanning = [⟨7, 2, .failed .unreachable⟩] ∧
      0 ∉ e₁.inFlight.seqs ∧ Call.receiveNext.Runs e₁ actions e₂ value ∧
      .received (.ok (some (firstAnswerDatagram, refusedEntry.destination))) ∈
        actions ∧
      e₂.inFlight = e₁.inFlight ∧ announced actions = [] := by
  have hread : Message.read firstAnswerDatagram = .ok firstAnswer := by
    decide +kernel
  have hlength : firstAnswerDatagram.length ≤
      World.sampleEndpoint.config.readBufferSize := by decide
  have hfirst : (0, refusedEntry) ∈ (launchedWith bothInFlight 3).inFlight.entries :=
    List.mem_cons_self
  have hanswered : (launchedWith bothInFlight 3).Answered firstAnswer 0 refusedEntry :=
    ⟨rfl, hfirst, rfl⟩
  have hfits := reached_bothInFlight.fits
  obtain ⟨-, hexists, hwins, hlate⟩ :=
    reached_bothInFlight.answer_wins tellsDeadlines_bothInFlight
  obtain ⟨actions, e', hpoll, hreceived, -⟩ := hexists
    (.ok (some (firstAnswerDatagram, refusedEntry.destination))) ⟨2000000000⟩
  obtain ⟨hvalue, hsettles⟩ := hwins _ _ _ _ _ hlength hread rfl hanswered _ _ _ hpoll
    hreceived
  rw [hvalue] at hpoll
  have hfirstTold : (announced actions).head? = some ⟨7, 2, .acknowledged⟩ := by
    obtain ⟨receiving, _, scanning, _, _, _, -, rfl, -, htold, -⟩ := hsettles
    rw [announced_append, htold]
    rfl
  refine ⟨reached_bothInFlight, tellsDeadlines_bothInFlight,
    ⟨actions, e', hpoll, hsettles, hfirstTold⟩, ?_⟩
  -- the other order
  have hscan := (Call.runs_checkQueues_iff_findings hfits
    tellsDeadlines_bothInFlight).mpr
      ⟨⟨2000000000⟩, refusesFirst, _, rfl, rfl, rfl, rfl⟩
  have hscanned := hfits.entryWise_foldl ⟨2000000000⟩ refusesFirst
  have hgaveUp := hscanned.told
  rw [findings_bothInFlight] at hgaveUp
  have hgone : 0 ∉ (List.foldl (carryOut ⟨2000000000⟩) (launchedWith bothInFlight 3)
      ((launchedWith bothInFlight 3).findings ⟨2000000000⟩
        refusesFirst)).inFlight.seqs := by
    rw [InFlight.seqs, hscanned.entries, findings_bothInFlight]
    exact by decide
  obtain ⟨others, e₂, hreceive, hin⟩ := Call.exists_receiveNext
    (Call.keeps_checkQueues.runs hfits hscan)
      (.ok (some (firstAnswerDatagram, refusedEntry.destination)))
  obtain ⟨hqueue, htold⟩ := hlate _ _ _ _ hscan hfirst hgone _ .refl _ _ _ _ _ _ hread
    rfl hreceive hin
  exact ⟨_, _, others, e₂, _, hscan, hgaveUp, hgone, hreceive, hin, hqueue, htold⟩

end Sample

end Endpoint

end Coap
