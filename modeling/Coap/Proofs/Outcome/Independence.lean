import Coap.Proofs.Outcome.Repetition

/-!
# Messages in flight do not influence each other

Every serial run can be repeated for one of its messages: whatever the first run
has asked the clock, the random numbers and the socket for the sake of the
message, the second one may ask in its place and get the same answers. So what
is known of a run and its repetition is not said of nothing: a message that is
in flight together with others fares as it would alone.

## Main results

* `Serial.exists_repeats` — every run can be repeated for a message.
* `Serial.repeats_alike` — a message fares alike in both runs.
-/

namespace Coap

variable {config : Config} {t t' : Turn} {turns turns' : List Turn}
  {e e' : Endpoint} {seq : Nat} {entry origin : Entry} {id : UInt16}
  {ticket : Option Ticket}

/-! ## The second run can be made -/

theorem mem_sendings_of_mem_sentIn {parts : List Part} {s : Sending}
    (h : s ∈ sentIn parts seq) : s ∈ sendings (parts.flatMap (·.actions)) := by
  obtain ⟨action, haction, hs⟩ := List.mem_filterMap.mp h
  obtain ⟨p, hp, hin⟩ := List.mem_flatMap.mp haction
  exact List.mem_filterMap.mpr
    ⟨action, List.mem_flatMap.mpr ⟨p, (List.mem_filter.mp hp).1, hin⟩, hs⟩

namespace Turn

/-- At most one datagram is sent for a message in a turn. -/
theorem Taken.sentFor_unique (ht : t.Taken) (he : t.before.Fits config)
    {s s' : Sending} (hs : s ∈ t.sentFor seq) (hs' : s' ∈ t.sentFor seq) :
    s = s' := by
  have hone : (t.sentFor seq).length ≤ 1 := by
    by_cases hmeets : ∃ entry, t.Meets config seq entry
    · obtain ⟨entry, hmeets⟩ := hmeets
      obtain ⟨left, outcome, hfate, -⟩ := ht.decides he hmeets
      generalize t.sentFor seq = sent at hfate
      cases hfate with
      | kept | answered => exact Nat.zero_le 1
      | launched | stranded => exact Nat.le_refl 1
      | scanned _ _ _ _ htreated =>
          cases htreated with
          | exhausted => exact Nat.zero_le 1
          | failed | resent => exact Nat.le_refl 1
    · rw [(ht.of_not_meets he (not_exists.mp hmeets)).2]
      exact Nat.zero_le 1
  obtain ⟨i, hi, rfl⟩ := List.mem_iff_getElem.mp hs
  obtain ⟨j, hj, rfl⟩ := List.mem_iff_getElem.mp hs'
  have hij : i = j := by omega
  subst hij
  rfl

end Turn

/-- It is seen alike of a message that is taken out of flight whatever else is in
flight. -/
theorem Call.filterMap_ending_congr (first : List Action) {q q' : InFlight}
    {outcome : Outcome} {α : Type} {f : Action → Option α}
    (hacquired : f (.acquired .inFlight) = none) (hupdated : f .updated = none)
    (hreleased : f (.released .inFlight) = none)
    (htold : ∀ n, f (.told (.notified n)) = none) :
    (first ++ Call.ending q' id outcome).filterMap f =
      (first ++ Call.ending q id outcome).filterMap f := by
  rw [Call.filterMap_append_ending _ _ _ _ hacquired hupdated hreleased htold,
    Call.filterMap_append_ending _ _ _ _ hacquired hupdated hreleased htold]

/-- A send that has queued its message can be made again where nothing is in
flight, with the same answers. -/
theorem Call.Runs.send_again {e₁ : Endpoint} {destination : SocketAddress}
    {m : Message} {actions : List Action} {value : Option (Except SendError Unit)}
    (h : (Call.send destination m ticket).Runs e actions e₁ value)
    (hqueued : e.inFlight.numbered e₁.inFlight ≠ none) (he : e.Fits config)
    (he' : e'.Fits config) (hempty : e'.inFlight.entries = []) :
    ∃ actions' e₁' value',
      (Call.send destination m ticket).Runs e' actions' e₁' value' ∧
      actions'.filterMap Action.reading? = actions.filterMap Action.reading? ∧
      actions'.filterMap Action.fraction? = actions.filterMap Action.fraction? ∧
      sendings actions' = sendings actions ∧
      ∀ r, .received r ∈ actions' ↔ .received r ∈ actions := by
  have hsame : e.inFlight.numbered e.inFlight = none := if_pos rfl
  cases Call.runs_send_iff.mp h with
  | refused | unwritten | once => exact absurd hsame hqueued
  | @tracked text _ _ _ hwritten hconfirmable htracks =>
      obtain ⟨hencode, hlength⟩ := Endpoint.serialize_eq_ok_iff.mp hwritten
      rw [he.writeBuffer, ← he'.writeBuffer] at hlength
      have hwritten' := Endpoint.serialize_eq_ok_iff.mpr ⟨hencode, hlength⟩
      have hconfig : (e'.serialize m).1.config = (e.serialize m).1.config :=
        he'.config_eq.trans he.config_eq.symm
      have hadd (now : Instant) (timeout : Duration) :
          ∃ q, (e'.serialize m).1.inFlight.add m.id destination text ticket now
            timeout = .ok q := by
        have hfree := he'.sound.contains_of_entries_nil hempty m.id
        exact ⟨_, if_neg (Bool.eq_false_iff.mp hfree)⟩
      cases htracks with
      | endless | taken => exact absurd hsame hqueued
      | @launched _ timeout now _ htimeout _ =>
          obtain ⟨q, hq⟩ := hadd now timeout
          rw [← hconfig] at htimeout
          have hruns := Call.runs_send_iff.mpr
            (.tracked hwritten' hconfirmable (.launched htimeout hq))
          exact ⟨_, _, _, hruns, rfl, rfl, rfl, fun r => Iff.rfl⟩
      | @stranded _ timeout now _ cause htimeout _ =>
          obtain ⟨q, hq⟩ := hadd now timeout
          rw [← hconfig] at htimeout
          have hruns := Call.runs_send_iff.mpr
            (.tracked hwritten' hconfirmable
              (@Call.Tracks.stranded _ _ _ _ _ _ _ _ q cause htimeout hq))
          refine ⟨_, _, _, hruns, ?_, ?_, ?_, ?_⟩
          · exact Call.filterMap_ending_congr (.updated :: _) rfl rfl rfl
              fun _ => rfl
          · exact Call.filterMap_ending_congr (.updated :: _) rfl rfl rfl
              fun _ => rfl
          · exact Call.filterMap_ending_congr (.updated :: _) rfl rfl rfl
              fun _ => rfl
          · intro r
            simp [Call.launch, Call.received_notMem_ending]

/-- A receive can be made again with the same reception. It neither reads the
clock nor draws a fraction. -/
theorem Call.Runs.receiveNext_again {e₁ : Endpoint} {actions : List Action}
    {value : Option (Except TransportError (Option Message))}
    (h : Call.receiveNext.Runs e actions e₁ value) (he : e.Fits config)
    (he' : e'.Fits config) :
    ∃ actions' e₁' value', Call.receiveNext.Runs e' actions' e₁' value' ∧
      actions'.filterMap Action.reading? = actions.filterMap Action.reading? ∧
      actions'.filterMap Action.fraction? = actions.filterMap Action.fraction? ∧
      sendings actions' = sendings actions ∧
      ∀ r, .received r ∈ actions' ↔ .received r ∈ actions := by
  obtain ⟨r, -, hrest⟩ := (Call.runs_receiveNext_iff he).mp h
  cases hanswer : Call.answerIn config r with
  | none =>
      rw [hanswer] at hrest
      obtain ⟨rfl, -⟩ := hrest
      have hruns := (Call.runs_receiveNext_iff he').mpr
        ⟨r, rfl, by rw [hanswer]; exact ⟨rfl, rfl⟩⟩
      exact ⟨_, _, _, hruns, rfl, rfl, rfl, fun _ => Iff.rfl⟩
  | some m =>
      rw [hanswer] at hrest
      obtain ⟨rfl, -⟩ := hrest
      have hruns := (Call.runs_receiveNext_iff he').mpr
        ⟨r, rfl, by rw [hanswer]; exact ⟨rfl, rfl⟩⟩
      refine ⟨_, _, _, hruns, ?_, ?_, ?_, ?_⟩
      · exact Call.filterMap_ending_congr _ rfl rfl rfl fun _ => rfl
      · exact Call.filterMap_ending_congr _ rfl rfl rfl fun _ => rfl
      · exact Call.filterMap_ending_congr _ rfl rfl rfl fun _ => rfl
      · intro r'
        simp [Call.received_notMem_ending]

namespace Turn

/-- A turn that concerns a message can be repeated where nothing else is in
flight and all deadlines can be told. -/
theorem Taken.exists_repeats (ht : t.Taken) (he : t.before.Fits config)
    (he' : e'.Fits config)
    (hkind : t.operation = .receive ∨ t.operation = .checkQueues ∨
      t.number? = some seq ∧ e'.inFlight.entries = [])
    (hclock : ∀ p ∈ t.before.inFlight.entries, p.2.timer.deadline? ≠ none)
    (hclock' : ∀ p ∈ e'.inFlight.entries, p.2.timer.deadline? ≠ none) :
    ∃ t', t'.before = e' ∧ t'.Taken ∧ t.Repeats seq t' := by
  have hunique {s s' : Sending} (hs : s ∈ t.sentFor seq)
      (hs' : s' ∈ t.sentFor seq) : s = s' := ht.sentFor_unique he hs hs'
  cases ht with
  | @send e e₁ destination m ticket actions value hrun =>
      rcases hkind with hreceive | hscan | ⟨hnumber, hempty⟩
      · cases hreceive
      · cases hscan
      have hsubject : e.inFlight.numbered e₁.inFlight = some seq := hnumber
      obtain ⟨actions', e₁', value', hrun', hread, hdraws, hsent, hreceived⟩ :=
        hrun.send_again (hsubject ▸ Option.some_ne_none seq) he he' hempty
      refine ⟨_, rfl, .send hrun', rfl, ?_, ?_, ?_, ?_⟩
      · rw [clock, actions_singleton, hread, clock, actions_singleton]
      · rw [draws, actions_singleton, hdraws, draws, actions_singleton]
      · simpa only [actions_singleton] using hreceived
      · intro s hs s' hs'
        have hall := mem_sendings_of_mem_sentIn hs'
        rw [List.flatMap_singleton, hsent] at hall
        refine congrArg Sending.result (hunique ?_ hs)
        rw [sentFor, sentIn_singleton, if_pos hsubject]
        exact hall
  | @receive e e₁ actions value hrun =>
      obtain ⟨actions', e₁', value', hrun', hread, hdraws, hsent, hreceived⟩ :=
        hrun.receiveNext_again he he'
      refine ⟨_, rfl, .receive hrun', rfl, ?_, ?_, ?_, ?_⟩
      · rw [clock, actions_singleton, hread, clock, actions_singleton]
      · rw [draws, actions_singleton, hdraws, draws, actions_singleton]
      · simpa only [actions_singleton] using hreceived
      · intro s hs
        rw [sentFor, sentIn_singleton,
          if_neg (Option.some_ne_none seq).symm] at hs
        cases hs
  | @scan e e₁ now due visits finished hdue hvisits =>
      obtain ⟨result, hresult⟩ : ∃ result,
          ∀ s ∈ (ofVisits e now visits finished e₁).sentFor seq,
            s.result = result := by
        by_cases hsent :
            ∃ s, s ∈ (ofVisits e now visits finished e₁).sentFor seq
        · obtain ⟨s₀, hs₀⟩ := hsent
          exact ⟨s₀.result, fun s hs => congrArg Sending.result (hunique hs hs₀)⟩
        · exact ⟨.ok (), fun s hs => absurd ⟨s, hs⟩ hsent⟩
      have htimed : e'.inFlight.expiredIds? now ≠ none :=
        InFlight.expiredIds?_ne_none hclock'
      obtain ⟨due', hdue'⟩ := Option.ne_none_iff_exists'.mp htimed
      obtain ⟨visits', e₁', finished', hvisits', hresult'⟩ :=
        Call.Visits.exists_of now due' result e'
      refine ⟨_, rfl, .scan hdue' hvisits', rfl, ?_, ?_, ?_, ?_⟩
      · rw [clock_ofVisits hvisits', clock_ofVisits hvisits]
      · rw [draws_ofVisits hvisits', draws_ofVisits hvisits]
      · exact fun r => iff_of_false (received_notMem_ofVisits hvisits' r)
          (received_notMem_ofVisits hvisits r)
      · intro s hs s' hs'
        rw [sentFor_ofVisits] at hs'
        rw [hresult s hs, hresult' s' (mem_sendings_of_mem_sentIn hs')]
  | @brokenScan e now hdue =>
      exact absurd hdue (InFlight.expiredIds?_ne_none hclock)

end Turn

namespace Serial

/-- Every run can be repeated for one of its messages. -/
theorem exists_repeats (h : Serial config turns e)
    (hclock : ∀ t ∈ turns, ∀ p ∈ t.before.inFlight.entries,
      p.2.timer.deadline? ≠ none)
    (hsend : ∀ t ∈ turns, t.number? = some seq → ∃ destination m ticket,
      t.operation = .send destination m ticket ∧ m.id = id) :
    ∃ turns' e', Serial config turns' e' ∧
      List.Forall₂ (Turn.Repeats seq) (concerning config seq id turns)
        turns' := by
  induction h with
  | start hnew => exact ⟨[], _, .start hnew, .nil⟩
  | @turn turns t hrun ht hfresh ih =>
      have hclock₀ := fun t ht => hclock t (List.mem_append_left _ ht)
      have hsend₀ := fun t ht => hsend t (List.mem_append_left _ ht)
      have hself : t ∈ turns ++ [t] :=
        List.mem_append_right _ (List.mem_singleton_self t)
      obtain ⟨turns', e', hrun', hrepeats⟩ := ih hclock₀ hsend₀
      by_cases hconcerns : t.Concerns config seq id
      · rw [concerning_snoc_of_concerns hconcerns]
        obtain ⟨hstep, -⟩ := hrun.inStep hclock₀ hsend₀ hrun' hrepeats
        have hkind : t.operation = .receive ∨ t.operation = .checkQueues ∨
            t.number? = some seq ∧ e'.inFlight.entries = [] := by
          rcases hconcerns with hnumber | hscan | hanswers | hanswers
          · exact .inr (.inr ⟨hnumber, hrun.entries_eq_nil hrun' hstep ht hnumber⟩)
          · exact .inr (.inl hscan)
          · exact .inl (ht.answers_unique hrun.fits hanswers).1
          · exact .inl (ht.answers_unique hrun.fits hanswers).1
        obtain ⟨t', rfl, ht', hrepeat⟩ := ht.exists_repeats hrun.fits hrun'.fits
          hkind (hclock t hself) (hstep.clock (hclock t hself))
        refine ⟨turns' ++ [t'], _, hrun'.turn ht' ?_,
          List.rel_append hrepeats (.cons hrepeat .nil)⟩
        rw [hrepeat.operation]
        intro ticket hticket t₁' ht₁'
        obtain ⟨t₁, ht₁, hrepeat₁⟩ :=
          exists_of_mem_forall₂ hrepeats.flip ht₁'
        rw [hrepeat₁.operation]
        exact hfresh ticket hticket t₁ (mem_concerning.mp ht₁).1
      · rw [concerning_snoc_of_not_concerns hconcerns]
        exact ⟨turns', e', hrun', hrepeats⟩

/-- The holder of a message's ticket is told in a turn what is told of the
message there. -/
theorem mem_toldTo_iff (h : Serial config turns e) {queueing : Turn}
    (hqueueing : queueing ∈ turns) (hqueues : queueing.Queues config seq origin)
    (ht : t ∈ turns) {holder : Ticket} (hticket : origin.ticket = some holder)
    {outcome : Outcome} :
    outcome ∈ t.toldTo holder ↔ ∃ entry n, t.Meets config seq entry ∧
      entry.notify outcome = some n ∧ n.ticket = holder ∧ n ∈ t.told := by
  rw [Turn.mem_toldTo]
  constructor
  · rintro ⟨n, hn, rfl, rfl⟩
    obtain ⟨first, last, hsplit⟩ := List.append_of_mem ht
    obtain ⟨entry, hmeets, hnotify⟩ :=
      h.meets_of_told hqueueing hqueues hsplit hn hticket
    exact ⟨entry, n, hmeets, hnotify, rfl, hn⟩
  · rintro ⟨entry, n, -, hnotify, hholder, hn⟩
    exact ⟨n, hn, hholder, Turn.outcome_of_notify hnotify⟩

/-- A serial run can be repeated for a message that a send has queued in it, and
the message fares alike in every such repetition: it is sent with the same bytes
in the same turns, it is in flight between the same turns, and the holder of its
ticket is told the same in the same turns. Nothing is done about it in the turns
that are left out. -/
theorem repeats_alike (h : Serial config turns e)
    (hclock : ∀ t ∈ turns, ∀ p ∈ t.before.inFlight.entries,
      p.2.timer.deadline? ≠ none)
    {queueing : Turn} (hqueueing : queueing ∈ turns)
    {destination : SocketAddress} {m : Message} {ticket : Option Ticket}
    (hoperation : queueing.operation = .send destination m ticket)
    (hnumber : queueing.number? = some seq) :
    (∃ turns' e', Serial config turns' e' ∧
      List.Forall₂ (Turn.Repeats seq) (concerning config seq m.id turns)
        turns') ∧
    (∀ turns' e', Serial config turns' e' →
      List.Forall₂ (Turn.Repeats seq) (concerning config seq m.id turns)
        turns' →
      List.Forall₂ (Turn.Alike seq ticket) (concerning config seq m.id turns)
        turns') ∧
    ∀ t ∈ turns, ¬t.Concerns config seq m.id → t.Spares seq ticket := by
  obtain ⟨origin, hqueues⟩ := h.queues hqueueing hoperation hnumber
  have hticket : origin.ticket = ticket := by
    rw [hqueues.ticket_eq, hoperation]
    rfl
  have hsend (t : Turn) (ht : t ∈ turns) (hnumber' : t.number? = some seq) :
      ∃ destination' m' ticket', t.operation = .send destination' m' ticket' ∧
        m'.id = m.id := by
    obtain rfl := h.number_unique ht hqueueing hnumber' hnumber
    exact ⟨destination, m, ticket, hoperation, rfl⟩
  refine ⟨h.exists_repeats hclock hsend, ?_, ?_⟩
  · intro turns' e' h' hrepeats
    obtain ⟨-, hagrees⟩ := h.inStep hclock hsend h' hrepeats
    obtain ⟨hlength, hpairs⟩ := List.forall₂_iff_zip.mp hagrees
    -- the message is queued in the second run as well, with the same entry
    obtain ⟨queueing', hqueueing', hagree⟩ := exists_of_mem_forall₂ hagrees
      (mem_concerning.mpr ⟨hqueueing, .inl hnumber⟩)
    have hqueues' : queueing'.Queues config 0 origin := by
      refine ((hagree.meets origin).mpr (.inr hqueues)).resolve_left ?_
      rw [hagree.before]
      obtain ⟨first, last, hsplit⟩ := List.append_of_mem hqueueing
      obtain ⟨hrun, -⟩ := (hsplit ▸ h).split
      exact fun hin =>
        hqueues.notMem_seqs hrun.fits (InFlight.mem_seqs_of_mem hin)
    refine List.forall₂_iff_zip.mpr ⟨hlength, ?_⟩
    intro t t' hpair
    have hagree := hpairs hpair
    obtain ⟨ht, ht'⟩ := List.of_mem_zip hpair
    refine ⟨hagree.sent, hagree.before, hagree.after, ?_⟩
    intro holder hholder outcome
    rw [← hticket] at hholder
    rw [h.mem_toldTo_iff hqueueing hqueues (mem_concerning.mp ht).1 hholder,
      h'.mem_toldTo_iff hqueueing' hqueues' ht' hholder]
    constructor
    · rintro ⟨entry, n, hmeets', hnotify, hn, htold⟩
      have hmeets := (hagree.meets entry).mp hmeets'
      exact ⟨entry, n, hmeets, hnotify, hn,
        (hagree.told entry hmeets n outcome hnotify).mp htold⟩
    · rintro ⟨entry, n, hmeets, hnotify, hn, htold⟩
      exact ⟨entry, n, (hagree.meets entry).mpr hmeets, hnotify, hn,
        (hagree.told entry hmeets n outcome hnotify).mpr htold⟩
  · intro t ht hconcerns
    obtain ⟨first, last, hsplit⟩ := List.append_of_mem ht
    obtain ⟨hrun, htaken⟩ := (hsplit ▸ h).split
    have hfirst {t : Turn} (ht : t ∈ first) : t ∈ turns := by
      rw [hsplit]
      exact List.mem_append_left _ ht
    obtain ⟨hsent, hentries, hsilent⟩ := htaken.spares hrun.fits hconcerns
      fun entry hmem => hrun.id_of_mem (fun t ht => hsend t (hfirst ht)) hmem
    refine ⟨hsent, hentries, ?_⟩
    intro holder hholder
    rw [← hticket] at hholder
    rw [List.eq_nil_iff_forall_not_mem]
    intro outcome htold
    obtain ⟨entry, n, hmeets, hnotify, -, hn⟩ :=
      (h.mem_toldTo_iff hqueueing hqueues ht hholder).mp htold
    exact hsilent entry hmeets n outcome hnotify hn

end Serial

/-! ## Two messages in flight -/

/-- Another message, which is in flight already. -/
def otherEntry : Entry :=
  .new 3 sampleEntry.destination [64, 1, 0, 3] none ⟨0⟩ (.ofNanos 2000000000)

def otherTurn : Turn where
  before := impatientEndpoint
  operation := .send sampleEntry.destination
    (.confirmable ⟨1⟩ 3 .empty .empty none) none
  parts := [⟨some 0, .updated ::
    Call.launch 0.0 ⟨0⟩ sampleEntry.destination otherEntry.message (.ok ())⟩]
  after := { impatientEndpoint with
    inFlight := ⟨[(0, otherEntry)], [(3, 0)], 1⟩
    writeBuffer := ⟨[64, 1, 0, 3] ++ List.replicate 60 0, 4, by decide⟩ }

/-- The message is queued and sent after the other one. -/
def secondTurn : Turn where
  before := otherTurn.after
  operation := .send sampleEntry.destination
    (.confirmable ⟨1⟩ 2 .empty .empty none) (some 7)
  parts := [⟨some 1, .updated ::
    Call.launch 0.0 ⟨0⟩ sampleEntry.destination sampleEntry.message (.ok ())⟩]
  after := { impatientEndpoint with
    inFlight := ⟨[(0, otherEntry), (1, sampleEntry)], [(2, 1), (3, 0)], 2⟩
    writeBuffer := launchTurn.after.writeBuffer }

/-- The other entry when its message was sent again. -/
def otherResent : Entry := otherEntry.retransmitted ⟨2000000000⟩

/-- Both are sent again. -/
def bothResentTurn : Turn where
  before := secondTurn.after
  operation := .checkQueues
  parts := [⟨none, Call.opening ⟨2000000000⟩⟩,
    ⟨some 0, [.updated, .updated,
      .transmitted otherEntry.destination otherEntry.message (.ok ()), .updated]⟩,
    ⟨some 1, [.updated, .updated,
      .transmitted sampleEntry.destination sampleEntry.message (.ok ()), .updated]⟩,
    ⟨none, Call.closing []⟩]
  after := { secondTurn.after with
    inFlight := ⟨[(0, otherResent), (1, resentEntry)], [(2, 1), (3, 0)], 2⟩ }

/-- Both are given up on. -/
def bothTurn : Turn where
  before := bothResentTurn.after
  operation := .checkQueues
  parts := [⟨none, Call.opening ⟨6000000000⟩⟩,
    ⟨some 0, [.updated, .updated, .updated]⟩,
    ⟨some 1, [.updated, .updated, .updated]⟩,
    ⟨none, Call.closing
      [(otherResent, .retriesExhausted), (resentEntry, .retriesExhausted)]⟩]
  after := { bothResentTurn.after with inFlight := ⟨[], [], 2⟩ }

theorem taken_otherTurn : otherTurn.Taken :=
  .send (runs_send_impatient rfl rfl rfl rfl)

theorem taken_secondTurn : secondTurn.Taken := by
  have hruns : (Call.send sampleEntry.destination
      (.confirmable ⟨1⟩ 2 .empty .empty none) (some 7)).Runs secondTurn.before
      (.updated :: Call.launch 0.0 ⟨0⟩ sampleEntry.destination
        sampleEntry.message (.ok ())) secondTurn.after (some (.ok ())) :=
    runs_send_impatient rfl rfl rfl rfl
  exact .send hruns

theorem taken_bothResentTurn : bothResentTurn.Taken := by
  have hdue : bothResentTurn.before.inFlight.expiredIds? ⟨2000000000⟩ =
      some [3, 2] := by decide +kernel
  have hother : (Call.visit ⟨2000000000⟩ 3).Runs bothResentTurn.before
      [.updated, .updated,
        .transmitted otherEntry.destination otherEntry.message (.ok ()), .updated]
      { bothResentTurn.before with
        inFlight := ⟨[(0, otherResent), (1, sampleEntry)], [(2, 1), (3, 0)], 2⟩ }
      (some []) :=
    Call.runs_visit_iff.mpr
      (.inr ⟨otherEntry, rfl, .inr ⟨by decide, .ok (), rfl, rfl, rfl⟩⟩)
  have hsample : (Call.visit ⟨2000000000⟩ 2).Runs
      { bothResentTurn.before with
        inFlight := ⟨[(0, otherResent), (1, sampleEntry)], [(2, 1), (3, 0)], 2⟩ }
      [.updated, .updated,
        .transmitted sampleEntry.destination sampleEntry.message (.ok ()), .updated]
      bothResentTurn.after (some []) :=
    Call.runs_visit_iff.mpr
      (.inr ⟨sampleEntry, rfl, .inr ⟨by decide, .ok (), rfl, rfl, rfl⟩⟩)
  exact .scan hdue (.cons hother (.cons hsample (.nil _)))

theorem taken_bothTurn : bothTurn.Taken := by
  have hdue : bothTurn.before.inFlight.expiredIds? ⟨6000000000⟩ =
      some [3, 2] := by decide +kernel
  have hother : (Call.visit ⟨6000000000⟩ 3).Runs bothTurn.before
      [.updated, .updated, .updated]
      { bothTurn.before with inFlight := ⟨[(1, resentEntry)], [(2, 1)], 2⟩ }
      (some [(otherResent, .retriesExhausted)]) :=
    Call.runs_visit_iff.mpr
      (.inr ⟨otherResent, rfl, .inl ⟨by decide, rfl, rfl, rfl⟩⟩)
  have hsample : (Call.visit ⟨6000000000⟩ 2).Runs
      { bothTurn.before with inFlight := ⟨[(1, resentEntry)], [(2, 1)], 2⟩ }
      [.updated, .updated, .updated] bothTurn.after
      (some [(resentEntry, .retriesExhausted)]) :=
    Call.runs_visit_iff.mpr
      (.inr ⟨resentEntry, rfl, .inl ⟨by decide, rfl, rfl, rfl⟩⟩)
  exact .scan hdue (.cons hother (.cons hsample (.nil _)))

theorem serial_bothTurn : Serial impatientEndpoint.config
    [otherTurn, secondTurn, bothResentTurn, bothTurn] bothTurn.after := by
  have hnew : Endpoint.new impatientEndpoint.config 1 =
      .ok impatientEndpoint := rfl
  have hstart : Serial impatientEndpoint.config [] otherTurn.before :=
    .start hnew
  have hother : Serial impatientEndpoint.config [otherTurn]
      secondTurn.before := by
    refine hstart.turn taken_otherTurn ?_
    intro _ hticket
    cases hticket
  have hsecond : Serial impatientEndpoint.config [otherTurn, secondTurn]
      bothResentTurn.before := by
    refine hother.turn taken_secondTurn ?_
    intro _ _ t ht
    rw [List.mem_singleton.mp ht]
    exact nofun
  have hresent : Serial impatientEndpoint.config
      [otherTurn, secondTurn, bothResentTurn] bothTurn.before := by
    refine hsecond.turn taken_bothResentTurn ?_
    intro _ hticket
    cases hticket
  refine hresent.turn taken_bothTurn ?_
  intro _ hticket
  cases hticket

namespace Serial

/-- The message fares alike with another one in flight and alone: it is sent again, and
then it is given up on. -/
theorem repeats_alike_bothTurn :
    Serial impatientEndpoint.config
        [otherTurn, secondTurn, bothResentTurn, bothTurn] bothTurn.after ∧
      (∀ t ∈ [otherTurn, secondTurn, bothResentTurn, bothTurn],
        ∀ p ∈ t.before.inFlight.entries, p.2.timer.deadline? ≠ none) ∧
      secondTurn.number? = some 1 ∧
      Serial impatientEndpoint.config [launchTurn, resendTurn, scanTurn]
        scanTurn.after ∧
      List.Forall₂ (Turn.Repeats 1) [secondTurn, bothResentTurn, bothTurn]
        [launchTurn, resendTurn, scanTurn] ∧
      List.Forall₂ (Turn.Alike 1 (some 7)) [secondTurn, bothResentTurn, bothTurn]
        [launchTurn, resendTurn, scanTurn] ∧
      otherTurn.Spares 1 (some 7) := by
  have hid : (Message.confirmable ⟨1⟩ 2 .empty .empty none).id = 2 :=
    Message.id_new _ _ _ _ _ _
  have hclock : ∀ t ∈ [otherTurn, secondTurn, bothResentTurn, bothTurn],
      ∀ p ∈ t.before.inFlight.entries, p.2.timer.deadline? ≠ none := by
    have htimed {entry : Entry} (h : entry.timer = sampleEntry.timer ∨
        entry.timer = resentEntry.timer) : entry.timer.deadline? ≠ none := by
      rcases h with h | h
      · rw [h, deadline_sampleEntry.1]
        exact Option.some_ne_none _
      · rw [h, deadline_sampleEntry.2]
        exact Option.some_ne_none _
    intro t ht p hp
    simp only [List.mem_cons, List.not_mem_nil, or_false] at ht
    rcases ht with rfl | rfl | rfl | rfl
    · cases hp
    · rw [List.mem_singleton.mp hp]
      exact htimed (.inl rfl)
    · rcases List.mem_cons.mp hp with rfl | hp
      · exact htimed (.inl rfl)
      · rw [List.mem_singleton.mp hp]
        exact htimed (.inl rfl)
    · rcases List.mem_cons.mp hp with rfl | hp
      · exact htimed (.inr rfl)
      · rw [List.mem_singleton.mp hp]
        exact htimed (.inr rfl)
  have hother : ¬otherTurn.Concerns impatientEndpoint.config 1 2 := by
    have hsilent : ∀ r, .received r ∉ otherTurn.actions := by
      simp [otherTurn, Turn.actions, Call.launch]
    rintro (hnumber | hscan | hanswers | hanswers)
    · cases hnumber
    · cases hscan
    · exact Turn.not_answers hsilent _ _ hanswers
    · exact Turn.not_answers hsilent _ _ hanswers
  have hconcerning : concerning impatientEndpoint.config 1 2
      [otherTurn, secondTurn, bothResentTurn, bothTurn] =
        [secondTurn, bothResentTurn, bothTurn] := by
    have hsecond : secondTurn.Concerns impatientEndpoint.config 1 2 := .inl rfl
    have hresent : bothResentTurn.Concerns impatientEndpoint.config 1 2 :=
      .inr (.inl rfl)
    have hboth : bothTurn.Concerns impatientEndpoint.config 1 2 :=
      .inr (.inl rfl)
    simp [concerning, hother, hsecond, hresent, hboth]
  have hlaunch : Turn.Repeats 1 secondTurn launchTurn := by
    refine ⟨rfl, rfl, rfl, fun r => Iff.rfl, ?_⟩
    intro s hs s' hs'
    rw [List.mem_singleton.mp hs, List.mem_singleton.mp hs']
  have hresend : Turn.Repeats 1 bothResentTurn resendTurn := by
    refine ⟨rfl, rfl, rfl, ?_, ?_⟩
    · simp [bothResentTurn, resendTurn, Turn.actions, Call.opening, Call.closing]
    · intro s hs s' hs'
      rw [List.mem_singleton.mp hs, List.mem_singleton.mp hs']
  have hscan : Turn.Repeats 1 bothTurn scanTurn := by
    refine ⟨rfl, rfl, rfl, ?_, ?_⟩
    · simp [bothTurn, scanTurn, Turn.actions, Call.opening, Call.closing]
    · intro s hs
      cases hs
  have hrepeats : List.Forall₂ (Turn.Repeats 1) [secondTurn, bothResentTurn, bothTurn]
      [launchTurn, resendTurn, scanTurn] :=
    .cons hlaunch (.cons hresend (.cons hscan .nil))
  have hsecond : secondTurn ∈ [otherTurn, secondTurn, bothResentTurn, bothTurn] :=
    List.mem_cons_of_mem _ List.mem_cons_self
  have hoperation : secondTurn.operation = .send sampleEntry.destination
      (.confirmable ⟨1⟩ 2 .empty .empty none) (some 7) := rfl
  have hnumber : secondTurn.number? = some 1 := rfl
  obtain ⟨-, halike, hspares⟩ :=
    repeats_alike serial_bothTurn hclock hsecond hoperation hnumber
  rw [hid, hconcerning] at halike
  rw [hid] at hspares
  exact ⟨serial_bothTurn, hclock, hnumber, serial_scanTurn, hrepeats,
    halike _ _ serial_scanTurn hrepeats,
    hspares otherTurn List.mem_cons_self hother⟩

end Serial

end Coap
