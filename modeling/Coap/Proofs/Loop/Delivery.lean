import Coap.Endpoint.Handler
import Coap.Proofs.Loop.Rounds
import Coap.Proofs.Requests.Sending

/-!
# The receive loop

A receive loop looks whether it may go on, takes a round, and looks again. It may be
told to stop at any time, and takes notice of that where it looks. The actions of its
rounds may fall between any actions of other calls on the endpoint, which may change
the endpoint as they like: what the loop finds is part of its history.

The history of a loop is cut into rounds by induction on it. All rounds but the last
one are over, and the last one has come to one of a few places.

Which rounds a loop takes and when it looks is said by a relation, so that the other
calls need not be named. The loop of a session goes on by a function; that this follows
the relation is the subject of another module.

## Main results

* `delivers_once_in_order` — what the rounds of a loop are, whom they call, and how the loop
  ends.
-/

namespace Coap

/-- Something that happens to a receive loop. -/
inductive Tick where
  /-- The loop has looked whether it may go on. -/
  | looked (running : Bool)
  /-- The loop has taken an action of its round. -/
  | acted (moment : Moment)
  /-- The loop was told to stop. -/
  | stopped

/-- The moment that a tick is, if it is one. -/
def Tick.moment? : Tick → Option Moment
  | acted moment => some moment
  | _ => none

/-- Whether a round is begun. -/
def Tick.begins : Tick → Bool
  | looked running => running
  | _ => false

/-- The moments of a history. -/
def momentsOf (ticks : List Tick) : List Moment := ticks.filterMap Tick.moment?

/-- The number of rounds that were begun in a history. -/
def roundsBegun (ticks : List Tick) : Nat := ticks.countP Tick.begins

theorem momentsOf_concat (ticks : List Tick) (tick : Tick) :
    momentsOf (ticks ++ [tick]) = momentsOf ticks ++ tick.moment?.toList := by
  cases h : tick.moment? <;> simp [momentsOf, h]

theorem momentsOf_acted (ticks : List Tick) (moments : List Moment) :
    momentsOf (ticks ++ moments.map .acted) = momentsOf ticks ++ moments := by
  have hacted : (moments.map Tick.acted).filterMap Tick.moment? = moments := by
    rw [List.filterMap_map]
    exact List.filterMap_some
  rw [momentsOf, List.filterMap_append, hacted]
  rfl

theorem roundsBegun_concat (ticks : List Tick) (tick : Tick) :
    roundsBegun (ticks ++ [tick]) =
      roundsBegun ticks + if tick.begins then 1 else 0 := by
  simp [roundsBegun, List.countP_append, List.countP_singleton]

/-- What an action tells, if it tells something. -/
def Action.event? : Action → Option Event
  | told event => some event
  | _ => none

/-- What was told at some moments. -/
def eventsOf (moments : List Moment) : List Event :=
  moments.filterMap (·.action.event?)

/-- A receive loop. -/
structure Listener where
  /-- Whether nobody has told the loop to stop. -/
  running : Bool
  /-- What is left of the present round. When nothing is left, its value tells
  whether there may be another one. -/
  rest : Call Bool

namespace Listener

open Call

/-- A loop before it has looked for the first time. -/
def start : Listener := ⟨true, .done true⟩

/-- What may happen to a loop. -/
inductive Step (handler : Message → Call Unit) : Listener → Tick → Listener → Prop where
  /-- The loop may go on, and begins a round. -/
  | begin : Step handler ⟨true, .done true⟩ (.looked true) ⟨true, receiveRound handler⟩
  /-- The loop may not go on. -/
  | leave : Step handler ⟨false, .done true⟩ (.looked false) ⟨false, .done false⟩
  | act {running : Bool} {rest rest' : Call Bool} {e e' : Endpoint} {action : Action}
      (hstep : rest.Step e action e' rest') :
      Step handler ⟨running, rest⟩ (.acted ⟨e, action, e'⟩) ⟨running, rest'⟩
  | stop {running : Bool} {rest : Call Bool} :
      Step handler ⟨running, rest⟩ .stopped ⟨false, rest⟩

/-- What a new loop comes to by a history. -/
inductive Reaches (handler : Message → Call Unit) : List Tick → Listener → Prop where
  | start : Reaches handler [] start
  | snoc {ticks : List Tick} {tick : Tick} {l l' : Listener} (h : Reaches handler ticks l)
      (hstep : l.Step handler tick l') : Reaches handler (ticks ++ [tick]) l'

variable {config : Config} {handler : Message → Call Unit} {ticks : List Tick}
  {l : Listener}

/-! ## Looking -/

theorem Reaches.running_iff (h : Reaches handler ticks l) :
    l.running = true ↔ Tick.stopped ∉ ticks := by
  induction h with
  | start => simp [Listener.start]
  | snoc h hstep ih => cases hstep <;> simp_all

/-- The loop sees that it was told to stop when it looks next. -/
theorem Reaches.looked_iff (h : Reaches handler ticks l) {before : List Tick} {b : Bool}
    (hbefore : before ++ [.looked b] <+: ticks) : b = true ↔ Tick.stopped ∉ before := by
  induction h with
  | start => simp at hbefore
  | @snoc ticks tick l l' h hstep ih =>
      rcases List.prefix_concat_iff.mp hbefore with heq | hearlier
      · obtain ⟨rfl, htick⟩ := List.append_inj' heq rfl
        cases htick
        rw [← h.running_iff]
        cases hstep <;> simp
      · exact ih hearlier

/-- A loop that is over can only be told to stop. -/
theorem Step.of_over {tick : Tick} {l' : Listener} (hstep : l.Step handler tick l')
    (hover : l.rest = .done false) : tick = .stopped ∧ l'.rest = .done false := by
  cases hstep with
  | begin => cases hover
  | leave => cases hover
  | act hact =>
      dsimp only at hover
      subst hover
      cases hact
  | stop => exact ⟨rfl, hover⟩

/-- A loop that has seen that it may not go on is over. -/
theorem Reaches.over_of_looked (h : Reaches handler ticks l)
    (hlooked : Tick.looked false ∈ ticks) : l.rest = .done false := by
  induction h with
  | start => simp at hlooked
  | snoc h hstep ih =>
      rcases List.mem_append.mp hlooked with hearlier | hlast
      · exact (hstep.of_over (ih hearlier)).2
      · rw [List.mem_singleton] at hlast
        subst hlast
        cases hstep
        rfl

/-- Nothing happens to a loop that has seen that it may not go on, but that it is told
to stop again. -/
theorem Reaches.stopped_of_looked (h : Reaches handler ticks l)
    {before after : List Tick} (hticks : ticks = before ++ .looked false :: after) :
    ∀ tick ∈ after, tick = .stopped := by
  induction h generalizing after with
  | start => simp at hticks
  | @snoc ticks tick l l' h hstep ih =>
      rcases List.eq_nil_or_concat after with rfl | ⟨front, last, rfl⟩
      · simp
      · have hsplit : ticks ++ [tick] = (before ++ .looked false :: front) ++ [last] := by
          simp [hticks]
        obtain ⟨hearlier, hlast⟩ := List.append_inj' hsplit rfl
        cases hlast
        have hover := h.over_of_looked (by simp [hearlier])
        intro t ht
        rw [List.concat_eq_append, List.mem_append, List.mem_singleton] at ht
        rcases ht with ht | rfl
        · exact ih hearlier t ht
        · exact (hstep.of_over hover).1

/-! ## Rounds -/

/-- The present round of a loop, by what is left of it. There is none if the loop has
not begun one since the last, or has seen that it may not go on. -/
def Present (handler : Message → Call Unit) (ticks : List Tick) (rest : Call Bool) :
    Option (List Moment) → Prop
  | none => rest = .done true ∨ rest = .done false ∧ Tick.looked false ∈ ticks
  | some moments => (receiveRound handler).Path moments rest ∧ rest ≠ .done true

/-- The history of a loop is a row of rounds that are over, and the present one. -/
theorem Reaches.rounds (h : Reaches handler ticks l)
    (hfits : ∀ moment ∈ momentsOf ticks, moment.before.Fits config)
    (htell : ∀ moment ∈ momentsOf ticks, moment.before.TellsDeadlines) :
    ∃ (rounds : List Round) (present : Option (List Moment)),
      (∀ round ∈ rounds, round.Ends config handler true) ∧
      Present handler ticks l.rest present ∧
      momentsOf ticks = rounds.flatMap Round.moments ++ present.getD [] ∧
      roundsBegun ticks = rounds.length + present.toList.length := by
  induction h with
  | start => exact ⟨[], none, by simp, .inl rfl, rfl, rfl⟩
  | @snoc ticks tick l l' h hstep ih =>
      rw [momentsOf_concat] at hfits htell
      obtain ⟨rounds, present, hends, hpresent, hmoments, hbegun⟩ := ih
        (fun moment hmoment => hfits moment (List.mem_append_left _ hmoment))
        (fun moment hmoment => htell moment (List.mem_append_left _ hmoment))
      rw [momentsOf_concat, roundsBegun_concat]
      cases hstep with
      | begin =>
          cases present with
          | none =>
              refine ⟨rounds, some [], hends, ⟨.here _, nofun⟩, ?_, ?_⟩
              · simpa [Tick.moment?] using hmoments
              · simpa [Tick.begins] using hbegun
          | some moments => exact absurd rfl hpresent.2
      | leave =>
          cases present with
          | none =>
              refine ⟨rounds, none, hends, .inr ⟨rfl, by simp⟩, ?_, ?_⟩
              · simpa [Tick.moment?] using hmoments
              · simpa [Tick.begins] using hbegun
          | some moments => exact absurd rfl hpresent.2
      | stop =>
          refine ⟨rounds, present, hends, ?_, ?_, ?_⟩
          · cases present with
            | none => exact hpresent.imp_right fun h => ⟨h.1, List.mem_append_left _ h.2⟩
            | some moments => exact hpresent
          · simpa [Tick.moment?] using hmoments
          · simpa [Tick.begins] using hbegun
      | @act running rest rest' e e' action hact =>
          cases present with
          | none =>
              rcases hpresent with hdone | ⟨hdone, -⟩
              · dsimp only at hdone
                subst hdone
                cases hact
              · dsimp only at hdone
                subst hdone
                cases hact
          | some moments =>
              have hpath := hpresent.1.snoc hact
              have hmore : momentsOf ticks ++
                  (Tick.acted ⟨e, action, e'⟩).moment?.toList =
                  rounds.flatMap Round.moments ++ (moments ++ [⟨e, action, e'⟩]) := by
                simp [hmoments, Tick.moment?]
              -- With this action the present round may come to its end, and is then one
              -- of those that are over.
              by_cases hdone : rest' = .done true
              · subst hdone
                rw [hmore] at hfits htell
                obtain ⟨round, hround, hstands⟩ := Round.stands_of_path
                  (fun moment hmoment => hfits moment (List.mem_append_right _ hmoment))
                  (fun moment hmoment => htell moment (List.mem_append_right _ hmoment))
                  hpath
                refine ⟨rounds ++ [round], none, ?_, .inl rfl, ?_, ?_⟩
                · intro other hother
                  rcases List.mem_append.mp hother with hearlier | hlast
                  · exact hends other hearlier
                  · exact List.mem_singleton.mp hlast ▸ hstands.ends
                · rw [hmore]
                  simp [hround]
                · simpa [Tick.begins] using hbegun
              · refine ⟨rounds, some (moments ++ [(⟨e, action, e'⟩ : Moment)]), hends,
                  ⟨hpath, hdone⟩, hmore, ?_⟩
                simpa [Tick.begins] using hbegun

/-- The rounds of a loop's history, the last of which may not be over, and what is to
be said of them. -/
structure Orderly (config : Config) (handler : Message → Call Unit) (ticks : List Tick)
    (l : Listener) (rounds : List Round) (last : Option Round) : Prop where
  /-- The loop takes rounds and does nothing else. -/
  moments_eq : momentsOf ticks = (rounds ++ last.toList).flatMap Round.moments
  /-- It begins one where it looks and sees that it may go on. -/
  begun_eq : roundsBegun ticks = (rounds ++ last.toList).length
  /-- All rounds but the last one have ended with a scan. -/
  ends : ∀ round ∈ rounds, round.Ends config handler true
  /-- The last one has come to one of the places in a round. -/
  stands : ∀ round ∈ last, round.Stands config handler l.rest
  /-- The handler is called once with each message that is received, in the order in
  which they come, and with nothing else. Only the last message may still be to be
  handled, and not when the loop is over or between two rounds. -/
  delivered : ∃ pending,
    ((rounds ++ last.toList).flatMap Round.received).filterMap (messageIn config) =
        (rounds ++ last.toList).flatMap Round.calledWith ++ pending ∧
      pending.length ≤ 1 ∧ ∀ again, l.rest = .done again → pending = []
  /-- A look sees whether the loop was told to stop before. -/
  looked_iff : ∀ before b, before ++ [.looked b] <+: ticks →
    (b = true ↔ Tick.stopped ∉ before)
  /-- The first look that sees it is the end of the loop. -/
  left : ∀ before after, ticks = before ++ .looked false :: after →
    l.rest = .done false ∧ ∀ tick ∈ after, tick = .stopped
  /-- The loop ends there, or in a round in which the socket was gone. -/
  ended : l.rest = .done false →
    Tick.looked false ∈ ticks ∨ ∃ round ∈ last, round.Ends config handler false
  /-- It breaks off only where the handler does. -/
  broken : l.rest = .fault → ∃ round ∈ last, ∃ m moments,
    round.call = some (m, moments) ∧ Called handler m moments .fault
  /-- Otherwise it goes on, whatever the endpoint is. -/
  goes_on : l.rest ≠ .done false → l.rest ≠ .fault → ∀ e,
    l.rest = .done true ∨ ∃ action e' rest, l.rest.Step e action e' rest

/-- A receive loop delivers every message once and in order, settles what it answers
before and scans after, and ends when it is told to or the socket is gone, for
nothing else. -/
theorem delivers_once_in_order (h : Reaches handler ticks l)
    (hfits : ∀ moment ∈ momentsOf ticks, moment.before.Fits config)
    (htell : ∀ moment ∈ momentsOf ticks, moment.before.TellsDeadlines) :
    ∃ rounds last, Orderly config handler ticks l rounds last := by
  obtain ⟨rounds, present, hends, hpresent, hmoments, hbegun⟩ := h.rounds hfits htell
  have hdelivered := Round.calledWith_of_ends hends
  have hlooked {before : List Tick} {b : Bool} (hbefore : before ++ [.looked b] <+: ticks) :=
    h.looked_iff hbefore
  have hleft {before after : List Tick} (hticks : ticks = before ++ .looked false :: after) :
      l.rest = .done false ∧ ∀ tick ∈ after, tick = .stopped :=
    ⟨h.over_of_looked (by simp [hticks]), h.stopped_of_looked hticks⟩
  -- Without a present round the loop stands between two rounds, or has left.
  cases present with
  | none =>
      have hrest : ∃ again, l.rest = .done again := by
        rcases hpresent with hdone | ⟨hdone, -⟩
        · exact ⟨true, hdone⟩
        · exact ⟨false, hdone⟩
      obtain ⟨again, hrest⟩ := hrest
      exact ⟨rounds, none,
        { moments_eq := by simpa using hmoments
          begun_eq := by simpa using hbegun
          ends := hends
          stands := by simp
          delivered := ⟨[], by simpa using hdelivered, by simp, by simp⟩
          looked_iff := fun _ _ => hlooked
          left := fun _ _ => hleft
          ended := fun hover => .inl (hpresent.resolve_left (by simp [hover])).2
          broken := by simp [hrest]
          goes_on := fun hover _ _ => by cases again <;> simp_all }⟩
  | some moments =>
      obtain ⟨hpath, hunder⟩ := hpresent
      rw [hmoments] at hfits htell
      obtain ⟨round, hround, hstands⟩ := Round.stands_of_path
        (fun moment hmoment => hfits moment (List.mem_append_right _ hmoment))
        (fun moment hmoment => htell moment (List.mem_append_right _ hmoment)) hpath
      obtain ⟨pending, hreceived, hfew, hnone⟩ := hstands.calledWith
      have hgoes (hover : l.rest ≠ .done false) (hfault : l.rest ≠ .fault) :
          ¬l.rest.IsOver := by
        cases hrest : l.rest with
        | done again => cases again <;> simp_all
        | fault => simp_all
        | _ => exact not_false
      exact ⟨rounds, some round,
        { moments_eq := by simp [hmoments, hround]
          begun_eq := by simp [hbegun]
          ends := hends
          stands := by simpa using hstands
          delivered := ⟨pending, by simp [hdelivered, hreceived], hfew, hnone⟩
          looked_iff := fun _ _ => hlooked
          left := fun _ _ => hleft
          ended := fun hover => .inr ⟨round, rfl, (hover ▸ hstands).ends⟩
          broken := fun hfault => ⟨round, rfl, (hfault ▸ hstands).broken⟩
          goes_on := fun hover hfault e => .inr (exists_step (hgoes hover hfault) e) }⟩

/-! ## A loop that is told to stop -/

/-- While it is in a round, a loop goes on as the round does. -/
theorem Reaches.acts {running : Bool} {rest rest' : Call Bool} {moments : List Moment}
    (h : Reaches handler ticks ⟨running, rest⟩) (hpath : rest.Path moments rest') :
    Reaches handler (ticks ++ moments.map .acted) ⟨running, rest'⟩ := by
  induction hpath generalizing ticks with
  | here => simpa using h
  | step hstep hrest ih =>
      have hnext := ih (h.snoc (.act hstep))
      simpa using hnext

/-- A handler that does not answer does nothing. -/
theorem handle_record (m : Message) : Handler.record.handle m = done () := by
  have hanswer : Handler.record.answer m = none := by
    simp [Handler.answer, Handler.reply]
  rw [Handler.handle, hanswer]
  rfl

/-- A receive brings nothing into flight. -/
theorem keeps_receiveNext_among (l : List (Nat × Entry)) :
    receiveNext.Keeps fun e => e.Fits config ∧ e.inFlight.entries ⊆ l :=
  moves_receiveNext
    { refl := fun _ he => he
      openReadBuffer := fun _ he => ⟨he.1.openReadBuffer, he.2⟩
      accept := fun _ exposed datagram sender he =>
        ⟨he.1.accept exposed datagram sender, he.2⟩
      dequeue := fun _ id he =>
        ⟨he.1.dequeue id, fun _ hp => he.2 (he.1.sound.mem_remove.mp hp).1⟩ }

/-- An endpoint with nothing in flight stays one in a scan. -/
theorem keeps_checkQueues_of_none :
    checkQueues.Keeps fun e => e.Fits config ∧ e.inFlight.entries = [] :=
  moves_checkQueues
    { refl := fun _ he => he
      openReadBuffer := fun _ he => ⟨he.1.openReadBuffer, he.2⟩
      accept := fun _ exposed datagram sender he =>
        ⟨he.1.accept exposed datagram sender, he.2⟩
      dequeue := by
        intro e id he
        refine ⟨he.1.dequeue id, ?_⟩
        show (e.inFlight.remove id).2.entries = []
        simp [he.1.sound.entries_remove, he.2]
      noteRetransmission := by
        intro e id now he
        refine ⟨he.1.noteRetransmission id now, ?_⟩
        show (e.inFlight.update id _).entries = []
        simp [he.1.sound.entries_update, he.2] }

/-- If a receive leaves nothing in flight, the round of a loop that only records hands the
message over, and its scan finds nothing. -/
theorem exists_recordRound {e e' : Endpoint} {m : Message} {actions : List Action}
    (he : e.Fits config) (h : receiveNext.Runs e actions e' (some (.ok (some m))))
    (hnone : e'.inFlight.entries = []) :
    ∃ moments, (receiveRound Handler.record.handle).Path moments (.done true) ∧
      moments.map (·.action) =
        actions ++ .told (.delivered m) :: (opening ⟨0⟩ ++ [] ++ closing []) ∧
      ∀ moment ∈ moments, moment.before.Fits config ∧
        moment.before.inFlight.entries ⊆ e.inFlight.entries := by
  have hfits' : e'.Fits config :=
    ((keeps_receiveNext_among e.inFlight.entries).runs ⟨he, List.Subset.refl _⟩ h).1
  have hdue : e'.inFlight.expiredIds? ⟨0⟩ = some [] := by
    rw [InFlight.expiredIds?, InFlight.toList, hnone]
    rfl
  have hscan : checkQueues.Runs e' (opening ⟨0⟩ ++ [] ++ closing []) e' (some ()) :=
    runs_checkQueues_iff.mpr (.inr ⟨⟨0⟩, [], [], [], hdue, .nil _, rfl, rfl⟩)
  obtain ⟨receiving, hreceive, hreceived, hfound⟩ :=
    h.path (keeps_receiveNext_among e.inFlight.entries) ⟨he, List.Subset.refl _⟩
  obtain ⟨scanning, hscan, hscanned, hleft⟩ :=
    hscan.path keeps_checkQueues_of_none ⟨hfits', hnone⟩
  refine ⟨receiving ++ ⟨e', .told (.delivered m), e'⟩ :: scanning, ?_, ?_, ?_⟩
  · rw [receiveRound_eq]
    refine path_bind_done_iff.mpr ⟨_, _, _, rfl, hreceive, .step (.tell _ _ _) ?_⟩
    rw [handle_record]
    show (checkQueues.bind fun _ => done true).Path _ _
    exact path_bind_done_iff.mpr
      ⟨scanning, [], (), (List.append_nil _).symm, hscan, .here _⟩
  · rw [List.map_append, List.map_cons, hreceived, hscanned]
  · rw [List.forall_mem_append, List.forall_mem_cons]
    refine ⟨hfound, ⟨hfits', by simp [hnone]⟩, ?_⟩
    intro moment hmoment
    obtain ⟨hfits, hempty⟩ := hleft moment hmoment
    exact ⟨hfits, by simp [hempty]⟩

/-- The acknowledgement of the sample request, as it comes to a loop. -/
def sampleAnswer : Except TransportError Reception :=
  .ok (some ([0x60, 0, 0, 1], Request.sample.destination))

/-- A request that need not be acknowledged, as it comes to a loop. -/
def sampleArrival : Except TransportError Reception :=
  .ok (some ([0x50, 1, 0, 1], .ofIp (.v4 ⟨127, 0, 0, 1⟩) 5683))

/-- The message in the one datagram. -/
def sampleAck : Message := (Message.ack .empty 1).withSender Request.sample.destination

/-- The message in the other one. -/
def sampleGet : Message :=
  (Message.new .nonConfirmable ⟨1⟩ 1 .empty .empty none).withSender
    (.ofIp (.v4 ⟨127, 0, 0, 1⟩) 5683)

/-- The message in flight is acknowledged in the one round, and another one comes in the
next. -/
theorem exists_sampleRounds : ∃ first second,
    (receiveRound Handler.record.handle).Path first (.done true) ∧
      (receiveRound Handler.record.handle).Path second (.done true) ∧
      (first ++ second).map (·.action) =
        wait sampleAnswer ++ ending Request.sampleAfter.inFlight 1 .acknowledged ++
          .told (.delivered sampleAck) :: (opening ⟨0⟩ ++ [] ++ closing []) ++
        (wait sampleArrival ++
          .told (.delivered sampleGet) :: (opening ⟨0⟩ ++ [] ++ closing [])) ∧
      ∀ moment ∈ first ++ second, moment.before.Fits smallEndpoint.config ∧
        moment.before.inFlight.entries ⊆ Request.sampleAfter.inFlight.entries := by
  have hfits : Request.sampleAfter.Fits smallEndpoint.config := by
    have hkeeps := moves_request (Endpoint.enduring_fits smallEndpoint.config)
      (fun _ he => he.takeId) Request.sample
    exact Keeps.runs hkeeps (@Endpoint.fits_new _ _ 0 rfl).1 Request.runs_sample
  have hanswer : messageIn smallEndpoint.config sampleAnswer = some sampleAck ∧
      answerIn smallEndpoint.config sampleAnswer = some sampleAck := by
    decide +kernel
  have hget : messageIn smallEndpoint.config sampleArrival = some sampleGet ∧
      answerIn smallEndpoint.config sampleArrival = none := by
    decide +kernel
  have hfirst : receiveNext.Runs Request.sampleAfter
      (wait sampleAnswer ++ ending Request.sampleAfter.inFlight 1 .acknowledged)
      ((Request.sampleAfter.afterWait sampleAnswer).dequeue 1).1
      (some (.ok (some sampleAck))) := by
    refine (runs_receiveNext_iff hfits).mpr ⟨sampleAnswer, ?_, ?_⟩
    · rw [hanswer.1]
      rfl
    · rw [hanswer.2]
      exact ⟨rfl, rfl⟩
  have hfits' := ((keeps_receiveNext_among _).runs ⟨hfits, List.Subset.refl _⟩ hfirst).1
  have hsecond : receiveNext.Runs
      ((Request.sampleAfter.afterWait sampleAnswer).dequeue 1).1 (wait sampleArrival)
      (((Request.sampleAfter.afterWait sampleAnswer).dequeue 1).1.afterWait sampleArrival)
      (some (.ok (some sampleGet))) := by
    refine (runs_receiveNext_iff hfits').mpr ⟨sampleArrival, ?_, ?_⟩
    · rw [hget.1]
      rfl
    · rw [hget.2]
      exact ⟨rfl, rfl⟩
  obtain ⟨first, hround, hactions, hall⟩ := exists_recordRound hfits hfirst rfl
  obtain ⟨second, hround', hactions', hall'⟩ := exists_recordRound hfits' hsecond rfl
  refine ⟨first, second, hround, hround', ?_, List.forall_mem_append.mpr ⟨hall, ?_⟩⟩
  · rw [List.map_append, hactions, hactions']
  · intro moment hmoment
    obtain ⟨hfits, hsubset⟩ := hall' moment hmoment
    exact ⟨hfits, List.Subset.trans hsubset (List.nil_subset _)⟩

/-- A loop receives the acknowledgement of a message in flight and then a request. It
tells who waits for the former, hands over both in their order, is told to stop, and sees
it. -/
theorem delivers_once_in_order_sampleRounds : ∃ ticks,
    Reaches Handler.record.handle ticks ⟨false, .done false⟩ ∧
      receptions (momentsOf ticks) = [sampleAnswer, sampleArrival] ∧
      eventsOf (momentsOf ticks) = [.notified ⟨7, 1, .acknowledged⟩,
        .delivered sampleAck, .delivered sampleGet] ∧
      (∀ moment ∈ momentsOf ticks, moment.before.Fits smallEndpoint.config) ∧
      (∀ moment ∈ momentsOf ticks, moment.before.TellsDeadlines) ∧
      ∃ rounds last, Orderly smallEndpoint.config Handler.record.handle ticks
        ⟨false, .done false⟩ rounds last := by
  obtain ⟨first, second, hfirst, hsecond, hactions, hall⟩ := exists_sampleRounds
  have hround : Reaches Handler.record.handle ([.looked true] ++ first.map .acted)
      ⟨true, .done true⟩ :=
    (Reaches.start.snoc .begin).acts hfirst
  have hround' := (hround.snoc .begin).acts hsecond
  have hleft := (hround'.snoc .stop).snoc .leave
  have hmoments : momentsOf ([.looked true] ++ first.map .acted ++ [.looked true] ++
      second.map .acted ++ [.stopped] ++ [.looked false]) = first ++ second := by
    rw [momentsOf_concat, momentsOf_concat, momentsOf_acted, momentsOf_concat,
      momentsOf_acted]
    simp [momentsOf, Tick.moment?]
  have hfits : ∀ moment ∈ first ++ second, moment.before.Fits smallEndpoint.config :=
    fun moment hmoment => (hall moment hmoment).1
  have htell : ∀ moment ∈ first ++ second, moment.before.TellsDeadlines := by
    have hdeadline : ∀ p ∈ Request.sampleAfter.inFlight.entries,
        p.2.timer.deadline? ≠ none := by decide +kernel
    exact fun moment hmoment p hp => hdeadline p ((hall moment hmoment).2 hp)
  have hseen {α : Type} (f : Action → Option α) :
      (first ++ second).filterMap (fun moment => f moment.action) =
        ((first ++ second).map (·.action)).filterMap f :=
    List.filterMap_map.symm
  refine ⟨_, hleft, ?_, ?_, ?_, ?_, ?_⟩
  · rw [hmoments, receptions, hseen, hactions]
    rfl
  · rw [hmoments, eventsOf, hseen, hactions]
    rfl
  · rwa [hmoments]
  · rwa [hmoments]
  · exact delivers_once_in_order hleft (by rwa [hmoments]) (by rwa [hmoments])

end Listener

end Coap
