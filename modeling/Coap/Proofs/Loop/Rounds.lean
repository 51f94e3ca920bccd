import Coap.Proofs.Loop.Paths
import Coap.Proofs.Runs.Turns

/-!
# Rounds of the receive loop

A round waits for a datagram, settles what the message in it answers, calls the
handler with the message, and scans. So the moments of a round come in three
stretches, and a round that was stopped anywhere has come to one of a few places in
them. Each stretch is a path of its own call: nothing else is in a round.

That others use the endpoint between two actions of a round changes what the round
finds, but not what it does: the message in a datagram is a matter of the size of the
read buffer, and the scan comes after the handler whatever the handler has done.

## Main results

* `path_receiveNext` — a receive is over when it has received, and has settled what
  was answered.
* `Round.stands_of_path` — every way a round can have come is one of the places.
* `Round.Ends.calledWith` — a round that is over has called the handler with the
  message that it received, if there is one.
-/

namespace Coap

namespace Call

variable {config : Config} {moments : List Moment}

/-- At some moments the message that an answer answers was taken out of flight, under the
lock, and the holder of its ticket was told. -/
def Settled (m : Message) (moments : List Moment) : Prop :=
  ∃ (e : Endpoint) (told : Option Notification),
    (told = (e.inFlight.get? m.id).bind fun entry => entry.ticket.map fun ticket =>
      ⟨ticket, entry.id, if m.isAck then .acknowledged else .rejected⟩) ∧
    moments.map (·.action) =
      [.acquired .inFlight, .updated, .released .inFlight] ++
        told.toList.map (fun n => .told (.notified n)) ∧
    moments[1]? = some ⟨e, .updated, (e.dequeue m.id).1⟩

/-- Some moments are a receive of what came from the socket. -/
def Received (config : Config) (r : Except TransportError Reception)
    (moments : List Moment) : Prop :=
  ∃ waiting settling, moments = waiting ++ settling ∧
    waiting.map (·.action) = wait r ∧
    match answerIn config r with
    | none => settling = []
    | some m => Settled m settling

theorem path_receiveMessage {v : Except TransportError (Option Message)}
    (hfits : ∀ moment ∈ moments, moment.before.Fits config)
    (h : receiveMessage.Path moments (done v)) :
    ∃ r, v = r.map (fun _ => messageIn config r) ∧
      moments.map (·.action) = wait r := by
  cases h with
  | step hacquired h =>
  cases hacquired
  cases h with
  | @step _ _ _ opened _ _ _ hopening h =>
  cases hopening
  have hopened : opened.Fits config :=
    hfits ⟨opened, .updated, opened.openReadBuffer.1⟩ (by simp)
  cases h with
  | step hreceived h =>
  cases hreceived with
  | receive _ r =>
  refine ⟨r, ?_⟩
  match r with
  | .error cause | .ok none =>
      cases h with
      | step hreleased h =>
      cases hreleased
      obtain ⟨rfl, hv⟩ := path_done_iff.mp h
      cases hv
      exact ⟨rfl, rfl⟩
  | .ok (some (datagram, sender)) =>
      cases h with
      | @step _ _ _ e _ _ _ haccepted h =>
      cases haccepted
      cases h with
      | step hreleased h =>
      cases hreleased
      obtain ⟨rfl, hv⟩ := path_done_iff.mp h
      cases hv
      have he : e.Fits config :=
        hfits ⟨e, .updated, (e.accept opened.openReadBuffer.2 datagram sender).1⟩ (by simp)
      refine ⟨?_, rfl⟩
      rw [← message_accept hopened he]
      rfl

theorem path_notify {n : Option Notification}
    (h : (notify n).Path moments (done ())) :
    moments.map (·.action) = n.toList.map fun n => .told (.notified n) := by
  cases n with
  | none =>
      obtain ⟨rfl, -⟩ := path_done_iff.mp h
      rfl
  | some n =>
      cases h with
      | step htold h =>
      cases htold
      obtain ⟨rfl, -⟩ := path_done_iff.mp h
      rfl

/-- Taking out of flight what an answer answers, and telling so. -/
theorem path_settle {m : Message} (h : (settle m).Path moments (done ())) :
    Settled m moments := by
  cases h with
  | step hacquired h =>
  cases hacquired
  cases h with
  | @step _ _ _ e _ _ _ hdequeued h =>
  cases hdequeued
  cases h with
  | step hreleased h =>
  cases hreleased
  have hentry : (e.dequeue m.id).2 = e.inFlight.get? m.id :=
    InFlight.fst_remove e.inFlight m.id
  have htold := path_notify h
  rw [hentry] at htold
  refine ⟨e, _, rfl, ?_, rfl⟩
  simp only [List.map_cons, htold]
  rfl

/-- A receive is over when it has received, and has settled what was answered. -/
theorem path_receiveNext {v : Except TransportError (Option Message)}
    (hfits : ∀ moment ∈ moments, moment.before.Fits config)
    (h : receiveNext.Path moments (done v)) :
    ∃ r, v = r.map (fun _ => messageIn config r) ∧ Received config r moments := by
  rw [receiveNext_eq] at h
  obtain ⟨waiting, settling, value, rfl, hwait, hrespond⟩ := path_bind_done_iff.mp h
  obtain ⟨r, rfl, hwaited⟩ := path_receiveMessage
    (fun moment hmoment => hfits moment (List.mem_append_left _ hmoment)) hwait
  rw [respond_reception] at hrespond
  cases hanswer : answerIn config r with
  | none =>
      simp only [hanswer] at hrespond
      obtain ⟨rfl, hv⟩ := path_done_iff.mp hrespond
      cases hv
      refine ⟨r, rfl, waiting, [], rfl, hwaited, ?_⟩
      rw [hanswer]
  | some m =>
      simp only [hanswer] at hrespond
      obtain ⟨first, rest, a, rfl, hsettle, hrest⟩ := path_bind_done_iff.mp hrespond
      obtain ⟨rfl, hv⟩ := path_done_iff.mp hrest
      cases hv
      refine ⟨r, rfl, waiting, first, by rw [List.append_nil], hwaited, ?_⟩
      rw [hanswer]
      exact path_settle hsettle

/-! ## Behind the receive -/

/-- What the loop does with what it has received. -/
def proceed (handler : Message → Call Unit) :
    Except TransportError (Option Message) → Call Bool
  | .error .closed => done false
  | .ok (some m) => tell (.delivered m) ((handler m).bind fun _ =>
      checkQueues.bind fun _ => done true)
  | _ => checkQueues.bind fun _ => done true

theorem receiveRound_eq (handler : Message → Call Unit) :
    receiveRound handler = receiveNext.bind (proceed handler) := by
  refine congrArg receiveNext.bind (funext fun r => ?_)
  match r with
  | .error .closed | .error .timeout | .error .unreachable | .error (.other _)
  | .ok none | .ok (some _) => rfl

/-- A round moves an endpoint as the handler and its own steps do. -/
theorem moves_receiveRound {R : Endpoint → Endpoint → Prop} (hR : Endpoint.Lasting R)
    {handler : Message → Call Unit} (hhandler : ∀ m, (handler m).Moves R) :
    (receiveRound handler).Moves R := by
  have hscan : (checkQueues.bind fun _ => done true).Moves R :=
    Moves.bind (moves_checkQueues hR) fun _ => trivial
  rw [receiveRound_eq]
  refine Moves.bind (moves_receiveNext hR.receptive) fun r => ?_
  match r with
  | .error .closed => exact trivial
  | .error .timeout | .error .unreachable | .error (.other _) | .ok none => exact hscan
  | .ok (some m) => exact Moves.bind (hhandler m) fun _ => hscan

/-- The handler was called with a message and has come so far. -/
def Called (handler : Message → Call Unit) (m : Message) (moments : List Moment)
    (rest : Call Unit) : Prop :=
  ∃ e others, moments = ⟨e, .told (.delivered m), e⟩ :: others ∧
    (handler m).Path others rest

end Call

/-! ## Rounds -/

/-- The moments of a round, in its three stretches. -/
structure Round where
  /-- The moments of the receive. -/
  receiving : List Moment
  /-- The message that the handler was called with, and the moments from the call to
  the return. -/
  call : Option (Message × List Moment)
  /-- The moments of the scan, if it has begun. -/
  scanning : Option (List Moment)

namespace Round

open Call

/-- The moments of a round. -/
def moments (round : Round) : List Moment :=
  round.receiving ++ ((round.call.map Prod.snd).getD [] ++ round.scanning.getD [])

/-- What the receive of a round has received. -/
def received (round : Round) : List (Except TransportError Reception) :=
  receptions round.receiving

/-- The message that the handler was called with in a round. -/
def calledWith (round : Round) : List Message := (round.call.map Prod.fst).toList

section

variable (config : Config) (handler : Message → Call Unit)

/-- The handler has handled the message in a reception, if there is one, and has
returned. -/
def Handled (r : Except TransportError Reception)
    (call : Option (Message × List Moment)) : Prop :=
  match messageIn config r with
  | none => call = none
  | some m => ∃ moments, call = some (m, moments) ∧ Called handler m moments (done ())

/-- A round is over. The value tells whether there may be another one. -/
inductive Ends : Round → Bool → Prop where
  /-- The socket is gone. -/
  | closed {moments : List Moment}
      (hreceived : Received config (.error .closed) moments) :
      Ends ⟨moments, none, none⟩ false
  /-- Whatever else came, the round ends with a scan. -/
  | scanned {r : Except TransportError Reception} {moments scan : List Moment}
      {call : Option (Message × List Moment)} (hreceived : Received config r moments)
      (hopen : r ≠ .error .closed) (hcall : Handled config handler r call)
      (hscan : checkQueues.Path scan (done ())) : Ends ⟨moments, call, some scan⟩ true

/-- Where a round stands, and what is left of it. -/
inductive Stands : Round → Call Bool → Prop where
  | receiving {moments : List Moment}
      {c : Call (Except TransportError (Option Message))}
      (hpath : receiveNext.Path moments c) (hrunning : ∀ a, c ≠ done a)
      (hsound : c ≠ fault) :
      Stands ⟨moments, none, none⟩ (c.bind (proceed handler))
  /-- The handler is about to be called. -/
  | calling {r : Except TransportError Reception} {moments : List Moment} {m : Message}
      (hreceived : Received config r moments) (hmessage : messageIn config r = some m) :
      Stands ⟨moments, none, none⟩ (proceed handler (.ok (some m)))
  | handling {r : Except TransportError Reception} {moments calling : List Moment}
      {m : Message} {c : Call Unit} (hreceived : Received config r moments)
      (hmessage : messageIn config r = some m) (hcalled : Called handler m calling c)
      (hrunning : ∀ a, c ≠ done a) :
      Stands ⟨moments, some (m, calling), none⟩
        (c.bind fun _ => checkQueues.bind fun _ => done true)
  | scanning {r : Except TransportError Reception} {moments scan : List Moment}
      {call : Option (Message × List Moment)} {c : Call Unit}
      (hreceived : Received config r moments) (hopen : r ≠ .error .closed)
      (hcall : Handled config handler r call) (hscan : checkQueues.Path scan c)
      (hrunning : ∀ a, c ≠ done a) (hsound : c ≠ fault) :
      Stands ⟨moments, call, some scan⟩ (c.bind fun _ => done true)
  | finished {round : Round} {again : Bool} (hends : Ends config handler round again) :
      Stands round (done again)

end

variable {config : Config} {handler : Message → Call Unit}

/-- The last stretch of a round. -/
theorem stands_of_scan {r : Except TransportError Reception}
    {receiving others : List Moment} {call : Option (Message × List Moment)}
    {rest : Call Bool} (hreceived : Received config r receiving)
    (hopen : r ≠ .error .closed) (hcall : Handled config handler r call)
    (htell : ∀ moment ∈ others, moment.before.TellsDeadlines)
    (h : (checkQueues.bind fun _ => done true).Path others rest) :
    Stands config handler ⟨receiving, call, some others⟩ rest := by
  rcases path_bind_iff.mp h with
    ⟨c, hscan, hrunning, rfl⟩ | ⟨scan, others, a, rfl, hscan, hrest⟩
  · have hsound := (path_checkQueues hscan htell).1
    exact .scanning hreceived hopen hcall hscan hrunning hsound
  · obtain ⟨rfl, rfl⟩ := path_done_iff.mp hrest
    rw [List.append_nil]
    exact .finished (.scanned hreceived hopen hcall hscan)

/-- The two last stretches of a round in which a message came. -/
theorem stands_of_call {r : Except TransportError Reception} {m : Message}
    {receiving others : List Moment} {rest : Call Bool}
    (hreceived : Received config r receiving) (hmessage : messageIn config r = some m)
    (htell : ∀ moment ∈ others, moment.before.TellsDeadlines)
    (h : (proceed handler (.ok (some m))).Path others rest) :
    ∃ round : Round, round.moments = receiving ++ others ∧
      Stands config handler round rest := by
  have hopen : r ≠ .error .closed := by
    rintro rfl
    cases hmessage
  cases h with
  | here => exact ⟨⟨receiving, none, none⟩, by simp [moments], .calling hreceived hmessage⟩
  | @step _ _ _ e _ _ others htold h =>
  cases htold
  rcases path_bind_iff.mp h with
    ⟨c, hhandler, hrunning, rfl⟩ | ⟨handling, scan, a, rfl, hhandler, hscan⟩
  · exact ⟨⟨receiving, some (m, _), none⟩, by simp [moments],
      .handling hreceived hmessage ⟨e, others, rfl, hhandler⟩ hrunning⟩
  · have hhandled : Handled config handler r
        (some (m, ⟨e, .told (.delivered m), e⟩ :: handling)) := by
      rw [Handled, hmessage]
      exact ⟨_, rfl, e, handling, rfl, hhandler⟩
    refine ⟨⟨receiving, _, some scan⟩, ?_,
      stands_of_scan hreceived hopen hhandled (fun moment hmoment => ?_) hscan⟩
    · simp [moments]
    · exact htell moment (by simp [hmoment])

/-- Wherever a round has come, it is in one of its stretches. -/
theorem stands_of_path {others : List Moment} {rest : Call Bool}
    (hfits : ∀ moment ∈ others, moment.before.Fits config)
    (htell : ∀ moment ∈ others, moment.before.TellsDeadlines)
    (h : (receiveRound handler).Path others rest) :
    ∃ round : Round, round.moments = others ∧ Stands config handler round rest := by
  rw [receiveRound_eq] at h
  -- A round that is still receiving has no other stretch. Otherwise what was received
  -- says which stretches come next.
  rcases path_bind_iff.mp h with
    ⟨c, hreceive, hrunning, rfl⟩ | ⟨receiving, others, v, rfl, hreceive, hrest⟩
  · refine ⟨⟨others, none, none⟩, by simp [moments], ?_⟩
    exact .receiving hreceive hrunning (steady_receiveNext.path hreceive).1
  · obtain ⟨r, rfl, hreceived⟩ := path_receiveNext
      (fun moment hmoment => hfits moment (List.mem_append_left _ hmoment)) hreceive
    have htell' : ∀ moment ∈ others, moment.before.TellsDeadlines :=
      fun moment hmoment => htell moment (List.mem_append_right _ hmoment)
    have hquiet (hopen : r ≠ .error .closed) (hnone : messageIn config r = none)
        (hscan : (checkQueues.bind fun _ => done true).Path others rest) :
        ∃ round : Round, round.moments = receiving ++ others ∧
          Stands config handler round rest := by
      have hhandled : Handled config handler r none := by
        rw [Handled, hnone]
      refine ⟨⟨receiving, none, some others⟩, by simp [moments], ?_⟩
      exact stands_of_scan hreceived hopen hhandled htell' hscan
    match r with
    | .error .closed =>
        obtain ⟨rfl, rfl⟩ := path_done_iff.mp hrest
        exact ⟨⟨receiving, none, none⟩, by simp [moments], .finished (.closed hreceived)⟩
    | .error .timeout | .error .unreachable | .error (.other _) =>
        exact hquiet nofun rfl hrest
    | .ok reception =>
        cases hmessage : messageIn config (.ok reception) with
        | none =>
            simp only [Except.map, hmessage] at hrest
            exact hquiet nofun hmessage hrest
        | some m =>
            simp only [Except.map, hmessage] at hrest
            exact stands_of_call hreceived hmessage htell' hrest

/-! ## What a round has received and whom it has called -/

/-- A receive that is over has received once. -/
theorem receptions_of_received {r : Except TransportError Reception}
    {moments : List Moment} (h : Received config r moments) : receptions moments = [r] := by
  obtain ⟨waiting, settling, rfl, hwaiting, hsettling⟩ := h
  have hwaited : (wait r).filterMap Action.reception? = [r] := by
    unfold wait
    split <;> rfl
  have hactions : receptions (waiting ++ settling) =
      (wait r ++ settling.map (·.action)).filterMap Action.reception? := by
    rw [← hwaiting, ← List.map_append, List.filterMap_map]
    rfl
  rw [hactions]
  cases hanswer : answerIn config r with
  | none =>
      rw [hanswer] at hsettling
      simp [hsettling, hwaited]
  | some m =>
      rw [hanswer] at hsettling
      obtain ⟨e, told, -, hactions, -⟩ := hsettling
      have hsilent : (told.toList.map fun n => Action.told (.notified n)).filterMap
          Action.reception? = [] := by
        rw [List.filterMap_map]
        exact List.filterMap_eq_nil_iff.mpr fun _ _ => rfl
      rw [hactions, List.filterMap_append, List.filterMap_append, hsilent, hwaited]
      rfl

theorem Handled.calledWith {r : Except TransportError Reception} {round : Round}
    (h : Handled config handler r round.call) :
    round.calledWith = (messageIn config r).toList := by
  unfold Handled at h
  cases hmessage : messageIn config r with
  | none =>
      rw [hmessage] at h
      simp [Round.calledWith, h]
  | some m =>
      rw [hmessage] at h
      obtain ⟨moments, hcall, -⟩ := h
      simp [Round.calledWith, hcall]

theorem Ends.calledWith {round : Round} {again : Bool}
    (h : round.Ends config handler again) :
    round.calledWith = round.received.filterMap (messageIn config) := by
  cases h with
  | closed hreceived =>
      rw [received, receptions_of_received hreceived]
      rfl
  | @scanned r _ _ _ hreceived hopen hcall hscan =>
      rw [received, receptions_of_received hreceived, Handled.calledWith hcall]
      cases hmessage : messageIn config r <;> simp [hmessage]

/-- Rounds that are over have called the handler with all messages that came. -/
theorem calledWith_of_ends {rounds : List Round} {again : Bool}
    (h : ∀ round ∈ rounds, round.Ends config handler again) :
    (rounds.flatMap Round.received).filterMap (messageIn config) =
      rounds.flatMap Round.calledWith := by
  induction rounds with
  | nil => rfl
  | cons first others ih =>
      have hfirst := (h first List.mem_cons_self).calledWith
      have hothers := ih fun round hround => h round (List.mem_cons_of_mem _ hround)
      simp [hfirst, hothers]

/-- A round of which nothing is left is over. -/
theorem Stands.ends {round : Round} {again : Bool}
    (h : round.Stands config handler (done again)) : round.Ends config handler again := by
  generalize hrest : done again = rest at h
  cases h with
  | receiving _ hrunning => exact absurd hrest.symm (bind_ne_done hrunning)
  | calling => cases hrest
  | handling _ _ _ hrunning => exact absurd hrest.symm (bind_ne_done hrunning)
  | scanning _ _ _ _ hrunning => exact absurd hrest.symm (bind_ne_done hrunning)
  | finished hends =>
      cases hrest
      exact hends

/-- A round that has broken off has broken off in the handler. -/
theorem Stands.broken {round : Round} (h : round.Stands config handler fault) :
    ∃ m moments, round.call = some (m, moments) ∧ Called handler m moments fault := by
  generalize hrest : (fault : Call Bool) = rest at h
  cases h with
  | receiving _ hrunning hsound =>
      exact absurd hrest.symm (bind_ne_fault hrunning hsound)
  | calling => cases hrest
  | @handling _ _ calling m c _ _ hcalled hrunning =>
      by_cases hc : c = fault
      · exact ⟨m, calling, rfl, hc ▸ hcalled⟩
      · exact absurd hrest.symm (bind_ne_fault hrunning hc)
  | scanning _ _ _ _ hrunning hsound =>
      exact absurd hrest.symm (bind_ne_fault hrunning hsound)
  | finished => cases hrest

/-- Of a round that is under way, at most one message is still to be handled. -/
theorem Stands.calledWith {round : Round} {rest : Call Bool}
    (h : round.Stands config handler rest) :
    ∃ pending, round.received.filterMap (messageIn config) = round.calledWith ++ pending ∧
      pending.length ≤ 1 ∧ ∀ again, rest = done again → pending = [] := by
  have hall {round : Round} {rest : Call Bool}
      (heq : round.calledWith = round.received.filterMap (messageIn config)) :
      ∃ pending, round.received.filterMap (messageIn config) =
        round.calledWith ++ pending ∧ pending.length ≤ 1 ∧
          ∀ again, rest = done again → pending = [] :=
    ⟨[], by rw [heq, List.append_nil], by simp, fun _ _ => rfl⟩
  cases h with
  | @receiving moments c hpath hrunning hsound =>
      -- What was received so far is not a reception that is over, but it is one at most.
      have hfew := (steady_receiveNext.path hpath).2
      refine ⟨(receptions moments).filterMap (messageIn config), rfl, ?_, ?_⟩
      · exact Nat.le_trans (List.length_filterMap_le _ _) hfew
      · intro again hdone
        exact absurd hdone (bind_ne_done hrunning)
  | @calling r moments m hreceived hmessage =>
      refine ⟨[m], ?_, by simp, nofun⟩
      simp [received, receptions_of_received hreceived, hmessage, Round.calledWith]
  | handling hreceived hmessage hcalled hrunning =>
      apply hall
      simp [received, receptions_of_received hreceived, hmessage, Round.calledWith]
  | @scanning r _ _ _ _ hreceived hopen hcall hscan hrunning hsound =>
      apply hall
      rw [received, receptions_of_received hreceived, Handled.calledWith hcall]
      cases hmessage : messageIn config r <;> simp [hmessage]
  | finished hends => exact hall hends.calledWith

end Round

end Coap
