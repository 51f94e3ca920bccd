import Coap.Proofs.Runs.Scans

/-!
# What becomes of a message in a turn

A turn meets the messages that are in flight when it begins, and a send meets
the message that it queues. To each of them one thing happens: it is kept as it
is, it is answered, it is sent for the first time, or a scan treats it because
its deadline has come. Its fate tells what is sent for it, what of it is left in
flight, and how it ends, and nobody is told anything else. So a turn need be
taken apart only once, here.

## Main results

* `Turn.Taken.decides` — a message that a turn meets has a fate.
* `Turn.Taken.of_not_meets` — nothing is done about other messages.
* `Turn.Taken.meets_of_told` — nobody is told of other messages.
-/

namespace Coap

namespace Turn

variable {config : Config} {t : Turn} {seq : Nat} {entry : Entry}

/-- A send puts an entry in flight under a number. The entry is made from the
message as it is written, the clock reading and the fraction drawn. -/
inductive Queues (config : Config) (t : Turn) : Nat → Entry → Prop
  | intro {destination : SocketAddress} {m : Message} {ticket : Option Ticket}
      {text : Bytes} {fraction : Float} {timeout : Duration} {now : Instant}
      (hoperation : t.operation = .send destination m ticket)
      (hnumber : t.number? = some t.before.inFlight.nextSeq)
      (hencode : m.encode = .ok text)
      (hlength : text.length ≤ config.writeBufferSize)
      (hdraws : t.draws = [fraction])
      (htimeout : config.transmission.initialTimeout? fraction = some timeout)
      (hclock : t.clock = [now]) :
      Queues config t t.before.inFlight.nextSeq
        (.new m.id destination text ticket now timeout)

/-- The messages that a turn meets. -/
def Meets (config : Config) (t : Turn) (seq : Nat) (entry : Entry) : Prop :=
  (seq, entry) ∈ t.before.inFlight.entries ∨ t.Queues config seq entry

/-- What is sent for a message that a turn meets, what of the message is left in
flight, and how it ends, if it does. -/
inductive Fate (config : Config) (t : Turn) (seq : Nat) (entry : Entry) :
    List Sending → Option Entry → Option Outcome → Prop
  | kept (hmem : (seq, entry) ∈ t.before.inFlight.entries)
      (hanswers : ∀ type, type = .acknowledgement ∨ type = .reset →
        ¬t.Answers config type entry.id)
      (hdue : t.operation = .checkQueues → (∃ now ∈ t.clock, entry.IsDue now) →
        ∃ p ∈ t.before.inFlight.entries, p.2.timer.deadline? = none) :
      Fate config t seq entry [] (some entry) none
  | answered {type : MessageType} {outcome : Outcome}
      (hmem : (seq, entry) ∈ t.before.inFlight.entries)
      (hanswers : t.Answers config type entry.id)
      (houtcome : (type = .acknowledgement ∧ outcome = .acknowledged) ∨
        (type = .reset ∧ outcome = .rejected)) :
      Fate config t seq entry [] none (some outcome)
  | launched (hqueues : t.Queues config seq entry) :
      Fate config t seq entry [⟨entry.destination, entry.message, .ok ()⟩]
        (some entry) none
  | stranded (cause : TransportError) (hqueues : t.Queues config seq entry) :
      Fate config t seq entry
        [⟨entry.destination, entry.message, .error cause⟩] none
        (some (.failed cause))
  | scanned {now : Instant} {sent : List Sending} {left : Option Entry}
      {outcome : Option Outcome}
      (hmem : (seq, entry) ∈ t.before.inFlight.entries)
      (hoperation : t.operation = .checkQueues) (hclock : t.clock = [now])
      (hdue : entry.IsDue now)
      (htreated : Treated config now entry sent left outcome) :
      Fate config t seq entry sent left outcome

/-! ## What is received -/

/-- A datagram that answers is an acknowledgement or a rejection. -/
theorem answers_iff {r : Except TransportError Reception}
    (h : ∀ r', .received r' ∈ t.actions ↔ r' = r) {type : MessageType}
    {id : UInt16} :
    t.Answers config type id ↔
      ∃ m, Call.messageIn config r = some m ∧ m.type = type ∧ m.id = id := by
  constructor
  · rintro ⟨datagram, sender, m, hreceived, hlength, hread, hversion, rfl, rfl⟩
    obtain rfl := (h _).mp hreceived
    refine ⟨m.withSender sender, ?_, rfl, rfl⟩
    rw [Call.messageIn, if_pos hlength, Endpoint.messageOf, hread]
    exact if_pos hversion
  · rintro ⟨m, hmessage, rfl, rfl⟩
    unfold Call.messageIn at hmessage
    split at hmessage
    · next datagram sender =>
        split at hmessage
        · next hlength =>
            unfold Endpoint.messageOf at hmessage
            split at hmessage
            · cases hmessage
            · next m' hread =>
                split at hmessage
                · next hversion =>
                    cases hmessage
                    exact ⟨datagram, sender, m', (h _).mpr rfl, hlength, hread,
                      hversion, rfl, rfl⟩
                · cases hmessage
        · cases hmessage
    · cases hmessage

/-- Without a reception there is no answer. -/
theorem not_answers (h : ∀ r, .received r ∉ t.actions) (type : MessageType)
    (id : UInt16) : ¬t.Answers config type id := by
  rintro ⟨datagram, sender, _, hreceived, -⟩
  exact h _ hreceived

/-! ## The course of a turn -/

/-- A turn in which nothing happens to the messages in flight. -/
structure Quiet (config : Config) (t : Turn) : Prop where
  number : t.number? = none
  after : t.after.inFlight = t.before.inFlight
  told : t.told = []
  sent : ∀ seq, t.sentFor seq = []
  answers : ∀ p ∈ t.before.inFlight.entries, ∀ type,
    type = .acknowledgement ∨ type = .reset → ¬t.Answers config type p.2.id
  one : ∀ type id, t.Answers config type id → t.operation = .receive ∧
    ∀ type' id', t.Answers config type' id' → type' = type ∧ id' = id
  broken : t.operation = .checkQueues →
    ∃ p ∈ t.before.inFlight.entries, p.2.timer.deadline? = none

/-- Nobody is told of a message that could be sent, and it stays in flight. One
that could not is gone, and who waits for it is told. -/
def Launches (t : Turn) (entry : Entry) : Except TransportError Unit → Prop
  | .ok () => t.told = [] ∧ t.after.inFlight.entries =
      t.before.inFlight.entries ++ [(t.before.inFlight.nextSeq, entry)]
  | .error cause => t.told = (entry.notify (.failed cause)).toList ∧
      t.after.inFlight.entries = t.before.inFlight.entries

/-- A turn in which a message is put in flight and sent. -/
structure Sent (config : Config) (t : Turn) (entry : Entry)
    (result : Except TransportError Unit) : Prop where
  queues : t.Queues config t.before.inFlight.nextSeq entry
  free : ∀ p ∈ t.before.inFlight.entries, p.2.id ≠ entry.id
  sent : ∀ seq, t.sentFor seq =
    if seq = t.before.inFlight.nextSeq then
      [⟨entry.destination, entry.message, result⟩]
    else []
  received : ∀ r, .received r ∉ t.actions
  rest : t.Launches entry result

/-- A turn in which a message is answered. -/
structure Answered (config : Config) (t : Turn) (seq : Nat) (entry : Entry)
    (type : MessageType) (outcome : Outcome) : Prop where
  operation : t.operation = .receive
  mem : (seq, entry) ∈ t.before.inFlight.entries
  answers : ∀ type' id', t.Answers config type' id' ↔
    type' = type ∧ id' = entry.id
  ends : (type = .acknowledgement ∧ outcome = .acknowledged) ∨
    (type = .reset ∧ outcome = .rejected)
  sent : ∀ seq, t.sentFor seq = []
  left : t.before.inFlight.LeavesOf t.after.inFlight seq none
  told : t.told = (entry.notify outcome).toList

/-- A turn in which the messages that are due are visited. -/
structure Scanned (t : Turn) (now : Instant) (due : List UInt16)
    (visits : List Part) (finished : List Call.Finished) : Prop where
  operation : t.operation = .checkQueues
  clock : t.clock = [now]
  received : ∀ r, .received r ∉ t.actions
  expired : t.before.inFlight.expiredIds? now = some due
  visited : Call.Visits now t.before due visits t.after finished
  sent : ∀ seq, t.sentFor seq = sentIn visits seq
  told : t.told = Call.notices finished

/-- What a turn comes to. -/
inductive Course (config : Config) (t : Turn) : Prop
  | quiet (h : t.Quiet config)
  | sent {entry : Entry} {result : Except TransportError Unit}
      (h : t.Sent config entry result)
  | answered {seq : Nat} {entry : Entry} {type : MessageType} {outcome : Outcome}
      (h : t.Answered config seq entry type outcome)
  | scanned {now : Instant} {due : List UInt16} {visits : List Part}
      {finished : List Call.Finished} (h : t.Scanned now due visits finished)

/-- The actions of a turn in one part. -/
@[simp] theorem actions_singleton (e e' : Endpoint) (operation : Operation)
    (p : Part) : actions ⟨e, operation, [p], e'⟩ = p.actions :=
  List.flatMap_singleton _ p

section Sends

variable {e e' : Endpoint} {destination : SocketAddress} {m : Message}
  {ticket : Option Ticket} {actions : List Action}
  {value : Option (Except SendError Unit)}

theorem course_of_send (he : e.Fits config)
    (h : (Call.send destination m ticket).Runs e actions e' value) :
    Course config ⟨e, .send destination m ticket,
      [⟨e.inFlight.numbered e'.inFlight, actions⟩], e'⟩ := by
  rcases h.send_cases with ⟨hqueue, htold, hreceived⟩ |
    ⟨text, fraction, timeout, now, q, result, hencode, hlength, htimeout, hadd, hrest⟩
  · have hnumber : e.inFlight.numbered e'.inFlight = none := by
      rw [hqueue, InFlight.numbered, if_pos rfl]
    have hsilent : ∀ r, .received r ∉ Turn.actions
        ⟨e, .send destination m ticket,
          [⟨e.inFlight.numbered e'.inFlight, actions⟩], e'⟩ := by
      rw [actions_singleton]
      exact hreceived
    refine .quiet ⟨hnumber, hqueue, ?_, ?_, ?_, ?_, ?_⟩
    · rw [told, actions_singleton]
      exact htold
    · intro seq
      rw [sentFor, sentIn_singleton, hnumber,
        if_neg (Option.some_ne_none seq).symm]
    · exact fun p _ type _ => not_answers hsilent type p.2.id
    · exact fun type id hans => absurd hans (not_answers hsilent type id)
    · intro hscan
      cases hscan
  · -- the message got the next number, whatever came of sending it
    have hnumber : e.inFlight.numbered e'.inFlight = some e.inFlight.nextSeq := by
      have hnext : e'.inFlight.nextSeq = e.inFlight.nextSeq + 1 := by
        cases result with
        | ok =>
            rw [hrest.1]
            exact (InFlight.entries_add hadd).2
        | error cause =>
            rw [hrest.1, InFlight.nextSeq_remove]
            exact (InFlight.entries_add hadd).2
      rw [InFlight.numbered, hnext, if_neg (by omega)]
    have hget : q.get? m.id =
        some (.new m.id destination text ticket now timeout) := by
      have hmem : (e.inFlight.nextSeq,
          Entry.new m.id destination text ticket now timeout) ∈ q.entries := by
        rw [(InFlight.entries_add hadd).1]
        exact List.mem_append_right _ (List.mem_singleton_self _)
      exact (he.sound.add hadd).get?_of_mem hmem
    have hobserved : sendings actions = [⟨destination, text, result⟩] ∧
        actions.filterMap Action.fraction? = [fraction] ∧
        actions.filterMap Action.reading? = [now] ∧
        ∀ r, .received r ∉ actions := by
      cases result with
      | ok =>
          rw [hrest.2]
          exact ⟨rfl, rfl, rfl, by simp [Call.launch]⟩
      | error cause =>
          rw [hrest.2, Call.ending, hget]
          cases ticket with
          | none =>
              exact ⟨rfl, rfl, rfl, by simp [Call.launch, Entry.notify, Entry.new]⟩
          | some ticket =>
              exact ⟨rfl, rfl, rfl, by simp [Call.launch, Entry.notify, Entry.new]⟩
    obtain ⟨hsent, hdraws, hclock, hreceived⟩ := hobserved
    rw [he.config_eq] at htimeout
    rw [he.writeBuffer] at hlength
    have hqueues : Queues config ⟨e, .send destination m ticket,
        [⟨e.inFlight.numbered e'.inFlight, actions⟩], e'⟩ e.inFlight.nextSeq
        (.new m.id destination text ticket now timeout) := by
      refine .intro rfl hnumber hencode hlength ?_ htimeout ?_
      · rw [draws, actions_singleton, hdraws]
      · rw [clock, actions_singleton, hclock]
    refine .sent (⟨hqueues, ?_, ?_, ?_, ?_⟩ : Sent config _ _ result)
    · exact fun p hp => he.sound.id_ne_of_add hadd hp
    · intro seq
      simp only [sentFor, sentIn_singleton, hnumber, Option.some.injEq, hsent,
        eq_comm]
      rfl
    · rw [actions_singleton]
      exact hreceived
    · cases result with
      | ok =>
          obtain ⟨hqueue, rfl⟩ := hrest
          refine ⟨rfl, ?_⟩
          rw [hqueue]
          exact (InFlight.entries_add hadd).1
      | error cause =>
          obtain ⟨hqueue, rfl⟩ := hrest
          refine ⟨?_, ?_⟩
          · rw [told, actions_singleton, Call.ending, hget]
            exact announced_told _
          · rw [hqueue]
            exact he.sound.entries_remove_add hadd

end Sends

theorem course_of_receive {e e' : Endpoint} {actions : List Action}
    {value : Option (Except TransportError (Option Message))}
    (he : e.Fits config) (h : Call.receiveNext.Runs e actions e' value) :
    Course config ⟨e, .receive, [⟨none, actions⟩], e'⟩ := by
  obtain ⟨r, hreceived, hrest⟩ := h.receiveNext_cases he
  have hanswers (type : MessageType) (id : UInt16) :
      Answers ⟨e, .receive, [⟨none, actions⟩], e'⟩ config type id ↔
        ∃ m, Call.messageIn config r = some m ∧ m.type = type ∧ m.id = id := by
    refine answers_iff ?_
    rw [actions_singleton]
    exact hreceived
  have hsent (seq : Nat) :
      sentFor ⟨e, .receive, [⟨none, actions⟩], e'⟩ seq = [] := by
    rw [sentFor, sentIn_singleton, if_neg nofun]
  have hquiet (hafter : e'.inFlight = e.inFlight) (htold : announced actions = [])
      (hother : ∀ m, Call.answerIn config r = some m →
        e.inFlight.get? m.id = none) :
      Course config ⟨e, .receive, [⟨none, actions⟩], e'⟩ := by
    refine .quiet ⟨?_, hafter, ?_, hsent, ?_, ?_, nofun⟩
    · rw [number?, hafter, InFlight.numbered, if_pos rfl]
    · rw [told, actions_singleton]
      exact htold
    · intro p hp type htype hans
      obtain ⟨m, hmessage, hmtype, hid⟩ := (hanswers _ _).mp hans
      have hanswer : Call.answerIn config r = some m := by
        rw [Call.answerIn, hmessage, Option.filter_some, if_pos]
        rcases htype with rfl | rfl
        · rw [Message.isAck, hmtype]
          rfl
        · rw [Message.isReset, hmtype, Bool.or_comm]
          rfl
      have hget := hother m hanswer
      rw [hid, he.sound.get?_of_mem hp] at hget
      cases hget
    · intro type id hans
      obtain ⟨m, hmessage, rfl, rfl⟩ := (hanswers _ _).mp hans
      refine ⟨rfl, ?_⟩
      intro type' id' hans'
      obtain ⟨m', hmessage', rfl, rfl⟩ := (hanswers _ _).mp hans'
      rw [hmessage] at hmessage'
      cases hmessage'
      exact ⟨rfl, rfl⟩
  cases hanswer : Call.answerIn config r with
  | none =>
      rw [hanswer] at hrest
      refine hquiet hrest.1 hrest.2 ?_
      intro m hm
      rw [hanswer] at hm
      cases hm
  | some m =>
      rw [hanswer] at hrest
      obtain ⟨hafter, htold⟩ := hrest
      have hmessage := Call.answerIn_eq_some hanswer
      cases hget : e.inFlight.get? m.id with
      | none =>
          refine hquiet ?_ ?_ ?_
          · rw [hafter]
            exact he.sound.snd_remove_of_get?_eq_none hget
          · rw [htold, hget]
            rfl
          · intro m' hm'
            rw [hanswer] at hm'
            cases hm'
            exact hget
      | some entry =>
          obtain ⟨seq, hmem, hid⟩ := he.sound.get?_eq_some_iff.mp hget
          refine .answered ⟨rfl, hmem, ?_, hmessage.2, hsent, ?_, ?_⟩
          · intro type' id'
            rw [hanswers, hmessage.1, hid]
            constructor
            · rintro ⟨_, ⟨⟩, rfl, rfl⟩
              exact ⟨rfl, rfl⟩
            · rintro ⟨rfl, rfl⟩
              exact ⟨m, rfl, rfl, rfl⟩
          · rw [hafter, ← hid]
            exact he.sound.leavesOf_remove hmem
          · rw [told, actions_singleton, htold, hget]
            rfl

section Scans

variable {e e' : Endpoint} {now : Instant} {due : List UInt16}
  {visits : List Part} {finished : List Call.Finished}

/-- The turn of a scan with these visits. -/
abbrev ofVisits (e : Endpoint) (now : Instant) (visits : List Part)
    (finished : List Call.Finished) (e' : Endpoint) : Turn :=
  ⟨e, .checkQueues, ⟨none, Call.opening now⟩ ::
    visits ++ [⟨none, Call.closing finished⟩], e'⟩

theorem actions_ofVisits :
    (ofVisits e now visits finished e').actions =
      Call.opening now ++ visits.flatMap (·.actions) ++
        Call.closing finished := by
  simp only [actions, List.flatMap_cons, List.flatMap_append,
    List.cons_append, List.flatMap_nil, List.append_nil, List.append_assoc]

/-- A datagram is sent for a message in a scan when the message is visited. -/
theorem sentFor_ofVisits (seq : Nat) :
    (ofVisits e now visits finished e').sentFor seq = sentIn visits seq := by
  have hnobody : ¬none = some seq := (Option.some_ne_none seq).symm
  rw [sentFor, sentIn_append, sentIn_cons, sentIn_singleton, sentIn_singleton,
    if_neg hnobody, if_neg hnobody, List.nil_append, List.append_nil]

variable (hvisits : Call.Visits now e due visits e' finished)

include hvisits

theorem received_notMem_ofVisits (r : Except TransportError Reception) :
    .received r ∉ (ofVisits e now visits finished e').actions := by
  obtain ⟨-, -, hreceived⟩ := hvisits.silent
  rw [actions_ofVisits]
  simp [Call.opening, Call.closing, hreceived]

/-- A scan reads the clock once, when it begins. -/
theorem clock_ofVisits : (ofVisits e now visits finished e').clock = [now] := by
  obtain ⟨-, hclock, -⟩ := hvisits.silent
  have hclosing : (Call.closing finished).filterMap Action.reading? = [] := by
    simp [Call.closing, Action.reading?]
  rw [clock, actions_ofVisits, List.filterMap_append, List.filterMap_append,
    hclock, hclosing]
  rfl

/-- A scan draws no random fraction. -/
theorem draws_ofVisits : (ofVisits e now visits finished e').draws = [] := by
  have hdraws : (visits.flatMap (·.actions)).filterMap Action.fraction? = [] :=
    hvisits.filterMap_actions rfl fun _ _ _ => rfl
  have hclosing : (Call.closing finished).filterMap Action.fraction? = [] := by
    simp [Call.closing, Action.fraction?]
  rw [draws, actions_ofVisits, List.filterMap_append, List.filterMap_append,
    hdraws, hclosing]
  rfl

theorem course_of_scan (hdue : e.inFlight.expiredIds? now = some due) :
    Course config (ofVisits e now visits finished e') := by
  refine .scanned ⟨rfl, clock_ofVisits hvisits,
    received_notMem_ofVisits hvisits, hdue, hvisits, sentFor_ofVisits, ?_⟩
  obtain ⟨htold, -, -⟩ := hvisits.silent
  rw [told, actions_ofVisits, announced_append, announced_append, htold,
    List.append_nil]
  exact announced_told _

end Scans

theorem Taken.course (ht : t.Taken) (he : t.before.Fits config) :
    t.Course config := by
  cases ht with
  | send h => exact course_of_send he h
  | receive h => exact course_of_receive he h
  | scan hdue hvisits => exact course_of_scan hvisits hdue
  | @brokenScan e now hdue =>
      have hsilent : ∀ r, .received r ∉ actions
          ⟨e, .checkQueues, [⟨none, Call.opening now⟩], e⟩ := by
        rw [actions_singleton]
        simp [Call.opening]
      refine .quiet ⟨?_, rfl, ?_, ?_, ?_, ?_, ?_⟩
      · exact if_pos rfl
      · rw [told, actions_singleton]
        rfl
      · intro seq
        rw [sentFor, sentIn_singleton, if_neg nofun]
      · exact fun p _ type _ => not_answers hsilent type p.2.id
      · exact fun type id hans => absurd hans (not_answers hsilent type id)
      · intro _
        by_contra hall
        refine InFlight.expiredIds?_ne_none ?_ hdue
        exact fun p hp hnone => hall ⟨p, hp, hnone⟩

theorem Taken.fits (ht : t.Taken) (he : t.before.Fits config) :
    t.after.Fits config := by
  obtain ⟨value, hruns⟩ := ht.runs
  exact t.operation.keeps_fits.runs he hruns

/-! ## Fates -/

theorem Queues.unique {seq' : Nat} {entry' : Entry}
    (h : t.Queues config seq entry) (h' : t.Queues config seq' entry') :
    seq = seq' ∧ entry = entry' := by
  obtain ⟨hoperation, -, hencode, -, hdraws, htimeout, hclock⟩ := h
  obtain ⟨hoperation', -, hencode', -, hdraws', htimeout', hclock'⟩ := h'
  rw [hoperation'] at hoperation
  cases hoperation
  rw [hencode'] at hencode
  cases hencode
  rw [hdraws'] at hdraws
  cases hdraws
  rw [htimeout'] at htimeout
  cases htimeout
  rw [hclock'] at hclock
  cases hclock
  exact ⟨rfl, rfl⟩

/-- What a send has queued is made from what it was called with. -/
theorem Queues.origin (h : t.Queues config seq entry)
    {destination : SocketAddress} {m : Message} {ticket : Option Ticket}
    (hoperation : t.operation = .send destination m ticket) :
    ∃ text fraction timeout now, m.encode = .ok text ∧
      text.length ≤ config.writeBufferSize ∧ t.draws = [fraction] ∧
      config.transmission.initialTimeout? fraction = some timeout ∧
      t.clock = [now] ∧
      entry = .new m.id destination text ticket now timeout := by
  obtain ⟨hoperation', -, hencode, hlength, hdraws, htimeout, hclock⟩ := h
  rw [hoperation] at hoperation'
  cases hoperation'
  exact ⟨_, _, _, _, hencode, hlength, hdraws, htimeout, hclock, rfl⟩

theorem Queues.number {seq : Nat} (h : t.Queues config seq entry) :
    t.number? = some seq := by
  obtain ⟨-, hnumber, -⟩ := h
  exact hnumber

theorem Queues.seq_eq {seq : Nat} (h : t.Queues config seq entry) :
    seq = t.before.inFlight.nextSeq := by
  cases h
  rfl

/-- A turn decides on the fate of a message. -/
def Decides (config : Config) (t : Turn) (seq : Nat) (entry : Entry) : Prop :=
  ∃ left outcome, Fate config t seq entry (t.sentFor seq) left outcome ∧
    (∀ entry', (seq, entry') ∈ t.after.inFlight.entries ↔ left = some entry') ∧
    ∀ n o, entry.notify o = some n → (n ∈ t.told ↔ outcome = some o)

theorem id_of_notify {o : Outcome} {n : Notification}
    (h : entry.notify o = some n) : n.id = entry.id := by
  obtain ⟨ticket, -, rfl⟩ := Option.map_eq_some_iff.mp h
  rfl

theorem outcome_of_notify {o : Outcome} {n : Notification}
    (h : entry.notify o = some n) : n.outcome = o := by
  obtain ⟨ticket, -, rfl⟩ := Option.map_eq_some_iff.mp h
  rfl

/-- A message that is in flight before and after, unchanged, was kept. -/
theorem decides_of_kept (hafter : t.after.Fits config)
    (hmem : (seq, entry) ∈ t.before.inFlight.entries)
    (hmem' : (seq, entry) ∈ t.after.inFlight.entries)
    (hsent : t.sentFor seq = [])
    (hanswers : ∀ type, type = .acknowledgement ∨ type = .reset →
      ¬t.Answers config type entry.id)
    (hdue : t.operation = .checkQueues → (∃ now ∈ t.clock, entry.IsDue now) →
      ∃ p ∈ t.before.inFlight.entries, p.2.timer.deadline? = none)
    (htold : ∀ n ∈ t.told, n.id ≠ entry.id) : t.Decides config seq entry := by
  refine ⟨some entry, none, ?_, ?_, ?_⟩
  · rw [hsent]
    exact .kept hmem hanswers hdue
  · intro entry'
    constructor
    · intro hentry
      rw [hafter.sound.entry_unique hentry hmem']
    · intro heq
      cases heq
      exact hmem'
  · intro n o hn
    constructor
    · intro hin
      exact absurd (id_of_notify hn) (htold n hin)
    · intro hnone
      cases hnone

/-- Who is told of one entry alone is told how it ended. -/
theorem mem_toList_notify_iff {n : Notification} {o o' : Outcome}
    (hn : entry.notify o = some n) :
    n ∈ (entry.notify o').toList ↔ some o' = some o := by
  rw [Option.mem_toList, Option.some.injEq]
  constructor
  · intro hmem
    rw [← outcome_of_notify hmem, outcome_of_notify hn]
  · rintro rfl
    exact hn

section Decisions

variable (he : t.before.Fits config) (hafter : t.after.Fits config)

include hafter in
theorem Quiet.decides (h : t.Quiet config)
    (hmeets : t.Meets config seq entry) : t.Decides config seq entry := by
  rcases hmeets with hmem | hqueues
  · refine decides_of_kept hafter hmem (h.after ▸ hmem) (h.sent seq)
      (h.answers _ hmem) (fun hscan _ => h.broken hscan) ?_
    rw [h.told]
    exact nofun
  · have hnumber := h.number
    rw [hqueues.number] at hnumber
    cases hnumber

include he hafter in
/-- A message that is put in flight is sent once, and is gone if that fails. -/
theorem Sent.decides_self {result : Except TransportError Unit}
    (h : t.Sent config entry result) :
    t.Decides config t.before.inFlight.nextSeq entry := by
  have hsent := h.sent t.before.inFlight.nextSeq
  have hrest := h.rest
  rw [if_pos rfl] at hsent
  cases result with
  | ok =>
      have hmem : (t.before.inFlight.nextSeq, entry) ∈
          t.after.inFlight.entries := by
        rw [hrest.2]
        exact List.mem_append_right _ (List.mem_singleton_self _)
      refine ⟨some entry, none, ?_, ?_, ?_⟩
      · rw [hsent]
        exact .launched h.queues
      · intro entry'
        constructor
        · intro hentry
          rw [hafter.sound.entry_unique hentry hmem]
        · intro heq
          cases heq
          exact hmem
      · intro n o _
        rw [hrest.1]
        exact ⟨nofun, nofun⟩
  | error cause =>
      refine ⟨none, some (.failed cause), ?_, ?_, ?_⟩
      · rw [hsent]
        exact .stranded cause h.queues
      · intro entry'
        rw [hrest.2]
        constructor
        · intro hentry
          exact absurd (he.sound.seq_lt hentry) (Nat.lt_irrefl _)
        · intro hnone
          cases hnone
      · intro n o hn
        rw [hrest.1]
        exact mem_toList_notify_iff hn

include he hafter in
theorem Sent.decides {entry₀ : Entry} {result : Except TransportError Unit}
    (h : t.Sent config entry₀ result) (hmeets : t.Meets config seq entry) :
    t.Decides config seq entry := by
  have hrest := h.rest
  rcases hmeets with hmem | hqueues
  · have hne : seq ≠ t.before.inFlight.nextSeq :=
      Nat.ne_of_lt (he.sound.seq_lt hmem)
    have hsend : t.operation ≠ .checkQueues := by
      obtain ⟨hoperation, -⟩ := h.queues
      rw [hoperation]
      exact nofun
    refine decides_of_kept hafter hmem ?_ ?_ ?_ (absurd · hsend) ?_
    · cases result with
      | ok =>
          rw [hrest.2]
          exact List.mem_append_left _ hmem
      | error cause =>
          rw [hrest.2]
          exact hmem
    · rw [h.sent, if_neg hne]
    · exact fun type _ => not_answers h.received type entry.id
    · intro n hn hid
      cases result with
      | ok =>
          rw [hrest.1] at hn
          cases hn
      | error cause =>
          rw [hrest.1, Option.mem_toList] at hn
          exact h.free _ hmem (hid.symm.trans (id_of_notify hn))
  · obtain ⟨rfl, rfl⟩ := h.queues.unique hqueues
    exact h.decides_self he hafter

include he hafter in
theorem Answered.decides {seq₀ : Nat} {entry₀ : Entry} {type : MessageType}
    {outcome : Outcome} (h : t.Answered config seq₀ entry₀ type outcome)
    (hmeets : t.Meets config seq entry) : t.Decides config seq entry := by
  rcases hmeets with hmem | hqueues
  · by_cases hseq : seq = seq₀
    · subst hseq
      obtain rfl := he.sound.entry_unique hmem h.mem
      refine ⟨none, some outcome, ?_, fun _ => h.left.mem_iff_self, ?_⟩
      · rw [h.sent]
        exact .answered hmem ((h.answers _ _).mpr ⟨rfl, rfl⟩) h.ends
      · intro n o hn
        rw [h.told]
        exact mem_toList_notify_iff hn
    · have hid : entry.id ≠ entry₀.id := fun hid =>
        hseq (congrArg Prod.fst (he.sound.pair_unique hmem h.mem hid))
      refine decides_of_kept hafter hmem ((h.left.mem_iff hseq).mpr hmem)
        (h.sent seq) ?_ ?_ ?_
      · intro type' _ hans
        exact hid ((h.answers _ _).mp hans).2
      · rw [h.operation]
        exact nofun
      · intro n hn hsame
        rw [h.told, Option.mem_toList] at hn
        exact hid (hsame.symm.trans (id_of_notify hn))
  · obtain ⟨hsend, -⟩ := hqueues
    rw [h.operation] at hsend
    cases hsend

section Scan

variable {now : Instant} {due : List UInt16} {visits : List Part}
  {finished : List Call.Finished} (h : t.Scanned now due visits finished)

include h

/-- Who is told in a scan is told how a message ended that was visited. -/
theorem Scanned.mem_finished_of_told {n : Notification} (hn : n ∈ t.told) :
    ∃ p o, (p, o) ∈ finished ∧ p.notify o = some n := by
  rw [h.told] at hn
  obtain ⟨⟨p, o⟩, hp, hpn⟩ := List.mem_filterMap.mp hn
  exact ⟨p, o, hp, hpn⟩

include he

theorem Scanned.decides_of_mem
    (hmem : (seq, entry) ∈ t.before.inFlight.entries) (hin : entry.id ∈ due) :
    t.Decides config seq entry := by
  obtain ⟨hnodup, hdueiff, -⟩ := he.sound.expiredIds?_eq_some h.expired
  obtain ⟨left, outcome, htreated, hleft, hfinished⟩ :=
    h.visited.of_mem he hnodup hmem hin
  have hisdue : entry.IsDue now := by
    obtain ⟨p, hp, hid, hpdue⟩ := (hdueiff _).mp hin
    rwa [he.sound.pair_unique hp hmem hid] at hpdue
  refine ⟨left, outcome, ?_, hleft, ?_⟩
  · rw [h.sent]
    exact .scanned hmem h.operation h.clock hisdue htreated
  · intro n o hn
    rw [← hfinished o]
    constructor
    · intro htold
      obtain ⟨p, o', hp, hpn⟩ := h.mem_finished_of_told htold
      obtain ⟨seq', hpmem, -⟩ := h.visited.mem_of_finished he hnodup hp
      have hid : p.id = entry.id :=
        (id_of_notify hpn).symm.trans (id_of_notify hn)
      have hentry : p = entry :=
        congrArg Prod.snd (he.sound.pair_unique hpmem hmem hid)
      have ho : o' = o :=
        (outcome_of_notify hpn).symm.trans (outcome_of_notify hn)
      rw [← hentry, ← ho]
      exact hp
    · intro hp
      rw [h.told]
      exact List.mem_filterMap.mpr ⟨(entry, o), hp, hn⟩

include hafter in
theorem Scanned.decides (hmeets : t.Meets config seq entry) :
    t.Decides config seq entry := by
  rcases hmeets with hmem | hqueues
  · by_cases hin : entry.id ∈ due
    · exact h.decides_of_mem he hmem hin
    · obtain ⟨hnodup, hdueiff, -⟩ := he.sound.expiredIds?_eq_some h.expired
      obtain ⟨hmem', hnone⟩ := h.visited.of_notMem he hmem hin
      refine decides_of_kept hafter hmem hmem' ?_ ?_ ?_ ?_
      · rw [h.sent]
        exact hnone
      · exact fun type _ => not_answers h.received type entry.id
      · rintro - ⟨now', hnow', hisdue⟩
        rw [h.clock, List.mem_singleton] at hnow'
        rw [hnow'] at hisdue
        exact absurd ((hdueiff _).mpr ⟨_, hmem, rfl, hisdue⟩) hin
      · intro n hn hid
        obtain ⟨p, o, hp, hpn⟩ := h.mem_finished_of_told hn
        obtain ⟨-, -, hpin⟩ := h.visited.mem_of_finished he hnodup hp
        rw [← id_of_notify hpn, hid] at hpin
        exact hin hpin
  · obtain ⟨hsend, -⟩ := hqueues
    rw [h.operation] at hsend
    cases hsend

end Scan

end Decisions

namespace Taken

variable (ht : t.Taken) (he : t.before.Fits config)

include ht he

/-- A message that a turn meets has a fate. -/
theorem decides (hmeets : t.Meets config seq entry) :
    t.Decides config seq entry := by
  have hafter := ht.fits he
  cases ht.course he with
  | quiet h => exact h.decides hafter hmeets
  | sent h => exact h.decides he hafter hmeets
  | answered h => exact h.decides he hafter hmeets
  | scanned h => exact h.decides he hafter hmeets

/-- A turn has at most one answer, and only if it is a receive. -/
theorem answers_unique {type : MessageType} {id : UInt16}
    (hanswers : t.Answers config type id) : t.operation = .receive ∧
      ∀ type' id', t.Answers config type' id' → type' = type ∧ id' = id := by
  cases ht.course he with
  | quiet h => exact h.one type id hanswers
  | sent h => exact absurd hanswers (not_answers h.received type id)
  | answered h =>
      refine ⟨h.operation, ?_⟩
      intro type' id' hanswers'
      obtain ⟨rfl, rfl⟩ := (h.answers _ _).mp hanswers
      exact (h.answers _ _).mp hanswers'
  | scanned h => exact absurd hanswers (not_answers h.received type id)

/-- Nothing is done about a message that a turn does not meet. -/
theorem of_not_meets (hmeets : ∀ entry, ¬t.Meets config seq entry) :
    seq ∉ t.after.inFlight.seqs ∧ t.sentFor seq = [] := by
  have hseq : seq ∉ t.before.inFlight.seqs := by
    intro hmem
    obtain ⟨entry, hentry⟩ := InFlight.mem_seqs.mp hmem
    exact hmeets entry (.inl hentry)
  cases ht.course he with
  | quiet h =>
      rw [h.after]
      exact ⟨hseq, h.sent seq⟩
  | @sent entry result h =>
      have hne : seq ≠ t.before.inFlight.nextSeq := by
        rintro rfl
        exact hmeets entry (.inr h.queues)
      have hrest := h.rest
      rw [h.sent, if_neg hne]
      refine ⟨?_, rfl⟩
      cases result with
      | ok =>
          rw [InFlight.seqs, hrest.2, List.map_append]
          intro hmem
          rcases List.mem_append.mp hmem with hold | hnew
          · exact hseq hold
          · exact hne (List.mem_singleton.mp hnew)
      | error cause =>
          rw [InFlight.seqs, hrest.2]
          exact hseq
  | answered h =>
      refine ⟨?_, h.sent seq⟩
      exact fun hmem =>
        hseq (h.left.mem_seqs (InFlight.mem_seqs_of_mem h.mem) hmem)
  | scanned h =>
      rw [h.sent]
      exact h.visited.of_notMem_seqs he hseq

/-- Who is told in a turn is told of a message that the turn meets. -/
theorem meets_of_told {n : Notification} (hn : n ∈ t.told) :
    ∃ seq entry, t.Meets config seq entry ∧ entry.notify n.outcome = some n := by
  cases ht.course he with
  | quiet h =>
      rw [h.told] at hn
      cases hn
  | @sent entry result h =>
      have hrest := h.rest
      cases result with
      | ok =>
          rw [hrest.1] at hn
          cases hn
      | error cause =>
          rw [hrest.1, Option.mem_toList] at hn
          refine ⟨_, entry, .inr h.queues, ?_⟩
          rw [outcome_of_notify hn]
          exact hn
  | answered h =>
      rw [h.told, Option.mem_toList] at hn
      refine ⟨_, _, .inl h.mem, ?_⟩
      rw [outcome_of_notify hn]
      exact hn
  | scanned h =>
      obtain ⟨p, o, hp, hpn⟩ := h.mem_finished_of_told hn
      obtain ⟨hnodup, -⟩ := he.sound.expiredIds?_eq_some h.expired
      obtain ⟨seq, hmem, -⟩ := h.visited.mem_of_finished he hnodup hp
      refine ⟨seq, p, .inl hmem, ?_⟩
      rw [outcome_of_notify hpn]
      exact hpn

end Taken

end Turn

end Coap
