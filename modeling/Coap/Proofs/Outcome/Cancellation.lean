import Coap.Proofs.Outcome.Ledger
import Coap.Proofs.Runs.Sections

/-!
# Calls that are cancelled

A call can be cancelled wherever it waits. It gives its locks back then and does
nothing more, so what it has taken out of flight and not told by then is never
told by anybody. A send or a receive has taken nothing when it waits. A scan
tells nothing before it has let go of the lock, but waits each time it sends a
message again, so what it has given up on until then is lost if it is cancelled.
A poll ends with a scan; and a receive loop is a receive, what the handler
sends, and a scan, again and again.

## Main results

* `Reachable.sound` — a cancelled call stands still where it has waited.
* `told_unless_dropped` — every message that was queued is in flight, or told
  once by the call that took it, or was taken by a scan that was cancelled, and
  is never told.
* `cancelled_scan_drops` — a run in which a scan that is cancelled loses the
  outcome of a message.
-/

namespace Coap

/-! ## Worlds with cancelled calls -/

/-- A world in which some calls were cancelled, told by their places. -/
structure Interrupted where
  world : World
  cancelled : List Nat

namespace Interrupted

/-- What may happen in a world whose calls can be cancelled. -/
inductive Step : Interrupted → Interrupted → Prop where
  /-- Something happens that is no action of a cancelled call. -/
  | proceed {w : Interrupted} {world : World} (hstep : w.world.Step world)
      (hstill : ∀ place ∈ w.cancelled,
        world.threads[place]? = w.world.threads[place]?) :
      Step w ⟨world, w.cancelled⟩
  /-- A call that waits is cancelled and gives its locks back. -/
  | cancel {w : Interrupted} {first last : List Thread} {th : Thread}
      (hthreads : w.world.threads = first ++ th :: last)
      (hwaits : th.rest.waits = true) :
      Step w
        ⟨{ w.world with holder := w.world.holderWithout first.length },
          first.length :: w.cancelled⟩

/-- What a new endpoint may come to if calls on it can be cancelled. -/
inductive Reachable : Interrupted → Prop where
  | start {config : Config} {random : UInt32} {e : Endpoint}
      (h : Endpoint.new config random = .ok e) : Reachable ⟨.start e, []⟩
  | step {w w' : Interrupted} (h : Reachable w) (hstep : w.Step w') :
      Reachable w'

/-- As long as no call is cancelled, all is as in a world without
cancellation. -/
theorem Reachable.of_world {world : World} (h : world.Reachable) :
    Reachable ⟨world, []⟩ := by
  induction h with
  | start hnew => exact .start hnew
  | step _ hstep ih => exact ih.step (.proceed hstep fun _ hplace => by cases hplace)

/-- The books of all threads are in order, and a cancelled call waits where it
was cancelled. -/
structure Sound (w : Interrupted) : Prop where
  recorded : w.world.Recorded
  waiting : ∀ place ∈ w.cancelled, ∃ th, w.world.threads[place]? = some th ∧
    th.rest.waits = true

theorem Sound.step {w w' : Interrupted} (h : w.Sound) (hstep : w.Step w') :
    w'.Sound := by
  cases hstep with
  | proceed hworld hstill =>
      refine ⟨h.recorded.step hworld, ?_⟩
      intro place hplace
      rw [hstill place hplace]
      exact h.waiting place hplace
  | @cancel first last th hthreads hwaits =>
      refine ⟨h.recorded.of_holder _, ?_⟩
      intro place hplace
      rcases List.mem_cons.mp hplace with rfl | hbefore
      · refine ⟨th, ?_, hwaits⟩
        rw [hthreads, World.getElem?_here]
      · exact h.waiting place hbefore

theorem Reachable.sound {w : Interrupted} (h : w.Reachable) : w.Sound := by
  induction h with
  | start hnew => exact ⟨World.recorded_start hnew, fun _ hplace => by cases hplace⟩
  | step _ hstep ih => exact ih.step hstep

end Interrupted

/-! ## Books of calls that wait -/

/-- The operation goes over the messages in flight. -/
def Operation.Scans : Operation → Prop
  | poll => True
  | checkQueues => True
  | _ => False

/-- What a call that waits has taken out of flight: a message that it told the
answer to, if any, and messages that it has told nothing of. Only scans take
anything before they wait, and only polls end a message with an answer before
that. -/
structure Thread.Leaves (th : Thread) (answered : Option (Nat × Entry))
    (outcome : Outcome) (dropped : List (Nat × Entry)) : Prop where
  taken : th.taken = answered.toList ++ dropped
  told : th.told = (answered.bind fun p => p.2.notify outcome).toList
  outcome : outcome = .acknowledged ∨ outcome = .rejected
  idle : ¬th.operation.Scans → th.taken = []
  scan : th.operation = .checkQueues → answered = none

theorem Thread.leaves_of_idle {th : Thread} (htaken : th.taken = [])
    (htold : th.told = []) : th.Leaves none .acknowledged [] :=
  ⟨htaken, htold, .inl rfl, fun _ => htaken, fun _ => rfl⟩

theorem Thread.Recorded.leaves {th : Thread} {q : InFlight} (h : th.Recorded q)
    (hwaits : th.rest.waits = true) :
    ∃ answered outcome dropped, th.Leaves answered outcome dropped := by
  obtain ⟨gone, hbooks, -⟩ := h.permits
  rw [hwaits] at hbooks
  cases hop : th.operation with
  | send destination m ticket =>
      rw [hop] at hbooks
      obtain ⟨htaken, htold⟩ := hbooks.idle rfl
      exact ⟨_, _, _, leaves_of_idle htaken htold⟩
  | request r =>
      rw [hop] at hbooks
      obtain ⟨htaken, htold⟩ := hbooks.idle rfl
      exact ⟨_, _, _, leaves_of_idle htaken htold⟩
  | receive =>
      rw [hop] at hbooks
      obtain ⟨htaken, htold⟩ := hbooks rfl
      exact ⟨_, _, _, leaves_of_idle htaken htold⟩
  | poll =>
      rw [hop] at hbooks
      obtain ⟨b, ⟨answered, outcome, houtcome, htaken, htold⟩, hscan⟩ :=
        hbooks rfl
      obtain ⟨dropped, hdropped⟩ := hscan.taken
      rw [htaken] at hdropped
      refine ⟨answered, outcome, dropped, hdropped.symm, ?_, houtcome, ?_, ?_⟩
      · exact hscan.told.trans htold
      · exact fun hscans => absurd (hop ▸ trivial) hscans
      · exact fun hother => by rw [hop] at hother; cases hother
  | checkQueues =>
      rw [hop] at hbooks
      refine ⟨none, .acknowledged, th.taken, rfl, hbooks rfl, .inl rfl, ?_, ?_⟩
      · exact fun hscans => absurd (hop ▸ trivial) hscans
      · exact fun _ => rfl

/-! ## What is told -/

namespace World.Balanced

variable {w : World} {th : Thread} {p : Nat × Entry} {ticket : Ticket}

/-- What a thread has told of an entry it took is all that is told of it. -/
theorem told_of_mem_told (h : w.Balanced) (hth : th ∈ w.threads)
    {n : Notification} (hn : n ∈ th.told) : w.told n.ticket = [n] :=
  h.told_eq_singleton (List.mem_filter.mpr
    ⟨List.mem_flatMap.mpr ⟨th, hth, hn⟩, beq_self_eq_true _⟩)

/-- A thread tells only tickets of messages that it took. -/
theorem ticket_of_told (h : w.Balanced) (hth : th ∈ w.threads)
    {n : Notification} (hn : n ∈ th.told) :
    n.ticket ∈ (th.taken.map (·.2)).filterMap (·.ticket) := by
  obtain ⟨rights, debts, -, -, hdebts⟩ := h.threads th hth
  have hdue : n.due ∈ dues (th.taken.map (·.2)) := by
    rw [hdebts]
    exact Multiset.mem_add.mpr (.inl (List.mem_map_of_mem hn))
  obtain ⟨entry, hentry, heq⟩ := List.mem_filterMap.mp hdue
  obtain ⟨ticket, hticket, hpair⟩ := Option.map_eq_some_iff.mp heq
  have hsame : ticket = n.ticket := congrArg Prod.fst hpair
  exact List.mem_filterMap.mpr ⟨entry, hentry, hsame ▸ hticket⟩

/-- No ticket is told of a message that its taker has told nothing of. -/
theorem told_of_dropped (h : w.Balanced) (hth : th ∈ w.threads)
    {answered : Option (Nat × Entry)} {outcome : Outcome}
    {dropped : List (Nat × Entry)} (hleaves : th.Leaves answered outcome dropped)
    (hp : p ∈ dropped) (hticket : p.2.ticket = some ticket) :
    w.told ticket = [] := by
  have hnodup : (w.threads.flatMap fun th =>
      (th.taken.map (·.2)).filterMap (·.ticket)).Nodup := by
    obtain ⟨hsplit, hall⟩ := h.tickets_split
    rw [hsplit] at hall
    have htaken := Multiset.coe_nodup.mp (Multiset.nodup_add.mp hall).2.1
    rw [taken, List.map_flatMap, List.filterMap_flatMap] at htaken
    exact htaken
  have hmem : ticket ∈ (dropped.map (·.2)).filterMap (·.ticket) :=
    List.mem_filterMap.mpr ⟨p.2, List.mem_map_of_mem hp, hticket⟩
  have hown : ticket ∈ (th.taken.map (·.2)).filterMap (·.ticket) := by
    rw [hleaves.taken, List.map_append, List.filterMap_append]
    exact List.mem_append_right _ hmem
  rw [told, List.filter_eq_nil_iff]
  intro n hn hsame
  obtain ⟨th', hth', hn'⟩ := List.mem_flatMap.mp hn
  have hticket' := h.ticket_of_told hth' hn'
  rw [beq_iff_eq.mp hsame] at hticket'
  obtain rfl := eq_of_nodup_flatMap hnodup hth hth' hown hticket'
  -- the thread that told it is the taker, and it told the answered one only
  have hone := (List.nodup_flatMap.mp hnodup).1 th hth
  rw [hleaves.taken, List.map_append, List.filterMap_append] at hone
  refine (List.disjoint_of_nodup_append hone) ?_ hmem
  rw [hleaves.told, Option.mem_toList, Option.bind_eq_some_iff] at hn'
  obtain ⟨p', hp', hnotify⟩ := hn'
  obtain ⟨ticket', hticket'', rfl⟩ := Option.map_eq_some_iff.mp hnotify
  have hsame : ticket' = ticket := beq_iff_eq.mp hsame
  exact List.mem_filterMap.mpr ⟨p'.2,
    List.mem_map_of_mem (Option.mem_toList.mpr hp'), hsame ▸ hticket''⟩

/-- The ticket of a message that its taker has told the answer to is told this
and nothing else. -/
theorem told_of_answered (h : w.Balanced) (hth : th ∈ w.threads)
    {answered : Option (Nat × Entry)} {outcome : Outcome}
    {dropped : List (Nat × Entry)} (hleaves : th.Leaves answered outcome dropped)
    (hp : p ∈ answered) (hticket : p.2.ticket = some ticket) :
    w.told ticket = [⟨ticket, p.2.id, outcome⟩] := by
  have hn : ⟨ticket, p.2.id, outcome⟩ ∈ th.told := by
    rw [hleaves.told, Option.mem_toList, Option.bind_eq_some_iff]
    exact ⟨p, hp, by rw [Entry.notify, hticket]; rfl⟩
  exact h.told_of_mem_told hth hn

/-- A message was taken at one place only. -/
theorem place_unique (h : w.Balanced) {th' : Thread} {place place' : Nat}
    (hplace : w.threads[place]? = some th)
    (hplace' : w.threads[place']? = some th') {seq : Nat} (htook : th.Took seq)
    (htook' : th'.Took seq) : place = place' := by
  exact place_eq_of_nodup_flatMap h.nodup_taken hplace hplace' htook htook'

end World.Balanced

/-! ## What is lost -/

namespace Interrupted

/-- Every message that was queued is in flight, or its ticket was told one
outcome, or a call that is still going on has taken it. -/
def LosesNothing (w : Interrupted) : Prop :=
  ∀ seq entry ticket, (seq, entry) ∈ w.world.queued →
    entry.ticket = some ticket →
    seq ∈ w.world.endpoint.inFlight.seqs ∨
    (∃ outcome, w.world.told ticket = [⟨ticket, entry.id, outcome⟩]) ∨
    ∃ place th, w.world.threads[place]? = some th ∧ place ∉ w.cancelled ∧
      ¬th.rest.IsOver ∧ th.Took seq

variable {w : Interrupted}

/-- Nothing is lost if no cancelled call has dropped a message that somebody
waits for. -/
theorem Sound.losesNothing (h : w.Sound)
    (hnone : ∀ place ∈ w.cancelled, ∀ th answered outcome dropped,
      w.world.threads[place]? = some th → th.Leaves answered outcome dropped →
      ∀ p ∈ dropped, p.2.ticket = none) : w.LosesNothing := by
  have hbalanced := h.recorded.balanced
  intro seq entry ticket hqueued hticket
  by_cases hseq : seq ∈ w.world.endpoint.inFlight.seqs
  · exact .inl hseq
  · obtain ⟨th, hth, htook⟩ := hbalanced.took_of_notMem_seqs hqueued hseq
    obtain ⟨place, hplace⟩ := List.mem_iff_getElem?.mp hth
    right
    by_cases hcancelled : place ∈ w.cancelled
    · left
      obtain ⟨th', hth', hwaits⟩ := h.waiting place hcancelled
      rw [hplace] at hth'
      cases hth'
      obtain ⟨answered, outcome, dropped, hleaves⟩ :=
        (h.recorded.threads th hth).leaves hwaits
      obtain ⟨p, hp, hpseq⟩ := List.mem_map.mp htook
      have hslot := hbalanced.slot_eq hqueued
        (hbalanced.slot_of_taken hth hp) hpseq
      have hpticket : p.2.ticket = some ticket :=
        (congrArg Slot.ticket hslot).trans hticket
      rw [hleaves.taken] at hp
      rcases List.mem_append.mp hp with hanswered | hdropped
      · refine ⟨outcome, ?_⟩
        have hpid : p.2.id = entry.id := congrArg Slot.id hslot
        rw [← hpid]
        exact hbalanced.told_of_answered hth hleaves
          (Option.mem_toList.mp hanswered) hpticket
      · rw [hnone place hcancelled th _ _ _ hplace hleaves p hdropped] at hpticket
        cases hpticket
    · by_cases hover : th.rest.IsOver
      · exact .inl (hbalanced.told_of_took hqueued hticket hth htook hover)
      · exact .inr ⟨place, th, hplace, hcancelled, hover, htook⟩

/-- A message that somebody waits for is lost when a cancelled call has dropped
it. -/
theorem Sound.not_losesNothing (h : w.Sound) {place : Nat} {th : Thread}
    (hcancelled : place ∈ w.cancelled)
    (hplace : w.world.threads[place]? = some th)
    {answered : Option (Nat × Entry)} {outcome : Outcome}
    {dropped : List (Nat × Entry)} (hleaves : th.Leaves answered outcome dropped)
    {p : Nat × Entry} (hp : p ∈ dropped) {ticket : Ticket}
    (hticket : p.2.ticket = some ticket) : ¬w.LosesNothing := by
  have hbalanced := h.recorded.balanced
  have hth : th ∈ w.world.threads := List.mem_iff_getElem?.mpr ⟨place, hplace⟩
  have hptaken : p ∈ th.taken := by
    rw [hleaves.taken]
    exact List.mem_append_right _ hp
  have htook : th.Took p.1 := List.mem_map_of_mem hptaken
  obtain ⟨q, hq, hslot⟩ := mem_slots.mp (hbalanced.slot_of_taken hth hptaken)
  have hqseq : q.1 = p.1 := congrArg Slot.seq hslot
  have hqticket : q.2.ticket = some ticket :=
    (congrArg Slot.ticket hslot).trans hticket
  intro hall
  rcases hall q.1 q.2 ticket hq hqticket with hseq | ⟨o, htold⟩ | hgoing
  · rw [hqseq] at hseq
    exact hbalanced.notMem_seqs_of_took hth htook hseq
  · rw [hbalanced.told_of_dropped hth hleaves hp hticket] at htold
    cases htold
  · obtain ⟨place', th', hplace', hnot, -, htook'⟩ := hgoing
    rw [hqseq] at htook'
    have hsame := hbalanced.place_unique hplace hplace' htook htook'
    exact hnot (hsame ▸ hcancelled)

/-- Calls can be cancelled wherever they wait. A ticket whose message is in
flight has been told nothing, and is told one outcome when the call that takes
the message out is over. A call that was cancelled has told the answer to at
most one message that it took, and only if it is a poll; nothing is ever told of
the others that it took, and only a scan or a poll has taken others. So no
outcome is lost exactly if no cancelled scan has given up on a message that
somebody waits for. -/
theorem told_unless_dropped (h : w.Reachable) :
    (∀ seq entry ticket, (seq, entry) ∈ w.world.queued →
      entry.ticket = some ticket →
      (seq ∈ w.world.endpoint.inFlight.seqs → w.world.told ticket = []) ∧
      (seq ∉ w.world.endpoint.inFlight.seqs →
        ∃ th ∈ w.world.threads, th.Took seq) ∧
      ∀ th ∈ w.world.threads, th.Took seq → th.rest.IsOver →
        ∃ outcome, w.world.told ticket = [⟨ticket, entry.id, outcome⟩]) ∧
    (∀ place ∈ w.cancelled, ∃ th answered outcome dropped,
      w.world.threads[place]? = some th ∧ th.Leaves answered outcome dropped ∧
      (∀ p ∈ answered, ∀ ticket, p.2.ticket = some ticket →
        w.world.told ticket = [⟨ticket, p.2.id, outcome⟩]) ∧
      ∀ p ∈ dropped, ∀ ticket, p.2.ticket = some ticket →
        w.world.told ticket = []) ∧
    (w.LosesNothing ↔ ∀ place ∈ w.cancelled, ∀ th answered outcome dropped,
      w.world.threads[place]? = some th → th.Leaves answered outcome dropped →
      ∀ p ∈ dropped, p.2.ticket = none) := by
  have hsound := h.sound
  have hbalanced := hsound.recorded.balanced
  refine ⟨?_, ?_, ?_⟩
  · intro seq entry ticket hqueued hticket
    refine ⟨?_, ?_, ?_⟩
    · exact hbalanced.told_of_mem_seqs hqueued hticket
    · exact hbalanced.took_of_notMem_seqs hqueued
    · intro th hth htook hover
      exact hbalanced.told_of_took hqueued hticket hth htook hover
  · intro place hcancelled
    obtain ⟨th, hplace, hwaits⟩ := hsound.waiting place hcancelled
    have hth : th ∈ w.world.threads := List.mem_iff_getElem?.mpr ⟨place, hplace⟩
    obtain ⟨answered, outcome, dropped, hleaves⟩ :=
      (hsound.recorded.threads th hth).leaves hwaits
    refine ⟨th, answered, outcome, dropped, hplace, hleaves, ?_, ?_⟩
    · intro p hp ticket hticket
      exact hbalanced.told_of_answered hth hleaves hp hticket
    · intro p hp ticket hticket
      exact hbalanced.told_of_dropped hth hleaves hp hticket
  · constructor
    · intro hall place hcancelled th answered outcome dropped hplace hleaves p hp
      by_contra hsome
      obtain ⟨ticket, hticket⟩ := Option.ne_none_iff_exists'.mp hsome
      exact hsound.not_losesNothing hcancelled hplace hleaves hp hticket hall
    · exact hsound.losesNothing

/-! ## A scan that is cancelled -/

/-- The shortest first wait for an answer. -/
def shortestWait : Duration :=
  (World.sampleEndpoint.config.transmission.initialTimeout? 0.0).getD (.ofNanos 0)

/-- A message that the socket will not send again. -/
def refusedEntry : Entry :=
  .new 2 (.ofIp (.v4 ⟨127, 0, 0, 1⟩) 5683) [64, 1, 0, 2] (some 7) ⟨0⟩ shortestWait

/-- A message that the socket takes its time to send again. -/
def delayedEntry : Entry :=
  .new 3 (.ofIp (.v4 ⟨127, 0, 0, 1⟩) 5683) [64, 1, 0, 3] (some 8) ⟨0⟩ shortestWait

/-- The send of the second message. -/
def delayedSend : Operation :=
  .send delayedEntry.destination (.confirmable ⟨1⟩ 3 .empty .empty none) (some 8)

/-- The endpoint with these messages in flight, after it has written a
message. -/
def launchedWith (q : InFlight) (low : UInt8) : Endpoint :=
  { World.sampleEndpoint with
    inFlight := q
    writeBuffer := ⟨[64, 1, 0, low] ++ List.replicate 60 0, 4, by simp⟩ }

/-- The first message has been sent. -/
def refusedSent : Thread where
  operation := World.sampleSend
  rest := .done (.sent (.ok ()))
  queued := [(0, refusedEntry)]
  taken := []
  told := []

/-- The second message has been sent. -/
def delayedSent : Thread where
  operation := delayedSend
  rest := .done (.sent (.ok ()))
  queued := [(1, delayedEntry)]
  taken := []
  told := []

/-- A scan that has looked for the messages that are due, with what it has
found. -/
def scanning (due : Option (List UInt16)) : Thread :=
  { Thread.start .checkQueues with
    rest := (fun () => Result.scanned) <$> (do
      let finished ← (Call.ofOption due >>= Call.scan ⟨2000000000⟩).bind
        fun finished => .release .inFlight (.done finished)
      Call.notifyAll
        (finished.filterMap fun (entry, outcome) => entry.notify outcome)) }

/-- The queue when both messages have been sent. -/
def bothInFlight : InFlight :=
  ⟨[(0, refusedEntry), (1, delayedEntry)], [(3, 1), (2, 0)], 2⟩

set_option maxRecDepth 100000 in
theorem goes_refusedSent : (Thread.start World.sampleSend).Goes none
    World.sampleEndpoint none
    (launchedWith ⟨[(0, refusedEntry)], [(2, 0)], 1⟩ 2) refusedSent := by
  refine .step (.update _ _ _) rfl ?_
  refine .step (.askFraction _ _ 0.0) rfl ?_
  refine .step (.update _ _ _) rfl ?_
  refine .step (.acquire _ _ _) ⟨rfl, rfl⟩ ?_
  refine .step (.askTime _ _ ⟨0⟩) rfl ?_
  refine .step (.update _ _ _) rfl ?_
  refine .step (.release _ _ _) ⟨rfl, rfl⟩ ?_
  refine .step (.transmit _ _ _ _ (.ok ())) rfl ?_
  exact .here _ _ _

set_option maxRecDepth 100000 in
theorem goes_delayedSent : (Thread.start delayedSend).Goes none
    (launchedWith ⟨[(0, refusedEntry)], [(2, 0)], 1⟩ 2) none
    (launchedWith bothInFlight 3) delayedSent := by
  refine .step (.update _ _ _) rfl ?_
  refine .step (.askFraction _ _ 0.0) rfl ?_
  refine .step (.update _ _ _) rfl ?_
  refine .step (.acquire _ _ _) ⟨rfl, rfl⟩ ?_
  refine .step (.askTime _ _ ⟨0⟩) rfl ?_
  refine .step (.update _ _ _) rfl ?_
  refine .step (.release _ _ _) ⟨rfl, rfl⟩ ?_
  refine .step (.transmit _ _ _ _ (.ok ())) rfl ?_
  exact .here _ _ _

theorem goes_scanning : (Thread.start .checkQueues).Goes none
    (launchedWith bothInFlight 3) (some .inFlight)
    (launchedWith bothInFlight 3)
    (scanning (bothInFlight.expiredIds? ⟨2000000000⟩)) := by
  refine .step (.acquire _ _ _) ⟨rfl, rfl⟩ ?_
  refine .step (.askTime _ _ ⟨2000000000⟩) rfl ?_
  refine .step (.update _ _ _) rfl ?_
  exact .here _ _ _

theorem goes_delayed : ∃ rest, rest.waits = true ∧
    (scanning (some [2, 3])).Goes (some .inFlight) (launchedWith bothInFlight 3)
      (some .inFlight) (launchedWith ⟨[(1, delayedEntry)], [(3, 1)], 2⟩ 3)
      ⟨.checkQueues, rest, [], [(0, refusedEntry)], []⟩ := by
  refine ⟨?rest, ?waits, ?goes⟩
  case goes =>
    refine .step (.update _ _ _) rfl ?_
    refine .step (.update _ _ _) rfl ?_
    refine .step (.transmit _ _ _ _ (.error .unreachable)) rfl ?_
    refine .step (.update _ _ _) rfl ?_
    refine .step (.update _ _ _) rfl ?_
    refine .step (.update _ _ _) rfl ?_
    exact .here _ _ _
  case waits => rfl

/-- The scan has given up on the first message. It is cancelled while it waits
for the socket to take the second one, and the first ticket is never told. -/
theorem cancelled_scan : ∃ (w : Interrupted) (th : Thread), w.Reachable ∧
    w.cancelled = [2] ∧ w.world.threads = [refusedSent, delayedSent, th] ∧
    th.operation = .checkQueues ∧ th.taken = [(0, refusedEntry)] ∧
    th.Leaves none .acknowledged [(0, refusedEntry)] ∧
    w.world.endpoint.inFlight.entries = [(1, delayedEntry)] := by
  have hnew : Endpoint.new World.sampleEndpoint.config 1 =
      .ok World.sampleEndpoint := rfl
  have hfresh : ∀ ticket ∈ [7], delayedSend.ticket ≠ some ticket := by decide
  have hdue : bothInFlight.expiredIds? ⟨2000000000⟩ = some [2, 3] := by
    decide +kernel
  obtain ⟨rest, hwaits, hdelayed⟩ := goes_delayed
  have h := (World.Reachable.start hnew).step (.start World.sampleSend nofun)
  have h := World.Reachable.goes [] [] goes_refusedSent h
  have h := h.step (.start delayedSend hfresh)
  have h := World.Reachable.goes [refusedSent] [] goes_delayedSent h
  have h := h.step (.start .checkQueues fun _ _ => nofun)
  have h := World.Reachable.goes [refusedSent, delayedSent] [] goes_scanning h
  rw [hdue] at h
  have h := World.Reachable.goes [refusedSent, delayedSent] [] hdelayed h
  have hcancelled := (Reachable.of_world h).step (@Step.cancel _
    [refusedSent, delayedSent] [] _ rfl hwaits)
  refine ⟨_, _, hcancelled, rfl, rfl, rfl, rfl, ?_, rfl⟩
  exact ⟨rfl, rfl, .inl rfl, fun hscans => (hscans trivial).elim, fun _ => rfl⟩

/-- The scan has taken the first message out of flight, and the ticket of this
message is never told. -/
theorem cancelled_scan_drops : ∃ (w : Interrupted) (th : Thread), w.Reachable ∧
    2 ∈ w.cancelled ∧ w.world.threads[2]? = some th ∧
    th.operation = .checkQueues ∧ (0, refusedEntry) ∈ w.world.queued ∧
    refusedEntry.ticket = some 7 ∧ (0, refusedEntry) ∈ th.taken ∧
    0 ∉ w.world.endpoint.inFlight.seqs ∧ w.world.told 7 = [] ∧
    ¬w.LosesNothing := by
  obtain ⟨w, th, hreachable, hcancelled, hthreads, hop, htaken, hleaves, -⟩ :=
    cancelled_scan
  have hsound := hreachable.sound
  have hplace : w.world.threads[2]? = some th := by
    rw [hthreads]
    rfl
  have hth : th ∈ w.world.threads := List.mem_iff_getElem?.mpr ⟨2, hplace⟩
  have hmem : 2 ∈ w.cancelled := by
    rw [hcancelled]
    exact List.mem_singleton_self 2
  have hqueued : (0, refusedEntry) ∈ w.world.queued := by
    rw [World.queued, hthreads]
    exact List.mem_cons_self
  have hdropped : (0, refusedEntry) ∈ th.taken := by
    rw [htaken]
    exact List.mem_singleton_self _
  have htook : th.Took 0 := List.mem_map_of_mem hdropped
  refine ⟨w, th, hreachable, hmem, hplace, hop, hqueued, rfl, hdropped, ?_, ?_, ?_⟩
  · exact hsound.recorded.balanced.notMem_seqs_of_took hth htook
  · exact hsound.recorded.balanced.told_of_dropped hth hleaves
      (List.mem_singleton_self _) rfl
  · exact hsound.not_losesNothing hmem hplace hleaves
      (List.mem_singleton_self _) rfl

/-- Of the cancelled scan and its messages. -/
theorem told_unless_dropped_cancelledScan : ∃ w : Interrupted, w.Reachable ∧
    2 ∈ w.cancelled ∧
    (1, delayedEntry) ∈ w.world.queued ∧ delayedEntry.ticket = some 8 ∧
    1 ∈ w.world.endpoint.inFlight.seqs ∧ w.world.told 8 = [] ∧
    (∃ th answered outcome dropped, w.world.threads[2]? = some th ∧
      th.Leaves answered outcome dropped) ∧
    ¬w.LosesNothing := by
  obtain ⟨w, th, hreachable, hcancelled, hthreads, -, -, hleaves, hentries⟩ :=
    cancelled_scan
  have hplace : w.world.threads[2]? = some th := by
    rw [hthreads]
    rfl
  have hmem : 2 ∈ w.cancelled := by
    rw [hcancelled]
    exact List.mem_singleton_self 2
  have hqueued : (1, delayedEntry) ∈ w.world.queued := by
    rw [World.queued, hthreads]
    exact List.mem_cons_of_mem _ List.mem_cons_self
  have hseq : 1 ∈ w.world.endpoint.inFlight.seqs := by
    rw [InFlight.seqs, hentries]
    exact List.mem_singleton_self 1
  obtain ⟨htold, hbooks, hlost⟩ := told_unless_dropped hreachable
  obtain ⟨hinFlight, -, -⟩ := htold 1 delayedEntry 8 hqueued rfl
  obtain ⟨th', answered, outcome, dropped, hplace', hleaves', -, -⟩ :=
    hbooks 2 hmem
  refine ⟨w, hreachable, hmem, hqueued, rfl, hseq, hinFlight hseq,
    ⟨th', answered, outcome, dropped, hplace', hleaves'⟩, ?_⟩
  intro hnothing
  have hticket := hlost.mp hnothing 2 hmem th _ _ _ hplace hleaves
    (0, refusedEntry) (List.mem_singleton_self _)
  cases hticket

end Interrupted

end Coap
