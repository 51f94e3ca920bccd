import Mathlib.Data.List.Nodup
import Coap.Proofs.InFlight.Index

/-!
# The queue as a plain list

To its users the queue is a list of entries with different ids, in the order in
which they were added. The sequence numbers and the index are there only to
find entries fast. The same changes are told here of plain lists, by what is
found and filtered, and a queue that goes through some changes stays next to
the list that goes through the same changes: whatever is asked of the two, the
answers are the same.

## Main results

* `Represents.change` — a change of the queue is the same change of the list.
* `replay_represents` — from an empty queue on, all answers are those of the
  list, and the index stays in agreement with the entries.
-/

namespace Coap

/-! ## Changes and their replies -/

/-- A change that a queue may be asked for. -/
inductive Change where
  /-- Add a message that is about to be sent for the first time. -/
  | add (id : UInt16) (destination : SocketAddress) (message : Bytes)
      (ticket : Option Ticket) (now : Instant) (timeout : Duration)
  /-- Take the message with an id out. -/
  | remove (id : UInt16)
  /-- Find the message with an id and note that it was sent again. -/
  | retransmit (id : UInt16) (now : Instant)
  /-- Take the first message out whose timer has run out. -/
  | takeExpired (now : Instant)

/-- What is replied to a change. -/
inductive Reply where
  | added (result : Except SendError Unit)
  | removed (entry : Option Entry)
  /-- The entry that was found, as it was before the change. -/
  | found (entry : Option Entry)
  /-- The entry that was taken. There is no telling, and no change, if a
  deadline that is come across is no clock reading. -/
  | taken (entry : Option (Option Entry))

/-- Make some changes one after the other, each in the state that the one
before has left, and collect the replies. -/
def replay {σ : Type} (change : σ → Change → σ × Reply) (s : σ) :
    List Change → σ × List Reply
  | [] => (s, [])
  | c :: rest =>
      let (s', reply) := change s c
      let (s'', replies) := replay change s' rest
      (s'', reply :: replies)

/-- Change a queue. -/
def InFlight.change (q : InFlight) : Change → InFlight × Reply
  | .add id destination message ticket now timeout =>
      match q.add id destination message ticket now timeout with
      | .ok q' => (q', .added (.ok ()))
      | .error err => (q, .added (.error err))
  | .remove id => ((q.remove id).2, .removed (q.remove id).1)
  | .retransmit id now =>
      (q.update id fun entry => entry.retransmitted now, .found (q.get? id))
  | .takeExpired now =>
      match q.takeExpired? now with
      | some (entry, q') => (q', .taken (some entry))
      | none => (q, .taken none)

/-! ## Plain lists -/

namespace PlainList

/-- The entry with the given id. -/
def get? (l : List Entry) (id : UInt16) : Option Entry := l.find? (·.id == id)

/-- Whether there is an entry with the given id. -/
def contains (l : List Entry) (id : UInt16) : Bool := l.any (·.id == id)

/-- The entries without the one that has the given id. -/
def without (l : List Entry) (id : UInt16) : List Entry := l.filter (·.id != id)

/-- The ids of the entries whose timers have run out, in order, if all
deadlines are clock readings. -/
def expiredIds? (l : List Entry) (now : Instant) : Option (List UInt16) :=
  if l.all (·.timer.deadline?.isSome) then
    some ((l.filter (·.timer.isExpired? now == some true)).map (·.id))
  else none

/-- Change a list. -/
def change (l : List Entry) : Change → List Entry × Reply
  | .add id destination message ticket now timeout =>
      if contains l id then (l, .added (.error (.messageIdInFlight id)))
      else
        (l ++ [⟨id, destination, message, ticket, 1, ⟨now, timeout⟩⟩],
          .added (.ok ()))
  | .remove id => (without l id, .removed (get? l id))
  | .retransmit id now =>
      (l.map fun entry => if entry.id = id then entry.retransmitted now else entry,
        .found (get? l id))
  | .takeExpired now =>
      -- the first entry that is not known to have time left
      match l.find? (·.timer.isExpired? now != some false) with
      | none => (l, .taken (some none))
      | some entry =>
          if entry.timer.deadline?.isSome then
            (without l entry.id, .taken (some (some entry)))
          else (l, .taken none)

end PlainList

/-! ## The two next to each other -/

namespace InFlight

variable {q q' : InFlight} {id : UInt16} {now : Instant}

/-- The first entry that is not known to have time left is the first one that
is expired, if its deadline can be told. -/
theorem firstExpired?_eq (l : List Entry) :
    firstExpired? now l =
      match l.find? (·.timer.isExpired? now != some false) with
      | none => some none
      | some entry =>
          if entry.timer.deadline?.isSome then some (some entry) else none := by
  induction l with
  | nil => rfl
  | cons first rest ih =>
      rw [firstExpired?, List.find?_cons]
      cases hexp : first.timer.isExpired? now with
      | none =>
          have hnone := Timer.isExpired?_eq_none.mp hexp
          have hstop : ((none : Option Bool) != some false) = true := rfl
          simp only [hstop, hnone, Option.isSome_none, Bool.false_eq_true,
            if_false]
      | some expired =>
          cases expired with
          | true =>
              have hsome : first.timer.deadline?.isSome = true := by
                rw [Option.isSome_iff_ne_none]
                intro hnone
                rw [Timer.isExpired?_eq_none.mpr hnone] at hexp
                cases hexp
              have hstop : (some true != some false) = true := rfl
              simp only [hstop, hsome, if_true]
          | false => simpa using ih

namespace Sound

variable (hq : q.Sound)

include hq

theorem nodup_ids : (q.toList.map (·.id)).Nodup := by
  rw [toList, List.map_map]
  refine List.Nodup.map_on ?_ ?_
  · intro p hp p' hp' hid
    exact hq.pair_unique hp hp' hid
  · exact (List.pairwise_map.mp hq.ascending).imp fun hlt heq => by
      rw [heq] at hlt
      exact Nat.lt_irrefl _ hlt

theorem get?_eq : q.get? id = PlainList.get? q.toList id := by
  cases hget : q.get? id with
  | none =>
      have hnone := hq.get?_eq_none_iff.mp hget
      refine (List.find?_eq_none.mpr ?_).symm
      intro entry hentry
      obtain ⟨p, hp, rfl⟩ := List.mem_map.mp hentry
      rw [beq_iff_eq]
      exact hnone p hp
  | some entry =>
      obtain ⟨seq, hmem, rfl⟩ := hq.get?_eq_some_iff.mp hget
      cases hfind : PlainList.get? q.toList entry.id with
      | none =>
          have hno := List.find?_eq_none.mp hfind entry (List.mem_map_of_mem hmem)
          exact absurd (beq_self_eq_true _) hno
      | some found =>
          obtain ⟨p, hp, rfl⟩ := List.mem_map.mp (List.mem_of_find?_eq_some hfind)
          have hid : p.2.id = entry.id := beq_iff_eq.mp
            (List.find?_some (p := fun e : Entry => e.id == entry.id) hfind)
          rw [hq.pair_unique hp hmem hid]

theorem contains_eq : q.contains id = PlainList.contains q.toList id := by
  rw [Bool.eq_iff_iff, PlainList.contains, List.any_eq_true, contains,
    Option.isSome_iff_exists]
  constructor
  · rintro ⟨seq, hseq⟩
    obtain ⟨entry, hmem, rfl⟩ := (hq.indexed id seq).mp hseq
    exact ⟨entry, List.mem_map_of_mem hmem, beq_self_eq_true _⟩
  · rintro ⟨entry, hentry, hid⟩
    obtain ⟨p, hp, rfl⟩ := List.mem_map.mp hentry
    exact ⟨p.1, beq_iff_eq.mp hid ▸ hq.lookup_index hp⟩

theorem toList_remove : (q.remove id).2.toList = PlainList.without q.toList id := by
  rw [toList, hq.entries_remove, PlainList.without, toList, List.filter_map]
  rfl

theorem toList_update (f : Entry → Entry) :
    (q.update id f).toList =
      q.toList.map fun entry => if entry.id = id then f entry else entry := by
  rw [toList, hq.entries_update, toList, List.map_map, List.map_map]
  apply List.map_congr_left
  intro p _
  dsimp only [Function.comp_apply]
  split <;> rfl

end Sound

theorem expiredIds?_eq : q.expiredIds? now = PlainList.expiredIds? q.toList now := by
  unfold PlainList.expiredIds?
  rw [expiredIds?]
  cases hdue : expiredEntries? now q.toList with
  | none =>
      rw [if_neg]
      · rfl
      · intro hall
        refine expiredEntries?_ne_none ?_ hdue
        intro entry hentry
        exact Option.isSome_iff_ne_none.mp (List.all_eq_true.mp hall entry hentry)
  | some due =>
      obtain ⟨rfl, hall⟩ := expiredEntries?_eq_some hdue
      rw [if_pos]
      · rfl
      · rw [List.all_eq_true]
        intro entry hentry
        exact Option.isSome_iff_ne_none.mpr (hall entry hentry)

end InFlight

/-- A queue is a plain list to its users: the index and the entries are in a
one-to-one correspondence, the ids differ, and all questions have the answers
that they have of the list. -/
structure Represents (q : InFlight) (l : List Entry) : Prop where
  ascending : q.seqs.Pairwise (· < ·)
  indexed : ∀ id seq, q.index.lookup id = some seq ↔
    ∃ entry, q.entries.lookup seq = some entry ∧ entry.id = id
  below : ∀ seq ∈ q.seqs, seq < q.nextSeq
  distinct : (l.map (·.id)).Nodup
  iter : q.toList = l
  size : q.size = l.length
  isEmpty : q.isEmpty = l.isEmpty
  get? : ∀ id, q.get? id = PlainList.get? l id
  contains : ∀ id, q.contains id = PlainList.contains l id
  expiredIds? : ∀ now, q.expiredIds? now = PlainList.expiredIds? l now

namespace InFlight.Sound

variable {q : InFlight} (hq : q.Sound)

include hq

theorem lookup_eq_some_iff {seq : Nat} {entry : Entry} :
    q.entries.lookup seq = some entry ↔ (seq, entry) ∈ q.entries := by
  constructor
  · intro h
    have hmem : entry ∈ (q.entries.filter (·.1 == seq)).map (·.2) := by
      rw [filter_eq_lookup seq hq.ascending, h]
      exact List.mem_singleton_self _
    obtain ⟨p, hp, rfl⟩ := List.mem_map.mp hmem
    obtain ⟨hin, hseq⟩ := List.mem_filter.mp hp
    rw [← beq_iff_eq.mp hseq]
    exact hin
  · exact lookup_of_mem hq.ascending

theorem represents : Represents q q.toList where
  ascending := hq.ascending
  indexed := by
    intro id seq
    simp only [hq.indexed, hq.lookup_eq_some_iff]
  below := hq.below
  distinct := hq.nodup_ids
  iter := rfl
  size := by rw [size, toList, List.length_map]
  isEmpty := by rw [isEmpty, toList, List.isEmpty_map]
  get? := fun _ => hq.get?_eq
  contains := fun _ => hq.contains_eq
  expiredIds? := fun _ => expiredIds?_eq

/-- A change of the queue is the same change of the list, with the same
reply. -/
theorem change (c : Change) :
    (q.change c).1.Sound ∧
      PlainList.change q.toList c = ((q.change c).1.toList, (q.change c).2) := by
  cases c with
  | add id destination message ticket now timeout =>
      cases hadd : q.add id destination message ticket now timeout with
      | ok q' =>
          have hfree : PlainList.contains q.toList id = false := by
            rw [← hq.contains_eq, Bool.eq_false_iff]
            intro hcontains
            rw [InFlight.add, if_pos hcontains] at hadd
            cases hadd
          simp only [InFlight.change, hadd, PlainList.change, hfree,
            toList_add hadd]
          exact ⟨hq.add hadd, rfl⟩
      | error err =>
          obtain ⟨hcontains, rfl⟩ := add_eq_error.mp hadd
          rw [hq.contains_eq] at hcontains
          simp only [InFlight.change, hadd, PlainList.change, hcontains, if_true]
          exact ⟨hq, trivial⟩
  | remove id =>
      simp only [InFlight.change, PlainList.change, fst_remove, hq.get?_eq,
        hq.toList_remove]
      exact ⟨hq.remove id, trivial⟩
  | retransmit id now =>
      simp only [InFlight.change, PlainList.change, hq.get?_eq,
        hq.toList_update]
      exact ⟨hq.update (keeps_retransmitted now) id, trivial⟩
  | takeExpired now =>
      simp only [InFlight.change, PlainList.change, takeExpired?,
        firstExpired?_eq]
      cases hfind : q.toList.find? (·.timer.isExpired? now != some false) with
      | none => exact ⟨hq, rfl⟩
      | some entry =>
          by_cases htold : entry.timer.deadline?.isSome = true
          · obtain ⟨p, hp, rfl⟩ :=
              List.mem_map.mp (List.mem_of_find?_eq_some hfind)
            have hentry : (q.remove p.2.id).1 = some p.2 := by
              rw [fst_remove, hq.get?_of_mem hp]
            simp only [htold, if_true, Option.map_some, hentry, hq.toList_remove]
            exact ⟨hq.remove p.2.id, trivial⟩
          · simp only [htold]
            exact ⟨hq, rfl⟩

end InFlight.Sound

/-- A change gives at most one sequence number away. -/
theorem InFlight.nextSeq_change_le (q : InFlight) (c : Change) :
    (q.change c).1.nextSeq ≤ q.nextSeq + 1 := by
  cases c with
  | add id destination message ticket now timeout =>
      cases hadd : q.add id destination message ticket now timeout with
      | ok q' =>
          simp only [change, hadd, (entries_add hadd).2]
          exact Nat.le_refl _
      | error err =>
          simp only [change, hadd]
          exact Nat.le_succ _
  | remove id =>
      simp only [change, nextSeq_remove]
      exact Nat.le_succ _
  | retransmit id now =>
      rcases update_cases q id (·.retransmitted now) with hself | ⟨-, hnext, -⟩
      · simp only [change, hself]
        exact Nat.le_succ _
      · simp only [change, hnext]
        exact Nat.le_succ _
  | takeExpired now =>
      simp only [change, takeExpired?]
      cases firstExpired? now q.toList with
      | none => exact Nat.le_succ _
      | some found =>
          cases found with
          | none => exact Nat.le_succ _
          | some entry =>
              simp only [Option.map_some, nextSeq_remove]
              exact Nat.le_succ _

/-- Some changes of a sound queue are the same changes of the list. -/
theorem InFlight.Sound.replay {q : InFlight} (hq : q.Sound)
    (changes : List Change) :
    (replay InFlight.change q changes).1.Sound ∧
      replay PlainList.change q.toList changes =
        ((replay InFlight.change q changes).1.toList,
          (replay InFlight.change q changes).2) ∧
      (replay InFlight.change q changes).1.nextSeq ≤
        q.nextSeq + changes.length := by
  induction changes generalizing q with
  | nil => exact ⟨hq, rfl, Nat.le_refl _⟩
  | cons c rest ih =>
      obtain ⟨hchanged, hchange⟩ := hq.change c
      obtain ⟨hsound, hlist, hnext⟩ := ih hchanged
      have hstep := q.nextSeq_change_le c
      refine ⟨hsound, ?_, ?_⟩
      · simp only [Coap.replay, hchange, hlist]
      · simp only [Coap.replay, List.length_cons]
        omega

/-- An id that is taken out can be added again, and goes to the end. -/
theorem InFlight.Sound.add_remove {q : InFlight} (hq : q.Sound) (id : UInt16)
    (destination : SocketAddress) (message : Bytes) (ticket : Option Ticket)
    (now : Instant) (timeout : Duration) :
    ∃ q', (q.remove id).2.add id destination message ticket now timeout = .ok q' ∧
      q'.toList = PlainList.without q.toList id ++
        [.new id destination message ticket now timeout] := by
  have hfree : (q.remove id).2.contains id = false := by
    rw [(hq.remove id).contains_eq, hq.toList_remove, PlainList.contains,
      List.any_eq_false]
    intro entry hentry
    have hne := (List.mem_filter.mp hentry).2
    rw [beq_iff_eq]
    exact bne_iff_ne.mp hne
  cases hadd : (q.remove id).2.add id destination message ticket now timeout with
  | ok q' =>
      refine ⟨q', rfl, ?_⟩
      rw [toList_add hadd, hq.toList_remove]
  | error err =>
      rw [(add_eq_error.mp hadd).1] at hfree
      cases hfree

/-- From an empty queue on, the replies to fewer than 2⁶⁴ changes are those of a
plain list. The queue that they come to represents the list that they come to,
its sequence numbers fit into 64 bits, and an id that is taken out of it and
added again goes to the end. -/
theorem replay_represents (changes : List Change)
    (hfew : changes.length < 2 ^ 64) :
    (replay InFlight.change .empty changes).2 =
        (replay PlainList.change [] changes).2 ∧
      Represents (replay InFlight.change .empty changes).1
        (replay PlainList.change [] changes).1 ∧
      (replay InFlight.change .empty changes).1.nextSeq < 2 ^ 64 ∧
      ∀ id destination message ticket now timeout, ∃ q',
        ((replay InFlight.change .empty changes).1.remove id).2.add id destination
          message ticket now timeout = .ok q' ∧
        q'.toList =
          PlainList.without (replay PlainList.change [] changes).1 id ++
            [⟨id, destination, message, ticket, 1, ⟨now, timeout⟩⟩] := by
  obtain ⟨hsound, hlist, hnext⟩ := InFlight.sound_empty.replay changes
  rw [InFlight.toList_empty] at hlist
  have hstart : InFlight.empty.nextSeq = 0 := rfl
  rw [hlist]
  exact ⟨rfl, hsound.represents, by omega, hsound.add_remove⟩

/-- Two messages are added, the first one is sent again, taken out and added
again; then a third one has an id that is in flight. -/
def sampleChanges : List Change :=
  let destination := SocketAddress.ofIp (.v4 ⟨127, 0, 0, 1⟩) 5683
  let timeout := Duration.ofNanos 2000000000
  [.add 5 destination [64, 1, 0, 5] (some 1) ⟨0⟩ timeout,
    .add 6 destination [64, 1, 0, 6] none ⟨1⟩ timeout,
    .retransmit 5 ⟨2000000000⟩, .remove 5,
    .add 5 destination [64, 2, 0, 5] (some 2) ⟨2000000001⟩ timeout,
    .add 6 destination [64, 2, 0, 6] none ⟨2000000002⟩ timeout]

theorem replay_represents_sampleChanges :
    sampleChanges.length < 2 ^ 64 ∧
      (replay PlainList.change [] sampleChanges).1.map (·.id) = [6, 5] ∧
      (replay InFlight.change .empty sampleChanges).2 =
        (replay PlainList.change [] sampleChanges).2 ∧
      (replay InFlight.change .empty sampleChanges).1.toList =
        (replay PlainList.change [] sampleChanges).1 ∧
      (replay InFlight.change .empty sampleChanges).1.nextSeq < 2 ^ 64 ∧
      ∃ q', ((replay InFlight.change .empty sampleChanges).1.remove 6).2.add 6
          (.ofIp (.v4 ⟨127, 0, 0, 1⟩) 5683) [64, 3, 0, 6] none ⟨3⟩ .zero = .ok q' ∧
        q'.toList.map (·.id) = [5, 6] := by
  have hfew : sampleChanges.length < 2 ^ 64 := by decide
  have hids : (replay PlainList.change [] sampleChanges).1.map (·.id) = [6, 5] := by
    decide
  obtain ⟨hreplies, hrepresents, hnext, hend⟩ :=
    replay_represents sampleChanges hfew
  obtain ⟨q', hadd, hlist⟩ := hend 6 (.ofIp (.v4 ⟨127, 0, 0, 1⟩) 5683)
    [64, 3, 0, 6] none ⟨3⟩ .zero
  refine ⟨hfew, hids, hreplies, hrepresents.iter, hnext, q', hadd, ?_⟩
  rw [hlist]
  decide

end Coap
