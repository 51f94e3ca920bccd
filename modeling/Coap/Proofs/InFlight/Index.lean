import Coap.Proofs.InFlight.Evolution

/-!
# Messages in flight by their ids

Operations name a message by its id, and the index leads them to a sequence
number. As long as the index names exactly the entries, no two entries have
one id, so an operation meets the one entry with the id that it was given and
leaves all others alone.

## Main results

* `Sound.add`, `Sound.remove`, `Sound.update` — the operations keep the index
  in agreement with the entries.
* `Sound.mem_remove`, `Sound.mem_update` — what is in flight after an
  operation, told by ids.
* `expiredIds?_eq_some` — the ids that are due are those of the entries whose
  deadlines have come, if all deadlines can be told.
-/

namespace Coap

namespace InFlight

variable {q q' : InFlight} {id : UInt16} {seq : Nat} {entry : Entry}

/-! ## The index -/

/-- The queue is in order, and its index names exactly the entries, each by
its id. -/
structure Sound (q : InFlight) : Prop extends Ordered q where
  indexed : ∀ id seq, q.index.lookup id = some seq ↔
    ∃ entry, (seq, entry) ∈ q.entries ∧ entry.id = id

theorem sound_empty : empty.Sound where
  toOrdered := ordered_empty
  indexed := by
    intro id seq
    constructor
    · intro h
      cases h
    · rintro ⟨entry, h, -⟩
      cases h

theorem lookup_filter_ne (l : List (UInt16 × Nat)) (a b : UInt16) :
    (l.filter fun p => p.1 != a).lookup b = if b = a then none else l.lookup b := by
  induction l with
  | nil => simp only [List.filter_nil, List.lookup_nil, ite_self]
  | cons p rest ih =>
      obtain ⟨first, n⟩ := p
      by_cases hfirst : first = a
      · have hdrop : (first != a) = false := by rw [hfirst, bne_self_eq_false]
        rw [List.filter_cons, hdrop, if_neg Bool.false_ne_true, ih]
        by_cases hb : b = a
        · rw [if_pos hb, if_pos hb]
        · have hne : (b == first) = false :=
            beq_eq_false_iff_ne.mpr fun h => hb (h.trans hfirst)
          rw [if_neg hb, if_neg hb, List.lookup_cons, hne]
      · have hkeep : (first != a) = true := bne_iff_ne.mpr hfirst
        rw [List.filter_cons, hkeep, if_pos rfl, List.lookup_cons,
          List.lookup_cons, ih]
        by_cases hb : b = first
        · have hne : b ≠ a := fun h => hfirst (hb.symm.trans h)
          simp only [if_neg hne]
        · have hbeq : (b == first) = false := beq_eq_false_iff_ne.mpr hb
          simp only [hbeq]

theorem lookup_of_mem {l : List (Nat × Entry)}
    (hasc : (l.map (·.1)).Pairwise (· < ·)) (hmem : (seq, entry) ∈ l) :
    l.lookup seq = some entry := by
  have hfilter := filter_eq_lookup seq hasc
  have hin : entry ∈ (l.filter (·.1 == seq)).map (·.2) :=
    List.mem_map.mpr
      ⟨(seq, entry), List.mem_filter.mpr ⟨hmem, beq_self_eq_true seq⟩, rfl⟩
  rw [hfilter, Option.mem_toList] at hin
  exact hin

namespace Ordered

/-- A sequence number is that of one entry. -/
theorem entry_unique (hq : q.Ordered) {entry' : Entry}
    (h : (seq, entry) ∈ q.entries) (h' : (seq, entry') ∈ q.entries) :
    entry = entry' := by
  have hlookup := lookup_of_mem hq.ascending h
  rw [lookup_of_mem hq.ascending h'] at hlookup
  exact (Option.some.inj hlookup).symm

theorem seq_lt (hq : q.Ordered) (h : (seq, entry) ∈ q.entries) :
    seq < q.nextSeq :=
  hq.below seq (mem_seqs_of_mem h)

theorem nextSeq_notMem (hq : q.Ordered) : q.nextSeq ∉ q.seqs :=
  fun h => Nat.lt_irrefl _ (hq.below _ h)

end Ordered

theorem mem_seqs : seq ∈ q.seqs ↔ ∃ entry, (seq, entry) ∈ q.entries := by
  constructor
  · intro h
    obtain ⟨p, hp, rfl⟩ := List.mem_map.mp h
    exact ⟨p.2, hp⟩
  · rintro ⟨entry, h⟩
    exact mem_seqs_of_mem h

namespace Sound

theorem lookup_index (hq : q.Sound) (h : (seq, entry) ∈ q.entries) :
    q.index.lookup entry.id = some seq :=
  (hq.indexed _ _).mpr ⟨entry, h, rfl⟩

/-- An id is that of one entry. -/
theorem pair_unique (hq : q.Sound) {p p' : Nat × Entry} (h : p ∈ q.entries)
    (h' : p' ∈ q.entries) (hid : p.2.id = p'.2.id) : p = p' := by
  have hseq : p.1 = p'.1 := by
    have hlookup := hq.lookup_index h
    rw [hid, hq.lookup_index h'] at hlookup
    exact (Option.some.inj hlookup).symm
  obtain ⟨seq, entry⟩ := p
  obtain ⟨seq', entry'⟩ := p'
  cases hseq
  rw [hq.entry_unique h h']

theorem get?_of_mem (hq : q.Sound) (h : (seq, entry) ∈ q.entries) :
    q.get? entry.id = some entry := by
  rw [get?, hq.lookup_index h, Option.bind_some]
  exact lookup_of_mem hq.ascending h

theorem get?_eq_some_iff (hq : q.Sound) :
    q.get? id = some entry ↔ ∃ seq, (seq, entry) ∈ q.entries ∧ entry.id = id := by
  constructor
  · intro h
    obtain ⟨seq, hseq, hentry⟩ := Option.bind_eq_some_iff.mp h
    obtain ⟨entry', hmem, hid⟩ := (hq.indexed id seq).mp hseq
    rw [lookup_of_mem hq.ascending hmem] at hentry
    cases hentry
    exact ⟨seq, hmem, hid⟩
  · rintro ⟨seq, hmem, rfl⟩
    exact hq.get?_of_mem hmem

theorem lookup_eq_none_iff (hq : q.Sound) :
    q.index.lookup id = none ↔ ∀ p ∈ q.entries, p.2.id ≠ id := by
  constructor
  · intro h p hp hid
    have hsome := hq.lookup_index hp
    rw [hid, h] at hsome
    cases hsome
  · intro h
    cases hlookup : q.index.lookup id with
    | none => rfl
    | some seq =>
        obtain ⟨entry, hmem, hid⟩ := (hq.indexed id seq).mp hlookup
        exact absurd hid (h _ hmem)

theorem get?_eq_none_iff (hq : q.Sound) :
    q.get? id = none ↔ ∀ p ∈ q.entries, p.2.id ≠ id := by
  constructor
  · intro h p hp hid
    have hsome := hq.get?_of_mem hp
    rw [hid, h] at hsome
    cases hsome
  · intro h
    rw [get?, hq.lookup_eq_none_iff.mpr h, Option.bind_none]

/-- Every id is free while nothing is in flight. -/
theorem contains_of_entries_nil (hq : q.Sound) (h : q.entries = [])
    (id : UInt16) : q.contains id = false := by
  have hnone : q.index.lookup id = none := by
    refine hq.lookup_eq_none_iff.mpr ?_
    intro p hp
    rw [h] at hp
    cases hp
  rw [contains, hnone]
  rfl

/-! ## Adding -/

section Adding

variable {destination : SocketAddress} {message : Bytes}
  {ticket : Option Ticket} {now : Instant} {timeout : Duration}

/-- An id that is in flight is refused. -/
theorem id_ne_of_add (hq : q.Sound)
    (h : q.add id destination message ticket now timeout = .ok q')
    {p : Nat × Entry} (hp : p ∈ q.entries) : p.2.id ≠ id := by
  intro hid
  have hcontains : q.contains id = true := by
    rw [contains, ← hid, hq.lookup_index hp, Option.isSome_some]
  rw [add, if_pos hcontains] at h
  cases h

theorem add (hq : q.Sound)
    (h : q.add id destination message ticket now timeout = .ok q') :
    q'.Sound where
  toOrdered := (hq.toOrdered.evolves_add h).ordered
  indexed := by
    have hne := fun p hp => hq.id_ne_of_add h (p := p) hp
    obtain ⟨hentries, -⟩ := entries_add h
    have hindex : q'.index = (id, q.nextSeq) :: q.index := by
      unfold InFlight.add at h
      split at h
      · contradiction
      · cases h
        rfl
    intro id' seq
    rw [hindex, hentries, List.lookup_cons]
    by_cases hid : id' = id
    · subst hid
      simp only [beq_self_eq_true, Option.some.injEq]
      constructor
      · rintro rfl
        exact ⟨_, List.mem_append_right _ (List.mem_singleton_self _), rfl⟩
      · rintro ⟨entry, hmem, hentry⟩
        rcases List.mem_append.mp hmem with hold | hnew
        · exact absurd hentry (hne _ hold)
        · cases List.mem_singleton.mp hnew
          rfl
    · have hbeq : (id' == id) = false := beq_eq_false_iff_ne.mpr hid
      simp only [hbeq]
      rw [hq.indexed]
      constructor
      · rintro ⟨entry, hmem, hentry⟩
        exact ⟨entry, List.mem_append_left _ hmem, hentry⟩
      · rintro ⟨entry, hmem, hentry⟩
        rcases List.mem_append.mp hmem with hold | hnew
        · exact ⟨entry, hold, hentry⟩
        · cases List.mem_singleton.mp hnew
          exact absurd hentry.symm hid

end Adding

/-! ## Removing -/

theorem entries_remove (hq : q.Sound) (id : UInt16) :
    (q.remove id).2.entries = q.entries.filter fun p => p.2.id != id := by
  unfold remove
  split
  · next seq hseq =>
      obtain ⟨entry, hmem, hid⟩ := (hq.indexed id seq).mp hseq
      apply List.filter_congr
      intro p hp
      rw [Bool.eq_iff_iff, bne_iff_ne, bne_iff_ne, not_iff_not]
      constructor
      · intro hp1
        have hpair : (seq, p.2) ∈ q.entries := hp1 ▸ hp
        rw [hq.entry_unique hpair hmem, hid]
      · intro hp2
        rw [hq.pair_unique hp hmem (hp2.trans hid.symm)]
  · next hnone =>
      refine (List.filter_eq_self.mpr ?_).symm
      intro p hp
      exact bne_iff_ne.mpr (hq.lookup_eq_none_iff.mp hnone p hp)

theorem mem_remove (hq : q.Sound) {p : Nat × Entry} :
    p ∈ (q.remove id).2.entries ↔ p ∈ q.entries ∧ p.2.id ≠ id := by
  rw [hq.entries_remove, List.mem_filter, bne_iff_ne]

theorem remove (hq : q.Sound) (id : UInt16) : (q.remove id).2.Sound where
  toOrdered := (hq.toOrdered.evolves_remove id).ordered
  indexed := by
    intro id' seq
    have hindex : (q.remove id).2.index.lookup id' =
        if id' = id then none else q.index.lookup id' := by
      unfold InFlight.remove
      split
      · exact lookup_filter_ne q.index id id'
      · next hnone =>
          by_cases hid : id' = id
          · rw [if_pos hid, hid]
            exact hnone
          · rw [if_neg hid]
    rw [hindex]
    simp only [hq.mem_remove]
    by_cases hid : id' = id
    · rw [if_pos hid]
      constructor
      · intro h
        cases h
      · rintro ⟨entry, ⟨-, hne⟩, hentry⟩
        exact absurd (hentry.trans hid) hne
    · rw [if_neg hid, hq.indexed]
      constructor
      · rintro ⟨entry, hmem, hentry⟩
        exact ⟨entry, ⟨hmem, fun h => hid (hentry.symm.trans h)⟩, hentry⟩
      · rintro ⟨entry, ⟨hmem, -⟩, hentry⟩
        exact ⟨entry, hmem, hentry⟩

/-- Nothing is removed under an id that is not in flight. -/
theorem snd_remove_of_get?_eq_none (hq : q.Sound) (h : q.get? id = none) :
    (q.remove id).2 = q := by
  have hlookup : q.index.lookup id = none :=
    hq.lookup_eq_none_iff.mpr (hq.get?_eq_none_iff.mp h)
  unfold InFlight.remove
  rw [hlookup]

/-! ## Updating -/

theorem entries_update (hq : q.Sound) (id : UInt16) (f : Entry → Entry) :
    (q.update id f).entries =
      q.entries.map fun p => if p.2.id = id then (p.1, f p.2) else p := by
  unfold update
  split
  · next seq hseq =>
      obtain ⟨entry, hmem, hid⟩ := (hq.indexed id seq).mp hseq
      apply List.map_congr_left
      intro p hp
      have hiff : p.1 == seq ↔ p.2.id = id := by
        rw [beq_iff_eq]
        constructor
        · intro hp1
          have hpair : (seq, p.2) ∈ q.entries := hp1 ▸ hp
          rw [hq.entry_unique hpair hmem, hid]
        · intro hp2
          rw [hq.pair_unique hp hmem (hp2.trans hid.symm)]
      by_cases hp2 : p.2.id = id
      · rw [if_pos (hiff.mpr hp2), if_pos hp2]
      · rw [if_neg fun h => hp2 (hiff.mp h), if_neg hp2]
  · next hnone =>
      have hne := hq.lookup_eq_none_iff.mp hnone
      calc q.entries = q.entries.map (fun p => p) :=
            (List.map_id' q.entries).symm
        _ = q.entries.map fun p => if p.2.id = id then (p.1, f p.2) else p :=
            List.map_congr_left fun p hp => (if_neg (hne p hp)).symm

theorem mem_update (hq : q.Sound) {f : Entry → Entry} :
    (seq, entry) ∈ (q.update id f).entries ↔
      ∃ entry', (seq, entry') ∈ q.entries ∧
        entry = if entry'.id = id then f entry' else entry' := by
  rw [hq.entries_update, List.mem_map]
  constructor
  · rintro ⟨⟨seq', entry'⟩, hmem, heq⟩
    by_cases hid : entry'.id = id
    · rw [if_pos hid] at heq
      cases heq
      exact ⟨entry', hmem, (if_pos hid).symm⟩
    · rw [if_neg hid] at heq
      cases heq
      exact ⟨_, hmem, (if_neg hid).symm⟩
  · rintro ⟨entry', hmem, rfl⟩
    refine ⟨(seq, entry'), hmem, ?_⟩
    by_cases hid : entry'.id = id
    · rw [if_pos hid, if_pos hid]
    · rw [if_neg hid, if_neg hid]

theorem update (hq : q.Sound) {f : Entry → Entry} (hf : Keeps f) (id : UInt16) :
    (q.update id f).Sound where
  toOrdered := (hq.toOrdered.evolves_update hf id).ordered
  indexed := by
    have hkeep (entry : Entry) : (f entry).id = entry.id :=
      congrArg Slot.id (hf (0, entry))
    intro id' seq
    have hindex : (q.update id f).index = q.index := by
      unfold InFlight.update
      split <;> rfl
    rw [hindex, hq.indexed]
    simp only [hq.mem_update]
    constructor
    · rintro ⟨entry, hmem, hid⟩
      refine ⟨_, ⟨entry, hmem, rfl⟩, ?_⟩
      split
      · rw [hkeep, hid]
      · exact hid
    · rintro ⟨_, ⟨entry, hmem, rfl⟩, hid⟩
      refine ⟨entry, hmem, ?_⟩
      split at hid
      · rw [← hkeep, hid]
      · exact hid

end Sound

/-! ## Removing, told without the index -/

theorem fst_remove (q : InFlight) (id : UInt16) : (q.remove id).1 = q.get? id := by
  unfold remove get?
  split
  · next h => rw [h, Option.bind_some]
  · next h => rw [h, Option.bind_none]

theorem nextSeq_remove (q : InFlight) (id : UInt16) :
    (q.remove id).2.nextSeq = q.nextSeq := by
  rcases remove_cases q id with hnone | ⟨-, -, -, hnext⟩
  · rw [hnone]
  · exact hnext

theorem nextSeq_update (q : InFlight) (id : UInt16) (f : Entry → Entry) :
    (q.update id f).nextSeq = q.nextSeq := by
  rcases update_cases q id f with hsame | ⟨_, hnext, -⟩
  · rw [hsame]
  · exact hnext

/-- A message that was added and removed leaves only its number behind. -/
theorem Sound.entries_remove_add (hq : q.Sound) {destination : SocketAddress}
    {message : Bytes} {ticket : Option Ticket} {now : Instant}
    {timeout : Duration}
    (h : q.add id destination message ticket now timeout = .ok q') :
    (q'.remove id).2.entries = q.entries := by
  rw [(hq.add h).entries_remove, (entries_add h).1, List.filter_append,
    List.filter_singleton]
  have hnew : (Entry.new id destination message ticket now timeout).id = id := rfl
  have hkeep : q.entries.filter (fun p => p.2.id != id) = q.entries := by
    rw [List.filter_eq_self]
    intro p hp
    exact bne_iff_ne.mpr (hq.id_ne_of_add h hp)
  rw [hkeep, hnew, bne_self_eq_false, cond_false, List.append_nil]

/-! ## What is due -/

end InFlight

/-- The deadline of an entry has come. -/
def Entry.IsDue (entry : Entry) (now : Instant) : Prop :=
  ∃ deadline, entry.timer.deadline? = some deadline ∧
    deadline.nanos ≤ now.nanos

theorem Entry.isDue_iff {entry : Entry} {now : Instant} :
    entry.IsDue now ↔ entry.timer.isExpired? now = some true := by
  cases hd : entry.timer.deadline? with
  | none =>
      have hnone : entry.timer.isExpired? now = none := by
        rw [Timer.isExpired?, Timer.remaining?, hd]
        rfl
      rw [hnone]
      constructor
      · rintro ⟨deadline, h, -⟩
        rw [hd] at h
        cases h
      · intro h
        cases h
  | some deadline =>
      rw [Timer.expired_iff hd, Option.some.injEq, decide_eq_true_iff]
      constructor
      · rintro ⟨deadline', h, hle⟩
        rw [hd] at h
        cases h
        exact hle
      · intro hle
        exact ⟨deadline, hd, hle⟩

theorem Timer.isExpired?_eq_none {t : Timer} {now : Instant} :
    t.isExpired? now = none ↔ t.deadline? = none := by
  rw [isExpired?, remaining?, Option.map_eq_none_iff, Option.map_eq_none_iff]

namespace InFlight

variable {q : InFlight} {now : Instant}

theorem expiredEntries?_eq_some {l due : List Entry}
    (h : expiredEntries? now l = some due) :
    due = l.filter (fun entry => entry.timer.isExpired? now == some true) ∧
      ∀ entry ∈ l, entry.timer.deadline? ≠ none := by
  induction l generalizing due with
  | nil =>
      cases h
      exact ⟨rfl, fun _ h => by cases h⟩
  | cons first rest ih =>
      rw [expiredEntries?] at h
      have hall {others : List Entry}
          (hfirst : first.timer.isExpired? now ≠ none)
          (hrest : expiredEntries? now rest = some others) :
          ∀ entry ∈ first :: rest, entry.timer.deadline? ≠ none := by
        intro entry hentry
        rcases List.mem_cons.mp hentry with rfl | hmem
        · exact fun hnone => hfirst (Timer.isExpired?_eq_none.mpr hnone)
        · exact (ih hrest).2 entry hmem
      cases hexp : first.timer.isExpired? now with
      | none =>
          rw [hexp] at h
          cases h
      | some expired =>
          have hfirst : first.timer.isExpired? now ≠ none := by
            rw [hexp]
            exact Option.some_ne_none expired
          rw [hexp] at h
          cases expired with
          | true =>
              obtain ⟨others, hothers, rfl⟩ := Option.map_eq_some_iff.mp h
              refine ⟨?_, hall hfirst hothers⟩
              rw [List.filter_cons, hexp, beq_self_eq_true, if_pos rfl,
                ← (ih hothers).1]
          | false =>
              refine ⟨?_, hall hfirst h⟩
              have hno : (some false == some true) = false := rfl
              rw [List.filter_cons, hexp, hno, if_neg Bool.false_ne_true]
              exact (ih h).1

theorem expiredEntries?_ne_none {l : List Entry}
    (h : ∀ entry ∈ l, entry.timer.deadline? ≠ none) :
    expiredEntries? now l ≠ none := by
  induction l with
  | nil => exact nofun
  | cons first rest ih =>
      have hrest := ih fun entry hentry =>
        h entry (List.mem_cons_of_mem first hentry)
      rw [expiredEntries?]
      cases hexp : first.timer.isExpired? now with
      | none =>
          exact absurd (Timer.isExpired?_eq_none.mp hexp)
            (h first List.mem_cons_self)
      | some expired =>
          cases expired with
          | true => simpa only [ne_eq, Option.map_eq_none_iff] using hrest
          | false => exact hrest

/-- The ids that are due are told only if all deadlines can be told. They are
then those of the entries whose deadlines have come, each once. -/
theorem Sound.expiredIds?_eq_some (hq : q.Sound) {due : List UInt16}
    (h : q.expiredIds? now = some due) :
    due.Nodup ∧
      (∀ id, id ∈ due ↔ ∃ p ∈ q.entries, p.2.id = id ∧ p.2.IsDue now) ∧
      ∀ p ∈ q.entries, p.2.timer.deadline? ≠ none := by
  obtain ⟨entries, hentries, rfl⟩ := Option.map_eq_some_iff.mp h
  obtain ⟨hfilter, hall⟩ := expiredEntries?_eq_some hentries
  refine ⟨?_, ?_, ?_⟩
  · have hids : (q.toList.map (·.id)).Nodup := by
      rw [toList, List.map_map]
      refine List.Nodup.map_on ?_ ?_
      · intro p hp p' hp' hid
        exact hq.pair_unique hp hp' hid
      · exact (List.pairwise_map.mp hq.ascending).imp fun hlt heq => by
          rw [heq] at hlt
          exact Nat.lt_irrefl _ hlt
    rw [hfilter]
    exact hids.sublist (List.filter_sublist.map _)
  · intro id
    rw [hfilter]
    simp only [List.mem_map, List.mem_filter, beq_iff_eq, ← Entry.isDue_iff,
      toList]
    constructor
    · rintro ⟨_, ⟨⟨p, hp, rfl⟩, hdue⟩, hid⟩
      exact ⟨p, hp, hid, hdue⟩
    · rintro ⟨p, hp, hid, hdue⟩
      exact ⟨p.2, ⟨⟨p, hp, rfl⟩, hdue⟩, hid⟩
  · intro p hp
    exact hall p.2 (List.mem_map_of_mem hp)

theorem expiredIds?_ne_none
    (h : ∀ p ∈ q.entries, p.2.timer.deadline? ≠ none) :
    q.expiredIds? now ≠ none := by
  rw [expiredIds?, ne_eq, Option.map_eq_none_iff]
  apply expiredEntries?_ne_none
  intro entry hentry
  obtain ⟨p, hp, rfl⟩ := List.mem_map.mp hentry
  exact h p hp

end InFlight

end Coap
