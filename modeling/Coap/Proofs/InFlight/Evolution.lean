import Mathlib.Algebra.Order.Group.Multiset
import Coap.Endpoint.Basic

/-!
# How the messages in flight change

Sequence numbers are never used again, so comparing the numbers before and
after a change tells which messages joined the queue and which departed. What
an entry was made from stays with it until it departs. Hence every change
keeps a balance: what was there and what joined is what is there now and what
departed.

## Main results

* `Ordered.evolves_add`, `Ordered.evolves_remove`, `Ordered.evolves_update` —
  the operations on the queue keep it in order and keep the balance.
* `joined_add`, `departed_remove` — adding is the one operation by which a
  message joins, removing the one by which it departs.
-/

namespace Coap

/-! ## Slots -/

/-- What an entry was made from, with the sequence number it is kept under. -/
structure Slot where
  seq : Nat
  id : UInt16
  destination : SocketAddress
  message : Bytes
  ticket : Option Ticket

/-- The slot of an entry. -/
def Slot.of (p : Nat × Entry) : Slot :=
  ⟨p.1, p.2.id, p.2.destination, p.2.message, p.2.ticket⟩

/-- The slots of some entries, in any order. -/
def slots (l : List (Nat × Entry)) : Multiset Slot := l.map Slot.of

@[simp] theorem slots_nil : slots [] = 0 := rfl

@[simp] theorem slots_append (l₁ l₂ : List (Nat × Entry)) :
    slots (l₁ ++ l₂) = slots l₁ + slots l₂ := by
  simp only [slots, List.map_append, Multiset.coe_add]

theorem mem_slots {s : Slot} {l : List (Nat × Entry)} :
    s ∈ slots l ↔ ∃ p ∈ l, Slot.of p = s := by
  simp only [slots, Multiset.mem_coe, List.mem_map]

theorem card_slots (l : List (Nat × Entry)) : (slots l).card = l.length := by
  simp only [slots, Multiset.coe_card, List.length_map]

namespace InFlight

variable {q q' : InFlight}

/-! ## Order -/

/-- The sequence numbers in use. -/
def seqs (q : InFlight) : List Nat := q.entries.map (·.1)

/-- The entries are in the order of their sequence numbers, and the next one
comes after all of them. -/
structure Ordered (q : InFlight) : Prop where
  ascending : q.seqs.Pairwise (· < ·)
  below : ∀ seq ∈ q.seqs, seq < q.nextSeq

theorem ordered_empty : empty.Ordered where
  ascending := .nil
  below := fun _ h => by cases h

theorem mem_seqs_of_mem {p : Nat × Entry} (h : p ∈ q.entries) : p.1 ∈ q.seqs :=
  List.mem_map_of_mem h

/-! ## Differences -/

/-- The entries that have joined between one state of the queue and
another. -/
def joined (q q' : InFlight) : List (Nat × Entry) :=
  q'.entries.filter fun p => p.1 ∉ q.seqs

/-- The entries that have departed between one state of the queue and
another. -/
def departed (q q' : InFlight) : List (Nat × Entry) := joined q' q

theorem joined_eq_nil (h : ∀ p ∈ q'.entries, p.1 ∈ q.seqs) :
    joined q q' = [] := by
  rw [joined, List.filter_eq_nil_iff]
  intro p hp
  simp only [h p hp, not_true_eq_false, decide_false, Bool.false_eq_true,
    not_false_eq_true]

@[simp] theorem joined_self (q : InFlight) : joined q q = [] :=
  joined_eq_nil fun _ hp => mem_seqs_of_mem hp

@[simp] theorem departed_self (q : InFlight) : departed q q = [] :=
  joined_self q

/-- A change that uses no sequence number again and keeps the balance. -/
structure Evolves (q q' : InFlight) : Prop where
  ordered : q'.Ordered
  nextSeq_le : q.nextSeq ≤ q'.nextSeq
  fresh : ∀ p ∈ joined q q', q.nextSeq ≤ p.1
  balance : slots q'.entries + slots (departed q q') =
    slots q.entries + slots (joined q q')

theorem Ordered.evolves_self (h : q.Ordered) : q.Evolves q where
  ordered := h
  nextSeq_le := Nat.le_refl _
  fresh := by
    intro p hp
    rw [joined_self] at hp
    cases hp
  balance := by rw [joined_self, departed_self]

/-! ## Adding -/

variable {id : UInt16} {destination : SocketAddress} {message : Bytes}
  {ticket : Option Ticket} {now : Instant} {timeout : Duration}

theorem entries_add
    (h : q.add id destination message ticket now timeout = .ok q') :
    q'.entries = q.entries ++
        [(q.nextSeq, .new id destination message ticket now timeout)] ∧
      q'.nextSeq = q.nextSeq + 1 := by
  unfold add at h
  split at h
  · contradiction
  · cases h
    exact ⟨rfl, rfl⟩

theorem Ordered.joined_add (hq : q.Ordered)
    (h : q.add id destination message ticket now timeout = .ok q') :
    joined q q' =
      [(q.nextSeq, .new id destination message ticket now timeout)] := by
  have hnew : q.nextSeq ∉ q.seqs := fun hmem =>
    Nat.lt_irrefl _ (hq.below _ hmem)
  have hself := joined_self q
  rw [joined] at hself
  rw [joined, (entries_add h).1, List.filter_append, hself,
    List.filter_singleton]
  simp only [hnew, not_false_eq_true, decide_true, cond_true, List.nil_append]

theorem departed_add
    (h : q.add id destination message ticket now timeout = .ok q') :
    departed q q' = [] := by
  apply joined_eq_nil
  intro p hp
  apply mem_seqs_of_mem
  rw [(entries_add h).1]
  exact List.mem_append_left _ hp

theorem Ordered.evolves_add (hq : q.Ordered)
    (h : q.add id destination message ticket now timeout = .ok q') :
    q.Evolves q' where
  ordered := by
    obtain ⟨hentries, hnext⟩ := entries_add h
    have hseqs : q'.seqs = q.seqs ++ [q.nextSeq] := by
      simp only [seqs, hentries, List.map_append, List.map_cons, List.map_nil]
    constructor
    · rw [hseqs, List.pairwise_append]
      refine ⟨hq.ascending, List.pairwise_singleton _ _, ?_⟩
      intro a ha b hb
      rw [List.mem_singleton.mp hb]
      exact hq.below a ha
    · intro seq hseq
      rw [hseqs, List.mem_append, List.mem_singleton] at hseq
      rw [hnext]
      rcases hseq with hold | hnew
      · have := hq.below seq hold
        omega
      · omega
  nextSeq_le := by
    rw [(entries_add h).2]
    omega
  fresh := by
    intro p hp
    rw [hq.joined_add h, List.mem_singleton] at hp
    rw [hp]
  balance := by
    rw [hq.joined_add h, departed_add h, (entries_add h).1, slots_append,
      slots_nil, add_zero]

/-! ## Removing -/

theorem remove_cases (q : InFlight) (id : UInt16) :
    q.remove id = (none, q) ∨
      ∃ seq, (q.remove id).1 = q.entries.lookup seq ∧
        (q.remove id).2.entries = q.entries.filter (·.1 != seq) ∧
        (q.remove id).2.nextSeq = q.nextSeq := by
  unfold remove
  split
  · next seq _ => exact .inr ⟨seq, rfl, rfl, rfl⟩
  · exact .inl rfl

theorem joined_remove (q : InFlight) (id : UInt16) :
    joined q (q.remove id).2 = [] := by
  apply joined_eq_nil
  intro p hp
  apply mem_seqs_of_mem
  rcases remove_cases q id with hnone | ⟨seq, -, hentries, -⟩
  · rw [hnone] at hp
    exact hp
  · rw [hentries] at hp
    exact (List.mem_filter.mp hp).1

theorem departed_of_filter {seq : Nat}
    (h : q'.entries = q.entries.filter (·.1 != seq)) :
    departed q q' = q.entries.filter (·.1 == seq) := by
  apply List.filter_congr
  intro p hp
  have hmem : p.1 ∈ q'.seqs ↔ p.1 ≠ seq := by
    simp only [seqs, h, List.mem_map, List.mem_filter, bne_iff_ne]
    constructor
    · rintro ⟨p', ⟨-, hne⟩, heq⟩
      exact heq ▸ hne
    · intro hne
      exact ⟨p, ⟨hp, hne⟩, rfl⟩
  rw [Bool.eq_iff_iff, decide_eq_true_iff, beq_iff_eq, hmem, not_not]

/-- In an ascending list only one entry is kept under a number. -/
theorem filter_eq_lookup {l : List (Nat × Entry)} (seq : Nat)
    (h : (l.map (·.1)).Pairwise (· < ·)) :
    (l.filter (·.1 == seq)).map (·.2) = (l.lookup seq).toList := by
  induction l with
  | nil => rfl
  | cons p rest ih =>
      obtain ⟨first, entry⟩ := p
      obtain ⟨hfirst, hrest⟩ := List.pairwise_cons.mp h
      by_cases hs : first = seq
      · have hnone : rest.filter (·.1 == seq) = [] := by
          rw [List.filter_eq_nil_iff]
          intro p hp
          have hlt : first < p.1 := hfirst p.1 (List.mem_map_of_mem hp)
          rw [beq_iff_eq]
          omega
        simp only [List.filter_cons, List.lookup_cons, hs, beq_self_eq_true,
          if_true, hnone]
        rfl
      · have hleft : (first == seq) = false := beq_eq_false_iff_ne.mpr hs
        have hright : (seq == first) = false :=
          beq_eq_false_iff_ne.mpr (Ne.symm hs)
        simp only [List.filter_cons, List.lookup_cons, hleft, hright,
          Bool.false_eq_true, if_false]
        exact ih hrest

/-- The entry that is removed is the one that departs. -/
theorem Ordered.departed_remove (hq : q.Ordered) (id : UInt16) :
    (departed q (q.remove id).2).map (·.2) = (q.remove id).1.toList := by
  rcases remove_cases q id with hnone | ⟨seq, hentry, hentries, -⟩
  · rw [hnone, departed_self]
    rfl
  · rw [departed_of_filter hentries, hentry]
    exact filter_eq_lookup seq hq.ascending

theorem Ordered.evolves_remove (hq : q.Ordered) (id : UInt16) :
    q.Evolves (q.remove id).2 := by
  rcases remove_cases q id with hnone | ⟨seq, -, hentries, hnext⟩
  · rw [hnone]
    exact hq.evolves_self
  · have hsub : List.Sublist (q.remove id).2.seqs q.seqs := by
      rw [seqs, hentries]
      exact List.filter_sublist.map _
    constructor
    · constructor
      · exact hq.ascending.sublist hsub
      · intro s hs
        rw [hnext]
        exact hq.below s (hsub.subset hs)
    · exact Nat.le_of_eq hnext.symm
    · intro p hp
      rw [joined_remove] at hp
      cases hp
    · have hperm := List.filter_append_perm (fun p => p.1 != seq) q.entries
      have hnot : q.entries.filter (fun p => !(p.1 != seq)) =
          q.entries.filter (·.1 == seq) := by
        simp only [bne, Bool.not_not]
      rw [joined_remove, departed_of_filter hentries, hentries, slots_nil,
        add_zero, ← slots_append, ← hnot]
      exact Multiset.coe_eq_coe.mpr (hperm.map Slot.of)

/-! ## Updating -/

/-- A change of an entry that keeps what the entry was made from. -/
def Keeps (f : Entry → Entry) : Prop :=
  ∀ p : Nat × Entry, Slot.of (p.1, f p.2) = Slot.of p

theorem keeps_retransmitted (now : Instant) :
    Keeps fun entry => entry.retransmitted now :=
  fun _ => rfl

theorem update_cases (q : InFlight) (id : UInt16) (f : Entry → Entry) :
    q.update id f = q ∨
      ∃ seq, (q.update id f).nextSeq = q.nextSeq ∧
        (q.update id f).entries =
          q.entries.map fun p => if p.1 == seq then (p.1, f p.2) else p := by
  unfold update
  split
  · next seq _ => exact .inr ⟨seq, rfl, rfl⟩
  · exact .inl rfl

theorem seqs_update (q : InFlight) (id : UInt16) (f : Entry → Entry) :
    (q.update id f).seqs = q.seqs := by
  rcases update_cases q id f with hself | ⟨seq, -, hentries⟩
  · rw [hself]
  · rw [seqs, hentries, List.map_map, seqs]
    apply List.map_congr_left
    intro p _
    dsimp only [Function.comp_apply]
    split <;> rfl

theorem joined_update (q : InFlight) (id : UInt16) (f : Entry → Entry) :
    joined q (q.update id f) = [] :=
  joined_eq_nil fun _ hp => seqs_update q id f ▸ mem_seqs_of_mem hp

theorem departed_update (q : InFlight) (id : UInt16) (f : Entry → Entry) :
    departed q (q.update id f) = [] :=
  joined_eq_nil fun _ hp => seqs_update q id f ▸ mem_seqs_of_mem hp

theorem slots_update {f : Entry → Entry} (hf : Keeps f) (q : InFlight)
    (id : UInt16) : slots (q.update id f).entries = slots q.entries := by
  rcases update_cases q id f with hself | ⟨seq, -, hentries⟩
  · rw [hself]
  · rw [hentries, slots, slots, List.map_map]
    congr 1
    apply List.map_congr_left
    intro p _
    dsimp only [Function.comp_apply]
    split
    · exact hf p
    · rfl

theorem Ordered.evolves_update {f : Entry → Entry} (hf : Keeps f)
    (hq : q.Ordered) (id : UInt16) : q.Evolves (q.update id f) := by
  have hnext : (q.update id f).nextSeq = q.nextSeq := by
    rcases update_cases q id f with hself | ⟨seq, hnext, -⟩
    · rw [hself]
    · exact hnext
  constructor
  · constructor
    · rw [seqs_update]
      exact hq.ascending
    · rw [seqs_update, hnext]
      exact hq.below
  · exact Nat.le_of_eq hnext.symm
  · intro p hp
    rw [joined_update] at hp
    cases hp
  · rw [joined_update, departed_update, slots_update hf]

end InFlight

end Coap
