import Mathlib.Data.List.Pairwise
import Coap.Proofs.Outcome.Calls

/-!
# Exactly one notification for every confirmable message

The books of a thread are balanced when what it took out of flight is what it
told and what it still owes, and what it queued is covered by the ticket of
its operation. A world is balanced when its threads are, and when the entries
that were queued are those in flight and those that were taken. No action
upsets the balance, so it holds in every reachable world, and it leaves an
entry no way to go by which its ticket is told twice or never.

## Main results

* `Balanced.step` — what may happen in a world keeps the balance.
* `notified_exactly_once` — in a reachable world every ticket of a message
  that was queued is told nothing while the message is in flight, and exactly
  one outcome when the call that took it out of flight is over.
-/

namespace Coap

/-- The books of a thread: its ticket covers what it queued, and what it took
was told or is owed. -/
def Thread.Balanced (th : Thread) : Prop :=
  ∃ rights debts,
    th.rest.Accounts rights debts th.operation.Concluded ∧
    (th.operation.ticket.toList : Multiset Ticket) =
      tickets (th.queued.map (·.2)) + rights ∧
    dues (th.taken.map (·.2)) = settled th.told + debts

namespace Thread

theorem balanced_start (operation : Operation) : (start operation).Balanced :=
  ⟨operation.ticket.toList, 0, operation.accounts, (zero_add _).symm, rfl⟩

/-- A thread keeps its books balanced, and changes the queue only in a way
that keeps the balance there. -/
theorem Balanced.after {th : Thread} (h : th.Balanced) {e e' : Endpoint}
    {action : Action} {rest : Call Result} (he : e.inFlight.Ordered)
    (hstep : th.rest.Step e action e' rest) :
    e.inFlight.Evolves e'.inFlight ∧
      (th.after e.inFlight e'.inFlight action rest).Balanced := by
  obtain ⟨rights, debts, haccounts, hrights, hdebts⟩ := h
  obtain ⟨hevolves, rights', debts', hrights', hdebts', haccounts'⟩ :=
    haccounts.step he hstep
  refine ⟨hevolves, rights', debts', haccounts', ?_, ?_⟩
  · simp only [Thread.after, List.map_append, tickets_append]
    rw [hrights, hrights', add_assoc]
    rfl
  · simp only [Thread.after, List.map_append, dues_append, settled_append]
    rw [hdebts, add_assoc, add_comm debts, add_assoc, ← hdebts']
    rfl

/-- A thread queues no ticket but its own. -/
theorem Balanced.ticket_of_queued {th : Thread} (h : th.Balanced)
    {p : Nat × Entry} (hp : p ∈ th.queued) {ticket : Ticket}
    (hticket : p.2.ticket = some ticket) : th.operation.ticket = some ticket := by
  obtain ⟨rights, -, -, hrights, -⟩ := h
  have hmem : ticket ∈ (th.operation.ticket.toList : Multiset Ticket) := by
    rw [hrights]
    exact Multiset.mem_add.mpr
      (.inl (List.mem_filterMap.mpr ⟨p.2, List.mem_map_of_mem hp, hticket⟩))
  exact Option.mem_toList.mp hmem

/-- A thread that was refused has queued nothing with a ticket. -/
theorem Balanced.ticket_ne_of_refused {th : Thread} (h : th.Balanced)
    {result : Result} (hrest : th.rest = .done result)
    (hrefusal : result.IsRefusal) {p : Nat × Entry} (hp : p ∈ th.queued)
    (ticket : Ticket) : p.2.ticket ≠ some ticket := by
  intro hticket
  obtain ⟨rights, debts, haccounts, hrights, -⟩ := h
  rw [hrest] at haccounts
  rw [haccounts.2 hrefusal] at hrights
  have hnone : tickets (th.queued.map (·.2)) = 0 := right_eq_add.mp hrights
  have hmem : ticket ∈ tickets (th.queued.map (·.2)) :=
    List.mem_filterMap.mpr ⟨p.2, List.mem_map_of_mem hp, hticket⟩
  rw [hnone] at hmem
  exact Multiset.notMem_zero ticket hmem

end Thread

namespace World

/-! ## The balance of a world -/

/-- All entries that were queued are in flight or were taken out of flight,
and no two of them can be taken for each other. -/
structure Balanced (w : World) : Prop where
  ordered : w.endpoint.inFlight.Ordered
  threads : ∀ th ∈ w.threads, th.Balanced
  unique : w.issued.Nodup
  balance : slots w.queued = slots w.endpoint.inFlight.entries + slots w.taken
  distinct : (w.queued.map (·.1)).Nodup
  below : ∀ p ∈ w.queued, p.1 < w.endpoint.inFlight.nextSeq

theorem balanced_start {config : Config} {random : UInt32} {e : Endpoint}
    (h : Endpoint.new config random = .ok e) : (start e).Balanced := by
  have hempty : e.inFlight = .empty := by
    unfold Endpoint.new at h
    split at h
    · contradiction
    · cases h
      rfl
  constructor
  · exact hempty ▸ InFlight.ordered_empty
  · intro th hth
    cases hth
  · exact .nil
  · simp only [start, hempty]
    rfl
  · exact .nil
  · intro p hp
    cases hp

/-! ## Books of all threads -/

/-- One thread that adds to its books adds to the books of all. -/
theorem perm_flatMap_of_append {α : Type} {f : Thread → List α}
    {th th' : Thread} {extra : List α} (hf : f th' = f th ++ extra)
    (first last : List Thread) :
    ((first ++ th' :: last).flatMap f).Perm
      ((first ++ th :: last).flatMap f ++ extra) := by
  simp only [List.flatMap_append, List.flatMap_cons, hf, List.append_assoc]
  apply List.Perm.append_left
  apply List.Perm.append_left
  exact List.perm_append_comm

/-- What no two threads share belongs to one thread. -/
theorem eq_of_nodup_flatMap {α : Type} {f : Thread → List α} {l : List Thread}
    (h : (l.flatMap f).Nodup) {th th' : Thread} (hth : th ∈ l) (hth' : th' ∈ l)
    {a : α} (ha : a ∈ f th) (ha' : a ∈ f th') : th = th' := by
  by_contra hne
  have hsymm : Std.Symm (Function.onFun List.Disjoint f) :=
    ⟨fun _ _ hd => hd.symm⟩
  exact (List.nodup_flatMap.mp h).2.forall hth hth' hne ha ha'

/-- Places that share what no two threads share are the same. -/
theorem place_eq_of_nodup_flatMap {α : Type} {f : Thread → List α}
    {l : List Thread} (h : (l.flatMap f).Nodup) {place place' : Nat}
    {th th' : Thread} (hth : l[place]? = some th) (hth' : l[place']? = some th')
    {a : α} (ha : a ∈ f th) (ha' : a ∈ f th') : place = place' := by
  have hpairs := (List.nodup_flatMap.mp h).2
  rw [List.pairwise_iff_getElem] at hpairs
  obtain ⟨hlt, rfl⟩ := List.getElem?_eq_some_iff.mp hth
  obtain ⟨hlt', rfl⟩ := List.getElem?_eq_some_iff.mp hth'
  rcases Nat.lt_trichotomy place place' with hbefore | hsame | hafter
  · exact absurd ha' (hpairs place place' hlt hlt' hbefore ha)
  · exact hsame
  · exact absurd ha (hpairs place' place hlt' hlt hafter ha')

theorem slots_perm {l₁ l₂ : List (Nat × Entry)} (h : l₁.Perm l₂) :
    slots l₁ = slots l₂ :=
  Multiset.coe_eq_coe.mpr (h.map Slot.of)

variable {w w' : World}

/-- A change of the queue that the books follow keeps the entries that were
queued apart. -/
theorem Balanced.distinct_append (h : w.Balanced) {q : InFlight}
    (hevolves : w.endpoint.inFlight.Evolves q) :
    ((w.queued ++ w.endpoint.inFlight.joined q).map (·.1)).Nodup := by
  have hjoined : ((w.endpoint.inFlight.joined q).map (·.1)).Nodup := by
    have hsub : List.Sublist ((w.endpoint.inFlight.joined q).map (·.1)) q.seqs :=
      List.filter_sublist.map _
    have hasc := hevolves.ordered.ascending.sublist hsub
    exact hasc.imp fun hlt => Nat.ne_of_lt hlt
  rw [List.map_append, List.nodup_append]
  refine ⟨h.distinct, hjoined, ?_⟩
  intro a ha b hb
  obtain ⟨p, hp, rfl⟩ := List.mem_map.mp ha
  obtain ⟨p', hp', rfl⟩ := List.mem_map.mp hb
  have hlt := h.below p hp
  have hle := hevolves.fresh p' hp'
  omega

/-- A change of the queue that the books follow keeps the balance. -/
theorem Balanced.of_evolves (h : w.Balanced)
    (hevolves : w.endpoint.inFlight.Evolves w'.endpoint.inFlight)
    (hqueued : w'.queued.Perm
      (w.queued ++ w.endpoint.inFlight.joined w'.endpoint.inFlight))
    (htaken : w'.taken.Perm
      (w.taken ++ w.endpoint.inFlight.departed w'.endpoint.inFlight))
    (hthreads : ∀ th ∈ w'.threads, th.Balanced)
    (hunique : w'.issued.Nodup) :
    w'.Balanced where
  ordered := hevolves.ordered
  threads := hthreads
  unique := hunique
  balance := by
    have hbalance := hevolves.balance
    rw [slots_perm hqueued, slots_perm htaken, slots_append, slots_append,
      h.balance]
    calc slots w.endpoint.inFlight.entries + slots w.taken +
          slots (w.endpoint.inFlight.joined w'.endpoint.inFlight)
        = slots w.endpoint.inFlight.entries +
            slots (w.endpoint.inFlight.joined w'.endpoint.inFlight) +
            slots w.taken := by rw [add_right_comm]
      _ = slots w'.endpoint.inFlight.entries +
            slots (w.endpoint.inFlight.departed w'.endpoint.inFlight) +
            slots w.taken := by rw [hbalance]
      _ = slots w'.endpoint.inFlight.entries + (slots w.taken +
            slots (w.endpoint.inFlight.departed w'.endpoint.inFlight)) := by
          rw [add_assoc, add_comm (slots w.taken)]
  distinct := (hqueued.map _).nodup_iff.mpr (h.distinct_append hevolves)
  below := by
    intro p hp
    rcases List.mem_append.mp (hqueued.mem_iff.mp hp) with hold | hnew
    · have hlt := h.below p hold
      have hle := hevolves.nextSeq_le
      omega
    · have hmem : p ∈ w'.endpoint.inFlight.entries :=
        (List.mem_filter.mp hnew).1
      exact hevolves.ordered.below p.1 (InFlight.mem_seqs_of_mem hmem)

/-- An action of a thread keeps the balance. -/
theorem Balanced.act (h : w.Balanced) {first last : List Thread} {th : Thread}
    {action : Action} {e : Endpoint} {rest : Call Result}
    {holder : Lock → Option Nat} (hthreads : w.threads = first ++ th :: last)
    (hstep : th.rest.Step w.endpoint action e rest) :
    Balanced ⟨e, holder, first ++
      th.after w.endpoint.inFlight e.inFlight action rest :: last⟩ := by
  have hall := h.threads
  rw [hthreads] at hall
  have hth : th ∈ first ++ th :: last :=
    List.mem_append_right _ List.mem_cons_self
  obtain ⟨hevolves, hafter⟩ := (hall th hth).after h.ordered hstep
  apply h.of_evolves hevolves
  · rw [queued, queued, hthreads]
    exact perm_flatMap_of_append rfl first last
  · rw [taken, taken, hthreads]
    exact perm_flatMap_of_append rfl first last
  · intro th' hth'
    rcases List.mem_append.mp hth' with hfirst | hrest
    · exact hall th' (List.mem_append_left _ hfirst)
    · rcases List.mem_cons.mp hrest with hself | hlast
      · exact hself ▸ hafter
      · exact hall th' (List.mem_append_right _ (List.mem_cons_of_mem _ hlast))
  · have hunique := h.unique
    rw [issued, hthreads, List.flatMap_append, List.flatMap_cons] at hunique
    rw [issued, List.flatMap_append, List.flatMap_cons]
    exact hunique

/-- Starting an operation with a new ticket keeps the balance. -/
theorem Balanced.start (h : w.Balanced) {operation : Operation}
    (hfresh : ∀ ticket ∈ w.issued, operation.ticket ≠ some ticket) :
    Balanced { w with threads := w.threads ++ [.start operation] } := by
  refine h.of_evolves ?_ ?_ ?_ ?_ ?_
  · exact h.ordered.evolves_self
  · simp only [queued, InFlight.joined_self, List.flatMap_append,
      List.flatMap_singleton, Thread.start]
    exact .rfl
  · simp only [taken, InFlight.departed_self, List.flatMap_append,
      List.flatMap_singleton, Thread.start]
    exact .rfl
  · intro th hth
    rcases List.mem_append.mp hth with hold | hnew
    · exact h.threads th hold
    · rw [List.mem_singleton.mp hnew]
      exact Thread.balanced_start operation
  · rw [issued, List.flatMap_append, List.flatMap_singleton, List.nodup_append]
    refine ⟨h.unique, ?_, ?_⟩
    · cases (Thread.start operation).operation.ticket with
      | none => exact .nil
      | some ticket => exact List.nodup_singleton ticket
    · intro a ha b hb hab
      exact hfresh a ha (hab ▸ Option.mem_toList.mp hb)

/-- What may happen in a world keeps the balance. -/
theorem Balanced.step (h : w.Balanced) (hstep : w.Step w') : w'.Balanced := by
  cases hstep with
  | start operation hfresh => exact h.start hfresh
  | act hthreads haction hfree => exact h.act hthreads haction
  | abandon hthreads hrest => exact ⟨h.1, h.2, h.3, h.4, h.5, h.6⟩

theorem Reachable.balanced (h : w.Reachable) : w.Balanced := by
  induction h with
  | start hnew => exact balanced_start hnew
  | step _ hstep ih => exact ih.step hstep

/-! ## What was told -/

/-- What an entry is due does not change while it is kept in a slot. -/
theorem dues_eq_of_slots {l₁ l₂ l₃ : List (Nat × Entry)}
    (h : slots l₁ = slots l₂ + slots l₃) :
    dues (l₁.map (·.2)) = dues (l₂.map (·.2)) + dues (l₃.map (·.2)) := by
  have hslots (l : List (Nat × Entry)) : dues (l.map (·.2)) =
      (slots l).filterMap fun s => s.ticket.map fun ticket => (ticket, s.id) := by
    rw [dues, slots, List.filterMap_map, Multiset.filterMap_coe,
      List.filterMap_map]
    rfl
  rw [hslots, hslots, hslots, h, Multiset.filterMap_add]

/-- The tickets of all entries that were queued are tickets of operations. -/
theorem tickets_queued_le {l : List Thread} (h : ∀ th ∈ l, th.Balanced) :
    tickets ((l.flatMap (·.queued)).map (·.2)) ≤
      (l.flatMap (·.operation.ticket.toList) : List Ticket) := by
  induction l with
  | nil => exact le_refl _
  | cons th rest ih =>
      obtain ⟨rights, -, -, hrights, -⟩ := h th List.mem_cons_self
      have hrest := ih fun th' hth' => h th' (List.mem_cons_of_mem th hth')
      rw [List.flatMap_cons, List.flatMap_cons, List.map_append, tickets_append,
        ← Multiset.coe_add, hrights]
      exact add_le_add (Multiset.le_add_right _ _) hrest

/-- Nothing was told that was not due. -/
theorem settled_told_le {l : List Thread} (h : ∀ th ∈ l, th.Balanced) :
    settled (l.flatMap (·.told)) ≤
      dues ((l.flatMap (·.taken)).map (·.2)) := by
  induction l with
  | nil => exact le_refl _
  | cons th rest ih =>
      obtain ⟨-, debts, -, -, hdebts⟩ := h th List.mem_cons_self
      have hrest := ih fun th' hth' => h th' (List.mem_cons_of_mem th hth')
      rw [List.flatMap_cons, List.flatMap_cons, settled_append,
        List.map_append, dues_append, hdebts]
      exact add_le_add (Multiset.le_add_right _ _) hrest

theorem tickets_eq_map (l : List Entry) : tickets l = (dues l).map (·.1) := by
  rw [tickets, dues, Multiset.map_coe, List.map_filterMap]
  congr 2
  funext entry
  simp only [Entry.due, Option.map_map, Function.comp_def, Option.map_id']

namespace Balanced

variable (h : w.Balanced)

include h

/-- The tickets of the entries that were queued are those in flight and those
that were taken, and all of them are different. -/
theorem tickets_split :
    tickets (w.queued.map (·.2)) =
        tickets (w.endpoint.inFlight.entries.map (·.2)) +
          tickets (w.taken.map (·.2)) ∧
      (tickets (w.queued.map (·.2))).Nodup := by
  constructor
  · simp only [tickets_eq_map]
    rw [dues_eq_of_slots h.balance, Multiset.map_add]
  · exact Multiset.nodup_of_le (tickets_queued_le h.threads)
      (Multiset.coe_nodup.mpr h.unique)

/-- Only tickets of entries that were taken are told. -/
theorem told_le :
    ((w.threads.flatMap (·.told)).map (·.ticket) : Multiset Ticket) ≤
      tickets (w.taken.map (·.2)) := by
  have hle := Multiset.map_le_map (f := Prod.fst) (settled_told_le h.threads)
  rw [settled, Multiset.map_coe, List.map_map] at hle
  rw [tickets_eq_map]
  exact hle

theorem told_eq_nil {ticket : Ticket}
    (hticket : ticket ∉ tickets (w.taken.map (·.2))) : w.told ticket = [] := by
  rw [told, List.filter_eq_nil_iff]
  intro n hn hsame
  apply hticket
  rw [← beq_iff_eq.mp hsame]
  exact Multiset.mem_of_le h.told_le (List.mem_map_of_mem hn)

/-- No ticket is told twice. -/
theorem told_eq_singleton {ticket : Ticket} {n : Notification}
    (hn : n ∈ w.told ticket) : w.told ticket = [n] := by
  obtain ⟨hsplit, hnodup⟩ := h.tickets_split
  rw [hsplit] at hnodup
  have htold : ((w.threads.flatMap (·.told)).map (·.ticket)).Nodup :=
    Multiset.coe_nodup.mp
      (Multiset.nodup_of_le h.told_le (Multiset.nodup_add.mp hnodup).2.1)
  have hone : ((w.told ticket).map (·.ticket)).Nodup :=
    htold.sublist (List.filter_sublist.map _)
  have hsame (m : Notification) (hm : m ∈ w.told ticket) : m.ticket = ticket :=
    beq_iff_eq.mp (List.mem_filter.mp hm).2
  match hlist : w.told ticket with
  | [] =>
      rw [hlist] at hn
      cases hn
  | [m] =>
      rw [hlist, List.mem_singleton] at hn
      rw [hn]
  | m :: m' :: rest =>
      rw [hlist] at hone hsame
      have hne : m.ticket ∉ (m' :: rest).map (·.ticket) :=
        (List.nodup_cons.mp hone).1
      rw [hsame m List.mem_cons_self] at hne
      have hm' := hsame m' (List.mem_cons_of_mem m List.mem_cons_self)
      exact absurd (List.mem_map.mpr
        ⟨m', List.mem_cons_self, hm'⟩) hne

/-- A sequence number stands for one entry for ever. -/
theorem slot_eq {p p' : Nat × Entry} (hp : p ∈ w.queued)
    (hp' : Slot.of p' ∈ slots w.queued) (hseq : p'.1 = p.1) :
    Slot.of p' = Slot.of p := by
  obtain ⟨p'', hp'', hslot⟩ := mem_slots.mp hp'
  have hsame : p''.1 = p.1 := (congrArg Slot.seq hslot).trans hseq
  rw [← hslot, List.inj_on_of_nodup_map h.distinct hp'' hp hsame]

/-- No two threads have one ticket. -/
theorem thread_unique {th th' : Thread} (hth : th ∈ w.threads)
    (hth' : th' ∈ w.threads) {ticket : Ticket}
    (hticket : th.operation.ticket = some ticket)
    (hticket' : th'.operation.ticket = some ticket) : th = th' :=
  eq_of_nodup_flatMap h.unique hth hth' (Option.mem_toList.mpr hticket)
    (Option.mem_toList.mpr hticket')

/-- Every number that was used is in flight or was taken, once. -/
theorem nodup_seqs :
    (w.endpoint.inFlight.seqs + w.taken.map (·.1) : Multiset Nat).Nodup := by
  have hseqs (l : List (Nat × Entry)) :
      (slots l).map Slot.seq = (l.map (·.1) : List Nat) := by
    rw [slots, Multiset.map_coe, List.map_map]
    rfl
  have hnodup : ((slots w.queued).map Slot.seq).Nodup := by
    rw [hseqs]
    exact Multiset.coe_nodup.mpr h.distinct
  rw [h.balance, Multiset.map_add, hseqs, hseqs] at hnodup
  exact hnodup

/-- What was taken is not in flight. -/
theorem notMem_seqs_of_took {th : Thread} (hth : th ∈ w.threads) {seq : Nat}
    (htook : th.Took seq) : seq ∉ w.endpoint.inFlight.seqs := by
  have hdisjoint := (Multiset.nodup_add.mp h.nodup_seqs).2.2
  have htaken : seq ∈ w.taken.map (·.1) := by
    rw [taken, List.map_flatMap]
    exact List.mem_flatMap.mpr ⟨th, hth, htook⟩
  exact fun hseq => Multiset.disjoint_left.mp hdisjoint hseq htaken

theorem nodup_taken : (w.threads.flatMap fun th => th.taken.map (·.1)).Nodup := by
  have htaken := (Multiset.nodup_add.mp h.nodup_seqs).2.1
  rw [taken, List.map_flatMap] at htaken
  exact Multiset.coe_nodup.mp htaken

/-- No two threads took one message. -/
theorem took_unique {th th' : Thread} (hth : th ∈ w.threads)
    (hth' : th' ∈ w.threads) {seq : Nat} (htook : th.Took seq)
    (htook' : th'.Took seq) : th = th' :=
  eq_of_nodup_flatMap h.nodup_taken hth hth' htook htook'

/-- A ticket that was not queued is told nothing. -/
theorem told_of_not_queued {ticket : Ticket}
    (hnever : ∀ p ∈ w.queued, p.2.ticket ≠ some ticket) :
    w.told ticket = [] := by
  apply h.told_eq_nil
  intro htaken
  have hmem : ticket ∈ tickets (w.queued.map (·.2)) := by
    rw [h.tickets_split.1]
    exact Multiset.mem_add.mpr (.inr htaken)
  obtain ⟨entry, hentry, hticket⟩ := List.mem_filterMap.mp hmem
  obtain ⟨p, hp, rfl⟩ := List.mem_map.mp hentry
  exact hnever p hp hticket

/-- The ticket of an operation that was refused is told nothing. -/
theorem told_of_refused {th : Thread} (hth : th ∈ w.threads) {result : Result}
    (hrest : th.rest = .done result) (hrefusal : result.IsRefusal)
    {ticket : Ticket} (hticket : th.operation.ticket = some ticket) :
    w.told ticket = [] := by
  apply h.told_of_not_queued
  intro p hp hpticket
  obtain ⟨th', hth', hmem⟩ := List.mem_flatMap.mp hp
  have hticket' := (h.threads th' hth').ticket_of_queued hmem hpticket
  obtain rfl := h.thread_unique hth hth' hticket hticket'
  exact (h.threads th hth).ticket_ne_of_refused hrest hrefusal hmem ticket hpticket

variable {seq : Nat} {entry : Entry} {ticket : Ticket}

theorem told_of_mem_seqs (hqueued : (seq, entry) ∈ w.queued)
    (hticket : entry.ticket = some ticket)
    (hseq : seq ∈ w.endpoint.inFlight.seqs) : w.told ticket = [] := by
  obtain ⟨p, hp, hpseq⟩ := List.mem_map.mp hseq
  have hmem : Slot.of p ∈ slots w.queued := by
    rw [h.balance]
    exact Multiset.mem_add.mpr (.inl (mem_slots.mpr ⟨p, hp, rfl⟩))
  have hslot := h.slot_eq hqueued hmem hpseq
  have hptick : p.2.ticket = some ticket :=
    (congrArg Slot.ticket hslot).trans hticket
  have hinFlight : ticket ∈ tickets (w.endpoint.inFlight.entries.map (·.2)) :=
    List.mem_filterMap.mpr ⟨p.2, List.mem_map_of_mem hp, hptick⟩
  obtain ⟨hsplit, hnodup⟩ := h.tickets_split
  rw [hsplit] at hnodup
  apply h.told_eq_nil
  exact Multiset.disjoint_left.mp (Multiset.nodup_add.mp hnodup).2.2 hinFlight

theorem took_of_notMem_seqs (hqueued : (seq, entry) ∈ w.queued)
    (hseq : seq ∉ w.endpoint.inFlight.seqs) : ∃ th ∈ w.threads, th.Took seq := by
  have hmem : Slot.of (seq, entry) ∈ slots w.queued :=
    mem_slots.mpr ⟨_, hqueued, rfl⟩
  rw [h.balance] at hmem
  rcases Multiset.mem_add.mp hmem with hinFlight | htaken
  · obtain ⟨p, hp, hslot⟩ := mem_slots.mp hinFlight
    have hpseq : p.1 = seq := congrArg Slot.seq hslot
    exact absurd (hpseq ▸ InFlight.mem_seqs_of_mem hp) hseq
  · obtain ⟨p, hp, hslot⟩ := mem_slots.mp htaken
    obtain ⟨th, hth, hmem⟩ := List.mem_flatMap.mp hp
    exact ⟨th, hth, List.mem_map.mpr ⟨p, hmem, congrArg Slot.seq hslot⟩⟩

theorem told_of_took (hqueued : (seq, entry) ∈ w.queued)
    (hticket : entry.ticket = some ticket) {th : Thread} (hth : th ∈ w.threads)
    (htook : th.Took seq) (hover : th.rest.IsOver) :
    ∃ outcome, w.told ticket = [⟨ticket, entry.id, outcome⟩] := by
  obtain ⟨p, hp, hpseq⟩ := List.mem_map.mp htook
  have hmem : Slot.of p ∈ slots w.queued := by
    rw [h.balance]
    have htaken : p ∈ w.taken := List.mem_flatMap.mpr ⟨th, hth, hp⟩
    exact Multiset.mem_add.mpr (.inr (mem_slots.mpr ⟨p, htaken, rfl⟩))
  have hslot := h.slot_eq hqueued hmem hpseq
  have hdue : p.2.due = some (ticket, entry.id) := by
    have hptick : p.2.ticket = some ticket :=
      (congrArg Slot.ticket hslot).trans hticket
    have hpid : p.2.id = entry.id := congrArg Slot.id hslot
    rw [Entry.due, hptick, hpid]
    rfl
  obtain ⟨rights, debts, haccounts, -, hdebts⟩ := h.threads th hth
  rw [haccounts.debts_eq_zero (fun _ _ _ h => h.1) hover, add_zero] at hdebts
  have howed : (ticket, entry.id) ∈ dues (th.taken.map (·.2)) :=
    List.mem_filterMap.mpr ⟨p.2, List.mem_map_of_mem hp, hdue⟩
  rw [hdebts] at howed
  obtain ⟨n, hn, hndue⟩ := List.mem_map.mp howed
  have hnticket : n.ticket = ticket := congrArg Prod.fst hndue
  have hnid : n.id = entry.id := congrArg Prod.snd hndue
  have htold : n ∈ w.told ticket :=
    List.mem_filter.mpr
      ⟨List.mem_flatMap.mpr ⟨th, hth, hn⟩, beq_iff_eq.mpr hnticket⟩
  refine ⟨n.outcome, ?_⟩
  rw [h.told_eq_singleton htold, ← hnticket, ← hnid]

end Balanced

/-! ## Exactly one notification -/

/-- The ticket of a message that was queued is told nothing while the message
is in flight. When it is no longer in flight a call has taken it out, and when
that call is over the ticket has been told exactly one outcome. The ticket of a
send that was refused is told nothing, nor is any other ticket that was not
queued. What was queued is what is in flight and what was taken. -/
theorem notified_exactly_once (h : w.Reachable) :
    (∀ seq entry ticket, (seq, entry) ∈ w.queued → entry.ticket = some ticket →
      (seq ∈ w.endpoint.inFlight.seqs → w.told ticket = []) ∧
      (seq ∉ w.endpoint.inFlight.seqs → ∃ th ∈ w.threads, th.Took seq) ∧
      ∀ th ∈ w.threads, th.Took seq → th.rest.IsOver →
        ∃ outcome, w.told ticket = [⟨ticket, entry.id, outcome⟩]) ∧
    (∀ th ∈ w.threads, ∀ result ticket, th.rest = .done result →
      result.IsRefusal → th.operation.ticket = some ticket →
        w.told ticket = []) ∧
    (∀ ticket, (∀ p ∈ w.queued, p.2.ticket ≠ some ticket) →
      w.told ticket = []) ∧
    w.queued.length = w.endpoint.inFlight.size + w.taken.length := by
  have hbalanced := h.balanced
  refine ⟨?_, ?_, ?_, ?_⟩
  · intro seq entry ticket hqueued hticket
    refine ⟨?_, ?_, ?_⟩
    · exact hbalanced.told_of_mem_seqs hqueued hticket
    · exact hbalanced.took_of_notMem_seqs hqueued
    · intro th hth htook hover
      exact hbalanced.told_of_took hqueued hticket hth htook hover
  · intro th hth result ticket hrest hrefusal hticket
    exact hbalanced.told_of_refused hth hrest hrefusal hticket
  · intro ticket hnever
    exact hbalanced.told_of_not_queued hnever
  · have hcard := congrArg Multiset.card hbalanced.balance
    rw [Multiset.card_add, card_slots, card_slots, card_slots] at hcard
    exact hcard

/-- An endpoint whose message ids start from 1. -/
def sampleEndpoint : Endpoint where
  config := ⟨64, 64, .ofNanos 1000000000, .ofNanos 1000000000,
    ⟨.ofNanos 2000000000, 1.5, 4⟩⟩
  counter := 1
  inFlight := .empty
  readBuffer := .new 65
  writeBuffer := .new 64

/-- The send of a confirmable message with a ticket. -/
def sampleSend : Operation :=
  .send (.ofIp (.v4 ⟨127, 0, 0, 1⟩) 5683)
    (.confirmable ⟨1⟩ 2 .empty .empty none) (some 7)

set_option maxRecDepth 100000 in
/-- The socket is closed before the message is sent for the first time: the
entry was queued, is taken out again, and its ticket is told once. -/
theorem notified_exactly_once_closedSocket :
    ∃ w : World, w.Reachable ∧ ∃ entry outcome,
      (0, entry) ∈ w.queued ∧ entry.ticket = some 7 ∧
        w.told 7 = [⟨7, entry.id, outcome⟩] ∧
        w.queued.length = w.endpoint.inFlight.size + w.taken.length := by
  have hnew : Endpoint.new sampleEndpoint.config 1 = .ok sampleEndpoint := rfl
  have h := (Reachable.start hnew).step (.start sampleSend nofun)
  -- the message is written, queued under the lock, and not sent
  have h := Reachable.actAlone h (.update _ _ _) nofun
  have h := h.actAlone (.askFraction _ _ 0.0) nofun
  have h := h.actAlone (.update _ _ _) nofun
  have h := h.actAlone (.acquire _ _ _) (fun _ _ => rfl)
  have h := h.actAlone (.askTime _ _ ⟨0⟩) nofun
  have h := h.actAlone (.update _ _ _) nofun
  have h := h.actAlone (.release _ _ _) nofun
  have h := h.actAlone (.transmit _ _ _ _ (.error .closed)) nofun
  -- so it is taken out again, and its ticket is told
  have h := h.actAlone (.acquire _ _ _) (fun _ h => by cases h; rfl)
  have h := h.actAlone (.update _ _ _) nofun
  have h := h.actAlone (.release _ _ _) nofun
  have h := h.actAlone (.tell _ _ _) nofun
  obtain ⟨hall, -, -, hcount⟩ := notified_exactly_once h
  obtain ⟨-, -, htold⟩ := hall 0 _ 7 List.mem_cons_self rfl
  obtain ⟨outcome, hout⟩ :=
    htold _ List.mem_cons_self List.mem_cons_self trivial
  exact ⟨_, h, _, outcome, List.mem_cons_self, rfl, hout, hcount⟩

end World

end Coap
