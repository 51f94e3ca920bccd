import Coap.Proofs.Runs.Turns

/-!
# What a scan does about each message

The ids that are due are those of different messages, so each of them is
visited once. A visit treats its message and leaves all others alone: a message
that was sent often enough is given up on, any other is sent again, and given up
on if that fails. What a whole scan does about a message is therefore what the
one visit to it does.

## Main results

* `Call.Visits.of_mem` — a message that is due is treated once.
* `Call.Visits.of_notMem` — any other message stays as it is.
* `Call.Visits.mem_of_finished` — only messages that are due are reported to
  have ended.
-/

namespace Coap

/-! ## Changes of one message -/

/-- All messages in flight are left alone but the one under a number, of which
this is left. -/
def InFlight.LeavesOf (q q' : InFlight) (seq : Nat) (left : Option Entry) : Prop :=
  ∀ seq' entry', (seq', entry') ∈ q'.entries ↔
    if seq' = seq then left = some entry' else (seq', entry') ∈ q.entries

namespace InFlight

variable {q q' : InFlight} {seq : Nat} {entry : Entry} {left : Option Entry}

theorem Sound.leavesOf_remove (hq : q.Sound) (h : (seq, entry) ∈ q.entries) :
    q.LeavesOf (q.remove entry.id).2 seq none := by
  intro seq' entry'
  rw [hq.mem_remove]
  by_cases hseq : seq' = seq
  · subst hseq
    rw [if_pos rfl]
    constructor
    · rintro ⟨hmem, hne⟩
      rw [hq.entry_unique hmem h] at hne
      exact absurd rfl hne
    · intro hnone
      cases hnone
  · rw [if_neg hseq]
    constructor
    · exact And.left
    · intro hmem
      refine ⟨hmem, ?_⟩
      intro hid
      exact hseq (congrArg Prod.fst (hq.pair_unique hmem h hid))

theorem Sound.leavesOf_update (hq : q.Sound) (h : (seq, entry) ∈ q.entries)
    (f : Entry → Entry) :
    q.LeavesOf (q.update entry.id f) seq (some (f entry)) := by
  intro seq' entry'
  rw [hq.mem_update]
  by_cases hseq : seq' = seq
  · subst hseq
    rw [if_pos rfl]
    constructor
    · rintro ⟨_, hmem, rfl⟩
      rw [hq.entry_unique hmem h, if_pos rfl]
    · intro hsome
      exact ⟨entry, h, by rw [if_pos rfl, Option.some.inj hsome]⟩
  · rw [if_neg hseq]
    have hne {entry' : Entry} (hmem : (seq', entry') ∈ q.entries) :
        entry'.id ≠ entry.id := fun hid =>
      hseq (congrArg Prod.fst (hq.pair_unique hmem h hid))
    constructor
    · rintro ⟨_, hmem, rfl⟩
      rw [if_neg (hne hmem)]
      exact hmem
    · intro hmem
      exact ⟨entry', hmem, (if_neg (hne hmem)).symm⟩

namespace LeavesOf

variable (h : q.LeavesOf q' seq left)

include h

theorem mem_iff_self {entry' : Entry} :
    (seq, entry') ∈ q'.entries ↔ left = some entry' := by
  rw [h, if_pos rfl]

theorem mem_iff {seq' : Nat} {entry' : Entry} (hne : seq' ≠ seq) :
    (seq', entry') ∈ q'.entries ↔ (seq', entry') ∈ q.entries := by
  rw [h, if_neg hne]

theorem mem_seqs {seq' : Nat} (hseq : seq ∈ q.seqs) (hmem : seq' ∈ q'.seqs) :
    seq' ∈ q.seqs := by
  by_cases hne : seq' = seq
  · rw [hne]
    exact hseq
  · obtain ⟨entry', hentry⟩ := InFlight.mem_seqs.mp hmem
    exact InFlight.mem_seqs_of_mem ((h.mem_iff hne).mp hentry)

end LeavesOf

end InFlight

/-! ## Visits -/

/-- How a scan treats a message that is due: what it sends, what of the message
is left in flight, and how the message ends, if it does. -/
inductive Treated (config : Config) (now : Instant) (entry : Entry) :
    List Sending → Option Entry → Option Outcome → Prop
  | exhausted
      (hmax : config.transmission.maxRetransmit < entry.transmissions) :
      Treated config now entry [] none (some .retriesExhausted)
  | failed (cause : TransportError)
      (hmax : ¬config.transmission.maxRetransmit < entry.transmissions) :
      Treated config now entry
        [⟨entry.destination, entry.message, .error cause⟩] none
        (some (.failed cause))
  | resent (hmax : ¬config.transmission.maxRetransmit < entry.transmissions) :
      Treated config now entry [⟨entry.destination, entry.message, .ok ()⟩]
        (some (entry.retransmitted now)) none

namespace Call

variable {config : Config} {e e' : Endpoint} {now : Instant} {id : UInt16}
  {ids : List UInt16} {actions : List Action} {parts : List Part}
  {first finished : List Finished} {seq : Nat} {entry : Entry}

theorem keeps_visit (now : Instant) (id : UInt16) :
    (visit now id).Keeps (Endpoint.Fits config) := by
  have hlasting := (Endpoint.enduring_fits config).toLasting
  refine Moves.bind (moves_endpoint hlasting.refl) ?_
  intro e
  split
  · exact moves_retry hlasting now _
  · exact trivial

/-- A visit treats the message with its id, if there is one, and leaves all
others alone. -/
theorem Runs.visit_cases (he : e.Fits config)
    (h : (visit now id).Runs e actions e' (some first)) :
    (e.inFlight.get? id = none ∧ e' = e ∧ sendings actions = [] ∧ first = []) ∨
    ∃ seq entry sent left outcome, (seq, entry) ∈ e.inFlight.entries ∧
      entry.id = id ∧ Treated config now entry sent left outcome ∧
      sendings actions = sent ∧
      first = (outcome.map fun o => (entry, o)).toList ∧
      e.inFlight.LeavesOf e'.inFlight seq left := by
  rcases runs_visit_iff.mp h with ⟨hget, rfl, rfl, hfirst⟩ |
    ⟨entry, hget, htreat⟩
  · exact .inl ⟨hget, rfl, rfl, Option.some.inj hfirst⟩
  · obtain ⟨seq, hmem, hid⟩ := he.sound.get?_eq_some_iff.mp hget
    have htaken : (e.dequeue entry.id).2 = some entry := by
      have hfst := InFlight.fst_remove e.inFlight entry.id
      rw [he.sound.get?_of_mem hmem] at hfst
      exact hfst
    rw [htaken, he.config_eq] at htreat
    rcases htreat with ⟨hmax, rfl, rfl, hfirst⟩ | ⟨hmax, result, rfl, hrest⟩
    · exact .inr ⟨seq, entry, _, _, _, hmem, hid, .exhausted hmax, rfl,
        Option.some.inj hfirst, he.sound.leavesOf_remove hmem⟩
    · cases result with
      | error cause =>
          obtain ⟨rfl, hfirst⟩ := hrest
          exact .inr ⟨seq, entry, _, _, _, hmem, hid, .failed cause hmax, rfl,
            Option.some.inj hfirst, he.sound.leavesOf_remove hmem⟩
      | ok =>
          obtain ⟨rfl, hfirst⟩ := hrest
          exact .inr ⟨seq, entry, _, _, _, hmem, hid, .resent hmax, rfl,
            Option.some.inj hfirst, he.sound.leavesOf_update hmem _⟩

namespace Visits

/-- Visits only change the state and send datagrams. -/
theorem mem_actions (h : Visits now e ids parts e' finished) {action : Action}
    (haction : action ∈ parts.flatMap (·.actions)) :
    action = .updated ∨ ∃ destination datagram result,
      action = .transmitted destination datagram result := by
  induction h with
  | nil => cases haction
  | @cons _ _ _ _ _ actions parts _ _ hvisit hrest ih =>
      rw [List.flatMap_cons] at haction
      rcases List.mem_append.mp haction with hfirst | hothers
      · rcases runs_visit_iff.mp hvisit with ⟨-, rfl, -⟩ |
          ⟨entry, -, ⟨-, rfl, -⟩ | ⟨-, result, rfl, -⟩⟩
        · exact .inl (by simpa using hfirst)
        · exact .inl (by simpa using hfirst)
        · simp only [List.mem_cons, List.not_mem_nil, or_false] at hfirst
          rcases hfirst with rfl | rfl | rfl | rfl
          · exact .inl rfl
          · exact .inl rfl
          · exact .inr ⟨_, _, _, rfl⟩
          · exact .inl rfl
      · exact ih hothers

/-- What is seen neither of a change of the state nor of a sending is not seen of
visits. -/
theorem filterMap_actions (h : Visits now e ids parts e' finished) {α : Type}
    {f : Action → Option α} (hupdated : f .updated = none)
    (htransmitted : ∀ destination datagram result,
      f (.transmitted destination datagram result) = none) :
    (parts.flatMap (·.actions)).filterMap f = [] := by
  refine List.filterMap_eq_nil_iff.mpr ?_
  intro action haction
  rcases h.mem_actions haction with rfl | ⟨destination, datagram, result, rfl⟩
  · exact hupdated
  · exact htransmitted destination datagram result

/-- A visit tells nobody, and it neither reads the clock nor receives. -/
theorem silent (h : Visits now e ids parts e' finished) :
    announced (parts.flatMap (·.actions)) = [] ∧
      (parts.flatMap (·.actions)).filterMap Action.reading? = [] ∧
      ∀ r, .received r ∉ parts.flatMap (·.actions) := by
  refine ⟨h.filterMap_actions rfl fun _ _ _ => rfl,
    h.filterMap_actions rfl fun _ _ _ => rfl, ?_⟩
  intro r hr
  rcases h.mem_actions hr with heq | ⟨_, _, _, heq⟩
  · cases heq
  · cases heq

/-- What a scan does first is a visit that treats one message or none; the
other visits go on from there. -/
theorem cons_cases (he : e.Fits config)
    (h : Visits now e (id :: ids) parts e' finished) :
    ∃ p rest e₁ first others, parts = p :: rest ∧ finished = first ++ others ∧
      e₁.Fits config ∧ Visits now e₁ ids rest e' others ∧
      ((e.inFlight.get? id = none ∧ e₁ = e ∧ (∀ seq, sentIn [p] seq = []) ∧
          first = []) ∨
        ∃ seq entry sent left outcome, (seq, entry) ∈ e.inFlight.entries ∧
          entry.id = id ∧ Treated config now entry sent left outcome ∧
          (∀ seq', sentIn [p] seq' = if seq' = seq then sent else []) ∧
          first = (outcome.map fun o => (entry, o)).toList ∧
          e.inFlight.LeavesOf e₁.inFlight seq left) := by
  cases h with
  | cons hvisit hrest =>
      refine ⟨_, _, _, _, _, rfl, rfl, (keeps_visit now id).runs he hvisit,
        hrest, ?_⟩
      rcases hvisit.visit_cases he with ⟨hget, heq, hsent, hfirst⟩ |
        ⟨seq, entry, sent, left, outcome, hmem, rfl, htreated, hsent, hfirst, hleft⟩
      · refine .inl ⟨hget, heq, ?_, hfirst⟩
        intro seq
        rw [sentIn_singleton, hsent, ite_self]
      · refine .inr ⟨seq, entry, sent, left, outcome, hmem, rfl, htreated, ?_,
          hfirst, hleft⟩
        intro seq'
        have hsubject := he.sound.lookup_index hmem
        by_cases hseq : seq' = seq
        · rw [if_pos hseq, sentIn_singleton, if_pos (hseq ▸ hsubject), hsent]
        · have hother : e.inFlight.index.lookup entry.id ≠ some seq' := by
            rw [hsubject]
            exact fun heq => hseq (Option.some.inj heq).symm
          rw [if_neg hseq, sentIn_singleton, if_neg hother]

theorem fits (he : e.Fits config) (h : Visits now e ids parts e' finished) :
    e'.Fits config := by
  induction h with
  | nil => exact he
  | cons hvisit hrest ih => exact ih ((keeps_visit _ _).runs he hvisit)

/-- Nothing joins in a scan, and nothing is sent for what is not in flight. -/
theorem of_notMem_seqs (he : e.Fits config)
    (h : Visits now e ids parts e' finished) (hseq : seq ∉ e.inFlight.seqs) :
    seq ∉ e'.inFlight.seqs ∧ sentIn parts seq = [] := by
  induction ids generalizing e parts finished with
  | nil =>
      cases h
      exact ⟨hseq, rfl⟩
  | cons id rest ih =>
      obtain ⟨p, others, e₁, _, _, rfl, rfl, he₁, hrest, hvisit⟩ :=
        h.cons_cases he
      rw [sentIn_cons]
      rcases hvisit with ⟨-, rfl, hsent, -⟩ |
        ⟨seq₀, entry, sent, left, outcome, hmem, -, -, hsent, -, hleft⟩
      · rw [hsent]
        exact ih he hrest hseq
      · have hseq₀ : seq₀ ∈ e.inFlight.seqs := InFlight.mem_seqs_of_mem hmem
        have hne : seq ≠ seq₀ := fun heq => hseq (heq ▸ hseq₀)
        rw [hsent, if_neg hne]
        exact ih he₁ hrest fun hmem => hseq (hleft.mem_seqs hseq₀ hmem)

/-- A message that is not visited stays as it is, and nothing is sent for it. -/
theorem of_notMem (he : e.Fits config)
    (h : Visits now e ids parts e' finished)
    (hmem : (seq, entry) ∈ e.inFlight.entries) (hid : entry.id ∉ ids) :
    (seq, entry) ∈ e'.inFlight.entries ∧ sentIn parts seq = [] := by
  induction ids generalizing e parts finished with
  | nil =>
      cases h
      exact ⟨hmem, rfl⟩
  | cons id rest ih =>
      obtain ⟨p, others, e₁, _, _, rfl, rfl, he₁, hrest, hvisit⟩ :=
        h.cons_cases he
      obtain ⟨hne, hrestid⟩ :=
        not_or.mp fun hcons => hid (List.mem_cons.mpr hcons)
      rw [sentIn_cons]
      rcases hvisit with ⟨-, rfl, hsent, -⟩ |
        ⟨seq₀, entry₀, sent, left, outcome, hmem₀, hid₀, -, hsent, -, hleft⟩
      · rw [hsent]
        exact ih he hrest hmem hrestid
      · have hseq : seq ≠ seq₀ := by
          intro heq
          subst heq
          rw [he.sound.entry_unique hmem hmem₀] at hne
          exact hne hid₀
        rw [hsent, if_neg hseq]
        exact ih he₁ hrest ((hleft.mem_iff hseq).mpr hmem) hrestid

/-- What has ended was in flight when the scan began, and was visited. -/
theorem mem_of_finished (he : e.Fits config) (hnodup : ids.Nodup)
    (h : Visits now e ids parts e' finished) {outcome : Outcome}
    (hfinished : (entry, outcome) ∈ finished) :
    ∃ seq, (seq, entry) ∈ e.inFlight.entries ∧ entry.id ∈ ids := by
  induction ids generalizing e parts finished with
  | nil =>
      cases h
      cases hfinished
  | cons id rest ih =>
      obtain ⟨hid, hrestnodup⟩ := List.nodup_cons.mp hnodup
      obtain ⟨p, others, e₁, first, _, rfl, rfl, he₁, hrest, hvisit⟩ :=
        h.cons_cases he
      rcases hvisit with ⟨-, rfl, -, rfl⟩ |
        ⟨seq₀, entry₀, sent, left, o, hmem₀, hid₀, htreated, -, rfl, hleft⟩
      · obtain ⟨seq, hmem, hin⟩ := ih he hrestnodup hrest hfinished
        exact ⟨seq, hmem, List.mem_cons_of_mem id hin⟩
      · rcases List.mem_append.mp hfinished with hfirst | hothers
        · obtain ⟨o', -, heq⟩ := Option.map_eq_some_iff.mp
            (Option.mem_toList.mp hfirst)
          cases heq
          exact ⟨seq₀, hmem₀, hid₀ ▸ List.mem_cons_self⟩
        · obtain ⟨seq, hmem, hin⟩ := ih he₁ hrestnodup hrest hothers
          have hseq : seq ≠ seq₀ := by
            intro heq
            subst heq
            -- what is left of a visited message has the id of the visit
            have hsame : entry.id = entry₀.id := by
              have hsome := hleft.mem_iff_self.mp hmem
              cases htreated with
              | exhausted => cases hsome
              | failed => cases hsome
              | resent =>
                  cases hsome
                  rfl
            exact hid (hid₀ ▸ hsame ▸ hin)
          exact ⟨seq, (hleft.mem_iff hseq).mp hmem, List.mem_cons_of_mem id hin⟩

/-- Visits to other ids leave alone what is left of a message that was
treated. -/
theorem after_visit (he : e.Fits config)
    (h : Visits now e ids parts e' finished) {q : InFlight}
    {sent : List Sending} {left : Option Entry} {outcome : Option Outcome}
    (hid : entry.id = id) (hnotin : id ∉ ids)
    (htreated : Treated config now entry sent left outcome)
    (hleft : q.LeavesOf e.inFlight seq left) :
    (∀ entry', (seq, entry') ∈ e'.inFlight.entries ↔ left = some entry') ∧
      sentIn parts seq = [] := by
  have hgone (hnone : left = none) :
      (∀ entry', (seq, entry') ∈ e'.inFlight.entries ↔ left = some entry') ∧
        sentIn parts seq = [] := by
    have hseq : seq ∉ e.inFlight.seqs := by
      intro hmem
      obtain ⟨entry', hentry⟩ := InFlight.mem_seqs.mp hmem
      rw [hleft.mem_iff_self, hnone] at hentry
      cases hentry
    obtain ⟨hnot, hsent⟩ := h.of_notMem_seqs he hseq
    refine ⟨?_, hsent⟩
    intro entry'
    constructor
    · intro hmem
      exact absurd (InFlight.mem_seqs_of_mem hmem) hnot
    · intro hsome
      rw [hnone] at hsome
      cases hsome
  cases htreated with
  | exhausted => exact hgone rfl
  | failed => exact hgone rfl
  | resent =>
      have hmem : (seq, entry.retransmitted now) ∈ e.inFlight.entries :=
        hleft.mem_iff_self.mpr rfl
      obtain ⟨hafter, hsent⟩ := h.of_notMem he hmem (hid ▸ hnotin)
      refine ⟨?_, hsent⟩
      intro entry'
      constructor
      · intro hmem'
        have hfits := h.fits he
        rw [hfits.sound.entry_unique hmem' hafter]
      · intro hsome
        cases hsome
        exact hafter

/-- A message that is visited is treated, and nothing else is done about it. -/
theorem of_mem (he : e.Fits config) (hnodup : ids.Nodup)
    (h : Visits now e ids parts e' finished)
    (hmem : (seq, entry) ∈ e.inFlight.entries) (hin : entry.id ∈ ids) :
    ∃ left outcome, Treated config now entry (sentIn parts seq) left outcome ∧
      (∀ entry', (seq, entry') ∈ e'.inFlight.entries ↔ left = some entry') ∧
      ∀ o, (entry, o) ∈ finished ↔ outcome = some o := by
  induction ids generalizing e parts finished with
  | nil => cases hin
  | cons id rest ih =>
      obtain ⟨hid, hrestnodup⟩ := List.nodup_cons.mp hnodup
      obtain ⟨p, others, e₁, first, last, rfl, rfl, he₁, hrest, hvisit⟩ :=
        h.cons_cases he
      rw [sentIn_cons]
      rcases hvisit with ⟨hget, rfl, hsent, rfl⟩ |
        ⟨seq₀, entry₀, sent, left, o, hmem₀, hid₀, htreated, hsent, rfl, hleft⟩
      · rw [hsent]
        rcases List.mem_cons.mp hin with hfound | hinrest
        · exact absurd hfound (he.sound.get?_eq_none_iff.mp hget _ hmem)
        · exact ih he hrestnodup hrest hmem hinrest
      · by_cases hseq : seq = seq₀
        · -- this visit is the only one to the message
          subst hseq
          obtain rfl := he.sound.entry_unique hmem hmem₀
          have hlast (o' : Outcome) : (entry, o') ∉ last := by
            intro hin'
            obtain ⟨-, -, hinrest⟩ := hrest.mem_of_finished he₁ hrestnodup hin'
            exact hid (hid₀ ▸ hinrest)
          obtain ⟨hafter, hnone⟩ := hrest.after_visit he₁ hid₀ hid htreated hleft
          rw [hsent, if_pos rfl, hnone, List.append_nil]
          refine ⟨left, o, htreated, hafter, ?_⟩
          intro o'
          simp only [List.mem_append, hlast, or_false, Option.mem_toList,
            Option.map_eq_some_iff, Prod.mk.injEq, true_and, exists_eq_right]
        · rw [hsent, if_neg hseq, List.nil_append]
          have hne : entry.id ≠ id := by
            intro hsame
            exact hseq (congrArg Prod.fst
              (he.sound.pair_unique hmem hmem₀ (hsame.trans hid₀.symm)))
          have hinrest : entry.id ∈ rest := List.mem_of_ne_of_mem hne hin
          obtain ⟨left', o', htreated', hafter, hfinished⟩ :=
            ih he₁ hrestnodup hrest ((hleft.mem_iff hseq).mpr hmem) hinrest
          refine ⟨left', o', htreated', hafter, ?_⟩
          intro o''
          rw [← hfinished o'', List.mem_append]
          constructor
          · rintro (hfirst | hlast)
            · obtain ⟨_, -, heq⟩ := Option.map_eq_some_iff.mp
                (Option.mem_toList.mp hfirst)
              cases heq
              exact absurd hid₀ hne
            · exact hlast
          · exact Or.inr

/-- Visits may be made wherever they start and whatever comes of sending. -/
theorem exists_of (now : Instant) (ids : List UInt16)
    (result : Except TransportError Unit) (e : Endpoint) :
    ∃ parts e' finished, Visits now e ids parts e' finished ∧
      ∀ s ∈ sendings (parts.flatMap (·.actions)), s.result = result := by
  induction ids generalizing e with
  | nil => exact ⟨[], e, [], .nil e, nofun⟩
  | cons id rest ih =>
      obtain ⟨actions, e₁, first, hvisit, hfirst⟩ : ∃ actions e₁ first,
          (visit now id).Runs e actions e₁ (some first) ∧
            ∀ s ∈ sendings actions, s.result = result := by
        cases hget : e.inFlight.get? id with
        | none =>
            exact ⟨_, _, _, runs_visit_iff.mpr (.inl ⟨hget, rfl, rfl, rfl⟩),
              nofun⟩
        | some entry =>
            by_cases hmax :
                e.config.transmission.maxRetransmit < entry.transmissions
            · exact ⟨_, _, _, runs_visit_iff.mpr (.inr ⟨entry, hget,
                .inl ⟨hmax, rfl, rfl, rfl⟩⟩), nofun⟩
            · have hsent (s : Sending) (hs : s ∈ [⟨entry.destination,
                  entry.message, result⟩]) : s.result = result := by
                rw [List.mem_singleton.mp hs]
              cases result with
              | ok =>
                  exact ⟨_, _, _, runs_visit_iff.mpr (.inr ⟨entry, hget,
                    .inr ⟨hmax, .ok (), rfl, rfl, rfl⟩⟩), hsent⟩
              | error cause =>
                  exact ⟨_, _, _, runs_visit_iff.mpr (.inr ⟨entry, hget,
                    .inr ⟨hmax, .error cause, rfl, rfl, rfl⟩⟩), hsent⟩
      obtain ⟨parts, e', others, hvisits, hothers⟩ := ih e₁
      refine ⟨_, e', _, .cons hvisit hvisits, ?_⟩
      rw [List.flatMap_cons, sendings_append]
      intro s hs
      exact (List.mem_append.mp hs).elim (hfirst s) (hothers s)

end Visits

end Call

end Coap
