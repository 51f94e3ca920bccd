import Coap.Proofs.Calls.Reached
import Coap.Proofs.Loop.Rounds
import Coap.Proofs.Noise.Alike

/-!
# What a receive has done

What a thread has done is in the chronicle, one moment after the other, and its books are
what came of these moments. So the books of a receive are told by its one reception: an
entry that it took out of flight has the id of the answer that it received. What is not
a message, and a message that is no answer, takes nothing out.

A moment at which a receive takes nothing out leaves the endpoint as it was, but for the
bytes in the read buffer.

## Main results

* `Chronicle.traced` — the books of a thread are those of its moments.
* `Chronicle.answer_of_taken` — what a receive took out was answered.
-/

namespace Coap

namespace Call

variable {α β : Type} {c c' : Call α} {moments : List Moment}

/-- What is left of a call that does not look at the read buffer does not either. -/
theorem Blind.path (hc : c.Blind) (h : c.Path moments c') : c'.Blind := by
  induction h with
  | here => exact hc
  | step hstep hrest ih => exact ih (hc.step (.refl _) hstep).1

theorem path_of_map {f : α → β} {d : Call β} (h : (f <$> c).Path moments d) :
    ∃ c', c.Path moments c' := by
  rcases path_bind_iff.mp h with ⟨c', hpath, -, -⟩ | ⟨first, others, a, rfl, hpath, hdone⟩
  · exact ⟨c', hpath⟩
  · obtain ⟨rfl, -⟩ := path_done_iff.mp hdone
    rw [List.append_nil]
    exact ⟨done a, hpath⟩

end Call

/-! ## The books of a thread -/

/-- A thread has done these things, which are in the history, and they are what is in
its books. -/
structure Thread.Traced (config : Config) (history : List (Nat × Deed)) (place : Nat)
    (th : Thread) (moments : List Moment) : Prop where
  path : th.operation.call.Path moments th.rest
  taken : th.taken = moments.flatMap fun moment =>
    moment.before.inFlight.departed moment.after.inFlight
  fits : ∀ moment ∈ moments, moment.before.Fits config
  acted : ∀ moment ∈ moments, ∃ id, (place, .acted moment.action id) ∈ history

/-- Every thread is where its moments have led to. -/
theorem Chronicle.traced {config : Config} {first : Endpoint}
    {history : List (Nat × Deed)} {w : World} (h : Chronicle config first history w) :
    w.All fun place th => ∃ moments, th.Traced config history place moments := by
  induction h with
  | start =>
      intro place th hth
      cases hth
  | @step first history w w' place deed hbefore hdoes ih =>
      have hfits := hbefore.fits.endpoint
      have hkept {p : Nat} {moments : List Moment}
          (hacted : ∀ moment ∈ moments, ∃ id, (p, .acted moment.action id) ∈ history) :
          ∀ moment ∈ moments, ∃ id,
            (p, .acted moment.action id) ∈ history ++ [(place, deed)] := by
        intro moment hmoment
        obtain ⟨id, hmem⟩ := hacted moment hmoment
        exact ⟨id, List.mem_append_left _ hmem⟩
      refine hdoes.all ?_ ?_ ?_
      · intro p th hth _
        obtain ⟨moments, hpath, htaken, hall, hacted⟩ := ih p th hth
        exact ⟨moments, hpath, htaken, hall, hkept hacted⟩
      · intro operation _
        exact ⟨[], .here _, rfl, by simp, by simp⟩
      · intro action rest th hth hdeed hstep
        obtain ⟨moments, hpath, htaken, hall, hacted⟩ := ih place th hth
        refine ⟨moments ++ [⟨w.endpoint, action, w'.endpoint⟩], ?_, ?_, ?_, ?_⟩
        · exact hpath.snoc hstep
        · show th.taken ++ _ = _
          rw [htaken, List.flatMap_append, List.flatMap_singleton]
        · rw [List.forall_mem_append, List.forall_mem_singleton]
          exact ⟨hall, hfits⟩
        · rw [List.forall_mem_append, List.forall_mem_singleton]
          refine ⟨hkept hacted, w.endpoint.issued? w'.endpoint, ?_⟩
          rw [← hdeed]
          exact List.mem_append_right _ (List.mem_singleton_self _)

/-- No call that is under way looks at what the read buffer holds. -/
theorem Chronicle.blind {config : Config} {first : Endpoint}
    {history : List (Nat × Deed)} {w : World} (h : Chronicle config first history w) :
    ∀ th ∈ w.threads, th.rest.Blind := by
  intro th hth
  obtain ⟨place, hplace⟩ := List.getElem?_of_mem hth
  obtain ⟨moments, htraced⟩ := h.traced place th hplace
  exact th.operation.blind.path htraced.path

/-! ## The moments of a receive -/

namespace Endpoint

variable {e e' : Endpoint}

/-- One message may have been taken out of flight by its id. Nothing else has changed but
what is in the read buffer. -/
def Picks (e e' : Endpoint) : Prop :=
  ∃ (b : Buffer) (q : InFlight), b.capacity = e.readBuffer.capacity ∧
    (q = e.inFlight ∨ ∃ id, q = (e.inFlight.remove id).2) ∧
    e' = { e with readBuffer := b, inFlight := q }

theorem receptive_picks : Receptive Picks where
  refl e := ⟨e.readBuffer, e.inFlight, rfl, .inl rfl, rfl⟩
  openReadBuffer e := ⟨e.readBuffer.maximize, e.inFlight, rfl, .inl rfl, rfl⟩
  accept e exposed datagram _ :=
    ⟨e.readBuffer.fill exposed datagram, e.inFlight, Buffer.capacity_fill _ _ _, .inl rfl, rfl⟩
  dequeue e id := ⟨e.readBuffer, (e.inFlight.remove id).2, rfl, .inr ⟨id, rfl⟩, rfl⟩

/-- If no message was taken out there is nothing else that differs. -/
theorem Picks.alike (h : e.Picks e') (he : e.inFlight.Sound)
    (hnone : e.inFlight.departed e'.inFlight = []) : e.Alike e' := by
  obtain ⟨b, q, hb, hq, rfl⟩ := h
  have hsame : q = e.inFlight := by
    rcases hq with rfl | ⟨id, rfl⟩
    · rfl
    · have hentry := he.toOrdered.departed_remove id
      rw [hnone, InFlight.fst_remove, List.map_nil] at hentry
      apply he.snd_remove_of_get?_eq_none
      exact Option.toList_eq_nil_iff.mp hentry.symm
  exact ⟨b, hb, by rw [hsame]⟩

end Endpoint

namespace Call

variable {config : Config} {moments : List Moment} {moment : Moment}

/-- A receive waits for its reception, or it has got an answer and settles it. -/
theorem path_receiveNext_cases {c : Call (Except TransportError (Option Message))}
    (hfits : ∀ moment ∈ moments, moment.before.Fits config)
    (h : receiveNext.Path moments c) :
    (∃ c', receiveMessage.Path moments c') ∨
      ∃ first others r m c' c'', moments = first ++ others ∧
        receiveMessage.Path first c' ∧ first.map (·.action) = wait r ∧
        answerIn config r = some m ∧ (settle m).Path others c'' := by
  rw [receiveNext_eq] at h
  rcases path_bind_iff.mp h with
    ⟨c', hwait, -, -⟩ | ⟨first, others, v, rfl, hwait, hrespond⟩
  · exact .inl ⟨c', hwait⟩
  · obtain ⟨r, rfl, hwaited⟩ := path_receiveMessage
      (fun moment hmoment => hfits moment (List.mem_append_left _ hmoment)) hwait
    rw [respond_reception] at hrespond
    cases hanswer : answerIn config r with
    | none =>
        simp only [hanswer] at hrespond
        obtain ⟨rfl, -⟩ := path_done_iff.mp hrespond
        rw [List.append_nil]
        exact .inl ⟨_, hwait⟩
    | some m =>
        simp only [hanswer] at hrespond
        obtain ⟨c'', hsettle⟩ := path_of_map hrespond
        exact .inr ⟨first, others, r, m, _, c'', rfl, hwait, hwaited, hanswer, hsettle⟩

/-- What a receive takes out has the id of the answer that it has received. -/
theorem answer_of_departed {c : Call (Except TransportError (Option Message))}
    (hfits : ∀ moment ∈ moments, moment.before.Fits config)
    (h : receiveNext.Path moments c) (hmoment : moment ∈ moments) {p : Nat × Entry}
    (hp : p ∈ moment.before.inFlight.departed moment.after.inFlight) :
    ∃ r m, .received r ∈ moments.map (·.action) ∧ answerIn config r = some m ∧
      p.2.id = m.id := by
  have hwaiting {first : List Moment}
      {c' : Call (Except TransportError (Option Message))}
      (hpath : receiveMessage.Path first c') : moment ∉ first := by
    intro hmem
    have hmoves : receiveMessage.Moves fun e e' => e'.inFlight = e.inFlight :=
      moves_receiveMessage (fun _ => rfl) fun _ _ _ _ => rfl
    have hsame := (Moves.path hmoves (fun _ => rfl) hpath).1 moment hmem
    rw [hsame, InFlight.departed_self] at hp
    cases hp
  rcases path_receiveNext_cases hfits h with ⟨c', hwait⟩ |
    ⟨first, others, r, m, c', c'', rfl, hwait, hwaited, hanswer, hsettle⟩
  · exact absurd hmoment (hwaiting hwait)
  · have hmem : moment ∈ others := by
      rcases List.mem_append.mp hmoment with hearly | hlate
      · exact absurd hearly (hwaiting hwait)
      · exact hlate
    have hmoves : (settle m).Moves fun e e' =>
        e'.inFlight = e.inFlight ∨ e'.inFlight = (e.inFlight.remove m.id).2 :=
      moves_settle m fun _ => .inr rfl
    refine ⟨r, m, ?_, hanswer, ?_⟩
    · rw [List.map_append, hwaited]
      exact List.mem_append_left _ (received_mem_wait_iff.mpr rfl)
    · rcases (Moves.path hmoves (fun _ => .inl rfl) hsettle).1 moment hmem with
        hsame | hremoved
      · rw [hsame, InFlight.departed_self] at hp
        cases hp
      · have hsound := (hfits moment hmoment).sound
        obtain ⟨found, hdeparted, -, hid⟩ := hsound.departed_remove_eq m.id
        rw [hremoved, hdeparted, Option.mem_toList] at hp
        exact hid p hp

end Call

/-- What a receive took out of flight was answered by a datagram that it received. -/
theorem Chronicle.answer_of_taken {config : Config} {first : Endpoint}
    {history : List (Nat × Deed)} {w : World} (h : Chronicle config first history w)
    {place : Nat} {th : Thread} (hth : w.threads[place]? = some th)
    (hreceive : th.operation = .receive) {p : Nat × Entry} (hp : p ∈ th.taken) :
    ∃ datagram sender id m,
      (place, .acted (.received (.ok (some (datagram, sender)))) id) ∈ history ∧
      Call.messageIn config (.ok (some (datagram, sender))) = some m ∧
      (m.isAck || m.isReset) = true ∧ p.2.id = m.id := by
  obtain ⟨moments, htraced⟩ := h.traced place th hth
  have hpath := htraced.path
  rw [hreceive] at hpath
  obtain ⟨c, hreceives⟩ := Call.path_of_map hpath
  rw [htraced.taken] at hp
  obtain ⟨moment, hmoment, hdeparted⟩ := List.mem_flatMap.mp hp
  obtain ⟨r, m, hreceived, hanswer, hid⟩ :=
    Call.answer_of_departed htraced.fits hreceives hmoment hdeparted
  obtain ⟨moment', hmoment', haction⟩ := List.mem_map.mp hreceived
  obtain ⟨id, hacted⟩ := htraced.acted moment' hmoment'
  rw [haction] at hacted
  obtain ⟨hmessage, hanswers⟩ := Option.filter_eq_some_iff.mp hanswer
  match r with
  | .error cause => cases hmessage
  | .ok none => cases hmessage
  | .ok (some (datagram, sender)) =>
      exact ⟨datagram, sender, id, m, hacted, hmessage, hanswers, hid⟩

end Coap
