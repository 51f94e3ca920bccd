import Coap.Proofs.Outcome.ExactlyOnce
import Coap.Proofs.Runs.Books

/-!
# What the books of an operation look like

Each operation keeps books of its own kind. A send takes out at most one message,
one with the id of its own, and only after its last wait. A receive ends at most
one message, and also waits no more when it has. A scan takes out one message
after the other, waits in between, and tells nothing until it is through; a poll
is a receive and then a scan.

## Main results

* `Operation.upholds` — every operation keeps the books of its kind.
* `World.Recorded.step`, `World.Reachable.recorded` — so does every thread,
  whatever runs beside it, and what it has found to be gone stays gone.
-/

namespace Coap

/-! ## Kinds of books -/

namespace Books

/-- The books are those of a call that has since taken more messages, and told
nothing. -/
structure Withholds (b b' : Books) : Prop where
  taken : b.taken <+: b'.taken
  told : b'.told = b.told

theorem Withholds.refl (b : Books) : b.Withholds b := ⟨List.prefix_rfl, rfl⟩

theorem Withholds.trans {b₁ b₂ b₃ : Books} (h : b₁.Withholds b₂)
    (h' : b₂.Withholds b₃) : b₁.Withholds b₃ :=
  ⟨h.taken.trans h'.taken, h'.told.trans h.told⟩

/-- The books are those of a call that has since ended a message with an answer
of the peer, if there was one to end, and told so. -/
def Answers (b b' : Books) : Prop :=
  ∃ (found : Option (Nat × Entry)) (outcome : Outcome),
    (outcome = .acknowledged ∨ outcome = .rejected) ∧
    b'.taken = b.taken ++ found.toList ∧
    b'.told = b.told ++ (found.bind fun p => p.2.notify outcome).toList

theorem Answers.refl (b : Books) : b.Answers b :=
  ⟨none, .acknowledged, .inl rfl, (List.append_nil _).symm,
    (List.append_nil _).symm⟩

/-- The books of a send. It takes nothing out of flight before its last wait,
and then one message with the id of its own, which is gone then; and it tells
nothing but that this one has failed. -/
structure OfSend (waiting : Bool) (b : Books) : Prop where
  idle : waiting = true → b.taken = [] ∧ b.told = []
  taken : ∀ p ∈ b.taken, b.taken = [p] ∧
    ∃ own, b.queued = [own] ∧ p.2.id = own.2.id ∧ own.1 ∈ b.gone
  told : ∀ n ∈ b.told, ∃ cause, ∃ p ∈ b.taken,
    p.2.notify (.failed cause) = some n

/-- The books of a send that is over, by the transport error that it reports.
If it reports one, its own message is gone, and it told that what it took has
failed with that error. -/
def EndedBy (failure : Option TransportError) (b : Books) : Prop :=
  match failure with
  | none => b.taken = []
  | some cause =>
      b.told = b.taken.filterMap (fun p => p.2.notify (.failed cause)) ∧
        ∀ own ∈ b.queued, own.1 ∈ b.gone

variable {waiting : Bool}

theorem ofSend_idle (own : Option (Nat × Entry)) :
    OfSend waiting ⟨own.toList, [], [], []⟩ where
  idle := fun _ => ⟨rfl, rfl⟩
  taken := fun _ h => by cases h
  told := fun _ h => by cases h

theorem ofSend_gaveUp {own : Nat × Entry} {found : Option (Nat × Entry)}
    (hid : ∀ p ∈ found, p.2.id = own.2.id) {told : List Notification}
    (htold : ∀ n ∈ told, ∃ cause, ∃ p ∈ found,
      p.2.notify (.failed cause) = some n) :
    OfSend false ⟨[own], found.toList, told, [own.1]⟩ where
  idle := fun h => by cases h
  taken := by
    intro p hp
    have hfound : found = some p := Option.mem_toList.mp hp
    refine ⟨?_, own, rfl, hid p hfound, List.mem_singleton_self _⟩
    rw [hfound]
    rfl
  told := by
    intro n hn
    obtain ⟨cause, p, hp, hnotify⟩ := htold n hn
    exact ⟨cause, p, Option.mem_toList.mpr hp, hnotify⟩

end Books

/-! ## Calls -/

/-- The transport error that a send reports, if it reports one. -/
def failure? {α : Type} : Except SendError α → Option TransportError
  | .error (.transport cause) => some cause
  | _ => none

theorem failure?_map {α β : Type} (r : Except SendError α) (f : α → β) :
    failure? (r.map f) = failure? r := by
  cases r with
  | ok a => rfl
  | error err => cases err <;> rfl

namespace Call

section Receiving

variable {I : Bool → Books → Prop} {b : Books}

theorem upholds_settle {answer : Message} {post : Unit → Books → Prop}
    (hgoing : ∀ b', I false b') (hwaits : I true b)
    (h : ∀ b', b.Answers b' → post () b') :
    (settle answer).Upholds I b post := by
  refine Upholds.bind (upholds_locked hwaits ?_)
  refine upholds_dequeue (hgoing _) ?_
  intro found _
  refine ⟨hgoing _, upholds_notify (hgoing _) (h _ ?_)⟩
  refine ⟨found, Endpoint.outcomeOf answer, ?_, rfl, ?_⟩
  · unfold Endpoint.outcomeOf
    split
    · exact .inl rfl
    · exact .inr rfl
  · rw [Option.bind_map]
    rfl

theorem upholds_receiveMessage
    {post : Except TransportError (Option Message) → Books → Prop}
    (hgoing : ∀ b', I false b') (hwaits : I true b) (h : ∀ r, post r b) :
    receiveMessage.Upholds I b post := by
  refine upholds_locked hwaits (Upholds.bind ?_)
  refine upholds_update (hgoing _) (fun _ => rfl) ?_
  intro _
  refine Upholds.bind ⟨hwaits, ?_⟩
  intro reception
  match reception with
  | .error cause => exact ⟨hgoing _, h (.error cause)⟩
  | .ok none => exact ⟨hgoing _, h (.ok none)⟩
  | .ok (some (datagram, sender)) =>
      refine Upholds.bind (upholds_perform (hgoing _) (fun _ => rfl) ?_)
      intro m
      exact ⟨hgoing _, h (.ok m)⟩

theorem upholds_receiveNext
    {post : Except TransportError (Option Message) → Books → Prop}
    (hgoing : ∀ b', I false b') (hwaits : I true b)
    (h : ∀ r b', b.Answers b' → post r b') :
    receiveNext.Upholds I b post := by
  refine Upholds.bind (upholds_receiveMessage hgoing hwaits ?_)
  intro r
  match r with
  | .error cause => exact h (.error cause) b (.refl b)
  | .ok none => exact h (.ok none) b (.refl b)
  | .ok (some m) =>
      dsimp only
      split
      · exact Upholds.bind
          (upholds_settle hgoing hwaits fun b' => h (.ok (some m)) b')
      · exact h (.ok (some m)) b (.refl b)

end Receiving

section Scanning

variable {I : Bool → Books → Prop} {b : Books} {now : Instant}
  {post : List Finished → Books → Prop}

theorem upholds_finish {id : UInt16} {outcome : Outcome}
    (hI : ∀ waiting b', b.Withholds b' → I waiting b')
    (h : ∀ l b', b.Withholds b' → post l b') :
    (finish id outcome).Upholds I b post := by
  refine Upholds.bind (upholds_dequeue (hI false b (.refl b)) ?_)
  intro found _
  exact h _ _ ⟨List.prefix_append _ _, rfl⟩

theorem upholds_retry {entry : Entry}
    (hI : ∀ waiting b', b.Withholds b' → I waiting b')
    (h : ∀ l b', b.Withholds b' → post l b') :
    (retry now entry).Upholds I b post := by
  have hb := fun waiting => hI waiting b (.refl b)
  refine Upholds.bind (upholds_endpoint (hb false) ?_)
  intro e
  split
  · exact upholds_finish hI h
  · refine Upholds.bind ⟨hb true, ?_⟩
    intro result
    cases result with
    | ok =>
        exact Upholds.bind
          (upholds_noteRetransmission (hb false) (h [] b (.refl b)))
    | error cause => exact upholds_finish hI h

/-- While a scan goes over some messages it may take them, and it tells
nothing. -/
theorem upholds_scan {ids : List UInt16}
    (hI : ∀ waiting b', b.Withholds b' → I waiting b')
    (h : ∀ l b', b.Withholds b' → post l b') :
    (scan now ids).Upholds I b post := by
  induction ids generalizing b post with
  | nil => exact h [] b (.refl b)
  | cons id rest ih =>
      have hothers (first : List Finished) {b₁ : Books} (h₁ : b.Withholds b₁) :
          (scan now rest >>= fun others => pure (first ++ others)).Upholds
            I b₁ post := by
        refine Upholds.bind (ih ?_ ?_)
        · exact fun waiting b' hb' => hI waiting b' (h₁.trans hb')
        · exact fun others b' hb' => h (first ++ others) b' (h₁.trans hb')
      refine Upholds.bind (upholds_endpoint (hI false b (.refl b)) ?_)
      intro e
      split
      · exact Upholds.bind (upholds_retry hI fun first _ h₁ => hothers first h₁)
      · exact hothers [] (.refl b)

theorem upholds_checkQueues {post : Unit → Books → Prop}
    (hgoing : ∀ b', I false b') (hwaits : ∀ b', b.Withholds b' → I true b')
    (h : ∀ b', post () b') : checkQueues.Upholds I b post := by
  have hI (waiting : Bool) (b' : Books) (hb' : b.Withholds b') :
      I waiting b' := by
    cases waiting with
    | false => exact hgoing b'
    | true => exact hwaits b' hb'
  refine Upholds.bind (upholds_locked (hwaits b (.refl b)) (Upholds.bind ?_))
  refine ⟨hgoing b, ?_⟩
  intro now
  refine Upholds.bind (upholds_endpoint (hgoing b) ?_)
  intro e
  refine Upholds.bind (upholds_ofOption (hgoing b) ?_)
  intro due
  refine upholds_scan hI ?_
  intro finished b' _
  exact ⟨hgoing b', upholds_notifyAll (fun _ => hgoing _) fun _ => h _⟩

end Scanning

section Sending

/-- What is known of the books of a send when it is over. -/
def SendEnded {α : Type} (r : Except SendError α) (b : Books) : Prop :=
  b.OfSend false ∧ b.EndedBy (failure? r)

/-- A send that has taken nothing may report anything but a transport error, and
that one too if it has put nothing in flight. -/
theorem sendEnded_idle {α : Type} {r : Except SendError α}
    (own : Option (Nat × Entry)) (h : failure? r = none ∨ own = none) :
    SendEnded r ⟨own.toList, [], [], []⟩ := by
  refine ⟨Books.ofSend_idle own, ?_⟩
  rcases h with hnone | rfl
  · rw [hnone]
    exact rfl
  · cases failure? r with
    | none => exact rfl
    | some cause => exact ⟨rfl, fun _ h => by cases h⟩

theorem upholds_giveUp (own : Nat × Entry) (cause : TransportError) :
    (giveUp own.2.id cause).Upholds Books.OfSend ⟨[own], [], [], []⟩
      SendEnded := by
  refine Upholds.bind (upholds_locked (Books.ofSend_idle (some own)) ?_)
  refine upholds_dequeue (Books.ofSend_idle (some own)) ?_
  intro found hid
  have hgone : ([own].filter (·.2.id == own.2.id)).map (·.1) = [own.1] := by
    rw [List.filter_singleton, beq_self_eq_true]
    rfl
  simp only [hgone, List.nil_append]
  have hquiet : Books.OfSend false ⟨[own], found.toList, [], [own.1]⟩ :=
    Books.ofSend_gaveUp hid fun _ h => by cases h
  refine ⟨hquiet, Upholds.bind (upholds_notify hquiet ?_)⟩
  refine ⟨Books.ofSend_gaveUp hid ?_, ?_, ?_⟩
  · intro n hn
    obtain ⟨entry, hentry, hnotify⟩ :=
      Option.bind_eq_some_iff.mp (Option.mem_toList.mp hn)
    obtain ⟨p, hp, rfl⟩ := Option.map_eq_some_iff.mp hentry
    exact ⟨cause, p, hp, hnotify⟩
  · cases found with
    | none => rfl
    | some p => rfl
  · intro p hp
    rw [List.mem_singleton.mp hp]
    exact List.mem_singleton_self _

theorem upholds_sendTracked {destination : SocketAddress} {id : UInt16}
    {datagram : Bytes} {ticket : Option Ticket} :
    (sendTracked destination id datagram ticket).Upholds Books.OfSend .empty
      SendEnded := by
  have hidle {waiting : Bool} : Books.empty.OfSend waiting :=
    Books.ofSend_idle none
  refine Upholds.bind ⟨hidle, fun fraction => ?_⟩
  refine Upholds.bind (upholds_endpoint hidle fun e => ?_)
  refine Upholds.bind (upholds_ofOption hidle fun timeout => ?_)
  refine Upholds.bind (upholds_locked hidle (Upholds.bind ⟨hidle, fun now => ?_⟩))
  refine upholds_enqueue hidle ?_ ?_
  · intro seq
    refine ⟨Books.ofSend_idle (some _), Upholds.bind ?_⟩
    refine ⟨Books.ofSend_idle (some _), fun result => ?_⟩
    cases result with
    | ok => exact sendEnded_idle (some _) (.inl rfl)
    | error cause => exact upholds_giveUp (seq, _) cause
  · intro err
    exact ⟨hidle, sendEnded_idle none (.inr rfl)⟩

theorem upholds_send {destination : SocketAddress} {m : Message}
    {ticket : Option Ticket} :
    (send destination m ticket).Upholds Books.OfSend .empty SendEnded := by
  have hidle {waiting : Bool} : Books.empty.OfSend waiting :=
    Books.ofSend_idle none
  have hended {r : Except SendError Unit} : SendEnded r .empty :=
    sendEnded_idle none (.inr rfl)
  unfold send
  split
  · exact hended
  · refine Upholds.bind (upholds_perform hidle (fun _ => rfl) fun written => ?_)
    cases written with
    | error err => exact hended
    | ok datagram =>
        dsimp only
        split
        · exact upholds_sendTracked
        · exact Upholds.bind ⟨hidle, fun sent => hended⟩

theorem upholds_request {r : Request} :
    (request r).Upholds Books.OfSend .empty SendEnded := by
  have hidle {waiting : Bool} : Books.empty.OfSend waiting :=
    Books.ofSend_idle none
  unfold request
  split
  · exact sendEnded_idle none (.inr rfl)
  · refine Upholds.bind (upholds_perform hidle Endpoint.inFlight_takeId ?_)
    intro id
    refine Upholds.bind ⟨hidle, fun random => Upholds.bind ?_⟩
    refine upholds_send.mono ?_
    intro sent b hsent
    exact ⟨hsent.1, (failure?_map sent _).symm ▸ hsent.2⟩

end Sending

end Call

/-! ## Operations -/

/-- The transport error that an operation reports of a send. -/
def Result.failure? : Result → Option TransportError
  | sent result => Coap.failure? result
  | requested result => Coap.failure? result
  | received _ => none
  | scanned => none

namespace Operation

/-- The operation sends a message. -/
def Sends : Operation → Prop
  | send _ _ _ => True
  | request _ => True
  | _ => False

/-- The books that an operation may have, by whether it waits. -/
def Permits : Operation → Bool → Books → Prop
  | send _ _ _, waiting, b => b.OfSend waiting
  | request _, waiting, b => b.OfSend waiting
  | receive, waiting, b => waiting = true → b.taken = [] ∧ b.told = []
  | poll, waiting, b => waiting = true →
      ∃ answered, Books.empty.Answers answered ∧ answered.Withholds b
  | checkQueues, waiting, b => waiting = true → b.told = []

/-- The books that an operation may have when it is over. -/
def Concludes (operation : Operation) (result : Result) (b : Books) : Prop :=
  operation.Permits false b ∧ (operation.Sends → b.EndedBy result.failure?)

variable {operation : Operation}

theorem Concludes.permits {result : Result} {b : Books}
    (h : operation.Concludes result b) : operation.Permits false b :=
  h.1

/-- Only the books of a send matter while it does not wait. -/
theorem permits_of_not_sends (h : ¬operation.Sends) (b : Books) :
    operation.Permits false b := by
  cases operation with
  | send destination m ticket => exact absurd trivial h
  | request r => exact absurd trivial h
  | receive | poll | checkQueues =>
      intro hwaits
      cases hwaits

theorem concludes_of_not_sends (h : ¬operation.Sends) (result : Result)
    (b : Books) : operation.Concludes result b :=
  ⟨permits_of_not_sends h b, fun hsends => absurd hsends h⟩

/-- Every operation keeps the books of its kind. -/
theorem upholds (operation : Operation) :
    operation.call.Upholds operation.Permits .empty operation.Concludes := by
  cases operation with
  | send destination m ticket =>
      refine Call.Upholds.bind (Call.upholds_send.mono ?_)
      intro r b hsent
      exact ⟨hsent.1, fun _ => hsent.2⟩
  | request r =>
      refine Call.Upholds.bind (Call.upholds_request.mono ?_)
      intro r b hsent
      exact ⟨hsent.1, fun _ => hsent.2⟩
  | receive =>
      have hnot : ¬Sends .receive := fun h => h
      refine Call.Upholds.bind (Call.upholds_receiveNext ?_ ?_ ?_)
      · exact permits_of_not_sends hnot
      · exact fun _ => ⟨rfl, rfl⟩
      · exact fun _ b _ => concludes_of_not_sends hnot _ b
  | poll =>
      have hnot : ¬Sends .poll := fun h => h
      refine Call.Upholds.bind (Call.Upholds.bind ?_)
      refine Call.upholds_receiveNext (permits_of_not_sends hnot) ?_ ?_
      · exact fun _ => ⟨.empty, .refl _, .refl _⟩
      · intro r b hb
        refine Call.Upholds.bind (Call.upholds_checkQueues ?_ ?_ ?_)
        · exact permits_of_not_sends hnot
        · exact fun _ hb' _ => ⟨b, hb, hb'⟩
        · exact concludes_of_not_sends hnot _
  | checkQueues =>
      have hnot : ¬Sends .checkQueues := fun h => h
      refine Call.Upholds.bind (Call.upholds_checkQueues ?_ ?_ ?_)
      · exact permits_of_not_sends hnot
      · exact fun _ hb _ => hb.told
      · exact concludes_of_not_sends hnot _

end Operation

/-! ## Threads -/

namespace Thread

/-- The books of a thread are of the kind of its operation, and what it has
found to be gone is gone. -/
def Recorded (q : InFlight) (th : Thread) : Prop :=
  ∃ gone, th.rest.Upholds th.operation.Permits
      ⟨th.queued, th.taken, th.told, gone⟩ th.operation.Concludes ∧
    ∀ seq ∈ gone, seq < q.nextSeq ∧ seq ∉ q.seqs

variable {q q' : InFlight} {th : Thread}

theorem recorded_start (q : InFlight) (operation : Operation) :
    (start operation).Recorded q :=
  ⟨[], operation.upholds, fun _ h => by cases h⟩

/-- What is gone stays gone. -/
theorem notMem_seqs_of_evolves (hevolves : q.Evolves q') {seq : Nat}
    (hseq : seq < q.nextSeq) (hgone : seq ∉ q.seqs) : seq ∉ q'.seqs := by
  intro hback
  obtain ⟨entry, hentry⟩ := InFlight.mem_seqs.mp hback
  have hjoined : (seq, entry) ∈ q.joined q' :=
    List.mem_filter.mpr ⟨hentry, decide_eq_true hgone⟩
  have hle := hevolves.fresh _ hjoined
  omega

/-- What other threads do does not concern the books of a thread. -/
theorem Recorded.of_evolves (h : th.Recorded q) (hevolves : q.Evolves q') :
    th.Recorded q' := by
  obtain ⟨gone, hbooks, hgone⟩ := h
  refine ⟨gone, hbooks, ?_⟩
  intro seq hseq
  obtain ⟨hlt, hnot⟩ := hgone seq hseq
  exact ⟨Nat.lt_of_lt_of_le hlt hevolves.nextSeq_le,
    notMem_seqs_of_evolves hevolves hlt hnot⟩

/-- The books of a thread when it is its turn. -/
theorem Recorded.permits (h : th.Recorded q) : ∃ gone,
    th.operation.Permits th.rest.waits ⟨th.queued, th.taken, th.told, gone⟩ ∧
      ∀ seq ∈ gone, seq ∉ q.seqs := by
  obtain ⟨gone, hbooks, hgone⟩ := h
  exact ⟨gone, hbooks.holds fun _ _ => Operation.Concludes.permits,
    fun seq hseq => (hgone seq hseq).2⟩

end Thread

/-! ## Worlds -/

namespace World

/-- A balanced world with a fit endpoint, in which all threads keep books of
the kind of their operations. -/
structure Recorded (w : World) : Prop where
  balanced : w.Balanced
  fits : ∃ config, w.Fits config
  threads : ∀ th ∈ w.threads, th.Recorded w.endpoint.inFlight

variable {w w' : World}

/-- What is in flight under the number of a message that was queued is this
message. -/
theorem Balanced.slot_of_entries (h : w.Balanced) {p p' : Nat × Entry}
    (hp : p ∈ w.queued) (hp' : p' ∈ w.endpoint.inFlight.entries)
    (hseq : p'.1 = p.1) : Slot.of p' = Slot.of p := by
  refine h.slot_eq hp ?_ hseq
  rw [h.balance]
  exact Multiset.mem_add.mpr (.inl (mem_slots.mpr ⟨p', hp', rfl⟩))

/-- What was taken out of flight was queued. -/
theorem Balanced.slot_of_taken (h : w.Balanced) {th : Thread}
    (hth : th ∈ w.threads) {p : Nat × Entry} (hp : p ∈ th.taken) :
    Slot.of p ∈ slots w.queued := by
  have htaken : p ∈ w.taken := List.mem_flatMap.mpr ⟨th, hth, hp⟩
  rw [h.balance]
  exact Multiset.mem_add.mpr (.inr (mem_slots.mpr ⟨p, htaken, rfl⟩))

/-- What may happen in a world keeps its threads recorded. -/
theorem Recorded.step (h : w.Recorded) (hstep : w.Step w') : w'.Recorded := by
  obtain ⟨config, hfits⟩ := h.fits
  refine ⟨h.balanced.step hstep, ⟨config, hfits.step hstep⟩, ?_⟩
  cases hstep with
  | start operation hfresh =>
      exact List.forall_mem_append.mpr ⟨h.threads,
        List.forall_mem_singleton.mpr (Thread.recorded_start _ operation)⟩
  | abandon hthreads hrest => exact h.threads
  | @act first last th action e rest hthreads haction hfree =>
      have hth : th ∈ w.threads := by
        rw [hthreads]
        exact List.mem_append_right _ List.mem_cons_self
      obtain ⟨hevolves, -⟩ :=
        (h.balanced.threads th hth).after h.balanced.ordered haction
      have hall := h.threads
      rw [hthreads, List.forall_mem_append, List.forall_mem_cons] at hall
      obtain ⟨hfirst, ⟨gone, hbooks, hgone⟩, hlast⟩ := hall
      have hown : ∀ p ∈ th.queued, p ∈ w.queued := fun p hp =>
        List.mem_flatMap.mpr ⟨th, hth, hp⟩
      have hrecognizes : Books.Recognizes
          ⟨th.queued, th.taken, th.told, gone⟩ w.endpoint.inFlight := by
        intro p hp p' hp' hseq
        exact congrArg Slot.id
          (h.balanced.slot_of_entries (hown p hp) hp' hseq)
      obtain ⟨gone', hmiss, hnext⟩ :=
        hbooks.step hfits.endpoint.sound hrecognizes haction
      have hafter : (th.after w.endpoint.inFlight e.inFlight action
          rest).Recorded e.inFlight := by
        refine ⟨gone', hnext, ?_⟩
        intro seq hseq
        rcases hmiss seq hseq with hold | ⟨hqueued, hnot⟩
        · obtain ⟨hlt, hnot⟩ := hgone seq hold
          exact ⟨Nat.lt_of_lt_of_le hlt hevolves.nextSeq_le,
            Thread.notMem_seqs_of_evolves hevolves hlt hnot⟩
        · obtain ⟨p, hp, rfl⟩ := List.mem_map.mp hqueued
          exact ⟨Nat.lt_of_lt_of_le (h.balanced.below p (hown p hp))
            hevolves.nextSeq_le, hnot⟩
      exact List.forall_mem_append.mpr
        ⟨fun th' hth' => (hfirst th' hth').of_evolves hevolves,
          List.forall_mem_cons.mpr
            ⟨hafter, fun th' hth' => (hlast th' hth').of_evolves hevolves⟩⟩

/-- It does not matter who holds the locks. -/
theorem Recorded.of_holder (h : w.Recorded) (holder : Lock → Option Nat) :
    Recorded { w with holder := holder } := by
  obtain ⟨hbalanced, ⟨config, hfits⟩, hthreads⟩ := h
  refine ⟨?_, ⟨config, hfits.endpoint, hfits.threads⟩, hthreads⟩
  exact ⟨hbalanced.1, hbalanced.2, hbalanced.3, hbalanced.4, hbalanced.5,
    hbalanced.6⟩

theorem recorded_start {config : Config} {random : UInt32} {e : Endpoint}
    (h : Endpoint.new config random = .ok e) : (start e).Recorded :=
  ⟨balanced_start h, (Reachable.start h).fits, fun _ hth => by cases hth⟩

theorem Reachable.recorded (h : w.Reachable) : w.Recorded := by
  induction h with
  | start hnew => exact recorded_start hnew
  | step _ hstep ih => exact ih.step hstep

end World

end Coap
