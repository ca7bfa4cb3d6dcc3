import NitrokeyFido2.Hid.Ledger

/-!
No message is answered twice.

The owners of messages are the buffer, while it puts one together, and the
dispatcher for each message that it processes. What they answer they answer
once, and every end but one frees the slot of the channel: a CBOR or MSG
message that is refused, because it is empty or because another one runs,
leaves its slot busy, and the timeout scan answers it again. A message that is
complete is processed again when one more continuation packet arrives for it,
and a CTAPHID_INIT that allocates the channel of a busy slot frees the wrong
one.
-/

namespace NitrokeyFido2.Hid

open Ctap (Env Call Stop ctapUserPresenceTestExtended ctapGenerateRng ctapRequest note)
open FirstMatch Resumption Transition

/-! ### The books of the layer -/

/-- The messages that were answered for good, in order. -/
def Layer.answered (s : Layer) : List ℕ := s.sent.filterMap (·.answers)

/-- The buffer owns the message that is not complete. -/
def CtapBuffer.owner (b : CtapBuffer) : List Owner :=
  if b.status = .buffering then [(b.message, b.cid)] else []

def Processing.owner (p : Processing) : Owner := (p.message, p.cid)

def Layer.owners (s : Layer) : List Owner := s.processing.map Processing.owner ++ s.buffer.owner

/-- The layer with these owners. -/
def Layer.Books (s : Layer) (owners : List Owner) : Prop :=
  Ledger s.cids s.answered s.messages owners

def Layer.Accounted (s : Layer) : Prop := s.Books s.owners

@[simp] theorem CtapBuffer.owner_reset (b : CtapBuffer) : b.reset.owner = [] := rfl

theorem CtapBuffer.owner_congr {b b' : CtapBuffer} (h : b'.control = b.control) :
    b'.owner = b.owner := by
  unfold owner
  rw [CtapBuffer.status_congr h]
  simp only [control, Prod.mk.injEq] at h
  rw [h.1, h.2.2.2.2.2]

@[simp] theorem Layer.answered_numbered (s : Layer) (pkt : Packet) :
    (s.numbered pkt).answered = s.answered := by
  rw [answered, sent_numbered]
  rfl

@[simp] theorem Layer.processing_numbered (s : Layer) (pkt : Packet) :
    (s.numbered pkt).processing = s.processing := by
  unfold Layer.numbered
  split <;> rfl

@[simp] theorem Layer.isBusy_numbered (s : Layer) (pkt : Packet) :
    (s.numbered pkt).isBusy = s.isBusy := by
  unfold Layer.numbered
  split <;> rfl

theorem Layer.answered_refused (s : Layer) (pkt : Packet) (code : UInt8) :
    (s.refused pkt code).answered = s.answered ++ (s.answeredBy pkt).toList := by
  unfold answered refused
  rw [List.filterMap_append]
  cases s.answeredBy pkt <;> rfl

theorem Layer.Accounted.congr {s t : Layer} (h : s.Accounted) (hcids : t.cids = s.cids)
    (hbuffer : t.buffer.control = s.buffer.control) (hanswered : t.answered = s.answered)
    (hmessages : t.messages = s.messages) (hprocessing : t.processing = s.processing) :
    t.Accounted := by
  unfold Accounted Books owners at *
  rw [hcids, hanswered, hmessages, hprocessing, CtapBuffer.owner_congr hbuffer]
  exact h

/-! ### Packets -/

/-- A CTAPHID_INIT on the broadcast channel is given the channel of a busy
slot. -/
def Layer.AllocatesBusy (s : Layer) (pkt : Packet) : Prop :=
  pkt.isInit = true ∧ pkt.len = 8 ∧ pkt.cid = ctaphidBroadcastCid ∧
    (∃ c ∈ s.cids.take usedSlots, c.busy = false) ∧
      ∃ c ∈ s.cids, c.busy = true ∧ c.cid = nextCid s.lastNewCid

/-- One more continuation packet arrives for a message that is complete. -/
def Layer.RepeatsMessage (s : Layer) (pkt : Packet) : Prop :=
  pkt.isCont = true ∧ pkt.cid ≠ ctaphidBroadcastCid ∧ cidExists pkt.cid s.cids = true ∧
    s.buffer.status = .buffered ∧ pkt.cid = s.buffer.cid

/-- The packet completes a CBOR or MSG message that is empty or comes while
another one runs. -/
def Layer.RefusesTransaction (s : Layer) (now : UInt32) (pkt : Packet) : Prop :=
  (s.receive now pkt).1 = .dispatch ∧
    ((s.receive now pkt).2.buffer.cmd = ctaphidCbor ∨
      (s.receive now pkt).2.buffer.cmd = ctaphidMsg) ∧
    ((s.receive now pkt).2.buffer.bcnt = 0 ∨ s.isBusy = true)

instance (s : Layer) (pkt : Packet) : Decidable (s.AllocatesBusy pkt) :=
  inferInstanceAs (Decidable (_ ∧ _))

instance (s : Layer) (pkt : Packet) : Decidable (s.RepeatsMessage pkt) :=
  inferInstanceAs (Decidable (_ ∧ _))

instance (s : Layer) (now : UInt32) (pkt : Packet) : Decidable (s.RefusesTransaction now pkt) :=
  inferInstanceAs (Decidable (_ ∧ _))

/-- The books behind a packet: a message that is complete is owned by whoever
processes it. -/
def Layer.Booked (pkt : Packet) : Received × Layer → Prop
  | (.done, t) => t.Accounted
  | (.dispatch, t) => t.Books ((t.buffer.message, pkt.cid) :: t.owners)
  | (.exited, t) => t.answered.Nodup

section Packets

variable {s : Layer} {now : UInt32} {pkt : Packet}

/-- A packet that begins a message makes its channel an owner, and nobody reads
the number on the way. -/
theorem Layer.Accounted.numbered (h : s.Accounted) (hcont : pkt.isCont = false) (cid : UInt32) :
    (s.numbered pkt).Books (((s.numbered pkt).messages, cid) :: (s.numbered pkt).owners) := by
  unfold Layer.numbered
  rw [if_neg (Bool.eq_false_iff.mp hcont)]
  exact Ledger.number h cid

/-- A refused packet answers a message and frees its slot. -/
theorem Layer.Books.refused {m : ℕ} {code : UInt8} {owners : List Owner}
    (h : s.Books ((m, pkt.cid) :: owners)) (hanswers : s.answeredBy pkt = some m)
    (howners : (s.refused pkt code).owners.Sublist owners) : (s.refused pkt code).Accounted := by
  unfold Accounted Books
  rw [answered_refused, hanswers]
  exact (Ledger.settle h).drop howners

/-- The buffer owns nothing more when a packet was refused. -/
theorem Layer.owners_refused (s : Layer) (pkt : Packet) (code : UInt8) :
    (s.refused pkt code).owners.Sublist s.owners := by
  refine (List.Sublist.refl _).append ?_
  show (CtapBuffer.owner (if code = ctap1ErrInvalidSeq then s.buffer.reset else s.buffer)).Sublist
    s.buffer.owner
  split
  · rw [CtapBuffer.owner_reset]
    exact List.nil_sublist _
  · exact List.Sublist.refl _

variable (now) in
/-- A slot is only given to a channel that has none. -/
theorem Layer.Books.opened {owners : List Owner} (h : s.Books owners)
    (howner : (s.messages, pkt.cid) ∈ owners) :
    Layer.Books { s with cids := s.opened now pkt } owners := by
  unfold Layer.opened
  split
  case isFalse => exact h
  case isTrue hopen =>
    cases hadd : addCid now s.messages pkt.cid s.cids with
    | none => exact h
    | some cids =>
        refine Ledger.add h howner hadd fun c hc hbusy hcid => ?_
        have hexists := HasBusy.exists ⟨c, hc, hcid, hbusy⟩ h.spared
        rw [hopen.1] at hexists
        exact Bool.false_ne_true hexists

/-- A packet is put into the buffer for a message that has an owner. -/
theorem Layer.Books.accepted (h : s.Books ((s.buffer.message, pkt.cid) :: s.processing.map (·.owner)))
    (hcid : s.buffer.cid = pkt.cid) : Layer.Booked pkt (s.followUp pkt (.buffer s.buffer.status)) := by
  cases hstatus : s.buffer.status with
  | buffering =>
      have howner : s.buffer.owner = [(s.buffer.message, pkt.cid)] := by
        rw [CtapBuffer.owner, if_pos hstatus, hcid]
      show s.Books (s.processing.map (·.owner) ++ s.buffer.owner)
      rw [howner]
      exact Ledger.perm h (List.perm_append_singleton _ _)
  | empty | buffered =>
      have howner : s.buffer.owner = [] := by
        rw [CtapBuffer.owner, if_neg (by simp [hstatus])]
      show s.Books ((s.buffer.message, pkt.cid) :: (s.processing.map (·.owner) ++ s.buffer.owner))
      rw [howner, List.append_nil]
      exact h

/-- The owners that do not put a message together. -/
theorem Layer.owners_of_status (h : s.buffer.status ≠ .buffering) :
    s.owners = s.processing.map (·.owner) := by
  rw [owners, CtapBuffer.owner, if_neg h, List.append_nil]

theorem Layer.answeredBy_of_isInit (hcont : pkt.isCont = false) :
    s.answeredBy pkt = some s.messages := by
  rw [answeredBy, if_neg (Bool.eq_false_iff.mp hcont)]

theorem Layer.numbered_of_isCont (hcont : pkt.isCont = true) : s.numbered pkt = s := by
  rw [numbered, if_pos hcont]

/-- The owners while a message is put together. -/
theorem Layer.Accounted.buffering (h : s.Accounted) (hstatus : s.buffer.status = .buffering) :
    s.Books ((s.buffer.message, s.buffer.cid) :: s.processing.map (·.owner)) := by
  have howner : s.buffer.owner = [(s.buffer.message, s.buffer.cid)] := by
    rw [CtapBuffer.owner, if_pos hstatus]
  refine Ledger.perm h ?_
  rw [Layer.owners, howner]
  exact (List.perm_append_singleton _ _).symm

theorem buffering_of_not_repeats (hrepeats : ¬ s.RepeatsMessage pkt) (hpkt : pkt.Ordinary)
    (hcont : pkt.isCont = true) (hexists : cidExists pkt.cid s.cids = true)
    (hstatus : s.buffer.status ≠ .empty) (hcid : pkt.cid = s.buffer.cid) :
    s.buffer.status = .buffering := by
  cases hs : s.buffer.status with
  | empty => exact absurd hs hstatus
  | buffering => rfl
  | buffered => exact absurd ⟨hcont, hpkt.cid, hexists, hs, hcid⟩ hrepeats

variable (now) in
/-- The books behind every packet. -/
theorem Layer.Accounted.receive (h : s.Accounted) (hbusy : ¬ s.AllocatesBusy pkt)
    (hrepeats : ¬ s.RepeatsMessage pkt) : Layer.Booked pkt (s.receive now pkt) := by
  obtain ⟨status, t, hbuffers, hreceive⟩ := receive_cases s now pkt
  rw [hreceive]
  -- what an error does that answers the message the packet begins
  have hrefuse {code : UInt8} (hcont : pkt.isCont = false) :
      Layer.Booked pkt ((s.numbered pkt).followUp pkt (.error code)) :=
    (h.numbered hcont pkt.cid).refused (Layer.answeredBy_of_isInit hcont)
      ((s.numbered pkt).owners_refused pkt code)
  cases hbuffers with
  | initLength hinit | initChannel hinit => exact hrefuse (Packet.isCont_of_isInit hinit)
  | initFull last hinit =>
      have hcont := Packet.isCont_of_isInit hinit
      refine Layer.Books.refused ?_ (Layer.answeredBy_of_isInit hcont) (Layer.owners_refused _ pkt _)
      refine Ledger.drop (h.numbered hcont pkt.cid) (List.Sublist.cons_cons _ ?_)
      exact (List.Sublist.refl _).append (List.nil_sublist _)
  | init newcid last cids hinit hlen hcid hassign =>
      have hcont := Packet.isCont_of_isInit hinit
      have hnumbered := h.numbered hcont newcid
      have hassigned : Ledger cids (s.numbered pkt).answered (s.numbered pkt).messages
          (((s.numbered pkt).messages, newcid) :: (s.numbered pkt).owners) := by
        cases hassign with
        | allocated _ hbroadcast hadd =>
            refine Ledger.add hnumbered List.mem_cons_self hadd fun c hc hbusy' heq => hbusy ?_
            rw [Layer.cids_numbered] at hc hadd
            rw [Layer.lastNewCid_numbered] at heq
            refine ⟨hinit, hlen, hbroadcast, ?_, c, hc, hbusy', heq⟩
            simpa using changeFirst_isSome.mp (Option.isSome_of_eq_some hadd)
        | refreshed _ _ hrefresh => exact Ledger.refresh hnumbered List.mem_cons_self hrefresh
        | added _ _ hexists hadd =>
            refine Ledger.add hnumbered List.mem_cons_self hadd fun c hc hbusy' heq => ?_
            rw [HasBusy.exists ⟨c, hc, heq, hbusy'⟩ hnumbered.spared] at hexists
            exact Bool.noConfusion hexists
      have hsettled := hassigned.settle
      show Ledger _ (List.filterMap _ (_ ++ _)) _ _
      rw [List.filterMap_append]
      exact hsettled.drop ((List.Sublist.refl _).append (List.nil_sublist _))
  | broadcast hinit hcid =>
      by_cases hcont : pkt.isCont = true
      · have hnone : (s.numbered pkt).answeredBy pkt = none := by
          rw [Layer.answeredBy, if_pos hcont, if_pos hcid]
        rw [Layer.numbered_of_isCont hcont] at hnone ⊢
        show (s.refused pkt _).Accounted
        unfold Layer.Accounted Layer.Books
        rw [Layer.answered_refused, hnone, Option.toList_none, List.append_nil]
        exact (Ledger.calm h (calmer_cidDel pkt.cid s.cids)).drop (s.owners_refused pkt _)
      · exact hrefuse (Bool.eq_false_iff.mpr hcont)
  | interrupted hpkt hcont | busy hpkt hcont => exact hrefuse hcont
  | stray hpkt hcont =>
      rw [Layer.numbered_of_isCont hcont]
      exact h
  | tooLong hpkt hcont =>
      refine Layer.Books.refused ?_ (Layer.answeredBy_of_isInit hcont) (Layer.owners_refused _ pkt _)
      exact (h.numbered hcont pkt.cid).opened now List.mem_cons_self
  | outOfOrder hpkt hcont hexists hstatus hcid hseq =>
      rw [Layer.numbered_of_isCont hcont] at hexists hstatus hcid ⊢
      have hbooks := h.buffering (buffering_of_not_repeats hrepeats hpkt hcont hexists hstatus hcid)
      rw [← hcid] at hbooks
      refine Layer.Books.refused (m := s.buffer.message) hbooks ?_ ?_
      · rw [Layer.answeredBy, if_pos hcont, if_neg hpkt.cid]
      · show (s.processing.map Processing.owner ++ []).Sublist _
        rw [List.append_nil]
  | begun cids hpkt hcont hlen hstatus hcids =>
      have hbooks := (h.numbered hcont pkt.cid).opened now List.mem_cons_self
      rw [Layer.owners_of_status hstatus] at hbooks
      have hrefreshed := Ledger.refresh hbooks List.mem_cons_self hcids
      rw [CtapBuffer.bufferPacket_begin hcont]
      exact Layer.Books.accepted hrefreshed rfl
  | continued cids hpkt hcont hstatus hcid hseq hcids =>
      rw [Layer.numbered_of_isCont hcont] at hstatus hcid hseq hcids ⊢
      have hexists := cidExists_of_cidRefresh hcids
      have hbooks := h.buffering (buffering_of_not_repeats hrepeats hpkt hcont hexists hstatus hcid)
      rw [← hcid] at hbooks
      have hrefreshed := Ledger.refresh hbooks List.mem_cons_self hcids
      rw [CtapBuffer.bufferPacket_continue hcont hseq]
      exact Layer.Books.accepted hrefreshed hcid.symm

end Packets

/-! ### Processing -/

/-- The same messages are processed. -/
def SameProcessing (w t : World) : Prop := t.hid.processing = w.hid.processing

instance : IsPreorder World SameProcessing where
  refl _ := rfl
  trans _ _ _ h h' := h'.trans h

@[simp] theorem Layer.processing_setStatus (s : Layer) (st : Ctap.HidStatus) :
    (s.setStatus st).processing = s.processing := by
  unfold Layer.setStatus
  split <;> rfl

@[simp] theorem Layer.messages_setStatus (s : Layer) (st : Ctap.HidStatus) :
    (s.setStatus st).messages = s.messages := by
  unfold Layer.setStatus
  split <;> rfl

@[simp] theorem Layer.answered_setStatus (s : Layer) (st : Ctap.HidStatus) :
    (s.setStatus st).answered = s.answered := by
  unfold Layer.setStatus
  split
  · show List.filterMap _ (_ ++ _) = _
    rw [List.filterMap_append]
    exact List.append_nil _
  · rfl

instance : HidRule (Layer.Rule Layer.Accounted) SameProcessing where
  auth _ _ h := ⟨h, rfl⟩
  settings _ _ h := ⟨h, rfl⟩
  early _ _ h := ⟨h, rfl⟩
  data w _ h := ⟨Layer.Accounted.congr h rfl rfl rfl rfl rfl, rfl⟩
  status w st h := by
    have hbuffer := congrArg CtapBuffer.control (w.hid.buffer_setStatus st)
    exact ⟨Layer.Accounted.congr h (w.hid.cids_setStatus st) hbuffer (w.hid.answered_setStatus st)
      (w.hid.messages_setStatus st) (w.hid.processing_setStatus st), w.hid.processing_setStatus st⟩

/-- The message is processed and not answered. -/
structure Layer.Open (p : Processing) (ps : List Processing) (s : Layer) : Prop where
  processing : s.processing = p :: ps
  accounted : s.Accounted

/-- The message is processed and answered, unless it needs no answer. -/
structure Layer.Closing (p : Processing) (ps : List Processing) (s : Layer) : Prop where
  processing : s.processing = p :: ps
  ledger : ∃ answered, (s.answered = answered ∨ s.answered = answered ++ [p.message]) ∧
    Ledger s.cids answered s.messages s.owners

section Phases

variable {s t : Layer} {p : Processing} {ps : List Processing}

theorem Layer.Open.closing (h : s.Open p ps) : s.Closing p ps :=
  ⟨h.processing, s.answered, .inl rfl, h.accounted⟩

/-- The one answer to the message. -/
theorem Layer.Open.answer (h : s.Open p ps) (hcids : t.cids = s.cids) (hbuffer : t.buffer = s.buffer)
    (hmessages : t.messages = s.messages) (hprocessing : t.processing = s.processing) {sent : Sent}
    (hsent : t.sent = s.sent ++ [sent]) (hanswers : sent.answers = some p.message) :
    t.Closing p ps := by
  refine ⟨hprocessing.trans h.processing, s.answered, .inr ?_, ?_⟩
  · rw [Layer.answered, hsent, List.filterMap_append, List.filterMap_cons_some hanswers,
      List.filterMap_nil, Layer.answered]
  · rw [Layer.owners, hcids, hbuffer, hmessages, hprocessing]
    exact h.accounted

/-- A message begins to be processed. -/
theorem Layer.Books.begin (h : s.Books (p.owner :: s.owners)) :
    Layer.Open p s.processing { s with processing := p :: s.processing } :=
  ⟨rfl, h⟩

/-- The end frees the slot of the channel, and nobody owns the message. -/
theorem Layer.Closing.finish (h : s.Closing p ps) :
    Layer.Accounted { s with
      cids := cidDel p.cid s.cids, buffer := s.buffer.reset, processing := s.processing.tail } := by
  obtain ⟨hprocessing, answered, hanswered, hledger⟩ := h
  have howners : s.owners = p.owner :: (ps.map (·.owner) ++ s.buffer.owner) := by
    rw [Layer.owners, hprocessing]
    rfl
  rw [howners] at hledger
  have hsub : (ps.map Processing.owner ++ []).Sublist
      (ps.map Processing.owner ++ s.buffer.owner) :=
    (List.Sublist.refl _).append (List.nil_sublist _)
  unfold Layer.Accounted Layer.Books Layer.owners
  rw [hprocessing]
  rcases hanswered with h | h
  · show Ledger _ s.answered _ _
    rw [h]
    refine (hledger.calm (calmer_cidDel p.cid s.cids)).drop (hsub.trans ?_)
    exact List.sublist_cons_self _ _
  · show Ledger _ s.answered _ _
    rw [h]
    exact hledger.settle.drop hsub

end Phases

/-! ### The dispatcher -/

variable (env : Env)

/-- The layer has the property of what is returned; where the device stops, no
message was answered twice. -/
def Finally {α : Type} (P : α → Layer → Prop) (r : Except Stop α × World) : Prop :=
  match r.1 with
  | .ok a => P a r.2.hid
  | .error _ => r.2.hid.answered.Nodup

/-- The routine relies on nobody touching its message while it waits. -/
abbrev Reaches {α : Type} (m : HidM α) (P : α → Layer → Prop) (w : World) : Prop :=
  (m w).Ensures (Layer.Rule Layer.Accounted) SameProcessing AnyAnswer (Finally P)

section Dispatch

variable {w : World} {p : Processing} {ps : List Processing} {α β : Type}

theorem Reaches.bind {m : HidM α} {f : α → HidM β} {P : α → Layer → Prop} {Q : β → Layer → Prop}
    (hm : Reaches m P w) (hf : ∀ a t, P a t.hid → Reaches (f a) Q t) : Reaches (m >>= f) Q w := by
  refine Routine.ensures_bind (hm.mono fun r hr => ?_)
  obtain ⟨e | a, t⟩ := r
  · exact hr
  · exact hf a t hr

/-- What does not touch the books leaves the message open. -/
theorem Layer.Open.reaches (m : HidM α)
    [hm : Routine.Respects (Layer.Rule Layer.Accounted) SameProcessing AnyAnswer m]
    (h : w.hid.Open p ps) : Reaches m (fun _ s => s.Open p ps) w := by
  refine (hm.ensures w h.accounted).mono fun r hr => ?_
  obtain ⟨e | a, t⟩ := r
  · exact hr.1.nodup
  · exact ⟨hr.2.trans h.processing, hr.1⟩

theorem reaches_pure {P : α → Layer → Prop} {a : α} (h : P a w.hid) : Reaches (pure a) P w := h

theorem reaches_stop {P : α → Layer → Prop} (h : w.hid.answered.Nodup) :
    Reaches (liftM (Proc.stop .halted : WorldM α)) P w := h

theorem reaches_modifyHid {f : Layer → Layer} {P : Unit → Layer → Prop} (h : P () (f w.hid)) :
    Reaches (liftM (modifyHid f)) P w := h

theorem reaches_reply {bcnt : ℕ} {pieces : List (List UInt8)} (h : w.hid.Open p ps) :
    Reaches (liftM (reply p.message bcnt pieces)) (fun _ s => s.Closing p ps) w :=
  reaches_modifyHid (h.answer rfl rfl rfl rfl rfl rfl)

theorem reaches_sendError {code : UInt8} (h : w.hid.Open p ps) :
    Reaches (liftM (sendError p code)) (fun _ s => s.Closing p ps) w :=
  reaches_modifyHid (h.answer rfl rfl rfl rfl rfl rfl)

theorem reaches_replyTo {bcnt : ℕ} {pieces : List (List UInt8)} (h : w.hid.Open p ps) :
    Reaches (liftM (replyTo p bcnt pieces)) (fun _ s => s.Closing p ps) w := by
  unfold replyTo
  have hopen : Reaches (liftM (modifyHid fun s =>
      { s with wb := { s.wb with bcnt := bcnt, cid := p.cid, cmd := p.cmd } }))
      (fun _ s => s.Open p ps) w := reaches_modifyHid ⟨h.processing, h.accounted⟩
  exact hopen.bind fun _ _ ht => reaches_reply ht

theorem reaches_setBusy {b : Bool} (h : w.hid.Closing p ps) :
    Reaches (liftM (setBusy b)) (fun _ s => s.Closing p ps) w :=
  reaches_modifyHid ⟨h.processing, h.ledger⟩

theorem reaches_finishDispatch (h : w.hid.Closing p ps) :
    Reaches (liftM (finishDispatch p)) (fun _ s => s.Accounted ∧ s.processing = ps) w :=
  ⟨h.finish, congrArg List.tail h.processing⟩

/-- A vendor command answers its message, or leaves that to the dispatcher. -/
theorem reaches_ctaphidCustomCommand (rd : Readings) (h : w.hid.Open p ps) :
    Reaches (ctaphidCustomCommand env rd p)
      (fun known s => if known then s.Closing p ps else s.Open p ps) w := by
  have hreplied {t : World} {bcnt : ℕ} {pieces : List (List UInt8)} (ht : t.hid.Open p ps) :
      Reaches (do
          reply p.message bcnt pieces
          pure true)
        (fun known s => if known then s.Closing p ps else s.Open p ps) t :=
    (reaches_reply ht).bind fun _ _ hclosing => reaches_pure hclosing
  unfold ctaphidCustomCommand
  split
  · refine (h.reaches _).bind fun ret t ht => ?_
    split
    · exact (ht.reaches _).bind fun _ _ ht => hreplied ht
    · exact reaches_pure ht
  split
  · refine (h.reaches _).bind fun ret t ht => ?_
    split
    · exact (ht.reaches _).bind fun _ _ ht => reaches_stop ht.accounted.nodup
    · exact hreplied ht
  split
  · refine (h.reaches _).bind fun _ _ ht => (ht.reaches _).bind fun _ _ ht => ?_
    exact (ht.reaches _).bind fun _ _ ht => hreplied ht
  split
  · refine (h.reaches _).bind fun _ _ ht => (ht.reaches _).bind fun _ _ ht => ?_
    refine (ht.reaches _).bind fun _ _ ht => (ht.reaches _).bind fun _ _ ht => ?_
    exact hreplied ht
  split
  · refine (h.reaches _).bind fun _ _ ht => (ht.reaches _).bind fun _ _ ht => ?_
    exact (ht.reaches _).bind fun _ _ ht => hreplied ht
  split
  · have hsettings : Proc.Keeps (Step (Layer.Rule Layer.Accounted) SameProcessing)
        (Proc.modify fun w => { w with settings := w.settings ||| 2 } : WorldM Unit) :=
      Proc.Keeps.modify fun w hw => HidRule.settings w _ hw
    exact (h.reaches _).bind fun _ _ ht => hreplied ht
  · exact reaches_pure h

theorem reaches_handleCbor {len : ℕ} (h : w.hid.Open p ps) :
    Reaches (handleCbor env p len) (fun _ s => s.Closing p ps) w := by
  unfold handleCbor
  refine (h.reaches _).bind fun _ _ ht => (ht.reaches _).bind fun _ _ ht => ?_
  exact reaches_replyTo ht

theorem reaches_handleMsg (h : w.hid.Open p ps) :
    Reaches (handleMsg env p) (fun _ s => s.Closing p ps) w := by
  unfold handleMsg
  exact (h.reaches _).bind fun _ _ ht => reaches_replyTo ht

theorem reaches_beginProcessing (h : w.hid.Books (p.owner :: w.hid.owners))
    (hps : w.hid.processing = ps) :
    Reaches (liftM (beginProcessing p)) (fun _ s => s.Open p ps) w :=
  reaches_modifyHid (hps ▸ h.begin)

/-- A CBOR or MSG message that is not refused. -/
theorem reaches_dispatchTransaction {len : ℕ} {request : HidM Unit}
    (h : w.hid.Books (p.owner :: w.hid.owners)) (hps : w.hid.processing = ps)
    (haccepted : ¬ (len = 0 ∨ w.hid.isBusy = true))
    (hrequest : ∀ t : World, t.hid.Open { p with transaction := true } ps →
      Reaches request (fun _ s => s.Closing { p with transaction := true } ps) t) :
    Reaches (dispatchTransaction p len request) (fun _ s => s.Accounted ∧ s.processing = ps) w := by
  obtain ⟨hlen, hbusy⟩ := not_or.mp haccepted
  unfold dispatchTransaction Reaches
  rw [Routine.get_bind, if_neg hlen, if_neg hbusy]
  have hset : Reaches (liftM (setBusy true))
      (fun _ s => s.Books (p.owner :: s.owners) ∧ s.processing = ps) w := reaches_modifyHid ⟨h, hps⟩
  refine hset.bind fun _ t ht => ?_
  refine (reaches_beginProcessing (p := { p with transaction := true }) ht.1 ht.2).bind fun _ _ ht => ?_
  refine (hrequest _ ht).bind fun _ _ ht => (reaches_setBusy ht).bind fun _ _ ht => ?_
  exact reaches_finishDispatch (p := { p with transaction := true }) ht

theorem reaches_dispatch (rd : Readings) {len : ℕ} (h : w.hid.Books (p.owner :: w.hid.owners))
    (hps : w.hid.processing = ps)
    (haccepted : p.cmd = ctaphidCbor ∨ p.cmd = ctaphidMsg → ¬ (len = 0 ∨ w.hid.isBusy = true)) :
    Reaches (dispatch env rd p len) (fun _ s => s.Accounted ∧ s.processing = ps) w := by
  unfold dispatch
  split
  · exact reaches_stop h.nodup
  split
  case isTrue hcmd =>
    exact reaches_dispatchTransaction h hps (haccepted (.inl hcmd)) fun t ht => reaches_handleCbor env ht
  split
  case isTrue hcmd =>
    exact reaches_dispatchTransaction h hps (haccepted (.inr hcmd)) fun t ht => reaches_handleMsg env ht
  refine (reaches_beginProcessing h hps).bind fun _ t ht => ?_
  refine Reaches.bind (P := fun _ s => s.Closing p ps) ?_ fun _ _ ht => reaches_finishDispatch ht
  split
  · exact (ht.reaches _).bind fun _ _ ht => reaches_reply ht
  split
  · exact reaches_reply ht
  split
  · exact reaches_setBusy ht.closing
  · refine (reaches_ctaphidCustomCommand env rd ht).bind fun known t hknown => ?_
    split
    case isTrue hk =>
      rw [if_pos hk] at hknown
      exact reaches_setBusy hknown
    case isFalse hk =>
      rw [if_neg hk] at hknown
      exact reaches_sendError hknown

/-- A packet that is only received changes neither what is processed nor the
flag. -/
theorem processing_receive (s : Layer) (now : UInt32) (pkt : Packet) :
    (s.receive now pkt).2.processing = s.processing ∧
      (s.receive now pkt).2.isBusy = s.isBusy := by
  obtain ⟨status, t, hbuffers, hreceive⟩ := receive_cases s now pkt
  have hfollow : (t.followUp pkt status).2.processing = t.processing ∧
      (t.followUp pkt status).2.isBusy = t.isBusy := by
    rcases status with _ | _ | (_ | _ | _) | _ <;> exact ⟨rfl, rfl⟩
  have ht : t.processing = (s.numbered pkt).processing ∧ t.isBusy = (s.numbered pkt).isBusy := by
    cases hbuffers <;> exact ⟨rfl, rfl⟩
  rw [hreceive, hfollow.1, hfollow.2, ht.1, ht.2, Layer.processing_numbered, Layer.isBusy_numbered]
  exact ⟨rfl, rfl⟩

/-- The books behind every packet that is handled. -/
theorem guards_of_accounted {rd : Readings} {pkt : Packet} (h : w.hid.Accounted)
    (hrefuses : ¬ w.hid.RefusesTransaction rd.now pkt) (hrepeats : ¬ w.hid.RepeatsMessage pkt)
    (hbusy : ¬ w.hid.AllocatesBusy pkt) :
    (ctaphidHandlePacket env rd pkt w).Guards (Layer.Rule Layer.Accounted) SameProcessing AnyAnswer
      (Layer.Rule fun s => s.answered.Nodup) (fun _ => True) w := by
  have hbooked := h.receive rd.now hbusy hrepeats
  obtain ⟨hprocessing, hisBusy⟩ := processing_receive w.hid rd.now pkt
  unfold Layer.RefusesTransaction at hrefuses
  rw [ctaphidHandlePacket_apply]
  generalize w.hid.receive rd.now pkt = r at hbooked hprocessing hisBusy hrefuses
  obtain ⟨received, s⟩ := r
  cases received with
  | done => exact ⟨hbooked, hprocessing, trivial⟩
  | exited => exact hbooked
  | dispatch =>
      have haccepted : s.buffer.cmd = ctaphidCbor ∨ s.buffer.cmd = ctaphidMsg →
          ¬ (s.buffer.bcnt = 0 ∨ s.isBusy = true) := by
        intro hcmd hbusy
        exact hrefuses ⟨rfl, hcmd, hisBusy ▸ hbusy⟩
      have hdispatch := reaches_dispatch env (w := w.withHid s)
        (p := ⟨s.buffer.message, pkt.cid, s.buffer.cmd, false⟩) rd hbooked rfl haccepted
      refine hdispatch.mono fun r hr => ?_
      obtain ⟨e | a, t⟩ := r
      · exact hr
      · exact ⟨hr.1, hr.2.trans hprocessing, trivial⟩

end Dispatch

/-! ### Every run -/

theorem Layer.Accounted.checkTimeouts {s : Layer} (h : s.Accounted) (hidle : s.processing = [])
    (now : UInt32) : (s.checkTimeouts now).Accounted := by
  have hsent : ((s.cids.filter (·.expired now)).map Cid.timeoutError).filterMap (·.answers) =
      (s.cids.filter (·.expired now)).map (·.message) := by
    rw [List.filterMap_map, ← List.filterMap_eq_map]
    rfl
  have howners : s.owners = s.buffer.owner := by
    rw [Layer.owners, hidle, List.map_nil, List.nil_append]
  unfold Layer.Accounted Layer.Books at h ⊢
  rw [howners] at h
  rw [Layer.checkTimeouts_eq, Layer.owners, Layer.answered]
  dsimp only
  rw [hidle, List.map_nil, List.nil_append, List.filterMap_append, hsent]
  split
  case isTrue => exact (h.drop (List.nil_sublist _)).scan fun o ho => absurd ho List.not_mem_nil
  case isFalse hdue =>
    refine h.scan fun o ho c hc hexp hcid => hdue ?_
    -- the buffer has the channel of the message that it owns
    have howner : o.2 = s.buffer.cid := by
      unfold CtapBuffer.owner at ho
      split at ho
      · rw [List.mem_singleton.mp ho]
      · exact absurd ho List.not_mem_nil
    exact List.any_eq_true.mpr ⟨c, hc, by simp [hexp, hcid, howner]⟩

/-- The device keeps its books, and nothing is processed below its stack. -/
abbrev Accountable (d : Device) : Prop :=
  d.Ok scheduler (Layer.Rule Layer.Accounted) SameProcessing AnyAnswer
    (fun w => w.hid.processing = []) (Layer.Rule fun s => s.answered.Nodup)

theorem accounted_zero : Layer.zero.Accounted := by
  have hfree : ∀ c ∈ Layer.zero.cids, c.busy ≠ true := by decide
  exact {
    nodup := List.nodup_nil
    counted := fun m hm => absurd hm List.not_mem_nil
    spared := by decide
    foremost := List.pairwise_of_forall_mem_list fun a _ b hb hbusy => absurd hbusy (hfree b hb)
    distinct := List.pairwise_of_forall_mem_list fun a ha b _ hbusy => absurd hbusy (hfree a ha)
    slot := fun c hc hbusy => absurd hbusy (hfree c hc)
    owners_nodup := List.nodup_nil
    owner := fun o ho => absurd ho List.not_mem_nil
    owned := fun o ho => absurd ho List.not_mem_nil }

theorem Accountable.powerUp (w : World) : Accountable (powerUp w) := ⟨accounted_zero, rfl⟩

theorem Accountable.step (d : Device) (e : Event) (hd : Accountable d)
    (he : Expects (fun s now pkt =>
      ¬ s.RefusesTransaction now pkt ∧ ¬ s.RepeatsMessage pkt ∧ ¬ s.AllocatesBusy pkt) d e) :
    Accountable (step env d e) := by
  refine step_ok env ?_ ?_ ?_ d e hd he
  · exact fun w t hw hG => hG.trans hw
  · exact fun w rd pkt hI hP => guards_of_accounted env hI hP.1 hP.2.1 hP.2.2
  · exact fun w now hI hD => ⟨Layer.Accounted.checkTimeouts hI hD now, hD⟩

/-- In every run in which no CBOR or MSG message is refused, no complete message
is continued and no CTAPHID_INIT allocates the channel of a busy slot, no
message is answered twice. -/
theorem answered_once (w : World) (es : List Event)
    (hes : Along (step env)
      (Expects fun s now pkt =>
        ¬ s.RefusesTransaction now pkt ∧ ¬ s.RepeatsMessage pkt ∧ ¬ s.AllocatesBusy pkt)
      (powerUp w) es) :
    (run (step env) (powerUp w) es).state.hid.answered.Nodup := by
  have hok : Accountable (run (step env) (powerUp w) es) :=
    invariant_run (Accountable.step env) (Accountable.powerUp w) hes
  unfold Accountable Nested.Ok at hok
  split at hok
  · exact hok.1.nodup
  · exact hok

theorem answered_once_demo :
    (run (step Ctap.Sample.env) (powerUp Sample.world) allocatedRun).state.hid.answered.Nodup :=
  answered_once Ctap.Sample.env Sample.world allocatedRun (by decide +kernel)

/-- An empty CBOR message on channel 5. -/
def emptyRun : List Event := [Sample.packet 0 [5, 0, 0, 0, 0x90, 0, 0], .checkTimeouts 750]

/-- A request to enter the bootloader, which waits for the user, is continued. -/
def repeatedRun : List Event :=
  [Sample.packet 0 [5, 0, 0, 0, 0xd1, 0, 1], Sample.packet 1 [5, 0, 0, 0, 0], .feedback true,
    .feedback true]

/-- The channel of a message is allocated to somebody else. -/
def reallocatedRun : List Event :=
  [Sample.packet 0 [2, 0, 0, 0, 0x81, 0, 58], Sample.packet 1 [255, 255, 255, 255, 0x86, 0, 8],
    .checkTimeouts 751]

/-- In each of these runs a message is answered twice. -/
theorem answered_once_counterexample :
    ¬ (run (step Ctap.Sample.env) (powerUp Sample.world) emptyRun).state.hid.answered.Nodup ∧
      ¬ (run (step Ctap.Sample.env) (powerUp Sample.world) repeatedRun).state.hid.answered.Nodup ∧
      ¬ (run (step Ctap.Sample.env) (powerUp Sample.world) reallocatedRun).state.hid.answered.Nodup :=
  ⟨by decide +kernel, by decide +kernel, by decide +kernel⟩

end NitrokeyFido2.Hid
