import NitrokeyFido2.Hid.Run

/-!
Rules that the HID layer keeps while requests wait.

Whatever a request does to the authenticator, to the settings and to the bytes
of the buffer is invisible to a rule about the rest of the layer
(`HidRule`). A rule about the channel table and the bookkeeping of the buffer
alone (`TableRule`) is kept by everything that a message is dispatched to, so
that it remains to look at what a packet, the end of a message and the timeout
scan do.
-/

namespace NitrokeyFido2.Hid

open Ctap Resumption Transition

variable (env : Env)

/-! ### Rules that do not see a request -/

def World.withData (w : World) (d : Buf ctaphidBufferSize) : World :=
  w.withHid { w.hid with buffer := { w.hid.buffer with data := d } }

/-- A rule that only the bookkeeping of the HID layer matters for. -/
class HidRule (I : World → Prop) (G : World → World → Prop) : Prop where
  auth : ∀ w a, I w → I (w.withAuth a) ∧ G w (w.withAuth a)
  settings : ∀ w v, I w → I { w with settings := v } ∧ G w { w with settings := v }
  early : ∀ w b, I w → I { w with early := b } ∧ G w { w with early := b }
  data : ∀ w d, I w → I (w.withData d) ∧ G w (w.withData d)
  status : ∀ w st, I w → I (w.setStatus st) ∧ G w (w.setStatus st)

section Rules

variable {I : World → Prop} {G : World → World → Prop} {A : World → (c : Call) → Ret c → Prop}
  [IsPreorder World G] [HidRule I G]

instance {α : Type} (m : CtapM α) : Routine.Respects I G A (onAuth m) :=
  ⟨fun w hw => Prog.ensures_zoom HidRule.auth (m w.auth) w hw⟩

instance {α : Type} (m : Ctap.Device α) : Proc.Keeps (Step I G) (onDevice m) :=
  ⟨fun w hw => HidRule.auth w _ hw⟩

instance (off : ℕ) (src : List UInt8) : Proc.Keeps (Step I G) (writeMessage off src) :=
  Proc.Keeps.modify fun w hw => HidRule.data w _ hw

instance (hash : List UInt8) : Proc.Keeps (Step I G) (u2fSign env hash) := by
  unfold u2fSign
  infer_instance

instance (resp : CtapResponse) (up : UInt8) :
    Proc.Keeps (Step I G) (u2fAuthenticateSigned env resp up) := by
  unfold u2fAuthenticateSigned
  infer_instance

instance (resp : CtapResponse) : Proc.Keeps (Step I G) (u2fRegisterSigned env resp) := by
  unfold u2fRegisterSigned
  infer_instance

instance : Routine.Respects I G A (bridgeU2fToExtensions env) := by
  unfold bridgeU2fToExtensions
  refine Routine.Respects.seq inferInstance fun w => ?_
  refine Routine.Respects.seq inferInstance fun count => ?_
  refine Routine.Respects.seq inferInstance fun _ => ?_
  refine Routine.Respects.seq inferInstance fun ⟨ret, out⟩ => ?_
  infer_instance

instance (len : ℕ) : Routine.Respects I G A (extendU2f env len) := by
  unfold extendU2f
  infer_instance

instance (resp : CtapResponse) (control : UInt8) :
    Routine.Respects I G A (u2fAuthenticate env resp control) := by
  unfold u2fAuthenticate
  infer_instance

instance (resp : CtapResponse) : Routine.Respects I G A (u2fRegister env resp) := by
  unfold u2fRegister
  infer_instance

instance (resp : CtapResponse) (len : ℕ) : Routine.Respects I G A (u2fSwitch env resp len) := by
  unfold u2fSwitch
  infer_instance

instance : Routine.Respects I G A (u2fRequest env) := by
  unfold u2fRequest
  infer_instance

end Rules

/-! ### Rules about the channel table -/

/-- What the firmware keeps about the message in the buffer. -/
def CtapBuffer.control (b : CtapBuffer) : UInt32 × UInt8 × ℕ × ℤ × ℤ × ℕ :=
  (b.cid, b.cmd, b.bcnt, b.offset, b.seq, b.message)

/-- A rule about the channel table and the bookkeeping of the buffer, which the
end of a message keeps. -/
class TableRule (I : Layer → Prop) : Prop where
  frame : ∀ s t : Layer, t.cids = s.cids → t.buffer.control = s.buffer.control → I s → I t
  free : ∀ (s : Layer) (cid : UInt32), I s →
    I { s with cids := cidDel cid s.cids, buffer := s.buffer.reset }

/-- The rule, of all of the state. -/
def Layer.Rule (I : Layer → Prop) (w : World) : Prop := I w.hid

/-- No relation between the states. -/
def Unrelated (_ _ : World) : Prop := True

instance : IsPreorder World Unrelated where
  refl _ := trivial
  trans _ _ _ _ _ := trivial

/-- Any answer. -/
def AnyAnswer (_ : World) (c : Call) (_ : Ret c) : Prop := True

@[simp] theorem Layer.cids_setStatus (s : Layer) (st : HidStatus) :
    (s.setStatus st).cids = s.cids := by
  unfold Layer.setStatus
  split <;> rfl

@[simp] theorem Layer.buffer_setStatus (s : Layer) (st : HidStatus) :
    (s.setStatus st).buffer = s.buffer := by
  unfold Layer.setStatus
  split <;> rfl

section TableRules

theorem keeps_modifyHid {I : Layer → Prop} {f : Layer → Layer} (h : ∀ s, I s → I (f s)) :
    Proc.Keeps (Step (Layer.Rule I) Unrelated) (modifyHid f) :=
  Proc.Keeps.modify fun w hw => ⟨h w.hid hw, trivial⟩

variable {I : Layer → Prop} [TableRule I]

instance : HidRule (Layer.Rule I) Unrelated where
  auth _ _ h := ⟨h, trivial⟩
  settings _ _ h := ⟨h, trivial⟩
  early _ _ h := ⟨h, trivial⟩
  data w _ h := ⟨TableRule.frame w.hid _ rfl rfl h, trivial⟩
  status w st h := by
    refine ⟨TableRule.frame w.hid _ (w.hid.cids_setStatus st) ?_ h, trivial⟩
    exact congrArg CtapBuffer.control (w.hid.buffer_setStatus st)

/-- A change of the rest of the layer. -/
theorem keeps_rest {f : Layer → Layer}
    (h : ∀ s, (f s).cids = s.cids ∧ (f s).buffer.control = s.buffer.control) :
    Proc.Keeps (Step (Layer.Rule I) Unrelated) (modifyHid f) :=
  keeps_modifyHid fun s hs => TableRule.frame s _ (h s).1 (h s).2 hs

instance (message bcnt : ℕ) (pieces : List (List UInt8)) :
    Proc.Keeps (Step (Layer.Rule I) Unrelated) (reply message bcnt pieces) :=
  keeps_rest fun _ => ⟨rfl, rfl⟩

instance (p : Processing) (bcnt : ℕ) (pieces : List (List UInt8)) :
    Proc.Keeps (Step (Layer.Rule I) Unrelated) (replyTo p bcnt pieces) :=
  Proc.Keeps.seq (keeps_rest fun _ => ⟨rfl, rfl⟩) fun _ => inferInstance

instance (p : Processing) (code : UInt8) :
    Proc.Keeps (Step (Layer.Rule I) Unrelated) (sendError p code) :=
  keeps_rest fun _ => ⟨rfl, rfl⟩

instance (b : Bool) : Proc.Keeps (Step (Layer.Rule I) Unrelated) (setBusy b) :=
  keeps_rest fun _ => ⟨rfl, rfl⟩

instance (p : Processing) : Proc.Keeps (Step (Layer.Rule I) Unrelated) (beginProcessing p) :=
  keeps_rest fun _ => ⟨rfl, rfl⟩

instance : Proc.Keeps (Step (Layer.Rule I) Unrelated) endProcessing :=
  keeps_rest fun _ => ⟨rfl, rfl⟩

instance (p : Processing) : Proc.Keeps (Step (Layer.Rule I) Unrelated) (finishDispatch p) :=
  Proc.Keeps.seq (keeps_modifyHid fun s hs => TableRule.free s p.cid hs) fun _ => inferInstance

variable {A : World → (c : Call) → Ret c → Prop}

instance (rd : Readings) (p : Processing) :
    Routine.Respects (Layer.Rule I) Unrelated A (ctaphidCustomCommand env rd p) := by
  have hsettings : Proc.Keeps (Step (Layer.Rule I) Unrelated)
      (Proc.modify fun w => { w with settings := w.settings ||| 2 } : WorldM Unit) :=
    Proc.Keeps.modify fun w hw => HidRule.settings w _ hw
  unfold ctaphidCustomCommand
  repeat' refine Routine.Respects.cond ?_ ?_
  all_goals infer_instance

instance (p : Processing) (len : ℕ) :
    Routine.Respects (Layer.Rule I) Unrelated A (handleCbor env p len) := by
  unfold handleCbor
  infer_instance

instance (p : Processing) : Routine.Respects (Layer.Rule I) Unrelated A (handleMsg env p) := by
  unfold handleMsg
  infer_instance

instance (p : Processing) (len : ℕ) (request : HidM Unit)
    [Routine.Respects (Layer.Rule I) Unrelated A request] :
    Routine.Respects (Layer.Rule I) Unrelated A (dispatchTransaction p len request) := by
  unfold dispatchTransaction
  refine Routine.Respects.seq inferInstance fun w => ?_
  refine Routine.Respects.cond inferInstance (Routine.Respects.cond inferInstance ?_)
  infer_instance

instance (rd : Readings) (p : Processing) (len : ℕ) :
    Routine.Respects (Layer.Rule I) Unrelated A (dispatch env rd p len) := by
  unfold dispatch
  infer_instance

end TableRules

/-! ### Runs -/

theorem ctaphidHandlePacket_apply (rd : Readings) (pkt : Packet) (w : World) :
    ctaphidHandlePacket env rd pkt w =
      let r := w.hid.receive rd.now pkt
      match r.1 with
      | .done => .ret (.ok 0, w.withHid r.2)
      | .exited => .ret (.error .halted, w.withHid r.2)
      | .dispatch =>
          dispatch env rd ⟨r.2.buffer.message, pkt.cid, r.2.buffer.cmd, false⟩ r.2.buffer.bcnt
            (w.withHid r.2) := by
  unfold ctaphidHandlePacket
  rw [Routine.get_bind]
  rcases w.hid.receive rd.now pkt with ⟨_ | _ | _, s⟩ <;> rfl

/-- A packet that leads to no dispatch changes the layer and nothing else. -/
theorem step_packet_done {d : Device} {pkt : Packet} {rd : Readings} {early : Bool}
    (hrun : d.running = true) (h : (d.state.hid.receive rd.now pkt).1 = .done) :
    step env d (.packet pkt rd early) =
      { d with state := { d.state with early, hid := (d.state.hid.receive rd.now pkt).2 } } := by
  obtain ⟨w, stack, running⟩ := d
  dsimp only at hrun h
  have hhandle : ctaphidHandlePacket env rd pkt { w with early } =
      .ret (.ok 0, { w with early, hid := (w.hid.receive rd.now pkt).2 }) := by
    rw [ctaphidHandlePacket_apply]
    dsimp only
    rw [h]
    rfl
  unfold Hid.step Scheduler.enter
  dsimp only
  rw [if_pos hrun, hhandle, hrun]
  cases stack with
  | nil => rfl
  | cons f rest =>
      obtain ⟨c, k⟩ := f
      cases c <;> rfl

/-- A rule for the packets that the layer is given to handle. -/
def Expects (P : Layer → UInt32 → Packet → Prop) (d : Device) : Event → Prop
  | .packet pkt rd _ => d.running = true → P d.state.hid rd.now pkt
  | _ => True

instance (P : Layer → UInt32 → Packet → Prop) [h : ∀ s now pkt, Decidable (P s now pkt)]
    (d : Device) : (e : Event) → Decidable (Expects P d e)
  | .packet pkt rd _ =>
      have := h d.state.hid rd.now pkt
      inferInstanceAs (Decidable (d.running = true → _))
  | .feedback _ => isTrue trivial
  | .checkTimeouts _ => isTrue trivial

/-! ### Steps -/

section Steps

variable {I : World → Prop} {G : World → World → Prop} {D : World → Prop} {E : Layer → Prop}
  {P : Layer → UInt32 → Packet → Prop} [IsPreorder World G] [HidRule I G]

/-- What is answered at once is invisible to the rule. -/
theorem instant_rule (c : Call) (w : World) (r : Ret c) (t : World) (hw : I w)
    (h : scheduler.instant c w = some (r, t)) : I t ∧ G w t ∧ AnyAnswer t c r := by
  cases c with
  | presence upDelay extendedWipe => exact absurd h (by simp [scheduler])
  | setStatus st =>
      obtain ⟨-, rfl⟩ := Prod.mk.inj (Option.some.inj h)
      obtain ⟨hI, hG⟩ := HidRule.status (G := G) w st hw
      exact ⟨hI, hG, trivial⟩
  | isInFirst10Seconds =>
      obtain ⟨-, rfl⟩ := Prod.mk.inj (Option.some.inj h)
      exact ⟨hw, refl_of G w, trivial⟩

/-- A rule that the handling of a packet keeps, and the timeout scan when
nothing waits, is kept by every step. -/
theorem step_ok (hD : ∀ w t, D w → G w t → D t)
    (hpacket : ∀ w rd pkt, I w → P w.hid rd.now pkt →
      (ctaphidHandlePacket env rd pkt w).Guards I G AnyAnswer (Layer.Rule E) (fun _ => True) w)
    (htimeouts : ∀ w now, I w → D w →
      I (w.withHid (w.hid.checkTimeouts now)) ∧ D (w.withHid (w.hid.checkTimeouts now)))
    (d : Device) (e : Event) (hd : d.Ok scheduler I G AnyAnswer D (Layer.Rule E))
    (he : Expects P d e) : (step env d e).Ok scheduler I G AnyAnswer D (Layer.Rule E) := by
  cases e with
  | packet pkt rd early =>
      refine Scheduler.enter_ok (B := fun _ => True) hD instant_rule ?_ ?_ ?_
      · obtain ⟨w, stack, running⟩ := d
        cases running with
        | false => exact hd
        | true =>
            obtain ⟨hI, hstack⟩ := hd
            obtain ⟨hI', hG⟩ := HidRule.early (G := G) w early hI
            exact ⟨hI', hstack.trans hG hD⟩
      · exact fun _ _ => Listens.of_forall (fun _ _ _ => trivial) _ _
      · exact fun hrun hI => hpacket _ rd pkt hI (he hrun)
  | feedback touched => exact Scheduler.answer_ok hD instant_rule hd fun _ _ _ => trivial
  | checkTimeouts now =>
      rw [Hid.step]
      split
      case isTrue h =>
        rw [Nested.Ok, if_pos h.1] at hd ⊢
        obtain ⟨hI, hstack⟩ := hd
        rw [List.eq_nil_of_length_eq_zero h.2] at hstack ⊢
        exact htimeouts _ now hI hstack
      case isFalse => exact hd

end Steps

/-- A device that keeps the rule, running or not. -/
abbrev Guarded (I : Layer → Prop) (d : Device) : Prop :=
  d.Ok scheduler (Layer.Rule I) Unrelated AnyAnswer (fun _ => True) (Layer.Rule I)

theorem Guarded.powerUp {I : Layer → Prop} (hzero : I .zero) (w : World) : Guarded I (powerUp w) :=
  ⟨hzero, trivial⟩

theorem Guarded.rule {I : Layer → Prop} {d : Device} (h : Guarded I d) : I d.state.hid := by
  unfold Guarded Nested.Ok at h
  split at h
  · exact h.1
  · exact h

section TableRuns

variable {I : Layer → Prop} [TableRule I] {P Q : Layer → UInt32 → Packet → Prop}

theorem guards_ctaphidHandlePacket {w : World} {rd : Readings} {pkt : Packet}
    (h : I (w.hid.receive rd.now pkt).2) :
    (ctaphidHandlePacket env rd pkt w).Guards (Layer.Rule I) Unrelated AnyAnswer (Layer.Rule I)
      (fun _ => True) w := by
  rw [ctaphidHandlePacket_apply]
  generalize w.hid.receive rd.now pkt = r at h
  obtain ⟨received, s⟩ := r
  cases received with
  | done => exact ⟨h, trivial, trivial⟩
  | exited => exact h
  | dispatch =>
      have hdispatch := Routine.Respects.ensures (I := Layer.Rule I) (G := Unrelated)
        (A := AnyAnswer) (m := dispatch env rd ⟨s.buffer.message, pkt.cid, s.buffer.cmd, false⟩
          s.buffer.bcnt) (w.withHid s) h
      refine hdispatch.mono fun r hr => ?_
      obtain ⟨_ | _, t⟩ := r
      · exact hr.1
      · exact ⟨hr.1, trivial, trivial⟩

/-- What a packet and the timeout scan keep is kept by every step. -/
theorem Guarded.step
    (hreceive : ∀ s now pkt, I s → P s now pkt → I (s.receive now pkt).2)
    (htimeouts : ∀ s now, I s → I (s.checkTimeouts now)) (d : Device) (e : Event)
    (hd : Guarded I d) (he : Expects P d e) : Guarded I (step env d e) := by
  refine step_ok env (fun _ _ _ _ => trivial) ?_ ?_ d e hd he
  · exact fun w rd pkt hI hP => guards_ctaphidHandlePacket env (hreceive _ _ _ hI hP)
  · exact fun w now hI _ => ⟨htimeouts _ now hI, trivial⟩

variable {env}

/-- A rule that packets and the timeout scan keep holds in every state that is
reached. -/
theorem TableRule.reached (hzero : I .zero)
    (hreceive : ∀ s now pkt, I s → P s now pkt → I (s.receive now pkt).2)
    (htimeouts : ∀ s now, I s → I (s.checkTimeouts now)) {w : World} {es : List Event}
    (hes : Along (step env) (Expects P) (powerUp w) es) :
    I (run (step env) (powerUp w) es).state.hid :=
  (invariant_run (Guarded.step env hreceive htimeouts) (Guarded.powerUp hzero w) hes).rule

/-- Packets that are as expected are handled as the rule implies. -/
theorem TableRule.along (hzero : I .zero)
    (hreceive : ∀ s now pkt, I s → P s now pkt → I (s.receive now pkt).2)
    (htimeouts : ∀ s now, I s → I (s.checkTimeouts now))
    (h : ∀ s now pkt, I s → P s now pkt → Q s now pkt) {w : World} {es : List Event}
    (hes : Along (step env) (Expects P) (powerUp w) es) :
    Along (step env) (Expects Q) (powerUp w) es := by
  refine Along.of_invariant (Guarded.step env hreceive htimeouts) ?_ (Guarded.powerUp hzero w) hes
  intro d e hd he
  cases e with
  | packet pkt rd early => exact fun hrun => h _ _ _ hd.rule (he hrun)
  | feedback touched => trivial
  | checkTimeouts now => trivial

end TableRuns

end NitrokeyFido2.Hid
