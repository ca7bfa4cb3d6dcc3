import NitrokeyFido2.Hid.Reception

/-!
What the buffer and the reserved channels are kept from.

The length, the offset and the sequence number of the message in the buffer
are set at different moments, and the copies into the buffer are not checked
against its size; that they stay inside follows from the order of the offset
and the length. A free slot has channel 0, so that channel 0 is refused only
as long as nobody begins a message on it.
-/

namespace NitrokeyFido2.Hid

open Ctap (Env ctap1ErrInvalidLength)
open Transition

/-! ### The bounds of the buffer -/

namespace CtapBuffer

structure Bounded (b : CtapBuffer) : Prop where
  nonneg : 0 ≤ b.offset
  le : b.offset ≤ b.bcnt
  size : b.bcnt ≤ ctaphidBufferSize

/-- The `memmove` that this packet leads to has a length and ends inside the
buffer. -/
structure MovesInside (b : CtapBuffer) (pkt : Packet) : Prop where
  start : 0 ≤ (b.moved pkt).1
  length : 0 ≤ (b.moved pkt).2
  inside : (b.moved pkt).1 + (b.moved pkt).2 ≤ ctaphidBufferSize

variable {b : CtapBuffer} {pkt : Packet}

theorem bounded_reset (b : CtapBuffer) : b.reset.Bounded where
  nonneg := le_refl 0
  le := le_refl 0
  size := Nat.zero_le _

theorem Bounded.movesInside (h : b.Bounded) (pkt : Packet) : b.MovesInside pkt := by
  obtain ⟨hnonneg, hle, hsize⟩ := h
  have hsize' : (b.bcnt : ℤ) ≤ ctaphidBufferSize := by exact_mod_cast hsize
  by_cases hcont : pkt.isCont = true
  · have hmoved : b.moved pkt = (b.offset, min (b.bcnt - b.offset) ctaphidContPayloadSize) := by
      unfold moved
      rw [if_pos hcont]
      dsimp only
      congr 1
      split <;> omega
    constructor <;> rw [hmoved] <;> dsimp only <;> omega
  · have hmoved : b.moved pkt = (0, min (pkt.len : ℤ) ctaphidInitPayloadSize) := by
      unfold moved
      rw [if_neg hcont]
    have hpayload : (ctaphidInitPayloadSize : ℤ) ≤ ctaphidBufferSize := by decide
    constructor <;> rw [hmoved] <;> dsimp only <;> omega

theorem Bounded.bufferPacket (message : ℕ) (h : b.Bounded)
    (hpkt : pkt.isCont = true ∨ pkt.len ≤ ctaphidBufferSize) :
    (b.bufferPacket message pkt).2.Bounded := by
  obtain ⟨hnonneg, hle, hsize⟩ := h
  by_cases hcont : pkt.isCont = true
  · by_cases hseq : b.seq + 1 = (pkt.cmd.toNat : ℤ)
    · rw [bufferPacket_continue hcont hseq]
      exact ⟨by dsimp only; omega, by dsimp only; omega, hsize⟩
    · rw [bufferPacket_outOfOrder hcont hseq]
      exact ⟨hnonneg, hle, hsize⟩
  · rw [bufferPacket_begin (Bool.eq_false_iff.mpr hcont)]
    refine ⟨?_, ?_, hpkt.resolve_left hcont⟩
    · dsimp only
      omega
    · dsimp only
      omega

end CtapBuffer

/-- The rule that the buffer is within its bounds. -/
def Layer.Within (s : Layer) : Prop := s.buffer.Bounded

instance : TableRule Layer.Within where
  frame s t _ hbuffer h := by
    simp only [CtapBuffer.control, Prod.mk.injEq] at hbuffer
    obtain ⟨-, -, hbcnt, hoffset, -, -⟩ := hbuffer
    obtain ⟨hnonneg, hle, hsize⟩ := h
    exact ⟨hoffset ▸ hnonneg, hoffset ▸ hbcnt ▸ hle, hbcnt ▸ hsize⟩
  free s _ _ := CtapBuffer.bounded_reset s.buffer

theorem Layer.Within.receive (s : Layer) (now : UInt32) (pkt : Packet) (h : s.Within) :
    (s.receive now pkt).2.Within := by
  obtain ⟨status, t, hbuffers, hreceive⟩ := receive_cases s now pkt
  have hs : (s.numbered pkt).buffer.Bounded := by
    rw [Layer.buffer_numbered]
    exact h
  have ht : t.buffer.Bounded := by
    cases hbuffers with
    | initLength | initChannel | broadcast | interrupted | busy | stray | tooLong => exact hs
    | initFull | init => exact CtapBuffer.bounded_reset _
    | outOfOrder hpkt hcont hexists hstatus hcid hseq =>
        have h := hs.bufferPacket 0 (.inl hcont)
        rwa [CtapBuffer.bufferPacket_outOfOrder hcont hseq] at h
    | begun cids hpkt hcont hlen => exact hs.bufferPacket _ (.inr hlen)
    | continued cids hpkt hcont => exact hs.bufferPacket _ (.inl hcont)
  rw [Layer.Within, hreceive, buffer_followUp]
  split
  · exact CtapBuffer.bounded_reset _
  · exact ht

theorem Layer.Within.checkTimeouts (s : Layer) (now : UInt32) (h : s.Within) :
    (s.checkTimeouts now).Within := by
  rw [Layer.Within, Layer.checkTimeouts_eq]
  dsimp only
  split
  · exact CtapBuffer.bounded_reset _
  · exact h

/-- Whatever packets arrive, also while requests wait: whenever one is handled
the buffer is within its bounds, and what the packet is copied to lies in it. -/
theorem buffer_never_overrun (env : Env) (w : World) (es : List Event) :
    Along (step env) (Expects fun s _ pkt => s.buffer.Bounded ∧ s.buffer.MovesInside pkt)
      (powerUp w) es := by
  refine TableRule.along (I := Layer.Within) (P := fun _ _ _ => True)
    (CtapBuffer.bounded_reset Layer.zero.buffer) (fun s now pkt h _ => h.receive s now pkt)
    Layer.Within.checkTimeouts (fun s _ pkt h _ => ⟨h, h.movesInside pkt⟩) ?_
  refine along_of_forall (fun d e => ?_) _ es
  cases e with
  | packet pkt rd early => exact fun _ => trivial
  | feedback touched => trivial
  | checkTimeouts now => trivial

/-! ### Reserved channels -/

/-- On channel 0, or on the broadcast channel and no CTAPHID_INIT. -/
def Packet.Reserved (pkt : Packet) : Prop :=
  pkt.cid = 0 ∨ (pkt.cid = ctaphidBroadcastCid ∧ pkt.isInit = false)

/-- The packet is refused with this code. -/
def Layer.SendsError (s : Layer) (now : UInt32) (pkt : Packet) (code : UInt8) : Prop :=
  ∃ answers, (s.receive now pkt).2.sent = s.sent ++ [⟨errorPackets pkt.cid code, answers⟩]

/-- The code that a packet on a reserved channel is refused with. -/
def Packet.reservedCode (pkt : Packet) : UInt8 :=
  if pkt.isInit = true ∧ pkt.len ≠ 8 then ctap1ErrInvalidLength else ctap1ErrInvalidChannel

/-- The packet is neither dispatched nor put into the buffer. One that begins a
message is answered, and one that continues a message at most with an
error. -/
structure Layer.Rejects (s : Layer) (now : UInt32) (pkt : Packet) : Prop where
  done : (s.receive now pkt).1 = .done
  buffer : (s.receive now pkt).2.buffer = s.buffer ∨ (s.receive now pkt).2.buffer = s.buffer.reset
  begins : pkt.isCont = false → s.SendsError now pkt pkt.reservedCode
  continues : pkt.isCont = true →
    (s.receive now pkt).2.sent = s.sent ∨ ∃ code, s.SendsError now pkt code

/-- A packet that begins an ordinary message on channel 0. -/
def Packet.BeginsOnZero (pkt : Packet) : Prop :=
  pkt.cid = 0 ∧ pkt.isInit = false ∧ pkt.isCont = false

/-- The rule that the message in the buffer is not one of channel 0. -/
def Layer.OffZero (s : Layer) : Prop := s.buffer.status ≠ .empty → s.buffer.cid ≠ 0

theorem CtapBuffer.status_ne_empty {b : CtapBuffer} : b.status ≠ .empty ↔ b.bcnt ≠ 0 := by
  unfold status
  split
  case isTrue h => simp [h]
  case isFalse h => split <;> simp [h]

instance : TableRule Layer.OffZero where
  frame s t _ hbuffer h := by
    simp only [CtapBuffer.control, Prod.mk.injEq] at hbuffer
    intro hstatus
    rw [CtapBuffer.status_ne_empty, hbuffer.2.2.1] at hstatus
    rw [hbuffer.1]
    exact h (CtapBuffer.status_ne_empty.mpr hstatus)
  free _ _ _ h := absurd rfl h

theorem Layer.OffZero.receive (s : Layer) (now : UInt32) (pkt : Packet) (h : s.OffZero)
    (hpkt : ¬ pkt.BeginsOnZero) : (s.receive now pkt).2.OffZero := by
  obtain ⟨status, t, hbuffers, hreceive⟩ := receive_cases s now pkt
  have hs : (s.numbered pkt).OffZero := by
    rw [Layer.OffZero, Layer.buffer_numbered]
    exact h
  have ht : t.OffZero := by
    cases hbuffers with
    | initLength | initChannel | broadcast | interrupted | busy | stray | tooLong => exact hs
    | initFull | init => exact fun hstatus => absurd (CtapBuffer.status_reset _) hstatus
    | outOfOrder hpkt hcont hexists hstatus hcid hseq => exact fun _ => hs hstatus
    | begun cids hord hcont hlen =>
        intro _
        dsimp only
        rw [CtapBuffer.bufferPacket_begin hcont]
        exact fun hcid => hpkt ⟨hcid, hord.init, hcont⟩
    | continued cids hpkt hcont hstatus hcid hseq =>
        intro _
        dsimp only
        rw [CtapBuffer.bufferPacket_continue hcont hseq]
        exact hs hstatus
  rw [Layer.OffZero, hreceive, buffer_followUp]
  split
  · exact fun hstatus => absurd (CtapBuffer.status_reset _) hstatus
  · exact ht

theorem Layer.OffZero.checkTimeouts (s : Layer) (now : UInt32) (h : s.OffZero) :
    (s.checkTimeouts now).OffZero := by
  rw [Layer.OffZero, Layer.checkTimeouts_eq]
  dsimp only
  split
  · exact fun hstatus => absurd (CtapBuffer.status_reset _) hstatus
  · exact h

/-- A packet that is refused with the code for reserved channels is
rejected. -/
theorem rejects_of_refused {s : Layer} {now : UInt32} {pkt : Packet}
    (h : s.receive now pkt = (s.numbered pkt).followUp pkt (.error pkt.reservedCode)) :
    s.Rejects now pkt := by
  have hsends : s.SendsError now pkt pkt.reservedCode := by
    rw [Layer.SendsError, h]
    exact ⟨_, congrArg (· ++ _) (Layer.sent_numbered s pkt)⟩
  refine ⟨by rw [h]; rfl, ?_, fun _ => hsends, fun _ => .inr ⟨_, hsends⟩⟩
  rw [h, buffer_followUp, Layer.buffer_numbered]
  split
  · exact .inr rfl
  · exact .inl rfl

/-- While the buffer holds no message of channel 0, only the beginning of one is
not rejected. -/
theorem Layer.OffZero.rejects {s : Layer} {now : UInt32} {pkt : Packet} (h : s.OffZero)
    (hreserved : pkt.Reserved) (hpkt : ¬ pkt.BeginsOnZero) : s.Rejects now pkt := by
  -- an ordinary packet that is reserved continues a message of channel 0
  have hordinary (hord : pkt.Ordinary) : pkt.cid = 0 ∧ pkt.isCont = true := by
    have hcid : pkt.cid = 0 := hreserved.resolve_right fun h => hord.cid h.1
    exact ⟨hcid, by_contra fun hcont => hpkt ⟨hcid, hord.init, Bool.eq_false_iff.mpr hcont⟩⟩
  have hempty (hord : pkt.Ordinary) (hcid : pkt.cid = (s.numbered pkt).buffer.cid) :
      ¬ (s.numbered pkt).buffer.status ≠ .empty := by
    rw [Layer.buffer_numbered] at hcid ⊢
    exact fun hstatus => h hstatus (hcid ▸ (hordinary hord).1)
  obtain ⟨status, t, hbuffers, hreceive⟩ := receive_cases s now pkt
  cases hbuffers with
  | initLength hinit hlen =>
      refine rejects_of_refused ?_
      rwa [Packet.reservedCode, if_pos ⟨hinit, hlen⟩]
  | initChannel hinit hlen =>
      refine rejects_of_refused ?_
      rwa [Packet.reservedCode, if_neg fun h => h.2 hlen]
  | broadcast hinit =>
      refine rejects_of_refused ?_
      rwa [Packet.reservedCode, if_neg fun h => Bool.false_ne_true (hinit ▸ h.1)]
  | initFull _ hinit _ hcid | init _ _ _ hinit _ hcid =>
      rcases hreserved with hzero | ⟨-, hnot⟩
      · exact absurd hzero hcid
      · exact absurd (hnot ▸ hinit) Bool.false_ne_true
  | interrupted hord hcont | busy hord hcont | tooLong hord hcont | begun _ hord hcont =>
      exact absurd ((hordinary hord).2 ▸ hcont) Bool.noConfusion
  | stray hord hcont =>
      have hsent : (s.receive now pkt).2.sent = s.sent := by
        rw [hreceive]
        exact Layer.sent_numbered s pkt
      refine ⟨by rw [hreceive]; rfl, .inl ?_, fun h => ?_, fun _ => .inl hsent⟩
      · rw [hreceive]
        exact Layer.buffer_numbered s pkt
      · exact absurd (hcont ▸ h) Bool.noConfusion
  | outOfOrder hord _ _ hstatus hcid | continued _ hord _ hstatus hcid =>
      exact absurd hstatus (hempty hord hcid)

theorem errorPackets_inj {cid : UInt32} {a b : UInt8} (h : errorPackets cid a = errorPackets cid b) :
    a = b := by
  have h := congrArg (List.map (·.byte 7)) h
  have ha : ∀ c, (errorPackets cid c).map (·.byte 7) = [c] := fun c => rfl
  rw [ha, ha] at h
  exact List.head_eq_of_cons_eq h

/-- The beginning of a message on channel 0 is never answered as it ought to
be. -/
theorem Packet.BeginsOnZero.not_rejects {s : Layer} {now : UInt32} {pkt : Packet}
    (hpkt : pkt.BeginsOnZero) : ¬ s.Rejects now pkt := by
  obtain ⟨hcid, hinit, hcont⟩ := hpkt
  intro hrejects
  obtain ⟨answers, hsent⟩ := hrejects.begins hcont
  have hcode : pkt.reservedCode = ctap1ErrInvalidChannel :=
    if_neg fun h => Bool.false_ne_true (hinit ▸ h.1)
  obtain ⟨status, t, hbuffers, hreceive⟩ := receive_cases s now pkt
  rw [hreceive, hcode] at hsent
  -- an error with another code is not the one expected
  have hother {code : UInt8} (hcode : code ≠ ctap1ErrInvalidChannel)
      (hsent : ((s.numbered pkt).sent ++ [⟨errorPackets pkt.cid code, t.answeredBy pkt⟩] : List Sent) =
        s.sent ++ [⟨errorPackets pkt.cid ctap1ErrInvalidChannel, answers⟩]) : False := by
    rw [Layer.sent_numbered] at hsent
    have hsame := List.append_cancel_left hsent
    simp only [List.cons.injEq, Sent.mk.injEq, and_true] at hsame
    exact hcode (errorPackets_inj hsame.1)
  cases hbuffers with
  | initLength h | initChannel h | initFull _ h | init _ _ _ h =>
      exact absurd (hinit ▸ h) Bool.false_ne_true
  | broadcast _ hbroadcast =>
      rw [hcid] at hbroadcast
      exact absurd hbroadcast (by decide)
  | interrupted | busy | tooLong => exact hother (by decide) hsent
  | stray _ h | outOfOrder _ h | continued _ _ h => exact absurd (hcont ▸ h) Bool.false_ne_true
  | begun =>
      rw [sent_followUp_buffer] at hsent
      dsimp only at hsent
      rw [Layer.sent_numbered] at hsent
      exact absurd hsent.symm (by simp)

/-- Packets on reserved channels are rejected in a run exactly if no packet of
the run begins an ordinary message on channel 0. -/
theorem reserved_rejected_iff (env : Env) (w : World) (es : List Event) :
    Along (step env) (Expects fun s now pkt => pkt.Reserved → s.Rejects now pkt) (powerUp w) es ↔
      Along (step env) (Expects fun _ _ pkt => ¬ pkt.BeginsOnZero) (powerUp w) es := by
  constructor
  · refine Along.mono fun d e he => ?_
    cases e with
    | packet pkt rd early => exact fun hrun hpkt => hpkt.not_rejects (he hrun (.inl hpkt.1))
    | feedback touched => trivial
    | checkTimeouts now => trivial
  · refine TableRule.along (I := Layer.OffZero) (fun h => absurd rfl h) ?_
      Layer.OffZero.checkTimeouts ?_
    · exact fun s now pkt h hpkt => h.receive s now pkt hpkt
    · exact fun s now pkt h hpkt hreserved => h.rejects hreserved hpkt

/-- The first packet ever, a CTAPHID_PING without data on channel 0, is
dispatched. -/
theorem reserved_rejected_counterexample :
    Packet.Reserved (Buf.ofList 64 [0, 0, 0, 0, 0x81]) ∧
      ¬ Layer.zero.Rejects 0 (Buf.ofList 64 [0, 0, 0, 0, 0x81]) := by
  refine ⟨.inl (by decide +kernel), fun h => ?_⟩
  exact absurd h.done (by decide +kernel)

end NitrokeyFido2.Hid
