import NitrokeyFido2.Ctap.Extensions
import NitrokeyFido2.Ctap.Sample
import NitrokeyFido2.Hid.Run

/-!
Extension requests in the key handle of a U2F message.

The response has a counter and a status in front of the array, and an operation
that fails clears the array before it is sent.
-/

namespace NitrokeyFido2.Hid

open Ctap Proc
open Resumption (Routine)

variable (env : Env)

/-! ### The key handle of a U2F message -/

/-- A U2F AUTHENTICATE message with an extension request for a key handle. -/
structure ExtensionMessage (w : World) : Prop where
  cla : w.cla = 0
  ins : w.ins = u2fAuthenticateIns
  extension : isExtensionRequest w.kh w.khl = true

/-- What the host gets for a U2F message. -/
def u2fReply (h : Answers) (w : World) : Except Stop (List UInt8) :=
  (Routine.answered h.answer (u2fRequest env) w).1

/-- The response of `bridge_u2f_to_extensions` to what an operation did. -/
def extensionResponse (count : UInt32) (r : UInt8 × Buf 71) (last : List UInt8) : U2fResult :=
  if r.1 ≠ 0 then
    (u2fSwNoError, u2fResponseWriteback ctapResponseInit
      (1 :: Bytes.toBe32 count ++ (r.1 :: List.replicate 71 0)))
  else
    (u2fSwNoError, u2fResponseWriteback
      (u2fResponseWriteback ctapResponseInit (1 :: Bytes.toBe32 count ++ [0])) (r.2.bytes ++ last))

section U2f

variable {env} {h : Answers} {w : World}

theorem answered_onAuth {α : Type} (h : Answers) (m : CtapM α) :
    Routine.answered h.answer (onAuth m) =
      Proc.zoom World.auth World.withAuth (CtapM.answered h m) := by
  have hpart (w : World) (a : Authenticator) : (w.withAuth a).auth = a := rfl
  have hput (w : World) (a b : Authenticator) : (w.withAuth a).withAuth b = w.withAuth b := rfl
  exact Routine.answered_zoom hpart hput h.answer m

theorem zoom_of_eq {α : Type} {m : Ctap.Device α} {r : Except Stop α} {a t : Authenticator} {w : World}
    (hw : w.auth = a) (hm : m a = (r, t)) :
    (Proc.zoom World.auth World.withAuth m : WorldM α) w = (r, w.withAuth t) := by
  subst hw
  show ((m w.auth).1, w.withAuth (m w.auth).2) = _
  rw [hm]

/-- The bridge, on a device that it has told the transport. -/
theorem bridgeU2fToExtensions_answered (h : Answers) (w : World) :
    (∃ e t, extensionNeedsAtomicCount w.kh = true ∧ ∀ stale,
        Routine.answered h.answer (bridgeU2fToExtensions (withStale env stale)) w = (.error e, t)) ∨
      ∃ count a t, a.requestSource = .u2f ∧ a.presence h = w.auth.presence h ∧ ∀ stale,
        Routine.answered h.answer (bridgeU2fToExtensions (withStale env stale)) w =
          (.ok (extensionResponse count (soloReply env a h w.kh
            (Buf.ofList 71 ((staleBuf stale 72).slice 0 71))) ((staleBuf stale 72).slice 71 1)), t) := by
  unfold bridgeU2fToExtensions
  simp only [Routine.answered_bind, Routine.answered_liftM, get_bind, uninit_withStale,
    bridgeU2fToSolo_withStale, ctapAtomicCount_withStale, answered_onAuth]
  have hcounted : Keeps Counted (ctapAtomicCount env) := inferInstance
  rcases hc : (if extensionNeedsAtomicCount w.kh = true then onDevice (ctapAtomicCount env)
    else pure 10 : WorldM UInt32) w with ⟨e | count, w₁⟩
  · refine .inl ⟨e, w₁, ?_, fun stale => bind_of_error hc⟩
    by_contra hneeds
    rw [if_neg hneeds] at hc
    exact nomatch hc
  · refine .inr ⟨count, { w₁.auth with requestSource := .u2f }, ?_⟩
    have hpresence : w₁.auth.presence h = w.auth.presence h := by
      split at hc
      · obtain ⟨counter, sc, pos, hauth⟩ := hcounted.state w.auth
        have hw₁ : w₁ = w.withAuth (ctapAtomicCount env w.auth).2 := (congrArg Prod.snd hc).symm
        rw [hw₁]
        show Authenticator.presence (ctapAtomicCount env w.auth).2 h = _
        rw [hauth]
        rfl
      · rw [(pure_ok.mp hc).2]
    obtain ⟨t, ht⟩ := @bridgeU2fToSolo_answered env
      { w₁.auth with requestSource := .u2f } h w.kh
    refine ⟨w₁.withAuth t, rfl, hpresence, fun stale => ?_⟩
    rw [bind_of_ok hc, bind_of_ok rfl, bind_of_ok (zoom_of_eq rfl (ht _))]
    unfold extensionResponse
    dsimp only
    split <;> rfl

/-- What the extensions answer is what the host gets. -/
theorem u2fReply_of_ok (hcla : w.cla = 0) {r : U2fResult} {t : World}
    (hrun : Routine.answered h.answer (extendU2f env w.lc) w = (.ok r, t))
    (hr : r.1 = u2fSwNoError ∨ r.1 = u2fSwConditionsNotSatisfied) :
    u2fReply env h w = .ok (u2fFinish r) := by
  have hnot : ¬ (r.1 ≠ u2fSwNoError ∧ r.1 ≠ u2fSwConditionsNotSatisfied) := fun hne =>
    hr.elim hne.1 hne.2
  unfold u2fReply u2fRequest
  simp only [Routine.answered_bind, Routine.answered_liftM, get_bind, Routine.answered_ite]
  rw [if_neg (not_not.mpr hcla), bind_of_ok hrun, if_neg hnot, answered_onAuth]
  rfl

theorem u2fReply_of_error (hcla : w.cla = 0) {e : Stop} {t : World}
    (hrun : Routine.answered h.answer (extendU2f env w.lc) w = (.error e, t)) :
    u2fReply env h w = .error e := by
  unfold u2fReply u2fRequest
  simp only [Routine.answered_bind, Routine.answered_liftM, get_bind, Routine.answered_ite]
  rw [if_neg (not_not.mpr hcla), bind_of_error hrun]

theorem u2fReply_check (hw : ExtensionMessage w) (hp1 : w.p1 = u2fAuthenticateCheck) :
    u2fReply env h w = .ok (u2fFinish (u2fSwConditionsNotSatisfied, ctapResponseInit)) := by
  have hrun : Routine.answered h.answer (extendU2f env w.lc) w =
      (.ok (u2fSwConditionsNotSatisfied, ctapResponseInit), w) := by
    unfold extendU2f
    simp only [Routine.answered_bind, Routine.answered_liftM, get_bind, Routine.answered_ite]
    rw [if_pos hw.ins, if_pos hp1, if_pos hw.extension]
    rfl
  exact u2fReply_of_ok hw.cla hrun (.inr rfl)

/-- Any other message gets to the bridge. -/
theorem extendU2f_answered (hw : ExtensionMessage w) (hp1 : w.p1 ≠ u2fAuthenticateCheck) (len : ℕ) :
    Routine.answered h.answer (extendU2f env len) w =
      Routine.answered h.answer (bridgeU2fToExtensions env) w := by
  unfold extendU2f
  simp only [Routine.answered_bind, Routine.answered_liftM, get_bind, Routine.answered_ite]
  rw [if_pos hw.ins, if_neg hp1, if_pos hw.extension]

theorem extensionResponse_status (count : UInt32) (r : UInt8 × Buf 71) (last : List UInt8) :
    (extensionResponse count r last).1 = u2fSwNoError := by
  unfold extensionResponse
  split <;> rfl

theorem data_writeback {resp : CtapResponse} {buf : List UInt8}
    (hroom : resp.data.length + buf.length ≤ ctapResponseBufferSize) :
    (u2fResponseWriteback resp buf).data = resp.data ++ buf := by
  rw [u2fResponseWriteback, dif_pos hroom]

theorem u2fFinish_of_ok {r : U2fResult} (hr : r.1 = u2fSwNoError)
    (hroom : r.2.data.length + 2 ≤ ctapResponseBufferSize) : u2fFinish r = r.2.data ++ [0x90, 0] := by
  obtain ⟨sw, resp⟩ := r
  obtain rfl : sw = u2fSwNoError := hr
  have hfirst : (u2fResponseWriteback resp [0x90]).data = resp.data ++ [0x90] :=
    data_writeback (by dsimp only at hroom; rw [List.length_singleton]; omega)
  unfold u2fFinish
  dsimp only
  rw [if_pos rfl]
  refine (data_writeback ?_).trans ?_
  · rw [show (u2fSwNoError >>> 8).toUInt8 = 0x90 by decide, hfirst, List.length_append]
    exact hroom
  · rw [show (u2fSwNoError >>> 8).toUInt8 = 0x90 by decide, hfirst, List.append_assoc]
    rfl

/-- The response to an operation that succeeded ends with the last byte of the
array. -/
theorem u2fFinish_extension (count : UInt32) {r : UInt8 × Buf 71} (hr : r.1 = 0) (x : UInt8) :
    u2fFinish (extensionResponse count r [x]) =
      1 :: Bytes.toBe32 count ++ [0] ++ (r.2.bytes ++ [x]) ++ [0x90, 0] := by
  have hbuf : (r.2.bytes ++ [x]).length = 72 := by rw [List.length_append, r.2.length_bytes]; rfl
  have hstart : (u2fResponseWriteback ctapResponseInit (1 :: Bytes.toBe32 count ++ [0])).data =
      1 :: Bytes.toBe32 count ++ [0] := data_writeback (show 0 + 6 ≤ 4096 by decide)
  have hbody : (u2fResponseWriteback (u2fResponseWriteback ctapResponseInit
      (1 :: Bytes.toBe32 count ++ [0])) (r.2.bytes ++ [x])).data =
      1 :: Bytes.toBe32 count ++ [0] ++ (r.2.bytes ++ [x]) := by
    rw [data_writeback (by rw [hstart, hbuf]; exact (show 6 + 72 ≤ 4096 by decide)), hstart]
  rw [extensionResponse, if_neg (not_not.mpr hr)]
  rw [u2fFinish_of_ok rfl, hbody]
  rw [hbody, List.length_append, hbuf]
  exact (show 6 + 72 + 2 ≤ 4096 by decide)

theorem staleBuf_last (stale : ℕ → UInt8) : (staleBuf stale 72).slice 71 1 = [stale 71] := rfl

/-- The response depends on the array if and only if it is the response to an
operation that succeeded. -/
theorem noLeak_u2f_iff (hw : ExtensionMessage w) :
    NoLeak (fun stale => u2fReply (withStale env stale) h w) ↔
      w.p1 = u2fAuthenticateCheck ∨ ¬ Succeeds (w.kh.getD 0 0) (w.auth.presence h = 1) := by
  by_cases hp1 : w.p1 = u2fAuthenticateCheck
  · refine iff_of_true (fun stale stale' => ?_) (.inl hp1)
    dsimp only
    rw [u2fReply_check hw hp1, u2fReply_check hw hp1]
  rcases @bridgeU2fToExtensions_answered env h w with
    ⟨e, t, hneeds, hrun⟩ | ⟨count, a, t, hsource, hpresence, hrun⟩
  · refine iff_of_true (fun stale stale' => ?_) (.inr ?_)
    · dsimp only
      rw [u2fReply_of_error hw.cla ((extendU2f_answered hw hp1 _).trans (hrun stale)),
        u2fReply_of_error hw.cla ((extendU2f_answered hw hp1 _).trans (hrun stale'))]
    · -- only the operations of the wallet, which are not compiled in, are counted
      rintro (hop | hop | ⟨hop, -⟩) <;> unfold extensionNeedsAtomicCount at hneeds <;>
        rw [hop] at hneeds <;> exact absurd hneeds (by decide)
  have hagreed : confirmed a h = true ↔ w.auth.presence h = 1 := by
    rw [confirmed, hsource, hpresence]
    exact decide_eq_true_iff
  have hreply (stale : ℕ → UInt8) := u2fReply_of_ok hw.cla
    ((extendU2f_answered hw hp1 _).trans (hrun stale)) (.inl (extensionResponse_status _ _ _))
  have hsucceeds (output : Buf 71) : (soloReply env a h w.kh output).1 = 0 ↔
      Succeeds (w.kh.getD 0 0) (w.auth.presence h = 1) := by
    rw [soloReply_succeeds]
    unfold Succeeds
    rw [hagreed]
  by_cases hop : Succeeds (w.kh.getD 0 0) (w.auth.presence h = 1)
  · refine iff_of_false (fun hnone => ?_) fun hc => hc.elim hp1 fun hc => hc hop
    have hsame := hnone (fun _ => 0) fun _ => 1
    dsimp only at hsame
    rw [hreply, hreply, staleBuf_last, staleBuf_last,
      u2fFinish_extension _ ((hsucceeds _).mpr hop), u2fFinish_extension _ ((hsucceeds _).mpr hop)]
      at hsame
    have hbody := List.append_inj_left' (Except.ok.inj hsame) rfl
    have hlast := List.append_inj_right' (List.append_inj_right' hbody
      (by rw [List.length_append, List.length_append, Buf.length_bytes, Buf.length_bytes]; rfl)) rfl
    exact absurd hlast (by decide)
  · refine iff_of_true (fun stale stale' => ?_) (.inr hop)
    dsimp only
    rw [hreply, hreply, extensionResponse, extensionResponse, if_pos fun h0 => hop ((hsucceeds _).mp h0),
      if_pos fun h0 => hop ((hsucceeds _).mp h0), soloReply_status]

end U2f

/-- Over either transport, the response to an extension request depends on the
array exactly when it is sent with bytes that the operation has not written. -/
theorem extension_noLeak_iff (he : env.writer.Verbatim) (h : Answers) :
    (∀ w, ExtensionMessage w →
      (NoLeak (fun stale => u2fReply (withStale env stale) h w) ↔
        w.p1 = u2fAuthenticateCheck ∨ ¬ Succeeds (w.kh.getD 0 0) (w.auth.presence h = 1))) ∧
    ∀ (a : Authenticator) (bytes : List UInt8),
      bytes.getD 0 0 = ctapGetAssertionCmd ∨ bytes.getD 0 0 = getNextAssertionCmd →
      ∀ c d, a.endCall env bytes h = (.ok c, d) → c.IsExtension →
        (NoLeak (fun stale => (a.request (withStale env stale) bytes h).1) ↔
          c.operation = walletRng ∨ ¬ c.Sent env d) :=
  ⟨fun _ hw => noLeak_u2f_iff hw, fun _ _ hcmd _ _ hcall hext => noLeak_fido2_iff he hcmd hcall hext⟩

/-! ### Extension requests of a run -/

/-- An id that asks for an operation. -/
def demoExtension (op : UInt8) : List UInt8 :=
  [op, 0, 0, 0, 0x8C, 0x27, 0x90, 0xf6] ++ List.replicate 16 0

/-- The U2F message with this key handle, as received. -/
def demoMessage (op : UInt8) : World :=
  let message := [0, u2fAuthenticateIns, u2fAuthenticateSign, 0, 0, 0, 89] ++ List.replicate 64 0 ++
    24 :: demoExtension op
  Sample.world.withHid { Sample.world.hid with buffer :=
    { Sample.world.hid.buffer with data := Buf.ofList _ message } }

/-- The getAssertion with this credential id, and the device that gets it. -/
def demoAssertion (op : UInt8) : List UInt8 :=
  ctapGetAssertionCmd :: Ctap.Sample.encodeOps (Ctap.Sample.assertOps 1 [demoExtension op])

def demoDevice : Authenticator := (Machine.powerUp Ctap.Sample.env Ctap.Sample.device).auth

/-- Random bytes for an assertion, and an operation that does not exist in a U2F
message. -/
theorem extension_noLeak_iff_demo :
    NoLeak (fun stale => u2fReply (withStale Ctap.Sample.env stale) Ctap.Sample.touch
      (demoMessage 0x99)) ∧
    NoLeak (fun stale => (demoDevice.request (withStale Ctap.Sample.env stale)
      (demoAssertion walletRng) Ctap.Sample.touch).1) := by
  have hdemo : (demoDevice.endCall Ctap.Sample.env (demoAssertion walletRng)
      Ctap.Sample.touch).1.toOption.any (fun c => decide (c.IsExtension ∧ c.operation = walletRng)) =
      true := by
    decide +kernel
  obtain ⟨c, hc, hdemo⟩ := (Option.any_eq_true ..).mp hdemo
  obtain ⟨hext, hop⟩ := of_decide_eq_true hdemo
  have hiff := extension_noLeak_iff Ctap.Sample.env Ctap.Sample.writer_verbatim Ctap.Sample.touch
  rcases hcall : demoDevice.endCall Ctap.Sample.env (demoAssertion walletRng) Ctap.Sample.touch with
    ⟨e | c', d⟩ <;> rw [hcall] at hc
  · exact nomatch hc
  obtain rfl := Option.some.inj hc
  exact ⟨(hiff.1 (demoMessage 0x99) ⟨by decide +kernel, by decide +kernel, by decide +kernel⟩).mpr
      (.inr (by decide +kernel)),
    (hiff.2 demoDevice (demoAssertion walletRng) (.inl rfl) c' d hcall hext).mpr (.inl hop)⟩

/-- The version is followed by what was on the stack, over either transport. -/
theorem extension_noLeak_counterexample :
    ExtensionMessage (demoMessage walletVersion) ∧
    ¬ NoLeak (fun stale => u2fReply (withStale Ctap.Sample.env stale) Ctap.Sample.touch
      (demoMessage walletVersion)) ∧
    ¬ NoLeak (fun stale => (demoDevice.request (withStale Ctap.Sample.env stale)
      (demoAssertion walletVersion) Ctap.Sample.touch).1) := by
  have hu2f : (u2fReply (withStale Ctap.Sample.env fun _ => 0) Ctap.Sample.touch
      (demoMessage walletVersion)).toOption ≠
      (u2fReply (withStale Ctap.Sample.env fun _ => 1) Ctap.Sample.touch
        (demoMessage walletVersion)).toOption := by
    decide +kernel
  have hfido2 : (demoDevice.request (withStale Ctap.Sample.env fun _ => 0)
      (demoAssertion walletVersion) Ctap.Sample.touch).1.toOption ≠
      (demoDevice.request (withStale Ctap.Sample.env fun _ => 1)
        (demoAssertion walletVersion) Ctap.Sample.touch).1.toOption := by
    decide +kernel
  exact ⟨⟨by decide +kernel, by decide +kernel, by decide +kernel⟩,
    fun hnone => hu2f (congrArg Except.toOption (hnone (fun _ => 0) fun _ => 1)),
    fun hnone => hfido2 (congrArg Except.toOption (hnone (fun _ => 0) fun _ => 1))⟩

end NitrokeyFido2.Hid
