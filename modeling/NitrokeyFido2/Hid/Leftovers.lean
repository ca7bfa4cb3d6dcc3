import NitrokeyFido2.Hid.Extensions

/-!
What earlier messages have left behind a U2F message.

The length that was received is not handed on. How far the handlers read is told
by the header and by the length of the key handle, and a message that is shorter
is completed by the bytes that were in the buffer before.
-/

namespace NitrokeyFido2.Hid

open Ctap Proc
open Resumption (Routine)

variable (env : Env)

/-! ### The end of the buffer -/

/-- The first `n` bytes are the same. -/
def SameBytes {k : ℕ} (n : ℕ) (d d' : Buf k) : Prop := ∀ i < n, d.bytes[i]? = d'.bytes[i]?

/-- The world with these bytes in `ctap_buffer`. -/
def World.withBytes (w : World) (d : Buf ctaphidBufferSize) : World :=
  w.withHid { w.hid with buffer := { w.hid.buffer with data := d } }

/-- The worlds differ in the buffer only, and there not in the first `n` bytes. -/
def SameButEnd (n : ℕ) (w w' : World) : Prop :=
  ∃ d, SameBytes n w.hid.buffer.data d ∧ w' = w.withBytes d

section Same

variable {n : ℕ} {w w' : World}

theorem SameBytes.write {k off : ℕ} {d d' : Buf k} (h : SameBytes n d d') (hoff : off ≤ k)
    (src : List UInt8) : SameBytes n (d.write off src) (d'.write off src) := by
  intro i hi
  have htake : (d.bytes.take off).length = off := by rw [List.length_take, d.length_bytes]; omega
  have htake' : (d'.bytes.take off).length = off := by rw [List.length_take, d'.length_bytes]; omega
  simp only [Buf.write, Bytes.overwrite, List.getElem?_take, List.getElem?_append, List.length_append,
    htake, htake', List.getElem?_drop]
  split
  · split
    · split
      · exact h i hi
      · rfl
    · rw [show off + src.length + (i - (off + src.length)) = i by omega]
      exact h i hi
  · rfl

theorem SameButEnd.message (h : SameButEnd n w w') {off len : ℕ} (hlen : off + len ≤ n) :
    w'.message off len = w.message off len := by
  obtain ⟨d, hd, rfl⟩ := h
  apply List.ext_getElem?
  intro i
  simp only [World.message, Buf.slice, List.getElem?_take, List.getElem?_drop]
  split
  · exact (hd (off + i) (by omega)).symm
  · rfl

theorem SameButEnd.auth (h : SameButEnd n w w') : w'.auth = w.auth := by
  obtain ⟨d, -, rfl⟩ := h
  rfl

theorem SameButEnd.withAuth (h : SameButEnd n w w') (a : Authenticator) :
    SameButEnd n (w.withAuth a) (w'.withAuth a) := by
  obtain ⟨d, hd, rfl⟩ := h
  exact ⟨d, hd, rfl⟩

theorem SameButEnd.cla (h : SameButEnd n w w') (hn : 1 ≤ n) : w'.cla = w.cla := by
  unfold World.cla
  rw [h.message (by omega)]

theorem SameButEnd.ins (h : SameButEnd n w w') (hn : 2 ≤ n) : w'.ins = w.ins := by
  unfold World.ins
  rw [h.message (by omega)]

theorem SameButEnd.p1 (h : SameButEnd n w w') (hn : 3 ≤ n) : w'.p1 = w.p1 := by
  unfold World.p1
  rw [h.message (by omega)]

theorem SameButEnd.lc (h : SameButEnd n w w') (hn : 7 ≤ n) : w'.lc = w.lc := by
  unfold World.lc
  rw [h.message (by omega)]

theorem SameButEnd.chal (h : SameButEnd n w w') (hn : 39 ≤ n) : w'.chal = w.chal :=
  h.message (by omega)

theorem SameButEnd.app (h : SameButEnd n w w') (hn : 71 ≤ n) : w'.app = w.app :=
  h.message (by omega)

theorem SameButEnd.khl (h : SameButEnd n w w') (hn : 72 ≤ n) : w'.khl = w.khl := by
  unfold World.khl
  rw [h.message (by omega)]

/-- The start of the key handle. -/
theorem SameButEnd.kh (h : SameButEnd n w w') {k : ℕ} (hn : 72 + k ≤ n) :
    w'.kh.take k = w.kh.take k := by
  obtain ⟨d, hd, rfl⟩ := h
  apply List.ext_getElem?
  intro i
  simp only [World.kh, World.message, Buf.slice, List.getElem?_take, List.getElem?_drop]
  split
  · split
    · exact (hd (72 + i) (by omega)).symm
    · rfl
  · rfl

theorem sameButEnd_onDevice {α : Type} (h : SameButEnd n w w') (m : Ctap.Device α) :
    Alike (SameButEnd n) w w' (onDevice m) (onDevice m) :=
  .zoom h.auth.symm h.withAuth m

theorem sameButEnd_onAuth {α : Type} (h : SameButEnd n w w') (answers : Answers) (m : CtapM α) :
    Alike (SameButEnd n) w w' (Routine.answered answers.answer (onAuth m))
      (Routine.answered answers.answer (onAuth m)) := by
  rw [answered_onAuth]
  exact .zoom h.auth.symm h.withAuth _

theorem sameButEnd_writeMessage (h : SameButEnd n w w') {off : ℕ} (hoff : off ≤ ctaphidBufferSize)
    (src : List UInt8) : Alike (SameButEnd n) w w' (writeMessage off src) (writeMessage off src) := by
  obtain ⟨d, hd, rfl⟩ := h
  exact .modify ⟨d.write off src, hd.write hoff src, rfl⟩

end Same

/-! ### How far a message is read -/

/-- How far a list is read until it is known whether it is the other one. -/
def decidedAt : List UInt8 → List UInt8 → ℕ
  | x :: xs, y :: ys => if x = y then decidedAt xs ys + 1 else 1
  | _, _ => 0

theorem eq_iff_of_decidedAt {xs xs' ys : List UInt8} (hlen : xs.length = ys.length)
    (hlen' : xs'.length = ys.length)
    (h : xs'.take (decidedAt xs ys) = xs.take (decidedAt xs ys)) : xs' = ys ↔ xs = ys := by
  induction ys generalizing xs xs' with
  | nil => rw [List.length_eq_zero_iff.mp hlen, List.length_eq_zero_iff.mp hlen']
  | cons y ys ih =>
      obtain ⟨x, xs, rfl⟩ := List.exists_cons_of_length_eq_add_one hlen
      obtain ⟨x', xs', rfl⟩ := List.exists_cons_of_length_eq_add_one hlen'
      unfold decidedAt at h
      split at h
      case isTrue hx =>
        obtain ⟨hx', hxs⟩ := List.cons.inj h
        rw [List.cons.injEq, List.cons.injEq, hx', hx,
          ih (Nat.succ.inj hlen) (Nat.succ.inj hlen') hxs]
      case isFalse hx =>
        have hx' : x' = x := (List.cons.inj h).1
        rw [List.cons.injEq, List.cons.injEq, hx']
        exact iff_of_false (fun hc => hx hc.1) fun hc => hx hc.1

namespace World

variable (w : World)

/-- `LC1`, `LC2` and `LC3`, until it is known whether they are `v`. -/
def lcRead (v : UInt8) : ℕ := 4 + decidedAt (w.message 4 3) [0, 0, v]

/-- The key handle, until it is known whether its tag is that of an extension
request. -/
def tagRead : ℕ := 76 + decidedAt ((w.kh.drop 4).take 4) [0x8C, 0x27, 0x90, 0xf6]

/-- The key handles that are authenticated, and the end of them. -/
def handleRead : ℕ :=
  if w.khl = credentialIdSize then 72 + credentialIdSize
  else if w.khl = u2fKeyHandleSize then 72 + u2fKeyHandleSize else 72

/-- An AUTHENTICATE message. -/
def authenticateRead : ℕ :=
  if w.khl < 24 then 72
  else if isExtensionRequest w.kh w.khl then 80
  else max w.tagRead
    (if w.p1 = u2fAuthenticateCheck ∨ w.p1 = u2fAuthenticateSign ∨ w.p1 = u2fAuthenticateSignNoUser then
      w.handleRead else 72)

/-- How much of the buffer tells what a message is answered with. -/
def bytesRead (h : Answers) : ℕ :=
  if w.cla ≠ 0 then 1
  else if w.ins = u2fAuthenticateIns then w.authenticateRead
  else if w.ins = u2fRegisterIns then
    if w.lc ≠ 64 then w.lcRead 64
    else if env.attestationCertDer.length > 1024 ∨ w.auth.presence h = 0 then 7 else 71
  else if w.ins = u2fVersionIns then w.lcRead 0
  else 2

end World

section Read

variable {n : ℕ} {w w' : World}

theorem length_message (w : World) {off len : ℕ} (h : off + len ≤ ctaphidBufferSize) :
    (w.message off len).length = len :=
  Buf.length_slice h

theorem lc_eq_iff (w : World) (v : UInt8) : w.lc = v.toNat ↔ w.message 4 3 = [0, 0, v] := by
  have hlen := @length_message w 4 3 (by decide)
  obtain ⟨x, y, z, hxyz⟩ := List.length_eq_three.mp hlen
  unfold World.lc
  rw [hxyz]
  have hx := x.toNat_lt
  have hy := y.toNat_lt
  have hz := z.toNat_lt
  have hv := v.toNat_lt
  simp only [List.getD_cons_zero, List.getD_cons_succ, List.cons.injEq, and_true,
    ← UInt8.toNat_inj]
  rw [show (0 : UInt8).toNat = 0 from rfl]
  omega

theorem SameButEnd.lc_iff (h : SameButEnd n w w') {v : UInt8} (hn : w.lcRead v ≤ n) :
    w'.lc = v.toNat ↔ w.lc = v.toNat := by
  rw [lc_eq_iff, lc_eq_iff]
  unfold World.lcRead at hn
  refine eq_iff_of_decidedAt (length_message w (by decide)) (length_message w' (by decide)) ?_
  generalize decidedAt (w.message 4 3) [0, 0, v] = k at hn
  simp only [World.message, Buf.slice, List.take_take]
  exact h.message (by omega)

theorem SameButEnd.isExtensionRequest (h : SameButEnd n w w') (hn : 72 ≤ n)
    (hlong : 24 ≤ w.khl → w.tagRead ≤ n) :
    isExtensionRequest w'.kh w'.khl = isExtensionRequest w.kh w.khl := by
  unfold Ctap.isExtensionRequest
  rw [h.khl hn]
  by_cases hkhl : 24 ≤ w.khl
  · have htag : ((w'.kh.drop 4).take 4 = [0x8C, 0x27, 0x90, 0xf6]) ↔
        ((w.kh.drop 4).take 4 = [0x8C, 0x27, 0x90, 0xf6]) := by
      have hlen (w : World) : ((w.kh.drop 4).take 4).length = 4 := by
        rw [List.length_take, List.length_drop, World.kh, length_message w (by decide)]
        rfl
      have hread := hlong hkhl
      unfold World.tagRead at hread
      refine eq_iff_of_decidedAt (hlen w) (hlen w') ?_
      generalize decidedAt ((w.kh.drop 4).take 4) [0x8C, 0x27, 0x90, 0xf6] = k at hread
      rw [List.take_take, List.take_take, List.take_drop, List.take_drop, h.kh (by omega)]
    simp only [hkhl, decide_true, Bool.true_and, htag]
  · simp only [hkhl, decide_false, Bool.false_and]

theorem u2fAuthenticateCredential_congr (s : Secrets) {kh kh' : List UInt8} {khl : ℕ}
    (hkh : khl = credentialIdSize ∨ khl = u2fKeyHandleSize → kh'.take khl = kh.take khl)
    (appid : List UInt8) :
    u2fAuthenticateCredential env s kh' khl appid = u2fAuthenticateCredential env s kh khl appid := by
  unfold u2fAuthenticateCredential
  split
  case isTrue hid =>
    have hkh := hkh (.inl hid)
    rw [hid] at hkh
    rw [hkh]
  case isFalse hid =>
    split
    case isTrue hhandle =>
      have hkh := hkh (.inr hhandle)
      rw [hhandle] at hkh
      unfold isAuthenticKeyHandle
      have htag : kh'.take 16 = kh.take 16 := by
        have htake := congrArg (List.take 16) hkh
        rwa [List.take_take, List.take_take] at htake
      rw [htag, List.take_drop, List.take_drop]
      exact congrArg (fun l : List UInt8 => decide (_ = u2fMakeAuthTag env s (l.drop 16) appid)) hkh
    case isFalse => rfl

/-- What an authentic key handle tells of its length. -/
theorem khl_of_authentic {s : Secrets} {kh appid : List UInt8} {khl : ℕ}
    (h : u2fAuthenticateCredential env s kh khl appid = true) :
    khl = credentialIdSize ∨ khl = u2fKeyHandleSize := by
  unfold u2fAuthenticateCredential at h
  split at h
  case isTrue hid => exact .inl hid
  case isFalse =>
    split at h
    case isTrue hhandle => exact .inr hhandle
    case isFalse => exact nomatch h

/-! ### The handlers -/

variable {env} {h : Answers}

theorem u2fSign_alike (hR : SameButEnd n w w') (hash : List UInt8) :
    Alike (SameButEnd n) w w' (u2fSign env hash) (u2fSign env hash) :=
  (sameButEnd_onDevice hR _).bind fun _ _ _ _ hR =>
    (sameButEnd_writeMessage hR (by decide) _).bind fun _ _ _ _ hR => .pure hR _

theorem u2fAuthenticateSigned_alike (hR : SameButEnd n w w') (hn : 71 ≤ n) (resp : CtapResponse)
    (up : UInt8) : Alike (SameButEnd n) w w' (u2fAuthenticateSigned env resp up)
      (u2fAuthenticateSigned env resp up) := by
  refine (sameButEnd_onDevice hR _).bind fun count t t' _ hR => .get_bind ?_
  rw [hR.app hn, hR.chal (by omega)]
  exact (u2fSign_alike hR _).bind fun _ _ _ _ hR =>
    (sameButEnd_onDevice hR _).bind fun _ _ _ _ hR => .pure hR _

theorem u2fRegisterSigned_alike (hR : SameButEnd n w w') (hn : 71 ≤ n) (resp : CtapResponse) :
    Alike (SameButEnd n) w w' (u2fRegisterSigned env resp) (u2fRegisterSigned env resp) := by
  refine (sameButEnd_onDevice hR _).bind fun key t t' _ hR => .get_bind ?_
  rw [hR.app hn, hR.chal (by omega), hR.auth]
  exact (sameButEnd_onDevice hR _).bind fun _ _ _ _ hR => (u2fSign_alike hR _).bind fun _ _ _ _ hR =>
    (sameButEnd_onDevice hR _).bind fun _ _ _ _ hR => .pure hR _

theorem u2fRegister_alike (hR : SameButEnd n w w') (resp : CtapResponse)
    (hn : ¬ (env.attestationCertDer.length > 1024 ∨ w.auth.presence h = 0) → 71 ≤ n) :
    Alike (SameButEnd n) w w' (Routine.answered h.answer (u2fRegister env resp))
      (Routine.answered h.answer (u2fRegister env resp)) := by
  unfold u2fRegister
  simp only [Routine.answered_ite, Routine.answered_bind, Routine.answered_pure, Routine.answered_liftM]
  split
  case isTrue => exact .pure hR _
  case isFalse hcert =>
    refine (sameButEnd_onAuth hR h _).bind fun ret t t' hret hR => ?_
    split
    case isTrue => exact .pure hR _
    case isFalse hzero =>
      refine u2fRegisterSigned_alike hR (hn fun hc => hc.elim hcert fun hpresence => hzero ?_) resp
      have htest := zoom_of_eq (w := w) rfl (answered_feedback u2fUpDelayMs false h w.auth)
      rw [answered_onAuth] at hret
      have heq := (Prod.mk.inj (hret.symm.trans htest)).1
      rw [Except.ok.inj heq, hpresence]

theorem u2fAuthenticate_alike (hR : SameButEnd n w w') (resp : CtapResponse) {control : UInt8}
    (hn : 72 ≤ n) (hread : control = u2fAuthenticateCheck ∨ control = u2fAuthenticateSign ∨
      control = u2fAuthenticateSignNoUser → w.handleRead ≤ n) :
    Alike (SameButEnd n) w w' (Routine.answered h.answer (u2fAuthenticate env resp control))
      (Routine.answered h.answer (u2fAuthenticate env resp control)) := by
  unfold u2fAuthenticate
  simp only [Routine.answered_ite, Routine.answered_bind, Routine.answered_pure, Routine.answered_liftM]
  refine .get_bind ?_
  by_cases hcontrol : control = u2fAuthenticateCheck ∨ control = u2fAuthenticateSign ∨
      control = u2fAuthenticateSignNoUser
  · have hhandle := hread hcontrol
    unfold World.handleRead at hhandle
    have hkh : w.khl = credentialIdSize ∨ w.khl = u2fKeyHandleSize →
        w'.kh.take w.khl = w.kh.take w.khl := by
      rintro (hid | hid)
      · rw [if_pos hid, ← hid] at hhandle
        exact hR.kh hhandle
      · rw [if_neg (by rw [hid]; decide), if_pos hid, ← hid] at hhandle
        exact hR.kh hhandle
    rw [hR.auth, hR.khl hn, hR.app (by omega), u2fAuthenticateCredential_congr env _ hkh]
    split
    case isTrue => exact .pure hR _
    case isFalse =>
      split
      case isTrue => exact .pure hR _
      case isFalse hauthentic =>
        have hlen := khl_of_authentic env (Bool.not_eq_false _ ▸ (not_or.mp hauthentic).2)
        rw [hkh hlen]
        refine (sameButEnd_onDevice hR _).bind fun _ t t' _ hR => ?_
        split
        case isTrue => exact u2fAuthenticateSigned_alike hR (by omega) resp 0
        case isFalse =>
          refine (sameButEnd_onAuth hR h _).bind fun ret t t' _ hR => ?_
          split
          case isTrue => exact .pure hR _
          case isFalse => exact u2fAuthenticateSigned_alike hR (by omega) resp 1
  · -- an unknown control byte is refused before anything is read
    obtain ⟨hcheck, hsign, hno⟩ := not_or.mp hcontrol |>.imp_right not_or.mp
    rw [if_neg hcheck, if_neg hcheck, if_pos (.inl ⟨hsign, hno⟩), if_pos (.inl ⟨hsign, hno⟩)]
    exact .pure hR _

theorem bridgeU2fToExtensions_alike (hR : SameButEnd n w w') (hn : 73 ≤ n) :
    Alike (SameButEnd n) w w' (Routine.answered h.answer (bridgeU2fToExtensions env))
      (Routine.answered h.answer (bridgeU2fToExtensions env)) := by
  have hop : w'.kh.getD 0 0 = w.kh.getD 0 0 := by
    have htake := hR.kh (k := 1) hn
    rw [List.getD_eq_getElem?_getD, List.getD_eq_getElem?_getD]
    have hget := congrArg (fun l : List UInt8 => l[0]?) htake
    rw [List.getElem?_take_of_lt Nat.one_pos, List.getElem?_take_of_lt Nat.one_pos] at hget
    rw [hget]
  have hcount : extensionNeedsAtomicCount w'.kh = extensionNeedsAtomicCount w.kh := by
    unfold extensionNeedsAtomicCount
    rw [hop]
  have hsolo (output : Buf 71) :
      bridgeU2fToSolo env output w'.kh = bridgeU2fToSolo env output w.kh := by
    unfold bridgeU2fToSolo
    rw [hop]
  unfold bridgeU2fToExtensions
  simp only [Routine.answered_ite, Routine.answered_bind, Routine.answered_pure, Routine.answered_liftM]
  refine .get_bind ?_
  rw [hcount]
  refine Alike.bind ?_ fun count t t' _ hR => (sameButEnd_onDevice hR _).bind fun _ t t' _ hR => ?_
  · split
    case isTrue => exact sameButEnd_onDevice hR _
    case isFalse => exact .pure hR _
  · rw [hsolo]
    refine (sameButEnd_onAuth hR h _).bind fun r t t' _ hR => ?_
    split
    case isTrue => exact .pure hR _
    case isFalse => exact .pure hR _

/-- Extensions are looked for in AUTHENTICATE messages. -/
theorem extendU2f_alike (hR : SameButEnd n w w') {len len' : ℕ} (hn : 2 ≤ n)
    (hlen : w.ins = u2fVersionIns → (len' = 0 ↔ len = 0))
    (hauth : w.ins = u2fAuthenticateIns → 72 ≤ n ∧ (24 ≤ w.khl → w.tagRead ≤ n) ∧
      (isExtensionRequest w.kh w.khl = true → 80 ≤ n)) :
    Alike (SameButEnd n) w w' (Routine.answered h.answer (extendU2f env len))
      (Routine.answered h.answer (extendU2f env len')) := by
  unfold extendU2f
  simp only [Routine.answered_ite, Routine.answered_bind, Routine.answered_pure, Routine.answered_liftM]
  refine .get_bind ?_
  rw [hR.ins hn]
  by_cases hins : w.ins = u2fAuthenticateIns
  · obtain ⟨hkhl, htag, hext⟩ := hauth hins
    rw [if_pos hins, if_pos hins, hR.p1 (by omega), hR.isExtensionRequest hkhl htag]
    split
    case isTrue => exact .pure hR _
    case isFalse =>
      split
      case isTrue hrequest =>
        have hn := hext hrequest
        exact bridgeU2fToExtensions_alike hR (by omega)
      case isFalse => exact .pure hR _
  · rw [if_neg hins, if_neg hins]
    split
    case isTrue hversion =>
      simp only [ne_eq, hlen hversion]
      exact .pure hR _
    case isFalse => exact .pure hR _

theorem u2fSwitch_alike (hR : SameButEnd n w w') {len len' : ℕ} (resp : CtapResponse) (hn : 2 ≤ n)
    (hversion : w.ins = u2fVersionIns → (len' = 0 ↔ len = 0))
    (hregister : w.ins = u2fRegisterIns → (len' = 64 ↔ len = 64) ∧ (len = 64 →
      ¬ (env.attestationCertDer.length > 1024 ∨ w.auth.presence h = 0) → 71 ≤ n))
    (hauth : w.ins = u2fAuthenticateIns → 72 ≤ n ∧
      (w.p1 = u2fAuthenticateCheck ∨ w.p1 = u2fAuthenticateSign ∨ w.p1 = u2fAuthenticateSignNoUser →
        w.handleRead ≤ n)) :
    Alike (SameButEnd n) w w' (Routine.answered h.answer (u2fSwitch env resp len))
      (Routine.answered h.answer (u2fSwitch env resp len')) := by
  unfold u2fSwitch
  simp only [Routine.answered_ite, Routine.answered_bind, Routine.answered_pure, Routine.answered_liftM]
  refine .get_bind ?_
  rw [hR.ins hn]
  by_cases hreg : w.ins = u2fRegisterIns
  · obtain ⟨hlen, hread⟩ := hregister hreg
    rw [if_pos hreg, if_pos hreg]
    simp only [ne_eq, hlen]
    split
    case isTrue => exact .pure hR _
    case isFalse h64 => exact u2fRegister_alike hR resp (hread (not_not.mp h64))
  rw [if_neg hreg, if_neg hreg]
  by_cases hins : w.ins = u2fAuthenticateIns
  · obtain ⟨hkhl, hhandle⟩ := hauth hins
    rw [if_pos hins, if_pos hins, hR.p1 (by omega)]
    exact u2fAuthenticate_alike hR resp hkhl hhandle
  rw [if_neg hins, if_neg hins]
  split
  case isTrue hv =>
    simp only [ne_eq, hversion hv]
    exact .pure hR _
  case isFalse =>
    split
    case isTrue => exact .pure hR _
    case isFalse => exact .pure hR _

/-- An extension request is answered as such. -/
theorem extendU2f_stays {len : ℕ} {r : U2fResult} {t : World}
    (hrun : Routine.answered h.answer (extendU2f env len) w = (.ok r, t))
    (hr : r.1 ≠ u2fSwNoError ∧ r.1 ≠ u2fSwConditionsNotSatisfied) :
    t = w ∧ (w.ins = u2fAuthenticateIns → isExtensionRequest w.kh w.khl = false) := by
  unfold extendU2f at hrun
  simp only [Routine.answered_ite, Routine.answered_bind, Routine.answered_pure,
    Routine.answered_liftM, get_bind] at hrun
  by_cases hins : w.ins = u2fAuthenticateIns
  · rw [if_pos hins] at hrun
    split at hrun
    case isTrue =>
      obtain ⟨rfl, rfl⟩ := pure_ok.mp hrun
      refine ⟨rfl, fun _ => ?_⟩
      by_contra hext
      rw [Bool.not_eq_false] at hext
      exact hr.2 (if_pos hext)
    case isFalse =>
      split at hrun
      case isTrue =>
        rcases @bridgeU2fToExtensions_answered env h w with
          ⟨e, t', -, hbridge⟩ | ⟨count, a, t', -, -, hbridge⟩
        · exact nomatch (Prod.mk.inj (hrun.symm.trans (hbridge (env.stack .signature)))).1
        · have heq := (Prod.mk.inj (hrun.symm.trans (hbridge (env.stack .signature)))).1
          rw [Except.ok.inj heq] at hr
          exact absurd (extensionResponse_status _ _ _) hr.1
      case isFalse hext => exact ⟨(pure_ok.mp hrun).2.symm, fun _ => Bool.eq_false_iff.mpr hext⟩
  · rw [if_neg hins] at hrun
    refine ⟨?_, fun hc => absurd hc hins⟩
    split at hrun
    case isTrue => exact (pure_ok.mp hrun).2.symm
    case isFalse => exact (pure_ok.mp hrun).2.symm

theorem decidedAt_le (xs ys : List UInt8) : decidedAt xs ys ≤ ys.length := by
  induction ys generalizing xs with
  | nil =>
      unfold decidedAt
      split <;> simp_all
  | cons y ys ih =>
      unfold decidedAt
      split
      · rename_i x xs y' ys' heq
        obtain ⟨rfl, rfl⟩ := List.cons.inj heq
        have hxs := ih xs
        rw [List.length_cons]
        split <;> omega
      · exact Nat.zero_le _

/-- What an AUTHENTICATE message has to hold. -/
theorem authenticateRead_le (hn : w.authenticateRead ≤ n) :
    72 ≤ n ∧ (24 ≤ w.khl → w.tagRead ≤ n) ∧ (isExtensionRequest w.kh w.khl = true → 80 ≤ n) ∧
      (isExtensionRequest w.kh w.khl = false →
        w.p1 = u2fAuthenticateCheck ∨ w.p1 = u2fAuthenticateSign ∨ w.p1 = u2fAuthenticateSignNoUser →
          w.handleRead ≤ n) := by
  have htag : 76 ≤ w.tagRead ∧ w.tagRead ≤ 80 :=
    ⟨Nat.le_add_right 76 _, Nat.add_le_add_left (decidedAt_le _ [0x8C, 0x27, 0x90, 0xf6]) 76⟩
  unfold World.authenticateRead at hn
  by_cases hshort : w.khl < 24
  · rw [if_pos hshort] at hn
    have hext : isExtensionRequest w.kh w.khl = false := by
      unfold isExtensionRequest
      rw [decide_eq_false (by omega), Bool.false_and]
    refine ⟨hn, fun hc => absurd hc (by omega), fun hc => ?_, fun _ _ => ?_⟩
    · rw [hext] at hc
      exact nomatch hc
    · have hid : w.khl ≠ credentialIdSize := fun hc => by
        rw [hc] at hshort
        exact absurd hshort (by decide)
      have hhandle : w.khl ≠ u2fKeyHandleSize := fun hc => by
        rw [hc] at hshort
        exact absurd hshort (by decide)
      rwa [World.handleRead, if_neg hid, if_neg hhandle]
  · rw [if_neg hshort] at hn
    by_cases hext : isExtensionRequest w.kh w.khl = true
    · rw [if_pos hext] at hn
      refine ⟨by omega, fun _ => by omega, fun _ => hn, fun hc => ?_⟩
      rw [hext] at hc
      exact nomatch hc
    · rw [if_neg hext] at hn
      obtain ⟨hmax, hhandle⟩ := max_le_iff.mp hn
      refine ⟨by omega, fun _ => hmax, fun hc => absurd hc hext, fun _ hp1 => ?_⟩
      rwa [if_pos hp1] at hhandle

/-- A message that is read no further than it goes. -/
theorem u2fRequest_alike (hR : SameButEnd n w w') (hn : w.bytesRead env h ≤ n) :
    Alike (SameButEnd n) w w' (Routine.answered h.answer (u2fRequest env))
      (Routine.answered h.answer (u2fRequest env)) := by
  unfold u2fRequest
  simp only [Routine.answered_ite, Routine.answered_bind, Routine.answered_pure, Routine.answered_liftM]
  refine .get_bind ?_
  unfold World.bytesRead at hn
  by_cases hcla : w.cla ≠ 0
  · rw [if_pos hcla] at hn
    rw [hR.cla hn, if_pos hcla, if_pos hcla]
    exact .pure hR _
  rw [if_neg hcla] at hn
  have hversion : w.ins = u2fVersionIns → w.lcRead 0 ≤ n := by
    intro hins
    rwa [hins, if_neg (by decide), if_neg (by decide), if_pos rfl] at hn
  have hregister : w.ins = u2fRegisterIns → (w.lc ≠ 64 → w.lcRead 64 ≤ n) ∧ (w.lc = 64 → 7 ≤ n ∧
      (¬ (env.attestationCertDer.length > 1024 ∨ w.auth.presence h = 0) → 71 ≤ n)) := by
    intro hins
    rw [hins, if_neg (by decide), if_pos rfl] at hn
    refine ⟨fun hlc => by rwa [if_pos hlc] at hn, fun hlc => ?_⟩
    rw [if_neg (not_not.mpr hlc)] at hn
    refine ⟨by split_ifs at hn <;> omega, fun hsigned => ?_⟩
    rwa [if_neg hsigned] at hn
  have hauth : w.ins = u2fAuthenticateIns → w.authenticateRead ≤ n := by
    intro hins
    rwa [if_pos hins] at hn
  have h2 : 2 ≤ n := by
    by_cases hins : w.ins = u2fAuthenticateIns
    · have hread := (authenticateRead_le (hauth hins)).1
      omega
    · rw [if_neg hins] at hn
      have hlc (v : UInt8) : 4 ≤ w.lcRead v := Nat.le_add_right 4 _
      have h0 := hlc 0
      have h64 := hlc 64
      split_ifs at hn <;> omega
  rw [hR.cla (by omega), if_neg hcla, if_neg hcla]
  have hzero : w.ins = u2fVersionIns → (w'.lc = 0 ↔ w.lc = 0) := fun hins =>
    hR.lc_iff (v := 0) (hversion hins)
  refine (extendU2f_alike hR h2 hzero fun hins => ?_).bind fun r t t' hrun hR' =>
    Alike.bind ?_ fun r t t' _ hR => (sameButEnd_onAuth hR h _).bind fun _ _ _ _ hR => .pure hR _
  · obtain ⟨hkhl, htag, hext, -⟩ := authenticateRead_le (hauth hins)
    exact ⟨hkhl, htag, hext⟩
  · split
    case isFalse => exact .pure hR' _
    case isTrue hr =>
      obtain ⟨rfl, hnone⟩ := extendU2f_stays hrun hr
      refine u2fSwitch_alike hR' r.2 h2 hzero (fun hins => ?_) fun hins => ?_
      · obtain ⟨hother, hsame⟩ := hregister hins
        by_cases hlc : t.lc = 64
        · obtain ⟨h7, hsigned⟩ := hsame hlc
          exact ⟨by rw [hR.lc h7], fun _ => hsigned⟩
        · exact ⟨hR.lc_iff (v := 64) (hother hlc), fun hc => absurd hc hlc⟩
      · obtain ⟨hkhl, -, -, hhandle⟩ := authenticateRead_le (hauth hins)
        exact ⟨hkhl, hhandle (hnone hins)⟩

end Read

/-! ### Answers that depend on the message only -/

/-- The answer to the first `n` bytes of the buffer, and the device behind it, are
the same whatever comes after these bytes. -/
def DependsOnMessage (h : Answers) (n : ℕ) (w : World) : Prop :=
  ∀ w', SameButEnd n w w' → u2fReply env h w' = u2fReply env h w ∧
    SameButEnd n (Routine.answered h.answer (u2fRequest env) w).2
      (Routine.answered h.answer (u2fRequest env) w').2

/-- The world with this message in the buffer, followed by what was there. -/
def demoReceived (message leftover : List UInt8) : World :=
  Sample.world.withBytes (Buf.ofList _ (message ++ leftover))

/-- A registration. -/
def demoRegister : List UInt8 := [0, u2fRegisterIns, 0, 0, 0, 0, 64] ++ List.replicate 64 5

end NitrokeyFido2.Hid
