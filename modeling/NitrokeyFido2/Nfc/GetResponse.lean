import NitrokeyFido2.Nfc.Iblock

/-!
Long responses fetched with GET RESPONSE.

The chain buffer holds what is left of the response; each GET RESPONSE takes
a packet off its front. What a run of such commands delivers is stated
without the buffer, by `Delivers`: a response is taken apart into packets,
each a part of it and a 61XX word while bytes remain.
-/

namespace NitrokeyFido2.Nfc

/-- An APDU as `nfc_process_iblock` finds it, with what the command layers
will answer. -/
structure ApduEvent where
  ibuf : Buf 1024
  len : ℕ
  answer : Answer

namespace ApduEvent

/-- The state with the APDU in the frame buffer. -/
def place (e : ApduEvent) (s : State) : State := { s with ibuf := e.ibuf }

/-- `nfc_process_iblock` on the event. -/
def outcome (e : ApduEvent) (s : State) : Outcome := nfcProcessIblock (e.place s) e.len e.answer

/-- `apdu_decode` of the event; the state does not matter. -/
def decoded (e : ApduEvent) : Except UInt16 ApduStruct := (e.place State.powerUp).decode e.len

/-- The expected length in the command. -/
def le (e : ApduEvent) : ℕ :=
  match e.decoded with
  | .ok apdu => apdu.le
  | .error _ => 0

end ApduEvent

/-- A GET RESPONSE command that the handler accepts in this state. -/
structure AcceptedGetResponse (s : State) (e : ApduEvent) (apdu : ApduStruct) : Prop where
  decoded : e.decoded = .ok apdu
  cla : apdu.cla = 0x00 ∨ apdu.cla = 0x80
  ins : apdu.ins = apduGetResponse
  p1 : apdu.p1 = 0
  p2 : apdu.p2 = 0
  le : apdu.le = 0 ∨ apdu.le = 0x100 ∨ apdu.le ≤ s.chainBufferLen

/-- All of the commands are accepted, as far as the device stays defined. -/
def AllAccepted : State → List ApduEvent → Prop
  | _, [] => True
  | s, e :: es =>
      (∃ apdu, AcceptedGetResponse s e apdu) ∧ ∀ s', (e.outcome s).next = some s' → AllAccepted s' es

/-- The packet built for a command, with the state after it. -/
def packetOf : Outcome → Option (List UInt8 × State)
  | .processed _ _ (some (.plain packet, s)) => some (packet, s)
  | _ => none

/-- The packets built for a sequence of commands and the state at the end;
undefined when one does not fit its buffer. -/
def packets : State → List ApduEvent → Option (List (List UInt8) × State)
  | s, [] => some ([], s)
  | s, e :: es => do
      let (packet, s) ← packetOf (e.outcome s)
      let (rest, s) ← packets s es
      return (packet :: rest, s)

/-! ### What is delivered -/

/-- The 61XX word behind a packet, while bytes remain. -/
def trailerOf (rest : List UInt8) : List UInt8 :=
  if rest = [] then [] else appendGetResponse rest.length

/-- Packets that take a byte string apart from the front, and what is left of
it. -/
inductive Delivers : List UInt8 → List (List UInt8) → List UInt8 → Prop
  | nil (rest : List UInt8) : Delivers rest [] rest
  | cons {rest left : List UInt8} {later : List (List UInt8)} (part : List UInt8)
      (fits : (part ++ trailerOf rest).length ≤ 255) (h : Delivers rest later left) :
      Delivers (part ++ rest) ((part ++ trailerOf rest) :: later) left

/-- The data parts make up the byte string, up to what is left of it. -/
theorem Delivers.parts {response left : List UInt8} {sent : List (List UInt8)}
    (h : Delivers response sent left) :
    ∃ parts : List (List UInt8), parts.length = sent.length ∧ response = parts.flatten ++ left ∧
      ∀ (k : ℕ) (packet : List UInt8), sent[k]? = some packet →
        ∃ part, parts[k]? = some part ∧
          packet = part ++ trailerOf (response.drop (parts.take (k + 1)).flatten.length) := by
  induction h with
  | nil rest => exact ⟨[], rfl, rfl, fun k packet hk => by simp at hk⟩
  | cons part fits h ih =>
      rename_i rest left later
      obtain ⟨parts, hlen, hparts, hpackets⟩ := ih
      refine ⟨part :: parts, by simp [hlen], by simp [hparts], fun k packet hk => ?_⟩
      cases k with
      | zero =>
          rw [List.getElem?_cons_zero, Option.some.injEq] at hk
          exact ⟨part, rfl, by simp [hk]⟩
      | succ k =>
          rw [List.getElem?_cons_succ] at hk
          obtain ⟨part', hpart', rfl⟩ := hpackets k packet hk
          refine ⟨part', hpart', ?_⟩
          rw [List.take_succ_cons, List.flatten_cons, List.length_append, ← List.drop_drop,
            List.drop_left]

/-! ### The buffer between two commands -/

/-- The chain buffer holds these bytes for GET RESPONSE. -/
structure HoldsRest (s : State) (rest : List UInt8) : Prop where
  tx : s.chainBufferTx = true
  len : s.chainBufferLen = rest.length
  fits : rest.length ≤ 2048
  bytes : s.chainBuffer.slice 0 rest.length = rest

/-- How many bytes GET RESPONSE takes. -/
def packetLen (le rest : ℕ) : ℕ := min (if le ≠ 0 then le else 253) rest

/-- The packet for `le` fits its buffer when `rest` bytes are left: either the
61XX word fits too, or the packet is the last one and needs none. -/
def PacketFits (le rest : ℕ) : Prop := le ≤ 253 ∨ (rest ≤ le ∧ rest ≤ 255)
  deriving Decidable

/-- All packets of a run of GET RESPONSE commands fit their buffers. -/
def PacketsFit : ℕ → List ApduEvent → Prop
  | _, [] => True
  | rest, e :: es => PacketFits e.le rest ∧ PacketsFit (rest - packetLen e.le rest) es

/-! ### One command -/

@[simp] theorem length_appendGetResponse (n : ℕ) : (appendGetResponse n).length = 2 := rfl

theorem slice_prefix {n : ℕ} {b : Buf n} {rest : List UInt8} {k : ℕ} (h : b.slice 0 rest.length = rest)
    (hk : k ≤ rest.length) : b.slice 0 k = rest.take k := by
  conv_rhs => rw [← h]
  rw [Buf.slice, Buf.slice, List.take_take, Nat.min_eq_left hk]

theorem slice_suffix {n : ℕ} {b : Buf n} {rest : List UInt8} {k : ℕ} (h : b.slice 0 rest.length = rest) :
    b.slice k (rest.length - k) = rest.drop k := by
  conv_rhs => rw [← h]
  rw [Buf.slice, Buf.slice, List.drop_zero, List.drop_take]

section Command

variable {s : State} {rest : List UInt8} {apdu : ApduStruct}

/-- The packet built by GET RESPONSE. -/
def nextPacket (le : ℕ) (rest : List UInt8) : List UInt8 :=
  rest.take (packetLen le rest.length) ++ trailerOf (rest.drop (packetLen le rest.length))

theorem packetLen_le (le n : ℕ) : packetLen le n ≤ n := Nat.min_le_right ..

theorem length_take_packetLen (le : ℕ) (rest : List UInt8) :
    (rest.take (packetLen le rest.length)).length = packetLen le rest.length := by
  rw [List.length_take, Nat.min_eq_left (packetLen_le ..)]

theorem trailerOf_drop (k : ℕ) (rest : List UInt8) :
    trailerOf (rest.drop k) = if rest.length - k ≠ 0 then appendGetResponse (rest.length - k) else [] := by
  have hnil : rest.drop k = [] ↔ rest.length - k = 0 := by
    rw [← List.length_eq_zero_iff, List.length_drop]
  rw [trailerOf, List.length_drop]
  by_cases h : rest.length - k = 0
  · rw [if_pos (hnil.mpr h), if_neg (not_not.mpr h)]
  · rw [if_neg (mt hnil.mp h), if_pos h]

theorem packetFits_iff (le : ℕ) (rest : List UInt8) :
    PacketFits le rest.length ↔ (nextPacket le rest).length ≤ 255 := by
  rw [nextPacket, List.length_append, length_take_packetLen, trailerOf_drop, PacketFits, packetLen]
  split_ifs <;> simp only [length_appendGetResponse, List.length_nil] <;> omega

theorem getResponse_holds (hs : HoldsRest s rest) (hp1 : apdu.p1 = 0) (hp2 : apdu.p2 = 0)
    (hle : apdu.le = 0 ∨ apdu.le = 0x100 ∨ apdu.le ≤ rest.length) :
    getResponse s apdu =
      if PacketFits apdu.le rest.length then
        some (Reply.plain (nextPacket apdu.le rest),
          { s with
            chainBuffer := s.chainBuffer.write 0 (rest.drop (packetLen apdu.le rest.length))
            chainBufferLen := rest.length - packetLen apdu.le rest.length })
      else none := by
  have hlen := length_take_packetLen apdu.le rest
  have hmin : min (if apdu.le ≠ 0 then apdu.le else 253) rest.length = packetLen apdu.le rest.length := rfl
  have hsmall : ¬ (apdu.le ≠ 0 ∧ apdu.le ≠ 0x100 ∧ rest.length < apdu.le) := by omega
  have hfits := packetFits_iff apdu.le rest
  rw [nextPacket, List.length_append, hlen] at hfits
  have hdrop : (rest.drop (packetLen apdu.le rest.length)).length ≤ 2048 := by
    have := hs.fits
    rw [List.length_drop]
    omega
  unfold getResponse
  have hp12 : ¬ ((0 : UInt8) ≠ 0 ∨ (0 : UInt8) ≠ 0) := by simp
  simp only [hp1, hp2, if_neg hp12, hs.len, if_neg hsmall, hmin, slice_prefix hs.bytes (packetLen_le ..),
    slice_suffix hs.bytes, ← trailerOf_drop]
  by_cases hp : PacketFits apdu.le rest.length
  · have hle255 := hfits.mp hp
    rw [if_pos hp, Buf.store_of_le (by omega), Option.bind_eq_bind, Option.bind_some,
      Buf.store_of_le hle255, Option.bind_some, Buf.store_of_le (by omega), Option.bind_eq_bind,
      Option.bind_some, Buf.slice_zero_write hle255, Buf.slice_written hlen (by omega)]
    rfl
  · rw [if_neg hp]
    by_cases hpart : packetLen apdu.le rest.length ≤ 255
    · rw [Buf.store_of_le (by omega), Option.bind_eq_bind, Option.bind_some,
        Buf.store_of_lt (not_le.mp (mt hfits.mpr hp))]
      rfl
    · rw [Buf.store_of_lt (by omega)]
      rfl

end Command

/-! ### A run of commands -/

section Run

variable {s : State} {rest : List UInt8} {apdu : ApduStruct} {e : ApduEvent}

theorem HoldsRest.place (hs : HoldsRest s rest) : HoldsRest (e.place s) rest :=
  ⟨hs.tx, hs.len, hs.fits, hs.bytes⟩

/-- A GET RESPONSE command leaves the response in place and is handled by
`apdu_process`. -/
theorem outcome_getResponse (hs : HoldsRest s rest) (h : AcceptedGetResponse s e apdu) :
    ∃ data, e.outcome s = .processed apdu data (getResponse (e.place s) apdu) := by
  have hins : (e.place s).apduPtr 1 = apduGetResponse :=
    (apduDecode_header h.decoded).2.1.symm.trans h.ins
  have hclear : (e.place s).clearTx = e.place s := by
    rw [State.clearTx, if_neg]
    exact fun hc => hc.2 hins
  have hdec : (e.place s).decode e.len = .ok apdu := h.decoded
  have htx : (e.place s).chainBufferTx = true := hs.tx
  have hcla : ¬ (apdu.cla ≠ 0x00 ∧ apdu.cla ≠ 0x80) := by
    rintro ⟨h0, h80⟩
    exact h.cla.elim h0 h80
  refine ⟨apdu.dataBytes (e.place s).apduPtr, ?_⟩
  unfold ApduEvent.outcome nfcProcessIblock
  simp only [hclear, hdec, htx]
  rw [if_neg (by simp), if_neg (by simp), apduProcess, if_neg hcla, if_pos h.ins]

/-- One command takes a packet off the front of what is left, or overruns the
packet buffer. -/
theorem packetOf_getResponse (hs : HoldsRest s rest) (h : AcceptedGetResponse s e apdu) :
    if PacketFits e.le rest.length then
      ∃ s', (e.outcome s).next = some s' ∧
        packetOf (e.outcome s) = some (nextPacket e.le rest, s') ∧
        HoldsRest s' (rest.drop (packetLen e.le rest.length))
    else packetOf (e.outcome s) = none := by
  obtain ⟨data, hout⟩ := outcome_getResponse hs h
  have hle : e.le = apdu.le := by
    rw [ApduEvent.le, h.decoded]
  have hres := getResponse_holds (hs.place (e := e)) h.p1 h.p2 (hs.len ▸ h.le)
  rw [hout, hle]
  by_cases hp : PacketFits apdu.le rest.length
  · rw [if_pos hp] at hres ⊢
    refine ⟨_, by rw [hres]; rfl, by rw [hres]; rfl, ?_⟩
    have hdrop : (rest.drop (packetLen apdu.le rest.length)).length =
        rest.length - packetLen apdu.le rest.length := List.length_drop
    have hfits := hs.fits
    exact ⟨hs.tx, hdrop.symm, by omega, Buf.slice_written rfl (by omega)⟩
  · rw [if_neg hp] at hres ⊢
    rw [hres]
    rfl

theorem delivers_nextPacket {le : ℕ} {sent : List (List UInt8)} {left : List UInt8}
    (hp : PacketFits le rest.length)
    (h : Delivers (rest.drop (packetLen le rest.length)) sent left) :
    Delivers rest (nextPacket le rest :: sent) left := by
  have hcons := Delivers.cons (rest.take (packetLen le rest.length)) ((packetFits_iff le rest).mp hp) h
  rwa [List.take_append_drop] at hcons

/-- A run of accepted commands whose packets fit delivers what is left, packet
by packet. The induction is on the commands; the invariant is that the buffer
holds exactly what is left. -/
theorem packets_of_fit {es : List ApduEvent} (hs : HoldsRest s rest) (h : AllAccepted s es)
    (hfit : PacketsFit rest.length es) :
    ∃ sent s' left, packets s es = some (sent, s') ∧ HoldsRest s' left ∧ Delivers rest sent left := by
  induction es generalizing s rest with
  | nil => exact ⟨[], s, rest, rfl, hs, .nil rest⟩
  | cons e es ih =>
      obtain ⟨⟨apdu, haccepted⟩, hlater⟩ := h
      obtain ⟨hp, hfit⟩ := hfit
      have hstep := packetOf_getResponse hs haccepted
      rw [if_pos hp] at hstep
      obtain ⟨s₁, hnext, hpacket, hs₁⟩ := hstep
      obtain ⟨sent, s', left, hrun, hs', hdel⟩ := ih hs₁ (hlater s₁ hnext) (by
        rw [List.length_drop]
        exact hfit)
      refine ⟨nextPacket e.le rest :: sent, s', left, ?_, hs', delivers_nextPacket hp hdel⟩
      rw [packets, hpacket, Option.bind_eq_bind, Option.bind_some]
      dsimp only
      rw [hrun]
      rfl

/-- A packet that does not fit ends the run. -/
theorem packets_of_not_fit {es : List ApduEvent} (hs : HoldsRest s rest) (h : AllAccepted s es)
    (hfit : ¬ PacketsFit rest.length es) : packets s es = none := by
  induction es generalizing s rest with
  | nil => exact absurd trivial hfit
  | cons e es ih =>
      obtain ⟨⟨apdu, haccepted⟩, hlater⟩ := h
      have hstep := packetOf_getResponse hs haccepted
      by_cases hp : PacketFits e.le rest.length
      · rw [if_pos hp] at hstep
        obtain ⟨s₁, hnext, hpacket, hs₁⟩ := hstep
        have hrun := ih hs₁ (hlater s₁ hnext) (by
          rw [List.length_drop]
          exact fun hlate => hfit ⟨hp, hlate⟩)
        rw [packets, hpacket, Option.bind_eq_bind, Option.bind_some]
        dsimp only
        rw [hrun]
        rfl
      · rw [if_neg hp] at hstep
        rw [packets, hstep]
        rfl

end Run

/-! ### A whole response -/

theorem nfcWriteResponseChaining_long (s : State) (response : List UInt8)
    (hmin : 256 ≤ response.length) (hmax : response.length ≤ 2301) :
    ∃ s₁, nfcWriteResponseChaining s response false =
        some (.plain (response.take 253 ++ trailerOf (response.drop 253)), s₁) ∧
      HoldsRest s₁ (response.drop 253) := by
  have hlen : (response.take 253).length = 253 := by
    rw [List.length_take]
    omega
  have hdrop : (response.drop 253).length = response.length - 253 := List.length_drop
  have hshort : ¬ (response.length ≤ 255 ∨ false = true) := by
    rintro (h | h)
    · omega
    · cases h
  have htrailer : trailerOf (response.drop 253) = appendGetResponse (response.length - 253) := by
    rw [trailerOf_drop, if_pos (by omega)]
  have htrailer2 : (trailerOf (response.drop 253)).length = 2 := by
    rw [htrailer, length_appendGetResponse]
  unfold nfcWriteResponseChaining
  dsimp only
  rw [if_neg hshort, Nat.min_eq_left (by omega), ← htrailer, Buf.store_of_le (by omega),
    Option.bind_eq_bind, Option.bind_some, Buf.store_of_le (by omega), Option.bind_some,
    Buf.store_of_le (by omega), Option.bind_some, ← htrailer2, Buf.slice_zero_write (by omega), Buf.slice_written hlen (by omega)]
  exact ⟨_, rfl, rfl, hdrop.symm, by omega, Buf.slice_written rfl (by omega)⟩

/-- A response to a short APDU and the GET RESPONSE commands after it: all
packets, and the state at the end. -/
def delivery (s : State) (response : List UInt8) (es : List ApduEvent) :
    Option (List (List UInt8) × State) :=
  match nfcWriteResponseChaining s response false with
  | some (.plain packet, s) => (packets s es).map fun (later, s) => (packet :: later, s)
  | _ => none

/-- The response arrives intact as long as no command asks for more bytes than
leave room for the 61XX word in the packet buffer. -/
theorem delivery_iff {s : State} {response : List UInt8} {es : List ApduEvent}
    (hmin : 256 ≤ response.length) (hmax : response.length ≤ 2301)
    (haccepted : ∀ reply s₁, nfcWriteResponseChaining s response false = some (reply, s₁) →
      AllAccepted s₁ es) :
    (∃ sent s' left, delivery s response es = some (sent, s') ∧ HoldsRest s' left ∧
      Delivers response sent left) ↔ PacketsFit (response.length - 253) es := by
  obtain ⟨s₁, hfirst, hs₁⟩ := nfcWriteResponseChaining_long s response hmin hmax
  have hall := haccepted _ _ hfirst
  have hdrop : (response.drop 253).length = response.length - 253 := List.length_drop
  rw [← hdrop, delivery, hfirst]
  dsimp only
  constructor
  · rintro ⟨sent, s', left, hsent, -⟩
    by_contra hfit
    rw [packets_of_not_fit hs₁ hall hfit] at hsent
    cases hsent
  · intro hfit
    obtain ⟨later, s', left, hrun, hs', hdel⟩ := packets_of_fit hs₁ hall hfit
    refine ⟨_, s', left, by rw [hrun]; rfl, hs', ?_⟩
    have hcons := Delivers.cons (response.take 253) (by
      rw [List.length_append, List.length_take, trailerOf_drop]
      split_ifs <;> simp only [length_appendGetResponse, List.length_nil] <;> omega) hdel
    rwa [List.take_append_drop] at hcons

/-- `00 C0 00 00 Le`. -/
def getResponseCommand (le : UInt8) : ApduEvent where
  ibuf := Buf.ofList 1024 [0x02, 0x00, 0xc0, 0x00, 0x00, le]
  len := 6
  answer := ⟨0, []⟩

theorem decoded_getResponseCommand (le : UInt8) :
    (getResponseCommand le).decoded = .ok
      { cla := 0x00, ins := 0xc0, p1 := 0, p2 := 0, lc := 0, data := none,
        le := orElse le.toNat 0x100, extendedApdu := false, caseType := 0x02 } := by
  have hbyte : ∀ i, (getResponseCommand le).ibuf.byte i = [0x02, 0x00, 0xc0, 0x00, 0x00, le].getD i 0 :=
    Buf.byte_ofList (by simp)
  have hoff : ((getResponseCommand le).place State.powerUp).blockOffset = 1 := by
    show p14443BlockOffset ((getResponseCommand le).ibuf.byte 0) = 1
    rw [hbyte]
    exact (by decide : p14443BlockOffset 0x02 = 1)
  have hptr : ((getResponseCommand le).place State.powerUp).apduPtr =
      fun i => [0x02, 0x00, 0xc0, 0x00, 0x00, le].getD (1 + i) 0 := by
    funext i
    rw [State.apduPtr, hoff]
    exact hbyte (1 + i)
  have hlen : ((getResponseCommand le).place State.powerUp).apduLen 6 = 5 := by
    rw [State.apduLen, hoff]
    rfl
  show apduDecode _ (State.apduLen _ 6) = _
  rw [hptr, hlen, apduDecode_case2S rfl]
  simp [ApduStruct.header]

theorem accepted_getResponseCommand {s : State} {rest : List UInt8} (hs : HoldsRest s rest)
    {le : UInt8} (hle : le = 0 ∨ le.toNat ≤ rest.length) :
    AllAccepted s [getResponseCommand le] := by
  refine ⟨⟨_, decoded_getResponseCommand le, .inl rfl, rfl, rfl, rfl, ?_⟩, fun _ _ => trivial⟩
  dsimp only
  rw [hs.len, orElse]
  rcases hle with rfl | hle
  · exact .inr (.inl rfl)
  · split_ifs
    · exact .inr (.inl rfl)
    · exact .inr (.inr hle)

/-- The 47 bytes left of a response of 300. -/
theorem delivery_demo :
    ∃ sent s' left, delivery State.powerUp (List.replicate 300 0x55) [getResponseCommand 47] =
        some (sent, s') ∧ HoldsRest s' left ∧ Delivers (List.replicate 300 0x55) sent left := by
  have hlen : (List.replicate 300 (0x55 : UInt8)).length = 300 := List.length_replicate
  refine (delivery_iff (by omega) (by omega) fun reply s₁ hfirst => ?_).mpr ?_
  · obtain ⟨s₂, hlong, hs₂⟩ := nfcWriteResponseChaining_long State.powerUp
      (List.replicate 300 0x55) (by omega) (by omega)
    rw [hlong, Option.some.injEq, Prod.mk.injEq] at hfirst
    obtain ⟨-, rfl⟩ := hfirst
    refine accepted_getResponseCommand hs₂ (.inr ?_)
    rw [List.length_drop, hlen]
    decide
  · rw [hlen]
    refine ⟨.inl ?_, trivial⟩
    rw [ApduEvent.le, decoded_getResponseCommand]
    decide

/-- GET RESPONSE with a zero Le while 347 bytes are left: 256 bytes and the
61XX word are put into a packet of 255. -/
theorem delivery_counterexample :
    ∃ s₁, nfcWriteResponseChaining State.powerUp (List.replicate 600 0x55) false =
        some (.plain (List.replicate 253 0x55 ++ [0x61, 0x00]), s₁) ∧
      AllAccepted s₁ [getResponseCommand 0] ∧
      ¬ ∃ sent s' left, delivery State.powerUp (List.replicate 600 0x55) [getResponseCommand 0] =
        some (sent, s') ∧ HoldsRest s' left ∧ Delivers (List.replicate 600 0x55) sent left := by
  have hlen : (List.replicate 600 (0x55 : UInt8)).length = 600 := List.length_replicate
  obtain ⟨s₁, hfirst, hs₁⟩ := nfcWriteResponseChaining_long State.powerUp
    (List.replicate 600 0x55) (by omega) (by omega)
  have hall : AllAccepted s₁ [getResponseCommand 0] := accepted_getResponseCommand hs₁ (.inl rfl)
  refine ⟨s₁, ?_, hall, ?_⟩
  · rw [hfirst, trailerOf_drop, hlen, List.take_replicate]
    rfl
  · rintro ⟨sent, s', left, hsent, -⟩
    have hover : packets s₁ [getResponseCommand 0] = none := by
      refine packets_of_not_fit hs₁ hall fun hfit => ?_
      have hpacket := hfit.1
      rw [ApduEvent.le, decoded_getResponseCommand, List.length_drop, hlen] at hpacket
      exact absurd hpacket (by decide)
    rw [delivery, hfirst] at hsent
    dsimp only at hsent
    rw [hover] at hsent
    cases hsent

end NitrokeyFido2.Nfc
