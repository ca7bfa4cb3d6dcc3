import NitrokeyFido2.Lib.Transition
import NitrokeyFido2.Nfc.GetResponse

/-!
Command APDUs chained with the class bit.

A monitor keeps, next to the device, the data fields that were chained since
the last command without the class bit, whatever became of that command. The
device should process every such command with these fields and its own. It
does as long as each chain ends in a command that leaves nothing of it in the
buffer: one that carries data, has room for the chain in the frame buffer and
is answered through `nfc_write_response_chaining`.
-/

namespace NitrokeyFido2.Nfc

namespace ApduEvent

variable (e : ApduEvent)

/-- The class bit is set. -/
def isChained : Bool := (e.place State.powerUp).cla &&& claChaining ≠ 0

/-- The data field of the APDU. -/
def ownData : List UInt8 :=
  match e.decoded with
  | .ok apdu => apdu.dataBytes (e.place State.powerUp).apduPtr
  | .error _ => []

end ApduEvent

/-- An APDU arrives, or the reader selects the card anew. -/
inductive ChainEvent
  | apdu (e : ApduEvent)
  | stateInit

/-- The device, as long as no write has left its buffer, and the data fields
chained since the last command without the class bit. -/
structure Monitor where
  device : Option State
  pending : List UInt8

namespace Monitor

def powerUp : Monitor := ⟨some State.powerUp, []⟩

/-- The pending data fields after an APDU. -/
def pendingAfter (pending : List UInt8) (e : ApduEvent) : Outcome → List UInt8
  | .chained _ => pending ++ e.ownData
  | _ => if e.isChained then pending else []

def step (m : Monitor) : ChainEvent → Monitor
  | .stateInit => { m with device := m.device.map State.nfcStateInit }
  | .apdu e =>
      match m.device with
      | none => m
      | some s => ⟨(e.outcome s).next, pendingAfter m.pending e (e.outcome s)⟩

end Monitor

/-- A command without the class bit is processed with the pending data fields
and its own, and putting them together stays in the frame buffer. -/
structure Reassembles (m : Monitor) (ev : ChainEvent) : Prop where
  fits : ∀ e s, ev = .apdu e → m.device = some s → e.outcome s ≠ .overrun
  data : ∀ e s apdu data result, ev = .apdu e → m.device = some s →
    e.outcome s = .processed apdu data result → e.isChained = false → data = m.pending ++ e.ownData

/-- A command that leaves nothing in the chain buffer of a chain of `n` bytes
before it: it is answered through `nfc_write_response_chaining`, takes all of
the buffer for a response, or restarts the device. -/
def UsesUpChain (s : State) (n : ℕ) (apdu : ApduStruct) (data : List UInt8) : Prop :=
  (apdu.cla = 0x00 ∨ apdu.cla = 0x80) ∧
    ((apdu.ins = apduGetResponse ∧ apdu.p1 = 0 ∧ apdu.p2 = 0 ∧
        (apdu.le = 0 ∧ n ≤ 253 ∨ apdu.le = n ∨ apdu.le = 0x100 ∧ n ≤ 0x100)) ∨
      (apdu.ins = apduSoloReset ∧ data = resetMagic) ∨
      (s.selectedApplet = .fido ∧
        (apdu.ins = apduFidoU2fVersion ∨
          apdu.ins = apduFidoU2fRegister ∧ data.length = 64 ∨
          apdu.ins = apduFidoU2fAuthenticate ∧ authenticateLength data ∨
          apdu.ins = apduFidoNfcctapMsg)))

/-- A command without the class bit that arrives behind chained data. -/
def ApduEvent.EndsChain (e : ApduEvent) (s : State) : Prop :=
  e.isChained = false ∧ s.chainBufferTx = false ∧ 0 < s.chainBufferLen

/-- A command at the end of a chain carries data, leaves room for the chain in
the frame buffer, and uses it up. -/
def ClosesChain (m : Monitor) (ev : ChainEvent) : Prop :=
  ∀ e s, ev = .apdu e → m.device = some s → e.EndsChain s →
    ∃ apdu off, e.decoded = .ok apdu ∧ apdu.data = some off ∧
      (e.place s).blockOffset + off + s.chainBufferLen + apdu.lc ≤ 1024 ∧
      UsesUpChain s s.chainBufferLen apdu
        (s.chainBuffer.slice 0 s.chainBufferLen ++ e.ownData)

/-! ### The commands and the chain -/

/-- Nothing is left of a chain. -/
def Settled (s : State) : Prop := s.chainBufferTx = true ∨ s.chainBufferLen = 0

section Commands

variable {s s' : State} {apdu : ApduStruct} {data : List UInt8} {answer : Answer} {reply : Reply}

theorem nfcWriteResponseChaining_tx {ext : Bool}
    (h : nfcWriteResponseChaining s data ext = some (reply, s')) :
    s'.chainBufferTx = true ∧ s'.chainBufferLen ≤ 2048 := by
  unfold nfcWriteResponseChaining at h
  dsimp only at h
  split_ifs at h with hshort
  · cases h
    exact ⟨rfl, Nat.zero_le _⟩
  · simp only [Option.bind_eq_bind, Option.bind_eq_some_iff, Buf.store_eq_some] at h
    obtain ⟨_, -, _, -, _, ⟨hfit, -⟩, h⟩ := h
    cases h
    refine ⟨rfl, ?_⟩
    rw [Nat.zero_add, List.length_drop] at hfit
    exact hfit

/-- GET RESPONSE is refused or takes bytes off the front. -/
theorem getResponse_some (h : getResponse s apdu = some (reply, s')) :
    (s' = s ∧ (apdu.p1 ≠ 0 ∨ apdu.p2 ≠ 0 ∨
        apdu.le ≠ 0 ∧ apdu.le ≠ 0x100 ∧ s.chainBufferLen < apdu.le)) ∨
      (s'.chainBufferTx = s.chainBufferTx ∧
        s'.chainBufferLen = s.chainBufferLen - packetLen apdu.le s.chainBufferLen) := by
  unfold getResponse at h
  by_cases hp : apdu.p1 ≠ 0 ∨ apdu.p2 ≠ 0
  · rw [if_pos hp] at h
    cases h
    exact .inl ⟨rfl, or_assoc.mp (.inl hp)⟩
  rw [if_neg hp] at h
  by_cases hle : apdu.le ≠ 0 ∧ apdu.le ≠ 0x100 ∧ s.chainBufferLen < apdu.le
  · rw [if_pos hle] at h
    cases h
    exact .inl ⟨rfl, .inr (.inr hle)⟩
  rw [if_neg hle] at h
  simp only [Option.bind_eq_bind, Option.bind_eq_some_iff] at h
  obtain ⟨_, -, _, -, _, -, h⟩ := h
  cases h
  exact .inr ⟨rfl, rfl⟩

/-- What a command can do to the chain. -/
def Continued (s s' : State) : Prop :=
  (s'.chainBufferTx = s.chainBufferTx ∧ s'.chainBufferLen ≤ s.chainBufferLen) ∨
    (Settled s' ∧ s'.chainBufferLen ≤ 2048)

theorem Continued.of_eq (htx : s'.chainBufferTx = s.chainBufferTx)
    (hlen : s'.chainBufferLen = s.chainBufferLen) : Continued s s' := .inl ⟨htx, hlen.le⟩

theorem getResponse_continued (h : getResponse s apdu = some (reply, s')) : Continued s s' := by
  rcases getResponse_some h with ⟨rfl, -⟩ | ⟨htx, hlen⟩
  · exact .of_eq rfl rfl
  · exact .inl ⟨htx, by omega⟩

theorem fidoCommand_continued {r : Option (Reply × State)}
    (hr : r = some (reply, s') → Continued s s') (h : fidoCommand s r = some (reply, s')) :
    Continued s s' := by
  unfold fidoCommand at h
  split_ifs at h
  · cases h
    exact .of_eq rfl rfl
  · exact hr h

theorem nfcWriteResponseChaining_continued {ext : Bool}
    (h : nfcWriteResponseChaining s data ext = some (reply, s')) : Continued s s' :=
  .inr ⟨.inl (nfcWriteResponseChaining_tx h).1, (nfcWriteResponseChaining_tx h).2⟩

theorem selectCommand_continued (h : some (selectCommand s data) = some (reply, s')) :
    Continued s s' := by
  unfold selectCommand at h
  split at h <;> cases h <;> exact .of_eq rfl rfl

/-- A refusal leaves the chain alone. -/
theorem refused_continued {r : Reply} (h : some (r, s) = some (reply, s')) : Continued s s' := by
  cases h
  exact .of_eq rfl rfl

/-- One test of the dispatch. -/
theorem test_cases {α : Type} {P c : Prop} [Decidable c] {a b x : α}
    (h : (if c then a else b) = x) (ha : c → a = x → P) (hb : ¬ c → b = x → P) : P := by
  by_cases hc : c
  · rw [if_pos hc] at h
    exact ha hc h
  · rw [if_neg hc] at h
    exact hb hc h

theorem apduProcess_continued (h : apduProcess s apdu data answer = some (reply, s')) :
    Continued s s' := by
  refine test_cases h (fun _ h => refused_continued h) fun _ h => ?_
  refine test_cases h (fun _ h => getResponse_continued h) fun _ h => ?_
  refine test_cases h (fun _ h => selectCommand_continued h) fun _ h => ?_
  refine test_cases h (fun _ h => fidoCommand_continued nfcWriteResponseChaining_continued h)
    fun _ h => ?_
  refine test_cases h (fun _ h => fidoCommand_continued (fun h => test_cases h
    (fun _ h => refused_continued h) fun _ h => nfcWriteResponseChaining_continued h) h) fun _ h => ?_
  refine test_cases h (fun _ h => fidoCommand_continued (fun h => test_cases h
    (fun _ h => refused_continued h) fun _ h => nfcWriteResponseChaining_continued h) h) fun _ h => ?_
  refine test_cases h (fun _ h => fidoCommand_continued nfcWriteResponseChaining_continued h)
    fun _ h => ?_
  refine test_cases h (fun _ h => refused_continued h) fun _ h => ?_
  refine test_cases h (fun _ h => test_cases h ?_ fun _ h => refused_continued h)
    fun _ h => refused_continued h
  intro _ h
  cases h
  exact .inr ⟨.inr rfl, Nat.zero_le _⟩

theorem apduProcess_settled (hs : Settled s)
    (h : apduProcess s apdu data answer = some (reply, s')) : Settled s' := by
  rcases apduProcess_continued h with ⟨htx, hlen⟩ | ⟨hsettled, -⟩
  · rcases hs with hs | hs
    · exact .inl (htx.trans hs)
    · exact .inr (by omega)
  · exact hsettled

/-- A command that uses up the chain. -/
theorem apduProcess_usesUp (huse : UsesUpChain s s.chainBufferLen apdu data)
    (h : apduProcess s apdu data answer = some (reply, s')) : Settled s' := by
  obtain ⟨hcla, huse⟩ := huse
  have hcla' : ¬ (apdu.cla ≠ 0x00 ∧ apdu.cla ≠ 0x80) := fun hc => hcla.elim hc.1 hc.2
  unfold apduProcess at h
  rw [if_neg hcla'] at h
  rcases huse with ⟨hins, hp1, hp2, hle⟩ | ⟨hins, hdata⟩ | ⟨happlet, hfido⟩
  · rw [if_pos hins] at h
    rcases getResponse_some h with ⟨-, hrefused⟩ | ⟨-, hlen⟩
    · rcases hrefused with hp | hp | hp
      · exact absurd hp1 hp
      · exact absurd hp2 hp
      · omega
    · refine .inr (hlen.trans ?_)
      unfold packetLen
      split_ifs <;> omega
  · rw [hins, if_neg (by decide), if_neg (by decide), if_neg (by decide), if_neg (by decide),
      if_neg (by decide), if_neg (by decide), if_neg (by decide), if_pos rfl, if_pos hdata] at h
    cases h
    exact .inr rfl
  · have hfidoCommand : ∀ r, fidoCommand s r = r := fun r => if_neg (not_not.mpr happlet)
    simp only [hfidoCommand] at h
    rcases hfido with hins | ⟨hins, hlen⟩ | ⟨hins, hlen⟩ | hins
    · rw [hins, if_neg (by decide), if_neg (by decide), if_pos rfl] at h
      exact .inl (nfcWriteResponseChaining_tx h).1
    · rw [hins, if_neg (by decide), if_neg (by decide), if_neg (by decide), if_pos rfl,
        if_neg (not_not.mpr hlen)] at h
      exact .inl (nfcWriteResponseChaining_tx h).1
    · rw [hins, if_neg (by decide), if_neg (by decide), if_neg (by decide), if_neg (by decide),
        if_pos rfl, if_neg (not_not.mpr hlen)] at h
      exact .inl (nfcWriteResponseChaining_tx h).1
    · rw [hins, if_neg (by decide), if_neg (by decide), if_neg (by decide), if_neg (by decide),
        if_neg (by decide), if_pos rfl] at h
      exact .inl (nfcWriteResponseChaining_tx h).1

end Commands

/-! ### The merge -/

theorem slice_add {n : ℕ} (b : Buf n) (lo k l : ℕ) :
    b.slice lo (k + l) = b.slice lo k ++ b.slice (lo + k) l := by
  rw [Buf.slice, List.take_add, List.drop_drop]
  rfl

theorem bytesAt_byte {n : ℕ} (b : Buf n) {k off l : ℕ} (h : k + off + l ≤ n) :
    bytesAt (fun i => b.byte (k + i)) off l = b.slice (k + off) l := by
  apply List.ext_getElem?
  intro i
  by_cases hi : i < l
  · rw [getElem?_bytesAt _ hi, Buf.slice, List.getElem?_take_of_lt hi, List.getElem?_drop, Buf.byte,
      ← Nat.add_assoc, List.getD_eq_getElem?_getD, List.getElem?_eq_getElem (by
        rw [b.length_bytes]
        omega)]
    rfl
  · rw [List.getElem?_eq_none (by rw [length_bytesAt]; omega), List.getElem?_eq_none (by
      rw [Buf.length_slice h]
      omega)]

theorem blockOffset_pos (s : State) : 0 < s.blockOffset := p14443BlockOffset_pos _

/-- The data field of an APDU, in the frame buffer. -/
theorem dataBytes_eq_slice {s : State} {apdu : ApduStruct} {off : ℕ} (hdata : apdu.data = some off)
    (hfit : s.blockOffset + off + apdu.lc ≤ 1024) :
    apdu.dataBytes s.apduPtr = s.ibuf.slice (s.blockOffset + off) apdu.lc := by
  rw [ApduStruct.dataBytes, hdata]
  exact bytesAt_byte s.ibuf hfit

/-- The merge puts the chain before the data, as long as both fit. -/
theorem merge_fits {s : State} {apdu : ApduStruct} {off : ℕ} (hdata : apdu.data = some off)
    (hlen : s.chainBufferLen ≤ 2048)
    (hfit : s.blockOffset + off + s.chainBufferLen + apdu.lc ≤ 1024) :
    ∃ ibuf, s.merge apdu =
        some ({ apdu with lc := apdu.lc + s.chainBufferLen }, { s with ibuf := ibuf }) ∧
      ({ apdu with lc := apdu.lc + s.chainBufferLen } : ApduStruct).dataBytes
          ({ s with ibuf := ibuf } : State).apduPtr =
        s.chainBuffer.slice 0 s.chainBufferLen ++ apdu.dataBytes s.apduPtr := by
  have hpos := blockOffset_pos s
  have hown : (s.ibuf.slice (s.blockOffset + off) apdu.lc).length = apdu.lc :=
    Buf.length_slice (by omega)
  have hchain : (s.chainBuffer.slice 0 s.chainBufferLen).length = s.chainBufferLen :=
    Buf.length_slice (by omega)
  have hmod : (apdu.lc + s.chainBufferLen) % 2 ^ 16 = apdu.lc + s.chainBufferLen :=
    Nat.mod_eq_of_lt (by omega)
  let own := s.ibuf.slice (s.blockOffset + off) apdu.lc
  let chain := s.chainBuffer.slice 0 s.chainBufferLen
  let moved := s.ibuf.write (s.blockOffset + off + s.chainBufferLen) own
  have hmerge : s.merge apdu = some ({ apdu with lc := apdu.lc + s.chainBufferLen },
      { s with ibuf := moved.write (s.blockOffset + off) chain }) := by
    rw [State.merge, hdata, Option.bind_eq_bind, Option.bind_some]
    dsimp only
    rw [Buf.store_of_le (by omega), Option.bind_eq_bind, Option.bind_some,
      Buf.store_of_le (by omega), Option.bind_some, hmod]
    rfl
  refine ⟨_, hmerge, ?_⟩
  -- the header of the block stays, so the data is found where it was
  have hbyte : (moved.write (s.blockOffset + off) chain).byte 0 = s.ibuf.byte 0 := by
    rw [Buf.byte_write_other (by rw [hchain]; omega) (by omega),
      Buf.byte_write_other (by rw [hown]; omega) (by omega)]
  let merged : State := { s with ibuf := moved.write (s.blockOffset + off) chain }
  have hoffset : merged.blockOffset = s.blockOffset := by
    show p14443BlockOffset ((moved.write (s.blockOffset + off) chain).byte 0) = _
    rw [hbyte]
    rfl
  have hdata' : ({ apdu with lc := apdu.lc + s.chainBufferLen } : ApduStruct).dataBytes merged.apduPtr =
      merged.ibuf.slice (merged.blockOffset + off) (apdu.lc + s.chainBufferLen) :=
    dataBytes_eq_slice hdata (by
      rw [hoffset]
      dsimp only
      omega)
  rw [hoffset] at hdata'
  refine hdata'.trans ?_
  rw [dataBytes_eq_slice hdata (by omega), Nat.add_comm apdu.lc, slice_add,
    Buf.slice_written hchain (by omega), Buf.slice_write_after (by rw [hchain]; omega) (by rw [hchain]),
    Buf.slice_written hown (by omega)]

/-! ### One APDU -/

/-- The chain buffer agrees with the pending data fields: it holds them while
commands are chained, and none are pending while a response goes out. -/
structure Agrees (pending : List UInt8) (s : State) : Prop where
  len : s.chainBufferTx = false → s.chainBufferLen ≤ 2048
  bytes : s.chainBufferTx = false → s.chainBuffer.slice 0 s.chainBufferLen = pending
  tx : s.chainBufferTx = true → pending = []

theorem Settled.agrees {s : State} (hs : Settled s) : Agrees [] s := by
  have hlen : s.chainBufferTx = false → s.chainBufferLen = 0 := by
    intro htx
    rcases hs with hs | hs
    · rw [hs] at htx
      cases htx
    · exact hs
  refine ⟨fun htx => ?_, fun htx => ?_, fun _ => rfl⟩
  · rw [hlen htx]
    omega
  · rw [hlen htx]
    exact List.take_zero ..

theorem Agrees.nfcStateInit {pending : List UInt8} {s : State} (hs : Agrees pending s) :
    Agrees pending s.nfcStateInit := ⟨hs.len, hs.bytes, hs.tx⟩

/-- Giving up a response leaves an empty chain. -/
theorem Agrees.clearTx {pending : List UInt8} {s : State} (hs : Agrees pending s) :
    Agrees pending s.clearTx := by
  unfold State.clearTx
  split_ifs with hclear
  · rw [hs.tx hclear.1]
    exact Settled.agrees (.inr rfl)
  · exact hs

theorem clearTx_ibuf (s : State) : s.clearTx.ibuf = s.ibuf := by
  unfold State.clearTx
  split_ifs <;> rfl

theorem clearTx_pending {s : State} (hlen : 0 < s.clearTx.chainBufferLen) : s.clearTx = s := by
  unfold State.clearTx at hlen ⊢
  split_ifs at hlen ⊢
  · exact absurd hlen (Nat.lt_irrefl 0)
  · rfl

/-- What is seen of an APDU depends on the frame buffer only. -/
theorem decode_of_ibuf {s t : State} (h : s.ibuf = t.ibuf) (len : ℕ) :
    s.apduPtr = t.apduPtr ∧ s.decode len = t.decode len ∧ s.cla = t.cla := by
  have hoffset : s.blockOffset = t.blockOffset := by
    rw [State.blockOffset, State.pcb, h]
    rfl
  have hptr : s.apduPtr = t.apduPtr := by
    funext i
    rw [State.apduPtr, State.apduPtr, h, hoffset]
  refine ⟨hptr, ?_, ?_⟩
  · rw [State.decode, State.decode, hptr, State.apduLen, State.apduLen, hoffset]
  · rw [State.cla, State.cla, hptr]

/-- What has to hold of the handling of an APDU behind these pending data
fields. -/
structure Handled (pending : List UInt8) (e : ApduEvent) (o : Outcome) : Prop where
  fits : o ≠ .overrun
  data : ∀ apdu data result, o = .processed apdu data result → e.isChained = false →
    data = pending ++ e.ownData
  agrees : ∀ s', o.next = some s' → Agrees (Monitor.pendingAfter pending e o) s'

section Outcome

variable {pending : List UInt8} {e : ApduEvent} {s t : State} {apdu : ApduStruct}

/-- `s` with the APDU of `e`, as the tests of `nfc_process_iblock` see it. -/
structure Placed (e : ApduEvent) (s t : State) : Prop where
  clear : (e.place s).clearTx = t
  ptr : t.apduPtr = (e.place State.powerUp).apduPtr
  decode : t.decode e.len = e.decoded
  cla : (t.cla &&& claChaining ≠ 0) = (e.isChained = true)

theorem placed (e : ApduEvent) (s : State) : Placed e s (e.place s).clearTx := by
  have hbuf : (e.place s).clearTx.ibuf = (e.place State.powerUp).ibuf := clearTx_ibuf _
  obtain ⟨hptr, hdecode, hcla⟩ := decode_of_ibuf hbuf e.len
  refine ⟨rfl, hptr, hdecode, ?_⟩
  rw [hcla, ApduEvent.isChained, decide_eq_true_eq]

/-- Without the class bit, an APDU finds nothing of a chain or ends it. -/
theorem settled_or_ends (ht : Placed e s t) (hchained : e.isChained = false) :
    Settled t ∨ t = e.place s ∧ e.EndsChain s := by
  by_cases htx : t.chainBufferTx = true
  · exact .inl (.inl htx)
  · by_cases hlen : t.chainBufferLen = 0
    · exact .inl (.inr hlen)
    · have hkept : (e.place s).clearTx = e.place s :=
        clearTx_pending (by rw [ht.clear]; omega)
      rw [ht.clear] at hkept
      rw [hkept] at htx hlen
      exact .inr ⟨hkept, hchained, Bool.eq_false_iff.mpr htx, Nat.pos_of_ne_zero hlen⟩

theorem Agrees.pending_of_settled (ht : Agrees pending t) (hsettled : Settled t) : pending = [] := by
  by_cases htx : t.chainBufferTx = true
  · exact ht.tx htx
  · have hlen := hsettled.resolve_left htx
    rw [← ht.bytes (by simpa using htx), hlen]
    exact List.take_zero ..

/-- An APDU that is refused. -/
theorem handled_refused (ht : Agrees pending t) (resp : UInt16)
    (hsettled : e.isChained = false → Settled t) : Handled pending e (.refused resp t) := by
  refine ⟨by simp, by simp, fun s' hs' => ?_⟩
  cases hs'
  unfold Monitor.pendingAfter
  by_cases hchained : e.isChained = true
  · rw [if_pos hchained]
    exact ht
  · rw [if_neg hchained]
    exact (hsettled (by simpa using hchained)).agrees

/-- An APDU whose data is chained. -/
theorem handled_chained (ht : Agrees pending t) (htx : t.chainBufferTx = false)
    (hown : e.ownData.length = apdu.lc) (hfit : t.chainBufferLen + apdu.lc ≤ 2048) :
    Handled pending e (.chained { t with
      chainBuffer := t.chainBuffer.write t.chainBufferLen e.ownData
      chainBufferLen := t.chainBufferLen + apdu.lc }) := by
  refine ⟨by simp, by simp, fun s' hs' => ?_⟩
  cases hs'
  refine ⟨fun _ => hfit, fun _ => ?_, fun htx' => ?_⟩
  · show Buf.slice _ 0 (t.chainBufferLen + apdu.lc) = pending ++ e.ownData
    rw [← hown, Buf.slice_zero_write (by omega), ht.bytes htx]
  · rw [htx] at htx'
    cases htx'

/-- A command without the class bit, or one that is not chained since a
response goes out. -/
theorem handled_processed {data : List UInt8} {result : Option (Reply × State)}
    (hdata : e.isChained = false → data = pending ++ e.ownData)
    (hpending : e.isChained = true → pending = [])
    (hresult : ∀ reply s', result = some (reply, s') → Settled s') :
    Handled pending e (.processed apdu data result) := by
  refine ⟨by simp, ?_, fun s' hs' => ?_⟩
  · intro apdu' data' result' heq
    cases heq
    exact hdata
  · obtain ⟨⟨reply, s''⟩, hresult', rfl⟩ := Option.map_eq_some_iff.mp hs'
    have hnil : (if e.isChained = true then pending else []) = [] := by
      split_ifs with hchained
      · exact hpending hchained
      · rfl
    show Agrees (if e.isChained = true then pending else []) s''
    rw [hnil]
    exact (hresult reply s'' hresult').agrees

theorem length_ownData (hdec : e.decoded = .ok apdu) : e.ownData.length = apdu.lc := by
  rw [ApduEvent.ownData, hdec]
  exact (apduDecode_inside hdec).length_dataBytes

/-- The data of an accepted APDU is no longer than what was received. -/
theorem lc_le_len (hdec : e.decoded = .ok apdu) : apdu.lc ≤ e.len := by
  have hlc := (apduDecode_inside hdec).lc_le
  have hlen := (apduDecode_len hdec).2
  have hoff : (e.place State.powerUp).blockOffset ≤ 3 := p14443BlockOffset_le _
  have hpow : (65545 : ℕ) + 3 < 2 ^ 32 := by norm_num
  unfold State.apduLen at hlc hlen
  split_ifs at hlc hlen <;> omega

/-- Every APDU is handled as it should as long as the end of a chain uses it
up. -/
theorem outcome_handled (hs : Agrees pending s)
    (hclose : ClosesChain ⟨some s, pending⟩ (.apdu e)) : Handled pending e (e.outcome s) := by
  obtain ⟨t, ht⟩ : ∃ t, Placed e s t := ⟨_, placed e s⟩
  have hagrees : Agrees pending t := by
    rw [← ht.clear]
    exact Agrees.clearTx ⟨hs.len, hs.bytes, hs.tx⟩
  unfold ApduEvent.outcome nfcProcessIblock
  simp only [ht.clear, ht.decode]
  cases hdec : e.decoded with
  | error ret =>
      refine handled_refused hagrees ret fun hchained => ?_
      refine (settled_or_ends ht hchained).resolve_right fun hends => ?_
      obtain ⟨apdu, _, hok, -⟩ := hclose e s rfl rfl hends.2
      rw [hdec] at hok
      cases hok
  | ok apdu =>
      have hown : apdu.dataBytes t.apduPtr = e.ownData := by
        rw [ApduEvent.ownData, hdec, ht.ptr]
      have hlen := length_ownData hdec
      dsimp only
      by_cases hchain : ¬ t.chainBufferTx = true ∧ t.cla &&& claChaining ≠ 0
      · rw [if_pos hchain]
        have hchained : e.isChained = true := ht.cla ▸ hchain.2
        have htx : t.chainBufferTx = false := Bool.eq_false_iff.mpr hchain.1
        by_cases hfull : 2048 < t.chainBufferLen + e.len
        · rw [if_pos hfull]
          refine handled_refused hagrees swWrongLength fun hnot => ?_
          rw [hchained] at hnot
          cases hnot
        · have hlc := lc_le_len hdec
          rw [if_neg hfull, hown, Buf.store_of_le (by omega)]
          exact handled_chained hagrees htx hlen (by omega)
      · rw [if_neg hchain]
        by_cases hmerge : ¬ t.chainBufferTx = true ∧ 0 < t.chainBufferLen
        · rw [if_pos hmerge]
          have hchained : e.isChained = false := by
            by_contra hnot
            exact hchain ⟨hmerge.1, ht.cla ▸ (Bool.not_eq_false _ ▸ hnot)⟩
          obtain ⟨hkept, hends⟩ := (settled_or_ends ht hchained).resolve_left fun hsettled =>
            hsettled.elim hmerge.1 fun hlen => by omega
          obtain ⟨apdu', off, hok, hdata, hfit, huse⟩ := hclose e s rfl rfl hends
          rw [hdec, Except.ok.injEq] at hok
          subst hok
          have htx : t.chainBufferTx = false := Bool.eq_false_iff.mpr hmerge.1
          obtain ⟨ibuf, hmerged, hbytes⟩ := merge_fits (s := t) hdata (hagrees.len htx) (by
            rw [hkept]
            exact hfit)
          rw [hown, hagrees.bytes htx] at hbytes
          rw [hmerged]
          dsimp only
          refine handled_processed (fun _ => hbytes) (fun hnot => ?_) fun reply s' hres => ?_
          · rw [hchained] at hnot
            cases hnot
          · have hpending := hagrees.bytes htx
            rw [hkept] at hpending
            have huse' : UsesUpChain s s.chainBufferLen apdu (pending ++ e.ownData) := hpending ▸ huse
            refine apduProcess_usesUp ?_ hres
            rw [hbytes, hkept]
            exact huse'
        · rw [if_neg hmerge]
          have hsettled : Settled t := by
            by_cases htx : t.chainBufferTx = true
            · exact .inl htx
            · exact .inr (Nat.eq_zero_of_not_pos fun hpos => hmerge ⟨htx, hpos⟩)
          rw [hown, hagrees.pending_of_settled hsettled]
          exact handled_processed (fun _ => rfl) (fun _ => rfl) fun reply s' hres =>
            apduProcess_settled hsettled hres

end Outcome

/-! ### Runs -/

/-- The chain buffer of the device agrees with what the monitor has seen. -/
def Monitor.InStep (m : Monitor) : Prop := ∀ s, m.device = some s → Agrees m.pending s

theorem Monitor.InStep.handled {m : Monitor} (hm : m.InStep) {e : ApduEvent} {s : State}
    (hs : m.device = some s) (hclose : ClosesChain m (.apdu e)) :
    Handled m.pending e (e.outcome s) := by
  refine outcome_handled (hm s hs) fun e' s' he hs' hends => ?_
  cases hs'
  exact hclose e' s he hs hends

theorem Monitor.InStep.step (m : Monitor) (ev : ChainEvent) (hm : m.InStep)
    (hclose : ClosesChain m ev) : (m.step ev).InStep := by
  intro s' hs'
  cases ev with
  | stateInit =>
      obtain ⟨s, hs, rfl⟩ := Option.map_eq_some_iff.mp hs'
      exact (hm s hs).nfcStateInit
  | apdu e =>
      cases hs : m.device with
      | none =>
          simp only [Monitor.step, hs] at hs'
          cases hs'
      | some s =>
          simp only [Monitor.step, hs] at hs' ⊢
          exact (hm.handled hs hclose).agrees s' hs'

theorem Monitor.InStep.reassembles (m : Monitor) (ev : ChainEvent) (hm : m.InStep)
    (hclose : ClosesChain m ev) : Reassembles m ev := by
  refine ⟨?_, ?_⟩
  · rintro e s rfl hs
    exact (hm.handled hs hclose).fits
  · rintro e s apdu data result rfl hs
    exact (hm.handled hs hclose).data apdu data result

theorem Monitor.inStep_powerUp : Monitor.powerUp.InStep := by
  intro s hs
  cases hs
  exact Settled.agrees (.inr rfl)

/-- In every run in which each chain ends in a command that uses it up, every
command is processed with the data chained for it and its own. -/
theorem reassembles_along {evs : List ChainEvent}
    (h : Transition.Along Monitor.step ClosesChain Monitor.powerUp evs) :
    Transition.Along Monitor.step Reassembles Monitor.powerUp evs :=
  Transition.Along.of_invariant Monitor.InStep.step Monitor.InStep.reassembles
    Monitor.inStep_powerUp h

/-! ### Concrete runs -/

instance (s : State) (n : ℕ) (apdu : ApduStruct) (data : List UInt8) :
    Decidable (UsesUpChain s n apdu data) :=
  inferInstanceAs (Decidable (_ ∧ _))

instance (e : ApduEvent) (s : State) : Decidable (e.EndsChain s) :=
  inferInstanceAs (Decidable (_ ∧ _ ∧ _))

/-- `ClosesChain` for an APDU, as a test. -/
def closesChain (s : State) (e : ApduEvent) : Bool :=
  match e.decoded with
  | .ok apdu =>
      match apdu.data with
      | some off => (e.place s).blockOffset + off + s.chainBufferLen + apdu.lc ≤ 1024 ∧
          UsesUpChain s s.chainBufferLen apdu
            (s.chainBuffer.slice 0 s.chainBufferLen ++ e.ownData)
      | none => false
  | .error _ => false

theorem closesChain_sound {m : Monitor} {e : ApduEvent}
    (h : m.device.all fun s => ¬ e.EndsChain s ∨ closesChain s e) : ClosesChain m (.apdu e) := by
  intro e' s he hs hends
  cases he
  rw [hs, Option.all_some, decide_eq_true_eq] at h
  have htest := h.resolve_left (not_not.mpr hends)
  unfold closesChain at htest
  split at htest
  · next apdu hdec =>
      split at htest
      · next off hdata =>
          rw [decide_eq_true_eq] at htest
          exact ⟨apdu, off, hdec, hdata, htest⟩
      · cases htest
  · cases htest

/-- An I-block with this APDU. -/
def apduEvent (apdu : List UInt8) : ApduEvent where
  ibuf := Buf.ofList 1024 (0x02 :: apdu)
  len := 1 + apdu.length
  answer := ⟨0, []⟩

/-- FIDO is selected and a CTAP message sent in two parts. -/
def chainedMessage : List ChainEvent :=
  [.apdu (apduEvent ([0x00, 0xa4, 0x04, 0x00, 0x08] ++ aidFido)),
    .apdu (apduEvent [0x90, 0x10, 0x00, 0x00, 0x01, 0x04]),
    .apdu (apduEvent [0x80, 0x10, 0x00, 0x00, 0x01, 0x04])]

theorem reassembles_demo :
    Transition.Along Monitor.step Reassembles Monitor.powerUp chainedMessage := by
  refine reassembles_along ⟨closesChain_sound ?_, closesChain_sound ?_, closesChain_sound ?_, trivial⟩
  · decide +kernel
  · decide +kernel
  · decide +kernel

/-- What `apdu_process` is entered with. -/
def Outcome.entered : Outcome → Option (List UInt8)
  | .processed _ data _ => some data
  | _ => none

theorem Reassembles.entered {m : Monitor} {e : ApduEvent} {data : List UInt8}
    (h : Reassembles m (.apdu e)) (hentered : (m.device.bind fun s => (e.outcome s).entered) = some data)
    (hchained : e.isChained = false) : data = m.pending ++ e.ownData := by
  obtain ⟨s, hs, hout⟩ := Option.bind_eq_some_iff.mp hentered
  cases ho : e.outcome s with
  | processed apdu data' result =>
      rw [ho] at hout
      cases hout
      exact h.data e s apdu data result rfl hs ho hchained
  | refused resp s' =>
      rw [ho] at hout
      cases hout
  | chained s' =>
      rw [ho] at hout
      cases hout
  | overrun =>
      rw [ho] at hout
      cases hout

/-- A chain of two ends in a command that is not known; its first byte is then
found before the data of the next command. -/
def rejectedChain : List ChainEvent :=
  [.apdu (apduEvent [0x10, 0x7f, 0x00, 0x00, 0x01, 0xaa]),
    .apdu (apduEvent [0x00, 0x7f, 0x00, 0x00, 0x01, 0xbb]),
    .apdu (apduEvent [0x00, 0xa4, 0x04, 0x00, 0x01, 0xcc])]

theorem reassembles_counterexample :
    ¬ Transition.Along Monitor.step Reassembles Monitor.powerUp rejectedChain := by
  rintro ⟨-, -, h, -⟩
  have hdata : ([0xaa, 0xcc] : List UInt8) = [] ++ [0xcc] :=
    h.entered (by decide +kernel) (by decide +kernel)
  exact absurd hdata (by decide)

end NitrokeyFido2.Nfc
