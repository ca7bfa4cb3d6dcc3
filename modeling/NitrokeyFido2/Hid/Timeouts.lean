import NitrokeyFido2.Hid.Dispatch

/-!
The timeout scan.

The scan looks at every slot by itself: it frees the slots that are due, sends
one error for each, and gives the buffer up if one of them had its channel.
A slot is due when the clock minus its stamp is 750 or more. The clock is 32
bits wide and the difference is taken in 64 bits, so a clock that wrapped
since the stamp was taken makes every busy slot due.
-/

namespace NitrokeyFido2.Hid

/-! ### What the scan does -/

/-- The error sent for a slot that is due. -/
def Cid.timeoutError (c : Cid) : Sent := ⟨errorPackets c.cid ctap1ErrTimeout, some c.message⟩

/-- The slot behind the scan. -/
def Cid.scanned (c : Cid) (now : UInt32) : Cid := if c.expired now then { c with busy := false } else c

/-- A slot that is due has the channel of the buffer. -/
def CtapBuffer.due (b : CtapBuffer) (now : UInt32) (cids : List Cid) : Bool :=
  cids.any fun c => c.expired now && c.cid = b.cid

@[simp] theorem CtapBuffer.cid_reset (b : CtapBuffer) : b.reset.cid = 0 := rfl

@[simp] theorem CtapBuffer.status_reset (b : CtapBuffer) : b.reset.status = .empty := rfl

@[simp] theorem CtapBuffer.reset_reset (b : CtapBuffer) : b.reset.reset = b.reset := rfl

theorem checkSlots_cids (now : UInt32) (b : CtapBuffer) (cids : List Cid) :
    (checkSlots now b cids).1 = cids.map (·.scanned now) := by
  induction cids generalizing b with
  | nil => rfl
  | cons c cs ih =>
      rw [checkSlots, List.map_cons, Cid.scanned]
      split
      · exact congrArg _ (ih _)
      · exact congrArg _ (ih b)

theorem checkSlots_sent (now : UInt32) (b : CtapBuffer) (cids : List Cid) :
    (checkSlots now b cids).2.2 = (cids.filter (·.expired now)).map Cid.timeoutError := by
  induction cids generalizing b with
  | nil => rfl
  | cons c cs ih =>
      rw [checkSlots, List.filter_cons]
      split
      · exact congrArg _ (ih _)
      · exact ih b

/-- A buffer that was reset stays so. -/
theorem checkSlots_buffer_reset (now : UInt32) (b : CtapBuffer) (cids : List Cid) :
    (checkSlots now b.reset cids).2.1 = b.reset := by
  induction cids with
  | nil => rfl
  | cons c cs ih =>
      rw [checkSlots]
      split
      · dsimp only
        rw [CtapBuffer.reset_reset, ite_self, ih]
      · exact ih

theorem checkSlots_buffer (now : UInt32) (b : CtapBuffer) (cids : List Cid) :
    (checkSlots now b cids).2.1 = if b.due now cids then b.reset else b := by
  induction cids with
  | nil => rfl
  | cons c cs ih =>
      rw [checkSlots, CtapBuffer.due, List.any_cons]
      by_cases hexp : c.expired now = true
      · by_cases hcid : c.cid = b.cid
        · simp [hexp, hcid, checkSlots_buffer_reset]
        · simpa [hexp, hcid, CtapBuffer.due] using ih
      · simpa [hexp, CtapBuffer.due] using ih

theorem Layer.checkTimeouts_eq (s : Layer) (now : UInt32) :
    s.checkTimeouts now =
      { s with
        cids := s.cids.map (·.scanned now)
        buffer := if s.buffer.due now s.cids then s.buffer.reset else s.buffer
        sent := s.sent ++ (s.cids.filter (·.expired now)).map Cid.timeoutError } := by
  rw [Layer.checkTimeouts]
  simp only [checkSlots_cids, checkSlots_sent, checkSlots_buffer]

/-! ### When a slot is due -/

/-- The scan sends the error of the slot with this number, and frees it. -/
def Layer.TimesOut (s : Layer) (now : UInt32) (i : ℕ) (c : Cid) : Prop :=
  (s.checkTimeouts now).cids[i]? = some { c with busy := false } ∧
    c.timeoutError ∈ (s.checkTimeouts now).sent.drop s.sent.length

theorem Layer.timesOut_iff {s : Layer} {now : UInt32} {i : ℕ} {c : Cid}
    (hslot : s.cids[i]? = some c) (hbusy : c.busy = true) :
    s.TimesOut now i c ↔ c.expired now = true := by
  rw [Layer.TimesOut, Layer.checkTimeouts_eq, List.drop_left, List.getElem?_map, hslot,
    Option.map_some, Option.some_inj, Cid.scanned]
  constructor
  · rintro ⟨hfreed, -⟩
    by_contra hexp
    rw [if_neg hexp] at hfreed
    rw [hfreed] at hbusy
    exact Bool.false_ne_true hbusy
  · intro hexp
    refine ⟨if_pos hexp, List.mem_map_of_mem ?_⟩
    exact List.mem_filter.mpr ⟨List.mem_of_getElem? hslot, hexp⟩

/-- A slot stamped `d` milliseconds ago is due after 750 milliseconds, and as
soon as the clock has wrapped. -/
theorem Cid.expired_iff {c : Cid} {t₀ d : UInt32} (hbusy : c.busy = true)
    (hstamp : c.lastUsed = t₀.toUInt64) :
    c.expired (t₀ + d) = true ↔ 750 ≤ d.toNat ∨ 2 ^ 32 ≤ t₀.toNat + d.toNat := by
  have ht := t₀.toNat_lt
  have hd := d.toNat_lt
  rw [Cid.expired, hbusy, hstamp, Bool.true_and, decide_eq_true_iff, ge_iff_le, UInt64.le_iff_toNat_le,
    UInt64.toNat_sub]
  simp only [UInt32.toNat_toUInt64, UInt32.toNat_add, UInt64.reduceToNat]
  by_cases hwrap : 2 ^ 32 ≤ t₀.toNat + d.toNat
  · rw [Nat.mod_eq_sub_mod hwrap, Nat.mod_eq_of_lt (a := t₀.toNat + d.toNat - 2 ^ 32) (by omega)]
    omega
  · rw [Nat.mod_eq_of_lt (a := t₀.toNat + d.toNat) (by omega)]
    omega

/-- The timeout is the promised one, not before and not after 750
milliseconds, exactly where the clock does not wrap within them. -/
theorem times_out_after_750_iff (s : Layer) (i : ℕ) (c : Cid) (t₀ d : UInt32)
    (hslot : s.cids[i]? = some c) (hbusy : c.busy = true) (hstamp : c.lastUsed = t₀.toUInt64) :
    (s.TimesOut (t₀ + d) i c ↔ 750 ≤ d.toNat) ↔
      (t₀.toNat + d.toNat < 2 ^ 32 ∨ 750 ≤ d.toNat) := by
  rw [Layer.timesOut_iff hslot hbusy, Cid.expired_iff hbusy hstamp]
  omega

/-- The first packet of a message of 58 bytes on channel 5, which arrives when
the clock is about to wrap. -/
def wrappingLayer : Layer :=
  (Layer.zero.receive 0xffffffff (Buf.ofList 64 [5, 0, 0, 0, 0x81, 0, 58])).2

theorem times_out_after_750_iff_demo :
    (wrappingLayer.TimesOut 749 0 ⟨5, 0xffffffff, true, 1⟩ ↔ 750 ≤ (750 : UInt32).toNat) ↔
      ((0xffffffff : UInt32).toNat + (750 : UInt32).toNat < 2 ^ 32 ∨ 750 ≤ (750 : UInt32).toNat) :=
  times_out_after_750_iff wrappingLayer 0 ⟨5, 0xffffffff, true, 1⟩ 0xffffffff 750
    (by decide +kernel) rfl rfl

/-- One millisecond after its first packet the message is timed out. -/
theorem times_out_after_750_counterexample :
    wrappingLayer.cids[0]? = some ⟨5, (0xffffffff : UInt32).toUInt64, true, 1⟩ ∧
      wrappingLayer.TimesOut (0xffffffff + 1) 0 ⟨5, (0xffffffff : UInt32).toUInt64, true, 1⟩ ∧
      ¬ 750 ≤ (1 : UInt32).toNat := by
  refine ⟨by decide +kernel, ?_, by decide⟩
  exact ⟨by decide +kernel, by decide +kernel⟩

end NitrokeyFido2.Hid
