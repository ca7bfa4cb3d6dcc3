import NitrokeyFido2.Hid.Reception

/-!
The channel table and the message in the buffer.

A channel has one slot, and the slot of the channel whose message is being
buffered is busy, so that the timeout scan gives the buffer up in the end. Two
kinds of packets break this: a CTAPHID_INIT on the broadcast channel that
allocates a channel number which a client took for itself, and a CTAPHID_INIT
that is refused on the channel that is being buffered, which frees the slot
and leaves the buffer.
-/

namespace NitrokeyFido2.Hid

open Ctap (Env ctap1ErrInvalidLength)
open FirstMatch Transition

/-! ### Tables -/

/-- No channel but 0 has two slots. -/
def Unshared (cids : List Cid) : Prop := (cids.map (·.cid)).Pairwise fun a b => a ≠ 0 → a ≠ b

instance (cids : List Cid) : Decidable (Unshared cids) :=
  inferInstanceAs (Decidable (List.Pairwise _ _))

/-- The last slot is never given away. -/
def Spared (cids : List Cid) : Prop := ∀ c ∈ cids.drop usedSlots, c.cid = 0 ∧ c.busy = false

instance (cids : List Cid) : Decidable (Spared cids) :=
  inferInstanceAs (Decidable (∀ c ∈ _, _))

/-- A slot of the channel is busy. -/
def HasBusy (cid : UInt32) (cids : List Cid) : Prop := ∃ c ∈ cids, c.cid = cid ∧ c.busy = true

section Tables

variable {now : UInt32} {message : ℕ} {cid : UInt32} {cids cids' : List Cid}

/-- `cid_del` finds a slot, or there is none. -/
theorem cidDel_cases (cid : UInt32) (cids : List Cid) :
    cidDel cid cids = cids ∨
      changeFirst (fun c => c.cid = cid) (fun c => { c with busy := false }) usedSlots cids =
        some (cidDel cid cids) := by
  unfold cidDel
  cases h : changeFirst (fun c => c.cid = cid) (fun c => { c with busy := false }) usedSlots cids with
  | none => exact .inl rfl
  | some cids' => exact .inr rfl

theorem map_cid_cidDel (cid : UInt32) (cids : List Cid) :
    (cidDel cid cids).map (·.cid) = cids.map (·.cid) := by
  rcases cidDel_cases cid cids with h | h
  · rw [h]
  · refine map_changeFirst ?_ h
    exact fun _ => rfl

theorem drop_cidDel (cid : UInt32) (cids : List Cid) :
    (cidDel cid cids).drop usedSlots = cids.drop usedSlots := by
  rcases cidDel_cases cid cids with h | h
  · rw [h]
  · exact drop_changeFirst h

theorem HasBusy.cidDel {other : UInt32} (h : HasBusy cid cids) (hne : cid ≠ other) :
    HasBusy cid (cidDel other cids) := by
  obtain ⟨c, hc, rfl, hbusy⟩ := h
  rcases cidDel_cases other cids with heq | heq
  · exact ⟨c, by rwa [heq], rfl, hbusy⟩
  · exact ⟨c, mem_changeFirst_of_mem heq hc (by simpa using hne), rfl, hbusy⟩

theorem hasBusy_of_cidRefresh (h : cidRefresh now message cid cids = some cids') :
    HasBusy cid cids' := by
  obtain ⟨pre, c, post, rfl, -, -, hc, rfl⟩ := changeFirst_eq_some.mp h
  exact ⟨_, List.mem_append_right _ List.mem_cons_self, by simpa using hc, rfl⟩

theorem HasBusy.exists (h : HasBusy cid cids) (hspared : Spared cids) :
    cidExists cid cids = true := by
  obtain ⟨c, hc, rfl, hbusy⟩ := h
  rw [← List.take_append_drop usedSlots cids] at hc
  refine cidExists_iff.mpr ⟨c, (List.mem_append.mp hc).resolve_right fun hdrop => ?_, rfl⟩
  rw [(hspared c hdrop).2] at hbusy
  exact Bool.false_ne_true hbusy

/-- A channel that is not in the table may be given a slot. -/
theorem Unshared.addCid (h : Unshared cids) (hadd : addCid now message cid cids = some cids')
    (hnew : cid ≠ 0 → ∀ c ∈ cids.eraseIdx (cids.findIdx (!·.busy)), c.cid ≠ cid) :
    Unshared cids' := by
  obtain ⟨pre, c, post, rfl, -, hpre, hc, rfl⟩ := changeFirst_eq_some.mp hadd
  have hfind : (pre ++ c :: post).findIdx (!·.busy) = pre.length := findIdx_eq_length hpre hc
  rw [hfind, List.eraseIdx_append_of_length_le (le_refl _), Nat.sub_self, List.eraseIdx_zero,
    List.tail_cons] at hnew
  unfold Unshared at h ⊢
  rw [List.map_append, List.map_cons, List.pairwise_append, List.pairwise_cons] at h ⊢
  obtain ⟨hpre', ⟨-, hpost⟩, hcross⟩ := h
  refine ⟨hpre', ⟨?_, hpost⟩, ?_⟩
  · intro b hb hcid heq
    obtain ⟨y, hy, rfl⟩ := List.mem_map.mp hb
    exact hnew hcid y (List.mem_append_right _ hy) heq.symm
  · intro a ha b hb hzero heq
    rcases List.mem_cons.mp hb with rfl | hb
    · obtain ⟨y, hy, rfl⟩ := List.mem_map.mp ha
      exact hnew (heq ▸ hzero) y (List.mem_append_left _ hy) heq
    · exact hcross a ha b (List.mem_cons_of_mem _ hb) hzero heq

theorem Spared.of_drop (h : Spared cids) (heq : cids'.drop usedSlots = cids.drop usedSlots) :
    Spared cids' := by
  rw [Spared, heq]
  exact h

/-- A channel without a slot is nowhere in the table. -/
theorem Spared.fresh (h : Spared cids) (hexists : cidExists cid cids = false) (hcid : cid ≠ 0) :
    ∀ c ∈ cids, c.cid ≠ cid := by
  rintro c hc rfl
  rw [← List.take_append_drop usedSlots cids] at hc
  rcases List.mem_append.mp hc with hc | hc
  · rw [cidExists_iff.mpr ⟨c, hc, rfl⟩] at hexists
    exact Bool.noConfusion hexists
  · exact hcid (h c hc).1

end Tables

/-- The table and the buffer fit each other. -/
structure TableOk (cids : List Cid) (b : CtapBuffer) : Prop where
  unshared : Unshared cids
  spared : Spared cids
  busy : b.status = .buffering → HasBusy b.cid cids
  ordinary : b.status = .buffering → b.cid ≠ ctaphidBroadcastCid

namespace TableOk

variable {now : UInt32} {message : ℕ} {cid : UInt32} {cids cids' : List Cid} {b : CtapBuffer}

/-- Where nothing is being buffered only the table matters. -/
theorem idle (hunshared : Unshared cids) (hspared : Spared cids) (hb : b.status ≠ .buffering) :
    TableOk cids b :=
  ⟨hunshared, hspared, fun h => absurd h hb, fun h => absurd h hb⟩

theorem reset (h : TableOk cids b) : TableOk cids b.reset :=
  idle h.unshared h.spared fun h => nomatch h

theorem cidDel (h : TableOk cids b) (hcid : b.status = .buffering → b.cid ≠ cid) :
    TableOk (cidDel cid cids) b where
  unshared := by
    rw [Unshared, map_cid_cidDel]
    exact h.unshared
  spared := h.spared.of_drop (drop_cidDel cid cids)
  busy hb := (h.busy hb).cidDel (hcid hb)
  ordinary := h.ordinary

theorem cidRefresh (h : TableOk cids b) (hcids : cidRefresh now message cid cids = some cids')
    {b' : CtapBuffer} (hcid : b'.cid = cid) (hordinary : cid ≠ ctaphidBroadcastCid) :
    TableOk cids' b' where
  unshared := by
    rw [Unshared, map_cid_cidRefresh hcids]
    exact h.unshared
  spared := h.spared.of_drop (drop_changeFirst hcids)
  busy _ := hcid ▸ hasBusy_of_cidRefresh hcids
  ordinary _ := hcid ▸ hordinary

theorem addCid (h : TableOk cids b) (hadd : addCid now message cid cids = some cids')
    (hb : b.status ≠ .buffering)
    (hnew : cid ≠ 0 → ∀ c ∈ cids.eraseIdx (cids.findIdx (!·.busy)), c.cid ≠ cid) :
    TableOk cids' b :=
  idle (h.unshared.addCid hadd hnew) (h.spared.of_drop (drop_changeFirst hadd)) hb

theorem addCid_of_not_exists (h : TableOk cids b)
    (hadd : Hid.addCid now message cid cids = some cids') (hb : b.status ≠ .buffering)
    (hexists : cidExists cid cids = false) : TableOk cids' b := by
  refine h.addCid hadd hb fun hcid c hc => ?_
  exact h.spared.fresh hexists hcid c (List.mem_of_mem_eraseIdx hc)

end TableOk

/-! ### What keeps them fitting -/

/-- A CTAPHID_INIT on the broadcast channel is given a channel that a slot
other than the one given away has already. -/
def Layer.AllocatesTaken (s : Layer) (pkt : Packet) : Prop :=
  pkt.isInit = true ∧ pkt.len = 8 ∧ pkt.cid = ctaphidBroadcastCid ∧
    s.cids.findIdx (!·.busy) < usedSlots ∧
      ∃ c ∈ s.cids.eraseIdx (s.cids.findIdx (!·.busy)), c.cid = nextCid s.lastNewCid

/-- A CTAPHID_INIT is refused on the channel that is being buffered. -/
def Layer.RefusesBuffered (s : Layer) (pkt : Packet) : Prop :=
  pkt.isInit = true ∧ (pkt.len ≠ 8 ∨ pkt.cid = 0) ∧ s.buffer.status = .buffering ∧
    pkt.cid = s.buffer.cid

instance (s : Layer) (pkt : Packet) : Decidable (s.AllocatesTaken pkt) :=
  inferInstanceAs (Decidable (_ ∧ _))

instance (s : Layer) (pkt : Packet) : Decidable (s.RefusesBuffered pkt) :=
  inferInstanceAs (Decidable (_ ∧ _))

theorem Layer.allocatesTaken_numbered (s : Layer) (pkt : Packet) :
    (s.numbered pkt).AllocatesTaken pkt ↔ s.AllocatesTaken pkt := by
  unfold AllocatesTaken
  rw [cids_numbered, lastNewCid_numbered]

/-- The rule about the table and the buffer. -/
def Layer.TableOk (s : Layer) : Prop := Hid.TableOk s.cids s.buffer

theorem CtapBuffer.status_congr {b b' : CtapBuffer} (h : b'.control = b.control) :
    b'.status = b.status := by
  simp only [control, Prod.mk.injEq] at h
  unfold status
  rw [h.2.2.1, h.2.2.2.1]

instance : TableRule Layer.TableOk where
  frame s t hcids hbuffer h := by
    have hcid : t.buffer.cid = s.buffer.cid := congrArg Prod.fst hbuffer
    have hstatus := CtapBuffer.status_congr hbuffer
    exact ⟨hcids ▸ h.unshared, hcids ▸ h.spared, fun hb => hcid ▸ hcids ▸ h.busy (hstatus ▸ hb),
      fun hb => hcid ▸ h.ordinary (hstatus ▸ hb)⟩
  free s cid h := h.reset.cidDel fun hb => nomatch hb

theorem findIdx_lt_of_addCid {now : UInt32} {message : ℕ} {cid : UInt32} {cids cids' : List Cid}
    (h : addCid now message cid cids = some cids') : cids.findIdx (!·.busy) < usedSlots := by
  obtain ⟨pre, c, post, rfl, hlen, hpre, hc, -⟩ := changeFirst_eq_some.mp h
  have hfind : (pre ++ c :: post).findIdx (!·.busy) = pre.length := findIdx_eq_length hpre hc
  rwa [hfind]

theorem Layer.TableOk.opened {s : Layer} {pkt : Packet} (h : s.TableOk) (now : UInt32)
    (hb : s.buffer.status ≠ .buffering) : Hid.TableOk (s.opened now pkt) s.buffer := by
  unfold Layer.opened
  split
  case isFalse => exact h
  case isTrue hopen =>
    cases hadd : addCid now s.messages pkt.cid s.cids with
    | none => exact h
    | some cids => exact h.addCid_of_not_exists hadd hb hopen.1

theorem Layer.TableOk.receive (s : Layer) (now : UInt32) (pkt : Packet) (h : s.TableOk)
    (hpkt : ¬ s.AllocatesTaken pkt ∧ ¬ s.RefusesBuffered pkt) :
    (s.receive now pkt).2.TableOk := by
  obtain ⟨status, t, hbuffers, hreceive⟩ := receive_cases s now pkt
  have hs : (s.numbered pkt).TableOk := by
    rw [Layer.TableOk, Layer.buffer_numbered, Layer.cids_numbered]
    exact h
  rw [Layer.TableOk, hreceive, buffer_followUp]
  cases hbuffers with
  | initLength hinit hlen =>
      rw [if_neg (by decide), cids_followUp_error]
      refine hs.cidDel fun hb hcid => hpkt.2 ⟨hinit, .inl hlen, ?_⟩
      rw [Layer.buffer_numbered] at hb hcid
      exact ⟨hb, hcid.symm⟩
  | initChannel hinit hlen hzero =>
      rw [if_neg (by decide), cids_followUp_error]
      refine hs.cidDel fun hb hcid => hpkt.2 ⟨hinit, .inr hzero, ?_⟩
      rw [Layer.buffer_numbered] at hb hcid
      exact ⟨hb, hcid.symm⟩
  | initFull =>
      rw [if_neg (by decide), cids_followUp_error]
      exact hs.reset.cidDel fun hb => nomatch hb
  | init newcid last cids hinit hlen hcid hassign =>
      rw [if_neg (by decide)]
      refine TableOk.cidDel ?_ fun hb => nomatch hb
      cases hassign with
      | allocated _ hbroadcast hadd =>
          refine hs.reset.addCid hadd (fun hb => nomatch hb) fun _ c hc heq => hpkt.1 ?_
          rw [← Layer.allocatesTaken_numbered]
          exact ⟨hinit, hlen, hbroadcast, findIdx_lt_of_addCid hadd, c, hc, heq⟩
      | refreshed _ hbroadcast hrefresh =>
          refine TableOk.idle ?_ (hs.spared.of_drop (drop_changeFirst hrefresh)) fun hb => nomatch hb
          rw [Unshared, map_cid_cidRefresh hrefresh]
          exact hs.unshared
      | added _ hbroadcast hexists hadd =>
          exact hs.reset.addCid_of_not_exists hadd (fun hb => nomatch hb) hexists
  | broadcast hinit hcid =>
      rw [if_neg (by decide), cids_followUp_error]
      exact hs.cidDel fun hb heq => hs.ordinary hb (heq.trans hcid)
  | interrupted =>
      rw [if_pos rfl, cids_followUp_error]
      exact hs.reset.cidDel fun hb => nomatch hb
  | busy hord hcont hbusy =>
      rw [if_neg (by decide), cids_followUp_error]
      refine hs.cidDel fun hb hcid => ?_
      rcases hbusy with ⟨-, hne⟩ | hexists
      · exact hne hcid.symm
      · rw [opened_eq_of_not_exists hexists, ← hcid, (hs.busy hb).exists hs.spared] at hexists
        exact Bool.noConfusion hexists
  | stray =>
      rw [if_neg (by decide)]
      exact hs
  | tooLong hord hcont hlen hstatus =>
      rw [if_neg (by decide), cids_followUp_error]
      exact (hs.opened now hstatus).cidDel fun hb => absurd hb hstatus
  | outOfOrder =>
      rw [if_pos rfl, cids_followUp_error]
      exact hs.reset.cidDel fun hb => nomatch hb
  | begun cids hord hcont hlen hstatus hcids =>
      rw [if_neg (by simp), cids_followUp_buffer]
      refine (hs.opened now hstatus).cidRefresh hcids ?_ hord.cid
      rw [CtapBuffer.bufferPacket_begin hcont]
  | continued cids hord hcont hstatus hcid hseq hcids =>
      rw [if_neg (by simp), cids_followUp_buffer]
      refine TableOk.cidRefresh hs hcids ?_ hord.cid
      rw [CtapBuffer.bufferPacket_continue hcont hseq]
      exact hcid.symm

theorem Cid.scanned_cid (c : Cid) (now : UInt32) : (c.scanned now).cid = c.cid := by
  unfold Cid.scanned
  split <;> rfl

theorem Layer.TableOk.checkTimeouts (s : Layer) (now : UInt32) (h : s.TableOk) :
    (s.checkTimeouts now).TableOk := by
  have hmap : (s.cids.map (·.scanned now)).map (·.cid) = s.cids.map (·.cid) := by
    rw [List.map_map]
    exact List.map_congr_left fun c _ => c.scanned_cid now
  have hunshared : Unshared (s.cids.map (·.scanned now)) := by
    rw [Unshared, hmap]
    exact h.unshared
  have hspared : Spared (s.cids.map (·.scanned now)) := by
    intro c hc
    rw [← List.map_drop] at hc
    obtain ⟨c', hc', rfl⟩ := List.mem_map.mp hc
    obtain ⟨hcid, hbusy⟩ := h.spared c' hc'
    refine ⟨(c'.scanned_cid now).trans hcid, ?_⟩
    unfold Cid.scanned
    split
    · rfl
    · exact hbusy
  rw [Layer.checkTimeouts_eq, Layer.TableOk]
  dsimp only
  split
  case isTrue => exact TableOk.idle hunshared hspared fun hb => nomatch hb
  case isFalse hdue =>
    refine ⟨hunshared, hspared, fun hb => ?_, h.ordinary⟩
    obtain ⟨c, hc, hcid, hbusy⟩ := h.busy hb
    -- the slot of the buffer is not due, so that the scan leaves it busy
    have hexp : c.expired now = false := by
      rw [CtapBuffer.due, List.any_eq_true] at hdue
      by_contra hexp
      exact hdue ⟨c, hc, by simpa [hcid] using hexp⟩
    refine ⟨c, List.mem_map.mpr ⟨c, hc, ?_⟩, hcid, hbusy⟩
    rw [Cid.scanned, if_neg (by simp [hexp])]

/-! ### Every run -/

/-- No channel has two slots, and the slot of the message that is being buffered
is busy. -/
structure Layer.Consistent (s : Layer) : Prop where
  unshared : Unshared s.cids
  busy : s.buffer.status = .buffering → HasBusy s.buffer.cid s.cids

/-- Once its slot is due, a message that is being buffered is given up. -/
theorem Layer.Consistent.released {s : Layer} {now : UInt32} (h : s.Consistent)
    (hb : s.buffer.status = .buffering)
    (hdue : ∀ c ∈ s.cids, c.cid = s.buffer.cid → c.busy = true → c.expired now = true) :
    (s.checkTimeouts now).buffer.status = .empty := by
  obtain ⟨c, hc, hcid, hbusy⟩ := h.busy hb
  have hany : s.buffer.due now s.cids = true :=
    List.any_eq_true.mpr ⟨c, hc, by simp [hdue c hc hcid hbusy, hcid]⟩
  rw [Layer.checkTimeouts_eq]
  dsimp only
  rw [if_pos hany, CtapBuffer.status_reset]

/-- In every state reached by a run in which no CTAPHID_INIT allocates a channel
that has a slot, and none is refused on the channel that is being buffered,
the table and the buffer are consistent. -/
theorem channel_table_consistent (env : Env) (w : World) (es : List Event)
    (hes : Along (step env)
      (Expects fun s _ pkt => ¬ s.AllocatesTaken pkt ∧ ¬ s.RefusesBuffered pkt) (powerUp w) es) :
    (run (step env) (powerUp w) es).state.hid.Consistent := by
  have hzero : Layer.zero.TableOk :=
    TableOk.idle (by decide) (by decide) (by decide)
  have hok := TableRule.reached hzero Layer.TableOk.receive Layer.TableOk.checkTimeouts hes
  exact ⟨hok.unshared, hok.busy⟩

/-- A channel is allocated while a message of 58 bytes is being buffered on
channel 5, and that message begins again. -/
def allocatedRun : List Event :=
  [Sample.packet 0 [5, 0, 0, 0, 0x81, 0, 58], Sample.packet 1 [255, 255, 255, 255, 0x86, 0, 8],
    .checkTimeouts 750, Sample.packet 750 [5, 0, 0, 0, 0x81, 0, 58]]

theorem channel_table_consistent_demo :
    (run (step Ctap.Sample.env) (powerUp Sample.world) allocatedRun).state.hid.Consistent :=
  channel_table_consistent Ctap.Sample.env Sample.world allocatedRun (by decide +kernel)

/-- A client takes channel 2 while slot 0 is busy; once slot 0 is free, channel 2
is allocated. -/
def takenRun : List Event :=
  [Sample.packet 0 [5, 0, 0, 0, 0x81, 0, 58], Sample.packet 1 [2, 0, 0, 0, 0x86, 0, 8],
    .checkTimeouts 750, Sample.packet 751 [255, 255, 255, 255, 0x86, 0, 8]]

/-- A CTAPHID_INIT with a wrong length frees the slot of the message that is
being buffered. -/
def refusedRun : List Event :=
  [Sample.packet 0 [5, 0, 0, 0, 0x81, 0, 58], Sample.packet 1 [5, 0, 0, 0, 0x86, 0, 7]]

theorem channel_table_counterexample :
    ¬ (run (step Ctap.Sample.env) (powerUp Sample.world) takenRun).state.hid.Consistent ∧
      ¬ (run (step Ctap.Sample.env) (powerUp Sample.world) refusedRun).state.hid.Consistent := by
  constructor
  · exact fun h => absurd h.unshared (by decide +kernel)
  · intro h
    obtain ⟨c, hc, hcid, hbusy⟩ := h.busy (by decide +kernel)
    revert c
    decide +kernel

end NitrokeyFido2.Hid
