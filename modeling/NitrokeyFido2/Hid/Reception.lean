import NitrokeyFido2.Hid.Rules
import NitrokeyFido2.Hid.Timeouts

/-!
What a packet can do to the layer.

`Layer.Buffers` lists the ways through `ctaphid_buffer_packet`, each with its
guards and with the state it leaves, and `Layer.followUp` is what
`ctaphid_handle_packet` makes of the status. What holds of the buffer and of
the channel table is derived from the two.
-/

namespace NitrokeyFido2.Hid

open Ctap (ctap1ErrInvalidLength)
open FirstMatch Transition

/-! ### The ways through `ctaphid_buffer_packet` -/

/-- The slots once a channel that begins a message has got one. -/
def Layer.opened (s : Layer) (now : UInt32) (pkt : Packet) : List Cid :=
  if cidExists pkt.cid s.cids = false ∧ ¬ pkt.isCont ∧ s.buffer.status = .empty then
    (addCid now s.messages pkt.cid s.cids).getD s.cids
  else s.cids

/-- The slots once a CTAPHID_INIT has been given its channel. -/
inductive Layer.Assigns (s : Layer) (now : UInt32) (pkt : Packet) : UInt32 → List Cid → Prop
  | allocated (cids : List Cid) (hcid : pkt.cid = ctaphidBroadcastCid)
      (h : addCid now s.messages (nextCid s.lastNewCid) s.cids = some cids) :
      Assigns s now pkt (nextCid s.lastNewCid) cids
  | refreshed (cids : List Cid) (hcid : pkt.cid ≠ ctaphidBroadcastCid)
      (h : cidRefresh now s.messages pkt.cid s.cids = some cids) : Assigns s now pkt pkt.cid cids
  | added (cids : List Cid) (hcid : pkt.cid ≠ ctaphidBroadcastCid)
      (hexists : cidExists pkt.cid s.cids = false)
      (h : addCid now s.messages pkt.cid s.cids = some cids) : Assigns s now pkt pkt.cid cids

/-- A packet that is no CTAPHID_INIT and not on the broadcast channel. -/
structure Packet.Ordinary (pkt : Packet) : Prop where
  init : pkt.isInit = false
  cid : pkt.cid ≠ ctaphidBroadcastCid

inductive Layer.Buffers (s : Layer) (now : UInt32) (pkt : Packet) : PacketStatus → Layer → Prop
  | initLength (hinit : pkt.isInit = true) (hlen : pkt.len ≠ 8) :
      Buffers s now pkt (.error ctap1ErrInvalidLength) s
  | initChannel (hinit : pkt.isInit = true) (hlen : pkt.len = 8) (hcid : pkt.cid = 0) :
      Buffers s now pkt (.error ctap1ErrInvalidChannel) s
  | initFull (last : UInt32) (hinit : pkt.isInit = true) (hlen : pkt.len = 8) (hcid : pkt.cid ≠ 0)
      (hfull : ∀ c ∈ s.cids.take usedSlots, c.busy = true) :
      Buffers s now pkt (.error ctap1ErrChannelBusy)
        { s with buffer := s.buffer.reset, lastNewCid := last }
  | init (newcid last : UInt32) (cids : List Cid) (hinit : pkt.isInit = true) (hlen : pkt.len = 8)
      (hcid : pkt.cid ≠ 0) (hassign : s.Assigns now pkt newcid cids) :
      Buffers s now pkt .ignore
        { s with
          buffer := s.buffer.reset
          lastNewCid := last
          cids := cidDel newcid cids
          sent := s.sent ++
            [⟨initResponse pkt.cid newcid pkt.initPayload, some s.messages⟩] }
  | broadcast (hinit : pkt.isInit = false) (hcid : pkt.cid = ctaphidBroadcastCid) :
      Buffers s now pkt (.error ctap1ErrInvalidChannel) s
  | interrupted (hpkt : pkt.Ordinary) (hcont : pkt.isCont = false)
      (hexists : cidExists pkt.cid s.cids = true) (hstatus : s.buffer.status = .buffering)
      (hcid : pkt.cid = s.buffer.cid) : Buffers s now pkt (.error ctap1ErrInvalidSeq) s
  | busy (hpkt : pkt.Ordinary) (hcont : pkt.isCont = false)
      (hbusy : s.buffer.status = .buffering ∧ pkt.cid ≠ s.buffer.cid ∨
        cidExists pkt.cid (s.opened now pkt) = false) : Buffers s now pkt (.error ctap1ErrChannelBusy) s
  | stray (hpkt : pkt.Ordinary) (hcont : pkt.isCont = true)
      (hstray : cidExists pkt.cid s.cids = false ∨ s.buffer.status = .empty ∨
        pkt.cid ≠ s.buffer.cid) : Buffers s now pkt .ignore s
  | tooLong (hpkt : pkt.Ordinary) (hcont : pkt.isCont = false) (hlen : ctaphidBufferSize < pkt.len)
      (hstatus : s.buffer.status ≠ .buffering)
      (hexists : cidExists pkt.cid (s.opened now pkt) = true) :
      Buffers s now pkt (.error ctap1ErrInvalidLength) { s with cids := s.opened now pkt }
  | outOfOrder (hpkt : pkt.Ordinary) (hcont : pkt.isCont = true)
      (hexists : cidExists pkt.cid s.cids = true) (hstatus : s.buffer.status ≠ .empty)
      (hcid : pkt.cid = s.buffer.cid) (hseq : s.buffer.seq + 1 ≠ (pkt.cmd.toNat : ℤ)) :
      Buffers s now pkt (.error ctap1ErrInvalidSeq)
        { s with buffer := { s.buffer with seq := s.buffer.seq + 1 } }
  | begun (cids : List Cid) (hpkt : pkt.Ordinary) (hcont : pkt.isCont = false)
      (hlen : pkt.len ≤ ctaphidBufferSize) (hstatus : s.buffer.status ≠ .buffering)
      (hcids : cidRefresh now s.messages pkt.cid (s.opened now pkt) = some cids) :
      Buffers s now pkt (.buffer (s.buffer.bufferPacket s.messages pkt).2.status)
        { s with buffer := (s.buffer.bufferPacket s.messages pkt).2, cids }
  | continued (cids : List Cid) (hpkt : pkt.Ordinary) (hcont : pkt.isCont = true)
      (hstatus : s.buffer.status ≠ .empty) (hcid : pkt.cid = s.buffer.cid)
      (hseq : s.buffer.seq + 1 = (pkt.cmd.toNat : ℤ))
      (hcids : cidRefresh now s.buffer.message pkt.cid s.cids = some cids) :
      Buffers s now pkt (.buffer (s.buffer.bufferPacket s.messages pkt).2.status)
        { s with buffer := (s.buffer.bufferPacket s.messages pkt).2, cids }

/-! ### Slots found and changed -/

theorem cidExists_iff {cid : UInt32} {cids : List Cid} :
    cidExists cid cids = true ↔ ∃ c ∈ cids.take usedSlots, c.cid = cid := by
  simp [cidExists]

theorem cidRefresh_isSome (now : UInt32) (message : ℕ) {cid : UInt32} {cids : List Cid}
    (h : cidExists cid cids = true) : ∃ cids', cidRefresh now message cid cids = some cids' := by
  obtain ⟨c, hc, hcid⟩ := cidExists_iff.mp h
  exact Option.isSome_iff_exists.mp (changeFirst_isSome.mpr ⟨c, hc, by simpa using hcid⟩)

theorem cidExists_of_cidRefresh {now : UInt32} {message : ℕ} {cid : UInt32} {cids cids' : List Cid}
    (h : cidRefresh now message cid cids = some cids') : cidExists cid cids = true := by
  obtain ⟨c, hc, hcid⟩ := changeFirst_isSome.mp (Option.isSome_of_eq_some h)
  exact cidExists_iff.mpr ⟨c, hc, by simpa using hcid⟩

theorem addCid_eq_none {now : UInt32} {message : ℕ} {cid : UInt32} {cids : List Cid} :
    addCid now message cid cids = none ↔ ∀ c ∈ cids.take usedSlots, c.busy = true := by
  rw [addCid, changeFirst_eq_none]
  simp

theorem cidExists_of_addCid {now : UInt32} {message : ℕ} {cid : UInt32} {cids cids' : List Cid}
    (h : addCid now message cid cids = some cids') : cidExists cid cids' = true := by
  obtain ⟨pre, c, post, rfl, hlen, -, -, rfl⟩ := changeFirst_eq_some.mp h
  refine cidExists_iff.mpr ⟨⟨cid, now.toUInt64, true, message⟩, ?_, rfl⟩
  rw [List.take_append, List.take_of_length_le hlen.le]
  obtain ⟨n, hn⟩ := Nat.exists_eq_add_of_lt hlen
  rw [show usedSlots - pre.length = n + 1 by omega, List.take_succ_cons]
  simp

theorem map_cid_cidRefresh {now : UInt32} {message : ℕ} {cid : UInt32} {cids cids' : List Cid}
    (h : cidRefresh now message cid cids = some cids') :
    cids'.map (·.cid) = cids.map (·.cid) := by
  refine map_changeFirst ?_ h
  exact fun _ => rfl

theorem cidExists_congr {cid : UInt32} {cids cids' : List Cid}
    (h : cids'.map (·.cid) = cids.map (·.cid)) : cidExists cid cids' = cidExists cid cids := by
  have hmap (l : List Cid) : cidExists cid l = ((l.map (·.cid)).take usedSlots).any (· = cid) := by
    rw [← List.map_take, List.any_map]
    rfl
  rw [hmap, hmap, h]

theorem Packet.isCont_of_isInit {pkt : Packet} (h : pkt.isInit = true) : pkt.isCont = false := by
  simp only [isInit, isCont, decide_eq_true_eq, decide_eq_false_iff_not] at h ⊢
  rw [h]
  decide

/-! ### What is put into the buffer -/

namespace CtapBuffer

variable {b : CtapBuffer} {message : ℕ} {pkt : Packet}

theorem bufferPacket_begin (hcont : pkt.isCont = false) :
    b.bufferPacket message pkt = (true,
      { data := b.data.write 0
          (pkt.initPayload.take (min (pkt.len : ℤ) ctaphidInitPayloadSize).toNat)
        cid := pkt.cid
        cmd := pkt.cmd
        bcnt := pkt.len
        offset := min pkt.len ctaphidInitPayloadSize
        seq := -1
        message }) := by
  unfold bufferPacket moved
  rw [hcont]
  rfl

theorem bufferPacket_outOfOrder (hcont : pkt.isCont = true)
    (hseq : b.seq + 1 ≠ (pkt.cmd.toNat : ℤ)) :
    b.bufferPacket message pkt = (false, { b with seq := b.seq + 1 }) := by
  unfold bufferPacket
  dsimp only
  rw [if_pos hcont, if_pos hseq]

theorem bufferPacket_continue (hcont : pkt.isCont = true)
    (hseq : b.seq + 1 = (pkt.cmd.toNat : ℤ)) :
    b.bufferPacket message pkt = (true,
      { b with
        data := b.data.write b.offset.toNat
          (pkt.contPayload.take (min (b.bcnt - b.offset) ctaphidContPayloadSize).toNat)
        offset := b.offset + min (b.bcnt - b.offset) ctaphidContPayloadSize
        seq := b.seq + 1 }) := by
  have hlen : (if (b.bcnt : ℤ) - b.offset - ctaphidContPayloadSize ≤ 0 then
      (b.bcnt : ℤ) - b.offset else (ctaphidContPayloadSize : ℤ)) =
        min (b.bcnt - b.offset) ctaphidContPayloadSize := by
    split <;> omega
  unfold bufferPacket moved
  dsimp only
  rw [if_pos hcont, if_pos hcont, if_neg (not_not.mpr hseq), hlen]

end CtapBuffer

theorem Packet.isInit_of_isCont {pkt : Packet} (h : pkt.isCont = true) : pkt.isInit = false := by
  refine Bool.eq_false_iff.mpr fun hinit => ?_
  rw [isCont_of_isInit hinit] at h
  exact Bool.false_ne_true h

/-! ### Every packet goes one of these ways -/

section Ways

variable {s : Layer} {now : UInt32} {pkt : Packet}

theorem buffers_synchronise (hinit : pkt.isInit = true) :
    s.Buffers now pkt (s.synchronise now pkt).1 (s.synchronise now pkt).2 := by
  unfold Layer.synchronise
  by_cases hlen : pkt.len = 8
  case neg =>
    rw [if_pos hlen]
    exact .initLength hinit hlen
  by_cases hcid : pkt.cid = 0
  case pos =>
    rw [if_neg (not_not.mpr hlen), if_pos hcid]
    exact .initChannel hinit hlen hcid
  rw [if_neg (not_not.mpr hlen), if_neg hcid]
  by_cases hbroadcast : pkt.cid = ctaphidBroadcastCid
  · simp only [hbroadcast, if_true, not_true_eq_false, false_and, if_false]
    cases hadd : addCid now s.messages (nextCid s.lastNewCid) s.cids with
    | none => exact .initFull _ hinit hlen hcid (addCid_eq_none.mp hadd)
    | some cids =>
        have h := Layer.Buffers.init (s := s) _ (nextCid s.lastNewCid) cids hinit hlen hcid
          (.allocated cids hbroadcast hadd)
        rwa [hbroadcast] at h
  · simp only [hbroadcast, if_false, not_false_eq_true, true_and]
    by_cases hexists : cidExists pkt.cid s.cids = true
    · obtain ⟨cids, hcids⟩ := cidRefresh_isSome now s.messages hexists
      rw [if_pos hexists, hcids]
      exact .init _ s.lastNewCid cids hinit hlen hcid (.refreshed cids hbroadcast hcids)
    · rw [if_neg hexists]
      cases hadd : addCid now s.messages pkt.cid s.cids with
      | none => exact .initFull s.lastNewCid hinit hlen hcid (addCid_eq_none.mp hadd)
      | some cids =>
          exact .init _ s.lastNewCid cids hinit hlen hcid
            (.added cids hbroadcast (Bool.eq_false_iff.mpr hexists) hadd)

/-- A slot is only given to a channel that begins a message while nothing is
buffered. -/
theorem opened_eq (h : pkt.isCont = true ∨ s.buffer.status ≠ .empty ∨
    cidExists pkt.cid s.cids = true) : s.opened now pkt = s.cids := by
  unfold Layer.opened
  rw [if_neg]
  rintro ⟨hexists, hcont, hstatus⟩
  rcases h with h | h | h
  · exact hcont h
  · exact h hstatus
  · rw [hexists] at h
    exact Bool.false_ne_true h

/-- A channel that got no slot left the table as it was. -/
theorem opened_eq_of_not_exists (h : cidExists pkt.cid (s.opened now pkt) = false) :
    s.opened now pkt = s.cids := by
  unfold Layer.opened at h ⊢
  split
  case isFalse => rfl
  case isTrue hopen =>
    rw [if_pos hopen] at h
    cases hadd : addCid now s.messages pkt.cid s.cids with
    | none => rfl
    | some cids =>
        rw [hadd, Option.getD_some, cidExists_of_addCid hadd] at h
        exact absurd h.symm Bool.false_ne_true

theorem buffers_bufferKnown (hpkt : pkt.Ordinary)
    (hexists : cidExists pkt.cid (s.opened now pkt) = true) :
    s.Buffers now pkt ({ s with cids := s.opened now pkt }.bufferKnown now pkt).1
      ({ s with cids := s.opened now pkt }.bufferKnown now pkt).2 := by
  unfold Layer.bufferKnown
  dsimp only
  by_cases hcont : pkt.isCont = true
  · have hopened : s.opened now pkt = s.cids := opened_eq (.inl hcont)
    rw [hopened] at hexists ⊢
    rw [if_neg fun h => h.2.2 hcont]
    by_cases hstray : s.buffer.status = .empty ∨ pkt.cid ≠ s.buffer.cid
    · have hlen : ¬ (¬ pkt.isCont = true ∧ pkt.len > ctaphidBufferSize) := fun h => h.1 hcont
      rw [if_pos hcont, if_neg hlen, if_pos (And.intro hcont hstray), ite_self]
      exact .stray hpkt hcont (.inr hstray)
    obtain ⟨hstatus, hcid⟩ := not_or.mp hstray
    rw [not_not] at hcid
    rw [if_neg fun h => h.2 hcid, if_neg fun h => h.1 hcont, if_neg fun h => hstray h.2]
    by_cases hseq : s.buffer.seq + 1 = (pkt.cmd.toNat : ℤ)
    · obtain ⟨cids, hcids⟩ := cidRefresh_isSome now s.buffer.message hexists
      have h := Layer.Buffers.continued cids hpkt hcont hstatus hcid hseq hcids
      rw [CtapBuffer.bufferPacket_continue hcont hseq] at h ⊢
      rw [if_pos rfl, hcids]
      exact h
    · rw [CtapBuffer.bufferPacket_outOfOrder hcont hseq, if_neg Bool.false_ne_true]
      exact .outOfOrder hpkt hcont hexists hstatus hcid hseq
  · have hinit : pkt.isCont = false := Bool.eq_false_iff.mpr hcont
    by_cases hstatus : s.buffer.status = .buffering
    · -- no slot is given away while a message is being buffered
      have hopened : s.opened now pkt = s.cids := opened_eq (.inr (.inl (by simp [hstatus])))
      rw [hopened] at hexists ⊢
      by_cases hcid : pkt.cid = s.buffer.cid
      · rw [if_pos ⟨hstatus, hcid, hcont⟩]
        exact .interrupted hpkt hinit hexists hstatus hcid
      · rw [if_neg fun h => hcid h.2.1, if_pos ⟨hstatus, hcid⟩, if_neg hcont]
        exact .busy hpkt hinit (.inl ⟨hstatus, hcid⟩)
    rw [if_neg fun h => hstatus h.1, if_neg fun h => hstatus h.1]
    by_cases hlen : pkt.len > ctaphidBufferSize
    · rw [if_pos ⟨hcont, hlen⟩]
      exact .tooLong hpkt hinit hlen hstatus hexists
    · obtain ⟨cids, hcids⟩ := cidRefresh_isSome now s.messages hexists
      have h := Layer.Buffers.begun cids hpkt hinit (not_lt.mp hlen) hstatus hcids
      rw [CtapBuffer.bufferPacket_begin hinit] at h ⊢
      rw [if_neg fun h => hlen h.2, if_neg fun h => hcont h.1, if_pos rfl, hcids]
      exact h

/-- Every packet goes one of the ways. -/
theorem buffers_bufferPacket (s : Layer) (now : UInt32) (pkt : Packet) :
    s.Buffers now pkt (s.bufferPacket now pkt).1 (s.bufferPacket now pkt).2 := by
  unfold Layer.bufferPacket
  by_cases hinit : pkt.isInit = true
  · rw [if_pos hinit]
    exact buffers_synchronise hinit
  rw [if_neg hinit]
  by_cases hcid : pkt.cid = ctaphidBroadcastCid
  · rw [if_pos hcid]
    exact .broadcast (Bool.eq_false_iff.mpr hinit) hcid
  have hpkt : pkt.Ordinary := ⟨Bool.eq_false_iff.mpr hinit, hcid⟩
  rw [if_neg hcid]
  show s.Buffers now pkt
    (if cidExists pkt.cid (s.opened now pkt) then
      { s with cids := s.opened now pkt }.bufferKnown now pkt
    else if pkt.isCont then (.ignore, { s with cids := s.opened now pkt })
    else (.error ctap1ErrChannelBusy, { s with cids := s.opened now pkt })).1
    (if cidExists pkt.cid (s.opened now pkt) then
      { s with cids := s.opened now pkt }.bufferKnown now pkt
    else if pkt.isCont then (.ignore, { s with cids := s.opened now pkt })
    else (.error ctap1ErrChannelBusy, { s with cids := s.opened now pkt })).2
  by_cases hexists : cidExists pkt.cid (s.opened now pkt) = true
  · rw [if_pos hexists]
    exact buffers_bufferKnown hpkt hexists
  rw [if_neg hexists]
  rw [Bool.not_eq_true] at hexists
  have hopened := opened_eq_of_not_exists hexists
  by_cases hcont : pkt.isCont = true
  · rw [if_pos hcont]
    rw [hopened] at hexists ⊢
    exact .stray hpkt hcont (.inl hexists)
  · have h := Layer.Buffers.busy hpkt (Bool.eq_false_iff.mpr hcont) (.inr hexists)
    rw [if_neg hcont, hopened]
    exact h

/-! ### Packets that are accepted -/

/-- A channel with a slot, or for which one is free, may begin a message while
nothing is buffered. -/
theorem exists_opened (hcont : pkt.isCont = false) (hempty : s.buffer.status = .empty)
    (hslot : cidExists pkt.cid s.cids = true ∨ ∃ c ∈ s.cids.take usedSlots, c.busy = false) :
    cidExists pkt.cid (s.opened now pkt) = true := by
  by_cases hexists : cidExists pkt.cid s.cids = true
  · rwa [opened_eq (.inr (.inr hexists))]
  · obtain ⟨c, hc, hfree⟩ := hslot.resolve_left hexists
    unfold Layer.opened
    rw [if_pos ⟨Bool.eq_false_iff.mpr hexists, Bool.eq_false_iff.mp hcont, hempty⟩]
    cases hadd : addCid now s.messages pkt.cid s.cids with
    | none =>
        rw [addCid_eq_none.mp hadd c hc] at hfree
        exact Bool.noConfusion hfree
    | some cids => exact cidExists_of_addCid hadd

variable (now) in
/-- The first packet of a message. -/
theorem bufferPacket_begun (hpkt : pkt.Ordinary) (hcont : pkt.isCont = false)
    (hlen : pkt.len ≤ ctaphidBufferSize) (hempty : s.buffer.status = .empty)
    (hslot : cidExists pkt.cid s.cids = true ∨ ∃ c ∈ s.cids.take usedSlots, c.busy = false) :
    ∃ cids, cidRefresh now s.messages pkt.cid (s.opened now pkt) = some cids ∧
      s.bufferPacket now pkt = (.buffer (s.buffer.bufferPacket s.messages pkt).2.status,
        { s with buffer := (s.buffer.bufferPacket s.messages pkt).2, cids }) := by
  have hopened : cidExists pkt.cid (s.opened now pkt) = true := exists_opened hcont hempty hslot
  have hbuffers := buffers_bufferPacket s now pkt
  generalize s.bufferPacket now pkt = r at hbuffers ⊢
  obtain ⟨status, t⟩ := r
  cases hbuffers with
  | initLength h | initChannel h | initFull _ h | init _ _ _ h =>
      exact absurd (hpkt.init ▸ h) Bool.false_ne_true
  | broadcast _ h => exact absurd h hpkt.cid
  | interrupted _ _ _ h =>
      rw [hempty] at h
      exact nomatch h
  | busy _ _ h =>
      rw [hempty, hopened] at h
      exact absurd h (by simp)
  | tooLong _ _ h => exact absurd hlen (not_le.mpr h)
  | stray _ h | outOfOrder _ h | continued _ _ h => exact absurd (hcont ▸ h) Bool.false_ne_true
  | begun cids _ _ _ _ hcids => exact ⟨cids, hcids, rfl⟩

variable (now) in
/-- The next packet of the message in the buffer. -/
theorem bufferPacket_continued (hpkt : pkt.Ordinary) (hcont : pkt.isCont = true)
    (hexists : cidExists pkt.cid s.cids = true) (hstatus : s.buffer.status ≠ .empty)
    (hcid : pkt.cid = s.buffer.cid) (hseq : s.buffer.seq + 1 = (pkt.cmd.toNat : ℤ)) :
    ∃ cids, cidRefresh now s.buffer.message pkt.cid s.cids = some cids ∧
      s.bufferPacket now pkt = (.buffer (s.buffer.bufferPacket s.messages pkt).2.status,
        { s with buffer := (s.buffer.bufferPacket s.messages pkt).2, cids }) := by
  have hbuffers := buffers_bufferPacket s now pkt
  generalize s.bufferPacket now pkt = r at hbuffers ⊢
  obtain ⟨status, t⟩ := r
  cases hbuffers with
  | initLength h | initChannel h | initFull _ h | init _ _ _ h =>
      exact absurd (hpkt.init ▸ h) Bool.false_ne_true
  | broadcast _ h => exact absurd h hpkt.cid
  | interrupted _ h | busy _ h | tooLong _ h | begun _ _ h =>
      exact absurd (hcont ▸ h).symm Bool.false_ne_true
  | stray _ _ h =>
      rw [hexists] at h
      rcases h with h | h | h
      · exact Bool.noConfusion h
      · exact absurd h hstatus
      · exact absurd hcid h
  | outOfOrder _ _ _ _ _ h => exact absurd hseq h
  | continued cids _ _ _ _ _ hcids => exact ⟨cids, hcids, rfl⟩

end Ways

/-! ### What follows in `ctaphid_handle_packet` -/

/-- The layer with the message counted that the packet begins. -/
def Layer.numbered (s : Layer) (pkt : Packet) : Layer :=
  if pkt.isCont then s else { s with messages := s.messages + 1 }

/-- The layer with the reply begun. -/
def Layer.prepared (s : Layer) (pkt : Packet) (cmd : UInt8) : Layer :=
  { s with wb := { WriteBuffer.zero with cid := pkt.cid, cmd } }

/-- The layer once a packet was refused. -/
def Layer.refused (s : Layer) (pkt : Packet) (code : UInt8) : Layer :=
  { s.prepared pkt code with
    cids := cidDel pkt.cid s.cids
    buffer := if code = ctap1ErrInvalidSeq then s.buffer.reset else s.buffer
    sent := s.sent ++ [⟨errorPackets pkt.cid code, s.answeredBy pkt⟩] }

/-- What `ctaphid_handle_packet` makes of the status of a packet. -/
@[simp] def Layer.followUp (s : Layer) (pkt : Packet) : PacketStatus → Received × Layer
  | .ignore => (.done, s.prepared pkt 0)
  | .error code => (.done, s.refused pkt code)
  | .buffer .buffering => (.done, s.prepared pkt s.buffer.cmd)
  | .buffer _ => (.dispatch, s.prepared pkt s.buffer.cmd)
  | .exited => (.exited, s.prepared pkt s.buffer.cmd)

theorem buffer_followUp (s : Layer) (pkt : Packet) (status : PacketStatus) :
    (s.followUp pkt status).2.buffer =
      if status = .error ctap1ErrInvalidSeq then s.buffer.reset else s.buffer := by
  cases status with
  | ignore => rfl
  | error code => simp [Layer.refused]
  | buffer status => cases status <;> rfl
  | exited => rfl

theorem cids_followUp_error (s : Layer) (pkt : Packet) (code : UInt8) :
    (s.followUp pkt (.error code)).2.cids = cidDel pkt.cid s.cids := rfl

theorem cids_followUp_buffer (s : Layer) (pkt : Packet) (status : BufferStatus) :
    (s.followUp pkt (.buffer status)).2.cids = s.cids := by
  cases status <;> rfl

theorem sent_followUp_error (s : Layer) (pkt : Packet) (code : UInt8) :
    (s.followUp pkt (.error code)).2.sent =
      s.sent ++ [⟨errorPackets pkt.cid code, s.answeredBy pkt⟩] := rfl

theorem sent_followUp_buffer (s : Layer) (pkt : Packet) (status : BufferStatus) :
    (s.followUp pkt (.buffer status)).2.sent = s.sent := by
  cases status <;> rfl

theorem receive_eq (s : Layer) (now : UInt32) (pkt : Packet) :
    s.receive now pkt =
      ((s.numbered pkt).bufferPacket now pkt).2.followUp pkt
        ((s.numbered pkt).bufferPacket now pkt).1 := by
  unfold Layer.receive
  rw [← Layer.numbered]
  dsimp only
  generalize (s.numbered pkt).bufferPacket now pkt = r
  obtain ⟨status, t⟩ := r
  cases status with
  | ignore => rfl
  | error code =>
      unfold Layer.followUp Layer.refused
      dsimp only
      by_cases hcode : code = ctap1ErrInvalidSeq
      · rw [if_pos hcode, if_pos hcode]
        rfl
      · rw [if_neg hcode, if_neg hcode]
        rfl
  | buffer status => cases status <;> rfl
  | exited => rfl

@[simp] theorem Layer.buffer_numbered (s : Layer) (pkt : Packet) :
    (s.numbered pkt).buffer = s.buffer := by
  unfold Layer.numbered
  split <;> rfl

@[simp] theorem Layer.cids_numbered (s : Layer) (pkt : Packet) :
    (s.numbered pkt).cids = s.cids := by
  unfold Layer.numbered
  split <;> rfl

@[simp] theorem Layer.lastNewCid_numbered (s : Layer) (pkt : Packet) :
    (s.numbered pkt).lastNewCid = s.lastNewCid := by
  unfold Layer.numbered
  split <;> rfl

@[simp] theorem Layer.sent_numbered (s : Layer) (pkt : Packet) :
    (s.numbered pkt).sent = s.sent := by
  unfold Layer.numbered
  split <;> rfl

theorem receive_cases (s : Layer) (now : UInt32) (pkt : Packet) :
    ∃ status t, (s.numbered pkt).Buffers now pkt status t ∧
      s.receive now pkt = t.followUp pkt status :=
  ⟨_, _, buffers_bufferPacket (s.numbered pkt) now pkt, receive_eq s now pkt⟩

end NitrokeyFido2.Hid
