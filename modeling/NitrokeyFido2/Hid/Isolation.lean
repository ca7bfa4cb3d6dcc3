import NitrokeyFido2.Hid.ChannelTable
import NitrokeyFido2.Hid.Reassembly

/-!
A message whose packets are mixed with packets of other channels.

While the message of a channel is being buffered, what comes on other channels
is refused or ignored and leaves the buffer and the slot of the channel alone,
with one exception: a CTAPHID_INIT that is carried out resets the buffer,
whatever channel it comes on. The timeout scan spares the slot as long as the
clock does not wrap between a packet of the message and the scan.
-/

namespace NitrokeyFido2.Hid

open Ctap (Env)
open FirstMatch Transition

/-! ### The run of a message -/

/-- A CTAPHID_INIT that is carried out. -/
def Packet.Synchronises (pkt : Packet) : Prop :=
  pkt.isInit = true ∧ pkt.len = 8 ∧ pkt.cid ≠ 0

/-- The packet of an event, if it is on this channel. -/
def Event.packetOn (cid : UInt32) : Event → Option Packet
  | .packet pkt _ _ => if pkt.cid = cid then some pkt else none
  | _ => none

/-- Packets and timeout scans only, less than 750 milliseconds after the last
packet on the channel. -/
def Paced (cid : UInt32) : UInt32 → List Event → Prop
  | _, [] => True
  | last, .packet pkt rd _ :: es =>
      if pkt.cid = cid then (rd.now - last).toNat < 750 ∧ Paced cid rd.now es else Paced cid last es
  | last, .checkTimeouts now :: es => (now - last).toNat < 750 ∧ Paced cid last es
  | _, .feedback _ :: _ => False

/-- No CTAPHID_INIT is carried out on another channel, and the clock does not
wrap between a packet on the channel and a timeout scan. -/
def Undisturbed (cid : UInt32) : UInt32 → List Event → Prop
  | _, [] => True
  | last, .packet pkt rd _ :: es =>
      if pkt.cid = cid then Undisturbed cid rd.now es
      else ¬ pkt.Synchronises ∧ Undisturbed cid last es
  | last, .checkTimeouts now :: es => last ≤ now ∧ Undisturbed cid last es
  | last, .feedback _ :: es => Undisturbed cid last es

instance Paced.decidable (cid : UInt32) :
    (last : UInt32) → (es : List Event) → Decidable (Paced cid last es)
  | _, [] => isTrue trivial
  | last, .packet pkt rd _ :: es =>
      have := Paced.decidable cid rd.now es
      have := Paced.decidable cid last es
      inferInstanceAs (Decidable (if pkt.cid = cid then _ ∧ Paced cid rd.now es else _))
  | last, .checkTimeouts _ :: es =>
      have := Paced.decidable cid last es
      inferInstanceAs (Decidable (_ ∧ _))
  | _, .feedback _ :: _ => isFalse id

instance (pkt : Packet) : Decidable pkt.Synchronises := inferInstanceAs (Decidable (_ ∧ _))

instance Undisturbed.decidable (cid : UInt32) :
    (last : UInt32) → (es : List Event) → Decidable (Undisturbed cid last es)
  | _, [] => isTrue trivial
  | last, .packet pkt rd _ :: es =>
      have := Undisturbed.decidable cid rd.now es
      have := Undisturbed.decidable cid last es
      inferInstanceAs (Decidable (if pkt.cid = cid then Undisturbed cid rd.now es else _ ∧ _))
  | last, .checkTimeouts _ :: es =>
      have := Undisturbed.decidable cid last es
      inferInstanceAs (Decidable (_ ∧ _))
  | last, .feedback _ :: es => Undisturbed.decidable cid last es

/-- These packets continue a message of the channel, the first of them with this
number. -/
inductive Follows (cid : UInt32) : ℕ → List Packet → Prop
  | nil (k : ℕ) : Follows cid k []
  | cons (k : ℕ) (pkt : Packet) (pkts : List Packet) (hcid : pkt.cid = cid)
      (hcont : pkt.isCont = true) (hseq : pkt.cmd.toNat = k) (h : Follows cid (k + 1) pkts) :
      Follows cid k (pkt :: pkts)

/-- The bytes that a message's packets carry. -/
def carried (first : Packet) (pkts : List Packet) : List UInt8 :=
  first.initPayload ++ pkts.flatMap (·.contPayload)

/-- A running device that has received these packets of a message, the last of
them at this time. -/
structure Receiving (d : Device) (first : Packet) (pkts : List Packet) (last : UInt32) : Prop where
  running : d.running = true
  holds : d.state.hid.Holds first.cid first.cmd first.len (carried first pkts) pkts.length
  size : first.len ≤ ctaphidBufferSize
  broadcast : first.cid ≠ ctaphidBroadcastCid
  single : (d.state.hid.cids.map (·.cid)).count first.cid ≤ 1
  stamped : ∀ c ∈ d.state.hid.cids, c.cid = first.cid → c.busy = true → c.lastUsed = last.toUInt64

theorem Packet.length_initPayload (pkt : Packet) : pkt.initPayload.length = 57 := by
  rw [initPayload, Buf.slice, List.length_take, List.length_drop, Buf.length_bytes]
  rfl

theorem length_carried (first : Packet) (pkts : List Packet) :
    (carried first pkts).length = 57 + 59 * pkts.length := by
  rw [carried, List.length_append, first.length_initPayload, List.length_flatMap]
  simp only [Packet.length_contPayload, List.map_const', List.sum_replicate, smul_eq_mul]
  rw [Nat.mul_comm]

/-! ### Other channels -/

section Foreign

variable {s : Layer} (now : UInt32) {pkt : Packet}

/-- While a message is being buffered, a packet on another channel that is no
CTAPHID_INIT to be carried out leads to nothing, except that its own slot is
freed. -/
theorem receive_foreign (hb : s.buffer.status = .buffering) (hcid : pkt.cid ≠ s.buffer.cid)
    (hsync : ¬ pkt.Synchronises) :
    (s.receive now pkt).1 = .done ∧ (s.receive now pkt).2.buffer = s.buffer ∧
      ((s.receive now pkt).2.cids = s.cids ∨
        (s.receive now pkt).2.cids = cidDel pkt.cid s.cids) := by
  obtain ⟨status, t, hbuffers, hreceive⟩ := receive_cases s now pkt
  rw [hreceive, buffer_followUp]
  have hb' := hb
  rw [← s.buffer_numbered pkt] at hb' hcid
  cases hbuffers with
  | initLength | initChannel | broadcast | busy =>
      rw [if_neg (by decide), Layer.buffer_numbered, cids_followUp_error, Layer.cids_numbered]
      exact ⟨rfl, rfl, .inr rfl⟩
  | initFull _ hinit hlen hzero | init _ _ _ hinit hlen hzero =>
      exact absurd ⟨hinit, hlen, hzero⟩ hsync
  | interrupted _ _ _ _ h | outOfOrder _ _ _ _ h | continued _ _ _ _ h => exact absurd h hcid
  | tooLong _ _ _ h | begun _ _ _ _ h => exact absurd hb' h
  | stray =>
      rw [if_neg (by decide), Layer.buffer_numbered]
      exact ⟨rfl, rfl, .inl (Layer.cids_numbered s pkt)⟩

end Foreign

theorem mem_of_mem_cidDel {other : UInt32} {cids : List Cid} {c : Cid} (hc : c ∈ cidDel other cids)
    (hcid : c.cid ≠ other) : c ∈ cids := by
  rcases cidDel_cases other cids with h | h
  · rwa [h] at hc
  · rcases mem_changeFirst h hc with hc | ⟨x, -, hx, rfl⟩
    · exact hc
    · exact absurd (by simpa using hx) hcid

variable {env : Env} {d : Device} {first : Packet} {pkts : List Packet} {last : UInt32}

/-- While more is to come the message is being buffered. -/
theorem Receiving.buffering (h : Receiving d first pkts last)
    (hmore : 57 + 59 * pkts.length < first.len) : d.state.hid.buffer.status = .buffering := by
  unfold CtapBuffer.status
  rw [h.holds.bcnt, h.holds.offset, length_carried, if_neg (by omega), if_neg (by omega)]

variable (env) in
theorem Receiving.foreign (h : Receiving d first pkts last)
    (hmore : 57 + 59 * pkts.length < first.len) {pkt : Packet} (rd : Readings) (early : Bool)
    (hcid : pkt.cid ≠ first.cid) (hsync : ¬ pkt.Synchronises) :
    (d.state.hid.receive rd.now pkt).1 = .done ∧
      Receiving (step env d (.packet pkt rd early)) first pkts last := by
  have hbcid : pkt.cid ≠ d.state.hid.buffer.cid := by
    rw [h.holds.cid]
    exact hcid
  obtain ⟨hdone, hbuffer, hcids⟩ := receive_foreign rd.now (h.buffering hmore) hbcid hsync
  refine ⟨hdone, ?_⟩
  rw [step_packet_done env h.running hdone]
  generalize (d.state.hid.receive rd.now pkt).2 = t at hbuffer hcids
  have hmap : t.cids.map (·.cid) = d.state.hid.cids.map (·.cid) := by
    rcases hcids with hcids | hcids <;> rw [hcids]
    exact map_cid_cidDel pkt.cid d.state.hid.cids
  refine ⟨h.running, h.holds.congr hbuffer hmap, h.size, h.broadcast, ?_,
    fun c hc hccid hbusy => ?_⟩
  · dsimp only
    rw [hmap]
    exact h.single
  · refine h.stamped c ?_ hccid hbusy
    dsimp only at hc
    rcases hcids with hcids | hcids <;> rw [hcids] at hc
    · exact hc
    · exact mem_of_mem_cidDel hc fun heq => hcid (heq.symm.trans hccid)

variable (env) in
/-- The scan spares the slot. -/
theorem Receiving.check (h : Receiving d first pkts last) {now : UInt32} (hle : last ≤ now)
    (hpace : (now - last).toNat < 750) :
    Receiving (step env d (.checkTimeouts now)) first pkts last := by
  have hsum : last.toNat + (now - last).toNat = now.toNat := by
    rw [UInt32.toNat_sub_of_le _ _ hle]
    exact Nat.add_sub_cancel' hle
  have hnow : last + (now - last) = now := by
    apply UInt32.toNat_inj.mp
    rw [UInt32.toNat_add, hsum]
    exact Nat.mod_eq_of_lt now.toNat_lt
  have hexp (c : Cid) (hc : c ∈ d.state.hid.cids) (hcid : c.cid = first.cid) :
      c.expired now = false := by
    refine Bool.eq_false_iff.mpr fun hexp => ?_
    have hbusy : c.busy = true := (Bool.and_eq_true_iff.mp hexp).1
    rw [← hnow, Cid.expired_iff hbusy (h.stamped c hc hcid hbusy)] at hexp
    have := now.toNat_lt
    omega
  have hdue : d.state.hid.buffer.due now d.state.hid.cids = false := by
    refine Bool.eq_false_iff.mpr fun hdue => ?_
    obtain ⟨c, hc, hboth⟩ := List.any_eq_true.mp hdue
    simp only [Bool.and_eq_true, decide_eq_true_eq] at hboth
    rw [hexp c hc (hboth.2.trans h.holds.cid)] at hboth
    exact Bool.false_ne_true hboth.1
  rw [Hid.step]
  split
  case isFalse => exact h
  case isTrue =>
    rw [Layer.checkTimeouts_eq, hdue, if_neg Bool.false_ne_true]
    have hmap : (d.state.hid.cids.map (·.scanned now)).map (·.cid) =
        d.state.hid.cids.map (·.cid) := by
      rw [List.map_map]
      exact List.map_congr_left fun c _ => c.scanned_cid now
    refine ⟨h.running, h.holds.congr rfl hmap, h.size, h.broadcast, ?_, ?_⟩
    · show ((d.state.hid.cids.map (·.scanned now)).map (·.cid)).count first.cid ≤ 1
      rw [hmap]
      exact h.single
    · intro c hc hcid hbusy
      obtain ⟨c', hc', rfl⟩ := List.mem_map.mp hc
      rw [Cid.scanned_cid] at hcid
      rw [Cid.scanned, hexp c' hc' hcid, if_neg Bool.false_ne_true] at hbusy ⊢
      exact h.stamped c' hc' hcid hbusy

/-! ### The channel itself -/

/-- The slot of the channel is stamped anew, and it has no other. -/
theorem stamped_cidRefresh {now : UInt32} {message : ℕ} {cid : UInt32} {cids cids' : List Cid}
    (h : cidRefresh now message cid cids = some cids') (hsingle : (cids.map (·.cid)).count cid ≤ 1) :
    ∀ c ∈ cids', c.cid = cid → c.busy = true → c.lastUsed = now.toUInt64 := by
  obtain ⟨pre, x, post, rfl, -, hpre, hx, rfl⟩ := changeFirst_eq_some.mp h
  have hxcid : x.cid = cid := by simpa using hx
  rw [List.map_append, List.map_cons, List.count_append, hxcid, List.count_cons_self] at hsingle
  intro c hc hcid _
  rcases List.mem_append.mp hc with hc | hc
  · exact absurd hcid (by simpa using hpre c hc)
  · rcases List.mem_cons.mp hc with rfl | hc
    · rfl
    · have hmem : cid ∈ post.map (·.cid) := List.mem_map.mpr ⟨c, hc, hcid⟩
      have := List.count_pos_iff.mpr hmem
      omega

/-- The next packet on the channel. -/
theorem Receiving.next (h : Receiving d first pkts last) (hmore : 57 + 59 * pkts.length < first.len)
    {pkt : Packet} (rd : Readings) (hcid : pkt.cid = first.cid) (hcont : pkt.isCont = true)
    (hseq : pkt.cmd.toNat = pkts.length) :
    ∃ t : Layer, d.state.hid.receive rd.now pkt = t.followUp pkt (.buffer t.buffer.status) ∧
      t.Holds first.cid first.cmd first.len
        ((carried first (pkts ++ [pkt])).take first.len) (pkts.length + 1) ∧
      (t.cids.map (·.cid)).count first.cid ≤ 1 ∧
      ∀ c ∈ t.cids, c.cid = first.cid → c.busy = true → c.lastUsed = rd.now.toUInt64 := by
  have hord : pkt.Ordinary := ⟨Packet.isInit_of_isCont hcont, hcid ▸ h.broadcast⟩
  have hlen := length_carried first pkts
  obtain ⟨cids, hcids, hstatus, ht, hholds⟩ := h.holds.continued rd.now (by omega) h.size
    hord hcont hcid hseq
  refine ⟨(d.state.hid.bufferPacket rd.now pkt).2, ?_, ?_, ?_, ?_⟩
  · rw [receive_eq, Layer.numbered, if_pos hcont]
    rw [hstatus]
  · have hcarried : carried first pkts ++ pkt.contPayload.take (first.len - (carried first pkts).length) =
        (carried first (pkts ++ [pkt])).take first.len := by
      have happend : carried first (pkts ++ [pkt]) = carried first pkts ++ pkt.contPayload := by
        simp [carried]
      rw [happend, List.take_append, List.take_of_length_le (l := carried first pkts) (by omega)]
    rw [← hcarried]
    exact hholds
  · rw [ht, map_cid_cidRefresh hcids]
    exact h.single
  · rw [ht]
    exact stamped_cidRefresh hcids h.single

variable (env) in
/-- A packet on the channel behind which more is to come. -/
theorem Receiving.more (h : Receiving d first pkts last)
    (hmore : 57 + 59 * (pkts.length + 1) < first.len) {pkt : Packet} (rd : Readings) (early : Bool)
    (hcid : pkt.cid = first.cid) (hcont : pkt.isCont = true) (hseq : pkt.cmd.toNat = pkts.length) :
    (d.state.hid.receive rd.now pkt).1 = .done ∧
      Receiving (step env d (.packet pkt rd early)) first (pkts ++ [pkt]) rd.now := by
  obtain ⟨t, hreceive, hholds, hsingle, hstamped⟩ := h.next (by omega) rd hcid hcont hseq
  have hlen := length_carried first (pkts ++ [pkt])
  rw [List.length_append, List.length_singleton] at hlen
  rw [List.take_of_length_le (by omega)] at hholds
  have hstatus : t.buffer.status = .buffering := by
    unfold CtapBuffer.status
    rw [hholds.bcnt, hholds.offset, if_neg (by omega), if_neg (by omega)]
  rw [hstatus] at hreceive
  have hdone : (d.state.hid.receive rd.now pkt).1 = .done := by
    rw [hreceive]
    rfl
  refine ⟨hdone, ?_⟩
  rw [step_packet_done env h.running hdone, hreceive]
  refine ⟨h.running, ?_, h.size, h.broadcast, hsingle, hstamped⟩
  rw [List.length_append, List.length_singleton]
  exact hholds.congr rfl rfl

/-- The last packet on the channel. -/
theorem Receiving.complete (h : Receiving d first pkts last)
    (hmore : 57 + 59 * pkts.length < first.len) {pkt : Packet} (rd : Readings)
    (hlast : first.len ≤ 57 + 59 * (pkts.length + 1)) (hcid : pkt.cid = first.cid)
    (hcont : pkt.isCont = true) (hseq : pkt.cmd.toNat = pkts.length) :
    (d.state.hid.receive rd.now pkt).1 = .dispatch ∧
      (d.state.hid.receive rd.now pkt).2.Holds first.cid first.cmd first.len
        ((carried first (pkts ++ [pkt])).take first.len) (pkts.length + 1) := by
  obtain ⟨t, hreceive, hholds, -, -⟩ := h.next hmore rd hcid hcont hseq
  have hlen := length_carried first (pkts ++ [pkt])
  rw [List.length_append, List.length_singleton] at hlen
  have hstatus : t.buffer.status = .buffered := by
    unfold CtapBuffer.status
    rw [hholds.bcnt, hholds.offset, List.length_take, if_neg (by omega), if_pos (by omega)]
  rw [hreceive, hstatus]
  exact ⟨rfl, hholds.congr rfl rfl⟩

/-! ### Every interleaving -/

/-- The event does not make the layer dispatch a message. -/
def Quiet (d : Device) : Event → Prop
  | .packet pkt rd _ => (d.state.hid.receive rd.now pkt).1 = .done
  | _ => True

/-- Until the last packet of the message nothing is dispatched, and everything
that came on the channel is received. -/
theorem Receiving.run (es : List Event) (h : Receiving d first pkts last)
    (hpaced : Paced first.cid last es) (hundisturbed : Undisturbed first.cid last es)
    (hfollows : Follows first.cid pkts.length (es.filterMap (Event.packetOn first.cid)))
    (hmore : 57 + 59 * (pkts.length + (es.filterMap (Event.packetOn first.cid)).length) < first.len) :
    Along (step env) Quiet d es ∧ ∃ last', Receiving (Transition.run (step env) d es) first
      (pkts ++ es.filterMap (Event.packetOn first.cid)) last' := by
  induction es generalizing d pkts last with
  | nil =>
      rw [List.filterMap_nil, List.append_nil]
      exact ⟨trivial, last, h⟩
  | cons e es ih =>
      cases e with
      | packet pkt rd early =>
          by_cases hcid : pkt.cid = first.cid
          · have hon : (Event.packet pkt rd early).packetOn first.cid = some pkt := if_pos hcid
            rw [List.filterMap_cons, hon] at hfollows hmore ⊢
            rw [Paced, if_pos hcid] at hpaced
            rw [Undisturbed, if_pos hcid] at hundisturbed
            rw [List.length_cons] at hmore
            cases hfollows with
            | cons _ _ _ _ hcont hseq hrest =>
                obtain ⟨hdone, hnext⟩ := h.more env (by omega) rd early
                  hcid hcont hseq
                have hlen : (pkts ++ [pkt]).length = pkts.length + 1 := by simp
                obtain ⟨hquiet, last', hend⟩ := ih hnext hpaced.2 hundisturbed (hlen ▸ hrest)
                  (by omega)
                rw [List.append_assoc, List.singleton_append] at hend
                exact ⟨⟨hdone, hquiet⟩, last', hend⟩
          · have hon : (Event.packet pkt rd early).packetOn first.cid = none := if_neg hcid
            rw [List.filterMap_cons, hon] at hfollows hmore ⊢
            rw [Paced, if_neg hcid] at hpaced
            rw [Undisturbed, if_neg hcid] at hundisturbed
            obtain ⟨hdone, hnext⟩ := h.foreign env (by omega) rd early
              hcid hundisturbed.1
            obtain ⟨hquiet, hend⟩ := ih hnext hpaced hundisturbed.2 hfollows hmore
            exact ⟨⟨hdone, hquiet⟩, hend⟩
      | feedback touched => exact hpaced.elim
      | checkTimeouts now =>
          have hnext := h.check env hundisturbed.1 hpaced.1
          obtain ⟨hquiet, hend⟩ := ih hnext hpaced.2 hundisturbed.2 hfollows hmore
          exact ⟨⟨trivial, hquiet⟩, hend⟩

theorem Follows.append_singleton {cid : UInt32} {k : ℕ} {pkts : List Packet} {pkt : Packet}
    (h : Follows cid k (pkts ++ [pkt])) :
    Follows cid k pkts ∧ pkt.cid = cid ∧ pkt.isCont = true ∧ pkt.cmd.toNat = k + pkts.length := by
  induction pkts generalizing k with
  | nil =>
      cases h with
      | cons _ _ _ hcid hcont hseq => exact ⟨.nil k, hcid, hcont, hseq⟩
  | cons p pkts ih =>
      cases h with
      | cons _ _ _ hcid hcont hseq hrest =>
          obtain ⟨hfollows, hpktcid, hpktcont, hpktseq⟩ := ih hrest
          refine ⟨.cons k p pkts hcid hcont hseq hfollows, hpktcid, hpktcont, ?_⟩
          rw [hpktseq, List.length_cons]
          omega

theorem count_le_one {l : List UInt32} (h : l.Pairwise fun a b => a ≠ 0 → a ≠ b) {x : UInt32}
    (hx : x ≠ 0) : l.count x ≤ 1 := by
  induction l with
  | nil => simp
  | cons a l ih =>
      rw [List.pairwise_cons] at h
      by_cases ha : a = x
      · subst ha
        rw [List.count_cons_self, List.count_eq_zero_of_not_mem fun hmem => h.1 a hmem hx rfl]
      · rw [List.count_cons_of_ne ha]
        exact ih h.2

/-- `ctaphid_buffer_packet` takes the packet and waits for more. -/
def Layer.Accepts (s : Layer) (now : UInt32) (pkt : Packet) : Prop :=
  ((s.numbered pkt).bufferPacket now pkt).1 = .buffer .buffering

instance (s : Layer) (now : UInt32) (pkt : Packet) : Decidable (s.Accepts now pkt) :=
  inferInstanceAs (Decidable (_ = _))

variable (env) in
/-- A first packet that is accepted. -/
theorem receiving_first {rd : Readings} (early : Bool) (hrun : d.running = true)
    (hunshared : Unshared d.state.hid.cids) (hspared : Spared d.state.hid.cids)
    (hzero : first.cid ≠ 0) (hcont : first.isCont = false)
    (haccepts : d.state.hid.Accepts rd.now first) :
    57 < first.len ∧ (d.state.hid.receive rd.now first).1 = .done ∧
      Receiving (step env d (.packet first rd early)) first [] rd.now := by
  have hreceive := receive_eq d.state.hid rd.now first
  have hbuffers := buffers_bufferPacket (d.state.hid.numbered first) rd.now first
  unfold Layer.Accepts at haccepts
  generalize ((d.state.hid.numbered first).bufferPacket rd.now first).1 = status at *
  generalize ((d.state.hid.numbered first).bufferPacket rd.now first).2 = t at *
  cases hbuffers with
  | initLength | initChannel | initFull | init | broadcast | interrupted | busy | stray | tooLong |
      outOfOrder => exact nomatch haccepts
  | continued _ _ h => exact absurd (hcont ▸ h) Bool.false_ne_true
  | begun cids hord _ hlen hstatus hcids =>
      have htable : (d.state.hid.numbered first).TableOk := by
        refine TableOk.idle ?_ ?_ hstatus <;> rw [Layer.cids_numbered]
        · exact hunshared
        · exact hspared
      have hsingle : (cids.map (·.cid)).count first.cid ≤ 1 := by
        rw [map_cid_cidRefresh hcids]
        exact count_le_one (htable.opened rd.now hstatus).unshared hzero
      rw [PacketStatus.buffer.injEq] at haccepts
      rw [haccepts] at hreceive
      rw [CtapBuffer.bufferPacket_begin hcont] at haccepts hreceive
      have hlong : 57 < first.len := by
        by_contra hshort
        unfold CtapBuffer.status at haccepts
        dsimp only at haccepts
        rw [min_eq_left (by exact_mod_cast not_lt.mp hshort), if_pos rfl] at haccepts
        split at haccepts <;> exact nomatch haccepts
      have hdone : (d.state.hid.receive rd.now first).1 = .done := by
        rw [hreceive]
        rfl
      refine ⟨hlong, hdone, ?_⟩
      rw [step_packet_done env hrun hdone, hreceive]
      have hmin : min (first.len : ℤ) ctaphidInitPayloadSize = (57 : ℕ) :=
        min_eq_right (by exact_mod_cast hlong.le)
      have hcarried : carried first [] = first.initPayload := List.append_nil _
      refine ⟨hrun, ?_, hlen, hord.cid, hsingle, ?_⟩
      · refine ⟨?_, rfl, rfl, rfl, ?_, rfl, ?_⟩
        · refine (cidExists_congr (map_cid_cidRefresh hcids)).trans ?_
          exact cidExists_of_cidRefresh hcids
        · rw [hcarried, first.length_initPayload]
          exact hmin
        · rw [hcarried]
          show (Buf.write _ 0 (first.initPayload.take (min (first.len : ℤ) _).toNat)).slice 0 _ = _
          rw [hmin, Int.toNat_natCast, List.take_of_length_le first.length_initPayload.le]
          refine Buf.slice_write_self ?_
          rw [first.length_initPayload]
          decide
      · refine stamped_cidRefresh hcids ?_
        rwa [← map_cid_cidRefresh hcids]

/-- A CTAPHID_PING of 60 bytes on channel 5, and the packet that completes it. -/
def demoFirst : Packet := Buf.ofList 64 [5, 0, 0, 0, 0x81, 0, 60]

def demoLast : Packet := Buf.ofList 64 [5, 0, 0, 0, 0, 1, 2, 3]

/-- A message that begins on channel 6, a packet that continues one on channel 7,
and a scan. -/
def demoForeign : List Event :=
  [Sample.packet 1 [6, 0, 0, 0, 0x81, 0, 60], Sample.packet 2 [7, 0, 0, 0, 0], .checkTimeouts 700]

end NitrokeyFido2.Hid
