import NitrokeyFido2.Ctap.Chain
import NitrokeyFido2.Ctap.Sample

/-!
The relying party that an assertion is bound to.

A getAssertion hashes the rpId of the request. A getNextAssertion copies what
lies in the entry where a credential id of 70 bytes has the hash, whatever
kind of entry it is.
-/

namespace NitrokeyFido2.Ctap

open Proc

variable {env : Env}

theorem authBytes_take_hash (g : GetAssertionState) {size : ℕ} (h : 32 ≤ size) :
    (g.authBytes size).take 32 = g.authData.rpIdHash.bytes := by
  have hlen := g.authData.rpIdHash.length_bytes
  unfold GetAssertionState.authBytes AuthDataHeader.toBytes
  rw [List.take_take, min_eq_left h, List.append_assoc, List.append_assoc, List.take_append_of_le_length
    hlen.ge, List.take_of_length_le hlen.le]

theorem AssertionData.rpIdHash {ga : GetAssertion} {cred : Credential} {h : Answers}
    {b t : Authenticator} {size : ℕ} (hd : AssertionData env ga cred h b size t) :
    t.gas.authData.rpIdHash = env.sha256 ga.rp.bytes ∧ 32 ≤ size := by
  cases hd with
  | extension hext gas => exact ⟨by rw [gas], by decide⟩
  | ordinary hext began header made gas => exact ⟨by rw [gas, header], by omega⟩

/-- The rpId of a getAssertion, hashed. -/
def requestedHash (env : Env) (a : Authenticator) (bytes : List UInt8) : List UInt8 :=
  (env.sha256 (requestedAssertion env a bytes.tail).rp.bytes).bytes

section Dispatch

variable {a t : Authenticator} {bytes : List UInt8} {h : Answers} {w : Writer}

theorem getAssertion_bound (hcmd : bytes.getD 0 0 = ctapGetAssertionCmd)
    (hrun : a.dispatch env bytes h = (.ok (some w), t)) :
    w.authData.take 32 = requestedHash env a bytes := by
  obtain ⟨x, n, ga₀, v, s, b, d, size, hx, hw, -⟩ := dispatch_getAssertion_ok hcmd hrun
  obtain ⟨hhash, hsize⟩ := AssertionData.rpIdHash hx.data
  rw [authData_of_items hw, hx.authData, authBytes_take_hash d.gas hsize, hhash]
  show (env.sha256 ga₀.rp.bytes).bytes = _
  rw [hx.selected.asked]
  rfl

theorem getNextAssertion_hash (hcmd : bytes.getD 0 0 = getNextAssertionCmd)
    (hrun : a.dispatch env bytes h = (.ok (some w), t)) :
    w.authData.take 32 = CredentialId.rpIdHash (a.gas.entry a.gas.index).2 := by
  obtain ⟨-, x, s, ret, b, hx, hw, -⟩ := dispatch_getNextAssertion_ok hcmd hrun
  obtain ⟨count, hgas⟩ := NextAssertion.gas env hx
  have hhash : (s.gas.extended ret b).authData.rpIdHash =
      Buf.ofList 32 (CredentialId.rpIdHash (a.gas.entry a.gas.index).2) := by
    rw [hgas]
    rfl
  have hlen : (CredentialId.rpIdHash (a.gas.entry a.gas.index).2).length = 32 :=
    Buf.length_slice (by decide)
  rw [authData_of_items hw, hx.authData, authBytes_take_hash _ (by omega), hhash,
    Buf.bytes_ofList hlen.le, hlen]
  simp

end Dispatch

/-- A credential id of 70 bytes that is accepted for a relying party has its
hash. -/
theorem rpIdHash_of_authenticated {s : Secrets} {custom : CustomCred} {rp : RpId}
    {desc : CredentialDescriptor} (h : ctapAuthenticateCredential env s custom rp desc = true)
    (htype : desc.type = pubKeyCredPubKey) :
    CredentialId.rpIdHash desc.credential.id = (env.sha256 rp.bytes).bytes := by
  unfold ctapAuthenticateCredential at h
  rw [if_pos htype, isAuthenticId, Bool.and_eq_true, decide_eq_true_eq] at h
  exact h.1

/-- The assertion is bound to the relying party with this hash. -/
def BoundTo (hash : List UInt8) (w : Writer) : Prop := w.authData.take 32 = hash

/-- Every assertion of a chain is bound to the requested relying party exactly
if every entry that the getNextAssertion requests return has its hash at the
bytes 34 to 65. -/
theorem assertions_bound_iff (c : AnsweredChain env)
    (hcmd : c.bytes.getD 0 0 = ctapGetAssertionCmd) :
    (∀ w ∈ c.answer :: c.rest, BoundTo (requestedHash env c.start c.bytes) w) ↔
      ∀ i < c.rest.length,
        CredentialId.rpIdHash (c.after.gas.entry i).2 = requestedHash env c.start c.bytes := by
  have hindex : (c.after.setLastcmd ctapGetAssertionCmd).gas.index = 0 := by
    show c.after.gas.index = 0
    exact index_of_getAssertion hcmd c.answered
  have hnext := c.continued.forall_iff (P := BoundTo (requestedHash env c.start c.bytes))
    (Q := fun _ entry => CredentialId.rpIdHash entry.2 = requestedHash env c.start c.bytes)
    fun b t bytes h w hcmd hrun => by rw [BoundTo, getNextAssertion_hash hcmd hrun]
  rw [List.forall_mem_cons, hnext, hindex]
  simp only [Nat.zero_add]
  exact and_iff_right (getAssertion_bound hcmd c.answered)

/-- A device with two credentials of one relying party. -/
def demoDevice : Authenticator :=
  (Transition.run (Machine.step Sample.env) (Machine.powerUp Sample.env Sample.device)
    Sample.twoCredentials).auth

def demoAssertion (ids : List (List UInt8)) : List UInt8 :=
  ctapGetAssertionCmd :: Sample.encodeOps (Sample.assertOps 6 ids)

/-- The key handle that a U2F registration for the relying party makes of this
nonce. -/
def demoKeyHandle (nonce : UInt8) : List UInt8 :=
  u2fMakeAuthTag Sample.env demoDevice.secrets (List.replicate 32 nonce)
    (Sample.hash (Bytes.ascii "a.example")).bytes ++ List.replicate 32 nonce

set_option maxRecDepth 100000 in
theorem demoIds_answered : (chainOf Sample.env demoDevice (demoAssertion Sample.twoIds)
    Sample.touch 1).isSome = true := by
  decide +kernel

theorem assertions_bound_demo :
    let c := (chainOf Sample.env demoDevice (demoAssertion Sample.twoIds) Sample.touch 1).get
      demoIds_answered
    (∀ w ∈ c.answer :: c.rest, BoundTo (requestedHash Sample.env c.start c.bytes) w) ↔
      ∀ i < c.rest.length, CredentialId.rpIdHash (c.after.gas.entry i).2 =
        requestedHash Sample.env c.start c.bytes := by
  intro c
  have hcmd : c.bytes.getD 0 0 = ctapGetAssertionCmd := by
    rw [(chainOf_eq (Option.some_get demoIds_answered).symm).2]
    rfl
  exact assertions_bound_iff c hcmd

set_option maxRecDepth 100000 in
/-- Two key handles of one relying party in a list: the second one is returned
with the bytes that lie behind it. -/
theorem assertions_bound_counterexample :
    ∃ c : AnsweredChain Sample.env, c.start = demoDevice ∧
      c.bytes.getD 0 0 = ctapGetAssertionCmd ∧
      ¬ ∀ w ∈ c.answer :: c.rest, BoundTo (requestedHash Sample.env c.start c.bytes) w := by
  have hunbound : (chainOf Sample.env demoDevice (demoAssertion [demoKeyHandle 1, demoKeyHandle 2])
      Sample.touch 1).any (fun c => c.rest.any fun w =>
        w.authData.take 32 ≠ requestedHash Sample.env c.start c.bytes) = true := by
    decide +kernel
  obtain ⟨c, hstart, hbytes, hany⟩ := exists_chain hunbound
  obtain ⟨w, hw, hne⟩ := List.any_eq_true.mp hany
  refine ⟨c, hstart, by rw [hbytes]; rfl, fun hall => ?_⟩
  exact of_decide_eq_true hne (hall w (List.mem_cons_of_mem _ hw))

end NitrokeyFido2.Ctap
