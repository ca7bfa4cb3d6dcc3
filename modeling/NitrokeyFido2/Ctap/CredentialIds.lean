import NitrokeyFido2.Ctap.MakeCredential

/-!
The fields of the credential ids that the device makes.
-/

namespace NitrokeyFido2.Ctap

namespace CredentialId

variable (c : CredentialId) {b : List UInt8}

/-! ### One field behind another -/

theorem tag_setTag (h : b.length = credentialTagSize) : tag (setTag c b) = b :=
  Buf.slice_written h (by decide)

theorem nonce_setTag (h : b.length = credentialTagSize) : nonce (setTag c b) = nonce c :=
  Buf.slice_write_after (by rw [h]; decide) (by rw [h]; decide)

theorem rpIdHash_setTag (h : b.length = credentialTagSize) : rpIdHash (setTag c b) = rpIdHash c :=
  Buf.slice_write_after (by rw [h]; decide) (by rw [h]; decide)

theorem count_setTag (h : b.length = credentialTagSize) : count (setTag c b) = count c :=
  congrArg Bytes.le32 (Buf.slice_write_after (by rw [h]; decide) (by rw [h]; decide))

theorem rpIdHash_setRpIdHash (h : b.length = 32) : rpIdHash (setRpIdHash c b) = b :=
  Buf.slice_written h (by decide)

theorem nonce_setRpIdHash (h : b.length = 32) : nonce (setRpIdHash c b) = nonce c :=
  Buf.slice_write_before (by rw [h]; decide) (by decide)

theorem count_setRpIdHash (h : b.length = 32) : count (setRpIdHash c b) = count c :=
  congrArg Bytes.le32 (Buf.slice_write_after (by rw [h]; decide) (by rw [h]))

theorem count_setCount (v : UInt32) : count (setCount c v) = v := by
  have hself : (c.write 66 (Bytes.toLe32 v)).slice 66 4 = Bytes.toLe32 v :=
    Buf.slice_written (Bytes.length_toLe32 v) (by decide)
  unfold count setCount
  rw [hself, ← List.append_nil (Bytes.toLe32 v), Bytes.le32_toLe32]

end CredentialId

/-! ### New ids -/

section New

variable (env : Env) (s : Secrets) (nonce : Buf credentialNonceSize) (h : AuthDataHeader) (l : UInt32)

theorem length_makeAuthTag (rpIdHash nonce : List UInt8) (count : UInt32) :
    (makeAuthTag env s rpIdHash nonce count).length = credentialTagSize := by
  unfold makeAuthTag Buf.slice
  rw [List.length_take, List.length_drop, Buf.length_bytes]
  decide

/-- The id before its tag is written. -/
def untaggedId : CredentialId :=
  CredentialId.setRpIdHash (CredentialId.setCount (addMaskedMetadataForCredential env s
    (CredentialId.setNonce (Buf.zero _) nonce.bytes) l) h.signCount) h.rpIdHash.bytes

theorem newCredentialId_eq :
    newCredentialId env s nonce h l = CredentialId.setTag (untaggedId env s nonce h l)
      (makeAuthTag env s h.rpIdHash.bytes (CredentialId.nonce (untaggedId env s nonce h l))
        h.signCount) := rfl

theorem rpIdHash_newCredentialId :
    CredentialId.rpIdHash (newCredentialId env s nonce h l) = h.rpIdHash.bytes := by
  rw [newCredentialId_eq, CredentialId.rpIdHash_setTag _ (length_makeAuthTag ..), untaggedId,
    CredentialId.rpIdHash_setRpIdHash _ h.rpIdHash.length_bytes]

theorem count_newCredentialId :
    CredentialId.count (newCredentialId env s nonce h l) = h.signCount := by
  rw [newCredentialId_eq, CredentialId.count_setTag _ (length_makeAuthTag ..), untaggedId,
    CredentialId.count_setRpIdHash _ h.rpIdHash.length_bytes, CredentialId.count_setCount]

/-- A new id carries the tag of its relying party, nonce and count. -/
theorem isAuthenticId_newCredentialId :
    isAuthenticId env s h.rpIdHash.bytes (newCredentialId env s nonce h l) = true := by
  unfold isAuthenticId
  rw [rpIdHash_newCredentialId, count_newCredentialId, newCredentialId_eq,
    CredentialId.tag_setTag _ (length_makeAuthTag ..),
    CredentialId.nonce_setTag _ (length_makeAuthTag ..)]
  simp

end New

end NitrokeyFido2.Ctap
