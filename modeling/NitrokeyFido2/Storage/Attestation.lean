import NitrokeyFido2.Storage.StatePages

/-!
The attestation page.

`device_migrate` moves the attestation certificate and the lock flag of a
device into its attestation page. The page is erased for that, and between
the erase and the last word of the key the only copy of the attestation key
is in RAM.
-/

namespace NitrokeyFido2.Storage

open NorFlash Bootloader

variable (chip : Chip) (b : Board)

/-! ### The page -/

/-- `ATTESTATION_PAGE`. -/
def attestationPage : ℕ := b.pages - 15

/-- `ATTESTATION_PAGE_ADDR`, the address of the field `attestation_key`. -/
def attestationPageAddr : ℕ := flashAddr (attestationPage b)

/-- The address of `device_settings`. -/
def deviceSettingsAddr : ℕ := attestationPageAddr b + 32

/-- The address of `attestation_cert_size`. -/
def attestationCertSizeAddr : ℕ := attestationPageAddr b + 40

/-- The address of `attestation_cert`. -/
def attestationCertAddr : ℕ := attestationPageAddr b + 48

/-- `ATTESTATION_CONFIGURED_TAG`. -/
def attestationConfiguredTag : ℕ := 0xaa551e79

/-- `SOLO_FLAG_LOCKED`. -/
def soloFlagLocked : ℕ := 2

/-- `attestation_solo_cert_der`, as it stands in rows of twenty bytes. -/
def attestationSoloCertDer : List UInt8 :=
  ([0x3082027230820218a003020102020101300a0608, 0x2a8648ce3d040302304e310b3009060355040613,
      0x02444531163014060355040a0c0d4e6974726f6b, 0x657920476d62483110300e060355040b0c07526f,
      0x6f742043413115301306035504030c0c6e697472, 0x6f6b65792e636f6d3020170d3230303530383039,
      0x333533355a180f32303730303432363039333533, 0x355a3060310b3009060355040613024445311630,
      0x14060355040a0c0d4e6974726f6b657920476d62, 0x4831223020060355040b0c1941757468656e7469,
      0x6361746f72204174746573746174696f6e311530, 0x1306035504030c0c6e6974726f6b65792e636f6d,
      0x3059301306072a8648ce3d020106082a8648ce3d, 0x03010703420004b6a8021d09dd488f31dbe37e26,
      0xd6cda54411c3342793206e510a0c7f2cc887b9a7, 0x3c4ab4642ab78ca1d8c3809f712cc29a735def2d,
      0xa46625a03acf496bd20287a381d23081cf301d06, 0x03551d0e041604142e5b457e5610b4e5ddb4a928,
      0x0bd11fe8fee5c64630730603551d23046c306aa1, 0x52a450304e310b30090603550406130244453116,
      0x3014060355040a0c0d4e6974726f6b657920476d, 0x62483110300e060355040b0c07526f6f74204341,
      0x3115301306035504030c0c6e6974726f6b65792e, 0x636f6d821416620496e9d9f4ff2da449f17c25f6,
      0xa857eb66e830090603551d1304023000300b0603, 0x551d0f0404030204f03021060b2b0601040182e5,
      0x1c01010404120410c39efba6fcf44c3e828bfc4a, 0x6115a0ff300a06082a8648ce3d04030203480030,
      0x45022024387159c08fe79defc3c8dc726a82c262, 0x4baf826fb2740b1c5f1f010cbe4e540221009a9b,
      0x6d614b846f8df7d69a979665e28c4f580c510116].flatMap (Bytes.ofHex 20)) ++
    Bytes.ofHex 10 0xc6deab5683045fd0bb1a

/-- `attestation_hacker_cert_der`. -/
def attestationHackerCertDer : List UInt8 :=
  ([0x3082027230820218a003020102020101300a0608, 0x2a8648ce3d040302304e310b3009060355040613,
      0x02444531163014060355040a0c0d4e6974726f6b, 0x657920476d62483110300e060355040b0c07526f,
      0x6f742043413115301306035504030c0c6e697472, 0x6f6b65792e636f6d3020170d3230303530383132,
      0x303030345a180f32303730303432363132303030, 0x345a3060310b3009060355040613024445311630,
      0x14060355040a0c0d4e6974726f6b657920476d62, 0x4831223020060355040b0c1941757468656e7469,
      0x6361746f72204174746573746174696f6e311530, 0x1306035504030c0c6e6974726f6b65792e636f6d,
      0x3059301306072a8648ce3d020106082a8648ce3d, 0x030107034200047fbd8e195e7119b8013a34ce3a,
      0xde0558aded50f1d3f36121c026a5c86b1d674b22, 0x33ae631c93aa7fee1371d1538659d1de34c23794,
      0xbe14b623b65c8605c57828a381d23081cf301d06, 0x03551d0e041604141cd8ffeb0be1fd29fd5fb1b2,
      0x9c3eaca679e672f230730603551d23046c306aa1, 0x52a450304e310b30090603550406130244453116,
      0x3014060355040a0c0d4e6974726f6b657920476d, 0x62483110300e060355040b0c07526f6f74204341,
      0x3115301306035504030c0c6e6974726f6b65792e, 0x636f6d82140513d6e6af64d691fc556746d90ec7,
      0xeb4a5ef6d730090603551d1304023000300b0603, 0x551d0f0404030204f03021060b2b0601040182e5,
      0x1c01010404120410c39efba6fcf44c3e828bfc4a, 0x6115a0ff300a06082a8648ce3d04030203480030,
      0x450221009f854274d3e123bf15dbeb41b6e9dd43, 0xa34475d3dd269cb2f60900ec758728bc022001b2,
      0xb1641205fff796c644bb261464055a5edd340234].flatMap (Bytes.ofHex 20)) ++
    Bytes.ofHex 10 0xc59f4e3236afb0e46c03

/-- `solo_hacker_attestation_key_old`. -/
def soloHackerAttestationKeyOld : List UInt8 :=
  Bytes.ofHex 32
    0xfc0252be0cb680c04cc345b92b2e47e08cde3603df538cb0f96fc3f2885045f5

/-- `solo_hacker_attestation_key`. -/
def soloHackerAttestationKey : List UInt8 :=
  Bytes.ofHex 32
    0xdcc5ce47acd601a4ab22e13032429db1d57ca1669e40dbd76a5df47d536e8685

/-- The attestation key in flash. -/
def attestationKey (flash : Memory) : List UInt8 := flash.read (attestationPageAddr b) 32

def deviceSettings (flash : Memory) : ℕ := Bytes.leNat (flash.read (deviceSettingsAddr b) 8)

/-- `device_attestation_cert_der_get_size`, which returns 16 of the 64 bits. -/
def deviceAttestationCertDerGetSize (flash : Memory) : ℕ :=
  Bytes.leNat (flash.read (attestationCertSizeAddr b) 8) % 2 ^ 16

/-- `device_attestation_read_cert_der`. -/
def deviceAttestationReadCertDer (flash : Memory) : List UInt8 :=
  flash.read (attestationCertAddr b) (deviceAttestationCertDerGetSize b flash)

/-- The upper half of the settings. -/
def configureTag (flash : Memory) : ℕ := deviceSettings b flash / 2 ^ 32 % 2 ^ 32

/-- `solo_is_locked`. -/
def soloIsLocked (flash : Memory) : Prop :=
  configureTag b flash = attestationConfiguredTag ∧ deviceSettings b flash &&& soloFlagLocked ≠ 0

instance (flash : Memory) : Decidable (soloIsLocked b flash) :=
  inferInstanceAs (Decidable (_ ∧ _))

/-! ### Migration -/

/-- `flash_write_dword`. -/
def flashWriteDword (addr data : ℕ) : Op := .program addr (Bytes.toLe 8 data)

/-- Is this the attestation of a hacker device, which is not confidential? -/
def isHackerKey (key : List UInt8) : Prop :=
  key = soloHackerAttestationKey ∨ key = soloHackerAttestationKeyOld

instance : DecidablePred isHackerKey := fun _ => inferInstanceAs (Decidable (_ ∨ _))

/-- The condition under which the page is written anew. -/
def needsMigration (flash : Memory) : Prop :=
  configureTag b flash ≠ attestationConfiguredTag ∨
    attestationSoloCertDer.length % 2 ^ 16 ≠ deviceAttestationCertDerGetSize b flash

instance (flash : Memory) : Decidable (needsMigration b flash) :=
  inferInstanceAs (Decidable (_ ∨ _))

/-- The settings that `device_migrate` makes of the option bytes. -/
def migratedSettings (optr : UInt32) : ℕ :=
  attestationConfiguredTag <<< 32 ||| if optr &&& 0xff ≠ 0xAA then soloFlagLocked else 0

/-- The writes of one branch: size, certificate and key. -/
def writeAttestation (cert key : List UInt8) : List Op :=
  flashWriteDword (attestationCertSizeAddr b) (cert.length % 2 ^ 16) ::
    (flashWrite (attestationCertAddr b) cert ++ flashWrite (attestationPageAddr b) key)

/-- `device_migrate`. -/
def deviceMigrate (flash : Memory) (optr : UInt32) : List Op :=
  if needsMigration b flash then
    let tmpAttestationKey := attestationKey b flash
    flashErasePage (attestationPage b) ::
      ((if isHackerKey tmpAttestationKey then
          writeAttestation b attestationHackerCertDer soloHackerAttestationKey
        else writeAttestation b attestationSoloCertDer tmpAttestationKey) ++
        [flashWriteDword (deviceSettingsAddr b) (migratedSettings optr)])
  else []

/-- A run of `device_migrate` to its end. -/
def migrated (flash : Memory) (optr : UInt32) : Memory := applyAll chip flash (deviceMigrate b flash optr)

/-- A run that loses power after `k` operations. -/
def cutMigration (flash : Memory) (optr : UInt32) (k : ℕ) : Memory :=
  applyAll chip flash ((deviceMigrate b flash optr).take k)

/-- The certificate that belongs to a key. -/
def certificateOf (key : List UInt8) : List UInt8 :=
  if isHackerKey key then attestationHackerCertDer else attestationSoloCertDer

/-- The key that a migration writes in the place of the old one. -/
def migratedKey (key : List UInt8) : List UInt8 :=
  if isHackerKey key then soloHackerAttestationKey else key

theorem length_attestationCertDer :
    attestationSoloCertDer.length = 630 ∧ attestationHackerCertDer.length = 630 := by
  decide +kernel

theorem length_certificateOf (key : List UInt8) : (certificateOf key).length = 630 := by
  unfold certificateOf
  split
  · exact length_attestationCertDer.2
  · exact length_attestationCertDer.1

theorem length_migratedKey {key : List UInt8} (h : key.length = 32) : (migratedKey key).length = 32 := by
  unfold migratedKey
  split
  · exact Bytes.length_ofHex ..
  · exact h

theorem isHackerKey_migratedKey (key : List UInt8) : isHackerKey (migratedKey key) ↔ isHackerKey key := by
  unfold migratedKey
  split
  case isTrue h => exact iff_of_true (.inl rfl) h
  case isFalse => exact Iff.rfl

/-- Both hacker keys have a byte in their last double word that is not
erased. -/
theorem hackerKey_tail {key : List UInt8} (h : isHackerKey key) : key.getD 31 0xFF ≠ 0xFF := by
  obtain rfl | rfl := h <;> decide +kernel

/-! ### What a run leaves -/

section Run

variable {b} {flash : Memory} {optr : UInt32}

theorem attestationPageAddr_mod : attestationPageAddr b % 8 = 0 := flashAddr_mod _

/-- The operations of a migration that is not needed. -/
theorem deviceMigrate_of_not (h : ¬ needsMigration b flash) : deviceMigrate b flash optr = [] := if_neg h

/-- The operations of a migration. -/
theorem deviceMigrate_of (h : needsMigration b flash) :
    deviceMigrate b flash optr =
      flashErasePage (attestationPage b) ::
        (writeAttestation b (certificateOf (attestationKey b flash))
            (migratedKey (attestationKey b flash)) ++
          [flashWriteDword (deviceSettingsAddr b) (migratedSettings optr)]) := by
  rw [deviceMigrate, if_pos h, certificateOf, migratedKey]
  dsimp only
  split <;> rfl

theorem length_writeAttestation {cert key : List UInt8} (hcert : cert.length = 630)
    (hkey : key.length = 32) : (writeAttestation b cert key).length = 84 := by
  rw [writeAttestation, List.length_cons, List.length_append, length_flashWrite, length_flashWrite,
    hcert, hkey]

theorem length_attestationKey (flash : Memory) : (attestationKey b flash).length = 32 :=
  Memory.length_read ..

theorem length_deviceMigrate (h : needsMigration b flash) : (deviceMigrate b flash optr).length = 86 := by
  rw [deviceMigrate_of h, List.length_cons, List.length_append,
    length_writeAttestation (length_certificateOf _) (length_migratedKey (length_attestationKey _))]
  rfl

/-! The writes to the erased page, byte by byte. -/

section Writes

variable {cert key : List UInt8} {settings : ℕ} {m : Memory} {ops : List Op} {i : ℕ}

/-- Size and certificate, the writes before the key. -/
def writeCertificate (b : Board) (cert : List UInt8) : List Op :=
  flashWriteDword (attestationCertSizeAddr b) (cert.length % 2 ^ 16) ::
    flashWrite (attestationCertAddr b) cert

theorem writeAttestation_eq (b : Board) (cert key : List UInt8) :
    writeAttestation b cert key = writeCertificate b cert ++ flashWrite (attestationPageAddr b) key := rfl

theorem length_writeCertificate (hcert : cert.length = 630) : (writeCertificate b cert).length = 80 := by
  rw [writeCertificate, List.length_cons, length_flashWrite, hcert]

theorem attestationCertAddr_mod : attestationCertAddr b % 8 = 0 := by
  have hmod := @attestationPageAddr_mod b
  unfold attestationCertAddr
  omega

theorem writeCertificate_outside (hops : ops ⊆ writeCertificate b cert) (hi : i < 40) :
    applyAll chip m ops (attestationPageAddr b + i) = m (attestationPageAddr b + i) := by
  have hmod := @attestationCertAddr_mod b
  refine applyAll_outside chip m ops fun op hop htouch => ?_
  rcases List.mem_cons.mp (hops hop) with rfl | hop
  · have hle : attestationCertSizeAddr b ≤ attestationPageAddr b + i := htouch.1
    unfold attestationCertSizeAddr at hle
    omega
  · have hle := (flashWrite_touches hop htouch).1
    unfold attestationCertAddr at hle hmod
    omega

theorem writeKey_outside (hkey : key.length = 32) (hops : ops ⊆ flashWrite (attestationPageAddr b) key)
    (hi : 32 ≤ i) :
    applyAll chip m ops (attestationPageAddr b + i) = m (attestationPageAddr b + i) := by
  have hmod := @attestationPageAddr_mod b
  refine applyAll_outside chip m ops fun op hop htouch => ?_
  have hlt := (flashWrite_touches (hops hop) htouch).2
  omega

theorem writeSettings_outside (hops : ops ⊆ [flashWriteDword (deviceSettingsAddr b) settings])
    (hi : i < 32 ∨ 40 ≤ i) :
    applyAll chip m ops (attestationPageAddr b + i) = m (attestationPageAddr b + i) := by
  refine applyAll_outside chip m ops fun op hop htouch => ?_
  rw [List.mem_singleton.mp (hops hop)] at htouch
  obtain ⟨h₁, h₂⟩ := htouch
  rw [Bytes.length_toLe] at h₂
  unfold deviceSettingsAddr at h₁ h₂
  omega

variable (hcert : cert.length = 630) (hkey : key.length = 32)
  (herased : ∀ i < pageSize, m (attestationPageAddr b + i) = 0xFF)

include hcert hkey herased

/-- The key after `n` writes. -/
theorem key_after_writes (n : ℕ) (hi : i < 32) :
    applyAll chip m ((writeAttestation b cert key ++ [flashWriteDword (deviceSettingsAddr b) settings]).take n)
        (attestationPageAddr b + i) =
      if i < 8 * (n - 80) then key.getD i 0xFF else 0xFF := by
  have hpage : i < pageSize := lt_trans hi (by decide)
  have hbefore : ∀ a, attestationPageAddr b ≤ a → a < attestationPageAddr b + key.length →
      applyAll chip m ((writeCertificate b cert).take n) a = 0xFF := by
    intro a h₁ h₂
    have hbyte := writeCertificate_outside chip (m := m) (List.take_subset n (writeCertificate b cert))
      (show a - attestationPageAddr b < 40 by omega)
    rw [show attestationPageAddr b + (a - attestationPageAddr b) = a by omega] at hbyte
    have hfree := herased (a - attestationPageAddr b) (by unfold pageSize; omega)
    rw [show attestationPageAddr b + (a - attestationPageAddr b) = a by omega] at hfree
    rw [hbyte, hfree]
  rw [writeAttestation_eq, List.take_append, applyAll_append,
    writeSettings_outside chip (List.take_subset _ _) (.inl hi), List.take_append, applyAll_append,
    length_writeCertificate hcert,
    applyAll_flashWrite_take chip attestationPageAddr_mod hbefore (by rw [hkey]), hkey,
    Nat.add_sub_cancel_left]
  by_cases hin : i < 8 * (n - 80)
  · rw [if_pos (by omega), if_pos hin]
  · rw [if_neg (by omega), if_neg hin, hbefore _ (Nat.le_add_right _ _) (by omega)]

/-- The settings after `n` writes: they come last. -/
theorem settings_after_writes (n : ℕ) (hi : i < 8) :
    applyAll chip m ((writeAttestation b cert key ++ [flashWriteDword (deviceSettingsAddr b) settings]).take n)
        (deviceSettingsAddr b + i) =
      if 85 ≤ n then (Bytes.toLe 8 settings).getD i 0xFF else 0xFF := by
  have hbefore : ∀ j < 8, applyAll chip m ((writeAttestation b cert key).take n)
      (attestationPageAddr b + (32 + j)) = 0xFF := by
    intro j hj
    rw [writeAttestation_eq, List.take_append, applyAll_append,
      writeKey_outside chip hkey (List.take_subset _ _) (by omega),
      writeCertificate_outside chip (List.take_subset _ _) (by omega),
      herased _ (by unfold pageSize; omega)]
  have haddr : deviceSettingsAddr b + i = attestationPageAddr b + (32 + i) := by
    unfold deviceSettingsAddr
    omega
  rw [haddr, List.take_append, applyAll_append, length_writeAttestation hcert hkey]
  by_cases hn : 85 ≤ n
  · have hlast : [flashWriteDword (deviceSettingsAddr b) settings].take (n - 84) =
        [flashWriteDword (deviceSettingsAddr b) settings] :=
      List.take_of_length_le (by rw [List.length_singleton]; omega)
    rw [if_pos hn, hlast, applyAll_cons, applyAll_nil, flashWriteDword, Op.apply_program_inside chip]
    · unfold deviceSettingsAddr
      rw [show attestationPageAddr b + (32 + i) - (attestationPageAddr b + 32) = i by omega]
    · intro j hj
      rw [Bytes.length_toLe] at hj
      unfold deviceSettingsAddr
      rw [Nat.add_assoc]
      exact hbefore j hj
    · unfold deviceSettingsAddr
      omega
    · rw [Bytes.length_toLe]
      unfold deviceSettingsAddr
      omega
  · rw [if_neg hn, show n - 84 = 0 by omega, List.take_zero, applyAll_nil, hbefore i hi]

/-- The size of the certificate after all writes. -/
theorem size_after_writes (hi : i < 8) :
    applyAll chip m (writeAttestation b cert key ++ [flashWriteDword (deviceSettingsAddr b) settings])
        (attestationPageAddr b + (40 + i)) =
      (Bytes.toLe 8 630).getD i 0xFF := by
  have hmod := @attestationCertAddr_mod b
  rw [applyAll_append, writeSettings_outside chip (List.Subset.refl _) (.inr (by omega)),
    writeAttestation_eq, applyAll_append, writeKey_outside chip hkey (List.Subset.refl _) (by omega),
    writeCertificate, applyAll_cons, applyAll_outside, hcert, flashWriteDword,
    Op.apply_program_inside chip]
  · unfold attestationCertSizeAddr
    rw [show attestationPageAddr b + (40 + i) - (attestationPageAddr b + 40) = i by omega,
      show 630 % 2 ^ 16 = 630 from rfl]
  · intro j hj
    rw [Bytes.length_toLe] at hj
    unfold attestationCertSizeAddr
    rw [Nat.add_assoc]
    exact herased _ (by unfold pageSize; omega)
  · unfold attestationCertSizeAddr
    omega
  · rw [Bytes.length_toLe]
    unfold attestationCertSizeAddr
    omega
  · intro op hop htouch
    have hle := (flashWrite_touches hop htouch).1
    unfold attestationCertAddr at hle hmod
    omega

/-- The certificate after all writes. -/
theorem cert_after_writes (hi : i < 630) :
    applyAll chip m (writeAttestation b cert key ++ [flashWriteDword (deviceSettingsAddr b) settings])
        (attestationCertAddr b + i) = cert.getD i 0xFF := by
  have haddr : attestationCertAddr b + i = attestationPageAddr b + (48 + i) := by
    unfold attestationCertAddr
    omega
  rw [haddr, applyAll_append, writeSettings_outside chip (List.Subset.refl _) (.inr (by omega)),
    writeAttestation_eq, applyAll_append, writeKey_outside chip hkey (List.Subset.refl _) (by omega),
    writeCertificate, applyAll_cons, ← haddr, applyAll_flashWrite chip attestationCertAddr_mod _ (by omega)]
  intro a h₁ h₂
  rw [hcert] at h₂
  unfold attestationCertAddr at h₁ h₂
  have hfree := herased (a - attestationPageAddr b) (by unfold pageSize; omega)
  rw [show attestationPageAddr b + (a - attestationPageAddr b) = a by omega] at hfree
  rw [Op.apply_outside, hfree]
  rintro ⟨-, hlt⟩
  rw [Bytes.length_toLe] at hlt
  unfold attestationCertSizeAddr at hlt
  omega

end Writes

theorem erased_byte {i : ℕ} (hi : i < pageSize) :
    (flashErasePage (attestationPage b)).apply chip flash (attestationPageAddr b + i) = 0xFF :=
  Op.apply_erase_inside chip flash (Nat.le_add_right _ _) (Nat.add_lt_add_left hi _)

/-- What is in the place of the key after `n` double words of it. -/
def keyWritten (n : ℕ) (key : List UInt8) : List UInt8 :=
  (List.range 32).map fun i => if i < 8 * n then key.getD i 0xFF else 0xFF

theorem getD_keyWritten (n : ℕ) (key : List UInt8) {i : ℕ} (hi : i < 32) :
    (keyWritten n key).getD i 0xFF = if i < 8 * n then key.getD i 0xFF else 0xFF := by
  simp [keyWritten, List.getD, hi]

theorem length_keyWritten (n : ℕ) (key : List UInt8) : (keyWritten n key).length = 32 := by
  rw [keyWritten, List.length_map, List.length_range]

/-- Nothing is lost of a key if the bytes that were not written are `0xFF`. -/
theorem keyWritten_eq_iff {n : ℕ} {key : List UInt8} (hkey : key.length = 32) :
    keyWritten n key = key ↔ ∀ i < 32, 8 * n ≤ i → key.getD i 0xFF = 0xFF := by
  constructor
  · intro h i hi hle
    rw [← h, getD_keyWritten n key hi, if_neg (by omega)]
  · intro h
    refine List.ext_getElem ((length_keyWritten n key).trans hkey.symm) fun i hi hi' => ?_
    have hlt : i < 32 := hkey ▸ hi'
    rw [← List.getD_eq_getElem _ 0xFF hi, ← List.getD_eq_getElem _ 0xFF hi', getD_keyWritten n key hlt]
    split
    case isTrue => rfl
    case isFalse hle => exact (h i hlt (by omega)).symm

/-- A migration that is broken off has erased the key, and writes it last but
one. -/
theorem attestationKey_cut (h : needsMigration b flash) (k : ℕ) :
    attestationKey b (cutMigration chip b flash optr (k + 1)) =
      keyWritten (k - 80) (migratedKey (attestationKey b flash)) := by
  have hkey := length_migratedKey (length_attestationKey (b := b) flash)
  refine Memory.read_eq (d := 0xFF) (length_keyWritten _ _) fun i hi => ?_
  rw [cutMigration, deviceMigrate_of h, List.take_succ_cons, applyAll_cons,
    key_after_writes chip (length_certificateOf _) hkey (fun _ hi => erased_byte chip hi) k hi,
    getD_keyWritten _ _ hi]

theorem deviceSettings_cut (h : needsMigration b flash) (k : ℕ) :
    deviceSettings b (cutMigration chip b flash optr (k + 1)) =
      if 85 ≤ k then migratedSettings optr % 256 ^ 8 else 2 ^ 64 - 1 := by
  have hkey := length_migratedKey (length_attestationKey (b := b) flash)
  have hread : (cutMigration chip b flash optr (k + 1)).read (deviceSettingsAddr b) 8 =
      if 85 ≤ k then Bytes.toLe 8 (migratedSettings optr) else List.replicate 8 0xFF := by
    refine Memory.read_eq (d := 0xFF) (by split <;> simp) fun i hi => ?_
    rw [cutMigration, deviceMigrate_of h, List.take_succ_cons, applyAll_cons,
      settings_after_writes chip (length_certificateOf _) hkey (fun _ hi => erased_byte chip hi) k hi]
    split
    · rfl
    · rw [List.getD_replicate _ hi]
  rw [deviceSettings, hread]
  split
  · exact Bytes.leNat_toLe ..
  · rfl

/-- A migration that is broken off is begun anew at the next start. -/
theorem cut_needsMigration (h : needsMigration b flash) {k : ℕ} (hk : k < 85) :
    needsMigration b (cutMigration chip b flash optr (k + 1)) := by
  left
  rw [configureTag, deviceSettings_cut chip h, if_neg (by omega)]
  decide

theorem migrated_eq_cut (h : needsMigration b flash) {k : ℕ} (hk : 86 ≤ k) :
    cutMigration chip b flash optr k = migrated chip b flash optr := by
  rw [cutMigration, List.take_of_length_le (by rw [length_deviceMigrate h]; exact hk), migrated]

/-! A migration that gets to its end. -/

theorem attestationKey_migrated (h : needsMigration b flash) :
    attestationKey b (migrated chip b flash optr) = migratedKey (attestationKey b flash) := by
  rw [← migrated_eq_cut chip h (le_refl 86), attestationKey_cut chip h,
    (keyWritten_eq_iff (length_migratedKey (length_attestationKey flash))).mpr]
  exact fun i hi hle => absurd hi (by omega)

theorem configureTag_migrated (h : needsMigration b flash) :
    configureTag b (migrated chip b flash optr) = attestationConfiguredTag := by
  rw [← migrated_eq_cut chip h (le_refl 86), configureTag, deviceSettings_cut chip h,
    if_pos (le_refl 85), migratedSettings]
  split <;> decide

theorem certSize_migrated (h : needsMigration b flash) :
    deviceAttestationCertDerGetSize b (migrated chip b flash optr) = 630 := by
  have hkey := length_migratedKey (length_attestationKey (b := b) flash)
  have hread : (migrated chip b flash optr).read (attestationCertSizeAddr b) 8 = Bytes.toLe 8 630 := by
    refine Memory.read_eq (d := 0xFF) rfl fun i hi => ?_
    rw [migrated, deviceMigrate_of h, applyAll_cons, attestationCertSizeAddr, Nat.add_assoc,
      size_after_writes chip (length_certificateOf _) hkey (fun _ hi => erased_byte chip hi) hi]
  rw [deviceAttestationCertDerGetSize, hread, Bytes.leNat_toLe]
  rfl

theorem cert_migrated (h : needsMigration b flash) :
    deviceAttestationReadCertDer b (migrated chip b flash optr) =
      certificateOf (attestationKey b flash) := by
  have hkey := length_migratedKey (length_attestationKey (b := b) flash)
  rw [deviceAttestationReadCertDer, certSize_migrated chip h]
  refine Memory.read_eq (d := 0xFF) (length_certificateOf _) fun i hi => ?_
  rw [migrated, deviceMigrate_of h, applyAll_cons]
  exact cert_after_writes chip (length_certificateOf _) hkey (fun _ hi => erased_byte chip hi) hi

theorem migrated_settled (h : needsMigration b flash) :
    ¬ needsMigration b (migrated chip b flash optr) := by
  rintro (htag | hsize)
  · exact htag (configureTag_migrated chip h)
  · rw [certSize_migrated chip h, length_attestationCertDer.1] at hsize
    exact hsize rfl

theorem soloIsLocked_migrated (h : needsMigration b flash) :
    soloIsLocked b (migrated chip b flash optr) ↔ optr &&& 0xff ≠ 0xAA := by
  rw [soloIsLocked, and_iff_right (configureTag_migrated chip h), ← migrated_eq_cut chip h (le_refl 86),
    deviceSettings_cut chip h, if_pos (le_refl 85), migratedSettings]
  split
  case isTrue hlocked => exact iff_of_true (by decide) hlocked
  case isFalse hopen => exact iff_of_false (by decide) hopen

end Run

/-! ### When the attestation survives -/

/-- What a migration may leave of the page it found: the old key, or the
current hacker key in the place of a hacker key, the certificate of that key,
the lock flag, and nothing more to do at the next start. -/
structure AttestationKept (before after : Memory) : Prop where
  key : attestationKey b after = attestationKey b before ∨
    (isHackerKey (attestationKey b before) ∧ attestationKey b after = soloHackerAttestationKey)
  cert : deviceAttestationReadCertDer b after = certificateOf (attestationKey b after)
  locked : soloIsLocked b before → soloIsLocked b after
  settled : ∀ optr, migrated chip b after optr = after

/-- The condition on the page, the option bytes of the two runs and the place
`k` of the power cut. A page that needs no migration has to hold the right
certificate already. Otherwise the power cut may not come between the erase
and the last double word of the key, unless what was not written of the key
is `0xFF`; and if the page was locked, the run that gets through has to find
a locked chip. -/
def MigrationHarmless (flash : Memory) (optr : UInt32) (k : ℕ) (optr' : UInt32) : Prop :=
  if needsMigration b flash then
    (k = 0 ∨ ∀ i < 32, 8 * (k - 81) ≤ i → (migratedKey (attestationKey b flash)).getD i 0xFF = 0xFF) ∧
      (soloIsLocked b flash → (if 86 ≤ k then optr else optr') &&& 0xff ≠ 0xAA)
  else deviceAttestationReadCertDer b flash = certificateOf (attestationKey b flash)

section Kept

variable {b} {flash : Memory} {optr optr' : UInt32} {k : ℕ}

theorem migrated_of_not (h : ¬ needsMigration b flash) : migrated chip b flash optr = flash := by
  rw [migrated, deviceMigrate_of_not h, applyAll_nil]

theorem cutMigration_of_not (h : ¬ needsMigration b flash) : cutMigration chip b flash optr k = flash := by
  rw [cutMigration, deviceMigrate_of_not h, List.take_nil, applyAll_nil]

theorem certificateOf_migratedKey (key : List UInt8) :
    certificateOf (migratedKey key) = certificateOf key := by
  unfold certificateOf
  rw [if_congr (isHackerKey_migratedKey key) rfl rfl]

/-- A run that gets through a page in need of it keeps everything but a lock
flag that the chip does not confirm. -/
theorem kept_migrated_iff (h : needsMigration b flash) (before : Memory) :
    AttestationKept chip b before (migrated chip b flash optr) ↔
      (migratedKey (attestationKey b flash) = attestationKey b before ∨
        (isHackerKey (attestationKey b before) ∧
          migratedKey (attestationKey b flash) = soloHackerAttestationKey)) ∧
      (soloIsLocked b before → optr &&& 0xff ≠ 0xAA) := by
  constructor
  · intro hkept
    have hkey := hkept.key
    rw [attestationKey_migrated chip h] at hkey
    exact ⟨hkey, fun hlocked => (soloIsLocked_migrated chip h).mp (hkept.locked hlocked)⟩
  · rintro ⟨hkey, hlocked⟩
    refine ⟨?_, ?_, fun hl => (soloIsLocked_migrated chip h).mpr (hlocked hl),
      fun _ => migrated_of_not chip (migrated_settled chip h)⟩
    · rw [attestationKey_migrated chip h]
      exact hkey
    · rw [attestationKey_migrated chip h, cert_migrated chip h, certificateOf_migratedKey]

theorem migratedKey_kept (key : List UInt8) :
    migratedKey key = key ∨ (isHackerKey key ∧ migratedKey key = soloHackerAttestationKey) := by
  unfold migratedKey
  split
  case isTrue h => exact .inr ⟨h, rfl⟩
  case isFalse => exact .inl rfl

/-- The key that the next run makes of one that was written in part. -/
theorem keyWritten_kept_iff {key : List UInt8} (hkey : key.length = 32) (n : ℕ) :
    (migratedKey (keyWritten n (migratedKey key)) = key ∨
        (isHackerKey key ∧ migratedKey (keyWritten n (migratedKey key)) = soloHackerAttestationKey)) ↔
      ∀ i < 32, 8 * n ≤ i → (migratedKey key).getD i 0xFF = 0xFF := by
  rw [← keyWritten_eq_iff (length_migratedKey hkey)]
  constructor
  · intro hkept
    by_cases hn : 4 ≤ n
    · exact (keyWritten_eq_iff (length_migratedKey hkey)).mpr fun i hi hle => absurd hi (by omega)
    · -- the last byte of the key was not written
      have hlast : (keyWritten n (migratedKey key)).getD 31 0xFF = 0xFF := by
        rw [getD_keyWritten n _ (by omega), if_neg (by omega)]
      have hplain : ¬ isHackerKey (keyWritten n (migratedKey key)) := fun h => hackerKey_tail h hlast
      have hsame : migratedKey (keyWritten n (migratedKey key)) = keyWritten n (migratedKey key) :=
        if_neg hplain
      rw [hsame] at hkept
      obtain hkept | ⟨-, hkept⟩ := hkept
      · rw [hkept] at hplain
        rw [hkept, migratedKey, if_neg hplain]
      · exact absurd (.inl hkept) hplain
  · intro h
    have htwice : migratedKey (migratedKey key) = migratedKey key := by
      unfold migratedKey
      by_cases hhacker : isHackerKey key
      · rw [if_pos hhacker, if_pos (.inl rfl)]
      · rw [if_neg hhacker, if_neg hhacker]
    rw [h, htwice]
    exact migratedKey_kept key

/-- The attestation survives a migration that loses power once, and the run
after it, exactly when that is harmless. -/
theorem attestation_kept_iff (chip : Chip) (b : Board) (flash : Memory) (optr : UInt32) (k : ℕ)
    (optr' : UInt32) :
    AttestationKept chip b flash (migrated chip b (cutMigration chip b flash optr k) optr') ↔
      MigrationHarmless b flash optr k optr' := by
  unfold MigrationHarmless
  by_cases hneeds : needsMigration b flash
  · rw [if_pos hneeds]
    have hlen := length_attestationKey (b := b) flash
    match k with
    | 0 =>
        rw [cutMigration, List.take_zero, applyAll_nil, kept_migrated_iff chip hneeds]
        exact and_congr_left' (iff_of_true (migratedKey_kept _) (.inl rfl))
    | k + 1 =>
        have hzero : (k + 1 = 0) ↔ False := iff_of_false (Nat.succ_ne_zero k) id
        rw [hzero, false_or]
        by_cases hk : k < 85
        · rw [kept_migrated_iff chip (cut_needsMigration chip hneeds hk), attestationKey_cut chip hneeds,
            keyWritten_kept_iff hlen, if_neg (by omega), show k + 1 - 81 = k - 80 by omega]
        · rw [migrated_eq_cut chip hneeds (by omega),
            migrated_of_not chip (migrated_settled chip hneeds), kept_migrated_iff chip hneeds,
            if_pos (by omega)]
          exact and_congr_left' (iff_of_true (migratedKey_kept _) fun i hi hle => absurd hi (by omega))
  · rw [if_neg hneeds, cutMigration_of_not chip hneeds, migrated_of_not chip hneeds]
    constructor
    · exact fun hkept => hkept.cert
    · exact fun hcert => ⟨.inl rfl, hcert, id, fun _ => migrated_of_not chip hneeds⟩

end Kept

/-- A page that was never configured, with a key of its own: power is lost
after the erase, and the key is gone. -/
theorem attestation_kept_counterexample :
    ¬ AttestationKept ⟨fun _ _ _ => 0⟩ .pages128 (fun _ => 1)
      (migrated ⟨fun _ _ _ => 0⟩ .pages128
        (cutMigration ⟨fun _ _ _ => 0⟩ .pages128 (fun _ => 1) 0xfffff8aa 1) 0xfffff8aa) := by
  have hneeds : needsMigration .pages128 (fun _ => 1) := .inl (by decide +kernel)
  rw [kept_migrated_iff _ (cut_needsMigration _ hneeds (by omega)), attestationKey_cut _ hneeds]
  decide +kernel

end NitrokeyFido2.Storage
