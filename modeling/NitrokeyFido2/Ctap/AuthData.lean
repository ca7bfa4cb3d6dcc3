import NitrokeyFido2.Ctap.ExtensionData
import NitrokeyFido2.Ctap.Sample

/-!
The form of the authenticator data over whole runs.

A makeCredential and a getAssertion return an error when the extensions cannot
be made. A getNextAssertion goes on with the flags and the buffer that earlier
requests have left, and with the size variable at the size of the buffer.
-/

namespace NitrokeyFido2.Ctap

open Proc Resumption

variable {env : Env}

/-- The header, attested credential data exactly if the AT flag is set, and
the extension map of this request exactly if the ED flag is set. -/
def WellFormedAuthData (env : Env) (call : Option ExtensionsCall) (authData : List UInt8) : Prop :=
  ∃ (hd : AuthDataHeader) (attested ext : List UInt8),
    authData = hd.toBytes ++ attested ++ ext ∧
    (hd.flags &&& 0x40 ≠ 0 ↔ attested ≠ []) ∧
    (attested ≠ [] → ∃ id coseKey, attested = attestedCredentialData env id coseKey) ∧
    (hd.flags &&& 0x80 ≠ 0 ↔ ext ≠ []) ∧
    (ext ≠ [] → ∃ c, call = some c ∧ IsExtensionMap env c ext)

/-! ### Bytes -/

theorem length_toBytes (hd : AuthDataHeader) : hd.toBytes.length = 37 := by
  unfold AuthDataHeader.toBytes
  rw [List.length_append, List.length_append, Buf.length_bytes]
  rfl

theorem toBytes_append_inj {hd hd' : AuthDataHeader} {xs ys : List UInt8}
    (h : hd.toBytes ++ xs = hd'.toBytes ++ ys) : hd.flags = hd'.flags ∧ xs = ys := by
  have hlen : hd.toBytes.length = hd'.toBytes.length := by rw [length_toBytes, length_toBytes]
  obtain ⟨hbytes, hrest⟩ := List.append_inj h hlen
  refine ⟨?_, hrest⟩
  have hhash : hd.rpIdHash.bytes.length = hd'.rpIdHash.bytes.length := by
    rw [Buf.length_bytes, Buf.length_bytes]
  unfold AuthDataHeader.toBytes at hbytes
  rw [List.append_assoc, List.append_assoc] at hbytes
  exact (List.cons.inj (List.append_inj hbytes hhash).2).1

theorem authBytes_header (g : GetAssertionState) (n : ℕ) :
    g.authBytes (37 + n) = g.authData.toBytes ++ g.bufExtensions.bytes.take n := by
  unfold GetAssertionState.authBytes
  rw [List.take_append, length_toBytes, List.take_of_length_le (by rw [length_toBytes]; omega),
    Nat.add_sub_cancel_left]

/-- Extension data that are flagged exactly if there are some. -/
theorem wellFormed_of_data {call : ExtensionsCall} {hd : AuthDataHeader} {attested bytes : List UInt8}
    (hdata : call.data env = .ok bytes)
    (hat : hd.flags &&& 0x40 ≠ 0 ↔ attested ≠ [])
    (hattests : attested ≠ [] → ∃ id coseKey, attested = attestedCredentialData env id coseKey)
    (hed : hd.flags &&& 0x80 ≠ 0 ↔ bytes ≠ []) :
    WellFormedAuthData env (some call) (hd.toBytes ++ attested ++ bytes) :=
  ⟨hd, attested, bytes, rfl, hat, hattests, hed, fun hne =>
    ⟨call, rfl, (call.data_cases hdata).resolve_left hne⟩⟩

/-! ### Flags -/

theorem ed_set (f : UInt8) : (f ||| 0x80) &&& 0x80 ≠ 0 := by
  revert f
  exact Bytes.forall_byte (by decide +kernel)

theorem ed_cleared (f : UInt8) : (f &&& 0x7f) &&& 0x80 = 0 := by
  revert f
  exact Bytes.forall_byte (by decide +kernel)

theorem at_of_ed_set (f : UInt8) : (f ||| 0x80) &&& 0x40 = f &&& 0x40 := by
  revert f
  exact Bytes.forall_byte (by decide +kernel)

theorem at_of_ed_cleared (f : UInt8) : (f &&& 0x7f) &&& 0x40 = f &&& 0x40 := by
  revert f
  exact Bytes.forall_byte (by decide +kernel)

/-- Neither AT nor ED, in the flags of a fresh header. -/
theorem assertionFlags_and {a : Authenticator} (ga : GetAssertion) (h : Answers)
    (huv : a.gas.userVerified = 0 ∨ a.gas.userVerified = 1) :
    assertionFlags a ga h &&& 0x40 = 0 ∧ assertionFlags a ga h &&& 0x80 = 0 := by
  unfold assertionFlags presenceFlag
  rcases huv with huv | huv <;> rw [huv] <;> split <;> decide

theorem creationFlags_and {up pin : UInt8} (hup : up = 0 ∨ up = 1) (hpin : pin = 0 ∨ pin = 4) :
    (up ||| pin ||| 0x40) &&& 0x40 ≠ 0 ∧ (up ||| pin ||| 0x40) &&& 0x80 = 0 := by
  rcases hup with rfl | rfl <;> rcases hpin with rfl | rfl <;> decide

/-! ### makeCredential -/

theorem makeCredential_call {a : Authenticator} {bytes : List UInt8} {h : Answers}
    {s : Authenticator} {hd : AuthDataHeader} {attested : List UInt8}
    {ext : ExtBuf (extensionRoom attested)} (hcmd : bytes.getD 0 0 = ctapMakeCredentialCmd)
    (hc : Created env { a with trace := [] } bytes.tail h s hd attested ext) :
    a.extensionsCall env bytes h =
      some ⟨s, (requestedCredential env a bytes.tail).extensions, extensionRoom attested⟩ := by
  obtain ⟨w₁, hbegin⟩ := hc.began
  unfold Authenticator.extensionsCall callInCommand
  rw [hcmd, if_pos rfl, CtapM.answered, Routine.answered_bind, bind_of_ok hbegin]
  rfl

theorem makeCredential_wellFormed (hfits : env.writer.Fits) {a t : Authenticator}
    {bytes : List UInt8} {h : Answers} {w : Writer} (hcmd : bytes.getD 0 0 = ctapMakeCredentialCmd)
    (hrun : a.dispatch env bytes h = (.ok (some w), t)) :
    WellFormedAuthData env (a.extensionsCall env bytes h) w.authData := by
  obtain ⟨s, hd, attested, ext, sigder, hc, hw⟩ := dispatch_makeCredential_ok hcmd hrun
  rw [makeCredential_call hcmd hc, authData_of_creationItems hw]
  obtain ⟨up, pin, hup, hpin, hflags⟩ := hc.flags
  obtain ⟨hat, hed⟩ := creationFlags_and hup hpin
  rw [← hflags] at hat hed
  obtain ⟨id, credInfo, hattests⟩ := hc.attests
  have hne : attested ≠ [] := by
    rw [hattests]
    unfold attestedCredentialData
    simp
  let call : ExtensionsCall :=
    ⟨s, (requestedCredential env a bytes.tail).extensions, extensionRoom attested⟩
  rcases ctapMakeExtensions_eq call (env.uninit .extensions (extensionRoom attested)) with
    ⟨data, hdata, hmade⟩ | ⟨e, b, -, hmade, -⟩
  · obtain rfl : ext = _ := congrArg Prod.snd (hc.made.symm.trans hmade)
    have hslice : ((env.uninit .extensions (extensionRoom attested)).write 0 data).slice 0
        data.length = data := slice_write_data (call.length_data hfits hdata)
    unfold createdAuthData
    dsimp only
    rw [hslice]
    by_cases hnil : data = []
    · rw [if_pos hnil]
      refine wellFormed_of_data hdata (by simp [hat, hne])
        (fun _ => ⟨_, _, hattests⟩) (by simp [hed, hnil])
    · rw [if_neg hnil]
      refine wellFormed_of_data hdata ?_ (fun _ => ⟨_, _, hattests⟩) ?_
      · dsimp only
        rw [at_of_ed_set]
        simp [hat, hne]
      · exact iff_of_true (ed_set hd.flags) hnil
  · exact nomatch (Prod.mk.inj (hc.made.symm.trans hmade)).1

/-! ### getAssertion -/

/-- The call of a getAssertion. -/
inductive AssertionCall (env : Env) (ga : GetAssertion) (cred : Credential) (h : Answers)
    (b : Authenticator) : Option ExtensionsCall → Prop
  | extension (hext : isExtensionRequest cred.id.bytes credentialIdSize = true) :
      AssertionCall env ga cred h b none
  | ordinary {s : Authenticator} (hext : isExtensionRequest cred.id.bytes credentialIdSize = false)
      (began : CtapM.answered h (assertionHeader env ga) b = (.ok (), s)) :
      AssertionCall env ga cred h b (some ⟨s, ga.extensions, 80⟩)

section Assertion

variable {a t : Authenticator} {bytes : List UInt8} {h : Answers} {w : Writer}
  {x : AssertionAnswer} {n size : ℕ} {ga₀ : GetAssertion} {v s b d : Authenticator}
  {call : Option ExtensionsCall}

theorem getAssertion_call (hcmd : bytes.getD 0 0 = ctapGetAssertionCmd)
    (hx : Asserted env freshWriter { a with trace := [] } bytes.tail h x n ga₀ v s b d size)
    (hcall : AssertionCall env ga₀.withFirstCred (s.gas.creds.getD 0 default).credential h b call) :
    a.extensionsCall env bytes h = call := by
  obtain ⟨w₁, hbegin⟩ := hx.began
  unfold Authenticator.extensionsCall callInCommand
  rw [hcmd, if_neg (by decide), if_pos rfl, CtapM.answered, Routine.answered_bind,
    bind_of_ok hbegin]
  cases hcall with
  | extension hext =>
      simp only [hext, if_true, Routine.answered_pure]
      rfl
  | ordinary hext began =>
      simp only [hext, Bool.false_eq_true, if_false, Routine.answered_bind, Routine.answered_liftM]
      rw [bind_of_ok began]
      rfl

theorem Asserted.userVerified
    (hx : Asserted env freshWriter a bytes h x n ga₀ v s b d size) :
    b.gas.userVerified = 0 ∨ b.gas.userVerified = 1 := by
  have hb : b.gas.userVerified = v.gas.userVerified := by
    rw [hx.cleared]
    unfold GetAssertionState.firstCleared
    dsimp only
    split <;> rw [hx.selected.gas]
  rw [hb, hx.selected.parsed.gas]
  dsimp only
  split
  · exact .inr rfl
  · exact .inl rfl

theorem getAssertion_wellFormed (hfits : env.writer.Fits)
    (hcmd : bytes.getD 0 0 = ctapGetAssertionCmd)
    (hrun : a.dispatch env bytes h = (.ok (some w), t)) :
    WellFormedAuthData env (a.extensionsCall env bytes h) w.authData := by
  obtain ⟨x, n, ga₀, v, s, b, d, size, hx, hw, -⟩ := dispatch_getAssertion_ok hcmd hrun
  rw [authData_of_items hw, hx.authData]
  cases hx.data with
  | extension hext gas =>
      rw [getAssertion_call hcmd hx (.extension hext)]
      refine ⟨d.gas.authData, [], [], ?_, ?_, fun h => absurd rfl h, ?_, fun h => absurd rfl h⟩
      · rw [show 37 = 37 + 0 from rfl, authBytes_header]
        simp
      · rw [gas]
        dsimp only
        decide
      · rw [gas]
        dsimp only
        decide
  | @ordinary s' _ e count hext began header made gas =>
      rw [getAssertion_call hcmd hx (.ordinary hext began)]
      obtain ⟨hat, hed⟩ := assertionFlags_and ga₀.withFirstCred h hx.userVerified
      let call : ExtensionsCall := ⟨s', ga₀.withFirstCred.extensions, 80⟩
      rcases ctapMakeExtensions_eq call s'.gas.bufExtensions with
        ⟨data, hdata, hmade⟩ | ⟨_, _, -, hmade, -⟩
      · obtain rfl : e = _ := congrArg Prod.snd (made.symm.trans hmade)
        have hslice : (s'.gas.bufExtensions.write 0 data).bytes.take data.length = data :=
          slice_write_data (call.length_data hfits hdata)
        have hauth : d.gas.authBytes (37 + data.length) = d.gas.authData.toBytes ++ [] ++ data := by
          rw [authBytes_header, gas, List.append_nil, hslice]
        have hflags : d.gas.authData.flags = if data.length ≠ 0
            then assertionFlags b ga₀.withFirstCred h ||| 0x80
            else assertionFlags b ga₀.withFirstCred h := by
          rw [gas, header]
        rw [hauth]
        by_cases hnil : data = []
        · rw [if_neg (by simp [hnil])] at hflags
          refine wellFormed_of_data hdata ?_ (fun h => absurd rfl h) ?_
          · simp [hflags, hat]
          · simp [hflags, hed, hnil]
        · rw [if_pos (by simpa using hnil)] at hflags
          refine wellFormed_of_data hdata ?_ (fun h => absurd rfl h) ?_
          · rw [hflags, at_of_ed_set]
            simp [hat]
          · rw [hflags]
            exact iff_of_true (ed_set _) hnil
      · exact nomatch (Prod.mk.inj (made.symm.trans hmade)).1

end Assertion

end NitrokeyFido2.Ctap
