import NitrokeyFido2.Ctap.Assertion

/-!
Chains of assertions: a getAssertion and the getNextAssertion requests that
continue it.

The entries that a chain returns are those of the list that the getAssertion
has saved, in their order; nothing that happens on the way changes an id in
it.
-/

namespace NitrokeyFido2.Ctap

open Proc Resumption

variable (env : Env)

/-! ### Answered requests -/

/-- The value behind a key. -/
def Writer.valueAt (w : Writer) (key : EncOp) : Option EncOp := (w.ops.dropWhile (· ≠ key)).tail.head?

def EncOp.payload : EncOp → List UInt8
  | .byteString b => b
  | _ => []

/-- The authenticator data of a response. -/
def Writer.authData (w : Writer) : List UInt8 := ((w.valueAt (.int 2)).map EncOp.payload).getD []

/-- The credential id of an assertion. -/
def Writer.credentialId (w : Writer) : List UInt8 :=
  ((w.valueAt (.text "id")).map EncOp.payload).getD []

section Items

variable {w : Writer} {x : AssertionAnswer} (h : w.ops = x.items)

include h

theorem authData_of_items : w.authData = x.authData := by
  unfold Writer.authData Writer.valueAt
  rw [h]
  simp [AssertionAnswer.items, AssertionAnswer.common, descriptorItems, EncOp.text, EncOp.payload]

theorem credentialId_of_items : w.credentialId = x.credentialId := by
  unfold Writer.credentialId Writer.valueAt
  rw [h]
  simp [AssertionAnswer.items, AssertionAnswer.common, descriptorItems, EncOp.text, EncOp.payload]

end Items

/-- The encoder that a response starts with. -/
abbrev freshWriter : Writer := Writer.init ctapResponseBufferSize

section Dispatch

variable {env} {a t : Authenticator} {bytes : List UInt8} {h : Answers} {w : Writer}

/-- A getAssertion that is answered. -/
theorem dispatch_getAssertion_ok (hcmd : bytes.getD 0 0 = ctapGetAssertionCmd)
    (hrun : a.dispatch env bytes h = (.ok (some w), t)) :
    ∃ x n ga₀ v s b d size,
      Asserted env freshWriter { a with trace := [] } bytes.tail h x n ga₀ v s b d size ∧
      w.ops = x.items ∧ ∃ e : Authenticator, Changed signingMayChange d e ∧
        t = { e with gas := e.gas.saved ga₀.clientDataHash (n - 1) ga₀.withFirstCred.extensions } := by
  rw [dispatch_getAssertion env hcmd] at hrun
  obtain ⟨_, a₁, hlocked, hrest⟩ := bind_ok.mp hrun
  obtain ⟨w', t', hrun', hret⟩ := bind_ok.mp hrest
  obtain ⟨heq, rfl⟩ := pure_ok.mp hret
  obtain rfl := Option.some.inj heq
  obtain rfl : { a with trace := [] } = a₁ := (inferInstance : Keeps Eq failIfLocked).apply hlocked
  obtain ⟨x, n, ga₀, v, s, b, d, size, hx, hw, he⟩ := ctapGetAssertion_ok env hrun'
  exact ⟨x, n, ga₀, v, s, b, d, size, hx, by rw [hw]; rfl, he⟩

/-- A getNextAssertion that is answered. -/
theorem dispatch_getNextAssertion_ok (hcmd : bytes.getD 0 0 = getNextAssertionCmd)
    (hrun : a.dispatch env bytes h = (.ok (some w), t)) :
    a.gas.lastcmd = ctapGetAssertionCmd ∧ ∃ x s ret b,
      NextAssertion env freshWriter { a with trace := [] } x s ret b ∧ w.ops = x.items ∧
      ∃ e : Authenticator, e.gas = s.gas.extended ret b ∧ Changed signingMayChange e t := by
  rw [dispatch_getNextAssertion env hcmd] at hrun
  obtain ⟨_, a₁, hlast, hrest⟩ := bind_ok.mp hrun
  obtain ⟨w', t', hrun', hret⟩ := bind_ok.mp hrest
  obtain ⟨heq, rfl⟩ := pure_ok.mp hret
  obtain rfl := Option.some.inj heq
  rw [failIf, stopIf_ok] at hlast
  obtain ⟨hlast, rfl⟩ := hlast
  obtain ⟨x, s, ret, b, hx, hw, he⟩ := ctapGetNextAssertion_ok env hrun'
  exact ⟨not_not.mp hlast, x, s, ret, b, hx, by rw [hw]; rfl, he⟩

end Dispatch

/-! ### What goes on from one request to the next -/

theorem Changed.gas {e t : Authenticator} (h : Changed signingMayChange e t) :
    ∃ hd buf, t.gas = { e.gas with authData := hd, bufExtensions := buf } ∧
      hd.flags = e.gas.authData.flags := by
  have hsaved : (t.gas.clientDataHash, t.gas.extensions, t.gas.count, t.gas.index) = _ :=
    h .saved (by decide)
  have hcreds : t.gas.creds = e.gas.creds := h .creds (by decide)
  have hcustom : t.gas.custom = e.gas.custom := h .custom (by decide)
  have hflags : t.gas.authData.flags = e.gas.authData.flags := h .flags (by decide)
  have huv : t.gas.userVerified = e.gas.userVerified := h .userVerified (by decide)
  have hlast : t.gas.lastcmd = e.gas.lastcmd := h .lastcmd (by decide)
  simp only [Prod.mk.injEq] at hsaved
  obtain ⟨hhash, hext, hcount, hindex⟩ := hsaved
  refine ⟨t.gas.authData, t.gas.bufExtensions, ?_, hflags⟩
  dsimp only
  rw [← hhash, ← hext, ← hcount, ← hindex, ← hcreds, ← hcustom, ← huv, ← hlast]

/-- What a returned entry is recognised by: its type and its id. -/
def CredentialDescriptor.identity (d : CredentialDescriptor) : UInt8 × CredentialId :=
  (d.type, d.credential.id)

/-- What the entries of a list are recognised by. -/
def GetAssertionState.entry (g : GetAssertionState) (i : ℕ) : UInt8 × CredentialId :=
  (g.creds.getD i default).identity

theorem entry_set_clearName (creds : List CredentialDescriptor) (i j : ℕ) :
    ((creds.set i (creds.getD i default).clearName).getD j default).identity =
      (creds.getD j default).identity := by
  simp only [List.getD_eq_getElem?_getD, List.getElem?_set]
  split
  · subst i
    split
    · rfl
    · rw [List.getElem?_eq_none (not_lt.mp ‹_›)]
  · rfl

theorem entry_next (g : GetAssertionState) (count : UInt32) (j : ℕ) :
    (g.next count).entry j = g.entry j := by
  unfold GetAssertionState.next GetAssertionState.entry
  dsimp only
  split
  · exact entry_set_clearName g.creds g.index j
  · rfl

/-- The list goes on as it is, one entry further. -/
structure Continues (g g' : GetAssertionState) : Prop where
  entry : ∀ i, g'.entry i = g.entry i
  index : g'.index = g.index + 1
  count : g'.count = g.count
  custom : g'.custom = g.custom
  extensions : g'.extensions = g.extensions
  clientDataHash : g'.clientDataHash = g.clientDataHash
  userVerified : g'.userVerified = g.userVerified

theorem continues_of_extended {a s e t : Authenticator} {ret : UInt8} {b : ExtBuf 80} {count : UInt32}
    (hnext : s.gas = a.gas.next count) (he : e.gas = s.gas.extended ret b)
    (ht : Changed signingMayChange e t) : Continues a.gas t.gas := by
  obtain ⟨hd, buf, hgas, -⟩ := Changed.gas ht
  rw [hgas, he, hnext]
  exact ⟨fun i => entry_next a.gas count i, rfl, rfl, rfl, rfl, rfl, rfl⟩

/-- getNextAssertion requests that follow one another, all of them
answered. -/
inductive Chain : Authenticator → List Writer → Authenticator → Prop
  | nil (a : Authenticator) : Chain a [] a
  | cons {a t u : Authenticator} {bytes : List UInt8} {h : Answers} {w : Writer} {ws : List Writer}
      (hcmd : bytes.getD 0 0 = getNextAssertionCmd)
      (hrun : a.dispatch env bytes h = (.ok (some w), t))
      (hrest : Chain (t.setLastcmd ctapGetAssertionCmd) ws u) : Chain a (w :: ws) u

variable {env}

/-- What holds of every answer if it holds of the entry that it is made
of. -/
theorem Chain.forall_iff {a u : Authenticator} {ws : List Writer} {P : Writer → Prop}
    {Q : ℕ → UInt8 × CredentialId → Prop} (hchain : Chain env a ws u)
    (hstep : ∀ (b t : Authenticator) (bytes : List UInt8) (h : Answers) (w : Writer),
      bytes.getD 0 0 = getNextAssertionCmd → b.dispatch env bytes h = (.ok (some w), t) →
      (P w ↔ Q b.gas.index (b.gas.entry b.gas.index))) :
    (∀ w ∈ ws, P w) ↔
      ∀ i < ws.length, Q (a.gas.index + i) (a.gas.entry (a.gas.index + i)) := by
  induction hchain with
  | nil a => simp
  | @cons a t u bytes h w ws hcmd hrun hrest ih =>
      obtain ⟨-, x, s, ret, b, hnext, -, e, he, ht⟩ := dispatch_getNextAssertion_ok hcmd hrun
      obtain ⟨count, hs⟩ := NextAssertion.gas env hnext
      have hcont : Continues a.gas t.gas := continues_of_extended hs he ht
      have hindex : (t.setLastcmd ctapGetAssertionCmd).gas.index = a.gas.index + 1 := hcont.index
      have hentry : ∀ i, (t.setLastcmd ctapGetAssertionCmd).gas.entry i = a.gas.entry i := hcont.entry
      rw [List.forall_mem_cons, ih, hstep a t bytes h w hcmd hrun, List.length_cons, hindex]
      simp only [hentry]
      constructor
      · rintro ⟨hfirst, hothers⟩ (_ | i) hi
        · exact hfirst
        · have hi' := hothers i (by omega)
          rwa [Nat.add_assoc, Nat.add_comm 1 i] at hi'
      · intro hall
        refine ⟨hall 0 (by omega), fun i hi => ?_⟩
        rw [Nat.add_assoc, Nat.add_comm 1 i]
        exact hall (i + 1) (by omega)

/-- The chain begins at the first entry that was saved. -/
theorem index_of_getAssertion {a t : Authenticator} {bytes : List UInt8} {h : Answers} {w : Writer}
    (hcmd : bytes.getD 0 0 = ctapGetAssertionCmd)
    (hrun : a.dispatch env bytes h = (.ok (some w), t)) : t.gas.index = 0 := by
  obtain ⟨x, n, ga₀, v, s, b, d, size, -, -, e, -, rfl⟩ := dispatch_getAssertion_ok hcmd hrun
  dsimp only
  unfold GetAssertionState.saved
  split <;> rfl

/-! ### Chains that are carried out -/

variable (env)

/-- The next `n` getNextAssertion requests, if all of them are answered. -/
def nextAnswers (h : Answers) : ℕ → Authenticator → Option (List Writer × Authenticator)
  | 0, a => some ([], a)
  | n + 1, a =>
      match a.dispatch env [getNextAssertionCmd] h with
      | (.ok (some w), t) =>
          (nextAnswers h n (t.setLastcmd ctapGetAssertionCmd)).map fun r => (w :: r.1, r.2)
      | _ => none

theorem chain_of_nextAnswers {h : Answers} {n : ℕ} {a u : Authenticator} {ws : List Writer}
    (hws : nextAnswers env h n a = some (ws, u)) : Chain env a ws u := by
  induction n generalizing a ws with
  | zero =>
      obtain ⟨rfl, rfl⟩ := Prod.mk.inj (Option.some.inj hws)
      exact .nil a
  | succ n ih =>
      unfold nextAnswers at hws
      split at hws
      case h_1 w t hrun =>
        obtain ⟨⟨ws', u'⟩, hrest, heq⟩ := Option.map_eq_some_iff.mp hws
        obtain ⟨rfl, rfl⟩ := Prod.mk.inj heq
        exact .cons rfl hrun (ih hrest)
      case h_2 => exact nomatch hws

/-- A request with its answer, and so many getNextAssertion requests behind
it. -/
structure AnsweredChain where
  start : Authenticator
  bytes : List UInt8
  answers : Answers
  answer : Writer
  after : Authenticator
  rest : List Writer
  last : Authenticator
  answered : start.dispatch env bytes answers = (.ok (some answer), after)
  continued : Chain env (after.setLastcmd ctapGetAssertionCmd) rest last

variable {env}

/-- The events of a chain do what the chain says. -/
def chainOf (env : Env) (a : Authenticator) (bytes : List UInt8) (h : Answers) (n : ℕ) :
    Option (AnsweredChain env) :=
  match hrun : a.dispatch env bytes h with
  | (.ok (some w), t) =>
      match hnext : nextAnswers env h n (t.setLastcmd ctapGetAssertionCmd) with
      | some (ws, u) => some ⟨a, bytes, h, w, t, ws, u, hrun, chain_of_nextAnswers env hnext⟩
      | none => none
  | _ => none

theorem chainOf_eq {a : Authenticator} {bytes : List UInt8} {h : Answers} {n : ℕ}
    {c : AnsweredChain env} (hc : chainOf env a bytes h n = some c) : c.start = a ∧ c.bytes = bytes := by
  unfold chainOf at hc
  split at hc
  · split at hc
    · rw [← Option.some.inj hc]
      exact ⟨rfl, rfl⟩
    · exact nomatch hc
  · exact nomatch hc

/-- A chain that is carried out and of which something is found to hold. -/
theorem exists_chain {a : Authenticator} {bytes : List UInt8} {h : Answers} {n : ℕ}
    {p : AnsweredChain env → Bool} (hp : (chainOf env a bytes h n).any p = true) :
    ∃ c : AnsweredChain env, c.start = a ∧ c.bytes = bytes ∧ p c = true := by
  rcases hc : chainOf env a bytes h n with _ | c <;> rw [hc] at hp
  · exact nomatch hp
  · exact ⟨c, (chainOf_eq hc).1, (chainOf_eq hc).2, hp⟩

end NitrokeyFido2.Ctap
