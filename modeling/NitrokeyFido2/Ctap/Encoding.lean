import NitrokeyFido2.Ctap.Run
import NitrokeyFido2.Lib.Nesting

/-!
What the encoding functions write.

Every function that encodes something adds a known list of items to the
encoder, when all of them are accepted. Whether such a list is well formed is
a question about the nesting of its containers.
-/

namespace NitrokeyFido2.Ctap

open Proc Nesting

variable (env : Env)

/-! ### Items that are written -/

/-- When it is not refused, the encoding adds these items and no others. -/
structure Emits (m : Encode Unit) (ops : List EncOp) : Prop where
  writer_eq : ∀ w w', m w = (.ok (), w') → w' = { w with ops := w.ops ++ ops }

section Emits

variable {env}

theorem Emits.pure : Emits (pure ()) [] := by
  refine ⟨fun w w' h => ?_⟩
  rw [List.append_nil]
  exact (pure_ok.mp h).2.symm

theorem Emits.seq {m : Encode Unit} {f : Unit → Encode Unit} {xs ys : List EncOp}
    (hm : Emits m xs) (hf : ∀ u, Emits (f u) ys) : Emits (m >>= f) (xs ++ ys) := by
  refine ⟨fun w w' h => ?_⟩
  obtain ⟨u, t, hmw, hft⟩ := bind_ok.mp h
  rw [(hf u).writer_eq t w' hft, hm.writer_eq w t hmw, List.append_assoc]

theorem emits_emit (op : EncOp) : Emits (env.writer.emit op) [op] :=
  ⟨fun _ _ h => (Prod.mk.inj h).2.symm⟩

theorem emits_emitAll (ops : List EncOp) : Emits (env.writer.emitAll ops) ops := by
  induction ops with
  | nil => exact Emits.pure
  | cons op ops ih => exact (emits_emit op).seq fun _ => ih

theorem Emits.ite {c : Prop} [Decidable c] {m n : Encode Unit} {xs ys : List EncOp}
    (hm : Emits m xs) (hn : Emits n ys) : Emits (if c then m else n) (if c then xs else ys) := by
  split
  · exact hm
  · exact hn

theorem encode_ok {w w' : Writer} {m : Encode Unit} {a t : Authenticator} :
    encode w m a = (.ok w', t) ↔ m w = (.ok (), w') ∧ a = t := by
  unfold encode ofStatus encodeInto
  rw [ofExcept_ok]
  rcases m w with ⟨c | u, w''⟩ <;> simp [Except.mapError]

/-- An encoding step of a request. -/
theorem Emits.encode {m : Encode Unit} {ops : List EncOp} (hm : Emits m ops) {w w' : Writer}
    {a t : Authenticator} (h : Ctap.encode w m a = (.ok w', t)) :
    w' = { w with ops := w.ops ++ ops } ∧ a = t :=
  (encode_ok.mp h).imp_left (hm.writer_eq w w')

end Emits

/-! ### The items of descriptors and keys -/

/-- `ctap_add_credential_descriptor`. -/
def descriptorItems (id : List UInt8) : List EncOp :=
  [.createMap 2, .text "id", .byteString id, .text "type", .text "public-key", .closeContainer]

/-- `ctap_add_user_entity`. -/
def userItems (user : UserEntity) (isVerified : Bool) : List EncOp :=
  let dispname := user.name.byte 0 ≠ 0 && isVerified
  let hasIcon := decide (0 < (Bytes.cString user.icon.bytes).length)
  [.createMap (if dispname then (if hasIcon then 4 else 3) else 1), .text "id",
    .byteString user.idBytes] ++
  (if dispname then
    (if hasIcon then [.text "icon", .stringz user.icon] else []) ++
      [.text "name", .stringz user.name, .text "displayName", .stringz user.displayName]
  else []) ++
  [.closeContainer]

/-- `ctap_add_cose_key`. -/
def coseKeyItems (pubkey : Buf 64) (algtype : ℤ) : List EncOp :=
  [.createMap 5, .int 1, .int 2, .int 3, .int algtype, .int (-1), .int 1,
    .int (-2), .byteString (pubkey.slice 0 32), .int (-3), .byteString (pubkey.slice 32 32),
    .closeContainer]

theorem emits_ctapAddCredentialDescriptor (custom : CustomCred) (cred : Credential) (type : UInt8) :
    Emits (ctapAddCredentialDescriptor env custom cred type)
      (descriptorItems (cred.prefixBytes (getCredentialIdSize custom type))) :=
  emits_emitAll _

theorem emits_ctapAddUserEntity (user : UserEntity) (isVerified : Bool) :
    Emits (ctapAddUserEntity env user isVerified) (userItems user isVerified) :=
  emits_emitAll _

theorem emits_ctapAddCoseKey (pubkey : Buf 64) (algtype : ℤ) :
    Emits (ctapAddCoseKey env pubkey algtype) (coseKeyItems pubkey algtype) :=
  emits_emitAll _

/-! ### Nesting -/

def EncOp.shape : EncOp → Shape
  | .createMap n => .opening (2 * n)
  | .createArray n => .opening n
  | .closeContainer => .closing
  | .uninitialised _ => .stray
  | _ => .item

/-- The items are a map and nothing else. -/
def IsMap (ops : List EncOp) : Prop :=
  (∃ n, ops.head? = some (.createMap n)) ∧ IsItem EncOp.shape ops

theorem isMap_iff {k m : ℕ} {ops : List EncOp} (h : Adds EncOp.shape m ops) :
    IsMap (.createMap k :: ops ++ [.closeContainer]) ↔ m = 2 * k := by
  have hopen : EncOp.shape (.createMap k) = .opening (2 * k) := rfl
  have hclose : EncOp.shape .closeContainer = .closing := rfl
  unfold IsMap
  rw [isItem_container_iff hopen hclose h]
  simp

theorem adds_map {k : ℕ} {xs : List EncOp} (h : Adds EncOp.shape (2 * k) xs) :
    Adds EncOp.shape 1 (.createMap k :: xs ++ [.closeContainer]) := Adds.container rfl rfl h

theorem adds_userItems (user : UserEntity) (isVerified : Bool) :
    Adds EncOp.shape 1 (userItems user isVerified) := by
  unfold userItems
  have hid : Adds EncOp.shape 2 [.text "id", .byteString user.idBytes] :=
    Adds.items (by simp [EncOp.shape, EncOp.text])
  have hnames : Adds EncOp.shape 4 [.text "name", .stringz user.name, .text "displayName",
      .stringz user.displayName] :=
    Adds.items (by simp [EncOp.shape, EncOp.text, EncOp.stringz])
  have hicon : Adds EncOp.shape 2 [.text "icon", .stringz user.icon] :=
    Adds.items (by simp [EncOp.shape, EncOp.text, EncOp.stringz])
  dsimp only
  split
  · split
    · exact adds_map (hid.append (hicon.append hnames))
    · exact adds_map (hid.append (Adds.nil.append hnames))
  · exact adds_map (hid.append Adds.nil)

theorem adds_descriptorItems (id : List UInt8) : Adds EncOp.shape 1 (descriptorItems id) := by
  have hentries : Adds EncOp.shape (2 * 2)
      [.text "id", .byteString id, .text "type", .text "public-key"] :=
    Adds.items (by simp [EncOp.shape, EncOp.text])
  exact adds_map hentries

theorem adds_coseKeyItems (pubkey : Buf 64) (algtype : ℤ) :
    Adds EncOp.shape 1 (coseKeyItems pubkey algtype) := by
  have hentries : Adds EncOp.shape (2 * 5)
      [.int 1, .int 2, .int 3, .int algtype, .int (-1), .int 1, .int (-2),
       .byteString (pubkey.slice 0 32), .int (-3), .byteString (pubkey.slice 32 32)] :=
    Adds.items (by simp [EncOp.shape])
  exact adds_map hentries

/-! ### Room -/

/-- The head of an item, by its argument. -/
def headSize (v : ℕ) : ℕ :=
  if v < 24 then 1 else if v < 256 then 2 else if v < 65536 then 3 else if v < 2 ^ 32 then 5 else 9

/-- The bytes of an item; containers have a definite length and no end. -/
def EncOp.size : EncOp → ℕ
  | .createMap n => headSize n
  | .createArray n => headSize n
  | .uint v => headSize v
  | .int v => headSize (if 0 ≤ v then v.toNat else (-1 - v).toNat)
  | .byteString b => headSize b.length + b.length
  | .textString b => headSize b.length + b.length
  | .boolean _ => 1
  | .closeContainer => 0
  | .uninitialised _ => 0

def encodedSize (ops : List EncOp) : ℕ := (ops.map EncOp.size).sum

@[simp] theorem encodedSize_nil : encodedSize [] = 0 := rfl

@[simp] theorem encodedSize_cons (op : EncOp) (ops : List EncOp) :
    encodedSize (op :: ops) = op.size + encodedSize ops := List.sum_cons

@[simp] theorem encodedSize_append (xs ys : List EncOp) :
    encodedSize (xs ++ ys) = encodedSize xs + encodedSize ys := by
  simp [encodedSize]

theorem headSize_le (v : ℕ) : headSize v ≤ 9 := by
  unfold headSize
  split_ifs <;> omega

theorem headSize_of_lt {v : ℕ} (h : v < 65536) : headSize v ≤ 3 := by
  unfold headSize
  split_ifs <;> omega

/-- The bytes of an item with every head at its longest. -/
def EncOp.bound : EncOp → ℕ
  | .byteString b => 9 + b.length
  | .textString b => 9 + b.length
  | _ => 9

def encodedBound (ops : List EncOp) : ℕ := (ops.map EncOp.bound).sum

theorem EncOp.size_le_bound (op : EncOp) : op.size ≤ op.bound := by
  cases op <;> simp [EncOp.size, EncOp.bound, headSize_le]

theorem encodedSize_le_bound (ops : List EncOp) : encodedSize ops ≤ encodedBound ops :=
  List.sum_le_sum fun op _ => op.size_le_bound

@[simp] theorem encodedBound_nil : encodedBound [] = 0 := rfl

@[simp] theorem encodedBound_cons (op : EncOp) (ops : List EncOp) :
    encodedBound (op :: ops) = op.bound + encodedBound ops := List.sum_cons

@[simp] theorem encodedBound_append (xs ys : List EncOp) :
    encodedBound (xs ++ ys) = encodedBound xs + encodedBound ys := by
  simp [encodedBound]

@[simp] theorem bound_createMap (n : ℕ) : (EncOp.createMap n).bound = 9 := rfl

@[simp] theorem bound_createArray (n : ℕ) : (EncOp.createArray n).bound = 9 := rfl

@[simp] theorem bound_closeContainer : EncOp.closeContainer.bound = 9 := rfl

@[simp] theorem bound_int (v : ℤ) : (EncOp.int v).bound = 9 := rfl

@[simp] theorem bound_byteString (b : List UInt8) : (EncOp.byteString b).bound = 9 + b.length := rfl

@[simp] theorem bound_textString (b : List UInt8) : (EncOp.textString b).bound = 9 + b.length := rfl

@[simp] theorem bound_text (t : String) : (EncOp.text t).bound = 9 + (Bytes.ascii t).length := rfl

theorem bound_stringz_le {n : ℕ} (b : Buf n) : (EncOp.stringz b).bound ≤ 9 + n := by
  have hlen : (Bytes.cString b.bytes).length ≤ n :=
    calc (Bytes.cString b.bytes).length ≤ b.bytes.length := (List.takeWhile_sublist _).length_le
      _ = n := b.length_bytes
  simp only [EncOp.stringz, bound_textString]
  omega

/-- The encoder takes an item that the container around it expects and for
which there is room, and fills no more of its buffer than the items need. -/
structure CborWriter.Roomy (e : CborWriter) : Prop where
  accepts : ∀ n ops op, scan EncOp.shape [1] (ops ++ [op]) ≠ none →
    encodedSize (ops ++ [op]) ≤ n → e.accepts n ops op = true
  length_bytes : ∀ n ops, scan EncOp.shape [1] ops ≠ none → encodedSize ops ≤ n →
    (e.bytes n ops).length ≤ encodedSize ops

theorem scan_append_ne_none {e : List ℕ} {xs ys : List EncOp}
    (h : scan EncOp.shape e (xs ++ ys) ≠ none) : scan EncOp.shape e xs ≠ none := by
  intro hnone
  rw [scan_append, hnone] at h
  exact h rfl

/-- The encoding is not refused where its items are expected and there is room
for them. -/
structure Writes (m : Encode Unit) (ops : List EncOp) : Prop where
  run : ∀ w : Writer, scan EncOp.shape [1] (w.ops ++ ops) ≠ none →
    encodedSize (w.ops ++ ops) ≤ w.capacity → m w = (.ok (), { w with ops := w.ops ++ ops })

section Writes

variable {env}

theorem Writes.pure : Writes (pure ()) [] := by
  refine ⟨fun w _ _ => ?_⟩
  rw [List.append_nil]
  rfl

theorem Writes.seq {m : Encode Unit} {f : Unit → Encode Unit} {xs ys : List EncOp}
    (hm : Writes m xs) (hf : ∀ u, Writes (f u) ys) : Writes (m >>= f) (xs ++ ys) := by
  refine ⟨fun w hscan hsize => ?_⟩
  rw [← List.append_assoc] at hscan hsize ⊢
  have hfirst : encodedSize (w.ops ++ xs) ≤ w.capacity :=
    le_trans (by rw [encodedSize_append _ ys]; omega) hsize
  rw [bind_of_ok (hm.run w (scan_append_ne_none hscan) hfirst)]
  exact (hf ()).run { w with ops := w.ops ++ xs } hscan hsize

theorem writes_emit (hroomy : env.writer.Roomy) (op : EncOp) : Writes (env.writer.emit op) [op] := by
  refine ⟨fun w hscan hsize => ?_⟩
  show ((if env.writer.accepts w.capacity w.ops op then Except.ok () else Except.error _), _) = _
  rw [if_pos (hroomy.accepts w.capacity w.ops op hscan hsize)]

theorem writes_emitAll (hroomy : env.writer.Roomy) (ops : List EncOp) :
    Writes (env.writer.emitAll ops) ops := by
  induction ops with
  | nil => exact Writes.pure
  | cons op ops ih => exact (writes_emit hroomy op).seq fun _ => ih

/-- A message of its own. -/
theorem Writes.encode {m : Encode Unit} {ops : List EncOp} (hm : Writes m ops) {n : ℕ}
    (hitem : IsItem EncOp.shape ops) (hsize : encodedSize ops ≤ n) (a : Authenticator) :
    Ctap.encode (Writer.init n) m a = (.ok ⟨n, ops⟩, a) := by
  have hscan : scan EncOp.shape [1] ops ≠ none := by
    rw [show scan EncOp.shape [1] ops = some [0] from hitem]
    exact Option.some_ne_none _
  exact encode_ok.mpr ⟨hm.run (Writer.init n) hscan hsize, rfl⟩

end Writes

end NitrokeyFido2.Ctap
