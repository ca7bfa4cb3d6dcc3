import Mathlib.Data.List.GetD
import Mathlib.Tactic

/-!
NOR flash as a byte memory under two atomic operations.

Erasing a range sets every byte of it to `0xFF`; programming writes one
machine word. A word that was erased takes the programmed value, and what a
word programmed twice holds is left to the chip (`overProgram`): a datasheet
promises nothing there, so no result of this file depends on it.

A sequence of operations is a list, a power cut is a prefix of that list,
and the facts below are the ones a crash argument needs: what an operation
cannot have touched (`Op.apply_outside`, `applyAll_outside`), that two
memories which agree on a region keep agreeing under operations inside it
(`applyAll_agree`), and what a run of programs over an erased range leaves
at every point of the run (`applyAll_programs`). A range to which words are
only ever appended is `Filled`.
-/

namespace NorFlash

/-- Bytes by address. -/
abbrev Memory := ℕ → UInt8

/-- The bytes of `[first, first + size)`. -/
def Memory.read (m : Memory) (first size : ℕ) : List UInt8 :=
  (List.range size).map fun i => m (first + i)

@[simp] theorem Memory.length_read (m : Memory) (first size : ℕ) :
    (m.read first size).length = size := by
  simp [Memory.read]

theorem Memory.getD_read (m : Memory) (first size i : ℕ) (d : UInt8) (hi : i < size) :
    (m.read first size).getD i d = m (first + i) := by
  simp [Memory.read, List.getD, hi]

theorem Memory.read_eq {m : Memory} {first size : ℕ} {l : List UInt8} {d : UInt8} (hlen : l.length = size)
    (h : ∀ i < size, m (first + i) = l.getD i d) : m.read first size = l := by
  refine List.ext_getElem (by rw [Memory.length_read, hlen]) fun i hi hi' => ?_
  have hread := Memory.getD_read m first size i d (hlen ▸ hi')
  rw [List.getD_eq_getElem _ _ hi, h i (hlen ▸ hi'), List.getD_eq_getElem _ _ hi'] at hread
  exact hread

theorem Memory.read_congr {m n : Memory} {first size : ℕ}
    (h : ∀ a, first ≤ a → a < first + size → m a = n a) :
    m.read first size = n.read first size := by
  unfold Memory.read
  apply List.map_congr_left
  intro i hi
  have hi' : i < size := List.mem_range.mp hi
  exact h _ (by omega) (by omega)

theorem Memory.take_read (m : Memory) (first : ℕ) {k size : ℕ} (h : k ≤ size) :
    (m.read first size).take k = m.read first k := by
  rw [Memory.read, ← List.map_take, List.take_range, Nat.min_eq_left h, Memory.read]

theorem Memory.eq_of_read_eq {m n : Memory} {first size : ℕ}
    (h : m.read first size = n.read first size) {a : ℕ} (ha : first ≤ a)
    (ha' : a < first + size) : m a = n a := by
  have hi : a - first < size := by omega
  have hm := Memory.getD_read m first size (a - first) 0 hi
  have hn := Memory.getD_read n first size (a - first) 0 hi
  rw [h, hn] at hm
  rw [show a = first + (a - first) by omega]
  exact hm.symm

/-- What a chip does where its datasheet is silent: byte `i` of a word that
held `old` and is programmed with `new` without an erase in between. -/
structure Chip where
  overProgram : (old new : List UInt8) → ℕ → UInt8

/-- The two operations of the flash interface. -/
inductive Op
  /-- Erase the `size` bytes from `first` on. -/
  | erase (first size : ℕ)
  /-- Program the word `data` at `addr`. -/
  | program (addr : ℕ) (data : List UInt8)
  deriving DecidableEq, Repr

/-- The bytes an operation may change. -/
def Op.Touches : Op → ℕ → Prop
  | .erase first size, a => first ≤ a ∧ a < first + size
  | .program addr data, a => addr ≤ a ∧ a < addr + data.length

instance (a : ℕ) : DecidablePred fun op : Op => op.Touches a
  | .erase first size => inferInstanceAs (Decidable (first ≤ a ∧ a < first + size))
  | .program addr data => inferInstanceAs (Decidable (addr ≤ a ∧ a < addr + data.length))

/-- The word at `addr` still has all its bits set. -/
def Memory.Erased (m : Memory) (first size : ℕ) : Prop := ∀ i < size, m (first + i) = 0xFF

instance (m : Memory) (first size : ℕ) : Decidable (m.Erased first size) :=
  inferInstanceAs (Decidable (∀ i < size, m (first + i) = 0xFF))

section Apply

variable (chip : Chip)

/-- One operation. -/
def Op.apply (m : Memory) : Op → Memory
  | .erase first size => fun a => if first ≤ a ∧ a < first + size then 0xFF else m a
  | .program addr data => fun a =>
      if addr ≤ a ∧ a < addr + data.length then
        if m.Erased addr data.length then data.getD (a - addr) 0xFF
        else chip.overProgram (m.read addr data.length) data (a - addr)
      else m a

/-- A sequence of operations. Its prefixes are what a power cut leaves. -/
def applyAll (m : Memory) (ops : List Op) : Memory := ops.foldl (Op.apply chip) m

@[simp] theorem applyAll_nil (m : Memory) : applyAll chip m [] = m := rfl

@[simp] theorem applyAll_cons (m : Memory) (op : Op) (ops : List Op) :
    applyAll chip m (op :: ops) = applyAll chip (op.apply chip m) ops := rfl

theorem applyAll_append (m : Memory) (ops ops' : List Op) :
    applyAll chip m (ops ++ ops') = applyAll chip (applyAll chip m ops) ops' := by
  simp [applyAll]

theorem Op.apply_outside (m : Memory) (op : Op) {a : ℕ} (h : ¬ op.Touches a) :
    op.apply chip m a = m a := by
  cases op with
  | erase first size => simp [Op.apply, show ¬ (first ≤ a ∧ a < first + size) from h]
  | program addr data => simp [Op.apply, show ¬ (addr ≤ a ∧ a < addr + data.length) from h]

theorem applyAll_outside (m : Memory) (ops : List Op) {a : ℕ}
    (h : ∀ op ∈ ops, ¬ op.Touches a) : applyAll chip m ops a = m a := by
  induction ops generalizing m with
  | nil => rfl
  | cons op ops ih =>
      rw [applyAll_cons, ih _ (fun o ho => h o (List.mem_cons_of_mem _ ho)),
        Op.apply_outside chip m op (h op List.mem_cons_self)]

theorem Op.apply_erase_inside (m : Memory) {first size a : ℕ} (h : first ≤ a)
    (h' : a < first + size) : (Op.erase first size).apply chip m a = 0xFF := by
  simp [Op.apply, h, h']

theorem Op.apply_program_inside (m : Memory) {addr a : ℕ} {data : List UInt8}
    (herased : m.Erased addr data.length) (h : addr ≤ a) (h' : a < addr + data.length) :
    (Op.program addr data).apply chip m a = data.getD (a - addr) 0xFF := by
  simp [Op.apply, h, h', herased]

/-- Erasing only ever turns bytes into `0xFF`. -/
theorem applyAll_erases (m : Memory) (ops : List Op)
    (h : ∀ op ∈ ops, ∃ first size, op = .erase first size) (a : ℕ) :
    applyAll chip m ops a = if ∃ op ∈ ops, op.Touches a then 0xFF else m a := by
  induction ops generalizing m with
  | nil => simp
  | cons op ops ih =>
      obtain ⟨first, size, rfl⟩ := h op List.mem_cons_self
      rw [applyAll_cons, ih _ (fun o ho => h o (List.mem_cons_of_mem _ ho))]
      by_cases hrest : ∃ o ∈ ops, o.Touches a
      · have hall : ∃ o ∈ Op.erase first size :: ops, o.Touches a := by
          obtain ⟨o, ho, hoa⟩ := hrest
          exact ⟨o, List.mem_cons_of_mem _ ho, hoa⟩
        rw [if_pos hrest, if_pos hall]
      · rw [if_neg hrest]
        by_cases hhead : (Op.erase first size).Touches a
        · rw [if_pos ⟨_, List.mem_cons_self, hhead⟩]
          exact Op.apply_erase_inside chip m hhead.1 hhead.2
        · rw [if_neg, Op.apply_outside chip m _ hhead]
          rintro ⟨o, ho, hoa⟩
          rcases List.mem_cons.mp ho with rfl | ho
          · exact hhead hoa
          · exact hrest ⟨o, ho, hoa⟩

/-- Memories that agree on a region agree on it after an operation that
touches nothing outside the region. -/
theorem Op.apply_agree {lo hi : ℕ} {m n : Memory} (op : Op)
    (hop : ∀ a, op.Touches a → lo ≤ a ∧ a < hi)
    (h : ∀ a, lo ≤ a → a < hi → m a = n a) :
    ∀ a, lo ≤ a → a < hi → op.apply chip m a = op.apply chip n a := by
  intro a ha ha'
  cases op with
  | erase first size => simp only [Op.apply, h a ha ha']
  | program addr data =>
      by_cases hin : addr ≤ a ∧ a < addr + data.length
      · have hword : ∀ b, addr ≤ b → b < addr + data.length → m b = n b := by
          intro b hb hb'
          obtain ⟨h₁, h₂⟩ := hop b ⟨hb, hb'⟩
          exact h b h₁ h₂
        have hread : m.read addr data.length = n.read addr data.length :=
          Memory.read_congr hword
        have herased : m.Erased addr data.length ↔ n.Erased addr data.length := by
          unfold Memory.Erased
          constructor
          · intro hm i hi
            rw [← hword _ (by omega) (by omega)]
            exact hm i hi
          · intro hn i hi
            rw [hword _ (by omega) (by omega)]
            exact hn i hi
        simp only [Op.apply, hin, and_self, if_true, hread, herased]
      · simp only [Op.apply, hin, if_false, h a ha ha']

theorem applyAll_agree {lo hi : ℕ} {m n : Memory} (ops : List Op)
    (hops : ∀ op ∈ ops, ∀ a, op.Touches a → lo ≤ a ∧ a < hi)
    (h : ∀ a, lo ≤ a → a < hi → m a = n a) :
    ∀ a, lo ≤ a → a < hi → applyAll chip m ops a = applyAll chip n ops a := by
  induction ops generalizing m n with
  | nil => exact h
  | cons op ops ih =>
      rw [applyAll_cons, applyAll_cons]
      exact ih (fun o ho => hops o (List.mem_cons_of_mem _ ho))
        (Op.apply_agree chip op (hops op List.mem_cons_self) h)

end Apply

/-! ### Writing a stretch of words -/

/-- Program the words `word 0`, …, `word (n - 1)` one after the other from
`base` on, `w` bytes apart. -/
def programs (w base : ℕ) (word : ℕ → List UInt8) (n : ℕ) : List Op :=
  (List.range n).map fun j => .program (base + w * j) (word j)

@[simp] theorem length_programs (w base : ℕ) (word : ℕ → List UInt8) (n : ℕ) :
    (programs w base word n).length = n := by
  simp [programs]

theorem take_programs (w base : ℕ) (word : ℕ → List UInt8) (n k : ℕ) :
    (programs w base word n).take k = programs w base word (min k n) := by
  simp [programs, ← List.map_take, List.take_range]

theorem programs_succ (w base : ℕ) (word : ℕ → List UInt8) (n : ℕ) :
    programs w base word (n + 1) =
      programs w base word n ++ [.program (base + w * n) (word n)] := by
  simp [programs, List.range_succ]

theorem programs_touches {w base : ℕ} {word : ℕ → List UInt8} {n : ℕ}
    (hw : ∀ j < n, (word j).length = w) {op : Op} (hop : op ∈ programs w base word n)
    {a : ℕ} (ha : op.Touches a) : base ≤ a ∧ a < base + w * n := by
  obtain ⟨j, hj, rfl⟩ := List.mem_map.mp hop
  have hj' : j < n := List.mem_range.mp hj
  obtain ⟨h₁, h₂⟩ := ha
  rw [hw j hj'] at h₂
  have hle : w * (j + 1) ≤ w * n := Nat.mul_le_mul_left w hj'
  rw [Nat.mul_succ] at hle
  constructor <;> omega

/-- Over an erased range every program takes: the words land in order and
nothing else moves. -/
theorem applyAll_programs (chip : Chip) {w base : ℕ} (hpos : 0 < w)
    {word : ℕ → List UInt8} (n : ℕ) (hw : ∀ j < n, (word j).length = w) {m : Memory}
    (herased : ∀ a, base ≤ a → a < base + w * n → m a = 0xFF) (a : ℕ) :
    applyAll chip m (programs w base word n) a =
      if base ≤ a ∧ a < base + w * n then (word ((a - base) / w)).getD ((a - base) % w) 0xFF
      else m a := by
  induction n with
  | zero => simp [programs]
  | succ n ih =>
      have hmul : w * (n + 1) = w * n + w := Nat.mul_succ w n
      have hword : ∀ j < n, (word j).length = w := fun j hj => hw j (by omega)
      have hn : (word n).length = w := hw n (by omega)
      have ih' := ih hword (fun a h h' => herased a h (by omega))
      rw [programs_succ, applyAll_append, applyAll_cons, applyAll_nil]
      by_cases hin : base + w * n ≤ a ∧ a < base + w * n + w
      · -- the word that was programmed last: still erased when its turn came
        have hquot : (a - base) / w = n := by
          rw [Nat.div_eq_iff hpos]
          have hcomm : n * w = w * n := Nat.mul_comm n w
          constructor <;> omega
        have hrem : (a - base) % w = a - (base + w * n) := by
          have hdm := Nat.div_add_mod (a - base) w
          rw [hquot] at hdm
          omega
        have hfree : (applyAll chip m (programs w base word n)).Erased (base + w * n)
            (word n).length := by
          intro i hi
          rw [applyAll_outside]
          · exact herased _ (by omega) (by omega)
          · intro op hop htouch
            have := (programs_touches hword hop htouch).2
            omega
        rw [if_pos (by omega), hquot, hrem]
        rw [Op.apply_program_inside chip _ hfree hin.1 (by omega)]
      · rw [Op.apply_outside]
        · rw [ih']
          by_cases hprev : base ≤ a ∧ a < base + w * n
          · rw [if_pos hprev, if_pos (by omega)]
          · rw [if_neg hprev, if_neg (by omega)]
        · intro htouch
          obtain ⟨h₁, h₂⟩ := htouch
          rw [hn] at h₂
          exact hin ⟨h₁, h₂⟩

/-! ### A range filled word by word

Wear levelling appends: the words of `w` bytes stand one after the other at
the start of the range, and what follows them is erased. -/

/-- The range of `size` bytes from `base` on holds `words` and nothing
behind them. -/
structure Filled (m : Memory) (base size w : ℕ) (words : List (List UInt8)) : Prop where
  fits : w * words.length ≤ size
  written : ∀ i (h : i < words.length), m.read (base + w * i) w = words[i]
  erased : ∀ a, base + w * words.length ≤ a → a < base + size → m a = 0xFF

namespace Filled

variable {m n : Memory} {base size w : ℕ} {words : List (List UInt8)}

theorem of_erased (h : ∀ a, base ≤ a → a < base + size → m a = 0xFF) : Filled m base size w [] where
  fits := Nat.zero_le _
  written _ h := absurd h (Nat.not_lt_zero _)
  erased a ha ha' := h a (by simpa using ha) ha'

theorem congr (h : Filled m base size w words)
    (hmem : ∀ a, base ≤ a → a < base + size → n a = m a) : Filled n base size w words where
  fits := h.fits
  written i hi := by
    have hle : w * (i + 1) ≤ w * words.length := Nat.mul_le_mul_left w hi
    have hfits := h.fits
    rw [Nat.mul_succ] at hle
    rw [← h.written i hi]
    exact Memory.read_congr fun a h₁ h₂ => hmem a (by omega) (by omega)
  erased a ha ha' := by
    rw [hmem a (by omega) ha', h.erased a ha ha']

/-- Programming the next word. -/
theorem program (chip : Chip) (h : Filled m base size w words) {word : List UInt8}
    (hw : word.length = w) (hfits : w * words.length + w ≤ size) :
    Filled ((Op.program (base + w * words.length) word).apply chip m) base size w
      (words ++ [word]) := by
  have hlen : w * (words ++ [word]).length = w * words.length + w := by
    rw [List.length_append, List.length_singleton, Nat.mul_succ]
  have herased : m.Erased (base + w * words.length) word.length := fun i hi =>
    h.erased _ (by omega) (by omega)
  have hother : ∀ a, ¬ (base + w * words.length ≤ a ∧ a < base + w * words.length + word.length) →
      (Op.program (base + w * words.length) word).apply chip m a = m a := fun a ha =>
    Op.apply_outside chip m _ ha
  refine ⟨by omega, fun i hi => ?_, fun a ha ha' => ?_⟩
  · rw [List.length_append, List.length_singleton] at hi
    by_cases hi' : i < words.length
    · have hle : w * (i + 1) ≤ w * words.length := Nat.mul_le_mul_left w hi'
      rw [Nat.mul_succ] at hle
      rw [List.getElem_append_left hi', ← h.written i hi']
      exact Memory.read_congr fun a _ h₂ => hother a (by omega)
    · obtain rfl : i = words.length := by omega
      rw [List.getElem_concat_length rfl]
      refine List.ext_getElem (by rw [Memory.length_read, hw]) fun j hj hj' => ?_
      rw [Memory.length_read] at hj
      have hread := Memory.getD_read ((Op.program (base + w * words.length) word).apply chip m)
        (base + w * words.length) w j 0 hj
      rw [List.getD_eq_getElem _ _ (by rwa [Memory.length_read])] at hread
      rw [hread, Op.apply_program_inside chip m herased (by omega) (by omega), show base + w * words.length + j - (base + w * words.length) = j by omega,
        List.getD_eq_getElem _ _ hj']
  · rw [hother a (by omega), h.erased a (by omega) ha']

end Filled

/-! ### Programming once

What has been programmed since it was last erased is kept apart from the bytes: a
word that was programmed with all bits set reads like an erased one. -/

/-- The bytes an operation programs. -/
def Op.Programs : Op → ℕ → Prop
  | .erase _ _, _ => False
  | .program addr data, a => addr ≤ a ∧ a < addr + data.length

/-- The bytes an operation erases. -/
def Op.Erases : Op → ℕ → Prop
  | .erase first size, a => first ≤ a ∧ a < first + size
  | .program _ _, _ => False

theorem Op.touches_iff (op : Op) (a : ℕ) : op.Touches a ↔ op.Programs a ∨ op.Erases a := by
  cases op with
  | erase first size => simp [Touches, Programs, Erases]
  | program addr data => simp [Touches, Programs, Erases]

/-- The bytes programmed since they were last erased, after an operation. -/
def Op.mark (w : ℕ → Prop) (op : Op) (a : ℕ) : Prop := op.Programs a ∨ (w a ∧ ¬ op.Erases a)

/-- The same after a sequence of operations. -/
def markAll (w : ℕ → Prop) (ops : List Op) : ℕ → Prop := ops.foldl Op.mark w

/-- Every byte of the region is erased when it is programmed. -/
def Fresh (P : ℕ → Prop) : (ℕ → Prop) → List Op → Prop
  | _, [] => True
  | w, op :: ops => (∀ a, P a → op.Programs a → ¬ w a) ∧ Fresh P (op.mark w) ops

/-- Between two programs of a byte of the region it is erased. -/
def ProgrammedOnce (P : ℕ → Prop) (ops : List Op) : Prop :=
  ∀ l₁ p l₂ q l₃ a, ops = l₁ ++ p :: (l₂ ++ q :: l₃) → P a → p.Programs a → q.Programs a →
    ∃ e ∈ l₂, e.Erases a

section Marks

variable {P w : ℕ → Prop} {ops ops' : List Op} {a : ℕ}

@[simp] theorem markAll_nil : markAll w [] = w := rfl

@[simp] theorem markAll_cons (op : Op) : markAll w (op :: ops) = markAll (op.mark w) ops := rfl

theorem markAll_append : markAll w (ops ++ ops') = markAll (markAll w ops) ops' :=
  List.foldl_append

theorem fresh_append :
    Fresh P w (ops ++ ops') ↔ Fresh P w ops ∧ Fresh P (markAll w ops) ops' := by
  induction ops generalizing w with
  | nil => simp [Fresh]
  | cons op ops ih => simp [Fresh, ih, and_assoc]

theorem markAll_of_not_erased (hw : w a) (h : ∀ op ∈ ops, ¬ op.Erases a) : markAll w ops a := by
  induction ops generalizing w with
  | nil => exact hw
  | cons op ops ih =>
      exact ih (.inr ⟨hw, h op List.mem_cons_self⟩) fun o ho => h o (List.mem_cons_of_mem _ ho)

/-- What is marked was programmed by one of the operations or marked before. -/
theorem markAll_cases (h : markAll w ops a) : (∃ op ∈ ops, op.Programs a) ∨ w a := by
  induction ops generalizing w with
  | nil => exact .inr h
  | cons op ops ih =>
      rcases ih h with ⟨o, ho, hoa⟩ | hprogram | ⟨hw, -⟩
      · exact .inl ⟨o, List.mem_cons_of_mem _ ho, hoa⟩
      · exact .inl ⟨op, List.mem_cons_self, hprogram⟩
      · exact .inr hw

theorem markAll_outside (h : ∀ op ∈ ops, ¬ op.Touches a) : markAll w ops a ↔ w a := by
  constructor
  · intro hmark
    rcases markAll_cases hmark with ⟨op, hop, hoa⟩ | hw
    · exact absurd ((op.touches_iff a).mpr (.inl hoa)) (h op hop)
    · exact hw
  · intro hw
    exact markAll_of_not_erased hw fun op hop he => h op hop ((op.touches_iff a).mpr (.inr he))

/-- A byte that is only erased is not marked. -/
theorem not_markAll_of_erased (hno : ∀ op ∈ ops, ¬ op.Programs a) (h : ∃ op ∈ ops, op.Erases a) :
    ¬ markAll w ops a := by
  obtain ⟨e, he, hea⟩ := h
  obtain ⟨l₁, l₂, rfl⟩ := List.append_of_mem he
  rw [markAll_append, markAll_cons]
  intro hmark
  rcases markAll_cases hmark with ⟨op, hop, hoa⟩ | hprogram | ⟨-, hkept⟩
  · exact hno op (by simp [hop]) hoa
  · exact hno e he hprogram
  · exact hkept hea

/-- A byte that is programmed and not erased is marked. -/
theorem markAll_of_programs (h : ∃ op ∈ ops, op.Programs a) (hno : ∀ op ∈ ops, ¬ op.Erases a) :
    markAll w ops a := by
  obtain ⟨p, hp, hpa⟩ := h
  obtain ⟨l₁, l₂, rfl⟩ := List.append_of_mem hp
  rw [markAll_append, markAll_cons]
  exact markAll_of_not_erased (.inl hpa) fun op hop => hno op (by simp [hop])

theorem fresh_of_not_programs (h : ∀ op ∈ ops, ∀ a, P a → ¬ op.Programs a) : Fresh P w ops := by
  induction ops generalizing w with
  | nil => trivial
  | cons op ops ih =>
      exact ⟨fun a ha hprogram => absurd hprogram (h op List.mem_cons_self a ha),
        ih fun o ho => h o (List.mem_cons_of_mem _ ho)⟩

theorem not_erases_programs {k base n : ℕ} {word : ℕ → List UInt8} {op : Op}
    (hop : op ∈ programs k base word n) : ¬ op.Erases a := by
  obtain ⟨j, -, rfl⟩ := List.mem_map.mp hop
  exact id

/-- Every byte of a stretch of words is programmed. -/
theorem exists_programs {k base n : ℕ} {word : ℕ → List UInt8} (hpos : 0 < k)
    (hk : ∀ j < n, (word j).length = k) (h : base ≤ a) (h' : a < base + k * n) :
    ∃ op ∈ programs k base word n, op.Programs a := by
  have hlt : (a - base) / k < n := Nat.div_lt_of_lt_mul (by omega)
  have hdm := Nat.div_add_mod (a - base) k
  have hmod := Nat.mod_lt (a - base) hpos
  refine ⟨_, List.mem_map_of_mem (List.mem_range.mpr hlt), ?_⟩
  show base + k * ((a - base) / k) ≤ a ∧
    a < base + k * ((a - base) / k) + (word ((a - base) / k)).length
  rw [hk _ hlt]
  omega

/-- A stretch of words that are all erased is programmed once. -/
theorem fresh_programs {k base : ℕ} {word : ℕ → List UInt8} (n : ℕ)
    (hk : ∀ j < n, (word j).length = k)
    (herased : ∀ a, P a → base ≤ a → a < base + k * n → ¬ w a) :
    Fresh P w (programs k base word n) := by
  induction n with
  | zero => trivial
  | succ n ih =>
      rw [Nat.mul_succ] at herased
      have hword : ∀ j < n, (word j).length = k := fun j hj => hk j (by omega)
      rw [programs_succ, fresh_append]
      refine ⟨ih hword fun a ha h h' => herased a ha h (by omega), fun a ha hprogram hmark => ?_,
        trivial⟩
      obtain ⟨h₁, h₂⟩ := hprogram
      rw [hk n (by omega)] at h₂
      rcases markAll_cases hmark with ⟨op, hop, hoa⟩ | hw
      · -- the words before end where this one starts
        have hbound := programs_touches hword hop ((op.touches_iff a).mpr (.inl hoa))
        omega
      · exact herased a ha (by omega) (by omega) hw

/-- Without an erase in between, what is programmed was not marked at the start. -/
theorem Fresh.not_marked (h : Fresh P w ops) (hno : ∀ op ∈ ops, ¬ op.Erases a) {op : Op}
    (hop : op ∈ ops) (ha : P a) (hprogram : op.Programs a) : ¬ w a := by
  obtain ⟨l₁, l₂, rfl⟩ := List.append_of_mem hop
  intro hw
  exact (fresh_append.mp h).2.1 a ha hprogram
    (markAll_of_not_erased hw fun o ho => hno o (List.mem_append_left _ ho))

theorem Fresh.programmedOnce (h : Fresh P w ops) : ProgrammedOnce P ops := by
  rintro l₁ p l₂ q l₃ a rfl ha hp hq
  by_contra hno
  push Not at hno
  obtain ⟨-, -, hrest⟩ := fresh_append.mp h
  have hmark : markAll (p.mark (markAll w l₁)) l₂ a := markAll_of_not_erased (.inl hp) hno
  exact (fresh_append.mp hrest).2.1 a ha hq hmark

end Marks

end NorFlash
