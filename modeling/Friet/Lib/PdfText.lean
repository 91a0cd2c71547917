import Friet.Lib.Pdf
import Mathlib.Algebra.Ring.Int.Defs
import Mathlib.Tactic.Linarith
import Mathlib.Tactic.Ring

/-!
# Text on a page

The operators that move and show text, what they are written as, and where the text is drawn.
-/

set_option autoImplicit false

namespace Pdf

/-- The inside of a literal string that has no parenthesis, and a backslash only twice. -/
inductive LiteralText : Bytes → Prop
  | nil : LiteralText []
  | plain {b : UInt8} {bs : Bytes} (hopen : b ≠ 40) (hclose : b ≠ 41) (hescape : b ≠ 92)
      (h : LiteralText bs) : LiteralText (b :: bs)
  | backslash {bs : Bytes} (h : LiteralText bs) : LiteralText (92 :: 92 :: bs)

theorem LiteralText.append {bs cs : Bytes} (hbs : LiteralText bs) (hcs : LiteralText cs) :
    LiteralText (bs ++ cs) := by
  induction hbs with
  | nil => exact hcs
  | plain hopen hclose hescape _ ih => exact .plain hopen hclose hescape ih
  | backslash _ ih => exact .backslash ih

theorem LiteralText.flatMap {ι : Type} {text : ι → Bytes} {xs : List ι}
    (h : ∀ x ∈ xs, LiteralText (text x)) : LiteralText (xs.flatMap text) := by
  induction xs with
  | nil => exact .nil
  | cons x xs ih =>
    rw [List.flatMap_cons]
    apply LiteralText.append (h x List.mem_cons_self)
    exact ih fun y hy => h y (List.mem_cons_of_mem x hy)

inductive TextOperator where
  | setFont (name : String) (size : ℤ)
  | moveBy (tx ty : ℤ)
  | setLeading (leading : ℤ)
  | showText (operand : Bytes)
  | nextLine
  deriving DecidableEq

def TextOperator.bytes : TextOperator → Bytes
  | .setFont name size => ascii s!"/{name} {size} Tf"
  | .moveBy tx ty => ascii s!"{tx} {ty} Td"
  | .setLeading leading => ascii s!"{leading} TL"
  | .showText operand => ascii "(" ++ operand ++ ascii ") Tj"
  | .nextLine => ascii "T*"

/-- The operators in writing, a space or a line feed after each. -/
inductive Spells : List TextOperator → Bytes → Prop
  | nil : Spells [] []
  | cons {op : TextOperator} {ops : List TextOperator} {sep : UInt8} {bs : Bytes}
      (hsep : sep = 32 ∨ sep = newline) (h : Spells ops bs) :
      Spells (op :: ops) (op.bytes ++ sep :: bs)

/-- Where the line starts, and how far the next one is below it. -/
structure TextState where
  x : ℤ
  y : ℤ
  leading : ℤ

/-- At `BT`. -/
def TextState.start : TextState := ⟨0, 0, 0⟩

structure Drawn where
  x : ℤ
  y : ℤ
  operand : Bytes
  deriving DecidableEq

def TextOperator.apply (s : TextState) : TextOperator → TextState
  | .moveBy tx ty => { s with x := s.x + tx, y := s.y + ty }
  | .setLeading leading => { s with leading := leading }
  | .nextLine => { s with y := s.y - s.leading }
  | .setFont _ _ => s
  | .showText _ => s

def TextOperator.shown (s : TextState) : TextOperator → List Drawn
  | .showText operand => [⟨s.x, s.y, operand⟩]
  | _ => []

def drawn : TextState → List TextOperator → List Drawn
  | _, [] => []
  | s, op :: ops => op.shown s ++ drawn (op.apply s) ops

/-- Text after text, each on a line of its own. -/
def lineOperators (operands : List Bytes) : List TextOperator :=
  operands.flatMap fun operand => [.showText operand, .nextLine]

theorem showText_mem_lineOperators_iff {operand : Bytes} {operands : List Bytes} :
    TextOperator.showText operand ∈ lineOperators operands ↔ operand ∈ operands := by
  simp [lineOperators]

theorem spells_lineOperators (operands : List Bytes) : Spells (lineOperators operands)
    (operands.flatMap fun operand => ascii "(" ++ operand ++ ascii ") Tj T*" ++ [newline]) := by
  induction operands with
  | nil => exact .nil
  | cons operand operands ih =>
    have hshow : Spells (lineOperators (operand :: operands)) _ :=
      .cons (Or.inl rfl) (.cons (Or.inr rfl) ih)
    have hline : ascii ") Tj T*" = ascii ") Tj" ++ 32 :: ascii "T*" := by decide
    rw [List.flatMap_cons]
    simpa only [hline, TextOperator.bytes, List.append_assoc, List.cons_append, List.nil_append]
      using hshow

section Lines
variable {s : TextState} {operand : Bytes} {operands : List Bytes} {d : Drawn}

theorem drawn_lineOperators_cons : drawn s (lineOperators (operand :: operands)) =
    ⟨s.x, s.y, operand⟩ :: drawn { s with y := s.y - s.leading } (lineOperators operands) := rfl

theorem height_succ (y leading : ℤ) (k : ℕ) :
    y - leading - k * leading = y - (k + 1 : ℕ) * leading := by
  push_cast
  ring

theorem mem_drawn_lineOperators_iff : d ∈ drawn s (lineOperators operands) ↔
    ∃ k : ℕ, ∃ hk : k < operands.length, d = ⟨s.x, s.y - k * s.leading, operands[k]⟩ := by
  induction operands generalizing s with
  | nil =>
    constructor
    · intro h
      cases h
    · rintro ⟨k, hk, -⟩
      cases hk
  | cons operand operands ih =>
    rw [drawn_lineOperators_cons, List.mem_cons, ih]
    constructor
    · rintro (rfl | ⟨k, hk, rfl⟩)
      · exact ⟨0, Nat.succ_pos _, by simp⟩
      · refine ⟨k + 1, Nat.succ_lt_succ hk, ?_⟩
        exact congrArg (fun y => (⟨s.x, y, operands[k]⟩ : Drawn)) (height_succ s.y s.leading k)
    · rintro ⟨k, hk, rfl⟩
      cases k with
      | zero => exact Or.inl (by simp)
      | succ k =>
        have hlater : k < operands.length := Nat.lt_of_succ_lt_succ hk
        refine Or.inr ⟨k, hlater, ?_⟩
        exact congrArg (fun y => (⟨s.x, y, operands[k]⟩ : Drawn)) (height_succ s.y s.leading k).symm

theorem forall_drawn_lineOperators_iff {low high : ℤ} (hleading : 0 ≤ s.leading) :
    (∀ d ∈ drawn s (lineOperators operands), low ≤ d.y ∧ d.y ≤ high) ↔
      (operands ≠ [] → s.y ≤ high ∧ low + operands.length * s.leading ≤ s.y + s.leading) := by
  simp only [mem_drawn_lineOperators_iff]
  constructor
  · intro hall hne
    have hlength : 0 < operands.length := List.length_pos_iff.mpr hne
    have hfirst := (hall _ ⟨0, hlength, rfl⟩).2
    have hlast := (hall _ ⟨operands.length - 1, by omega, rfl⟩).1
    dsimp only at hfirst hlast
    rw [Nat.cast_sub hlength] at hlast
    push_cast at hfirst hlast
    constructor
    · linarith
    · linarith
  · rintro hbounds d ⟨k, hk, rfl⟩
    obtain ⟨hhigh, hlow⟩ := hbounds (List.ne_nil_of_length_pos (Nat.zero_lt_of_lt hk))
    have hk' : (k : ℤ) + 1 ≤ operands.length := by exact_mod_cast hk
    have hmul := mul_le_mul_of_nonneg_right hk' hleading
    have hpos : 0 ≤ (k : ℤ) * s.leading := mul_nonneg (Int.natCast_nonneg k) hleading
    constructor
    · change low ≤ s.y - k * s.leading
      linarith
    · change s.y - k * s.leading ≤ high
      linarith

end Lines

end Pdf
