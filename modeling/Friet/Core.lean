import Mathlib.Data.Rat.Floor
import Friet.Lib.Arithmetic

/-!
# Values shared by every service

Amounts are exact decimals: `round(x, 2)` is `cents`, and a `Numeric(18, 4)`
column stores `column 4`. Python's string functions are left open in `Text`; no
result depends on how letters are folded or numbers printed.
-/

set_option autoImplicit false

namespace Friet

open Rounding

abbrev Uuid := ℕ

abbrev Money := ℚ

/-- `round(x, 2)`. -/
def cents (x : Money) : Money := roundTo nearestEven 2 x

/-- What a `Numeric(_, n)` column holds of `x`. -/
def column (n : ℕ) (x : ℚ) : ℚ := roundTo nearestAway n x

abbrev WholeCents (x : Money) : Prop := OnGrid 2 x

theorem cents_wholeCents (x : Money) : WholeCents (cents x) := roundTo_onGrid _ _ _

theorem cents_of_wholeCents {x : Money} (h : WholeCents x) : cents x = x :=
  roundTo_of_onGrid nearestEven_nearest h

theorem column_of_wholeCents {x : Money} (h : WholeCents x) : column 4 x = x :=
  roundTo_of_onGrid nearestAway_nearest (h.of_le (by norm_num))

@[simp] theorem column_cents (x : Money) : column 4 (cents x) = cents x :=
  column_of_wholeCents (cents_wholeCents x)

@[simp] theorem cents_zero : cents 0 = 0 := cents_of_wholeCents OnGrid.zero

theorem cents_add_column {x y : Money} (hx : WholeCents x) (hy : WholeCents (column 4 y)) :
    cents (x + y) = x + column 4 y := by
  apply roundTo_eq_of_near nearestEven_nearest (hx.add hy)
  have hdiff : x + y - (x + column 4 y) = y - column 4 y := by ring
  rw [hdiff]
  calc |y - column 4 y| ≤ 1 / 2 / 10 ^ 4 := abs_sub_roundTo_le nearestAway_nearest 4 y
    _ < 1 / 2 / 10 ^ 2 := by norm_num

/-- An amount that the rounded remainder lets through still fits once it is stored. -/
theorem add_column_le {total existing amount : Money} (htotal : WholeCents total)
    (hexisting : WholeCents existing) (h : amount ≤ cents (total - existing)) :
    existing + column 4 amount ≤ total := by
  have hremaining : cents (total - existing) = total - existing :=
    cents_of_wholeCents (htotal.sub hexisting)
  have hstored : column 4 amount ≤ total - existing := by
    rw [← hremaining, ← column_cents (total - existing)]
    exact roundTo_mono nearestAway_nearest h
  linarith

structure Date where
  year : ℕ
  month : ℕ
  day : ℕ
  deriving DecidableEq

def Date.ordinal (d : Date) : ℕ := (d.year * 16 + d.month) * 32 + d.day

instance : LE Date := ⟨fun a b => a.ordinal ≤ b.ordinal⟩

instance (a b : Date) : Decidable (a ≤ b) := inferInstanceAs (Decidable (a.ordinal ≤ b.ordinal))

def daysInMonth (year month : ℕ) : ℕ :=
  match month with
  | 2 => if year % 4 = 0 ∧ year % 100 ≠ 0 ∨ year % 400 = 0 then 29 else 28
  | 4 | 6 | 9 | 11 => 30
  | _ => 31

def Date.next (d : Date) : Date :=
  if d.day < daysInMonth d.year d.month then ⟨d.year, d.month, d.day + 1⟩
  else if d.month < 12 then ⟨d.year, d.month + 1, 1⟩
  else ⟨d.year + 1, 1, 1⟩

def Date.previous (d : Date) : Date :=
  if 1 < d.day then ⟨d.year, d.month, d.day - 1⟩
  else if 1 < d.month then ⟨d.year, d.month - 1, daysInMonth d.year (d.month - 1)⟩
  else ⟨d.year - 1, 12, 31⟩

def Date.addDays (d : Date) : ℤ → Date
  | .ofNat n => Date.next^[n] d
  | .negSucc n => Date.previous^[n + 1] d

example : (⟨2024, 2, 20⟩ : Date).addDays 14 = ⟨2024, 3, 5⟩ := by decide

class Text where
  strip : String → String
  upper : String → String
  lower : String → String
  floatStr : ℚ → String
  decimalStr : ℚ → String
  moneyStr : ℚ → String
  uuidStr : Uuid → String
  dateStr : Date → String
  setStr : List String → String
  parseUuid : String → Option Uuid
  parseDecimal : String → Option ℚ

export Text (strip upper lower floatStr decimalStr moneyStr uuidStr dateStr setStr parseUuid
  parseDecimal)

/-- What is relied on where `str.upper` is applied twice, or to a text in capitals. -/
class Capitals extends Text where
  upper_upper : ∀ s, upper (upper s) = upper s
  upper_of_capitals : ∀ s : String, s.toList.all Char.isUpper = true → upper s = s

export Capitals (upper_upper upper_of_capitals)

namespace Verbatim

/-- Enough for runs on texts that are trimmed and in capitals. -/
scoped instance text : Text where
  strip s := s
  upper s := s
  lower s := s
  floatStr _ := ""
  decimalStr _ := ""
  moneyStr _ := ""
  uuidStr _ := ""
  dateStr _ := ""
  setStr _ := ""
  parseUuid
    | "0" => some 0
    | "1" => some 1
    | "2" => some 2
    | _ => none
  parseDecimal
    | "0" => some 0
    | "1000" => some 1000
    | _ => none

scoped instance capitals : Capitals where
  toText := text
  upper_upper _ := rfl
  upper_of_capitals _ _ := rfl

end Verbatim

/-- The truth value of an optional string: `None` and `""` are false. -/
def given (s : Option String) : Option String := s.filter (· ≠ "")

theorem given_some {s : String} (h : s ≠ "") : given (some s) = some s :=
  if_pos (decide_eq_true h)

abbrev Timestamp := ℕ

/-- The authenticated user of a request and the clock it runs at. -/
structure Caller where
  tenantId : Uuid
  actorId : Uuid
  today : Date
  now : Timestamp

/-- `FreightCoreError` and its subclasses; `unhandled` is any other exception. -/
inductive AppError where
  | validation (message : String)
  | notFound (message : String)
  | conflict (message : String)
  | forbidden (message : String)
  | unhandled (exception : String)
  deriving DecidableEq

end Friet
