import Friet.Commercial.Quotations
import Friet.Lib.Scan

/-!
# Resolving the lines of a rate version: `rate_engine/resolution.py`

The line of a weight is the one with the greatest lower bound among those that cover
it. A pivot weight is the next lower bound above, if paying for it is cheaper.
-/

set_option autoImplicit false

namespace Friet.RateEngine

open Commercial (RateBasis)

structure RateLine where
  id : Uuid
  rateVersionId : Uuid
  chargeCode : String
  rateBasis : RateBasis
  weightBreakFrom : Option ℚ
  weightBreakTo : Option ℚ
  containerTypeCode : Option String
  amount : Money
  deriving DecidableEq

structure RateResolutionError where
  message : String
  deriving DecidableEq

/-- The key that lines are compared by; those without a lower bound are set aside first. -/
def RateLine.lowerBound (l : RateLine) : ℚ := l.weightBreakFrom.getD 0

def RateLine.covers (weightKg : ℚ) (l : RateLine) : Prop :=
  (∃ lower ∈ l.weightBreakFrom, lower ≤ weightKg) ∧ ∀ upper ∈ l.weightBreakTo, weightKg ≤ upper

instance (weightKg : ℚ) (l : RateLine) : Decidable (l.covers weightKg) :=
  inferInstanceAs (Decidable ((∃ lower ∈ l.weightBreakFrom, lower ≤ weightKg) ∧
    ∀ upper ∈ l.weightBreakTo, weightKg ≤ upper))

def weightLines (lines : List RateLine) : List RateLine :=
  lines.filter (·.weightBreakFrom.isSome)

def resolveWeightBreakRate [Text] (lines : List RateLine) (chargeableWeightKg : ℚ) :
    Except RateResolutionError RateLine :=
  if (weightLines lines).isEmpty then
    throw ⟨"No weight-break rate lines found on this rate version"⟩
  else
    match ((weightLines lines).filter (·.covers chargeableWeightKg)).argmax RateLine.lowerBound with
    | none => throw ⟨s!"No weight break covers chargeable weight {floatStr chargeableWeightKg}kg"⟩
    | some line => pure line

structure PivotOption where
  breakWeightKg : ℚ
  ratePerKg : Money
  totalCharge : Money
  deriving DecidableEq

structure PivotResolution where
  actualWeightKg : ℚ
  actualRatePerKg : Money
  actualTotalCharge : Money
  cheaperPivotOption : Option PivotOption
  recommendation : String
  deriving DecidableEq

/-- `sorted` by lower bound, which keeps lines of equal bounds in their order. -/
def sortedLines (lines : List RateLine) : List RateLine :=
  (weightLines lines).insertionSort fun l l' => l.lowerBound ≤ l'.lowerBound

/-- The loop over the sorted lines ends at the first one above the weight. -/
def cheaperOption (lines : List RateLine) (actualWeightKg actualTotal : ℚ) : Option PivotOption :=
  match (sortedLines lines).find? fun l => actualWeightKg < l.lowerBound with
  | none => none
  | some line =>
    let pivotTotal := line.amount * line.lowerBound
    if pivotTotal < actualTotal then some ⟨line.lowerBound, line.amount, cents pivotTotal⟩
    else none

def resolvePivotWeightOption [Text] (lines : List RateLine) (actualWeightKg : ℚ) :
    Except RateResolutionError PivotResolution := do
  let actualLine ← resolveWeightBreakRate lines actualWeightKg
  let actualTotal := actualLine.amount * actualWeightKg
  let option := cheaperOption lines actualWeightKg actualTotal
  pure {
    actualWeightKg := actualWeightKg
    actualRatePerKg := actualLine.amount
    actualTotalCharge := cents actualTotal
    cheaperPivotOption := option
    recommendation := if option.isSome then "USE_PIVOT" else "USE_ACTUAL" }

section Resolve
variable [Text] {lines : List RateLine} {weightKg : ℚ} {line : RateLine}

/-- Of the lines that cover the weight, the first of those with the greatest lower bound. -/
def Breaks (lines : List RateLine) (weightKg : ℚ) (line : RateLine) : Prop :=
  Scan.FirstGreatest (fun l => decide (l.covers weightKg)) RateLine.lowerBound lines line

omit [Text] in
theorem isSome_of_covers (h : line.covers weightKg) : line.weightBreakFrom.isSome := by
  obtain ⟨⟨lower, hlower, _⟩, _⟩ := h
  rw [Option.mem_def.mp hlower]
  rfl

omit [Text] in
theorem filter_weightLines : (weightLines lines).filter (fun l => decide (l.covers weightKg)) =
    lines.filter fun l => decide (l.covers weightKg) := by
  unfold weightLines
  rw [List.filter_filter]
  refine List.filter_congr fun l _ => ?_
  by_cases hcovers : l.covers weightKg
  · simp [hcovers, isSome_of_covers hcovers]
  · simp [hcovers]

theorem resolveWeightBreakRate_eq_ok_iff :
    resolveWeightBreakRate lines weightKg = .ok line ↔ Breaks lines weightKg line := by
  unfold Breaks
  rw [← Scan.argmax_filter_eq_some_iff, ← filter_weightLines]
  unfold resolveWeightBreakRate
  split_ifs with hempty
  · rw [List.isEmpty_iff.mp hempty]
    exact iff_of_false (fun h => by cases h) (fun h => by cases h)
  · cases ((weightLines lines).filter fun l => decide (l.covers weightKg)).argmax
        RateLine.lowerBound with
    | none => exact iff_of_false (fun h => by cases h) (fun h => by cases h)
    | some l => exact ⟨fun h => congrArg some (Except.ok.inj h), fun h => congrArg _ (Option.some.inj h)⟩

end Resolve

end Friet.RateEngine
