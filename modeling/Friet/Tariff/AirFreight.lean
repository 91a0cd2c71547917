import Friet.Tariff.Entities
import Friet.Lib.Scan

/-!
# Pivot weights of air freight: `calculate_pivot_weight_optimization`

A shipment may be charged as if it weighed as much as a break above it. The total at
the actual weight drops at every break; the cheapest of these options does not.
-/

set_option autoImplicit false

namespace Friet.Tariff

structure RateBreak where
  weightBreakKg : ℚ
  ratePerKg : Money
  deriving DecidableEq

structure PivotOptimizationResult where
  actualChargeableWeightKg : ℚ
  actualRatePerKg : Money
  actualTotalCost : Money
  optimizedWeightKg : ℚ
  optimizedRatePerKg : Money
  optimizedTotalCost : Money
  savingsAmount : Money
  savingsPct : ℚ
  recommendation : String
  isOptimized : Bool
  deriving DecidableEq

structure Best where
  weight : ℚ
  rate : Money
  total : Money
  isOptimized : Bool

/-- `break_total`. -/
def RateBreak.total (b : RateBreak) : Money := cents (b.weightBreakKg * b.ratePerKg)

def RateBreak.toBest (b : RateBreak) : Best := ⟨b.weightBreakKg, b.ratePerKg, b.total, true⟩

def Best.ofActual (weight : ℚ) (rate : Money) : Best := ⟨weight, rate, cents (weight * rate), false⟩

/-- Only a break above the weight that is cheaper than the best so far takes its place. -/
def Best.consider (weight : ℚ) (best : Best) (b : RateBreak) : Best :=
  if weight < b.weightBreakKg then
    if b.total < best.total then b.toBest else best
  else best

/-- `sorted` by break weight, which keeps breaks of equal weights in their order. -/
def sortedBreaks (rateBreaks : List RateBreak) : List RateBreak :=
  rateBreaks.insertionSort fun b b' => b.weightBreakKg ≤ b'.weightBreakKg

/-- The last break that the weight reaches, or the first one when it reaches none. -/
def applicableBreak (weight : ℚ) (first : RateBreak) (sorted : List RateBreak) : RateBreak :=
  sorted.foldl (fun applicable b => if b.weightBreakKg ≤ weight then b else applicable) first

def savingsOf (actual best : Best) : Money := cents (actual.total - best.total)

def savingsPctOf (actual best : Best) : ℚ :=
  if 0 < actual.total then cents (savingsOf actual best / actual.total * 100) else 0

def pivotRecommendation [Text] (actual best : Best) : String :=
  if best.isOptimized then
    s!"Bump to {floatStr best.weight} kg break at ${floatStr best.rate}/kg: saves ${floatStr (savingsOf actual best)} ({floatStr (savingsPctOf actual best)}%) " ++
      s!"vs actual {floatStr actual.weight} kg at ${floatStr actual.rate}/kg"
  else s!"Rate as actual {floatStr actual.weight} kg at ${floatStr actual.rate}/kg (optimal)"

def pivotResult [Text] (actual best : Best) : PivotOptimizationResult where
  actualChargeableWeightKg := actual.weight
  actualRatePerKg := actual.rate
  actualTotalCost := actual.total
  optimizedWeightKg := best.weight
  optimizedRatePerKg := best.rate
  optimizedTotalCost := best.total
  savingsAmount := savingsOf actual best
  savingsPct := savingsPctOf actual best
  recommendation := pivotRecommendation actual best
  isOptimized := best.isOptimized

def calculatePivotWeightOptimization [Text] (actualChargeableWeight : ℚ)
    (rateBreaks : List RateBreak) : Except TariffError PivotOptimizationResult :=
  match sortedBreaks rateBreaks with
  | [] => throw (.valueError "Rate breaks are required for optimization")
  | first :: rest =>
    let applicable := applicableBreak actualChargeableWeight first (first :: rest)
    let actual := Best.ofActual actualChargeableWeight applicable.ratePerKg
    pure (pivotResult actual ((first :: rest).foldl (Best.consider actualChargeableWeight) actual))

section Optimal
variable {rateBreaks : List RateBreak} {weight weight' : ℚ} {first b : RateBreak}
  {rest : List RateBreak} {actual : Best}

/-- The break is the highest that the weight reaches, or the lowest when it reaches none. -/
def Applies (rateBreaks : List RateBreak) (weight : ℚ) (b : RateBreak) : Prop :=
  b ∈ rateBreaks ∧
    ((b.weightBreakKg ≤ weight ∧
        ∀ b' ∈ rateBreaks, b'.weightBreakKg ≤ weight → b'.weightBreakKg ≤ b.weightBreakKg) ∨
      (∀ b' ∈ rateBreaks, weight < b'.weightBreakKg) ∧
        ∀ b' ∈ rateBreaks, b.weightBreakKg ≤ b'.weightBreakKg)

/-- The total at the actual weight, and those of the breaks above it. -/
def options (rateBreaks : List RateBreak) (weight : ℚ) (actualTotal : Money) : Set Money :=
  {t | t = actualTotal ∨ ∃ b ∈ rateBreaks, weight < b.weightBreakKg ∧ t = b.total}

structure PivotsOptimally (rateBreaks : List RateBreak) (weight : ℚ)
    (x : PivotOptimizationResult) : Prop where
  actual : ∃ b, Applies rateBreaks weight b ∧ x.actualTotalCost = cents (weight * b.ratePerKg)
  least : IsLeast (options rateBreaks weight x.actualTotalCost) x.optimizedTotalCost
  savings : x.savingsAmount = x.actualTotalCost - x.optimizedTotalCost
  savings_nonneg : 0 ≤ x.savingsAmount
  optimized : x.isOptimized = true ↔ x.optimizedTotalCost < x.actualTotalCost

theorem pairwise_sortedBreaks (rateBreaks : List RateBreak) :
    (sortedBreaks rateBreaks).Pairwise fun b b' => b.weightBreakKg ≤ b'.weightBreakKg := by
  have htotal : Std.Total fun b b' : RateBreak => b.weightBreakKg ≤ b'.weightBreakKg :=
    ⟨fun b b' => le_total _ _⟩
  have htrans : IsTrans RateBreak fun b b' => b.weightBreakKg ≤ b'.weightBreakKg :=
    ⟨fun _ _ _ => le_trans⟩
  exact List.pairwise_insertionSort _ rateBreaks

theorem mem_sortedBreaks : b ∈ sortedBreaks rateBreaks ↔ b ∈ rateBreaks :=
  List.mem_insertionSort _

theorem applicableBreak_eq (h : sortedBreaks rateBreaks = first :: rest) (weight : ℚ) :
    applicableBreak weight first (first :: rest) =
      ((sortedBreaks rateBreaks).filter (·.weightBreakKg ≤ weight)).getLastD first := by
  unfold applicableBreak
  rw [Scan.foldl_ite_eq_getLastD, h]

theorem applies_applicableBreak (h : sortedBreaks rateBreaks = first :: rest) :
    Applies rateBreaks weight (applicableBreak weight first (first :: rest)) := by
  have hsorted := pairwise_sortedBreaks rateBreaks
  have hmem : ∀ b', b' ∈ rateBreaks → b' ∈ sortedBreaks rateBreaks :=
    fun b' => mem_sortedBreaks.mpr
  rw [applicableBreak_eq h, List.getLastD_eq_getLast?]
  rcases Scan.getLast?_filter_le hsorted weight with ⟨hnone, habove⟩ | ⟨b, hb, hsome, hle, hgreatest⟩
  · rw [hnone, Option.getD_none]
    refine ⟨mem_sortedBreaks.mp (h ▸ List.mem_cons_self), Or.inr ⟨fun b' hb' => ?_, fun b' hb' => ?_⟩⟩
    · exact habove b' (hmem b' hb')
    · have hb'' := hmem b' hb'
      rw [h] at hsorted hb''
      rcases List.mem_cons.mp hb'' with rfl | hrest
      · exact le_rfl
      · exact (List.pairwise_cons.mp hsorted).1 b' hrest
  · rw [hsome, Option.getD_some]
    exact ⟨mem_sortedBreaks.mp hb, Or.inl ⟨hle, fun b' hb' => hgreatest b' (hmem b' hb')⟩⟩

/-- A heavier shipment is under the same break, or under one above the lighter's weight. -/
theorem applicableBreak_eq_or_lt (h : sortedBreaks rateBreaks = first :: rest)
    (hle : weight ≤ weight') :
    let b := applicableBreak weight' first (first :: rest)
    applicableBreak weight first (first :: rest) = b ∨
      b ∈ rateBreaks ∧ weight < b.weightBreakKg ∧ b.weightBreakKg ≤ weight' := by
  dsimp only
  rw [applicableBreak_eq h, applicableBreak_eq h, ← mem_sortedBreaks]
  exact Scan.getLastD_filter_le (pairwise_sortedBreaks rateBreaks) hle

theorem foldl_consider (weight : ℚ) (actual : Best) (l : List RateBreak) :
    l.foldl (Best.consider weight) actual =
      Scan.scan Best.total actual
        ((l.filter (weight < ·.weightBreakKg)).map RateBreak.toBest) := by
  unfold Scan.scan
  rw [List.foldl_map, List.foldl_filter]
  congr 1
  funext best b
  have htotal : b.toBest.total = b.total := rfl
  unfold Best.consider
  rw [htotal]
  by_cases hb : weight < b.weightBreakKg
  · by_cases hlt : b.total < best.total
    · simp [hb, hlt]
    · simp [hb, hlt]
  · simp [hb]

theorem mem_options_iff (h : sortedBreaks rateBreaks = first :: rest) {t : Money} :
    t ∈ options rateBreaks weight actual.total ↔ t = actual.total ∨
      ∃ x ∈ ((first :: rest).filter (weight < ·.weightBreakKg)).map RateBreak.toBest,
        t = x.total := by
  simp only [← h, List.mem_map, List.mem_filter, mem_sortedBreaks, decide_eq_true_eq]
  refine or_congr Iff.rfl ⟨?_, ?_⟩
  · rintro ⟨b, hb, hlt, rfl⟩
    exact ⟨_, ⟨b, ⟨hb, hlt⟩, rfl⟩, rfl⟩
  · rintro ⟨_, ⟨b, ⟨hb, hlt⟩, rfl⟩, rfl⟩
    exact ⟨b, hb, hlt, rfl⟩

theorem isLeast_options (h : sortedBreaks rateBreaks = first :: rest) (weight : ℚ) (actual : Best) :
    IsLeast (options rateBreaks weight actual.total)
      ((first :: rest).foldl (Best.consider weight) actual).total := by
  rw [foldl_consider]
  obtain ⟨hmem, hlower⟩ := Scan.isLeast_scan Best.total actual
    (((first :: rest).filter (weight < ·.weightBreakKg)).map RateBreak.toBest)
  constructor
  · exact (mem_options_iff h).mpr hmem
  · exact fun t ht => hlower ((mem_options_iff h).mp ht)

theorem exists_sortedBreaks (h : rateBreaks ≠ []) :
    ∃ first rest, sortedBreaks rateBreaks = first :: rest := by
  obtain ⟨b, hb⟩ := List.exists_mem_of_ne_nil rateBreaks h
  exact List.exists_cons_of_ne_nil (List.ne_nil_of_mem (mem_sortedBreaks.mpr hb))

theorem wholeCents_of_options {actualTotal t : Money} (hactual : WholeCents actualTotal)
    (ht : t ∈ options rateBreaks weight actualTotal) : WholeCents t := by
  rcases ht with rfl | ⟨b, _, _, rfl⟩
  · exact hactual
  · exact cents_wholeCents _

theorem wholeCents_ofActual (weight : ℚ) (rate : Money) :
    WholeCents (Best.ofActual weight rate).total := cents_wholeCents _

theorem savingsOf_eq (h : sortedBreaks rateBreaks = first :: rest) (weight : ℚ)
    (hactual : WholeCents actual.total) :
    savingsOf actual ((first :: rest).foldl (Best.consider weight) actual) =
      actual.total - ((first :: rest).foldl (Best.consider weight) actual).total :=
  cents_of_wholeCents (hactual.sub (wholeCents_of_options hactual (isLeast_options h weight actual).1))

theorem isOptimized_iff (weight : ℚ) (rate : Money) (l : List RateBreak) :
    (l.foldl (Best.consider weight) (Best.ofActual weight rate)).isOptimized = true ↔
      (l.foldl (Best.consider weight) (Best.ofActual weight rate)).total <
        (Best.ofActual weight rate).total := by
  rw [foldl_consider]
  rcases Scan.scan_eq_or_lt Best.total (Best.ofActual weight rate)
    ((l.filter (weight < ·.weightBreakKg)).map RateBreak.toBest) with h | ⟨hmem, hlt⟩
  · rw [h]
    exact iff_of_false Bool.false_ne_true (lt_irrefl _)
  · obtain ⟨b, _, hb⟩ := List.mem_map.mp hmem
    refine iff_of_true ?_ hlt
    rw [← hb]
    rfl

section Runs
variable [Text] {x x' : PivotOptimizationResult}

theorem calculatePivot_eq (h : sortedBreaks rateBreaks = first :: rest) (weight : ℚ) :
    calculatePivotWeightOptimization weight rateBreaks =
      let actual := Best.ofActual weight (applicableBreak weight first (first :: rest)).ratePerKg
      .ok (pivotResult actual ((first :: rest).foldl (Best.consider weight) actual)) := by
  unfold calculatePivotWeightOptimization
  rw [h]
  rfl

theorem pivotsOptimally_of_eq (h : sortedBreaks rateBreaks = first :: rest)
    (hx : calculatePivotWeightOptimization weight rateBreaks = .ok x) :
    PivotsOptimally rateBreaks weight x := by
  rw [calculatePivot_eq h] at hx
  obtain rfl := Except.ok.inj hx
  have hleast := isLeast_options h weight
    (Best.ofActual weight (applicableBreak weight first (first :: rest)).ratePerKg)
  have hle := hleast.2 (Or.inl rfl)
  have hsavings := savingsOf_eq h weight (wholeCents_ofActual weight
    (applicableBreak weight first (first :: rest)).ratePerKg)
  constructor
  · exact ⟨_, applies_applicableBreak h, rfl⟩
  · exact hleast
  · exact hsavings
  · exact le_of_le_of_eq (sub_nonneg.mpr hle) hsavings.symm
  · exact isOptimized_iff weight _ (first :: rest)

/-- Moving up cannot become cheaper with the weight, since whatever is left to choose from
was there before, at the same total or at a lower one. -/
theorem optimizedTotalCost_mono (h : sortedBreaks rateBreaks = first :: rest)
    (hrates : ∀ b ∈ rateBreaks, 0 ≤ b.ratePerKg) (hle : weight ≤ weight')
    (hx : calculatePivotWeightOptimization weight rateBreaks = .ok x)
    (hx' : calculatePivotWeightOptimization weight' rateBreaks = .ok x') :
    x.optimizedTotalCost ≤ x'.optimizedTotalCost := by
  have hlower := (pivotsOptimally_of_eq h hx).least.2
  rcases (pivotsOptimally_of_eq h hx').least.1 with hactual | ⟨b, hb, hlt, htotal⟩
  · rw [calculatePivot_eq h] at hx hx'
    obtain rfl := Except.ok.inj hx
    obtain rfl := Except.ok.inj hx'
    rw [hactual]
    rcases applicableBreak_eq_or_lt h hle with hsame | ⟨hb, habove, hbelow⟩
    · have hmem : applicableBreak weight first (first :: rest) ∈ rateBreaks :=
        (applies_applicableBreak h).1
      have hrate := hrates _ hmem
      refine (hlower (Or.inl rfl)).trans (Rounding.roundTo_mono Rounding.nearestEven_nearest ?_)
      rw [← hsame]
      exact mul_le_mul_of_nonneg_right hle hrate
    · refine (hlower (Or.inr ⟨_, hb, habove, rfl⟩)).trans
        (Rounding.roundTo_mono Rounding.nearestEven_nearest ?_)
      exact mul_le_mul_of_nonneg_right hbelow (hrates _ hb)
  · rw [htotal]
    exact hlower (Or.inr ⟨b, hb, hle.trans_lt hlt, rfl⟩)

/-- The optimised total is the least of the options and never falls as the weight rises. -/
theorem pivot_optimal_and_monotone (hne : rateBreaks ≠ [])
    (hrates : ∀ b ∈ rateBreaks, 0 ≤ b.ratePerKg) :
    (∀ weight, ∃ x, calculatePivotWeightOptimization weight rateBreaks = .ok x ∧
        PivotsOptimally rateBreaks weight x) ∧
      ∀ weight weight' x x', weight ≤ weight' →
        calculatePivotWeightOptimization weight rateBreaks = .ok x →
        calculatePivotWeightOptimization weight' rateBreaks = .ok x' →
          x.optimizedTotalCost ≤ x'.optimizedTotalCost := by
  obtain ⟨first, rest, h⟩ := exists_sortedBreaks hne
  constructor
  · intro weight
    exact ⟨_, calculatePivot_eq h weight, pivotsOptimally_of_eq h (calculatePivot_eq h weight)⟩
  · intro weight weight' x x' hle hx hx'
    exact optimizedTotalCost_mono h hrates hle hx hx'

end Runs

end Optimal

open Verbatim in
/-- At 95 kg the break at 100 kg is the cheaper one; beyond it there is nothing to gain. -/
theorem pivot_at_100 :
    let rateBreaks : List RateBreak := [⟨100, 5⟩, ⟨0, 8⟩, ⟨45, 13 / 2⟩]
    (∃ x, calculatePivotWeightOptimization 95 rateBreaks = .ok x ∧
      PivotsOptimally rateBreaks 95 x) ∧
      ∀ x x', calculatePivotWeightOptimization 95 rateBreaks = .ok x →
        calculatePivotWeightOptimization 120 rateBreaks = .ok x' →
          x.optimizedTotalCost ≤ x'.optimizedTotalCost := by
  intro rateBreaks
  have hrates : ∀ b ∈ rateBreaks, 0 ≤ b.ratePerKg := by decide +kernel
  have hne : rateBreaks ≠ [] := List.cons_ne_nil _ _
  refine ⟨(pivot_optimal_and_monotone hne hrates).1 95, fun x x' => ?_⟩
  exact (pivot_optimal_and_monotone hne hrates).2 95 120 x x' (by norm_num)

end Friet.Tariff
