import Friet.Tariff.Entities

/-!
# Charge lines of a tariff: `calculate_freight_charge_lines`

Every matched line and every surcharge becomes a charge line of its own. A percentage
is taken of the list as it stands by then, which has all of the freight on it and,
for its base, nothing else. Amounts are floats, and how they are rounded is left to
`Arithmetic`.
-/

set_option autoImplicit false

namespace Friet.Tariff

open Rounding
open Commercial (RateBasis SurchargeBasis)

inductive ChargeCategory where
  | freight
  | surcharge
  | localCharge
  | agent
  deriving DecidableEq

structure QuotationLine where
  chargeCode : String
  category : ChargeCategory
  costAmount : Money
  sellAmount : Money
  description : String
  rateVersionId : Option Uuid
  quotationOptionId : Option Uuid
  deriving DecidableEq

/-- `fx_service.convert`: an amount, from, to and the day. -/
abbrev FxService := Money → String → String → Date → Money

structure ChargeRequest where
  markupPct : ℚ
  rateCurrency : String
  targetCurrency : String
  effectiveDate : Option Date
  weightKg : ℚ
  volumeCbm : ℚ
  containerQty : ℤ
  today : Date

/-- Amounts of the rate in the target currency, where they differ and a service is there. -/
def converted (fx : Option FxService) (a : ChargeRequest) (cost : Money) : Money :=
  match fx with
  | none => cost
  | some convert =>
    if a.rateCurrency = a.targetCurrency then cost
    else convert cost a.rateCurrency a.targetCurrency (a.effectiveDate.getD a.today)

section Charges
variable [Arithmetic]

def RateLine.basisCost (a : ChargeRequest) (l : RateLine) : Money :=
  match l.rateBasis with
  | .perKg => fl (l.amount * a.weightKg)
  | .perCbm => fl (l.amount * a.volumeCbm)
  | .perContainer => fl (l.amount * a.containerQty)
  | .other _ => l.amount

/-- A percentage is of freight that has been converted already. -/
def RateSurcharge.chargedCost (fx : Option FxService) (a : ChargeRequest) (baseCost : Money)
    (s : RateSurcharge) : Money :=
  match s.basis with
  | .perTeu => converted fx a (fl (s.amount * a.containerQty))
  | .perContainer => converted fx a (fl (s.amount * a.containerQty))
  | .perKg => converted fx a (fl (s.amount * a.weightKg))
  | .percentage => fl (baseCost * fl (s.amount / 100))
  | .other _ => converted fx a s.amount

def chargeLine (a : ChargeRequest) (v : RateVersion) (chargeCode : String)
    (category : ChargeCategory) (cost : Money) (description : String) : QuotationLine where
  chargeCode := chargeCode
  category := category
  costAmount := cents cost
  sellAmount := cents (fl (cost * fl (1 + fl (a.markupPct / 100))))
  description := description
  rateVersionId := some v.id
  quotationOptionId := none

def freightLine (fx : Option FxService) (a : ChargeRequest) (v : RateVersion) (l : RateLine) :
    QuotationLine :=
  chargeLine a v l.chargeCode .freight (converted fx a (l.basisCost a))
    s!"Base Freight ({l.chargeCode})"

def surchargeLine (fx : Option FxService) (a : ChargeRequest) (v : RateVersion) (baseCost : Money)
    (s : RateSurcharge) : QuotationLine :=
  chargeLine a v s.chargeCode .surcharge (s.chargedCost fx a baseCost)
    s!"Surcharge ({s.chargeCode})"

/-- `sum(cl.cost_amount for cl in charge_lines if cl.category == …)` -/
def costIn (category : ChargeCategory) (lines : List QuotationLine) : Money :=
  total ((lines.filter (·.category = category)).map (fl ·.costAmount))

/-- `base_cost`, of the lines so far. -/
def freightCost (lines : List QuotationLine) : Money := costIn .freight lines

def surchargeCost (lines : List QuotationLine) : Money := costIn .surcharge lines

def calculateFreightChargeLines (fx : Option FxService) (a : ChargeRequest) (v : RateVersion)
    (matchedLines : List RateLine) (surcharges : List RateSurcharge) : List QuotationLine :=
  let freight := matchedLines.foldl (fun lines l => lines ++ [freightLine fx a v l]) []
  surcharges.foldl (fun lines s => lines ++ [surchargeLine fx a v (freightCost lines) s]) freight

def totalCost (lines : List QuotationLine) : Money := total (lines.map (fl ·.costAmount))

def totalSell (lines : List QuotationLine) : Money := total (lines.map (fl ·.sellAmount))

/-- `round(freight_cost + surcharge_cost, 2)` -/
def landedCost (lines : List QuotationLine) : Money :=
  cents (fl (freightCost lines + surchargeCost lines))

end Charges

section Lines
variable [Arithmetic] {fx : Option FxService} {a : ChargeRequest} {v : RateVersion}

theorem foldl_freightLine (lines : List QuotationLine) (matchedLines : List RateLine) :
    matchedLines.foldl (fun lines l => lines ++ [freightLine fx a v l]) lines =
      lines ++ matchedLines.map (freightLine fx a v) := by
  induction matchedLines generalizing lines with
  | nil => rw [List.foldl_nil, List.map_nil, List.append_nil]
  | cons l matchedLines ih =>
    rw [List.foldl_cons, ih, List.map_cons, List.append_assoc, List.singleton_append]

theorem freightCost_concat (lines : List QuotationLine) (baseCost : Money) (s : RateSurcharge) :
    freightCost (lines ++ [surchargeLine fx a v baseCost s]) = freightCost lines := by
  have hfreight : ([surchargeLine fx a v baseCost s].filter (·.category = .freight)) = [] := rfl
  unfold freightCost costIn
  rw [List.filter_append, hfreight, List.append_nil]

theorem foldl_surchargeLine (lines : List QuotationLine) (surcharges : List RateSurcharge) :
    surcharges.foldl (fun lines s => lines ++ [surchargeLine fx a v (freightCost lines) s]) lines =
      lines ++ surcharges.map (surchargeLine fx a v (freightCost lines)) := by
  induction surcharges generalizing lines with
  | nil => rw [List.foldl_nil, List.map_nil, List.append_nil]
  | cons s surcharges ih =>
    rw [List.foldl_cons, ih, freightCost_concat, List.map_cons, List.append_assoc,
      List.singleton_append]

theorem category_of_mem_charges {matchedLines : List RateLine} {surcharges : List RateSurcharge}
    {line : QuotationLine} (h : line ∈ calculateFreightChargeLines fx a v matchedLines surcharges) :
    line.category = .freight ∨ line.category = .surcharge := by
  unfold calculateFreightChargeLines at h
  rw [foldl_freightLine, List.nil_append, foldl_surchargeLine] at h
  rcases List.mem_append.mp h with h | h
  · obtain ⟨l, -, rfl⟩ := List.mem_map.mp h
    exact Or.inl rfl
  · obtain ⟨s, -, rfl⟩ := List.mem_map.mp h
    exact Or.inr rfl

theorem wholeCents_of_mem_charges {matchedLines : List RateLine} {surcharges : List RateSurcharge}
    {line : QuotationLine} (h : line ∈ calculateFreightChargeLines fx a v matchedLines surcharges) :
    WholeCents line.costAmount ∧ WholeCents line.sellAmount := by
  unfold calculateFreightChargeLines at h
  rw [foldl_freightLine, List.nil_append, foldl_surchargeLine] at h
  rcases List.mem_append.mp h with h | h
  · obtain ⟨l, -, rfl⟩ := List.mem_map.mp h
    exact ⟨cents_wholeCents _, cents_wholeCents _⟩
  · obtain ⟨s, -, rfl⟩ := List.mem_map.mp h
    exact ⟨cents_wholeCents _, cents_wholeCents _⟩

omit [Arithmetic] in
theorem sum_costs {lines : List QuotationLine}
    (h : ∀ line ∈ lines, line.category = .freight ∨ line.category = .surcharge) :
    ((lines.filter (·.category = .freight)).map (·.costAmount)).sum +
        ((lines.filter (·.category = .surcharge)).map (·.costAmount)).sum =
      (lines.map (·.costAmount)).sum := by
  induction lines with
  | nil => exact add_zero 0
  | cons line lines ih =>
    have hrest := ih fun line' hline' => h line' (List.mem_cons_of_mem line hline')
    rw [List.map_cons, List.sum_cons, ← hrest]
    rcases h line List.mem_cons_self with hline | hline
    · rw [List.filter_cons_of_pos (by simp [hline]), List.filter_cons_of_neg (by simp [hline]),
        List.map_cons, List.sum_cons, add_assoc]
    · rw [List.filter_cons_of_neg (by simp [hline]), List.filter_cons_of_pos (by simp [hline]),
        List.map_cons, List.sum_cons, add_left_comm]

/-- `base_cost` of all the matched lines. -/
def baseFreight (fx : Option FxService) (a : ChargeRequest) (v : RateVersion)
    (matchedLines : List RateLine) : Money := freightCost (matchedLines.map (freightLine fx a v))

theorem calculateFreightChargeLines_eq (matchedLines : List RateLine)
    (surcharges : List RateSurcharge) :
    calculateFreightChargeLines fx a v matchedLines surcharges =
      matchedLines.map (freightLine fx a v) ++
        surcharges.map (surchargeLine fx a v (baseFreight fx a v matchedLines)) := by
  unfold calculateFreightChargeLines baseFreight
  rw [foldl_freightLine, List.nil_append, foldl_surchargeLine]

theorem costAmount_of_percentage {s : RateSurcharge} (h : s.basis = .percentage) (base : Money) :
    (surchargeLine fx a v base s).costAmount = cents (fl (base * fl (s.amount / 100))) := by
  change cents (s.chargedCost fx a base) = _
  unfold RateSurcharge.chargedCost
  rw [h]

end Lines

section Order
open Exact
variable {fx : Option FxService} {a : ChargeRequest} {v : RateVersion}
  {matchedLines matchedLines' : List RateLine} {surcharges surcharges' : List RateSurcharge}
  {lines : List QuotationLine}

theorem costIn_exact (category : ChargeCategory) (lines : List QuotationLine) :
    costIn category lines = ((lines.filter (·.category = category)).map (·.costAmount)).sum := by
  unfold costIn
  simp only [total_exact, fl_eq]

theorem totalCost_exact (lines : List QuotationLine) :
    totalCost lines = (lines.map (·.costAmount)).sum := by
  unfold totalCost
  simp only [total_exact, fl_eq]

theorem totalSell_exact (lines : List QuotationLine) :
    totalSell lines = (lines.map (·.sellAmount)).sum := by
  unfold totalSell
  simp only [total_exact, fl_eq]

theorem baseFreight_perm (h : matchedLines.Perm matchedLines') :
    baseFreight fx a v matchedLines = baseFreight fx a v matchedLines' := by
  unfold baseFreight freightCost
  rw [costIn_exact, costIn_exact]
  exact (((h.map _).filter _).map _).sum_eq

theorem totals_perm {lines lines' : List QuotationLine} (h : lines.Perm lines') :
    totalCost lines = totalCost lines' ∧ totalSell lines = totalSell lines' := by
  rw [totalCost_exact, totalCost_exact, totalSell_exact, totalSell_exact]
  exact ⟨(h.map _).sum_eq, (h.map _).sum_eq⟩

theorem baseFreight_eq (matchedLines : List RateLine) :
    baseFreight fx a v matchedLines = totalCost (matchedLines.map (freightLine fx a v)) := by
  have hfreight : ∀ line ∈ matchedLines.map (freightLine fx a v), line.category = .freight := by
    intro line hline
    obtain ⟨l, _, rfl⟩ := List.mem_map.mp hline
    rfl
  unfold baseFreight freightCost costIn totalCost
  rw [List.filter_eq_self.mpr fun line hline => decide_eq_true (hfreight line hline)]

/-- Each line and each surcharge is charged on its own, whatever their order: a percentage
of all the freight, every other surcharge of its own amount. -/
theorem charge_lines_permute (hlines : matchedLines.Perm matchedLines')
    (hsurcharges : surcharges.Perm surcharges') :
    let charged := calculateFreightChargeLines fx a v matchedLines surcharges
    let charged' := calculateFreightChargeLines fx a v matchedLines' surcharges'
    let base := totalCost (matchedLines.map (freightLine fx a v))
    charged = matchedLines.map (freightLine fx a v) ++ surcharges.map (surchargeLine fx a v base) ∧
      charged' =
        matchedLines'.map (freightLine fx a v) ++ surcharges'.map (surchargeLine fx a v base) ∧
      (∀ s ∈ surcharges, s.basis = .percentage →
        (surchargeLine fx a v base s).costAmount = cents (base * (s.amount / 100))) ∧
      totalCost charged = totalCost charged' ∧ totalSell charged = totalSell charged' := by
  intro charged charged' base
  have hbase : baseFreight fx a v matchedLines = base := baseFreight_eq matchedLines
  have hcharged : charged =
      matchedLines.map (freightLine fx a v) ++ surcharges.map (surchargeLine fx a v base) := by
    rw [← hbase]
    exact calculateFreightChargeLines_eq _ _
  have hcharged' : charged' =
      matchedLines'.map (freightLine fx a v) ++ surcharges'.map (surchargeLine fx a v base) := by
    rw [← hbase, baseFreight_perm hlines]
    exact calculateFreightChargeLines_eq _ _
  have htotals := totals_perm (hcharged ▸ hcharged' ▸
    (hlines.map (freightLine fx a v)).append (hsurcharges.map (surchargeLine fx a v base)))
  exact ⟨hcharged, hcharged', fun s _ h => costAmount_of_percentage h base, htotals⟩

/-- Two percentages around a surcharge by weight, and the lines the other way round. -/
theorem charge_lines_reversed :
    let v : RateVersion := ⟨1, 1, 1, "", 0, "", .approved, [], []⟩
    let a : ChargeRequest := ⟨15, "EUR", "USD", none, 120, 1, 2, ⟨2026, 3, 1⟩⟩
    let fx : Option FxService := some fun amount _ _ _ => amount * (11 / 10)
    let line (id : Uuid) (basis : RateBasis) (amount : Money) : RateLine :=
      ⟨id, "AFR", basis, amount, none, none, none, some 1⟩
    let surcharge (id : Uuid) (basis : SurchargeBasis) (amount : Money) : RateSurcharge :=
      ⟨id, "FSC", basis, amount, ⟨2026, 1, 1⟩, ⟨2026, 12, 31⟩, some 1⟩
    let lines := [line 1 .perKg 3, line 2 .perContainer 50]
    let surcharges := [surcharge 1 .percentage 10, surcharge 2 .perKg 1, surcharge 3 .percentage 5]
    totalCost (calculateFreightChargeLines fx a v lines surcharges) =
        totalCost (calculateFreightChargeLines fx a v lines.reverse surcharges.reverse) ∧
      totalSell (calculateFreightChargeLines fx a v lines surcharges) =
        totalSell (calculateFreightChargeLines fx a v lines.reverse surcharges.reverse) := by
  intro v a fx line surcharge lines surcharges
  exact (charge_lines_permute lines.reverse_perm.symm surcharges.reverse_perm.symm).2.2.2

end Order

end Friet.Tariff
