import Friet.Commercial.Steps
import Friet.Lib.Tally
import Friet.Tariff.Charges
import Friet.Tariff.Selection

/-!
# One tariff, priced twice

A quotation adds up every line and surcharge of the rate version once; the
engine charges the lines that match, by their quantities, in floats. The
difference is what the engine leaves out against what it adds to the rest.
-/

set_option autoImplicit false

namespace Friet.Commercial

open Session Rounding Doubles

structure LaneShipment where
  weightKg : ℚ
  volumeCbm : ℚ
  containerType : Option String
  containerQty : ℤ

def totalGrossWeight (rfqId : Uuid) (db : CommercialDatabase) : ℚ :=
  db.rfqCargoLines.sum (·.rfqId = rfqId) (·.grossWeightKg.getD 0)

def totalVolume (rfqId : Uuid) (db : CommercialDatabase) : ℚ :=
  db.rfqCargoLines.sum (·.rfqId = rfqId) (·.volumeCbm.getD 0)

def laneShipment (rfqId : Uuid) (db : CommercialDatabase) (containerType : Option String)
    (containerQty : ℤ) : LaneShipment where
  weightKg := fl (totalGrossWeight rfqId db)
  volumeCbm := fl (totalVolume rfqId db)
  containerType := containerType
  containerQty := containerQty

/-- The engine takes one container type: a shipment for each one required, or one without. -/
def laneShipments (rfqId : Uuid) (db : CommercialDatabase) : List LaneShipment :=
  match db.rfqContainerRequirements.rows.filter (·.rfqId = rfqId) with
  | [] => [laneShipment rfqId db none 1]
  | rs => rs.map fun r => laneShipment rfqId db (some r.containerTypeCode) r.quantity

def versionLines (versionId : Uuid) (db : CommercialDatabase) : List RateLine :=
  db.rateLines.rows.filter (·.rateVersionId = versionId)

def versionSurcharges (day : Date) (versionId : Uuid) (db : CommercialDatabase) :
    List RateSurcharge :=
  db.rateSurcharges.rows.filter fun x => x.rateVersionId = versionId ∧ x.applies day

/-- The row as the engine has it, in floats. -/
def domainLine (l : RateLine) : Tariff.RateLine where
  id := l.id
  chargeCode := l.chargeCode
  rateBasis := l.rateBasis
  amount := fl l.amount
  weightBreakFrom := l.weightBreakFrom.map fl
  weightBreakTo := l.weightBreakTo.map fl
  containerTypeCode := l.containerTypeCode
  rateVersionId := some l.rateVersionId

/-- A surcharge without a date applies on the day. -/
def domainSurcharge (day : Date) (x : RateSurcharge) : Tariff.RateSurcharge where
  id := x.id
  chargeCode := x.chargeCode
  basis := x.basis
  amount := fl x.amount
  applicableFrom := x.applicableFrom.getD day
  applicableTo := x.applicableTo.getD day
  rateVersionId := some x.rateVersionId

/-- The orders in which the engine has the lines and the surcharges of a version. -/
structure TariffOrders where
  lines : RowOrder RateLine
  surcharges : RowOrder RateSurcharge

/-- Who changed the version, when and why is not asked. -/
def domainVersion (orders : TariffOrders) (day : Date) (v : RateVersion)
    (db : CommercialDatabase) : Tariff.RateVersion where
  id := v.id
  rateId := v.rateId
  versionNumber := v.versionNumber
  modifiedBy := ""
  modifiedDate := 0
  reason := ""
  approvalStatus := .approved
  lines := (orders.lines.arrange (versionLines v.id db)).map domainLine
  surcharges := (orders.surcharges.arrange
    (db.rateSurcharges.rows.filter (·.rateVersionId = v.id))).map (domainSurcharge day)

/-- Both totals are in the currency of the rate. -/
def chargeRequest (day : Date) (markupPct : ℚ) (s : LaneShipment) : Tariff.ChargeRequest where
  markupPct := markupPct
  rateCurrency := "USD"
  targetCurrency := "USD"
  effectiveDate := some day
  weightKg := s.weightKg
  volumeCbm := s.volumeCbm
  containerQty := s.containerQty
  today := day

def LaneShipment.matches (s : LaneShipment) (l : Tariff.RateLine) : Bool :=
  l.isMatched (some s.weightKg) s.containerType

/-- The charge lines of the version for the shipment. -/
def engineLines (orders : TariffOrders) (day : Date) (markupPct : ℚ) (v : RateVersion)
    (db : CommercialDatabase) (s : LaneShipment) : List Tariff.QuotationLine :=
  let version := domainVersion orders day v db
  Tariff.calculateFreightChargeLines none (chargeRequest day markupPct s) version
    (version.lines.filter s.matches) (Tariff.validSurcharges day version)

def engineTotal (orders : TariffOrders) (day : Date) (markupPct : ℚ) (v : RateVersion)
    (db : CommercialDatabase) (s : LaneShipment) : Money :=
  Tariff.landedCost (engineLines orders day markupPct v db s)

/-- The option that was stored costs what the engine gives for its version and its request. -/
def PricedAlike (orders : TariffOrders) (day : Date) (markupPct : ℚ)
    (db db' : CommercialDatabase) : Prop :=
  ∀ q ∈ db'.quotations, q ∉ db.quotations →
    ∀ o ∈ db'.quotationOptions, o ∉ db.quotationOptions →
      ∀ v ∈ db.rateVersions, o.primaryRateVersionId = some v.id →
        ∀ s ∈ laneShipments q.rfqId db, o.totalCost = engineTotal orders day markupPct v db s

def matchedLines (versionId : Uuid) (db : CommercialDatabase) (s : LaneShipment) :
    List RateLine := (versionLines versionId db).filter fun l => s.matches (domainLine l)

/-- The lines that the engine leaves out, as the quotation counts them. -/
def leftOut (versionId : Uuid) (db : CommercialDatabase) (s : LaneShipment) : Money :=
  (((versionLines versionId db).filter fun l => ¬ s.matches (domainLine l) = true).map
    (·.amount)).sum

/-- `base_cost`, which percentages are taken of. -/
def engineBase (orders : TariffOrders) (day : Date) (markupPct : ℚ) (v : RateVersion)
    (db : CommercialDatabase) (s : LaneShipment) : Money :=
  Tariff.baseFreight none (chargeRequest day markupPct s) (domainVersion orders day v db)
    ((domainVersion orders day v db).lines.filter s.matches)

def lineCost (day : Date) (markupPct : ℚ) (s : LaneShipment) (l : RateLine) : Money :=
  cents ((domainLine l).basisCost (chargeRequest day markupPct s))

def surchargeCost (day : Date) (markupPct : ℚ) (s : LaneShipment) (base : Money)
    (x : RateSurcharge) : Money :=
  cents ((domainSurcharge day x).chargedCost none (chargeRequest day markupPct s) base)

/-- What quantities, percentages and cents add to the amounts of the other lines and surcharges. -/
def addedOn (orders : TariffOrders) (day : Date) (markupPct : ℚ) (v : RateVersion)
    (db : CommercialDatabase) (s : LaneShipment) : Money :=
  ((matchedLines v.id db s).map fun l => lineCost day markupPct s l - l.amount).sum +
    ((versionSurcharges day v.id db).map fun x =>
      surchargeCost day markupPct s (engineBase orders day markupPct v db s) x - x.amount).sum

/-- What the float sum of the charge lines, to cents, is off their exact one. -/
def summing (lines : List Tariff.QuotationLine) : Money :=
  Tariff.landedCost lines - (lines.map (·.costAmount)).sum

structure AmountsStored (db : CommercialDatabase) : Prop where
  rateLines : ∀ l ∈ db.rateLines, OnGrid 4 l.amount
  rateSurcharges : ∀ x ∈ db.rateSurcharges, OnGrid 4 x.amount

section Engine
variable {orders : TariffOrders} {day : Date} {markupPct : ℚ} {v : RateVersion}
  {db : CommercialDatabase} {s : LaneShipment}

theorem domainVersion_matched : ((domainVersion orders day v db).lines.filter s.matches) =
    ((orders.lines.arrange (versionLines v.id db)).filter fun l =>
      s.matches (domainLine l)).map domainLine := by
  unfold domainVersion
  rw [List.filter_map]
  rfl

theorem applies_domainSurcharge (x : RateSurcharge) :
    ((domainSurcharge day x).applicableFrom ≤ day ∧ day ≤ (domainSurcharge day x).applicableTo) ↔
      x.applies day := by
  have hday : day ≤ day := Nat.le_refl day.ordinal
  unfold domainSurcharge RateSurcharge.applies
  cases x.applicableFrom <;> cases x.applicableTo <;> simp [hday]

theorem domainVersion_valid : Tariff.validSurcharges day (domainVersion orders day v db) =
    ((orders.surcharges.arrange (db.rateSurcharges.rows.filter (·.rateVersionId = v.id))).filter
      (·.applies day)).map (domainSurcharge day) := by
  unfold Tariff.validSurcharges domainVersion
  rw [List.filter_map]
  congr 1
  apply List.filter_congr
  intro x _
  exact decide_eq_decide.mpr (applies_domainSurcharge x)

theorem sum_engineLines : ((engineLines orders day markupPct v db s).map (·.costAmount)).sum =
    ((matchedLines v.id db s).map (lineCost day markupPct s)).sum +
      ((versionSurcharges day v.id db).map
        (surchargeCost day markupPct s (engineBase orders day markupPct v db s))).sum := by
  unfold engineLines
  dsimp only
  rw [Tariff.calculateFreightChargeLines_eq, List.map_append, List.sum_append]
  congr 1
  · rw [domainVersion_matched, List.map_map, List.map_map]
    exact (((orders.lines.perm _).filter _).map _).sum_eq
  · rw [domainVersion_valid, List.map_map, List.map_map]
    have hperm := ((orders.surcharges.perm
      (db.rateSurcharges.rows.filter (·.rateVersionId = v.id))).filter (·.applies day)).map
        (surchargeCost day markupPct s (engineBase orders day markupPct v db s))
    refine hperm.sum_eq.trans ?_
    rw [List.filter_filter]
    unfold versionSurcharges
    simp only [Bool.decide_and, Bool.and_comm]

theorem summing_engineLines
    (hmoderate : Moderate ((engineLines orders day markupPct v db s).map (·.costAmount))) :
    summing (engineLines orders day markupPct v db s) = 0 := by
  set lines := engineLines orders day markupPct v db s
  have hcost : ∀ category, Tariff.costIn category lines =
      total ((((lines.filter (·.category = category)).map (·.costAmount))).map double) := by
    intro category
    rw [List.map_map]
    rfl
  have hsub : ∀ category : Tariff.ChargeCategory,
      Moderate ((lines.filter (·.category = category)).map (·.costAmount)) := fun _ =>
    hmoderate.sublist (List.filter_sublist.map _)
  have hnear := abs_double_add_near (hsub .freight) (hsub .surcharge)
  have hparts : ((lines.filter (·.category = .freight)).map (·.costAmount)).sum +
      ((lines.filter (·.category = .surcharge)).map (·.costAmount)).sum =
        (lines.map (·.costAmount)).sum :=
    Tariff.sum_costs fun l hl => Tariff.category_of_mem_charges hl
  rw [← hcost, ← hcost, hparts] at hnear
  have hgrid : WholeCents (lines.map (·.costAmount)).sum := OnGrid.sum fun y hy => by
    obtain ⟨l, hl, rfl⟩ := List.mem_map.mp hy
    exact (Tariff.wholeCents_of_mem_charges hl).1
  exact sub_eq_zero.mpr (roundTo_eq_of_near nearestEven_nearest hgrid hnear)

end Engine

section Pricing
variable [Text] {caller : Caller} {a : CreateQuotation} {db : CommercialDatabase} {p : Pricing}

omit [Text] in
theorem totalCost_charges (ls : List RateLine) (xs : List RateSurcharge) :
    totalCost (charges ls xs) = (ls.map (·.amount)).sum + (xs.map (·.amount)).sum := by
  simp [totalCost, charges, Function.comp_def]

theorem Prices.totalCost_eq (hp : Prices caller a db p) :
    totalCost p.charges = ((versionLines p.version.id db).map (·.amount)).sum +
      ((versionSurcharges caller.today p.version.id db).map (·.amount)).sum := by
  rw [hp.charges, totalCost_charges]
  congr 1
  · exact ((a.lineOrder.perm _).map _).sum_eq
  · exact ((a.surchargeOrder.perm _).map _).sum_eq

theorem Prices.totalCost_onGrid (hp : Prices caller a db p) (hdb : AmountsStored db) :
    OnGrid 4 (totalCost p.charges) := by
  rw [hp.totalCost_eq]
  refine (OnGrid.sum ?_).add (OnGrid.sum ?_)
  · simp only [List.mem_map]
    rintro x ⟨l, hl, rfl⟩
    exact hdb.rateLines l (List.mem_filter.mp hl).1
  · simp only [List.mem_map]
    rintro y ⟨x, hx, rfl⟩
    exact hdb.rateSurcharges x (List.mem_filter.mp hx).1

theorem Prices.version_mem (hp : Prices caller a db p) : p.version ∈ db.rateVersions :=
  (List.mem_filter.mp (List.argmax_mem hp.version)).1

theorem exact_cost_relation (hp : Prices caller a db p) (orders : TariffOrders) (markupPct : ℚ)
    (s : LaneShipment) :
    totalCost p.charges + (addedOn orders caller.today markupPct p.version db s +
        summing (engineLines orders caller.today markupPct p.version db s)) =
      engineTotal orders caller.today markupPct p.version db s + leftOut p.version.id db s := by
  have hsplit := List.sum_map_filter_add_sum_map_filter_not
    (fun l : RateLine => s.matches (domainLine l) = true) (·.amount) (versionLines p.version.id db)
  simp only [Bool.decide_eq_true] at hsplit
  rw [hp.totalCost_eq, ← hsplit, summing, sum_engineLines]
  unfold addedOn leftOut matchedLines engineTotal
  rw [Tally.sum_map_sub, Tally.sum_map_sub]
  ring

end Pricing

section Verbatim
open Friet.Verbatim Commercial.Verbatim

def inOrder : TariffOrders := ⟨.stored, .stored⟩

def flatPricing : Pricing where
  rfq := flatRfq
  rate := ⟨1, 1, .fak, some 1, some 2, none, ⟨2026, 1, 1⟩, ⟨2026, 12, 31⟩, "USD", .active⟩
  version := ⟨1, 1, 1, .approved⟩
  charges := [⟨"OFR", "FREIGHT", 100⟩]

theorem flat_prices : Prices clerk (quoteOf "QT-1" 10 "USD") (lane (freight 100)) flatPricing where
  rfq := ⟨List.mem_singleton_self _, rfl, rfl⟩
  quotable := by decide
  rate := rfl
  version := rfl
  lines := by decide
  charges := rfl

theorem flat_amountsStored : AmountsStored (lane (freight 100)) where
  rateLines l hl := by
    rw [List.mem_singleton.mp hl]
    exact OnGrid.natCast 100
  rateSurcharges x hx := absurd hx (Table.not_mem_empty x)

def brokenTariff : CommercialDatabase :=
  { lane (freight 0) with
    rateLines := ⟨[⟨1, 1, "AFR", .perKg, some 45, some 300, none, 5⟩,
      ⟨2, 1, "AFR", .perKg, some 300, none, none, 4⟩], by decide⟩ }

end Verbatim

end Friet.Commercial
