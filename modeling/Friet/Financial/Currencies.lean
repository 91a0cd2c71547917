import Friet.Commercial.Currency
import Friet.Financial.Steps

/-!
# Profitability in one currency

The figures add up amounts of all currencies as they stand, and are stated in the currency of
the first revenue line. Converting the lines one by one gives the same figures when what it
changes comes to less than half a cent. All of it is done in doubles.
-/

set_option autoImplicit false

namespace Friet.Financial

open Session Rounding Doubles

/-- What `get_profitability` returns. -/
structure ProfitabilityReport extends Profitability where
  shipmentId : Uuid
  currencyCode : String

/-- A line without a currency counts as in dollars. -/
def currencyOf (currencyCode : Option String) : String := (given currencyCode).getD "USD"

/-- The first revenue line that the query returns names the currency. -/
def reportedCurrency (orders : LedgerOrders) (shipmentId : Uuid) (db : Database) : String :=
  currencyOf ((revenueLinesOf orders shipmentId db).head?.bind (·.currencyCode))

def getProfitabilityReport [Text] (orders : LedgerOrders) (shipmentId tenantId : Uuid) :
    Service ProfitabilityReport := do
  let figures ← getProfitability orders shipmentId tenantId
  let db ← get
  pure { figures with
    shipmentId := shipmentId
    currencyCode := reportedCurrency orders shipmentId db }

/-- The stored exchange rates, and the day for which they are looked up. -/
structure StoredRates where
  baseCurrency : String
  rates : List ExchangeRate
  onDate : Date

def StoredRates.convert [Text] (x : StoredRates) (amount : Money)
    (fromCurrency toCurrency : String) : Except Commercial.ConversionError Money :=
  Commercial.convert x.baseCurrency x.rates amount fromCurrency toCurrency x.onDate

structure LineValues where
  revenue : RevenueLine → Money
  cost : CostLine → Money

/-- The rates cover the shipment's lines, and convert their amounts, read as floats, into these
values. -/
structure ConvertedTo [Text] (x : StoredRates) (currency : String) (shipmentId : Uuid)
    (db : Database) (v : LineValues) : Prop where
  revenue : ∀ r ∈ db.revenueLines, r.shipmentId = shipmentId →
    x.convert (fl r.amount) (currencyOf r.currencyCode) currency = .ok (v.revenue r)
  cost : ∀ c ∈ db.costLines, c.shipmentId = shipmentId →
    x.convert (fl c.amount) (currencyOf c.currencyCode) currency = .ok (v.cost c)

def revenueSum (shipmentId : Uuid) (db : Database) (value : RevenueLine → Money) : Money :=
  db.revenueLines.sum (·.shipmentId = shipmentId) value

def costSum (shipmentId : Uuid) (db : Database) (value : CostLine → Money) : Money :=
  db.costLines.sum (·.shipmentId = shipmentId) value

structure StatedIn (shipmentId : Uuid) (db : Database) (v : LineValues)
    (p : ProfitabilityReport) : Prop where
  grossRevenue : p.grossRevenue = revenueSum shipmentId db v.revenue
  directCost : p.directCost = costSum shipmentId db v.cost
  grossProfit : p.grossProfit = revenueSum shipmentId db v.revenue - costSum shipmentId db v.cost

/-- What converting adds to the revenue of the shipment, which is added up in doubles. -/
def revenueChange (orders : LedgerOrders) (shipmentId : Uuid) (db : Database) (v : LineValues) :
    Money :=
  revenueSum shipmentId db v.revenue -
    revenueTotal (revenueLinesOf orders shipmentId db) fun _ => true

def costChange (orders : LedgerOrders) (shipmentId : Uuid) (db : Database) (v : LineValues) :
    Money :=
  costSum shipmentId db v.cost - costTotal (costLinesOf orders shipmentId db) fun _ => true

/-- What it adds to the profit, a difference that is rounded to a double. -/
def profitChange (orders : LedgerOrders) (shipmentId : Uuid) (db : Database) (v : LineValues) :
    Money :=
  revenueSum shipmentId db v.revenue - costSum shipmentId db v.cost -
    fl (revenueTotal (revenueLinesOf orders shipmentId db) (fun _ => true) -
      costTotal (costLinesOf orders shipmentId db) fun _ => true)

/-- Less than half a cent, or half a cent where the total is an even number of cents. -/
def Negligible (change total : Money) : Prop :=
  |change| < 1 / 2 / 10 ^ 2 ∨ |change| = 1 / 2 / 10 ^ 2 ∧ WholeCents (total / 2)

instance (change total : Money) : Decidable (Negligible change total) :=
  inferInstanceAs (Decidable (_ ∨ _ ∧ _))

/-- What converting adds is negligible for the revenue, for the cost and for their difference. -/
structure ChangesNegligible (orders : LedgerOrders) (shipmentId : Uuid) (db : Database)
    (v : LineValues) : Prop where
  revenue : Negligible (revenueChange orders shipmentId db v) (revenueSum shipmentId db v.revenue)
  cost : Negligible (costChange orders shipmentId db v) (costSum shipmentId db v.cost)
  profit : Negligible (profitChange orders shipmentId db v)
    (revenueSum shipmentId db v.revenue - costSum shipmentId db v.cost)

section Sums
variable {orders : LedgerOrders} {shipmentId : Uuid} {db : Database} {v : LineValues}

theorem cents_eq_iff {x total : Money} (htotal : WholeCents total) :
    cents x = total ↔ Negligible (total - x) total := by
  unfold cents Negligible
  rw [roundTo_nearestEven_eq_iff htotal, abs_sub_comm]

theorem wholeCents_revenueSum {value : RevenueLine → Money}
    (h : ∀ r ∈ db.revenueLines, r.shipmentId = shipmentId → WholeCents (value r)) :
    WholeCents (revenueSum shipmentId db value) :=
  Table.sum_induction WholeCents OnGrid.zero (fun _ _ hx hy => hx.add hy) fun r hr hp =>
    h r hr (of_decide_eq_true hp)

theorem wholeCents_costSum {value : CostLine → Money}
    (h : ∀ c ∈ db.costLines, c.shipmentId = shipmentId → WholeCents (value c)) :
    WholeCents (costSum shipmentId db value) :=
  Table.sum_induction WholeCents OnGrid.zero (fun _ _ hx hy => hx.add hy) fun c hc hp =>
    h c hc (of_decide_eq_true hp)

/-- The amounts of the shipment's revenue, in the order they are read. -/
def revenueAmounts (orders : LedgerOrders) (shipmentId : Uuid) (db : Database) : List Money :=
  (revenueLinesOf orders shipmentId db).map (·.amount)

def costAmounts (orders : LedgerOrders) (shipmentId : Uuid) (db : Database) : List Money :=
  (costLinesOf orders shipmentId db).map (·.amount)

theorem revenueTotal_eq : revenueTotal (revenueLinesOf orders shipmentId db) (fun _ => true) =
    total ((revenueAmounts orders shipmentId db).map double) := by
  unfold revenueTotal revenueAmounts
  rw [List.filter_true, List.map_map]
  rfl

theorem costTotal_eq : costTotal (costLinesOf orders shipmentId db) (fun _ => true) =
    total ((costAmounts orders shipmentId db).map double) := by
  unfold costTotal costAmounts
  rw [List.filter_true, List.map_map]
  rfl

theorem sum_revenueAmounts :
    (revenueAmounts orders shipmentId db).sum = revenueSum shipmentId db (·.amount) :=
  ((orders.revenue.perm _).map _).sum_eq

theorem sum_costAmounts :
    (costAmounts orders shipmentId db).sum = costSum shipmentId db (·.amount) :=
  ((orders.cost.perm _).map _).sum_eq

end Sums

section Report
variable [Text] {orders : LedgerOrders} {shipmentId tenantId : Uuid} {db db' : Database}
  {p : ProfitabilityReport} {x : StoredRates} {v : LineValues}

theorem run_getProfitabilityReport_ok
    (h : (getProfitabilityReport orders shipmentId tenantId).run db = .ok p db') :
    p.toProfitability = profitabilityOf orders shipmentId db ∧
      p.currencyCode = reportedCurrency orders shipmentId db := by
  unfold getProfitabilityReport at h
  simp only [run_getProfitability_bind_ok, run_get_bind_ok, run_pure_ok] at h
  obtain ⟨-, rfl, -⟩ := h
  exact ⟨rfl, rfl⟩

/-- Where all amounts are in whole cents, and neither many nor large, converting must leave both
sums as they are. -/
theorem changesNegligible_iff_of_wholeCents
    (hconverted : ConvertedTo x p.currencyCode shipmentId db v)
    (hrevenue : ∀ r ∈ db.revenueLines, r.shipmentId = shipmentId → WholeCents r.amount)
    (hcost : ∀ c ∈ db.costLines, c.shipmentId = shipmentId → WholeCents c.amount)
    (hrevenues : Moderate (revenueAmounts orders shipmentId db))
    (hcosts : Moderate (costAmounts orders shipmentId db)) :
    ChangesNegligible orders shipmentId db v ↔
      revenueSum shipmentId db v.revenue = revenueSum shipmentId db (·.amount) ∧
        costSum shipmentId db v.cost = costSum shipmentId db (·.amount) := by
  have hrevenueSum : WholeCents (revenueSum shipmentId db v.revenue) :=
    wholeCents_revenueSum fun r hr hs => Commercial.wholeCents_of_convert (hconverted.revenue r hr hs)
  have hcostSum : WholeCents (costSum shipmentId db v.cost) :=
    wholeCents_costSum fun c hc hs => Commercial.wholeCents_of_convert (hconverted.cost c hc hs)
  have hrevenueAmounts := wholeCents_revenueSum hrevenue
  have hcostAmounts := wholeCents_costSum hcost
  have hrevenueNear := total_double_near hrevenues
  have hcostNear := total_double_near hcosts
  have hprofitNear := abs_double_sub_near hrevenues hcosts
  rw [← revenueTotal_eq, sum_revenueAmounts] at hrevenueNear
  rw [← costTotal_eq, sum_costAmounts] at hcostNear
  rw [← revenueTotal_eq, sum_revenueAmounts, ← costTotal_eq, sum_costAmounts] at hprofitNear
  have hrevenueCents : cents (revenueTotal (revenueLinesOf orders shipmentId db) fun _ => true) =
      revenueSum shipmentId db (·.amount) :=
    roundTo_eq_of_near nearestEven_nearest hrevenueAmounts (hrevenueNear.trans_lt (by norm_num))
  have hcostCents : cents (costTotal (costLinesOf orders shipmentId db) fun _ => true) =
      costSum shipmentId db (·.amount) :=
    roundTo_eq_of_near nearestEven_nearest hcostAmounts (hcostNear.trans_lt (by norm_num))
  have hprofitCents := roundTo_eq_of_near nearestEven_nearest (hrevenueAmounts.sub hcostAmounts)
    hprofitNear
  have hrevenueIff : Negligible (revenueChange orders shipmentId db v)
      (revenueSum shipmentId db v.revenue) ↔
        revenueSum shipmentId db v.revenue = revenueSum shipmentId db (·.amount) := by
    unfold revenueChange
    rw [← cents_eq_iff hrevenueSum, hrevenueCents, eq_comm]
  have hcostIff : Negligible (costChange orders shipmentId db v) (costSum shipmentId db v.cost) ↔
      costSum shipmentId db v.cost = costSum shipmentId db (·.amount) := by
    unfold costChange
    rw [← cents_eq_iff hcostSum, hcostCents, eq_comm]
  constructor
  · intro h
    exact ⟨hrevenueIff.mp h.revenue, hcostIff.mp h.cost⟩
  · rintro ⟨hr, hc⟩
    refine ⟨hrevenueIff.mpr hr, hcostIff.mpr hc, ?_⟩
    unfold profitChange
    rw [← cents_eq_iff (hrevenueSum.sub hcostSum), hr, hc]
    exact hprofitCents

end Report

section Runs
open Verbatim

def chargeIn (id : Uuid) (currency : String) (amount : Money) : RevenueLine where
  id := id
  shipmentId := 1
  chargeCode := "OFR"
  description := none
  quantity := 1
  unitRate := none
  amount := amount
  currencyCode := some currency
  status := .estimated
  isAdditional := false
  quotationLineId := none
  createdBy := none

def costIn (id : Uuid) (currency : String) (amount : Money) : CostLine where
  id := id
  shipmentId := 1
  vendorId := none
  carrierId := none
  chargeCode := some "OFR"
  description := none
  quantity := 1
  unitRate := none
  amount := amount
  currencyCode := some currency
  status := .accrued
  isAdditional := false
  quotationLineId := none
  createdBy := none

/-- A dollar is worth 280 rupees, and a euro 308. -/
def rupeeRates : StoredRates where
  baseCurrency := "PKR"
  rates := [⟨1, "USD", ⟨2026, 1, 1⟩, 280, "SBP"⟩, ⟨2, "EUR", ⟨2026, 1, 1⟩, 308, "SBP"⟩]
  onDate := ⟨2026, 1, 15⟩

/-- Freight of 1000 dollars, that costs the second amount. -/
def freightAt (currency : String) (cost : Money) : Database :=
  { shipped with
    revenueLines := ⟨[chargeIn 1 "USD" 1000], List.nodup_singleton _⟩
    costLines := ⟨[costIn 1 currency cost], List.nodup_singleton _⟩ }

/-- The cost is worth so much in dollars; the revenue is in dollars as it stands. -/
def inDollars (cost : Money) : LineValues := ⟨(·.amount), fun _ => cost⟩

theorem convertedTo_inDollars {currency : String} {cost value : Money}
    (h : rupeeRates.convert (double cost) (currencyOf (some currency)) "USD" = .ok value) :
    ConvertedTo rupeeRates "USD" 1 (freightAt currency cost) (inDollars value) := by
  constructor
  · intro r hr _
    obtain rfl : r = chargeIn 1 "USD" 1000 := List.mem_singleton.mp hr
    change rupeeRates.convert (double 1000) "USD" "USD" = .ok 1000
    decide +kernel
  · intro c hc _
    obtain rfl : c = costIn 1 currency cost := List.mem_singleton.mp hc
    exact h

end Runs

end Friet.Financial
