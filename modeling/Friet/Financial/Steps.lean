import Friet.Financial.Service

/-!
# What each ledger operation does

Adding a line inserts it and touches nothing but the negative-margin exception;
a correction rewrites one entry and inserts two.
-/

set_option autoImplicit false

namespace Friet.Financial

open Session Rounding

/-- The exact sum over the lines of a shipment that count. -/
def revenueOf (shipmentId : Uuid) (db : Database) (p : RevenueLine → Bool) : Money :=
  db.revenueLines.sum (fun r => r.shipmentId = shipmentId ∧ p r) (·.amount)

def costOf (shipmentId : Uuid) (db : Database) (p : CostLine → Bool) : Money :=
  db.costLines.sum (fun c => c.shipmentId = shipmentId ∧ p c) (·.amount)

section Figures
open Exact
variable {orders : LedgerOrders} {shipmentId : Uuid} {db : Database}

theorem sum_arranged {ρ : Type} (o : RowOrder ρ) (rows : List ρ) (p q : ρ → Bool)
    (amount : ρ → Money) :
    (((o.arrange (rows.filter p)).filter q).map amount).sum =
      ((rows.filter fun r => p r && q r).map amount).sum := by
  have hperm := (((o.perm (rows.filter p)).filter q).map amount).sum_eq
  rw [hperm, List.filter_filter]
  simp only [Bool.and_comm]

theorem sum_revenueLinesOf (p : RevenueLine → Bool) :
    (((revenueLinesOf orders shipmentId db).filter p).map (·.amount)).sum =
      revenueOf shipmentId db p := by
  unfold revenueLinesOf revenueOf Table.sum
  rw [sum_arranged]
  simp

theorem revenueTotal_exact (orders : LedgerOrders) (p : RevenueLine → Bool) :
    revenueTotal (revenueLinesOf orders shipmentId db) p = revenueOf shipmentId db p := by
  unfold revenueTotal
  simp only [total_exact, fl_eq]
  exact sum_revenueLinesOf p

theorem costTotal_exact (orders : LedgerOrders) (p : CostLine → Bool) :
    costTotal (costLinesOf orders shipmentId db) p = costOf shipmentId db p := by
  unfold costTotal costLinesOf costOf Table.sum
  simp only [total_exact, fl_eq]
  rw [sum_arranged]
  simp

theorem grossProfit_exact : (profitabilityOf orders shipmentId db).grossProfit =
    cents (revenueOf shipmentId db (fun _ => true) - costOf shipmentId db fun _ => true) := by
  rw [← revenueTotal_exact orders, ← costTotal_exact orders]
  rfl

end Figures

section Exception
variable [Text] {caller : Caller} {db db' : Database}

theorem keepsKey_restate (shipmentId : Uuid) (p : Profitability) :
    KeepsKey (ShipmentException.restate (lossDescription shipmentId p) |p.grossProfit|) :=
  ⟨fun _ => rfl⟩

omit [Text] in
theorem keepsKey_recover (caller : Caller) : KeepsKey (ShipmentException.recover caller.now) :=
  ⟨fun _ => rfl⟩

theorem takesKey_lossException (caller : Caller) (shipmentId : Uuid) (p : Profitability) :
    TakesKey (lossException caller shipmentId p) :=
  ⟨fun _ => rfl⟩

/-- The exceptions after the synchronisation has found the active one, or none. -/
def synced (caller : Caller) (shipmentId : Uuid) (p : Profitability)
    (t : Table ShipmentException) : Option ShipmentException → Table ShipmentException
  | some e =>
    if p.grossProfit < 0 then
      t.update e.id (ShipmentException.restate (lossDescription shipmentId p) |p.grossProfit|)
        (keepsKey_restate shipmentId p)
    else t.update e.id (ShipmentException.recover caller.now) (keepsKey_recover caller)
  | none =>
    if p.grossProfit < 0 then
      t.insert (lossException caller shipmentId p) (takesKey_lossException caller shipmentId p)
    else t

theorem run_syncNegativeMarginException_ok {shipmentId : Uuid} {p : Profitability} {u : Unit} :
    (syncNegativeMarginException caller shipmentId p).run db = .ok u db' ↔
      ∃ o, db.shipmentExceptions.rows.filter (openLoss caller shipmentId) = o.toList ∧
        db' = { db with
          shipmentExceptions := synced caller shipmentId p db.shipmentExceptions o } := by
  unfold syncNegativeMarginException
  simp only [run_get_bind_ok, run_scalarOneOrNone_bind_ok]
  apply exists_congr
  intro existing
  apply and_congr_right
  intro _
  cases existing with
  | some e =>
    simp only [run_modify_ok]
    exact eq_comm
  | none =>
    unfold synced
    split_ifs with hneg
    · simp only [addShipmentException, run_modifyGet_bind_ok, run_pure_ok, true_and]
      exact eq_comm
    · simp only [run_pure_ok, true_and]
      exact eq_comm

end Exception

section Lines
variable [Text] [Arithmetic] {caller : Caller} {db db' : Database} {orders : LedgerOrders}

theorem run_getProfitability_ok {shipmentId tenantId : Uuid} {p : Profitability} :
    (getProfitability orders shipmentId tenantId).run db = .ok p db' ↔
      (∃ s ∈ db.shipments, s.id = shipmentId ∧ s.tenantId = tenantId) ∧
        p = profitabilityOf orders shipmentId db ∧ db = db' := by
  unfold getProfitability
  simp only [run_getTenantShipment_bind_ok, run_get_bind_ok, run_pure_ok]
  constructor
  · rintro ⟨s, hs, rfl, rfl⟩
    exact ⟨⟨s, hs⟩, rfl, rfl⟩
  · rintro ⟨⟨s, hs⟩, rfl, rfl⟩
    exact ⟨s, hs, rfl, rfl⟩

theorem run_getProfitability_bind_ok {β : Type} {shipmentId tenantId : Uuid}
    {f : Profitability → Service β} {b : β} :
    (getProfitability orders shipmentId tenantId >>= f).run db = .ok b db' ↔
      (∃ s ∈ db.shipments, s.id = shipmentId ∧ s.tenantId = tenantId) ∧
        (f (profitabilityOf orders shipmentId db)).run db = .ok b db' := by
  rw [run_reads_bind_ok fun _ _ => run_getProfitability_ok.trans and_assoc.symm]
  constructor
  · rintro ⟨_, ⟨hs, rfl⟩, h⟩
    exact ⟨hs, h⟩
  · rintro ⟨hs, h⟩
    exact ⟨_, ⟨hs, rfl⟩, h⟩

theorem takesKey_revenueLineRow (caller : Caller) (a : AddRevenueLine)
    (status : RevenueLineStatus) : TakesKey (revenueLineRow caller a status) :=
  ⟨fun _ => rfl⟩

theorem takesKey_costLineRow (caller : Caller) (a : AddCostLine) (status : CostLineStatus) :
    TakesKey (costLineRow caller a status) :=
  ⟨fun _ => rfl⟩

/-- What `addRevenueLine` checks before it writes. -/
structure AddRevenueLine.Accepted (caller : Caller) (a : AddRevenueLine) (db : Database)
    (status : RevenueLineStatus) : Prop where
  amount : 0 ≤ a.amount
  chargeCode : a.chargeCode ≠ "" ∧ Text.strip a.chargeCode ≠ ""
  status : RevenueLineStatus.parse (upper (Text.strip a.status)) = some status
  shipment : ∃ s ∈ db.shipments, s.id = a.shipmentId ∧ s.tenantId = caller.tenantId
  quotationLine : ∀ q, a.quotationLineId = some q → (db.quotationLines.find? q).isSome = true

structure AddCostLine.Accepted (caller : Caller) (a : AddCostLine) (db : Database)
    (status : CostLineStatus) : Prop where
  amount : 0 ≤ a.amount
  chargeCode : a.chargeCode ≠ "" ∧ Text.strip a.chargeCode ≠ ""
  status : CostLineStatus.parse (upper (Text.strip a.status)) = some status
  shipment : ∃ s ∈ db.shipments, s.id = a.shipmentId ∧ s.tenantId = caller.tenantId
  vendor : ∀ v, a.vendorId = some v →
    (db.vendors.findWhere v (·.tenantId = caller.tenantId)).isSome = true
  carrier : ∀ c, a.carrierId = some c → (db.carriers.find? c).isSome = true
  quotationLine : ∀ q, a.quotationLineId = some q → (db.quotationLines.find? q).isSome = true

omit [Text] [Arithmetic] in
theorem keepsKey_revenueStored : KeepsKey RevenueLine.stored := ⟨fun _ => rfl⟩

omit [Text] [Arithmetic] in
theorem keepsKey_costStored : KeepsKey CostLine.stored := ⟨fun _ => rfl⟩

/-- The row as the next transaction finds it. -/
def storedRevenueLine (caller : Caller) (a : AddRevenueLine) (status : RevenueLineStatus)
    (id : Uuid) : RevenueLine := RevenueLine.stored (revenueLineRow caller a status id)

def storedCostLine (caller : Caller) (a : AddCostLine) (status : CostLineStatus) (id : Uuid) :
    CostLine := CostLine.stored (costLineRow caller a status id)

theorem takesKey_storedRevenueLine (caller : Caller) (a : AddRevenueLine)
    (status : RevenueLineStatus) : TakesKey (storedRevenueLine caller a status) :=
  (takesKey_revenueLineRow caller a status).map keepsKey_revenueStored

theorem takesKey_storedCostLine (caller : Caller) (a : AddCostLine) (status : CostLineStatus) :
    TakesKey (storedCostLine caller a status) :=
  (takesKey_costLineRow caller a status).map keepsKey_costStored

/-- The ledger with the line as it was given, before it is stored. -/
def withRevenueLine (caller : Caller) (a : AddRevenueLine) (status : RevenueLineStatus)
    (db : Database) : Database :=
  { db with
    revenueLines := db.revenueLines.insert (revenueLineRow caller a status)
      (takesKey_revenueLineRow caller a status) }

def withCostLine (caller : Caller) (a : AddCostLine) (status : CostLineStatus) (db : Database) :
    Database :=
  { db with
    costLines := db.costLines.insert (costLineRow caller a status)
      (takesKey_costLineRow caller a status) }

def withStoredRevenueLine (caller : Caller) (a : AddRevenueLine) (status : RevenueLineStatus)
    (db : Database) : Database :=
  { db with
    revenueLines := db.revenueLines.insert (storedRevenueLine caller a status)
      (takesKey_storedRevenueLine caller a status) }

def withStoredCostLine (caller : Caller) (a : AddCostLine) (status : CostLineStatus)
    (db : Database) : Database :=
  { db with
    costLines := db.costLines.insert (storedCostLine caller a status)
      (takesKey_storedCostLine caller a status) }

/-- Storing the new line comes to inserting it as it is stored. -/
theorem store_revenueLine {a : AddRevenueLine} {status : RevenueLineStatus}
    {t : Table ShipmentException} :
    { withRevenueLine caller a status db with
      shipmentExceptions := t
      revenueLines := (withRevenueLine caller a status db).revenueLines.update
        db.revenueLines.freshKey RevenueLine.stored keepsKey_revenueStored } =
      { withStoredRevenueLine caller a status db with shipmentExceptions := t } := by
  unfold withRevenueLine withStoredRevenueLine
  dsimp only
  rw [Table.update_insert]
  rfl

theorem store_costLine {a : AddCostLine} {status : CostLineStatus} {t : Table ShipmentException} :
    { withCostLine caller a status db with
      shipmentExceptions := t
      costLines := (withCostLine caller a status db).costLines.update
        db.costLines.freshKey CostLine.stored keepsKey_costStored } =
      { withStoredCostLine caller a status db with shipmentExceptions := t } := by
  unfold withCostLine withStoredCostLine
  dsimp only
  rw [Table.update_insert]
  rfl

theorem run_addRevenueLine_iff {a : AddRevenueLine} {line : RevenueLine} :
    (addRevenueLine caller a).run db = .ok line db' ↔
      ∃ status, a.Accepted caller db status ∧
        line = revenueLineRow caller a status db.revenueLines.freshKey ∧
        ∃ o, db.shipmentExceptions.rows.filter (openLoss caller a.shipmentId) = o.toList ∧
          db' = { withStoredRevenueLine caller a status db with
            shipmentExceptions := synced caller a.shipmentId
              (profitabilityOf .stored a.shipmentId (withRevenueLine caller a status db))
              db.shipmentExceptions o } := by
  unfold addRevenueLine addRevenueLineRow
  simp only [run_failIf_bind_ok, run_orFail_bind_ok, run_getTenantShipment_bind_ok, run_get_bind_ok,
    run_checkGiven_bind_ok, run_modifyGet_bind_ok, run_getProfitability_bind_ok]
  simp only [run_bind_ok, run_syncNegativeMarginException_ok, run_modify_ok, run_pure_ok]
  constructor
  · rintro ⟨hamount, hcode, status, hstatus, s, hs, hline, _, _, _, ⟨o, ho, rfl⟩, _, _, rfl, rfl,
      rfl⟩
    push Not at hamount hcode
    exact ⟨status, ⟨hamount, hcode, hstatus, ⟨s, hs⟩, hline⟩, rfl, o, ho, store_revenueLine⟩
  · rintro ⟨status, ⟨hamount, hcode, hstatus, ⟨s, hs⟩, hline⟩, rfl, o, ho, rfl⟩
    exact ⟨not_lt.mpr hamount, not_or.mpr hcode, status, hstatus, s, hs, hline, ⟨s, hs⟩, (), _,
      ⟨o, ho, rfl⟩, (), _, store_revenueLine, rfl, rfl⟩

theorem run_addCostLine_iff {a : AddCostLine} {line : CostLine} :
    (addCostLine caller a).run db = .ok line db' ↔
      ∃ status, a.Accepted caller db status ∧
        line = costLineRow caller a status db.costLines.freshKey ∧
        ∃ o, db.shipmentExceptions.rows.filter (openLoss caller a.shipmentId) = o.toList ∧
          db' = { withStoredCostLine caller a status db with
            shipmentExceptions := synced caller a.shipmentId
              (profitabilityOf .stored a.shipmentId (withCostLine caller a status db))
              db.shipmentExceptions o } := by
  unfold addCostLine addCostLineRow
  simp only [run_failIf_bind_ok, run_orFail_bind_ok, run_getTenantShipment_bind_ok, run_get_bind_ok,
    run_checkGiven_bind_ok, run_modifyGet_bind_ok, run_getProfitability_bind_ok]
  simp only [run_bind_ok, run_syncNegativeMarginException_ok, run_modify_ok, run_pure_ok]
  constructor
  · rintro ⟨hamount, hcode, status, hstatus, s, hs, hvendor, hcarrier, hline, _, _, _, ⟨o, ho, rfl⟩,
      _, _, rfl, rfl, rfl⟩
    push Not at hamount hcode
    exact ⟨status, ⟨hamount, hcode, hstatus, ⟨s, hs⟩, hvendor, hcarrier, hline⟩, rfl, o, ho,
      store_costLine⟩
  · rintro ⟨status, ⟨hamount, hcode, hstatus, ⟨s, hs⟩, hvendor, hcarrier, hline⟩, rfl, o, ho, rfl⟩
    exact ⟨not_lt.mpr hamount, not_or.mpr hcode, status, hstatus, s, hs, hvendor, hcarrier, hline,
      ⟨s, hs⟩, (), _, ⟨o, ho, rfl⟩, (), _, store_costLine, rfl, rfl⟩

theorem run_addRevenueLine_ok {a : AddRevenueLine} {line : RevenueLine}
    (h : (addRevenueLine caller a).run db = .ok line db') :
    ∃ status, db' = { db with
      revenueLines := db.revenueLines.insert (storedRevenueLine caller a status)
        (takesKey_storedRevenueLine caller a status)
      shipmentExceptions := db'.shipmentExceptions } := by
  obtain ⟨status, _, _, _, _, rfl⟩ := run_addRevenueLine_iff.mp h
  exact ⟨status, rfl⟩

theorem run_addCostLine_ok {a : AddCostLine} {line : CostLine}
    (h : (addCostLine caller a).run db = .ok line db') :
    ∃ status, db' = { db with
      costLines := db.costLines.insert (storedCostLine caller a status)
        (takesKey_storedCostLine caller a status)
      shipmentExceptions := db'.shipmentExceptions } := by
  obtain ⟨status, _, _, _, _, rfl⟩ := run_addCostLine_iff.mp h
  exact ⟨status, rfl⟩

end Lines

section Correction
variable [Text] {caller : Caller} {db db' : Database}

omit [Text] in
theorem keepsKey_reverse (a : ReverseAndCorrect) : KeepsKey (FinancialEntry.reverse a.reason) :=
  ⟨fun _ => rfl⟩

theorem takesKey_reversalEntry (caller : Caller) (a : ReverseAndCorrect) (orig : FinancialEntry) :
    TakesKey (reversalEntry caller a orig) :=
  ⟨fun _ => rfl⟩

/-- The entries after a correction: the original marked, its opposite and its replacement added. -/
def correctedEntries (caller : Caller) (a : ReverseAndCorrect) (orig : FinancialEntry)
    (t : Table FinancialEntry) : Table FinancialEntry :=
  let reversed := t.update orig.id (FinancialEntry.reverse a.reason) (keepsKey_reverse a)
  (reversed.insert (reversalEntry caller a orig) (takesKey_reversalEntry caller a orig)).insert
    (correctedEntry caller a orig reversed.freshKey)

theorem run_reverseAndCorrectEntry_ok {a : ReverseAndCorrect} {c : Correction}
    (h : (reverseAndCorrectEntry caller a).run db = .ok c db') :
    ∃ orig ∈ db.financialEntries, orig.id = a.entryId ∧ orig.tenantId = caller.tenantId ∧
      orig.status = .posted ∧
      db' = { db with
        financialEntries := correctedEntries caller a orig db.financialEntries } := by
  unfold reverseAndCorrectEntry addFinancialEntry at h
  simp only [run_failIf_bind_ok, run_get_bind_ok, run_orFail_bind_ok, run_modify_bind_ok,
    run_modifyGet_bind_ok, run_pure_ok, Table.findWhere_eq_some_iff, decide_eq_true_eq] at h
  obtain ⟨_, _, orig, ⟨ho, hid, htenant⟩, hposted, _, rfl⟩ := h
  exact ⟨orig, ho, hid, htenant, not_not.mp hposted, rfl⟩

end Correction

end Friet.Financial
