import Friet.Commercial.Steps

/-!
# What an acceptance hands over

The lines of the quotation become the ledgers of the new shipment, with their
charge codes and amounts. The currency of their option and the customer of the
request for quotation do not go with them.
-/

set_option autoImplicit false

namespace Friet.Commercial

open Session Rounding

structure LedgerEntry where
  chargeCode : Option String
  amount : Money
  currencyCode : Option String
  deriving DecidableEq

def revenueEntries (shipmentId : Uuid) (db : Database) : List LedgerEntry :=
  (db.revenueLines.rows.filter (·.shipmentId = shipmentId)).map fun r =>
    ⟨some r.chargeCode, r.amount, r.currencyCode⟩

def costEntries (shipmentId : Uuid) (db : Database) : List LedgerEntry :=
  (db.costLines.rows.filter (·.shipmentId = shipmentId)).map fun c =>
    ⟨c.chargeCode, c.amount, c.currencyCode⟩

/-- The currency of the option that the line belongs to. -/
def lineCurrency (db : CommercialDatabase) (l : QuotationLine) : Option String :=
  (db.quotationOptions.find? l.quotationOptionId).map (·.currencyCode)

/-- One entry for each line of the quotation, in the currency of its option. -/
def quotedEntries (amountOf : QuotationLine → Money) (quotationId : Uuid)
    (db : CommercialDatabase) : List LedgerEntry :=
  (quotedLines quotationId db).map fun l => ⟨some l.chargeCode, amountOf l, lineCurrency db l⟩

def totalIn (currency : String) (es : List LedgerEntry) : Money :=
  ((es.filter fun e => e.currencyCode = some currency).map (·.amount)).sum

def optionTotal (amountOf : QuotationOption → Money) (quotationId : Uuid) (currency : String)
    (db : CommercialDatabase) : Money :=
  db.quotationOptions.sum (fun o => o.quotationId = quotationId ∧ o.currencyCode = currency)
    amountOf

/-- Job and shipment are the customer's who asked, and the ledgers are the quotation's lines. -/
structure HandedOver (db db' : CommercialDatabase) (q : Quotation) (rfq : Rfq)
    (o : AcceptedQuotation) : Prop where
  job : ∃ j ∈ db'.jobs, j.id = o.jobId ∧ j.quotationId = q.id ∧ j.customerId = rfq.customerId
  shipment : ∃ s ∈ db'.shipments, s.id = o.shipmentId ∧ s.jobId = some o.jobId ∧
    s.customerId = rfq.customerId
  revenue : (revenueEntries o.shipmentId db'.toDatabase).Perm
    (quotedEntries (·.sellAmount) q.id db)
  costs : (costEntries o.shipmentId db'.toDatabase).Perm (quotedEntries (·.costAmount) q.id db)
  revenueTotal : ∀ currency, totalIn currency (revenueEntries o.shipmentId db'.toDatabase) =
    optionTotal (·.totalSell) q.id currency db
  costTotal : ∀ currency, totalIn currency (costEntries o.shipmentId db'.toDatabase) =
    optionTotal (·.totalCost) q.id currency db

/-- What the foreign keys and the precision of the columns say. -/
structure Stored (db : CommercialDatabase) : Prop where
  revenueLines : ∀ r ∈ db.revenueLines, ∃ s ∈ db.shipments, s.id = r.shipmentId
  costLines : ∀ c ∈ db.costLines, ∃ s ∈ db.shipments, s.id = c.shipmentId
  sells : ∀ l ∈ db.quotationLines, OnGrid 4 l.sellAmount
  costs : ∀ l ∈ db.quotationLines, OnGrid 4 l.costAmount

/-- The acceptance names nobody else, every line is quoted in dollars, and the lines add up to their
options. -/
structure KeepsTerms [Text] (a : AcceptQuotation) (db : CommercialDatabase) (q : Quotation)
    (rfq : Rfq) : Prop where
  owner : (parsed a.customerId).getD rfq.customerId = rfq.customerId
  dollars : ∀ l ∈ quotedLines q.id db, lineCurrency db l = some "USD"
  sells : ∀ currency, totalIn currency (quotedEntries (·.sellAmount) q.id db) =
    optionTotal (·.totalSell) q.id currency db
  costs : ∀ currency, totalIn currency (quotedEntries (·.costAmount) q.id db) =
    optionTotal (·.totalCost) q.id currency db

theorem totalIn_perm {currency : String} {es es' : List LedgerEntry} (h : es.Perm es') :
    totalIn currency es = totalIn currency es' := ((h.filter _).map _).sum_eq

section Acceptance
variable [Text] {caller : Caller} {a : AcceptQuotation} {db db' : CommercialDatabase}
  {r : AcceptRead}

omit [Text] in
theorem mem_of_copied {l : QuotationLine} (h : l ∈ copiedLines a r db) : l ∈ db.quotationLines :=
  (List.mem_filter.mp ((RowOrder.mem_arrange _).mp h)).1

omit [Text] in
theorem ne_freshKey {shipmentId : Uuid} (h : ∃ s ∈ db.shipments, s.id = shipmentId) :
    decide (shipmentId = db.shipments.freshKey) = false := by
  obtain ⟨s, hs, rfl⟩ := h
  have hlt : s.id < db.shipments.freshKey := Table.key_lt_freshKey hs
  exact decide_eq_false (ne_of_lt hlt)

omit [Text] in
/-- The new shipment's entries are the copied lines, in dollars. -/
theorem revenueEntries_acceptedTables (hdb : Stored db) :
    revenueEntries db.shipments.freshKey (acceptedTables caller a r db).toDatabase =
      (copiedLines a r db).map fun l => ⟨some l.chargeCode, l.sellAmount, some "USD"⟩ := by
  calc revenueEntries db.shipments.freshKey (acceptedTables caller a r db).toDatabase
      = (copiedLines a r db).map fun l =>
          ⟨some l.chargeCode, column 4 l.sellAmount, some "USD"⟩ :=
        Table.map_filter_foldl_insert (fun l : RevenueLine => l.shipmentId = db.shipments.freshKey) _
          (fun l hl => ne_freshKey (hdb.revenueLines l hl)) (fun _ _ => decide_eq_true rfl)
          fun _ _ => rfl
    _ = _ := by
        apply List.map_congr_left
        intro l hl
        rw [column, roundTo_of_onGrid nearestAway_nearest (hdb.sells l (mem_of_copied hl))]

omit [Text] in
theorem costEntries_acceptedTables (hdb : Stored db) :
    costEntries db.shipments.freshKey (acceptedTables caller a r db).toDatabase =
      (copiedLines a r db).map fun l => ⟨some l.chargeCode, l.costAmount, some "USD"⟩ := by
  calc costEntries db.shipments.freshKey (acceptedTables caller a r db).toDatabase
      = (copiedLines a r db).map fun l =>
          ⟨some l.chargeCode, column 4 l.costAmount, some "USD"⟩ :=
        Table.map_filter_foldl_insert (fun l : CostLine => l.shipmentId = db.shipments.freshKey) _
          (fun l hl => ne_freshKey (hdb.costLines l hl)) (fun _ _ => decide_eq_true rfl)
          fun _ _ => rfl
    _ = _ := by
        apply List.map_congr_left
        intro l hl
        rw [column, roundTo_of_onGrid nearestAway_nearest (hdb.costs l (mem_of_copied hl))]

omit [Text] in
theorem copies_perm_iff {amountOf : QuotationLine → Money} :
    (((copiedLines a r db).map fun l => (⟨some l.chargeCode, amountOf l, some "USD"⟩ : LedgerEntry)).Perm
        (quotedEntries amountOf r.quote.id db)) ↔
      ∀ l ∈ quotedLines r.quote.id db, lineCurrency db l = some "USD" := by
  constructor
  · intro h l hl
    have hmem := h.mem_iff.mpr (List.mem_map.mpr ⟨l, hl, rfl⟩)
    obtain ⟨l', _, heq⟩ := List.mem_map.mp hmem
    exact (congrArg LedgerEntry.currencyCode heq).symm
  · intro h
    have hentries : quotedEntries amountOf r.quote.id db =
        (quotedLines r.quote.id db).map fun l => ⟨some l.chargeCode, amountOf l, some "USD"⟩ :=
      List.map_congr_left fun l hl => by rw [h l hl]
    rw [hentries]
    exact (a.lineOrder.perm _).map _

theorem handedOver_iff {o : AcceptedQuotation} {q : Quotation} {rfq : Rfq} (hdb : Stored db)
    (h : (acceptQuotation caller a).run db = .ok o db')
    (hq : q ∈ db.quotations ∧ q.id = o.quotationId) (hrfq : rfq ∈ db.rfqs ∧ rfq.id = q.rfqId) :
    HandedOver db db' q rfq o ↔ KeepsTerms a db q rfq := by
  obtain ⟨r, hr, hfree, rfl, rfl⟩ := run_acceptQuotation_ok.mp h
  obtain rfl : r.quote = q := Table.eq_of_key_eq hr.quote.1 hq.1 hq.2.symm
  obtain rfl : r.rfq = rfq := Table.eq_of_key_eq hr.rfq.1 hrfq.1 (hr.rfq.2.trans hrfq.2.symm)
  have hrevenue : revenueEntries db.shipments.freshKey (acceptedTables caller a r db).toDatabase = _ :=
    revenueEntries_acceptedTables hdb
  have hcosts : costEntries db.shipments.freshKey (acceptedTables caller a r db).toDatabase = _ :=
    costEntries_acceptedTables hdb
  constructor
  · intro h
    obtain ⟨j, hj, hid, _, hcustomer⟩ := h.job
    obtain rfl : j = newJob caller r (jobNumber caller r.rfq db) db.jobs.freshKey :=
      Table.eq_of_key_eq hj Table.mem_insert_self hid
    exact ⟨hr.customer.2.1.symm.trans hcustomer, copies_perm_iff.mp (hrevenue ▸ h.revenue),
      fun currency => (totalIn_perm h.revenue).symm.trans (h.revenueTotal currency),
      fun currency => (totalIn_perm h.costs).symm.trans (h.costTotal currency)⟩
  · intro h
    have hrevenuePerm : (revenueEntries db.shipments.freshKey
        (acceptedTables caller a r db).toDatabase).Perm
          (quotedEntries (·.sellAmount) r.quote.id db) := by
      rw [hrevenue]
      exact copies_perm_iff.mpr h.dollars
    have hcostPerm : (costEntries db.shipments.freshKey
        (acceptedTables caller a r db).toDatabase).Perm
          (quotedEntries (·.costAmount) r.quote.id db) := by
      rw [hcosts]
      exact copies_perm_iff.mpr h.dollars
    have hcustomer : r.customer.id = r.rfq.customerId := hr.customer.2.1.trans h.owner
    exact ⟨⟨_, Table.mem_insert_self, rfl, rfl, hcustomer⟩,
      ⟨_, Table.mem_insert_self, rfl, rfl, hcustomer⟩, hrevenuePerm, hcostPerm,
      fun currency => (totalIn_perm hrevenuePerm).trans (h.sells currency),
      fun currency => (totalIn_perm hcostPerm).trans (h.costs currency)⟩

end Acceptance

section Verbatim
open Friet.Verbatim Commercial.Verbatim

def sentQuotation : Quotation where
  id := 1
  tenantId := 1
  quotationNumber := "QT-1"
  rfqId := 1
  status := .sentToCustomer
  expiryDate := some ⟨2026, 1, 29⟩
  sentAt := some 0
  totalAmount := some 110

def bestAvailable (currencyCode : String) : QuotationOption where
  id := 1
  quotationId := 1
  label := "BEST_AVAILABLE"
  primaryRateVersionId := some 1
  totalCost := 100
  totalSell := 110
  grossMargin := 10
  marginPct := 90909 / 10000
  currencyCode := currencyCode
  isBelowMargin := false

def quotedFreight : QuotationLine := ⟨1, 1, "OFR", some "FREIGHT", some 1, 100, 110⟩

def quotedLane (currencyCode : String) : CommercialDatabase :=
  { lane (freight 100) with
    quotations := ⟨[sentQuotation], List.nodup_singleton _⟩
    quotationOptions := ⟨[bestAvailable currencyCode], List.nodup_singleton _⟩
    quotationLines := ⟨[quotedFreight], List.nodup_singleton _⟩ }

theorem quotedLane_stored (currencyCode : String) : Stored (quotedLane currencyCode) where
  revenueLines r hr := absurd hr (Table.not_mem_empty r)
  costLines c hc := absurd hc (Table.not_mem_empty c)
  sells l hl := by
    rw [List.mem_singleton.mp hl]
    exact OnGrid.natCast 110
  costs l hl := by
    rw [List.mem_singleton.mp hl]
    exact OnGrid.natCast 100

theorem handedOver_dollars : ∃ o db',
    (acceptQuotation clerk (acceptOf "1" none)).run (quotedLane "USD") = .ok o db' ∧
      (HandedOver (quotedLane "USD") db' sentQuotation flatRfq o ↔
        KeepsTerms (acceptOf "1" none) (quotedLane "USD") sentQuotation flatRfq) := by
  have hin : Succeeds (acceptQuotation clerk (acceptOf "1" none)) (quotedLane "USD") := by
    decide +kernel
  obtain ⟨o, db', hrun⟩ := hin
  have hid : sentQuotation.id = o.quotationId := by
    obtain ⟨r, hr, _, rfl, _⟩ := run_acceptQuotation_ok.mp hrun
    exact congrArg Quotation.id (List.mem_singleton.mp hr.quote.1).symm
  exact ⟨o, db', hrun, handedOver_iff (quotedLane_stored "USD") hrun
    ⟨List.mem_singleton_self _, hid⟩ ⟨List.mem_singleton_self _, rfl⟩⟩

/-- A quotation in euros, accepted in another customer's name: the job is the other's, and the
ledger is in dollars. -/
theorem euros_become_dollars : ∃ o db',
    (acceptQuotation clerk (acceptOf "1" (some "2"))).run (quotedLane "EUR") = .ok o db' ∧
      (∃ j ∈ db'.jobs, j.id = o.jobId ∧ j.customerId = 2) ∧
      ¬ HandedOver (quotedLane "EUR") db' sentQuotation flatRfq o := by
  have hin : Succeeds (acceptQuotation clerk (acceptOf "1" (some "2"))) (quotedLane "EUR") := by
    decide +kernel
  obtain ⟨o, db', hrun⟩ := hin
  refine ⟨o, db', hrun, ?_⟩
  obtain ⟨r, hr, _, rfl, rfl⟩ := run_acceptQuotation_ok.mp hrun
  have hcustomer : r.customer.id = 2 := hr.customer.2.1
  refine ⟨⟨_, Table.mem_insert_self, rfl, hcustomer⟩, fun h => ?_⟩
  obtain ⟨quote, rfq, customer⟩ := r
  obtain rfl : quote = sentQuotation := List.mem_singleton.mp hr.quote.1
  have hdollars := copies_perm_iff.mp
    (revenueEntries_acceptedTables (quotedLane_stored "EUR") ▸ h.revenue)
  have hline : quotedFreight ∈ quotedLines 1 (quotedLane "EUR") :=
    List.mem_filter.mpr ⟨List.mem_singleton_self _, by decide⟩
  exact absurd (hdollars quotedFreight hline) (by decide)

end Verbatim

end Friet.Commercial
