import Friet.Invoicing.Steps

/-!
# The header of an invoice and its lines

A converted line is in whole cents, and so is every tax. An amount that is billed as it
stands may not be: line totals and the grand total are rounded, each for itself.
-/

set_option autoImplicit false

namespace Friet.Invoicing

open Session Rounding Exact

structure HeaderEqualsLines (db : Database) (i : Invoice) : Prop where
  subtotal : i.subtotalAmount = db.invoiceLines.sum (·.invoiceId = i.id) (·.amount)
  tax : i.taxAmount = db.invoiceLines.sum (·.invoiceId = i.id) (·.taxAmount)
  total : i.totalAmount = db.invoiceLines.sum (·.invoiceId = i.id) (·.totalAmount)
  additive : i.totalAmount = i.subtotalAmount + i.taxAmount

instance (db : Database) (i : Invoice) : Decidable (HeaderEqualsLines db i) :=
  decidable_of_iff
    (i.subtotalAmount = db.invoiceLines.sum (·.invoiceId = i.id) (·.amount) ∧
      i.taxAmount = db.invoiceLines.sum (·.invoiceId = i.id) (·.taxAmount) ∧
      i.totalAmount = db.invoiceLines.sum (·.invoiceId = i.id) (·.totalAmount) ∧
      i.totalAmount = i.subtotalAmount + i.taxAmount)
    ⟨fun h => ⟨h.1, h.2.1, h.2.2.1, h.2.2.2⟩,
      fun h => ⟨h.subtotal, h.tax, h.total, h.additive⟩⟩

def LinesReferred (db : Database) : Prop :=
  ∀ l ∈ db.invoiceLines, ∃ i ∈ db.invoices, i.id = l.invoiceId

instance (db : Database) : Decidable (LinesReferred db) :=
  inferInstanceAs (Decidable (∀ l ∈ db.invoiceLines, ∃ i ∈ db.invoices, i.id = l.invoiceId))

def BilledTo (a : GenerateInvoice) (db : Database) (customer : Customer) : Prop :=
  ∃ s ∈ db.shipments, s.id = a.shipmentId ∧ customer ∈ db.customers ∧ customer.id = s.customerId

def roundingOf (x : Money) : Money := cents x - x

section Conditions
variable [Text]

def rateFor (caller : Caller) (a : GenerateInvoice) (db : Database) (customer : Customer) : ℚ :=
  (lockedRate (a.rateOrder.arrange db.exchangeRates.rows) (targetCurrency a customer)
    caller.today).rateToBase

def taxFor (a : GenerateInvoice) : TaxEvaluation :=
  evaluateTax (some ((given a.taxJurisdiction).getD "NONE")) false

/-- The eligible lines that are billed as they stand. -/
def unconverted (caller : Caller) (a : GenerateInvoice) (db : Database) (customer : Customer) :
    List RevenueLine :=
  (revenueLinesFor a db).filter fun r =>
    ¬ needsConversion (targetCurrency a customer) (rateFor caller a db customer) r

/-- What rounding adds to the unconverted lines with their tax cancels out. -/
def RoundingsCancel (caller : Caller) (a : GenerateInvoice) (db : Database)
    (customer : Customer) : Prop :=
  ((unconverted caller a db customer).map fun r =>
    roundingOf (r.amount + (taxFor a).computeTax r.amount)).sum = 0

instance (caller : Caller) (a : GenerateInvoice) (db : Database) (customer : Customer) :
    Decidable (RoundingsCancel caller a db customer) := inferInstanceAs (Decidable (_ = _))

end Conditions

section Lines
variable {target : String} {rate : ℚ} {tax : TaxEvaluation} {r : RevenueLine}

theorem computeTax_wholeCents (tax : TaxEvaluation) (amount : Money) :
    WholeCents (tax.computeTax amount) := by
  unfold TaxEvaluation.computeTax
  split
  · exact OnGrid.zero
  · exact roundTo_onGrid _ _ _

theorem column_sum {xs : List Money} (h : ∀ x ∈ xs, OnGrid 4 x) :
    column 4 xs.sum = (xs.map (column 4)).sum := by
  have hsame : xs.map (column 4) = xs :=
    (List.map_congr_left fun x hx => roundTo_of_onGrid nearestAway_nearest (h x hx)).trans
      (List.map_id xs)
  rw [hsame]
  exact roundTo_of_onGrid nearestAway_nearest (OnGrid.sum h)

theorem lineAmount_onGrid (h : OnGrid 4 r.amount) : OnGrid 4 (lineAmount target rate r) := by
  unfold lineAmount
  split
  · exact (cents_wholeCents _).of_le (by norm_num)
  · exact h

def unrounded (target : String) (rate : ℚ) (tax : TaxEvaluation) (r : RevenueLine) : Money :=
  lineAmount target rate r + tax.computeTax (lineAmount target rate r)

/-- The line totals of an invoice before they are rounded. -/
def rawTotals (draft : InvoiceDraft) : List Money :=
  draft.revenueLines.map (unrounded draft.currency draft.rate.rateToBase draft.tax)

theorem roundingOf_unrounded : roundingOf (unrounded target rate tax r) =
    if needsConversion target rate r then 0
    else roundingOf (r.amount + tax.computeTax r.amount) := by
  unfold unrounded lineAmount
  split
  · have hwhole : WholeCents (cents (r.amount * rate) + tax.computeTax (cents (r.amount * rate))) :=
      (cents_wholeCents _).add (computeTax_wholeCents tax _)
    unfold roundingOf
    simp only [fl_eq]
    rw [cents_of_wholeCents hwhole, sub_self]
  · rfl

theorem sum_roundingOf (target : String) (rate : ℚ) (tax : TaxEvaluation)
    (rows : List RevenueLine) :
    (rows.map fun r => roundingOf (unrounded target rate tax r)).sum =
      ((rows.filter fun r => ¬ needsConversion target rate r).map fun r =>
        roundingOf (r.amount + tax.computeTax r.amount)).sum := by
  induction rows with
  | nil => rfl
  | cons r rows ih =>
    rw [List.map_cons, List.sum_cons, ih, roundingOf_unrounded]
    by_cases h : needsConversion target rate r
    · rw [if_pos h, zero_add, List.filter_cons_of_neg (by simpa using h)]
    · rw [if_neg h, List.filter_cons_of_pos (by simpa using h), List.map_cons, List.sum_cons]

end Lines

section Invoice
variable [Text] {settings : Settings} {caller : Caller} {a : GenerateInvoice} {db db' : Database}
  {draft : InvoiceDraft} {number : DocumentNumber} {customer : Customer} {d : InvoiceDetail}

theorem sum_invoiceTables (hlines : LinesReferred db) (h : Drafts caller a db draft)
    (f : InvoiceLine → Money) (g : InvoiceLineData → Money)
    (hfg : ∀ data id, f (invoiceLineRow caller.tenantId db.invoices.freshKey data id) = g data) :
    (invoiceTables settings caller a draft number db).invoiceLines.sum
        (·.invoiceId = db.invoices.freshKey) f =
      (draft.revenueLines.map fun r =>
        g (invoiceLineData draft.currency draft.rate.rateToBase draft.tax r)).sum := by
  have hdata : draft.totals.invLinesData = draft.revenueLines.map
      (invoiceLineData draft.currency draft.rate.rateToBase draft.tax) := by
    rw [h.totals, invoiceTotals_eq]
  have hnew : ((invoiceTables settings caller a draft number db).invoiceLines.rows.filter
      (·.invoiceId = db.invoices.freshKey)).map f = draft.totals.invLinesData.map g := by
    refine Table.map_filter_foldl_insert _ f (fun l hl => ?_) (fun data id => ?_) hfg
    · obtain ⟨i, hi, hid⟩ := hlines l hl
      have hlt : i.id < db.invoices.freshKey := Table.key_lt_freshKey hi
      rw [hid] at hlt
      exact decide_eq_false (ne_of_lt hlt)
    · exact decide_eq_true rfl
  unfold Table.sum
  rw [hnew, hdata, List.map_map]
  rfl

theorem Drafts.subtotal_eq (h : Drafts caller a db draft) : draft.totals.subtotal =
    (draft.revenueLines.map (lineAmount draft.currency draft.rate.rateToBase)).sum := by
  rw [h.totals, invoiceTotals_exact]

theorem Drafts.taxTotal_eq (h : Drafts caller a db draft) : draft.totals.taxTotal =
    (draft.revenueLines.map fun r =>
      draft.tax.computeTax (lineAmount draft.currency draft.rate.rateToBase r)).sum := by
  rw [h.totals, invoiceTotals_exact]

theorem Drafts.parts_eq (h : Drafts caller a db draft) :
    draft.totals.subtotal + draft.totals.taxTotal = (rawTotals draft).sum := by
  rw [h.subtotal_eq, h.taxTotal_eq]
  exact List.sum_map_add.symm

theorem Drafts.onGrid_subtotal (h : Drafts caller a db draft)
    (hgrid : ∀ r ∈ db.revenueLines, OnGrid 4 r.amount) : ∀ x ∈ draft.revenueLines.map
      (lineAmount draft.currency draft.rate.rateToBase), OnGrid 4 x :=
  List.forall_mem_map.mpr fun r hr => lineAmount_onGrid (hgrid r (h.mem_revenueLines.mp hr).1)

omit [Text] in
theorem onGrid_taxTotal : ∀ x ∈ draft.revenueLines.map fun r =>
    draft.tax.computeTax (lineAmount draft.currency draft.rate.rateToBase r), OnGrid 4 x :=
  List.forall_mem_map.mpr fun _ _ => (computeTax_wholeCents draft.tax _).of_le (by norm_num)

variable (settings number) in
/-- The stored subtotal and tax are sums of stored amounts, whatever is rounded later. -/
theorem headerEqualsLines_parts (hgrid : ∀ r ∈ db.revenueLines, OnGrid 4 r.amount)
    (hlines : LinesReferred db) (h : Drafts caller a db draft) :
    column 4 draft.totals.subtotal =
        (invoiceTables settings caller a draft number db).invoiceLines.sum
          (·.invoiceId = db.invoices.freshKey) (·.amount) ∧
      column 4 draft.totals.taxTotal =
        (invoiceTables settings caller a draft number db).invoiceLines.sum
          (·.invoiceId = db.invoices.freshKey) (·.taxAmount) := by
  constructor
  · rw [sum_invoiceTables hlines h _ (fun data => column 4 data.amount) fun _ _ => rfl,
      h.subtotal_eq, column_sum (h.onGrid_subtotal hgrid), List.map_map]
    rfl
  · rw [sum_invoiceTables hlines h _ (fun data => column 4 data.taxAmount) fun _ _ => rfl,
      h.taxTotal_eq, column_sum onGrid_taxTotal, List.map_map]
    simp only [invoiceLineData, printedAmount_exact]
    rfl

/-- The header of a new invoice, in terms of the lines it is drawn from. -/
theorem headerEqualsLines_iff (hgrid : ∀ r ∈ db.revenueLines, OnGrid 4 r.amount)
    (hlines : LinesReferred db) (h : Drafts caller a db draft) :
    HeaderEqualsLines (invoiceTables settings caller a draft number db)
        (newInvoice settings caller a draft number db.invoices.freshKey) ↔
      ((rawTotals draft).map roundingOf).sum = 0 := by
  obtain ⟨hsubtotal, htax⟩ := headerEqualsLines_parts settings number hgrid hlines h
  have hlineTotals : (invoiceTables settings caller a draft number db).invoiceLines.sum
      (·.invoiceId = db.invoices.freshKey) (·.totalAmount) = ((rawTotals draft).map cents).sum := by
    rw [sum_invoiceTables hlines h _ (fun data => column 4 data.totalAmount) fun _ _ => rfl,
      rawTotals, List.map_map]
    refine congrArg List.sum (List.map_congr_left fun r _ => ?_)
    simp only [invoiceLineData, printedAmount_exact, fl_eq]
    exact column_cents _
  have hparts : column 4 draft.totals.subtotal + column 4 draft.totals.taxTotal =
      (rawTotals draft).sum := by
    have hS : column 4 draft.totals.subtotal = draft.totals.subtotal := by
      rw [h.subtotal_eq]
      exact roundTo_of_onGrid nearestAway_nearest (OnGrid.sum (h.onGrid_subtotal hgrid))
    have hT : column 4 draft.totals.taxTotal = draft.totals.taxTotal := by
      rw [h.taxTotal_eq]
      exact roundTo_of_onGrid nearestAway_nearest (OnGrid.sum onGrid_taxTotal)
    rw [hS, hT, h.parts_eq]
  have htotal : column 4 draft.totals.grandTotal = cents (rawTotals draft).sum := by
    unfold InvoiceTotals.grandTotal
    rw [column_cents, h.parts_eq, fl_eq]
  have hround : (cents (rawTotals draft).sum = ((rawTotals draft).map cents).sum ∧
      cents (rawTotals draft).sum = (rawTotals draft).sum) ↔
        ((rawTotals draft).map roundingOf).sum = 0 := sum_roundTo_iff nearestEven_nearest
  rw [← hround]
  constructor
  · intro hheader
    exact ⟨htotal.symm.trans (hheader.total.trans hlineTotals),
      htotal.symm.trans (hheader.additive.trans hparts)⟩
  · rintro ⟨hlinewise, hexact⟩
    exact ⟨hsubtotal, htax, htotal.trans (hlinewise.trans hlineTotals.symm),
      htotal.trans (hexact.trans hparts.symm)⟩

/-- The header equals the lines if and only if the unconverted lines have nothing to round, or
what they have cancels out. -/
theorem header_equals_lines_iff (hgrid : ∀ r ∈ db.revenueLines, OnGrid 4 r.amount)
    (hlines : LinesReferred db) (hcustomer : BilledTo a db customer)
    (h : (generateInvoice settings caller a).run db = .ok d db') :
    HeaderEqualsLines db' d.invoice ↔ RoundingsCancel caller a db customer := by
  obtain ⟨draft, number, hdraft, hinvoice, rfl⟩ := run_generateInvoice_ok h
  obtain ⟨s, hs, hsid, hc, hcid⟩ := hcustomer
  have hshipment : draft.shipment = s :=
    Table.eq_of_key_eq hdraft.shipment.1 hs (hdraft.shipment.2.1.trans hsid.symm)
  have hsame : draft.customer = customer :=
    Table.eq_of_key_eq hdraft.customer.1 hc (by
      rw [← hshipment] at hcid
      exact hdraft.customer.2.1.trans hcid.symm)
  have hcurrency : draft.currency = targetCurrency a customer := by rw [hdraft.currency, hsame]
  have hrate : draft.rate.rateToBase = rateFor caller a db customer := by
    rw [hdraft.rate, hcurrency]
    rfl
  have htax : draft.tax = taxFor a := hdraft.tax
  rw [hinvoice, headerEqualsLines_iff hgrid hlines hdraft, rawTotals, List.map_map,
    hdraft.revenueLines, hcurrency, hrate, htax]
  unfold RoundingsCancel unconverted
  rw [← sum_roundingOf]
  rfl

theorem roundingsCancel_of_wholeCents
    (h : ∀ r ∈ unconverted caller a db customer, WholeCents r.amount) :
    RoundingsCancel caller a db customer := by
  have hzero : (unconverted caller a db customer).map (fun r =>
      roundingOf (r.amount + (taxFor a).computeTax r.amount)) =
        (unconverted caller a db customer).map fun _ => 0 := by
    refine List.map_congr_left fun r hr => ?_
    unfold roundingOf
    rw [cents_of_wholeCents ((h r hr).add (computeTax_wholeCents _ _)), sub_self]
  unfold RoundingsCancel
  rw [hzero, List.sum_map_zero]

end Invoice

section Runs
open Verbatim

def chargeOf (id : Uuid) (currency : String) (amount : Money) : RevenueLine where
  id := id
  shipmentId := 1
  chargeCode := "OFR"
  description := none
  quantity := 1
  unitRate := none
  amount := amount
  currencyCode := some currency
  status := .estimated
  isAdditional := false
  quotationLineId := none
  createdBy := none

/-- A line that is converted, and two whose parts of a cent cancel out. -/
def cancelling : Database :=
  { shipped with
    revenueLines := ⟨[chargeOf 1 "EUR" (100005 / 1000), chargeOf 2 "USD" (4 / 1000),
      chargeOf 3 "USD" (6 / 1000)], by decide⟩ }

def twoLines : Database :=
  { shipped with
    revenueLines := ⟨[chargeOf 1 "USD" (1006 / 1000), chargeOf 2 "USD" (1006 / 1000)], by decide⟩ }

theorem header_equals_cancelling : ∃ d db',
    (generateInvoice ⟨5000⟩ clerk (generateFor none .stored)).run cancelling = .ok d db' ∧
      HeaderEqualsLines db' d.invoice := by
  have hissued : (outcome (generateInvoice ⟨5000⟩ clerk (generateFor none .stored))
      cancelling).isSome := by decide +kernel
  obtain ⟨⟨d, db'⟩, houtcome⟩ := Option.isSome_iff_exists.mp hissued
  have hrun := outcome_eq_some.mp houtcome
  have hcustomer : BilledTo (generateFor none .stored) cancelling ⟨1, 1, none, none, none⟩ :=
    ⟨_, List.mem_singleton.mpr rfl, rfl, List.mem_singleton.mpr rfl, rfl⟩
  exact ⟨d, db', hrun, (header_equals_lines_iff (by decide +kernel) (by decide +kernel) hcustomer
    hrun).mpr (by decide +kernel)⟩

/-- Two lines of 1.006 come to 2.012 with a total of 2.01, and to 2.02 line by line. -/
theorem header_differs_by_a_cent :
    (outcome (generateInvoice ⟨5000⟩ clerk (generateFor none .stored)) twoLines).map (fun p =>
      (p.1.invoice.subtotalAmount, p.1.invoice.totalAmount,
        p.2.invoiceLines.sum (·.invoiceId = p.1.invoice.id) (·.totalAmount),
        decide (HeaderEqualsLines p.2 p.1.invoice))) =
      some (2012 / 1000, 201 / 100, 202 / 100, false) := by
  decide +kernel

end Runs

end Friet.Invoicing
