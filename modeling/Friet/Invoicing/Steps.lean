import Friet.Invoicing.Service
import Friet.Lib.Run

/-!
# What each invoice operation does

One lemma per operation: what its normal return implies about the state before,
and the tables it leaves.
-/

set_option autoImplicit false

namespace Friet.Invoicing

open Session Rounding

variable [Text] {settings : Settings} {caller : Caller} {db db' : Database}

theorem run_findInvoice_ok {invoiceId tenantId : Uuid} {i : Invoice} :
    (findInvoice invoiceId tenantId).run db = .ok i db' ↔
      (i ∈ db.invoices ∧ i.id = invoiceId ∧ i.tenantId = tenantId) ∧ db = db' := by
  unfold findInvoice
  simp only [run_get_bind_ok, run_orFail_ok, Table.findWhere_eq_some_iff, decide_eq_true_eq]
  exact Iff.rfl

theorem run_findInvoice_bind_ok {β : Type} {invoiceId tenantId : Uuid} {f : Invoice → Service β}
    {b : β} :
    (findInvoice invoiceId tenantId >>= f).run db = .ok b db' ↔
      ∃ i, (i ∈ db.invoices ∧ i.id = invoiceId ∧ i.tenantId = tenantId) ∧
        (f i).run db = .ok b db' :=
  run_reads_bind_ok fun _ _ => run_findInvoice_ok

theorem run_getInvoice_ok {invoiceId tenantId : Uuid} {d : InvoiceDetail}
    (h : (getInvoice invoiceId tenantId).run db = .ok d db') :
    (d.invoice ∈ db.invoices ∧ d.invoice.id = invoiceId) ∧ db' = db := by
  unfold getInvoice at h
  simp only [run_findInvoice_bind_ok, run_get_bind_ok, run_pure_ok] at h
  obtain ⟨i, ⟨hi, hid, _⟩, rfl, rfl⟩ := h
  exact ⟨⟨hi, hid⟩, rfl⟩

theorem getInvoice_succeeds (db : Database) {i : Invoice} (hi : i ∈ db.invoices) :
    ∃ d, (getInvoice i.id i.tenantId).run db = .ok d db := by
  unfold getInvoice
  simp only [run_findInvoice_bind_ok, run_get_bind_ok, run_pure_ok]
  exact ⟨_, i, ⟨hi, rfl, rfl⟩, rfl, trivial⟩

section Generate
variable [Arithmetic] {a : GenerateInvoice} {draft : InvoiceDraft}

/-- What the draft of an invoice has been worked out from. -/
structure Drafts (caller : Caller) (a : GenerateInvoice) (db : Database) (draft : InvoiceDraft) :
    Prop where
  shipment : draft.shipment ∈ db.shipments ∧ draft.shipment.id = a.shipmentId ∧
    draft.shipment.tenantId = caller.tenantId
  customer : draft.customer ∈ db.customers ∧ draft.customer.id = draft.shipment.customerId ∧
    draft.customer.tenantId = caller.tenantId
  revenueLines : draft.revenueLines = revenueLinesFor a db
  nonempty : draft.revenueLines ≠ []
  uninvoiced : ∀ r ∈ draft.revenueLines, r.status ≠ .invoiced
  currency : draft.currency = targetCurrency a draft.customer
  rate : draft.rate =
    lockedRate (a.rateOrder.arrange db.exchangeRates.rows) draft.currency caller.today
  tax : draft.tax = evaluateTax (some ((given a.taxJurisdiction).getD "NONE")) false
  totals : draft.totals =
    invoiceTotals draft.currency draft.rate.rateToBase draft.tax draft.revenueLines

theorem run_draftInvoice_ok :
    (draftInvoice caller a).run db = .ok draft db' ↔ Drafts caller a db draft ∧ db = db' := by
  unfold draftInvoice
  simp only [run_getTenantShipment_bind_ok, run_get_bind_ok, run_orFail_bind_ok, run_failIf_bind_ok,
    run_pure_ok, Table.findWhere_eq_some_iff, decide_eq_true_eq]
  constructor
  · rintro ⟨s, hs, c, hc, hne, hinv, rfl, rfl⟩
    exact ⟨⟨hs, hc, rfl, hne, fun r hr heq => hinv ⟨r, hr, heq⟩, rfl, rfl, rfl, rfl⟩, rfl⟩
  · rintro ⟨h, rfl⟩
    obtain ⟨s, c, rows, currency, rate, tax, totals⟩ := draft
    obtain ⟨hs, hc, hrows, hne, hinv, hcurrency, hrate, htax, htotals⟩ := h
    simp only at hs hc hrows hne hinv hcurrency hrate htax htotals
    subst hrows hcurrency hrate htax htotals
    exact ⟨s, hs, c, hc, hne, not_exists.mpr fun r h => hinv r h.1 h.2, rfl, rfl⟩

theorem run_draftInvoice_bind_ok {β : Type} {f : InvoiceDraft → Service β} {b : β} :
    (draftInvoice caller a >>= f).run db = .ok b db' ↔
      ∃ draft, Drafts caller a db draft ∧ (f draft).run db = .ok b db' :=
  run_reads_bind_ok fun _ _ => run_draftInvoice_ok

theorem Drafts.mem_revenueLines (h : Drafts caller a db draft) {r : RevenueLine} :
    r ∈ draft.revenueLines ↔ r ∈ db.revenueLines ∧ eligible a r = true := by
  rw [h.revenueLines, revenueLinesFor, RowOrder.mem_arrange, List.mem_filter]
  exact Iff.rfl

omit [Text] in
/-- The loop adds up the converted amounts and their tax, line by line. -/
theorem invoiceTotals_eq (target : String) (rate : ℚ) (tax : TaxEvaluation)
    (rows : List RevenueLine) :
    invoiceTotals target rate tax rows =
      ⟨addUp (rows.map (fl <| lineAmount target rate ·)),
        addUp (rows.map (fl <| tax.computeTax <| printedAmount target rate ·)),
        rows.map (invoiceLineData target rate tax)⟩ := by
  have hgen : ∀ acc : InvoiceTotals,
      rows.foldl (fun acc r => acc.push (invoiceLineData target rate tax r)) acc =
        ⟨(rows.map (fl <| lineAmount target rate ·)).foldl (fun s x => fl (s + x)) acc.subtotal,
          (rows.map (fl <| tax.computeTax <| printedAmount target rate ·)).foldl
            (fun s x => fl (s + x)) acc.taxTotal,
          acc.invLinesData ++ rows.map (invoiceLineData target rate tax)⟩ := by
    induction rows with
    | nil => simp
    | cons r rows ih =>
      intro acc
      rw [List.foldl_cons, ih]
      simp [InvoiceTotals.push, invoiceLineData]
  rw [invoiceTotals, hgen]
  simp [InvoiceTotals.zero, addUp]

omit [Text] [Arithmetic] in
theorem mem_addInvoiceLines {tenantId invoiceId : Uuid} {ds : List InvoiceLineData}
    {t : Table InvoiceLine} {l : InvoiceLine} (h : l ∈ addInvoiceLines tenantId invoiceId ds t) :
    l ∈ t ∨ ∃ d ∈ ds, ∃ k, l = invoiceLineRow tenantId invoiceId d k :=
  Table.mem_foldl_insert h

theorem takesKey_newInvoice (settings : Settings) (caller : Caller) (a : GenerateInvoice)
    (draft : InvoiceDraft) (number : DocumentNumber) :
    TakesKey (newInvoice settings caller a draft number) :=
  ⟨fun _ => rfl⟩

theorem takesKey_receivableEntry (settings : Settings) (caller : Caller) (a : GenerateInvoice)
    (draft : InvoiceDraft) (number : DocumentNumber) :
    TakesKey (receivableEntry settings caller a draft number) :=
  ⟨fun _ => rfl⟩

/-- The tables a generated invoice leaves. -/
def invoiceTables (settings : Settings) (caller : Caller) (a : GenerateInvoice)
    (draft : InvoiceDraft) (number : DocumentNumber) (db : Database) : Database :=
  { db with
    invoices := db.invoices.insert (newInvoice settings caller a draft number)
      (takesKey_newInvoice settings caller a draft number)
    invoiceLines := addInvoiceLines caller.tenantId db.invoices.freshKey draft.totals.invLinesData
      db.invoiceLines
    revenueLines := markInvoiced draft.revenueLines db.revenueLines
    financialEntries := db.financialEntries.insert (receivableEntry settings caller a draft number)
      (takesKey_receivableEntry settings caller a draft number) }

def NumberFree (caller : Caller) (db : Database) (number : DocumentNumber) : Prop :=
  ¬ ∃ i ∈ db.invoices, i.tenantId = caller.tenantId ∧ i.invoiceNumber = number

theorem run_generateInvoice_ok {d : InvoiceDetail}
    (h : (generateInvoice settings caller a).run db = .ok d db') :
    ∃ draft number, Drafts caller a db draft ∧
      d.invoice = newInvoice settings caller a draft number db.invoices.freshKey ∧
      db' = invoiceTables settings caller a draft number db := by
  unfold generateInvoice addInvoice addFinancialEntry at h
  simp only [run_draftInvoice_bind_ok, run_get_bind_ok, run_failIf_bind_ok, run_modifyGet_bind_ok,
    run_modify_bind_ok] at h
  obtain ⟨draft, hdraft, _, hget⟩ := h
  obtain ⟨⟨hmem, hid⟩, rfl⟩ := run_getInvoice_ok hget
  refine ⟨draft, nextNumber caller db.invoices (·.tenantId), hdraft, ?_, rfl⟩
  rcases Table.mem_insert.mp hmem with hold | hnew
  · have hlt : d.invoice.id < db.invoices.freshKey := Table.key_lt_freshKey hold
    exact absurd hid (ne_of_lt hlt)
  · exact hnew

theorem generateInvoice_succeeds (settings : Settings) (hdraft : Drafts caller a db draft)
    (hfree : NumberFree caller db (nextNumber caller db.invoices (·.tenantId))) :
    ∃ d, (generateInvoice settings caller a).run db =
      .ok d (invoiceTables settings caller a draft (nextNumber caller db.invoices (·.tenantId)) db) := by
  obtain ⟨d, hget⟩ := getInvoice_succeeds (invoiceTables settings caller a draft
    (nextNumber caller db.invoices (·.tenantId)) db) Table.mem_insert_self
  refine ⟨d, ?_⟩
  unfold generateInvoice addInvoice addFinancialEntry
  simp only [run_draftInvoice_bind_ok, run_get_bind_ok, run_failIf_bind_ok, run_modifyGet_bind_ok,
    run_modify_bind_ok]
  exact ⟨draft, hdraft, hfree, hget⟩

end Generate

section Exact
open Exact

omit [Text] in
@[simp] theorem printedAmount_exact (target : String) (rate : ℚ) (r : RevenueLine) :
    printedAmount target rate r = lineAmount target rate r :=
  ite_eq_left_iff.mpr fun h => (if_neg h).symm

omit [Text] in
/-- Without rounding the totals are sums. -/
theorem invoiceTotals_exact (target : String) (rate : ℚ) (tax : TaxEvaluation)
    (rows : List RevenueLine) :
    invoiceTotals target rate tax rows =
      ⟨(rows.map (lineAmount target rate)).sum,
        (rows.map fun r => tax.computeTax (lineAmount target rate r)).sum,
        rows.map (invoiceLineData target rate tax)⟩ := by
  rw [invoiceTotals_eq, addUp_exact, addUp_exact]
  simp only [fl_eq, printedAmount_exact]

end Exact

theorem run_approveInvoice_ok {a : ApproveInvoice} {d : InvoiceDetail}
    (h : (approveInvoice caller a).run db = .ok d db') :
    ∃ i ∈ db.invoices, i.id = a.invoiceId ∧ i.tenantId = caller.tenantId ∧
      ((i.status = .approved ∧ db' = db) ∨
        (i.status = .pendingApproval ∧
          db' = { db with invoices := db.invoices.update i.id (Invoice.approve caller a) })) := by
  unfold approveInvoice at h
  simp only [run_findInvoice_bind_ok] at h
  obtain ⟨i, ⟨hi, hid, htenant⟩, h⟩ := h
  refine ⟨i, hi, hid, htenant, ?_⟩
  split_ifs at h with happroved
  · exact Or.inl ⟨happroved, (run_getInvoice_ok h).2⟩
  · simp only [run_failIf_bind_ok, run_modify_bind_ok, not_not] at h
    obtain ⟨hpending, hget⟩ := h
    exact Or.inr ⟨hpending, (run_getInvoice_ok hget).2⟩

theorem run_sendInvoice_ok {a : SendInvoice} {m : SentInvoice}
    (h : (sendInvoice caller a).run db = .ok m db') :
    ∃ i ∈ db.invoices, i.id = a.invoiceId ∧ i.tenantId = caller.tenantId ∧
      (i.status = .approved ∨ i.status = .sent) ∧
      db' = { db with invoices := db.invoices.update i.id (Invoice.send caller m.recipientEmail) } := by
  unfold sendInvoice at h
  simp only [run_findInvoice_bind_ok, run_failIf_bind_ok, run_get_bind_ok, run_orFail_bind_ok,
    run_modify_bind_ok] at h
  obtain ⟨i, ⟨hi, hid, htenant⟩, hs, email, _, h⟩ := h
  simp only [run_bind_ok, run_pure_ok] at h
  obtain ⟨_, _, hget, rfl, rfl⟩ := h
  refine ⟨i, hi, hid, htenant, ?_, (run_getInvoice_ok hget).2⟩
  tauto

section Credit
variable {a : CreateCreditNote} {r : CreditNoteRead}

/-- What a credit note has passed when its read phase returns. -/
structure Invoice.Creditable (caller : Caller) (a : CreateCreditNote) (db : Database)
    (r : CreditNoteRead) : Prop where
  mem : r.invoice ∈ db.invoices
  id : r.invoice.id = a.invoiceId
  tenant : r.invoice.tenantId = caller.tenantId
  existing : r.existingCredited = existingCredited db a.invoiceId caller.tenantId
  amount_pos : 0 < a.amount
  reason : ¬ (a.reason = "" ∨ (strip a.reason).length < 3)
  remaining_pos : 0 < remainingCreditable r
  amount_le : a.amount ≤ remainingCreditable r

theorem run_createCreditNoteRead_ok :
    (createCreditNoteRead caller a).run db = .ok r db' ↔
      Invoice.Creditable caller a db r ∧ db = db' := by
  unfold createCreditNoteRead
  simp only [run_failIf_bind_ok, run_findInvoice_bind_ok, run_get_bind_ok, run_pure_ok]
  constructor
  · rintro ⟨hpos, hreason, i, ⟨hi, hid, htenant⟩, hrem, hle, rfl, rfl⟩
    exact ⟨⟨hi, hid, htenant, rfl, not_le.mp hpos, hreason, not_le.mp hrem, not_lt.mp hle⟩, rfl⟩
  · rintro ⟨⟨hi, hid, htenant, hex, hpos, hreason, hrem, hle⟩, rfl⟩
    obtain ⟨i, e⟩ := r
    simp only at hi hid htenant hex hrem hle
    subst hex
    exact ⟨not_le.mpr hpos, hreason, i, ⟨hi, hid, htenant⟩, not_le.mpr hrem, not_lt.mpr hle, rfl,
      rfl⟩

omit [Text] in
theorem keepsKey_credit (a : CreateCreditNote) (r : CreditNoteRead) :
    KeepsKey (Invoice.credit a r) :=
  ⟨fun _ => rfl⟩

omit [Text] in
theorem takesKey_creditEntry (caller : Caller) (a : CreateCreditNote) (r : CreditNoteRead)
    (number : DocumentNumber) : TakesKey (creditEntry caller a r.invoice number) :=
  ⟨fun _ => rfl⟩

theorem takesKey_creditNoteRow (caller : Caller) (a : CreateCreditNote) (r : CreditNoteRead)
    (number : DocumentNumber) (db : Database) :
    TakesKey (creditNoteRow caller a r.invoice number db.financialEntries.freshKey) :=
  ⟨fun _ => rfl⟩

/-- The tables the write phase of a credit note leaves. -/
def creditTables (caller : Caller) (a : CreateCreditNote) (r : CreditNoteRead)
    (number : DocumentNumber) (db : Database) : Database :=
  { db with
    invoices := db.invoices.update r.invoice.id (Invoice.credit a r) (keepsKey_credit a r)
    financialEntries := db.financialEntries.insert (creditEntry caller a r.invoice number)
      (takesKey_creditEntry caller a r number)
    creditNotes :=
      db.creditNotes.insert (creditNoteRow caller a r.invoice number db.financialEntries.freshKey)
        (takesKey_creditNoteRow caller a r number db) }

theorem run_createCreditNoteWrite_ok {d : CreditNoteDetail}
    (h : (createCreditNoteWrite caller a r).run db = .ok d db') :
    ∃ number, db' = creditTables caller a r number db := by
  unfold createCreditNoteWrite addFinancialEntry addCreditNote at h
  simp only [run_get_bind_ok, run_failIf_bind_ok, run_modifyGet_bind_ok, run_modify_bind_ok,
    run_pure_ok] at h
  obtain ⟨_, _, rfl⟩ := h
  exact ⟨nextNumber caller db.creditNotes (·.tenantId), rfl⟩

theorem run_createCreditNote_ok {d : CreditNoteDetail}
    (h : (createCreditNote caller a).run db = .ok d db') :
    ∃ r number, Invoice.Creditable caller a db r ∧ db' = creditTables caller a r number db := by
  unfold createCreditNote at h
  simp only [run_bind_ok, run_createCreditNoteRead_ok] at h
  obtain ⟨r, _, ⟨hr, rfl⟩, h⟩ := h
  obtain ⟨number, heq⟩ := run_createCreditNoteWrite_ok h
  exact ⟨r, number, hr, heq⟩

omit [Text] in
theorem Invoice.credit_status :
    (Invoice.credit a r r.invoice).status =
      if fullyCredits a r then .credited else r.invoice.status := by
  simp [Invoice.credit]

end Credit

section Debit
variable {a : CreateDebitNote} {i : Invoice}

omit [Text] in
theorem takesKey_debitEntry (caller : Caller) (a : CreateDebitNote) (i : Invoice)
    (number : DocumentNumber) : TakesKey (debitEntry caller a i number) :=
  ⟨fun _ => rfl⟩

theorem takesKey_debitNoteRow (caller : Caller) (a : CreateDebitNote) (i : Invoice)
    (number : DocumentNumber) (db : Database) :
    TakesKey (debitNoteRow caller a i number db.financialEntries.freshKey) :=
  ⟨fun _ => rfl⟩

def debitTables (caller : Caller) (a : CreateDebitNote) (i : Invoice) (number : DocumentNumber)
    (db : Database) : Database :=
  { db with
    financialEntries := db.financialEntries.insert (debitEntry caller a i number)
      (takesKey_debitEntry caller a i number)
    debitNotes := db.debitNotes.insert (debitNoteRow caller a i number db.financialEntries.freshKey)
      (takesKey_debitNoteRow caller a i number db) }

theorem run_createDebitNote_ok {d : DebitNoteDetail}
    (h : (createDebitNote caller a).run db = .ok d db') :
    ∃ i ∈ db.invoices, i.id = a.invoiceId ∧ i.tenantId = caller.tenantId ∧
      ∃ number, db' = debitTables caller a i number db := by
  unfold createDebitNote addFinancialEntry addDebitNote at h
  simp only [run_failIf_bind_ok, run_findInvoice_bind_ok, run_get_bind_ok, run_modifyGet_bind_ok,
    run_pure_ok] at h
  obtain ⟨_, _, _, i, ⟨hi, hid, htenant⟩, _, _, rfl⟩ := h
  exact ⟨i, hi, hid, htenant, nextNumber caller db.debitNotes (·.tenantId), rfl⟩

end Debit

inductive Request where
  | generateInvoice (a : GenerateInvoice)
  | approveInvoice (a : ApproveInvoice)
  | sendInvoice (a : SendInvoice)
  | createCreditNote (a : CreateCreditNote)
  | createDebitNote (a : CreateDebitNote)

def step [Arithmetic] (settings : Settings) (db : Database) (i : Caller × Request) : Database :=
  match i.2 with
  | .generateInvoice a => commit (generateInvoice settings i.1 a) db
  | .approveInvoice a => commit (approveInvoice i.1 a) db
  | .sendInvoice a => commit (sendInvoice i.1 a) db
  | .createCreditNote a => commit (createCreditNote i.1 a) db
  | .createDebitNote a => commit (createDebitNote i.1 a) db

/-- Plain requests, for runs on concrete inputs. -/
def generateFor (currencyCode : Option String) (rateOrder : RowOrder ExchangeRate) :
    GenerateInvoice where
  shipmentId := 1
  currencyCode := currencyCode
  taxJurisdiction := none
  paymentTerms := none
  customerPo := none
  notes := none
  revenueLineIds := none
  lineOrder := .stored
  rateOrder := rateOrder

def creditOf (invoiceId : Uuid) (amount : Money) (currencyCode : Option String) :
    CreateCreditNote :=
  { invoiceId, amount, reason := "Overcharge", currencyCode }

def debitOf (invoiceId : Uuid) (amount : Money) (currencyCode : Option String) :
    CreateDebitNote :=
  { invoiceId, chargeCode := "THC", amount, reason := "Late charge", currencyCode
    description := none }

end Friet.Invoicing
