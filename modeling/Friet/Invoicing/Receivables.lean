import Friet.Invoicing.Steps

/-!
# The receivable in the documents and in the ledger

Invoices and the notes on them say what a customer owes, and so do the entries
posted with them. The two agree, and credit notes never exceed their invoice, as
long as notes are in the currency of their invoice, credits are in whole cents
and no invoice comes to nothing.
-/

set_option autoImplicit false

namespace Friet.Invoicing

open Session Rounding Exact

def credited (notes : Table CreditNote) (invoiceId : Uuid) : Money :=
  notes.sum (fun n => n.invoiceId = invoiceId ∧ n.status ≠ .cancelled) (·.amount)

def debited (notes : Table DebitNote) (invoiceId : Uuid) : Money :=
  notes.sum (·.invoiceId = invoiceId) (·.amount)

def EntryType.receivable : EntryType → Bool
  | .invoiceReceivable | .creditNote | .debitNote => true
  | _ => false

def ledgerBalance (entries : Table FinancialEntry) (tenantId : Uuid) (currency : String) : Money :=
  entries.sum
    (fun e => e.tenantId = tenantId ∧ e.currencyCode = currency ∧ EntryType.receivable e.entryType)
    fun e => e.debitAmount - e.creditAmount

def owed (db : Database) (i : Invoice) : Money :=
  i.totalAmount + debited db.debitNotes i.id - credited db.creditNotes i.id

def documentBalance (db : Database) (tenantId : Uuid) (currency : String) : Money :=
  db.invoices.sum (fun i => i.tenantId = tenantId ∧ i.currencyCode = currency) (owed db)

/-- The invoice of a note, in the note's tenant and currency. -/
def NoteOn (invoices : Table Invoice) (invoiceId tenantId : Uuid) (currency : String) : Prop :=
  ∃ i ∈ invoices, i.id = invoiceId ∧ i.tenantId = tenantId ∧ i.currencyCode = currency

def CreditsFit (db : Database) (i : Invoice) : Prop :=
  credited db.creditNotes i.id ≤ i.totalAmount ∧
    (i.status = .credited ↔ credited db.creditNotes i.id = i.totalAmount)

structure Receivables (db : Database) : Prop where
  total_cents : ∀ i ∈ db.invoices, WholeCents i.totalAmount
  credit_cents : ∀ n ∈ db.creditNotes, WholeCents n.amount
  credit_on : ∀ n ∈ db.creditNotes, NoteOn db.invoices n.invoiceId n.tenantId n.currencyCode
  debit_on : ∀ n ∈ db.debitNotes, NoteOn db.invoices n.invoiceId n.tenantId n.currencyCode
  fit : ∀ i ∈ db.invoices, CreditsFit db i
  balanced : ∀ tenantId currency,
    ledgerBalance db.financialEntries tenantId currency = documentBalance db tenantId currency

section Notes
variable {invoices : Table Invoice} {invoiceId tenantId : Uuid} {currency : String}

theorem NoteOn.ne_freshKey (h : NoteOn invoices invoiceId tenantId currency) :
    invoiceId ≠ invoices.freshKey := by
  obtain ⟨i, hi, hid, _⟩ := h
  have hlt : i.id < invoices.freshKey := Table.key_lt_freshKey hi
  rw [← hid]
  exact ne_of_lt hlt

theorem NoteOn.insert {mk : Uuid → Invoice} {hmk : TakesKey mk}
    (h : NoteOn invoices invoiceId tenantId currency) :
    NoteOn (invoices.insert mk hmk) invoiceId tenantId currency := by
  obtain ⟨i, hi, hparty⟩ := h
  exact ⟨i, Table.mem_insert_of_mem hi, hparty⟩

/-- The rewriting of an invoice keeps what its notes depend on. -/
structure KeepsParty (f : Invoice → Invoice) : Prop where
  tenant : ∀ i, (f i).tenantId = i.tenantId
  currency : ∀ i, (f i).currencyCode = i.currencyCode
  total : ∀ i, (f i).totalAmount = i.totalAmount

theorem NoteOn.update {k : Uuid} {f : Invoice → Invoice} {hf : KeepsKey f} (hparty : KeepsParty f)
    (h : NoteOn invoices invoiceId tenantId currency) :
    NoteOn (invoices.update k f hf) invoiceId tenantId currency := by
  obtain ⟨i, hi, hid, htenant, hcurrency⟩ := h
  by_cases hk : i.id = k
  · refine ⟨f i, Table.mem_update.mpr (Or.inr ⟨i, hi, hk, rfl⟩), ?_, ?_, ?_⟩
    · exact (hf.key_eq i).trans hid
    · rw [hparty.tenant, htenant]
    · rw [hparty.currency, hcurrency]
  · exact ⟨i, Table.mem_update.mpr (Or.inl ⟨hi, hk⟩), hid, htenant, hcurrency⟩

end Notes

section Balance
variable {db : Database}

theorem Receivables.existingCredited_eq (hdb : Receivables db) {i : Invoice}
    (hi : i ∈ db.invoices) : existingCredited db i.id i.tenantId = credited db.creditNotes i.id := by
  refine Table.sum_congr ?_ fun _ _ _ => rfl
  intro n hn
  obtain ⟨i', hi', hid, htenant, _⟩ := hdb.credit_on n hn
  rw [decide_eq_decide]
  refine and_congr_right fun hon => ?_
  have heq : i' = i := Table.eq_of_key_eq hi' hi (hid.trans hon)
  subst heq
  exact and_iff_right htenant.symm

theorem credited_wholeCents (hdb : Receivables db) (invoiceId : Uuid) :
    WholeCents (credited db.creditNotes invoiceId) :=
  Table.sum_induction WholeCents OnGrid.zero (fun _ _ hx hy => hx.add hy)
    fun n hn _ => hdb.credit_cents n hn

/-- Posting an entry moves the balance of its own account only. -/
theorem ledgerBalance_insert {entries : Table FinancialEntry} {mk : Uuid → FinancialEntry}
    {hmk : TakesKey mk} (tenantId : Uuid) (currency : String)
    (hreceivable : EntryType.receivable (mk entries.freshKey).entryType = true) :
    ledgerBalance (entries.insert mk hmk) tenantId currency =
      ledgerBalance entries tenantId currency +
        if (mk entries.freshKey).tenantId = tenantId ∧
            (mk entries.freshKey).currencyCode = currency then
          (mk entries.freshKey).debitAmount - (mk entries.freshKey).creditAmount
        else 0 := by
  unfold ledgerBalance
  rw [Table.sum_insert]
  congr 1
  refine if_congr ?_ rfl rfl
  rw [decide_eq_true_iff, hreceivable]
  tauto

/-- Rewriting an invoice without touching its amounts leaves the balance alone. -/
theorem documentBalance_update {k : Uuid} {f : Invoice → Invoice} {hf : KeepsKey f}
    (hparty : KeepsParty f) (tenantId : Uuid) (currency : String) :
    documentBalance { db with invoices := db.invoices.update k f hf } tenantId currency =
      documentBalance db tenantId currency := by
  refine Table.sum_update_of_eq (fun i _ _ => ?_) fun i _ _ => ?_
  · rw [hparty.tenant, hparty.currency]
  · have hid : (f i).id = i.id := hf.key_eq i
    unfold owed
    rw [hparty.total, hid]

/-- A note moves the balance by its amount, in the account of its invoice. -/
theorem documentBalance_note (db db' : Database) (amount : Money)
    (hinvoices : db'.invoices = db.invoices) {i : Invoice} (hi : i ∈ db.invoices)
    (howed : ∀ j ∈ db.invoices, owed db' j = owed db j + if j.id = i.id then amount else 0)
    (tenantId : Uuid) (currency : String) :
    documentBalance db' tenantId currency = documentBalance db tenantId currency +
      if i.tenantId = tenantId ∧ i.currencyCode = currency then amount else 0 := by
  have hchange := db.invoices.sum_change
    (fun i => i.tenantId = tenantId ∧ i.currencyCode = currency) (owed db') (owed db) hi
    fun j hj hne => by
      have hne' : j.id ≠ i.id := hne
      rw [howed j hj, if_neg hne', add_zero]
  unfold documentBalance
  rw [hinvoices]
  rw [howed i hi, if_pos rfl] at hchange
  by_cases hsel : i.tenantId = tenantId ∧ i.currencyCode = currency
  · rw [if_pos (decide_eq_true hsel), if_pos (decide_eq_true hsel)] at hchange
    rw [if_pos hsel]
    linarith
  · rw [if_neg (by simpa using hsel), if_neg (by simpa using hsel)] at hchange
    rw [if_neg hsel]
    linarith

end Balance

section Generate
variable [Text] {settings : Settings} {caller : Caller} {a : GenerateInvoice} {draft : InvoiceDraft}
  {number : DocumentNumber} {db : Database}

omit [Text] in
theorem Receivables.nothing_credited (hdb : Receivables db) :
    credited db.creditNotes db.invoices.freshKey = 0 :=
  Table.sum_eq_zero fun n hn hsel =>
    absurd (of_decide_eq_true hsel).1 (hdb.credit_on n hn).ne_freshKey

omit [Text] in
theorem Receivables.nothing_debited (hdb : Receivables db) :
    debited db.debitNotes db.invoices.freshKey = 0 :=
  Table.sum_eq_zero fun n hn hsel =>
    absurd (of_decide_eq_true hsel) (hdb.debit_on n hn).ne_freshKey

theorem Receivables.generate (hdb : Receivables db)
    (hpos : 1 / 2 / 10 ^ 2 < draft.totals.subtotal + draft.totals.taxTotal) :
    Receivables (invoiceTables settings caller a draft number db) := by
  have htotal : (newInvoice settings caller a draft number db.invoices.freshKey).totalAmount =
      draft.totals.grandTotal := column_cents _
  have hgrand : 0 < draft.totals.grandTotal := roundTo_pos nearestEven_nearest hpos
  refine ⟨?_, hdb.credit_cents, fun n hn => (hdb.credit_on n hn).insert,
    fun n hn => (hdb.debit_on n hn).insert, ?_, ?_⟩
  · refine Table.forall_mem_insert.mpr ⟨hdb.total_cents, ?_⟩
    rw [htotal]
    exact cents_wholeCents _
  · refine Table.forall_mem_insert.mpr ⟨hdb.fit, ?_⟩
    have hcredited : credited db.creditNotes
        (newInvoice settings caller a draft number db.invoices.freshKey).id = 0 :=
      hdb.nothing_credited
    refine ⟨?_, ?_⟩
    · change credited db.creditNotes _ ≤ _
      rw [hcredited, htotal]
      exact hgrand.le
    · change _ ↔ credited db.creditNotes _ = _
      rw [hcredited, htotal]
      refine iff_of_false ?_ (ne_of_lt hgrand)
      simp only [newInvoice]
      split_ifs <;> exact nofun
  · intro tenantId currency
    have howed : owed db (newInvoice settings caller a draft number db.invoices.freshKey) =
        column 4 draft.totals.grandTotal := by
      change _ + debited _ db.invoices.freshKey - credited _ db.invoices.freshKey = _
      rw [hdb.nothing_debited, hdb.nothing_credited, add_zero, sub_zero]
      rfl
    have hdocuments : documentBalance (invoiceTables settings caller a draft number db) tenantId
        currency = documentBalance db tenantId currency +
          if caller.tenantId = tenantId ∧ draft.currency = currency then
            column 4 draft.totals.grandTotal else 0 := by
      refine (Table.sum_insert _ _ _ _ _).trans (congrArg _ ?_)
      exact (if_congr decide_eq_true_iff rfl rfl).trans (if_congr Iff.rfl howed rfl)
    rw [hdocuments, ← hdb.balanced tenantId currency]
    refine (ledgerBalance_insert tenantId currency rfl).trans (congrArg _ ?_)
    exact if_congr Iff.rfl (sub_zero _) rfl

end Generate

/-- A note that names no currency, or the one of its invoice. -/
def InInvoiceCurrency (currencyCode : Option String) (i : Invoice) : Prop :=
  given currencyCode = none ∨ given currencyCode = some i.currencyCode

instance (currencyCode : Option String) (i : Invoice) :
    Decidable (InInvoiceCurrency currencyCode i) := inferInstanceAs (Decidable (_ ∨ _))

theorem InInvoiceCurrency.noteCurrency {currencyCode : Option String} {i : Invoice}
    (h : InInvoiceCurrency currencyCode i) : noteCurrency currencyCode i = i.currencyCode := by
  unfold Invoicing.noteCurrency
  rcases h with h | h <;> rw [h] <;> rfl

section Credit
variable [Text] {caller : Caller} {a : CreateCreditNote} {r : CreditNoteRead}
  {number : DocumentNumber} {db : Database}

theorem credited_creditTables (invoiceId : Uuid) :
    credited (creditTables caller a r number db).creditNotes invoiceId =
      credited db.creditNotes invoiceId + if a.invoiceId = invoiceId then column 4 a.amount else 0 := by
  refine (Table.sum_insert _ _ _ _ _).trans (congrArg _ (if_congr ?_ rfl rfl))
  rw [decide_eq_true_iff]
  exact and_iff_left nofun

/-- The credits on an invoice after one more, as the guard lets it through. -/
theorem Invoice.Creditable.fits (hr : Invoice.Creditable caller a db r)
    (htotal : WholeCents r.invoice.totalAmount) (hexisting : WholeCents r.existingCredited)
    (hcents : WholeCents (column 4 a.amount)) :
    r.existingCredited + column 4 a.amount ≤ r.invoice.totalAmount ∧
      (fullyCredits a r ↔ r.existingCredited + column 4 a.amount = r.invoice.totalAmount) := by
  have hle : r.existingCredited + column 4 a.amount ≤ r.invoice.totalAmount :=
    add_column_le htotal hexisting hr.amount_le
  refine ⟨hle, ?_⟩
  unfold fullyCredits
  rw [cents_add_column hexisting hcents]
  exact ⟨fun hge => le_antisymm hle hge, fun heq => heq.ge⟩

theorem owed_creditTables {i : Invoice} :
    owed (creditTables caller a r number db) i =
      owed db i + if i.id = a.invoiceId then -column 4 a.amount else 0 := by
  unfold owed
  rw [credited_creditTables]
  by_cases hi : i.id = a.invoiceId
  · rw [if_pos hi, if_pos hi.symm]
    change _ + debited db.debitNotes i.id - _ = _
    ring
  · rw [if_neg hi, if_neg (Ne.symm hi), add_zero, add_zero]
    rfl

omit [Text] in
theorem keepsParty_credit : KeepsParty (Invoice.credit a r) := ⟨fun _ => rfl, fun _ => rfl, fun _ => rfl⟩

theorem documentBalance_creditTables (hr : Invoice.Creditable caller a db r)
    (hcurrency : InInvoiceCurrency a.currencyCode r.invoice) (tenantId : Uuid) (currency : String) :
    documentBalance (creditTables caller a r number db) tenantId currency =
      documentBalance db tenantId currency +
        if caller.tenantId = tenantId ∧ noteCurrency a.currencyCode r.invoice = currency then
          -column 4 a.amount else 0 := by
  have hmem : Invoice.credit a r r.invoice ∈ (creditTables caller a r number db).invoices :=
    Table.mem_update.mpr (Or.inr ⟨r.invoice, hr.mem, rfl, rfl⟩)
  have hnote : documentBalance (creditTables caller a r number db) tenantId currency =
      documentBalance { db with invoices := (creditTables caller a r number db).invoices }
        tenantId currency +
      if r.invoice.tenantId = tenantId ∧ r.invoice.currencyCode = currency then
        -column 4 a.amount else 0 := by
    refine documentBalance_note { db with invoices := (creditTables caller a r number db).invoices }
      (creditTables caller a r number db) _ rfl hmem (fun j _ => ?_) tenantId currency
    rw [owed_creditTables, ← hr.id]
    rfl
  rw [hnote, hcurrency.noteCurrency, hr.tenant]
  exact congrArg (· + _) (documentBalance_update keepsParty_credit tenantId currency)

/-- The credits still fit the invoice that is credited, and it is credited once they reach
its total. -/
theorem Receivables.creditsFit_credit (hdb : Receivables db)
    (hr : Invoice.Creditable caller a db r) (hcents : WholeCents (column 4 a.amount)) :
    CreditsFit (creditTables caller a r number db) (Invoice.credit a r r.invoice) := by
  have hexisting : r.existingCredited = credited db.creditNotes r.invoice.id := by
    rw [hr.existing, ← hr.id, ← hr.tenant, hdb.existingCredited_eq hr.mem]
  obtain ⟨hle, hfull⟩ := hr.fits (hdb.total_cents r.invoice hr.mem)
    (hexisting ▸ credited_wholeCents hdb _) hcents
  rw [hexisting] at hle hfull
  have hsum : credited (creditTables caller a r number db).creditNotes r.invoice.id =
      credited db.creditNotes r.invoice.id + column 4 a.amount := by
    rw [credited_creditTables, if_pos hr.id.symm]
  have hopen : r.invoice.status ≠ .credited := by
    intro hc
    have heq := (hdb.fit r.invoice hr.mem).2.mp hc
    have hrem := hr.remaining_pos
    rw [remainingCreditable, hexisting, heq, sub_self, cents_zero] at hrem
    exact absurd hrem (lt_irrefl 0)
  constructor
  · change credited _ r.invoice.id ≤ _
    rw [hsum]
    exact hle
  · change _ ↔ credited _ r.invoice.id = r.invoice.totalAmount
    rw [hsum, ← hfull, Invoice.credit_status]
    split_ifs with h
    · exact iff_of_true rfl h
    · exact iff_of_false hopen h

theorem Receivables.credit (hdb : Receivables db) (hr : Invoice.Creditable caller a db r)
    (hcents : WholeCents (column 4 a.amount))
    (hcurrency : InInvoiceCurrency a.currencyCode r.invoice) :
    Receivables (creditTables caller a r number db) := by
  have hnote : NoteOn db.invoices a.invoiceId caller.tenantId (noteCurrency a.currencyCode r.invoice) :=
    ⟨r.invoice, hr.mem, hr.id, hr.tenant, hcurrency.noteCurrency.symm⟩
  refine ⟨?_, ?_, ?_, ?_, ?_, ?_⟩
  · exact (Table.forall_mem_update hr.mem).mpr
      ⟨fun i hi _ => hdb.total_cents i hi, hdb.total_cents r.invoice hr.mem⟩
  · exact Table.forall_mem_insert.mpr ⟨hdb.credit_cents, hcents⟩
  · exact Table.forall_mem_insert.mpr
      ⟨fun n hn => (hdb.credit_on n hn).update keepsParty_credit, hnote.update keepsParty_credit⟩
  · exact fun n hn => (hdb.debit_on n hn).update keepsParty_credit
  · refine (Table.forall_mem_update hr.mem).mpr
      ⟨fun i hi hne => ?_, hdb.creditsFit_credit hr hcents⟩
    have hsame : credited (creditTables caller a r number db).creditNotes i.id =
        credited db.creditNotes i.id := by
      have hne' : a.invoiceId ≠ i.id := fun hc => hne (hc.symm.trans hr.id.symm)
      rw [credited_creditTables, if_neg hne', add_zero]
    unfold CreditsFit
    rw [hsame]
    exact hdb.fit i hi
  · intro tenantId currency
    rw [documentBalance_creditTables hr hcurrency, ← hdb.balanced tenantId currency]
    refine (ledgerBalance_insert tenantId currency rfl).trans (congrArg _ ?_)
    exact if_congr Iff.rfl (zero_sub _) rfl

end Credit

section Debit
variable [Text] {caller : Caller} {a : CreateDebitNote} {i : Invoice} {number : DocumentNumber}
  {db : Database}

theorem owed_debitTables {j : Invoice} :
    owed (debitTables caller a i number db) j =
      owed db j + if j.id = a.invoiceId then column 4 a.amount else 0 := by
  have hdebited : debited (debitTables caller a i number db).debitNotes j.id =
      debited db.debitNotes j.id + if j.id = a.invoiceId then column 4 a.amount else 0 := by
    refine (Table.sum_insert _ _ _ _ _).trans (congrArg _ (if_congr ?_ rfl rfl))
    rw [decide_eq_true_iff]
    exact eq_comm
  unfold owed
  rw [hdebited]
  change _ - credited db.creditNotes j.id = _
  ring

theorem Receivables.debit (hdb : Receivables db) (hi : i ∈ db.invoices) (hid : i.id = a.invoiceId)
    (htenant : i.tenantId = caller.tenantId) (hcurrency : InInvoiceCurrency a.currencyCode i) :
    Receivables (debitTables caller a i number db) := by
  have hnote : NoteOn db.invoices a.invoiceId caller.tenantId (noteCurrency a.currencyCode i) :=
    ⟨i, hi, hid, htenant, hcurrency.noteCurrency.symm⟩
  refine ⟨hdb.total_cents, hdb.credit_cents, hdb.credit_on,
    Table.forall_mem_insert.mpr ⟨hdb.debit_on, hnote⟩, hdb.fit, ?_⟩
  intro tenantId currency
  have hdocuments := documentBalance_note db (debitTables caller a i number db) (column 4 a.amount)
    rfl hi (fun j _ => by rw [owed_debitTables, ← hid]) tenantId currency
  rw [hdocuments, ← hdb.balanced tenantId currency]
  refine (ledgerBalance_insert tenantId currency rfl).trans (congrArg _ ?_)
  rw [htenant, ← hcurrency.noteCurrency]
  exact if_congr Iff.rfl (sub_zero _) rfl

end Debit

section Step
variable [Text] {settings : Settings} {db db' : Database}

omit [Text] in
theorem Receivables.restate (hdb : Receivables db) {i : Invoice} (hi : i ∈ db.invoices)
    {f : Invoice → Invoice} {hf : KeepsKey f} (hparty : KeepsParty f)
    (hstatus : (f i).status ≠ .credited) (hbefore : i.status ≠ .credited) :
    Receivables { db with invoices := db.invoices.update i.id f hf } := by
  refine ⟨?_, hdb.credit_cents, fun n hn => (hdb.credit_on n hn).update hparty,
    fun n hn => (hdb.debit_on n hn).update hparty, ?_, ?_⟩
  · refine (Table.forall_mem_update hi).mpr ⟨fun j hj _ => hdb.total_cents j hj, ?_⟩
    rw [hparty.total]
    exact hdb.total_cents i hi
  · refine (Table.forall_mem_update hi).mpr ⟨fun j hj _ => hdb.fit j hj, ?_⟩
    obtain ⟨hle, hiff⟩ := hdb.fit i hi
    have hid : (f i).id = i.id := hf.key_eq i
    unfold CreditsFit
    rw [hid, hparty.total]
    exact ⟨hle, iff_of_false hstatus (mt hiff.mpr hbefore)⟩
  · intro tenantId currency
    rw [documentBalance_update hparty]
    exact hdb.balanced tenantId currency

/-- What the lines of an invoice for a customer come to, with their tax. -/
def billable (caller : Caller) (a : GenerateInvoice) (db : Database) (c : Customer) : Money :=
  let rate := (lockedRate (a.rateOrder.arrange db.exchangeRates.rows) (targetCurrency a c)
    caller.today).rateToBase
  let tax := evaluateTax (some ((given a.taxJurisdiction).getD "NONE")) false
  ((revenueLinesFor a db).map fun r =>
    lineAmount (targetCurrency a c) rate r +
      tax.computeTax (lineAmount (targetCurrency a c) rate r)).sum

theorem Drafts.billable_eq {caller : Caller} {a : GenerateInvoice} {draft : InvoiceDraft}
    (h : Drafts caller a db draft) :
    draft.totals.subtotal + draft.totals.taxTotal = billable caller a db draft.customer := by
  unfold billable
  rw [h.totals, invoiceTotals_exact, h.revenueLines, h.rate, h.tax, h.currency]
  exact List.sum_map_add.symm

/-- Invoices come to something, credits are in whole cents, and notes in their invoice's currency. -/
def Regular (settings : Settings) (db : Database) : Caller × Request → Prop
  | (caller, .generateInvoice a) => Succeeds (generateInvoice settings caller a) db →
      ∀ s ∈ db.shipments, s.id = a.shipmentId → ∀ c ∈ db.customers, c.id = s.customerId →
        1 / 2 / 10 ^ 2 < billable caller a db c
  | (caller, .createCreditNote a) => Succeeds (createCreditNote caller a) db →
      WholeCents (column 4 a.amount) ∧
        ∀ i ∈ db.invoices, i.id = a.invoiceId → InInvoiceCurrency a.currencyCode i
  | (caller, .createDebitNote a) => Succeeds (createDebitNote caller a) db →
      ∀ i ∈ db.invoices, i.id = a.invoiceId → InInvoiceCurrency a.currencyCode i
  | _ => True

instance (settings : Settings) (db : Database) : ∀ i, Decidable (Regular settings db i)
  | (_, .generateInvoice _) =>
    inferInstanceAs (Decidable (_ → ∀ s ∈ db.shipments, _ → ∀ c ∈ db.customers, _ → _))
  | (_, .createCreditNote _) => inferInstanceAs (Decidable (_ → _ ∧ ∀ i ∈ db.invoices, _ → _))
  | (_, .createDebitNote _) => inferInstanceAs (Decidable (_ → ∀ i ∈ db.invoices, _ → _))
  | (_, .approveInvoice _) | (_, .sendInvoice _) => inferInstanceAs (Decidable True)

theorem step_receivables {i : Caller × Request} (hdb : Receivables db) (hok : Regular settings db i) :
    Receivables (step settings db i) := by
  obtain ⟨caller, request⟩ := i
  cases request with
  | generateInvoice a =>
    refine commit_keeps hdb fun d t h => ?_
    obtain ⟨draft, number, hdraft, _, rfl⟩ := run_generateInvoice_ok h
    refine hdb.generate ?_
    rw [hdraft.billable_eq]
    exact hok ⟨d, _, h⟩ _ hdraft.shipment.1 hdraft.shipment.2.1 _ hdraft.customer.1
      hdraft.customer.2.1
  | approveInvoice a =>
    refine commit_keeps hdb fun d t h => ?_
    obtain ⟨i, hi, _, _, ⟨_, rfl⟩ | ⟨hpending, rfl⟩⟩ := run_approveInvoice_ok h
    · exact hdb
    · refine hdb.restate hi ⟨fun _ => rfl, fun _ => rfl, fun _ => rfl⟩ nofun ?_
      rw [hpending]
      exact nofun
  | sendInvoice a =>
    refine commit_keeps hdb fun m t h => ?_
    obtain ⟨i, hi, _, _, hstatus, rfl⟩ := run_sendInvoice_ok h
    refine hdb.restate hi ⟨fun _ => rfl, fun _ => rfl, fun _ => rfl⟩ nofun ?_
    rcases hstatus with hs | hs <;> rw [hs] <;> exact nofun
  | createCreditNote a =>
    refine commit_keeps hdb fun d t h => ?_
    obtain ⟨r, number, hr, heq⟩ := run_createCreditNote_ok h
    obtain ⟨hcents, hcurrency⟩ := hok ⟨d, t, h⟩
    rw [heq]
    exact hdb.credit hr hcents (hcurrency _ hr.mem hr.id)
  | createDebitNote a =>
    refine commit_keeps hdb fun d t h => ?_
    obtain ⟨i, hi, hid, htenant, number, heq⟩ := run_createDebitNote_ok h
    rw [heq]
    exact hdb.debit hi hid htenant (hok ⟨d, t, h⟩ i hi hid)

/-- No invoice, no note and no receivable has been recorded yet. -/
structure NoReceivables (db : Database) : Prop where
  invoices : ∀ i, i ∉ db.invoices
  creditNotes : ∀ n, n ∉ db.creditNotes
  debitNotes : ∀ n, n ∉ db.debitNotes
  entries : ∀ e ∈ db.financialEntries, EntryType.receivable e.entryType = false

omit [Text] in
theorem NoReceivables.receivables (h : NoReceivables db) : Receivables db where
  total_cents i hi := absurd hi (h.invoices i)
  credit_cents n hn := absurd hn (h.creditNotes n)
  credit_on n hn := absurd hn (h.creditNotes n)
  debit_on n hn := absurd hn (h.debitNotes n)
  fit i hi := absurd hi (h.invoices i)
  balanced tenantId currency := by
    have hledger : ledgerBalance db.financialEntries tenantId currency = 0 := by
      refine Table.sum_eq_zero fun e he hsel => ?_
      have hno := h.entries e he
      rw [(of_decide_eq_true hsel).2.2] at hno
      cases hno
    have hdocuments : documentBalance db tenantId currency = 0 :=
      Table.sum_eq_zero fun i hi _ => absurd hi (h.invoices i)
    rw [hledger, hdocuments]

end Step

section Runs
open Verbatim

/-- A customer with one line of an amount to invoice. -/
def oneCharge (amount : Money) : Database :=
  { shipped with
    revenueLines := ⟨[⟨1, 1, "OFR", none, 1, none, amount, some "USD", .estimated, false, none,
      none⟩], by simp⟩ }

def creditedTwice (first second : Money) : List (Caller × Request) :=
  [.generateInvoice (generateFor none .stored), .createCreditNote (creditOf 0 first none),
    .createCreditNote (creditOf 0 second none), .createDebitNote (debitOf 0 5 none)].map (clerk, ·)

def afterCredits (amount first second : Money) : Database :=
  (creditedTwice first second).foldl (step ⟨5000⟩) (oneCharge amount)

end Runs

end Friet.Invoicing
