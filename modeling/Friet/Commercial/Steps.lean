import Friet.Commercial.Quotations
import Friet.Invoicing.Steps

/-!
# What each quotation request does

One lemma per request: what its normal return says about the state before, and
the tables it leaves.
-/

set_option autoImplicit false

namespace Friet.Commercial

open Session Rounding.Exact

variable [Text] {caller : Caller} {db db' : CommercialDatabase}

section Create
variable {a : CreateQuotation} {p : Pricing}

/-- What a quotation has been priced from. -/
structure Prices (caller : Caller) (a : CreateQuotation) (db : CommercialDatabase) (p : Pricing) :
    Prop where
  rfq : p.rfq ∈ db.rfqs ∧ parseUuid a.rfqId = some p.rfq.id ∧ p.rfq.tenantId = caller.tenantId
  quotable : ¬ (p.rfq.status = .cancelled ∨ p.rfq.status = .expired ∨ p.rfq.status = .rejected)
  rate : (applicableRates caller a p.rfq db).find? (fun r => openTo p.rfq r) = some p.rate
  version : approvedVersion p.rate.id db = some p.version
  lines : (rateLinesOf a p.version.id db).length ≠ 0
  charges : p.charges =
    charges (rateLinesOf a p.version.id db) (surchargesOf a caller.today p.version.id db)

theorem run_priceQuotation_ok :
    (priceQuotation caller a).run db = .ok p db' ↔ Prices caller a db p ∧ db = db' := by
  unfold priceQuotation
  simp only [run_get_bind_ok, run_orFail_bind_ok, run_failIf_bind_ok, run_pure_ok,
    Table.findWhere_eq_some_iff, decide_eq_true_eq]
  constructor
  · rintro ⟨rfqId, hparse, rfq, ⟨hrfq, hid, htenant⟩, hstatus, rate, hrate, version, hversion,
      hlines, rfl, rfl⟩
    exact ⟨⟨⟨hrfq, hparse.trans (congrArg some hid.symm), htenant⟩, hstatus, hrate, hversion, hlines,
      rfl⟩, rfl⟩
  · rintro ⟨⟨⟨hrfq, hparse, htenant⟩, hstatus, hrate, hversion, hlines, hcharges⟩, rfl⟩
    obtain ⟨rfq, rate, version, cs⟩ := p
    simp only at hrfq hparse htenant hstatus hrate hversion hlines hcharges
    subst hcharges
    exact ⟨rfq.id, hparse, rfq, ⟨hrfq, rfl, htenant⟩, hstatus, rate, hrate, version, hversion,
      hlines, rfl, rfl⟩

omit [Text] in
theorem takesKey_newQuotation (caller : Caller) (a : CreateQuotation) (p : Pricing) :
    TakesKey (newQuotation caller a p) := ⟨fun _ => rfl⟩

omit [Text] in
theorem takesKey_newOption (a : CreateQuotation) (p : Pricing) (quotationId : Uuid) :
    TakesKey (newOption a p quotationId) := ⟨fun _ => rfl⟩

omit [Text] in
theorem keepsKey_quote : KeepsKey Rfq.quote := ⟨fun _ => rfl⟩

def quotationTables (caller : Caller) (a : CreateQuotation) (p : Pricing)
    (db : CommercialDatabase) : CommercialDatabase :=
  { db with
    quotations := db.quotations.insert (newQuotation caller a p) (takesKey_newQuotation caller a p)
    quotationOptions := db.quotationOptions.insert (newOption a p db.quotations.freshKey)
      (takesKey_newOption a p _)
    quotationLines := addQuotationLines a p db.quotationOptions.freshKey db.quotationLines
    rfqs := db.rfqs.update p.rfq.id Rfq.quote keepsKey_quote }

def quotationSummary (a : CreateQuotation) (p : Pricing) (id : Uuid) : QuotationSummary where
  id := id
  quotationNumber := a.quotationNumber
  rfqId := p.rfq.id
  status := p.status a
  totalAmount := p.totalSell a
  rateVersionId := some p.version.id

def NumberFree (caller : Caller) (a : CreateQuotation) (db : CommercialDatabase) : Prop :=
  ¬ ∃ q ∈ db.quotations, q.tenantId = caller.tenantId ∧ q.quotationNumber = a.quotationNumber

theorem run_createQuotation_ok {o : QuotationSummary} :
    (createQuotation caller a).run db = .ok o db' ↔
      ∃ p, Prices caller a db p ∧ NumberFree caller a db ∧
        o = quotationSummary a p db.quotations.freshKey ∧ db' = quotationTables caller a p db := by
  unfold createQuotation addQuotation addQuotationOption
  rw [run_bind_ok]
  simp only [run_priceQuotation_ok, run_get_bind_ok, run_failIf_bind_ok, run_modifyGet_bind_ok,
    run_modify_bind_ok, run_pure_ok]
  constructor
  · rintro ⟨p, _, ⟨hp, rfl⟩, hfree, rfl, rfl⟩
    exact ⟨p, hp, hfree, rfl, rfl⟩
  · rintro ⟨p, hp, hfree, rfl, rfl⟩
    exact ⟨p, db, ⟨hp, rfl⟩, hfree, rfl, rfl⟩

end Create

theorem run_findQuotation_ok {quotationId : String} {tenantId : Uuid} {q : Quotation} :
    (findQuotation quotationId tenantId).run db = .ok q db' ↔
      (q ∈ db.quotations ∧ parseUuid quotationId = some q.id ∧ q.tenantId = tenantId) ∧
        db = db' := by
  unfold findQuotation
  simp only [run_get_bind_ok, run_orFail_bind_ok, run_orFail_ok, Table.findWhere_eq_some_iff,
    decide_eq_true_eq]
  constructor
  · rintro ⟨id, hparse, ⟨hq, hid, htenant⟩, rfl⟩
    exact ⟨⟨hq, hparse.trans (congrArg some hid.symm), htenant⟩, rfl⟩
  · rintro ⟨⟨hq, hparse, htenant⟩, rfl⟩
    exact ⟨q.id, hparse, ⟨hq, rfl, htenant⟩, rfl⟩

section Send
variable {a : SendQuotation} {q : Quotation}

structure Sends (caller : Caller) (a : SendQuotation) (db : CommercialDatabase) (q : Quotation) :
    Prop where
  mem : q ∈ db.quotations
  id : parseUuid a.quotationId = some q.id
  tenant : q.tenantId = caller.tenantId
  status : ¬ (q.status = .cancelled ∨ q.status = .expired ∨ q.status = .accepted)
  unexpired : ¬ q.expiredBy caller.today

omit [Text] in
theorem keepsKey_send (caller : Caller) : KeepsKey (Quotation.send caller) := ⟨fun _ => rfl⟩

def sentTables (caller : Caller) (q : Quotation) (db : CommercialDatabase) : CommercialDatabase :=
  { db with quotations := db.quotations.update q.id (Quotation.send caller) (keepsKey_send caller) }

theorem run_sendQuotation_ok {o : QuotationSummary} :
    (sendQuotation caller a).run db = .ok o db' ↔
      ∃ q, Sends caller a db q ∧ o = (q.send caller).summary ∧ db' = sentTables caller q db := by
  unfold sendQuotation
  rw [run_bind_ok]
  simp only [run_findQuotation_ok, run_failIf_bind_ok, run_modify_bind_ok, run_pure_ok]
  constructor
  · rintro ⟨q, _, ⟨⟨hq, hid, htenant⟩, rfl⟩, hsendable, rfl, rfl⟩
    rw [not_or] at hsendable
    exact ⟨q, ⟨hq, hid, htenant, hsendable.1, hsendable.2⟩, rfl, rfl⟩
  · rintro ⟨q, ⟨hq, hid, htenant, hstatus, hunexpired⟩, rfl, rfl⟩
    exact ⟨q, db, ⟨⟨hq, hid, htenant⟩, rfl⟩, not_or.mpr ⟨hstatus, hunexpired⟩, rfl, rfl⟩

end Send

section Accept
variable {a : AcceptQuotation} {r : AcceptRead}

/-- What an acceptance has checked. -/
structure Accepts (caller : Caller) (a : AcceptQuotation) (db : CommercialDatabase)
    (r : AcceptRead) : Prop where
  quote : r.quote ∈ db.quotations ∧ parseUuid a.quotationId = some r.quote.id ∧
    r.quote.tenantId = caller.tenantId
  status : ¬ (r.quote.status = .accepted ∨ r.quote.status = .cancelled ∨
    r.quote.status = .expired ∨ r.quote.status = .rejected)
  unexpired : ¬ r.quote.expiredBy caller.today
  rfq : r.rfq ∈ db.rfqs ∧ r.rfq.id = r.quote.rfqId
  customer : r.customer ∈ db.customers ∧
    r.customer.id = (parsed a.customerId).getD r.rfq.customerId ∧
    r.customer.tenantId = caller.tenantId
  credit : ∃ limit, creditLimit r.customer = some limit ∧
    exposure r.customer.id db.toDatabase + r.quote.totalAmount.getD 0 ≤ limit
  quoted : (quotedRates r.quote.id db).length ≠ 0
  rates : ∀ p ∈ quotedRates r.quote.id db, p.1.approvalStatus.inForce ∧ validOn caller.today p.2
  embargo : ¬ embargoed r.rfq db

theorem run_checkAcceptance_ok :
    (checkAcceptance caller a).run db = .ok r db' ↔ Accepts caller a db r ∧ db = db' := by
  unfold checkAcceptance
  rw [run_bind_ok]
  simp only [run_findQuotation_ok, run_get_bind_ok, run_orFail_bind_ok, run_failIf_bind_ok,
    run_pure_ok, Table.findWhere_eq_some_iff, Table.find?_eq_some_iff, decide_eq_true_eq, not_lt]
  constructor
  · rintro ⟨q, _, ⟨hq, rfl⟩, hstatus, hunexpired, rfq, hrfq, c, hc, limit, hlimit, hcredit, hquoted,
      hrates, hembargo, rfl, rfl⟩
    exact ⟨⟨hq, hstatus, hunexpired, hrfq, hc, ⟨limit, hlimit, hcredit⟩, hquoted,
      fun p hp => by_contra fun hvalid => hrates ⟨p, hp, hvalid⟩, hembargo⟩, rfl⟩
  · rintro ⟨⟨hq, hstatus, hunexpired, hrfq, hc, ⟨limit, hlimit, hcredit⟩, hquoted, hrates,
      hembargo⟩, rfl⟩
    exact ⟨r.quote, db, ⟨hq, rfl⟩, hstatus, hunexpired, r.rfq, hrfq, r.customer, hc, limit, hlimit,
      hcredit, hquoted, not_exists.mpr fun p h => h.2 (hrates p h.1), hembargo, rfl, rfl⟩

/-- The unique columns that an acceptance writes to are free. -/
structure Unclaimed (caller : Caller) (r : AcceptRead) (db : CommercialDatabase) : Prop where
  job : ¬ ∃ j ∈ db.jobs, (j.tenantId = caller.tenantId ∧ j.jobNumber = jobNumber caller r.rfq db) ∨
    j.quotationId = r.quote.id
  booking : ¬ ∃ b ∈ db.bookings, b.quotationId = r.quote.id
  shipment : ¬ ∃ s ∈ db.shipments, s.bookingId = db.bookings.freshKey ∨
    s.jobId = some db.jobs.freshKey

omit [Text] in
theorem keepsKey_accept : KeepsKey Quotation.accept := ⟨fun _ => rfl⟩

omit [Text] in
theorem takesKey_newJob (caller : Caller) (r : AcceptRead) (number : String) :
    TakesKey (newJob caller r number) := ⟨fun _ => rfl⟩

omit [Text] in
theorem takesKey_newBooking (caller : Caller) (r : AcceptRead) : TakesKey (newBooking caller r) :=
  ⟨fun _ => rfl⟩

omit [Text] in
theorem takesKey_newShipment (caller : Caller) (r : AcceptRead) (jobId bookingId : Uuid) :
    TakesKey (newShipment caller r jobId bookingId) := ⟨fun _ => rfl⟩

def insertJob (caller : Caller) (r : AcceptRead) (number : String) (jobs : Table Job) : Table Job :=
  jobs.insert (newJob caller r number) (takesKey_newJob caller r number)

/-- The lines that an acceptance copies, in the order in which it reads them. -/
def copiedLines (a : AcceptQuotation) (r : AcceptRead) (db : CommercialDatabase) :
    List QuotationLine := a.lineOrder.arrange (quotedLines r.quote.id db)

/-- The tables that an acceptance leaves. -/
def acceptedTables (caller : Caller) (a : AcceptQuotation) (r : AcceptRead)
    (db : CommercialDatabase) : CommercialDatabase :=
  { db with
    quotations := db.quotations.update r.quote.id Quotation.accept keepsKey_accept
    jobs := insertJob caller r (jobNumber caller r.rfq db) db.jobs
    bookings := db.bookings.insert (newBooking caller r) (takesKey_newBooking caller r)
    shipments := db.shipments.insert (newShipment caller r db.jobs.freshKey db.bookings.freshKey)
      (takesKey_newShipment caller r _ _)
    revenueLines :=
      addEstimatedRevenue db.shipments.freshKey (copiedLines a r db) db.revenueLines
    costLines := addEstimatedCosts db.shipments.freshKey (copiedLines a r db) db.costLines
    jobTasks := addTasks caller db.jobs.freshKey db.jobTasks }

def acceptedQuotation (caller : Caller) (r : AcceptRead) (db : CommercialDatabase) :
    AcceptedQuotation where
  jobId := db.jobs.freshKey
  jobNumber := jobNumber caller r.rfq db
  quotationId := r.quote.id
  shipmentId := db.shipments.freshKey
  status := "CONFIRMED"

theorem run_acceptQuotation_ok {o : AcceptedQuotation} :
    (acceptQuotation caller a).run db = .ok o db' ↔
      ∃ r, Accepts caller a db r ∧ Unclaimed caller r db ∧ o = acceptedQuotation caller r db ∧
        db' = acceptedTables caller a r db := by
  unfold acceptQuotation addJob addBooking addShipment
  rw [run_bind_ok]
  simp only [run_checkAcceptance_ok, run_get_bind_ok, run_failIf_bind_ok, run_modifyGet_bind_ok,
    run_modify_bind_ok, run_pure_ok]
  constructor
  · rintro ⟨r, _, ⟨hr, rfl⟩, hjob, hbooking, hshipment, rfl, rfl⟩
    exact ⟨r, hr, ⟨hjob, hbooking, hshipment⟩, rfl, rfl⟩
  · rintro ⟨r, hr, ⟨hjob, hbooking, hshipment⟩, rfl, rfl⟩
    exact ⟨r, db, ⟨hr, rfl⟩, hjob, hbooking, hshipment, rfl, rfl⟩

end Accept

inductive Request where
  | createQuotation (a : CreateQuotation)
  | sendQuotation (a : SendQuotation)
  | acceptQuotation (a : AcceptQuotation)
  | generateInvoice (a : Invoicing.GenerateInvoice)

/-- A request runs in a transaction of its own; an invoice touches the finance tables only. -/
def step (settings : Invoicing.Settings) (db : CommercialDatabase) (i : Caller × Request) :
    CommercialDatabase :=
  match i.2 with
  | .createQuotation a => commit (createQuotation i.1 a) db
  | .sendQuotation a => commit (sendQuotation i.1 a) db
  | .acceptQuotation a => commit (acceptQuotation i.1 a) db
  | .generateInvoice a =>
    { db with toDatabase := commit (Invoicing.generateInvoice settings i.1 a) db.toDatabase }

/-- What a request keeps: one obligation for each operation that goes through. -/
theorem step_keeps {settings : Invoicing.Settings} {I : CommercialDatabase → Prop}
    {i : Caller × Request} (hdb : I db)
    (hcreate : ∀ a p, i.2 = .createQuotation a → Prices i.1 a db p → NumberFree i.1 a db →
      I (quotationTables i.1 a p db))
    (hsend : ∀ a q, i.2 = .sendQuotation a → Sends i.1 a db q → I (sentTables i.1 q db))
    (haccept : ∀ a r, i.2 = .acceptQuotation a → Accepts i.1 a db r → Unclaimed i.1 r db →
      I (acceptedTables i.1 a r db))
    (hinvoice : ∀ a draft number, i.2 = .generateInvoice a →
      Invoicing.Drafts i.1 a db.toDatabase draft →
      I { db with toDatabase := Invoicing.invoiceTables settings i.1 a draft number db.toDatabase }) :
    I (step settings db i) := by
  obtain ⟨caller, request⟩ := i
  cases request with
  | createQuotation a =>
    refine commit_keeps hdb fun o t h => ?_
    obtain ⟨p, hp, hfree, _, rfl⟩ := run_createQuotation_ok.mp h
    exact hcreate a p rfl hp hfree
  | sendQuotation a =>
    refine commit_keeps hdb fun o t h => ?_
    obtain ⟨q, hq, _, rfl⟩ := run_sendQuotation_ok.mp h
    exact hsend a q rfl hq
  | acceptQuotation a =>
    refine commit_keeps hdb fun o t h => ?_
    obtain ⟨r, hr, hunclaimed, _, rfl⟩ := run_acceptQuotation_ok.mp h
    exact haccept a r rfl hr hunclaimed
  | generateInvoice a =>
    refine commit_keeps (I := fun t => I { db with toDatabase := t }) hdb fun o t h => ?_
    obtain ⟨draft, number, hdraft, _, rfl⟩ := Invoicing.run_generateInvoice_ok h
    exact hinvoice a draft number rfl hdraft

namespace Verbatim

def flatRfq : Rfq := ⟨1, 1, 1, some 1, some 2, "SEA", .submitted⟩

/-- A lane with one rate of one line, and a request of a customer with a limit of 1000. -/
def lane (line : RateLine) : CommercialDatabase where
  toDatabase :=
    { Database.empty with
      customers := ⟨[⟨1, 1, some "1000", some "USD", none⟩, ⟨2, 1, some "1000", some "USD", none⟩],
        by decide⟩ }
  countries := ⟨[⟨1, false⟩], by decide⟩
  locations := ⟨[⟨1, 1⟩, ⟨2, 1⟩], by decide⟩
  rates := ⟨[⟨1, 1, .fak, some 1, some 2, none, ⟨2026, 1, 1⟩, ⟨2026, 12, 31⟩, "USD", .active⟩],
    by decide⟩
  rateVersions := ⟨[⟨1, 1, 1, .approved⟩], by decide⟩
  rateLines := ⟨[line], List.nodup_singleton _⟩
  rateSurcharges := .empty
  rfqs := ⟨[flatRfq], List.nodup_singleton _⟩
  rfqCargoLines := ⟨[⟨1, 1, some 500, some 2⟩], by decide⟩
  rfqContainerRequirements := ⟨[⟨1, 1, "40HC", 2⟩], by decide⟩
  quotations := .empty
  quotationOptions := .empty
  quotationApprovals := .empty
  jobs := .empty
  jobTasks := .empty
  bookings := .empty

def freight (amount : Money) : RateLine := ⟨1, 1, "OFR", .other "FLAT", none, none, none, amount⟩

def quoteOf (quotationNumber : String) (markupPct : ℚ) (currencyCode : String) :
    CreateQuotation where
  rfqId := "1"
  quotationNumber := quotationNumber
  expiryDate := none
  markupPct := markupPct
  currencyCode := some currencyCode
  rateId := none
  rateOrder := .stored
  lineOrder := .stored
  surchargeOrder := .stored

def acceptOf (quotationId : String) (customerId : Option String) : AcceptQuotation :=
  { quotationId, customerId, lineOrder := .stored }

end Verbatim

end Friet.Commercial
