import Friet.Commercial.Steps

/-!
# The credit limit over runs

An acceptance is checked against the customer's open invoices. What has been
accepted and not been invoiced is in none of them, so the check is right where
nothing of the customer's waits for its invoice.
-/

set_option autoImplicit false

namespace Friet.Commercial

open Session Rounding.Exact

/-- There is an invoice for the shipment of the job. -/
def Invoiced (db : CommercialDatabase) (j : Job) : Prop :=
  ∃ s ∈ db.shipments, s.jobId = some j.id ∧ ∃ i ∈ db.invoices, i.shipmentId = s.id

instance (db : CommercialDatabase) (j : Job) : Decidable (Invoiced db j) :=
  inferInstanceAs (Decidable (∃ s ∈ db.shipments, _))

/-- The quotation has been accepted for the customer and is still to be invoiced. -/
def AwaitsInvoice (customerId : Uuid) (db : CommercialDatabase) (q : Quotation) : Prop :=
  q.status = .accepted ∧
    ∃ j ∈ db.jobs, (j.quotationId = q.id ∧ j.customerId = customerId) ∧ ¬ Invoiced db j

instance (customerId : Uuid) (db : CommercialDatabase) (q : Quotation) :
    Decidable (AwaitsInvoice customerId db q) :=
  inferInstanceAs (Decidable (_ ∧ ∃ j ∈ db.jobs, _))

def committed (customerId : Uuid) (db : CommercialDatabase) : Money :=
  db.quotations.sum (fun q => AwaitsInvoice customerId db q) (·.totalAmount.getD 0)

/-- Every invoice is for a shipment, as its foreign key says. -/
def InvoicesShipped (db : CommercialDatabase) : Prop :=
  ∀ i ∈ db.invoices, ∃ s ∈ db.shipments, s.id = i.shipmentId

section Acceptance
variable [Text] {caller : Caller} {db : CommercialDatabase} {a : AcceptQuotation} {r : AcceptRead}

omit [Text] in
theorem invoiced_acceptedTables {j : Job} (hj : j ∈ db.jobs) :
    Invoiced (acceptedTables caller a r db) j ↔ Invoiced db j := by
  constructor
  · rintro ⟨s, hs, hjob, hinvoice⟩
    rcases Table.mem_insert.mp hs with hs | rfl
    · exact ⟨s, hs, hjob, hinvoice⟩
    · have hlt : j.id < db.jobs.freshKey := Table.key_lt_freshKey hj
      exact absurd (Option.some.inj hjob).symm (ne_of_lt hlt)
  · rintro ⟨s, hs, hjob, hinvoice⟩
    exact ⟨s, Table.mem_insert_of_mem hs, hjob, hinvoice⟩

omit [Text] in
theorem not_invoiced_newJob (hdb : InvoicesShipped db) (hfree : Unclaimed caller r db) :
    ¬ Invoiced (acceptedTables caller a r db)
      (newJob caller r (jobNumber caller r.rfq db) db.jobs.freshKey) := by
  rintro ⟨s, hs, hjob, i, hi, hinvoice⟩
  rcases Table.mem_insert.mp hs with hs | rfl
  · exact hfree.shipment ⟨s, hs, Or.inr hjob⟩
  · obtain ⟨s, hs, hid⟩ := hdb i hi
    have hlt : s.id < db.shipments.freshKey := Table.key_lt_freshKey hs
    exact absurd (hid.trans hinvoice) (ne_of_lt hlt)

omit [Text] in
/-- The same quotations await an invoice as before, but for the accepted one. -/
theorem awaitsInvoice_acceptedTables {q : Quotation} (hq : q ∈ db.quotations)
    (hr : r.quote ∈ db.quotations) (hopen : r.quote.status ≠ .accepted) (customerId : Uuid) :
    AwaitsInvoice customerId (acceptedTables caller a r db) q ↔ AwaitsInvoice customerId db q := by
  refine and_congr_right fun haccepted => ?_
  constructor
  · rintro ⟨j, hj, ⟨hquotation, hcustomer⟩, hinvoice⟩
    rcases Table.mem_insert.mp hj with hj | rfl
    · exact ⟨j, hj, ⟨hquotation, hcustomer⟩, fun h => hinvoice ((invoiced_acceptedTables hj).mpr h)⟩
    · exact absurd (Table.eq_of_key_eq hr hq hquotation ▸ haccepted) hopen
  · rintro ⟨j, hj, hquotation, hinvoice⟩
    exact ⟨j, Table.mem_insert_of_mem hj, hquotation,
      fun h => hinvoice ((invoiced_acceptedTables hj).mp h)⟩

theorem committed_acceptedTables (hdb : InvoicesShipped db) (hr : Accepts caller a db r)
    (hfree : Unclaimed caller r db) :
    committed r.customer.id (acceptedTables caller a r db) =
      committed r.customer.id db + r.quote.totalAmount.getD 0 := by
  have hopen : r.quote.status ≠ .accepted := fun h => hr.status (Or.inl h)
  have hupdate := Table.sum_update db.quotations
    (fun q => AwaitsInvoice r.customer.id (acceptedTables caller a r db) q)
    (·.totalAmount.getD 0) hr.quote.1 (k := r.quote.id) keepsKey_accept
  have hbefore : ¬ AwaitsInvoice r.customer.id (acceptedTables caller a r db) r.quote :=
    fun h => hopen h.1
  have hafter : AwaitsInvoice r.customer.id (acceptedTables caller a r db) r.quote.accept :=
    ⟨rfl, _, Table.mem_insert_self, ⟨rfl, rfl⟩, not_invoiced_newJob hdb hfree⟩
  have hsame : db.quotations.sum
      (fun q => AwaitsInvoice r.customer.id (acceptedTables caller a r db) q)
      (·.totalAmount.getD 0) = committed r.customer.id db :=
    Table.sum_congr (fun q hq => decide_eq_decide.mpr
      (awaitsInvoice_acceptedTables hq hr.quote.1 hopen r.customer.id)) fun _ _ _ => rfl
  rw [hsame, if_neg (by simpa using hbefore), if_pos (decide_eq_true hafter), add_zero] at hupdate
  exact hupdate

end Acceptance

section Run
variable [Text] {settings : Invoicing.Settings} {caller : Caller} {db : CommercialDatabase}

theorem run_creditPosition_ok {customerId : String} {tenantId : Uuid} {p : CreditPosition}
    {db' : CommercialDatabase} (h : (creditPosition customerId tenantId).run db = .ok (some p) db') :
    ∃ c ∈ db.customers, parseUuid customerId = some c.id ∧ ∃ limit, creditLimit c = some limit ∧
      p = creditPositionOf c limit db.toDatabase := by
  unfold creditPosition at h
  rw [run_get_bind_ok] at h
  split at h
  · rw [run_pure_ok] at h
    cases h.1
  · rename_i c hc
    simp only [run_orFail_bind_ok, run_pure_ok] at h
    obtain ⟨limit, hlimit, hp, rfl⟩ := h
    obtain ⟨id, hparse, hfind⟩ := Option.bind_eq_some_iff.mp hc
    obtain ⟨hmem, hid, _⟩ := Table.findWhere_eq_some_iff.mp hfind
    exact ⟨c, hmem, hparse.trans (congrArg some hid.symm), limit, hlimit,
      (Option.some.inj hp).symm⟩

/-- Open invoices and what is still to be invoiced fit in the limit. -/
def WithinLimit (db : CommercialDatabase) (c : Customer) : Prop :=
  ∀ limit, creditLimit c = some limit →
    exposure c.id db.toDatabase + committed c.id db ≤ limit

def ReportedBlocked (caller : Caller) (db : CommercialDatabase) (c : Customer) : Prop :=
  ∃ customerId p db', parseUuid customerId = some c.id ∧
    (creditPosition customerId caller.tenantId).run db = .ok (some p) db' ∧ p.isBlocked = true

/-- An acceptance keeps the customer of its job within the limit, and is refused to a blocked one. -/
def CreditHeld (db : CommercialDatabase) (i : Caller × Request) : Prop :=
  match i.2 with
  | .acceptQuotation a => ∀ o db', (acceptQuotation i.1 a).run db = .ok o db' →
    ∀ c ∈ db'.customers, (∃ j ∈ db'.jobs, j.id = o.jobId ∧ j.customerId = c.id) →
      WithinLimit db' c ∧ ¬ ReportedBlocked i.1 db c
  | _ => True

/-- Nothing of the customer's waits for its invoice or is overdue, and an invoice makes a difference
or there is credit left. -/
structure CreditCounted (db : CommercialDatabase) (c : Customer) (q : Quotation) : Prop where
  counted : committed c.id db ≤ 0
  timely : ∀ i ∈ db.invoices, ¬ overdue c.id i
  positive : 0 < q.totalAmount.getD 0 ∨
    ∀ limit ∈ creditLimit c, exposure c.id db.toDatabase < limit

instance (db : CommercialDatabase) (c : Customer) (q : Quotation) :
    Decidable (CreditCounted db c q) :=
  decidable_of_iff (committed c.id db ≤ 0 ∧ (∀ i ∈ db.invoices, ¬ overdue c.id i) ∧
      (0 < q.totalAmount.getD 0 ∨ ∀ limit ∈ creditLimit c, exposure c.id db.toDatabase < limit))
    ⟨fun h => ⟨h.1, h.2.1, h.2.2⟩, fun h => ⟨h.counted, h.timely, h.positive⟩⟩

/-- The quotation and the customer that an acceptance names. -/
def Charges (a : AcceptQuotation) (db : CommercialDatabase) (q : Quotation) (c : Customer) : Prop :=
  parseUuid a.quotationId = some q.id ∧
    ∃ rfq ∈ db.rfqs, rfq.id = q.rfqId ∧ c.id = (parsed a.customerId).getD rfq.customerId

instance (a : AcceptQuotation) (db : CommercialDatabase) (q : Quotation) (c : Customer) :
    Decidable (Charges a db q c) := inferInstanceAs (Decidable (_ ∧ ∃ rfq ∈ db.rfqs, _))

def CountsCredit (db : CommercialDatabase) (i : Caller × Request) : Prop :=
  match i.2 with
  | .acceptQuotation a => ∀ q ∈ db.quotations, ∀ c ∈ db.customers, Charges a db q c →
    CreditCounted db c q
  | _ => True

instance (db : CommercialDatabase) (i : Caller × Request) : Decidable (CountsCredit db i) :=
  match i with
  | (_, .createQuotation _) => inferInstanceAs (Decidable True)
  | (_, .sendQuotation _) => inferInstanceAs (Decidable True)
  | (_, .acceptQuotation _) => inferInstanceAs (Decidable (∀ q ∈ db.quotations, _))
  | (_, .generateInvoice _) => inferInstanceAs (Decidable True)

theorem InvoicesShipped.afterStep {i : Caller × Request} (h : InvoicesShipped db) :
    InvoicesShipped (step settings db i) := by
  obtain ⟨caller, request⟩ := i
  apply step_keeps h
  · exact fun _ _ _ _ _ => h
  · exact fun _ _ _ _ => h
  · intro a r _ _ _ i hi
    obtain ⟨s, hs, hid⟩ := h i hi
    exact ⟨s, Table.mem_insert_of_mem hs, hid⟩
  · intro a draft number _ hdraft i hi
    rcases Table.mem_insert.mp hi with hi | rfl
    · exact h i hi
    · exact ⟨draft.shipment, hdraft.shipment.1, hdraft.shipment.2.1⟩

theorem ReportedBlocked.reason {c : Customer} (h : ReportedBlocked caller db c)
    (hc : c ∈ db.customers) : ∃ limit, creditLimit c = some limit ∧
      (limit ≤ exposure c.id db.toDatabase ∨ ∃ i ∈ db.invoices, overdue c.id i) := by
  obtain ⟨customerId, p, db', hparse, hrun, hblocked⟩ := h
  obtain ⟨c', hc', hparse', limit, hlimit, rfl⟩ := run_creditPosition_ok hrun
  have hid : c'.id = c.id := Option.some.inj (hparse'.symm.trans hparse)
  obtain rfl : c' = c := Table.eq_of_key_eq hc' hc hid
  exact ⟨limit, hlimit, of_decide_eq_true hblocked⟩

theorem creditHeld_of_counts {i : Caller × Request} (hdb : InvoicesShipped db)
    (hi : CountsCredit db i) : CreditHeld db i := by
  obtain ⟨caller, request⟩ := i
  cases request with
  | createQuotation a => exact trivial
  | sendQuotation a => exact trivial
  | generateInvoice a => exact trivial
  | acceptQuotation a =>
    intro o db' h c hc ⟨j, hj, hid, hcustomer⟩
    obtain ⟨r, hr, hfree, rfl, rfl⟩ := run_acceptQuotation_ok.mp h
    -- The job is the new one, so the customer is the one that was checked.
    obtain rfl : j = newJob caller r (jobNumber caller r.rfq db) db.jobs.freshKey :=
      Table.eq_of_key_eq hj Table.mem_insert_self hid
    obtain rfl : r.customer = c := Table.eq_of_key_eq hr.customer.1 hc hcustomer
    have hcounted : CreditCounted db r.customer r.quote :=
      hi r.quote hr.quote.1 r.customer hc ⟨hr.quote.2.1, r.rfq, hr.rfq.1, hr.rfq.2, hr.customer.2.1⟩
    obtain ⟨limit, hlimit, hfits⟩ := hr.credit
    constructor
    · intro limit' hlimit'
      obtain rfl : limit = limit' := Option.some.inj (hlimit.symm.trans hlimit')
      calc exposure r.customer.id db.toDatabase +
            committed r.customer.id (acceptedTables caller a r db)
          = exposure r.customer.id db.toDatabase + r.quote.totalAmount.getD 0 +
              committed r.customer.id db := by
            rw [committed_acceptedTables hdb hr hfree]
            ring
        _ ≤ limit + 0 := add_le_add hfits hcounted.counted
        _ = limit := add_zero limit
    · intro hblocked
      obtain ⟨limit', hlimit', hreason⟩ := hblocked.reason hr.customer.1
      obtain rfl : limit = limit' := Option.some.inj (hlimit.symm.trans hlimit')
      rcases hreason with hfull | ⟨i, hinv, hoverdue⟩
      · rcases hcounted.positive with hpos | hleft
        · linarith
        · exact absurd hfull (not_le.mpr (hleft limit hlimit))
      · exact hcounted.timely i hinv hoverdue

theorem credit_held {calls : List (Caller × Request)} (hdb : InvoicesShipped db)
    (hcalls : Meets (step settings) CountsCredit db calls) :
    Meets (step settings) CreditHeld db calls :=
  hcalls.imp InvoicesShipped (fun _ _ ht _ => ht.afterStep)
    (fun _ _ ht hi => creditHeld_of_counts ht hi) hdb

end Run

section Verbatim
open Friet.Verbatim Commercial.Verbatim

theorem lane_invoicesShipped (line : RateLine) : InvoicesShipped (lane line) :=
  fun _ h => absurd h (Table.not_mem_empty _)

def quoted (number : String) : Caller × Request := (clerk, .createQuotation (quoteOf number 20 "USD"))

def accepted (quotationId : String) : Caller × Request :=
  (clerk, .acceptQuotation (acceptOf quotationId none))

def billed (shipmentId : Uuid) : Caller × Request :=
  (clerk, .generateInvoice { Invoicing.generateFor none .stored with shipmentId := shipmentId })

theorem credit_held_billed : Meets (step ⟨0⟩) CreditHeld (lane (freight 300))
    [quoted "QT-1", accepted "0", billed 0, quoted "QT-2", accepted "1"] :=
  credit_held (lane_invoicesShipped _)
    (show Meets (step ⟨0⟩) CountsCredit (lane (freight 300))
      [quoted "QT-1", accepted "0", billed 0, quoted "QT-2", accepted "1"] by decide +kernel)

/-- Two quotations of 600 before the first invoice: both are accepted on a limit of 1000. -/
def twoQuoted : CommercialDatabase :=
  [quoted "QT-1", accepted "0", quoted "QT-2"].foldl (step ⟨0⟩) (lane (freight 500))

theorem limit_exceeded_before_billing : ¬ Meets (step ⟨0⟩) CreditHeld (lane (freight 500))
    [quoted "QT-1", accepted "0", quoted "QT-2", accepted "1"] := by
  rintro ⟨_, _, _, hheld, _⟩
  have hin : Succeeds (acceptQuotation clerk (acceptOf "1" none)) twoQuoted := by decide +kernel
  obtain ⟨o, t, hrun⟩ := hin
  have hjob : o.jobId = twoQuoted.jobs.freshKey := by
    obtain ⟨r, _, _, rfl, _⟩ := run_acceptQuotation_ok.mp hrun
    rfl
  obtain rfl : commit (acceptQuotation clerk (acceptOf "1" none)) twoQuoted = t := commit_of_ok hrun
  have hcustomer : ∃ c ∈ (commit (acceptQuotation clerk (acceptOf "1" none)) twoQuoted).customers,
      (∃ j ∈ (commit (acceptQuotation clerk (acceptOf "1" none)) twoQuoted).jobs,
        j.id = twoQuoted.jobs.freshKey ∧ j.customerId = c.id) ∧ creditLimit c = some 1000 ∧
      ¬ exposure c.id (commit (acceptQuotation clerk (acceptOf "1" none)) twoQuoted).toDatabase +
        committed c.id (commit (acceptQuotation clerk (acceptOf "1" none)) twoQuoted) ≤ 1000 := by
    decide +kernel
  obtain ⟨c, hc, hj, hlimit, hover⟩ := hcustomer
  exact hover ((hheld o _ hrun c hc (hjob ▸ hj)).1 1000 hlimit)

end Verbatim

end Friet.Commercial
