import Friet.Ar.Aging

/-!
# Customer and currency: `ARRepository`

`ARRepository` hands out rows of `ar_payments` and `invoices`. Neither table has a column for what
the service asks for first, the unallocated amount of a payment and the paid one of an invoice, so
that no invoice is changed or listed. What the service would go on to do is a parameter.
-/

set_option autoImplicit false

namespace Friet.Ar.Repository

open Session

/-- A row of `invoices`. -/
structure Invoice where
  id : Uuid
  tenantId : Uuid
  customerId : Uuid
  currencyCode : String
  subtotalAmount : Money
  taxAmount : Money
  totalAmount : Money
  amount : Money
  dueDate : Option Date
  status : String
  deriving DecidableEq

/-- A row of `ar_payments`. -/
structure ArPayment where
  id : Uuid
  tenantId : Uuid
  customerId : Option Uuid
  amount : Money
  currencyCode : Option String
  deriving DecidableEq

instance : Keyed Invoice := ⟨Invoice.id⟩

instance : Keyed ArPayment := ⟨ArPayment.id⟩

inductive Raised where
  | http (e : HttpException)
  | attributeError (cls name : String)
  | other (cls : String)
  deriving DecidableEq

/-- An attribute that is an amount, by its name. -/
def Invoice.getAmount (inv : Invoice) (name : String) : Except Raised Money :=
  if name = "subtotal_amount" then .ok inv.subtotalAmount
  else if name = "tax_amount" then .ok inv.taxAmount
  else if name = "total_amount" then .ok inv.totalAmount
  else if name = "amount" then .ok inv.amount
  else .error (.attributeError "Invoice" name)

def ArPayment.getAmount (payment : ArPayment) (name : String) : Except Raised Money :=
  if name = "amount" then .ok payment.amount
  else .error (.attributeError "ARPayment" name)

structure Rows where
  invoices : Table Invoice
  payments : Table ArPayment
  lock : Bool

def Rows.setLock (lock : Bool) (rows : Rows) : Rows := { rows with lock }

def getActiveInvoices (order : RowOrder Invoice) (tenantId : Uuid) (_customerId : Option Uuid)
    (_currency : Option String) (rows : Rows) : List Invoice :=
  order.arrange (rows.invoices.rows.filter (·.tenantId = tenantId))

def getPaymentById (paymentId : Uuid) (rows : Rows) : Option ArPayment :=
  rows.payments.find? paymentId

/-- `allocate_payment`, with what it does once it knows what is left of the payment. -/
def allocatePayment (allocate : ArPayment → Money → EStateM Raised Rows PaymentAllocationResponse)
    (svc : ArService) (paymentId : Uuid) : EStateM Raised Rows PaymentAllocationResponse :=
  withLock Rows.setLock do
    let rows ← get
    let payment ← orFail ((getPaymentById paymentId rows).filter (·.tenantId = svc.tenantId))
      (.http ⟨404, "Payment not found"⟩)
    let unallocated ← orRaise (payment.getAmount "unallocated_amount")
    failIf (unallocated ≤ 0) (.http ⟨400, "Payment fully allocated"⟩)
    allocate payment unallocated

/-- `get_aging_report`, with what it does to add an invoice of which so much is paid. -/
def getAgingReport (addInvoice : Aged → Invoice → Money → Money → Except Raised Aged)
    (order : RowOrder Invoice) (svc : ArService) (rows : Rows) (asOf : Timestamp)
    (currency : String) (customerId : Option Uuid) : Except Raised ArAgingReport := do
  let aged ← (getActiveInvoices order svc.tenantId customerId (some currency) rows).foldlM
    (fun aged inv => do
      let total ← inv.getAmount "total_amount"
      let paid ← inv.getAmount "paid_amount"
      addInvoice aged inv total paid) ([], 0)
  pure ⟨asOf, svc.tenantId, currency, aged.2, aged.1.map (·.2)⟩

/-- Only invoices of the payment's customer, in its currency, have changed. -/
def ChangesOwnOnly (paymentId : Uuid) (rows rows' : Rows) : Prop :=
  ∀ inv ∈ rows.invoices, inv ∉ rows'.invoices →
    ∃ payment, getPaymentById paymentId rows = some payment ∧
      some inv.customerId = payment.customerId ∧ some inv.currencyCode = payment.currencyCode

/-- Only invoices in the currency, and of the customer if one is given, are in the report and in
its grand total. -/
structure ListsOnly (r : ArAgingReport) (currency : String) (customerId : Option Uuid) :
    Prop where
  listed : ∀ s ∈ r.customerSummaries, ∀ i ∈ s.invoices,
    i.currency = currency ∧ ∀ c, customerId = some c → i.customerId = c
  grand : r.grandTotalOutstanding =
    ((r.customerSummaries.flatMap (·.invoices)).map (·.outstandingBalance)).sum

section Restricted
variable {order : RowOrder Invoice} {svc : ArService} {rows : Rows} {asOf : Timestamp}
  {currency : String} {customerId : Option Uuid} {paymentId : Uuid}
  {allocate : ArPayment → Money → EStateM Raised Rows PaymentAllocationResponse}
  {addInvoice : Aged → Invoice → Money → Money → Except Raised Aged}

/-- There is no such payment, or it cannot say what is left of it. -/
theorem run_allocatePayment : (allocatePayment allocate svc paymentId).run rows =
    .error (if ((getPaymentById paymentId rows).filter (·.tenantId = svc.tenantId)).isSome then
      .attributeError "ARPayment" "unallocated_amount" else .http ⟨404, "Payment not found"⟩)
      (rows.setLock false) := by
  have hlocked : getPaymentById paymentId (rows.setLock true) = getPaymentById paymentId rows := rfl
  change withLock Rows.setLock _ rows = _
  unfold withLock
  rw [run_bind_of_ok (run_get_ok.mpr ⟨rfl, rfl⟩), hlocked]
  cases (getPaymentById paymentId rows).filter (·.tenantId = svc.tenantId) with
  | none => rfl
  | some payment => rfl

theorem getAgingReport_of_cons {inv : Invoice} {rest : List Invoice}
    (h : getActiveInvoices order svc.tenantId customerId (some currency) rows = inv :: rest) :
    getAgingReport addInvoice order svc rows asOf currency customerId =
      .error (.attributeError "Invoice" "paid_amount") := by
  unfold getAgingReport
  rw [h]
  rfl

theorem getAgingReport_of_nil
    (h : getActiveInvoices order svc.tenantId customerId (some currency) rows = []) :
    getAgingReport addInvoice order svc rows asOf currency customerId =
      .ok ⟨asOf, svc.tenantId, currency, 0, []⟩ := by
  unfold getAgingReport
  rw [h]
  rfl

/-- Whatever else the service does, it stays within customer and currency. -/
theorem restricted (order : RowOrder Invoice) (svc : ArService) (rows : Rows)
    (allocate : ArPayment → Money → EStateM Raised Rows PaymentAllocationResponse)
    (addInvoice : Aged → Invoice → Money → Money → Except Raised Aged) :
    (∀ paymentId, ChangesOwnOnly paymentId rows
      (after (allocatePayment allocate svc paymentId) rows)) ∧
    ∀ asOf currency customerId r,
      getAgingReport addInvoice order svc rows asOf currency customerId = .ok r →
        ListsOnly r currency customerId := by
  constructor
  · intro paymentId inv hinv hchanged
    unfold after at hchanged
    rw [run_allocatePayment] at hchanged
    exact absurd hinv hchanged
  · intro asOf currency customerId r hr
    cases hactive : getActiveInvoices order svc.tenantId customerId (some currency) rows with
    | nil =>
      rw [getAgingReport_of_nil hactive] at hr
      cases hr
      exact ⟨fun s hs => absurd hs List.not_mem_nil, rfl⟩
    | cons inv rest =>
      rw [getAgingReport_of_cons hactive] at hr
      cases hr

end Restricted

end Friet.Ar.Repository
