import Friet.Core
import Friet.Lib.Session
import Friet.Lib.Table
import Mathlib.Data.List.Sort

/-!
# Accounts receivable: `ARService`

The repository hands out its live rows, and the service writes to them in place; an
exception takes nothing back. Which invoices `get_active_invoices` selects is a
parameter. A point in time is a number of microseconds. Amounts are decimals, and how
many digits of a result are kept is left to `Arithmetic`.
-/

set_option autoImplicit false

namespace Friet.Ar

open Session Rounding

structure InvoiceModel where
  id : Uuid
  tenantId : Uuid
  customerId : Uuid
  currency : String
  totalAmount : Money
  paidAmount : Money
  dueDate : Timestamp
  status : String
  deriving DecidableEq

structure PaymentModel where
  id : Uuid
  tenantId : Uuid
  customerId : Uuid
  unallocatedAmount : Money
  currency : String
  status : String
  deriving DecidableEq

structure PaymentAllocationModel where
  id : Uuid
  tenantId : Uuid
  paymentId : Uuid
  invoiceId : Uuid
  amount : Money
  allocatedAt : Timestamp
  createdBy : Option Uuid
  deriving DecidableEq

instance : Keyed InvoiceModel := ⟨InvoiceModel.id⟩

instance : Keyed PaymentModel := ⟨PaymentModel.id⟩

instance : Keyed PaymentAllocationModel := ⟨PaymentAllocationModel.id⟩

structure Books where
  invoices : Table InvoiceModel
  payments : Table PaymentModel
  allocations : Table PaymentAllocationModel
  lock : Bool

/-- What `get_active_invoices` selects by tenant, customer and currency, and in which order. -/
structure ArRepository where
  selects : Uuid → Option Uuid → Option String → InvoiceModel → Bool
  order : RowOrder InvoiceModel

def getActiveInvoices (repo : ArRepository) (tenantId : Uuid) (customerId : Option Uuid)
    (currency : Option String) (books : Books) : List InvoiceModel :=
  repo.order.arrange (books.invoices.rows.filter (repo.selects tenantId customerId currency ·))

/-- Who calls, and when. -/
structure ArService where
  tenantId : Uuid
  userId : Option Uuid
  now : Timestamp

structure HttpException where
  statusCode : ℕ
  detail : String
  deriving DecidableEq

abbrev Service := EStateM HttpException Books

/-- The lock is released whether the body returns or raises. -/
def withLock {ε σ α : Type} (setLock : Bool → σ → σ) (body : EStateM ε σ α) : EStateM ε σ α :=
  fun s =>
    match body.run (setLock true s) with
    | .ok a t => .ok a (setLock false t)
    | .error e t => .error e (setLock false t)

def Books.setLock (lock : Bool) (books : Books) : Books := { books with lock }

structure ManualAllocation where
  invoiceId : Uuid
  amount : Money
  amount_pos : 0 < amount

structure PaymentAllocationRequest where
  allocationType : String
  manualAllocations : Option (List ManualAllocation)

structure AllocationRecord where
  allocationId : Uuid
  invoiceId : Uuid
  allocatedAmount : Money
  deriving DecidableEq

structure PaymentAllocationResponse where
  paymentId : Uuid
  totalAllocated : Money
  remainingUnallocated : Money
  allocations : List AllocationRecord
  deriving DecidableEq

section Allocate
variable [Arithmetic]

def InvoiceModel.outstanding (inv : InvoiceModel) : Money :=
  fl (inv.totalAmount - inv.paidAmount)

def InvoiceModel.receive (amount : Money) (inv : InvoiceModel) : InvoiceModel :=
  { inv with
    paidAmount := fl (inv.paidAmount + amount)
    status := if fl (inv.paidAmount + amount) = inv.totalAmount then "PAID" else "PARTIAL" }

def PaymentModel.use (amount : Money) (payment : PaymentModel) : PaymentModel :=
  { payment with
    unallocatedAmount := fl (payment.unallocatedAmount - amount)
    status := if fl (payment.unallocatedAmount - amount) = 0 then "ALLOCATED" else "PARTIAL" }

/-- `total_allocated` and `allocations`. -/
structure Progress where
  total : Money
  allocations : List (Uuid × Money)

def Progress.none : Progress := ⟨0, []⟩

def Progress.push (acc : Progress) (invoiceId : Uuid) (amount : Money) : Progress :=
  ⟨fl (acc.total + amount), acc.allocations ++ [(invoiceId, amount)]⟩

/-- The invoice of the list that is asked for, as it is now. -/
def findInvoice (eligible : List Uuid) (invoiceId : Uuid) (books : Books) : Option InvoiceModel :=
  if eligible.contains invoiceId then books.invoices.find? invoiceId else none

def pay (invoiceId : Uuid) (amount : Money) : Service Unit :=
  modify fun books => { books with invoices := books.invoices.update invoiceId (·.receive amount) }

/-- One entry is checked and paid before the next one is looked at. -/
def allocateEntry [Text] (eligible : List Uuid) (unallocated : Money) (acc : Progress)
    (entry : ManualAllocation) : Service Progress := do
  let books ← get
  let inv ← orFail (findInvoice eligible entry.invoiceId books)
    ⟨400, s!"Invoice {uuidStr entry.invoiceId} not found or invalid"⟩
  failIf (inv.outstanding < entry.amount)
    ⟨400, s!"Amount exceeds outstanding balance for invoice {uuidStr inv.id}"⟩
  failIf (fl (unallocated - acc.total) < entry.amount)
    ⟨400, "Total allocation exceeds payment unallocated amount"⟩
  pay inv.id entry.amount
  pure (acc.push inv.id entry.amount)

/-- Invoice after invoice is paid as far as the money goes. -/
def autoAllocate : List Uuid → Money → Progress → Service Progress
  | [], _, acc => pure acc
  | invoiceId :: rest, remaining, acc =>
    if remaining ≤ 0 then pure acc
    else do
      let books ← get
      match books.invoices.find? invoiceId with
      | some inv => do
        let amount := min inv.outstanding remaining
        pay inv.id amount
        autoAllocate rest (fl (remaining - amount)) (acc.push inv.id amount)
      | none => autoAllocate rest remaining acc

/-- Oldest first, or newest first; both sorts are stable. -/
def inDueOrder (allocationType : String) (invoices : List InvoiceModel) : List InvoiceModel :=
  if allocationType = "LIFO" then invoices.insertionSort fun i j => j.dueDate ≤ i.dueDate
  else invoices.insertionSort fun i j => i.dueDate ≤ j.dueDate

/-- The entries of a manual request; without any the money is spread automatically. -/
def PaymentAllocationRequest.entries (p : PaymentAllocationRequest) : List ManualAllocation :=
  if p.allocationType = "MANUAL" then p.manualAllocations.getD [] else []

def allocateTo [Text] (p : PaymentAllocationRequest) (invoices : List InvoiceModel)
    (unallocated : Money) : Service Progress :=
  match p.entries with
  | [] => autoAllocate ((inDueOrder p.allocationType invoices).map (·.id)) unallocated .none
  | entries => entries.foldlM (allocateEntry (invoices.map (·.id)) unallocated) .none

/-- `save_allocation`, and what the response says of it. -/
def saveAllocation (svc : ArService) (paymentId : Uuid)
    (acc : Table PaymentAllocationModel × List AllocationRecord) (a : Uuid × Money) :
    Table PaymentAllocationModel × List AllocationRecord :=
  (acc.1.insert fun id => ⟨id, svc.tenantId, paymentId, a.1, a.2, svc.now, svc.userId⟩,
    acc.2 ++ [⟨acc.1.freshKey, a.1, a.2⟩])

def findPayment (svc : ArService) (paymentId : Uuid) (books : Books) : Option PaymentModel :=
  (books.payments.find? paymentId).filter (·.tenantId = svc.tenantId)

def eligibleInvoices (repo : ArRepository) (svc : ArService) (payment : PaymentModel)
    (books : Books) : List InvoiceModel :=
  (getActiveInvoices repo svc.tenantId (some payment.customerId) (some payment.currency) books).filter
    fun inv => 0 < inv.outstanding

def allocatePayment [Text] (repo : ArRepository) (svc : ArService) (paymentId : Uuid)
    (p : PaymentAllocationRequest) : Service PaymentAllocationResponse := withLock Books.setLock do
  let books ← get
  let payment ← orFail (findPayment svc paymentId books) ⟨404, "Payment not found"⟩
  failIf (payment.unallocatedAmount ≤ 0) ⟨400, "Payment fully allocated"⟩
  let done ← allocateTo p (eligibleInvoices repo svc payment books) payment.unallocatedAmount
  failIf (done.total = 0) ⟨400, "No eligible invoices for allocation"⟩
  modify fun books => { books with payments := books.payments.update payment.id (·.use done.total) }
  let books ← get
  let saved := done.allocations.foldl (saveAllocation svc payment.id) (books.allocations, [])
  set { books with allocations := saved.1 }
  pure ⟨payment.id, done.total, fl (payment.unallocatedAmount - done.total), saved.2⟩

end Allocate

end Friet.Ar
