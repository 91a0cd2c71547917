import Friet.Invoicing.Receivables
import Friet.Lib.Snapshot
import Friet.Payables.Lifecycle

/-!
# Payments and credit notes in flight

Both operations read a row and a committed sum, check the new amount against
them, and insert it in the same transaction without having locked the row. Two
requests can both pass the check; a request whose reads are still current when
it writes cannot overshoot.
-/

set_option autoImplicit false

namespace Friet.Concurrency

open Session Rounding Exact Payables Invoicing

inductive Request where
  | recordPayment (caller : Caller) (a : RecordPayment)
  | createCreditNote (caller : Caller) (a : CreateCreditNote)

inductive Read where
  | payment (r : PaymentRead)
  | creditNote (r : CreditNoteRead)
  deriving DecidableEq

section Phases
variable [Text]

def readPhase : Request → Database → Option Read
  | .recordPayment caller a, db =>
    (outcome (recordPaymentRead caller a) db).map fun o => .payment o.1
  | .createCreditNote caller a, db =>
    (outcome (createCreditNoteRead caller a) db).map fun o => .creditNote o.1

/-- Writing and committing; a failure rolls back. -/
def writePhase : Request → Read → Database → Option Database
  | .recordPayment caller a, .payment r, db =>
    (outcome (recordPaymentWrite caller a r) db).map (·.2)
  | .createCreditNote caller a, .creditNote r, db =>
    (outcome (createCreditNoteWrite caller a r) db).map (·.2)
  | _, _, _ => none

/-- A request at once changes nothing, or does what its checked amounts say. -/
theorem atomic_cases (db : Database) (i : Request) :
    Snapshot.atomic readPhase writePhase db i = db ∨
      (∃ caller a r, i = .recordPayment caller a ∧ Payable.Accepts caller a db r ∧
        Snapshot.atomic readPhase writePhase db i = payTables caller a r db) ∨
      ∃ caller a r number, i = .createCreditNote caller a ∧ Invoice.Creditable caller a db r ∧
        Snapshot.atomic readPhase writePhase db i = creditTables caller a r number db := by
  unfold Snapshot.atomic
  cases hread : readPhase i db with
  | none => exact Or.inl rfl
  | some o =>
    cases hwrite : writePhase i o db with
    | none => exact Or.inl (by simp [hwrite])
    | some t =>
      right
      simp only [hwrite, Option.getD_some]
      cases i with
      | recordPayment caller a =>
        obtain ⟨⟨r, _⟩, hr, rfl⟩ := Option.map_eq_some_iff.mp hread
        obtain ⟨⟨d, _⟩, hw, rfl⟩ := Option.map_eq_some_iff.mp hwrite
        obtain ⟨haccepts, _⟩ := run_recordPaymentRead_ok.mp (outcome_eq_some.mp hr)
        exact Or.inl ⟨caller, a, r, rfl, haccepts, run_recordPaymentWrite_ok (outcome_eq_some.mp hw)⟩
      | createCreditNote caller a =>
        obtain ⟨⟨r, _⟩, hr, rfl⟩ := Option.map_eq_some_iff.mp hread
        obtain ⟨⟨d, _⟩, hw, rfl⟩ := Option.map_eq_some_iff.mp hwrite
        obtain ⟨hcredits, _⟩ := run_createCreditNoteRead_ok.mp (outcome_eq_some.mp hr)
        obtain ⟨number, heq⟩ := run_createCreditNoteWrite_ok (outcome_eq_some.mp hw)
        exact Or.inr ⟨caller, a, r, number, rfl, hcredits, heq⟩

end Phases

def paid (payments : Table PayablePayment) (payableId : Uuid) : Money :=
  payments.sum (·.payableId = payableId) (·.amount)

/-- Everything is in whole cents and filed under the tenant it belongs to, and no payable is
overpaid and no invoice credited beyond its total. -/
structure Bounded (db : Database) : Prop where
  payable_cents : ∀ p ∈ db.payables, WholeCents p.totalAmount
  payment_cents : ∀ q ∈ db.payablePayments, WholeCents q.amount
  payment_tenant : ∀ q ∈ db.payablePayments, ∀ p ∈ db.payables, p.id = q.payableId →
    p.tenantId = q.tenantId
  paid_le : ∀ p ∈ db.payables, paid db.payablePayments p.id ≤ p.totalAmount
  invoice_cents : ∀ i ∈ db.invoices, WholeCents i.totalAmount
  credit_cents : ∀ n ∈ db.creditNotes, WholeCents n.amount
  credit_tenant : ∀ n ∈ db.creditNotes, ∀ i ∈ db.invoices, i.id = n.invoiceId →
    i.tenantId = n.tenantId
  credited_le : ∀ i ∈ db.invoices, credited db.creditNotes i.id ≤ i.totalAmount

section Bounded
variable {db : Database}

theorem Bounded.existingPaid_eq (hdb : Bounded db) {p : Payable} (hp : p ∈ db.payables) :
    existingPaid db p.id p.tenantId = paid db.payablePayments p.id := by
  refine Table.sum_congr (fun q hq => ?_) fun _ _ _ => rfl
  rw [decide_eq_decide]
  exact and_iff_left_of_imp fun hon => (hdb.payment_tenant q hq p hp hon.symm).symm

theorem Bounded.existingCredited_eq (hdb : Bounded db) {i : Invoice} (hi : i ∈ db.invoices) :
    existingCredited db i.id i.tenantId = credited db.creditNotes i.id := by
  refine Table.sum_congr (fun n hn => ?_) fun _ _ _ => rfl
  rw [decide_eq_decide]
  refine and_congr_right fun hon => ?_
  exact and_iff_right (hdb.credit_tenant n hn i hi hon.symm).symm

variable [Text] {caller : Caller}

theorem paid_payTables {a : RecordPayment} {r : PaymentRead} (payableId : Uuid) :
    paid (payTables caller a r db).payablePayments payableId =
      paid db.payablePayments payableId +
        if r.payable.id = payableId then column 4 a.amount else 0 :=
  (Table.sum_insert _ _ _ _ _).trans (congrArg _ (if_congr decide_eq_true_iff rfl rfl))

theorem Bounded.pay {a : RecordPayment} {r : PaymentRead} (hdb : Bounded db)
    (hr : Payable.Accepts caller a db r) (hcents : WholeCents (column 4 a.amount)) :
    Bounded (payTables caller a r db) := by
  have htotal := hdb.payable_cents r.payable hr.mem
  have hexisting : r.existingPaid = paid db.payablePayments r.payable.id := by
    rw [hr.existing, ← hr.id, ← hr.tenant, hdb.existingPaid_eq hr.mem]
  have hle := add_column_le htotal (hr.existing_grid hdb.payment_cents) hr.amount_le
  refine ⟨?_, Table.forall_mem_insert.mpr ⟨hdb.payment_cents, hcents⟩, ?_, ?_,
    hdb.invoice_cents, hdb.credit_cents, hdb.credit_tenant, hdb.credited_le⟩
  · exact (Table.forall_mem_update hr.mem).mpr ⟨fun p hp _ => hdb.payable_cents p hp, htotal⟩
  · refine Table.forall_mem_insert.mpr ⟨fun q hq => ?_, ?_⟩
    · exact (Table.forall_mem_update hr.mem).mpr ⟨fun p hp _ => hdb.payment_tenant q hq p hp,
        hdb.payment_tenant q hq r.payable hr.mem⟩
    · refine (Table.forall_mem_update hr.mem).mpr ⟨fun p _ hne hid => absurd hid hne, ?_⟩
      exact fun _ => hr.tenant
  · refine (Table.forall_mem_update hr.mem).mpr ⟨fun p hp hne => ?_, ?_⟩
    · rw [paid_payTables, if_neg fun hc => hne hc.symm, add_zero]
      exact hdb.paid_le p hp
    · change paid _ r.payable.id ≤ r.payable.totalAmount
      rw [paid_payTables, if_pos rfl, ← hexisting]
      exact hle

theorem Bounded.credit {a : CreateCreditNote} {r : CreditNoteRead} {number : DocumentNumber}
    (hdb : Bounded db) (hr : Invoice.Creditable caller a db r)
    (hcents : WholeCents (column 4 a.amount)) : Bounded (creditTables caller a r number db) := by
  have htotal := hdb.invoice_cents r.invoice hr.mem
  have hexisting : r.existingCredited = credited db.creditNotes r.invoice.id := by
    rw [hr.existing, ← hr.id, ← hr.tenant, hdb.existingCredited_eq hr.mem]
  have hgrid : WholeCents (credited db.creditNotes r.invoice.id) :=
    Table.sum_induction WholeCents OnGrid.zero (fun _ _ hx hy => hx.add hy)
      fun n hn _ => hdb.credit_cents n hn
  have hle := add_column_le htotal (hexisting ▸ hgrid) hr.amount_le
  refine ⟨hdb.payable_cents, hdb.payment_cents, hdb.payment_tenant, hdb.paid_le, ?_,
    Table.forall_mem_insert.mpr ⟨hdb.credit_cents, hcents⟩, ?_, ?_⟩
  · exact (Table.forall_mem_update hr.mem).mpr ⟨fun i hi _ => hdb.invoice_cents i hi, htotal⟩
  · refine Table.forall_mem_insert.mpr ⟨fun n hn => ?_, ?_⟩
    · exact (Table.forall_mem_update hr.mem).mpr ⟨fun i hi _ => hdb.credit_tenant n hn i hi,
        hdb.credit_tenant n hn r.invoice hr.mem⟩
    · refine (Table.forall_mem_update hr.mem).mpr ⟨fun i _ hne hid => ?_, fun _ => hr.tenant⟩
      exact absurd (hid.trans hr.id.symm) hne
  · refine (Table.forall_mem_update hr.mem).mpr ⟨fun i hi hne => ?_, ?_⟩
    · have hne' : a.invoiceId ≠ i.id := fun hc => hne (hc.symm.trans hr.id.symm)
      rw [credited_creditTables, if_neg hne', add_zero]
      exact hdb.credited_le i hi
    · change credited _ r.invoice.id ≤ r.invoice.totalAmount
      rw [credited_creditTables, if_pos hr.id.symm, ← hexisting]
      exact hle

end Bounded

def InCents : Request → Prop
  | .recordPayment _ a => WholeCents (column 4 a.amount)
  | .createCreditNote _ a => WholeCents (column 4 a.amount)

instance : DecidablePred InCents
  | .recordPayment _ _ | .createCreditNote _ _ => inferInstanceAs (Decidable (OnGrid _ _))

section Interleavings
variable [Text]

theorem atomic_bounded {db : Database} {i : Request} (hdb : Bounded db) (hi : InCents i) :
    Bounded (Snapshot.atomic readPhase writePhase db i) := by
  rcases atomic_cases db i with heq | ⟨caller, a, r, rfl, hr, heq⟩ |
    ⟨caller, a, r, number, rfl, hr, heq⟩
  · rw [heq]
    exact hdb
  · rw [heq]
    exact hdb.pay hr hi
  · rw [heq]
    exact hdb.credit hr hi

/-- A write phase that finds what its request has read, of a request in whole cents. -/
def Steady (t : Snapshot.State Database Request Read) (e : Snapshot.Event Request) : Prop :=
  Snapshot.Current readPhase t e ∧ Snapshot.Only InCents e

instance (t : Snapshot.State Database Request Read) (e : Snapshot.Event Request) :
    Decidable (Steady t e) := inferInstanceAs (Decidable (_ ∧ _))

end Interleavings

section Runs
open Verbatim

def openDocuments : Database :=
  Invoicing.step ⟨5000⟩ (((billPaid 0).take 3).foldl Payables.step (oneCharge 100))
    (clerk, .generateInvoice (generateFor none .stored))

def pay (amount : Money) : Request := .recordPayment clerk (paymentOf 0 amount none)

def credit (amount : Money) : Request := .createCreditNote clerk (creditOf 0 amount none)

def interleave (events : List (Snapshot.Event Request)) : Database :=
  (events.foldl (Snapshot.step readPhase writePhase) (Snapshot.start openDocuments)).committed

/-- A payment and a credit note in flight together, and one more payment after them. -/
def steadyEvents : List (Snapshot.Event Request) :=
  [.read 0 (pay 40), .read 1 (credit 100), .write 1, .write 0, .read 2 (pay 60), .write 2]

/-- Of two requests for 60 that both read before either writes, both go through. -/
def racing (request : Request) : List (Snapshot.Event Request) :=
  [.read 0 request, .read 1 request, .write 0, .write 1]

end Runs

end Friet.Concurrency
