import Friet.Payables.Lifecycle

/-!
# What is paid of a bill, three times over

The payments of a payable, its `paid_amount` and the debits of its `AP_PAYMENT`
entries. They agree as long as every payment is stored in whole cents and in
the currency of its bill, and no bill comes to nothing: payments are neither
rounded to cents nor converted, while `paid_amount` is.
-/

set_option autoImplicit false

namespace Friet.Payables

open Session Rounding

def paidInCurrency (db : Database) (p : Payable) : Money :=
  db.payablePayments.sum (fun q => q.payableId = p.id ∧ q.currencyCode = p.currencyCode) (·.amount)

/-- A ledger entry written for a payment of the payable. -/
def PaysFor (payments : Table PayablePayment) (p : Payable) (e : FinancialEntry) : Prop :=
  e.entryType = .apPayment ∧
    ∃ q ∈ payments, q.payableId = p.id ∧ q.financialEntryId = some e.id

instance (payments : Table PayablePayment) (p : Payable) (e : FinancialEntry) :
    Decidable (PaysFor payments p e) := inferInstanceAs (Decidable (_ ∧ _))

def debited (db : Database) (p : Payable) : Money :=
  db.financialEntries.sum (fun e => PaysFor db.payablePayments p e) (·.debitAmount)

structure Conserves (db : Database) (p : Payable) : Prop where
  paid : paidInCurrency db p = p.paidAmount
  ledger : debited db p = p.paidAmount
  bounded : paidInCurrency db p ≤ p.totalAmount
  settled : p.status = .paid ↔ paidInCurrency db p = p.totalAmount

theorem Conserves.of_eq {db db' : Database} {p p' : Payable} (h : Conserves db p)
    (hpaid : paidInCurrency db' p' = paidInCurrency db p) (hledger : debited db' p' = debited db p)
    (hamount : p'.paidAmount = p.paidAmount) (htotal : p'.totalAmount = p.totalAmount)
    (hstatus : p'.status = .paid ↔ p.status = .paid) : Conserves db' p' where
  paid := by rw [hpaid, hamount, h.paid]
  ledger := by rw [hledger, hamount, h.ledger]
  bounded := by rw [hpaid, htotal]; exact h.bounded
  settled := by rw [hpaid, htotal, hstatus]; exact h.settled

/-- A payment belongs to a payable of its tenant, in its currency. -/
def PaymentOf (payables : Table Payable) (q : PayablePayment) : Prop :=
  ∃ p ∈ payables, p.id = q.payableId ∧ p.tenantId = q.tenantId ∧ p.currencyCode = q.currencyCode

def SameParty (p p' : Payable) : Prop :=
  p'.tenantId = p.tenantId ∧ p'.currencyCode = p.currencyCode

theorem PaymentOf.follows {t u : Table Payable} {q : PayablePayment} (h : PaymentOf t q)
    (htu : Table.Follows SameParty t u) : PaymentOf u q := by
  obtain ⟨p, hp, hid, htenant, hcurrency⟩ := h
  obtain ⟨p', hp', hid', htenant', hcurrency'⟩ := htu p hp
  exact ⟨p', hp', hid'.trans hid, htenant'.trans htenant, hcurrency'.trans hcurrency⟩

structure Conservation (db : Database) : Prop where
  approved : ∀ p ∈ db.payables, AfterApproval p.status → p.approvalStatus = .approved
  total_cents : ∀ p ∈ db.payables, WholeCents p.totalAmount
  payment_cents : ∀ q ∈ db.payablePayments, WholeCents q.amount
  payment_of : ∀ q ∈ db.payablePayments, PaymentOf db.payables q
  payment_entry : ∀ q ∈ db.payablePayments, ∃ e ∈ db.financialEntries,
    q.financialEntryId = some e.id
  conserved : ∀ p ∈ db.payables, Conserves db p

theorem Conservation.existingPaid_eq {db : Database} (hdb : Conservation db) {p : Payable}
    (hp : p ∈ db.payables) : existingPaid db p.id p.tenantId = paidInCurrency db p := by
  refine Table.sum_congr ?_ fun _ _ _ => rfl
  intro q hq
  obtain ⟨p', hp', hid, htenant, hcurrency⟩ := hdb.payment_of q hq
  rw [decide_eq_decide]
  refine and_congr_right fun hpay => ?_
  have heq : p' = p := Table.eq_of_key_eq hp' hp (hid.trans hpay)
  subst heq
  exact iff_of_true htenant.symm hcurrency.symm

theorem Conservation.payableId_ne_freshKey {db : Database} (hdb : Conservation db)
    {q : PayablePayment} (hq : q ∈ db.payablePayments) : q.payableId ≠ db.payables.freshKey := by
  obtain ⟨p, hp, hid, _⟩ := hdb.payment_of q hq
  have hlt := Table.key_lt_freshKey hp
  rw [← hid]
  exact ne_of_lt hlt

section Payment
variable [Text] {caller : Caller} {a : RecordPayment} {r : PaymentRead} {db : Database}

theorem paidInCurrency_payTables (p : Payable) :
    paidInCurrency (payTables caller a r db) p = paidInCurrency db p +
      if r.payable.id = p.id ∧ (given a.currencyCode).getD r.payable.currencyCode = p.currencyCode
        then column 4 a.amount else 0 := by
  unfold paidInCurrency payTables
  rw [Table.sum_insert]
  simp only [paymentRow]
  congr 1
  exact if_congr decide_eq_true_iff rfl rfl

theorem paysFor_payTables_old {e : FinancialEntry} (he : e ∈ db.financialEntries) (p : Payable) :
    PaysFor (payTables caller a r db).payablePayments p e ↔ PaysFor db.payablePayments p e := by
  refine and_congr_right fun _ => ?_
  unfold payTables; dsimp only
  simp only [Table.mem_insert]
  constructor
  · rintro ⟨q, hq | rfl, hid, hentry⟩
    · exact ⟨q, hq, hid, hentry⟩
    · have hlt : e.id < db.financialEntries.freshKey := Table.key_lt_freshKey he
      exact absurd (Option.some.inj hentry) (ne_of_gt hlt)
  · rintro ⟨q, hq, h⟩
    exact ⟨q, Or.inl hq, h⟩

theorem paysFor_payTables_new (hdb : Conservation db) (p : Payable) :
    PaysFor (payTables caller a r db).payablePayments p
      (apPaymentEntry caller a r.payable db.financialEntries.freshKey) ↔ r.payable.id = p.id := by
  unfold payTables PaysFor; dsimp only
  simp only [Table.mem_insert]
  constructor
  · rintro ⟨_, q, hq | rfl, hid, hentry⟩
    · obtain ⟨e, he, heq⟩ := hdb.payment_entry q hq
      have hlt : e.id < db.financialEntries.freshKey := Table.key_lt_freshKey he
      exact absurd (Option.some.inj (heq.symm.trans hentry)) (ne_of_lt hlt)
    · exact hid
  · intro hid
    exact ⟨rfl, _, Or.inr rfl, hid, rfl⟩

theorem debited_payTables (hdb : Conservation db) (p : Payable) :
    debited (payTables caller a r db) p = debited db p +
      if r.payable.id = p.id then column 4 a.amount else 0 := by
  have hsum : debited (payTables caller a r db) p =
      db.financialEntries.sum (fun e => PaysFor (payTables caller a r db).payablePayments p e)
        (·.debitAmount) +
      if decide (PaysFor (payTables caller a r db).payablePayments p
        (apPaymentEntry caller a r.payable db.financialEntries.freshKey)) = true
        then column 4 a.amount else 0 := Table.sum_insert _ _ _ _ _
  rw [hsum]
  congr 1
  · exact Table.sum_congr (fun e he => decide_eq_decide.mpr (paysFor_payTables_old he p))
      fun _ _ _ => rfl
  · exact if_congr (decide_eq_true_iff.trans (paysFor_payTables_new hdb p)) rfl rfl

/-- A payment in whole cents and in the payable's currency. -/
def PaysInKind (a : RecordPayment) (p : Payable) : Prop :=
  WholeCents (column 4 a.amount) ∧
    (given a.currencyCode = none ∨ given a.currencyCode = some p.currencyCode)

instance (a : RecordPayment) (p : Payable) : Decidable (PaysInKind a p) :=
  inferInstanceAs (Decidable (_ ∧ _))

omit [Text] in
theorem PaysInKind.currency {p : Payable} (h : PaysInKind a p) :
    (given a.currencyCode).getD p.currencyCode = p.currencyCode := by
  rcases h.2 with hk | hk <;> simp [hk]

/-- The payable that is paid: the payment, the ledger and the stored amount move together. -/
theorem Conservation.conserves_pay (hdb : Conservation db) (hr : Payable.Accepts caller a db r)
    (hkind : PaysInKind a r.payable) :
    Conserves (payTables caller a r db) (Payable.pay a r r.payable) := by
  have hcents : WholeCents (column 4 a.amount) := hkind.1
  have hpaid := hdb.conserved r.payable hr.mem
  have hexisting : r.existingPaid = paidInCurrency db r.payable := by
    rw [hr.existing, ← hr.id, ← hr.tenant, hdb.existingPaid_eq hr.mem]
  have hexistingCents : WholeCents r.existingPaid := hr.existing_grid hdb.payment_cents
  have hnew : newTotalPaid a r = r.existingPaid + column 4 a.amount :=
    cents_add_column hexistingCents hcents
  have hle : r.existingPaid + column 4 a.amount ≤ r.payable.totalAmount :=
    add_column_le (hdb.total_cents _ hr.mem) hexistingCents hr.amount_le
  have hstatus : newStatus a r = .paid ↔
      r.existingPaid + column 4 a.amount = r.payable.totalAmount := by
    rw [newStatus_eq_paid, hnew]
    exact ⟨fun hge => le_antisymm hle hge, fun heq => heq.ge⟩
  have hsum : paidInCurrency (payTables caller a r db) (Payable.pay a r r.payable) =
      r.existingPaid + column 4 a.amount := by
    rw [paidInCurrency_payTables, if_pos ⟨rfl, hkind.currency⟩, hexisting]
    rfl
  have hstored : (Payable.pay a r r.payable).paidAmount =
      r.existingPaid + column 4 a.amount := by
    rw [Payable.pay_paidAmount, hnew, column_of_wholeCents (hexistingCents.add hcents)]
  refine ⟨hsum.trans hstored.symm, ?_, ?_, ?_⟩
  · have hid : r.payable.id = (Payable.pay a r r.payable).id := rfl
    rw [debited_payTables hdb, if_pos hid, hstored, hexisting, hpaid.paid, ← hpaid.ledger]
    rfl
  · rw [hsum]
    exact hle
  · rw [hsum, Payable.pay_status]
    exact hstatus

theorem Conservation.recordPayment {d : PayableDetail} {db' : Database} (hdb : Conservation db)
    (hok : ∀ r, Payable.Accepts caller a db r → PaysInKind a r.payable)
    (h : (recordPayment caller a).run db = .ok d db') : Conservation db' := by
  obtain ⟨r, hr, rfl⟩ := run_recordPayment_ok h
  have hkind := hok r hr
  refine ⟨?_, ?_, ?_, ?_, ?_, ?_⟩
  · refine (Table.forall_mem_update hr.mem).mpr ⟨fun q hq _ => hdb.approved q hq, ?_⟩
    exact fun _ => hdb.approved r.payable hr.mem (hr.status.imp_right Or.inl)
  · exact (Table.forall_mem_update hr.mem).mpr
      ⟨fun q hq _ => hdb.total_cents q hq, hdb.total_cents r.payable hr.mem⟩
  · exact Table.forall_mem_insert.mpr ⟨hdb.payment_cents, hkind.1⟩
  · have hsame : Table.Follows SameParty db.payables (payTables caller a r db).payables :=
      Table.follows_update (fun _ => ⟨rfl, rfl⟩) hr.mem ⟨rfl, rfl⟩
    refine Table.forall_mem_insert.mpr ⟨fun q hq => (hdb.payment_of q hq).follows hsame, ?_⟩
    exact PaymentOf.follows ⟨r.payable, hr.mem, rfl, hr.tenant, hkind.currency.symm⟩ hsame
  · refine Table.forall_mem_insert.mpr ⟨?_, ⟨_, Table.mem_insert_self, rfl⟩⟩
    intro q hq
    obtain ⟨e, he, heq⟩ := hdb.payment_entry q hq
    exact ⟨e, Table.mem_insert_of_mem he, heq⟩
  · refine (Table.forall_mem_update hr.mem).mpr ⟨fun q hq hne => ?_, hdb.conserves_pay hr hkind⟩
    refine (hdb.conserved q hq).of_eq ?_ ?_ rfl rfl Iff.rfl
    · rw [paidInCurrency_payTables, if_neg fun hc => hne hc.1.symm, add_zero]
    · rw [debited_payTables hdb, if_neg fun hc => hne hc.symm, add_zero]

end Payment

section Bill
variable [Text] {caller : Caller} {db db' : Database} {d : PayableDetail}

theorem Conservation.recordPayable {a : RecordPayable} (hdb : Conservation db)
    (hok : 1 / 2 / 10 ^ 2 < (a.lines.map (·.billedAmount)).sum + a.taxAmount)
    (h : (recordPayable caller a).run db = .ok d db') : Conservation db' := by
  obtain ⟨_, _, totals, billed, hloop, rfl⟩ := run_recordPayable_ok h
  have hsubtotal : totals.subtotal = (a.lines.map (·.billedAmount)).sum := hloop.subtotal
  have htotal : 0 < cents (totals.subtotal + a.taxAmount) := by
    rw [hsubtotal]
    exact roundTo_pos nearestEven_nearest hok
  refine ⟨?_, ?_, hdb.payment_cents, ?_, hdb.payment_entry, ?_⟩
  · refine Table.forall_mem_insert.mpr ⟨hdb.approved, ?_⟩
    simp [newPayable, AfterApproval]
  · refine Table.forall_mem_insert.mpr ⟨hdb.total_cents, ?_⟩
    simpa [newPayable] using cents_wholeCents _
  · intro q hq
    exact (hdb.payment_of q hq).follows (Table.follows_insert fun _ => ⟨rfl, rfl⟩)
  · refine Table.forall_mem_insert.mpr
      ⟨fun q hq => (hdb.conserved q hq).of_eq rfl rfl rfl rfl Iff.rfl, ?_⟩
    have hnone : paidInCurrency db (newPayable caller a totals db.payables.freshKey) = 0 := by
      refine Table.sum_eq_zero fun q hq hsel => ?_
      exact absurd (of_decide_eq_true hsel).1 (hdb.payableId_ne_freshKey hq)
    have hnone' : debited db (newPayable caller a totals db.payables.freshKey) = 0 := by
      refine Table.sum_eq_zero fun e _ hsel => ?_
      obtain ⟨_, q, hq, hid, _⟩ := of_decide_eq_true hsel
      exact absurd hid (hdb.payableId_ne_freshKey hq)
    have htotal' : (newPayable caller a totals db.payables.freshKey).totalAmount =
        cents (totals.subtotal + a.taxAmount) := column_cents _
    refine ⟨hnone, hnone', ?_, ?_⟩
    · rw [htotal']
      exact hnone.le.trans htotal.le
    · rw [htotal']
      exact iff_of_false (by simp [newPayable]) fun hc => (ne_of_lt htotal) (hnone.symm.trans hc)

theorem Conservation.verifyPayable {a : VerifyPayable} (hdb : Conservation db)
    (h : (verifyPayable caller a).run db = .ok d db') : Conservation db' := by
  obtain ⟨p, hp, _, _, _, hne, _, rfl⟩ := run_verifyPayable_ok h
  have hsame : Table.Follows SameParty db.payables
      (db.payables.update p.id (Payable.verify caller a)) :=
    Table.follows_update (fun _ => ⟨rfl, rfl⟩) hp ⟨rfl, rfl⟩
  refine ⟨?_, ?_, hdb.payment_cents, fun q hq => (hdb.payment_of q hq).follows hsame,
    hdb.payment_entry, ?_⟩
  · refine (Table.forall_mem_update hp).mpr ⟨fun q hq _ => hdb.approved q hq, ?_⟩
    simp [Payable.verify, AfterApproval]
  · exact (Table.forall_mem_update hp).mpr
      ⟨fun q hq _ => hdb.total_cents q hq, hdb.total_cents p hp⟩
  · refine (Table.forall_mem_update hp).mpr ⟨fun q hq _ =>
      (hdb.conserved q hq).of_eq rfl rfl rfl rfl Iff.rfl, ?_⟩
    exact (hdb.conserved p hp).of_eq rfl rfl rfl rfl (iff_of_false (by simp [Payable.verify]) hne)

theorem Conservation.approvePayable {a : ApprovePayable} (hdb : Conservation db)
    (h : (approvePayable caller a).run db = .ok d db') : Conservation db' := by
  obtain ⟨p, hp, _, _, happ, _, rfl⟩ := run_approvePayable_ok h
  have hsame : Table.Follows SameParty db.payables (db.payables.update p.id
      (Payable.approveWith caller a db.financialEntries.freshKey)) :=
    Table.follows_update (fun _ => ⟨rfl, rfl⟩) hp ⟨rfl, rfl⟩
  have hne : p.status ≠ .paid := fun hs => happ (hdb.approved p hp (Or.inr (Or.inr hs)))
  -- The entry of the approval is no payment.
  have hdebited : ∀ q, (db.financialEntries.insert (apBillEntry caller p)).sum
      (fun e => PaysFor db.payablePayments q e) (·.debitAmount) = debited db q := by
    intro q
    rw [Table.sum_insert, if_neg, add_zero]
    · rfl
    · exact fun hc => absurd (of_decide_eq_true hc).1 (by simp [apBillEntry])
  refine ⟨?_, ?_, hdb.payment_cents, fun q hq => (hdb.payment_of q hq).follows hsame, ?_, ?_⟩
  · refine (Table.forall_mem_update hp).mpr ⟨fun q hq _ => hdb.approved q hq, ?_⟩
    simp [Payable.approveWith, Payable.approve]
  · exact (Table.forall_mem_update hp).mpr
      ⟨fun q hq _ => hdb.total_cents q hq, hdb.total_cents p hp⟩
  · intro q hq
    obtain ⟨e, he, heq⟩ := hdb.payment_entry q hq
    exact ⟨e, Table.mem_insert_of_mem he, heq⟩
  · refine (Table.forall_mem_update hp).mpr ⟨fun q hq _ =>
      (hdb.conserved q hq).of_eq rfl (hdebited q) rfl rfl Iff.rfl, ?_⟩
    exact (hdb.conserved p hp).of_eq rfl (hdebited p) rfl rfl
      (iff_of_false (by simp [Payable.approveWith, Payable.approve]) hne)

/-- Bills come to something, and payments are in whole cents of the bill's currency. -/
def InKind (db : Database) : Caller × Request → Prop
  | (caller, .recordPayable a) => Succeeds (Payables.recordPayable caller a) db →
      1 / 2 / 10 ^ 2 < (a.lines.map (·.billedAmount)).sum + a.taxAmount
  | (caller, .recordPayment a) => Succeeds (Payables.recordPayment caller a) db →
      ∀ p ∈ db.payables, p.id = a.payableId → PaysInKind a p
  | _ => True

instance (db : Database) : ∀ i, Decidable (InKind db i)
  | (_, .recordPayable _) => inferInstanceAs (Decidable (_ → _))
  | (_, .recordPayment _) => inferInstanceAs (Decidable (_ → ∀ p ∈ db.payables, _ → _))
  | (_, .verifyPayable _) | (_, .approvePayable _) => inferInstanceAs (Decidable True)

theorem step_conservation {i : Caller × Request} (hdb : Conservation db) (hok : InKind db i) :
    Conservation (step db i) := by
  obtain ⟨caller, request⟩ := i
  rcases commit_cases (request.run caller) db with heq | ⟨d, h⟩
  · rw [step, heq]
    exact hdb
  · cases request with
    | recordPayable a => exact hdb.recordPayable (hok ⟨d, _, h⟩) h
    | verifyPayable a => exact hdb.verifyPayable h
    | approvePayable a => exact hdb.approvePayable h
    | recordPayment a => exact hdb.recordPayment (fun r hr => hok ⟨d, _, h⟩ _ hr.mem hr.id) h

end Bill

theorem NoPayables.conservation {db : Database} (h : NoPayables db) : Conservation db where
  approved p hp := absurd hp (h.1 p)
  total_cents p hp := absurd hp (h.1 p)
  payment_cents q hq := absurd hq (h.2 q)
  payment_of q hq := absurd hq (h.2 q)
  payment_entry q hq := absurd hq (h.2 q)
  conserved p hp := absurd hp (h.1 p)

/-- The three amounts paid agree, never exceed the total, and reach it exactly when `PAID`. -/
theorem payments_conserved [Text] {db t : Database} (hdb : NoPayables db)
    (ht : Reaches step InKind db t) :
    ∀ p ∈ t.payables,
      paidInCurrency t p = p.paidAmount ∧ p.paidAmount = debited t p ∧
      paidInCurrency t p ≤ p.totalAmount ∧
      (p.status = .paid ↔ paidInCurrency t p = p.totalAmount) := by
  intro p hp
  have hinv : Conservation t :=
    ht.invariant Conservation (fun _ _ hu hi => step_conservation hu hi) hdb.conservation
  have h := hinv.conserved p hp
  exact ⟨h.paid, h.ledger.symm, h.bounded, h.settled⟩

section Runs
open Verbatim

theorem payments_conserved_billPaid :
    ∃ p ∈ ((billPaid 100).foldl step shipped).payables, p.status = .paid ∧
      paidInCurrency ((billPaid 100).foldl step shipped) p = p.paidAmount ∧
      p.paidAmount = debited ((billPaid 100).foldl step shipped) p ∧
      paidInCurrency ((billPaid 100).foldl step shipped) p ≤ p.totalAmount ∧
      (p.status = .paid ↔
        paidInCurrency ((billPaid 100).foldl step shipped) p = p.totalAmount) := by
  obtain ⟨p, hp, hpaid⟩ : ∃ p ∈ ((billPaid 100).foldl step shipped).payables, p.status = .paid := by
    decide +kernel
  exact ⟨p, hp, hpaid,
    payments_conserved ⟨fun _ => Table.not_mem_empty _, fun _ => Table.not_mem_empty _⟩
      (show Meets step InKind shipped (billPaid 100) by decide +kernel).reaches p hp⟩

/-- A payment of 0.004 is stored as it is, and `paid_amount` is rounded to nothing. -/
theorem sub_cent_payment_lost :
    ∃ p ∈ ((billPaid (4 / 1000)).foldl step shipped).payables,
      paidInCurrency ((billPaid (4 / 1000)).foldl step shipped) p = 4 / 1000 ∧
      debited ((billPaid (4 / 1000)).foldl step shipped) p = 4 / 1000 ∧ p.paidAmount = 0 := by
  decide +kernel

end Runs

end Friet.Payables
