import Friet.Payables.Steps

/-!
# The lifecycle of a payable

`RECEIVED < VERIFIED < APPROVED < PARTIALLY_PAID < PAID`. Verification is
refused to approved and paid payables but not to partially paid ones; as long
as no call takes that way back, statuses only advance and every balance that is
left on an approved payable can be paid.
-/

set_option autoImplicit false

namespace Friet

def PayableStatus.rank : PayableStatus → ℕ
  | .received => 0
  | .verified => 1
  | .approved => 2
  | .partiallyPaid => 3
  | .paid => 4

instance : LinearOrder PayableStatus := LinearOrder.lift' PayableStatus.rank (by
  intro s t h
  cases s <;> cases t <;> first | rfl | cases h)

namespace Payables

open Session Rounding

def AfterApproval (s : PayableStatus) : Prop := s = .approved ∨ s = .partiallyPaid ∨ s = .paid

instance (s : PayableStatus) : Decidable (AfterApproval s) := inferInstanceAs (Decidable (_ ∨ _))

/-- Every payable stays, with its status where it was or further on. -/
def StatusesAdvance (s t : Database) : Prop :=
  s.payables.Follows (fun p p' => p.status ≤ p'.status) t.payables

instance (s t : Database) : Decidable (StatusesAdvance s t) :=
  inferInstanceAs (Decidable (Table.Follows _ _ _))

def balance (db : Database) (p : Payable) : Money :=
  cents (p.totalAmount - existingPaid db p.id p.tenantId)

/-- Statuses and approval agree, and nothing is left to pay of a paid payable. -/
structure Lifecycle (db : Database) : Prop where
  approved_iff : ∀ p ∈ db.payables, p.approvalStatus = .approved ↔ AfterApproval p.status
  total_cents : ∀ p ∈ db.payables, WholeCents p.totalAmount
  payment_grid : ∀ q ∈ db.payablePayments, OnGrid 4 q.amount
  paid_off : ∀ p ∈ db.payables, p.status = .paid → balance db p ≤ 0

theorem newStatus_eq_paid {a : RecordPayment} {r : PaymentRead} :
    newStatus a r = .paid ↔ r.payable.totalAmount ≤ newTotalPaid a r := by
  unfold newStatus
  split_ifs with h
  · exact iff_of_true rfl h
  · exact iff_of_false (by simp) h

theorem Payable.Accepts.existing_grid {caller : Caller} {a : RecordPayment} {db : Database}
    {r : PaymentRead} (hr : Payable.Accepts caller a db r) {n : ℕ}
    (h : ∀ q ∈ db.payablePayments, OnGrid n q.amount) : OnGrid n r.existingPaid := by
  rw [hr.existing]
  exact Table.sum_induction (OnGrid n) OnGrid.zero (fun _ _ hx hy => hx.add hy) fun q hq _ => h q hq

theorem existingPaid_payTables [Text] {caller : Caller} {a : RecordPayment} {r : PaymentRead}
    {db : Database} (payableId tenantId : Uuid) :
    existingPaid (payTables caller a r db) payableId tenantId =
      existingPaid db payableId tenantId +
        if r.payable.id = payableId ∧ caller.tenantId = tenantId then column 4 a.amount else 0 := by
  unfold existingPaid payTables
  rw [Table.sum_insert]
  simp only [paymentRow]
  congr 1
  exact if_congr decide_eq_true_iff rfl rfl

theorem cents_sub_nonpos {total paid amount : Money} (htotal : WholeCents total)
    (hpaid : OnGrid 4 paid) (h : total ≤ cents (paid + amount)) :
    cents (total - (paid + column 4 amount)) ≤ 0 := by
  apply roundTo_nearestEven_nonpos
  have hround := sub_half_le_of_le_roundTo nearestEven_nearest h
  have hstored := (abs_le.mp (abs_sub_roundTo_le nearestAway_nearest 4 amount)).2
  change amount - column 4 amount ≤ _ at hstored
  by_contra hgt
  have hhalf : OnGrid 4 (1 / 2 / 10 ^ 2 : Money) := ⟨50, by norm_num⟩
  have hgrid : OnGrid 4 (total - (paid + column 4 amount) - 1 / 2 / 10 ^ 2) :=
    ((htotal.of_le (by norm_num)).sub (hpaid.add (roundTo_onGrid _ _ _))).sub hhalf
  have hunit := hgrid.unit_le (by linarith [not_le.mp hgt])
  norm_num at hunit hround hstored
  linarith

/-- A payable is replaced by one of the same total that is further on, but not paid. -/
theorem Lifecycle.update {db db' : Database} {p : Payable} {f : Payable → Payable}
    {hf : KeepsKey f} (hdb : Lifecycle db) (hp : p ∈ db.payables)
    (hpayables : db'.payables = db.payables.update p.id f hf)
    (hpayments : db'.payablePayments = db.payablePayments)
    (happroved : (f p).approvalStatus = .approved ↔ AfterApproval (f p).status)
    (htotal : (f p).totalAmount = p.totalAmount) (hpaid : (f p).status ≠ .paid)
    (hle : p.status ≤ (f p).status) : Lifecycle db' ∧ StatusesAdvance db db' := by
  have hbalance : balance db' = balance db := by
    funext q
    simp only [balance, existingPaid, hpayments]
  refine ⟨⟨?_, ?_, ?_, ?_⟩, ?_⟩
  · rw [hpayables]
    exact (Table.forall_mem_update hp).mpr ⟨fun q hq _ => hdb.approved_iff q hq, happroved⟩
  · rw [hpayables]
    refine (Table.forall_mem_update hp).mpr ⟨fun q hq _ => hdb.total_cents q hq, ?_⟩
    rw [htotal]
    exact hdb.total_cents p hp
  · rw [hpayments]
    exact hdb.payment_grid
  · rw [hpayables, hbalance]
    refine (Table.forall_mem_update hp).mpr ⟨fun q hq _ => hdb.paid_off q hq, ?_⟩
    intro hstatus
    exact absurd hstatus hpaid
  · rw [StatusesAdvance, hpayables]
    exact Table.follows_update (fun p => le_refl p.status) hp hle

section Steps
variable [Text] {caller : Caller} {db db' : Database} {d : PayableDetail}

theorem Lifecycle.recordPayable {a : RecordPayable} (hdb : Lifecycle db)
    (h : (recordPayable caller a).run db = .ok d db') :
    Lifecycle db' ∧ StatusesAdvance db db' := by
  obtain ⟨_, _, totals, billed, _, rfl⟩ := run_recordPayable_ok h
  refine ⟨⟨?_, ?_, hdb.payment_grid, ?_⟩, ?_⟩
  · refine Table.forall_mem_insert.mpr ⟨hdb.approved_iff, ?_⟩
    simp [newPayable, AfterApproval]
  · refine Table.forall_mem_insert.mpr ⟨hdb.total_cents, ?_⟩
    simpa [newPayable] using cents_wholeCents _
  · refine Table.forall_mem_insert.mpr ⟨hdb.paid_off, ?_⟩
    intro hpaid
    cases hpaid
  · exact Table.follows_insert fun p => le_refl p.status

theorem Lifecycle.verifyPayable {a : VerifyPayable} (hdb : Lifecycle db)
    (hok : ∀ p ∈ db.payables, p.id = a.payableId → p.tenantId = caller.tenantId →
      ¬ (isMaterial p.totalAmount |p.varianceAmount| ∧ a.allowMaterialVariance = false) →
      p.status ≠ .partiallyPaid)
    (h : (verifyPayable caller a).run db = .ok d db') :
    Lifecycle db' ∧ StatusesAdvance db db' := by
  obtain ⟨p, hp, hid, htenant, hne, hne', hvar, rfl⟩ := run_verifyPayable_ok h
  have hpartial := hok p hp hid htenant hvar
  refine hdb.update hp rfl rfl ?_ rfl (by simp [Payable.verify]) ?_
  · have happ := hdb.approved_iff p hp
    simp only [Payable.verify, AfterApproval] at happ ⊢
    simp [happ, hne, hne', hpartial]
  · change p.status.rank ≤ 1
    cases hs : p.status <;> simp_all [PayableStatus.rank]

theorem Lifecycle.approvePayable {a : ApprovePayable} (hdb : Lifecycle db)
    (h : (approvePayable caller a).run db = .ok d db') :
    Lifecycle db' ∧ StatusesAdvance db db' := by
  obtain ⟨p, hp, hid, htenant, happ, hver, rfl⟩ := run_approvePayable_ok h
  have hbefore : ¬ AfterApproval p.status := mt (hdb.approved_iff p hp).mpr happ
  refine hdb.update hp rfl rfl ?_ rfl (by simp [Payable.approveWith, Payable.approve]) ?_
  · simp [Payable.approveWith, Payable.approve, AfterApproval]
  · change p.status.rank ≤ 2
    cases hs : p.status <;> simp_all [PayableStatus.rank, AfterApproval]

theorem Lifecycle.recordPayment {a : RecordPayment} (hdb : Lifecycle db)
    (h : (recordPayment caller a).run db = .ok d db') :
    Lifecycle db' ∧ StatusesAdvance db db' := by
  obtain ⟨r, hr, rfl⟩ := run_recordPayment_ok h
  have hnew : newStatus a r = .paid ∨ newStatus a r = .partiallyPaid := by
    unfold newStatus
    split_ifs <;> simp
  refine ⟨⟨?_, ?_, ?_, ?_⟩, ?_⟩
  · refine (Table.forall_mem_update hr.mem).mpr ⟨fun q hq _ => hdb.approved_iff q hq, ?_⟩
    have happ := (hdb.approved_iff r.payable hr.mem).mpr (hr.status.imp_right Or.inl)
    rw [Payable.pay_status]
    exact iff_of_true happ (Or.inr hnew.symm)
  · exact (Table.forall_mem_update hr.mem).mpr
      ⟨fun q hq _ => hdb.total_cents q hq, hdb.total_cents r.payable hr.mem⟩
  · exact Table.forall_mem_insert.mpr ⟨hdb.payment_grid, roundTo_onGrid _ _ _⟩
  · have hbal : ∀ p, balance (payTables caller a r db) p = cents (p.totalAmount -
        (existingPaid db p.id p.tenantId + if r.payable.id = p.id ∧ caller.tenantId = p.tenantId then
          column 4 a.amount else 0)) := by
      intro p
      rw [balance, existingPaid_payTables]
    simp only [hbal]
    refine (Table.forall_mem_update hr.mem).mpr ⟨?_, ?_⟩
    · intro q hq hne hpaid
      rw [if_neg (fun hc => hne hc.1.symm), add_zero]
      exact hdb.paid_off q hq hpaid
    · rw [Payable.pay_status]
      intro hpaid
      rw [if_pos ⟨rfl, hr.tenant.symm⟩]
      have hexisting : existingPaid db r.payable.id r.payable.tenantId = r.existingPaid := by
        rw [hr.existing, hr.id, hr.tenant]
      change cents (r.payable.totalAmount -
        (existingPaid db r.payable.id r.payable.tenantId + column 4 a.amount)) ≤ 0
      rw [hexisting]
      exact cents_sub_nonpos (hdb.total_cents r.payable hr.mem) (hr.existing_grid hdb.payment_grid)
        (newStatus_eq_paid.mp hpaid)
  · refine Table.follows_update (fun p => le_refl p.status) hr.mem ?_
    rw [Payable.pay_status]
    rcases hr.status with hs | hs <;> rcases hnew with hn | hn <;> simp only [hs, hn] <;> decide

/-- The way back is not taken: no verification goes through on a partially paid payable. Payments
are in whole cents, on which rounding a float has nothing to decide. -/
def KeepsPartialPayment (db : Database) : Caller × Request → Prop
  | (caller, .verifyPayable a) => ∀ p ∈ db.payables, p.id = a.payableId →
      p.tenantId = caller.tenantId →
      ¬ (isMaterial p.totalAmount |p.varianceAmount| ∧ a.allowMaterialVariance = false) →
      p.status ≠ .partiallyPaid
  | (_, .recordPayment a) => WholeCents a.amount
  | _ => True

omit [Text] in
instance (db : Database) : ∀ i, Decidable (KeepsPartialPayment db i)
  | (_, .verifyPayable _) => inferInstanceAs (Decidable (∀ p ∈ db.payables, _ → _ → _ → _))
  | (_, .recordPayment a) => inferInstanceAs (Decidable (WholeCents a.amount))
  | (_, .recordPayable _) | (_, .approvePayable _) => inferInstanceAs (Decidable True)

theorem step_lifecycle {i : Caller × Request} (hdb : Lifecycle db)
    (hok : KeepsPartialPayment db i) :
    Lifecycle (step db i) ∧ StatusesAdvance db (step db i) := by
  obtain ⟨caller, request⟩ := i
  rcases commit_cases (request.run caller) db with heq | ⟨d, h⟩
  · rw [step, heq]
    exact ⟨hdb, .refl (fun p => le_refl p.status) _⟩
  · cases request with
    | recordPayable a => exact hdb.recordPayable h
    | verifyPayable a => exact hdb.verifyPayable hok h
    | approvePayable a => exact hdb.approvePayable h
    | recordPayment a => exact hdb.recordPayment h

end Steps

def NoPayables (db : Database) : Prop := (∀ p, p ∉ db.payables) ∧ ∀ q, q ∉ db.payablePayments

theorem NoPayables.lifecycle {db : Database} (h : NoPayables db) : Lifecycle db where
  approved_iff p hp := absurd hp (h.1 p)
  total_cents p hp := absurd hp (h.1 p)
  payment_grid q hq := absurd hq (h.2 q)
  paid_off p hp := absurd hp (h.1 p)

section Runs
open Verbatim

/-- A bill of 100 recorded, verified, approved and paid by `amount`. -/
def billPaid (amount : Money) : List (Caller × Request) :=
  [(clerk, .recordPayable (billOf "B-1" "OFR" 100)), (clerk, .verifyPayable ⟨0, true, none⟩),
    (clerk, .approvePayable ⟨0, none⟩), (clerk, .recordPayment (paymentOf 0 amount none))]

end Runs

end Payables

end Friet
