import Friet.Payables.Steps

/-!
# A verification rejected for material variance

The endpoint commits only after the service returns. The rejection raises, so
the variance it has just flagged goes with the session.
-/

set_option autoImplicit false

namespace Friet.Payables

open Session

def VarianceRecorded (p : Payable) (db : Database) : Prop :=
  (∃ q ∈ db.payables, q.id = p.id ∧ q.verificationStatus = .varianceDetected) ∧
    ∃ e ∈ db.shipmentExceptions, e.shipmentId = p.shipmentId ∧
      e.exceptionType = "COST_VARIANCE" ∧ e.status = .opened

instance (p : Payable) (db : Database) : Decidable (VarianceRecorded p db) :=
  inferInstanceAs (Decidable ((∃ q ∈ db.payables, _) ∧ ∃ e ∈ db.shipmentExceptions, _))

def NoneDetected (db : Database) : Prop :=
  ∀ p ∈ db.payables, p.verificationStatus ≠ .varianceDetected

section Rejection
variable [Text] {caller : Caller} {db db' : Database}

/-- No operation that returns leaves `VARIANCE_DETECTED` behind. -/
theorem Request.noneDetected {i : Request} {d : PayableDetail} (hdb : NoneDetected db)
    (h : (i.run caller).run db = .ok d db') : NoneDetected db' := by
  cases i with
  | recordPayable a =>
    obtain ⟨_, _, totals, billed, _, rfl⟩ := run_recordPayable_ok h
    exact Table.forall_mem_insert.mpr ⟨hdb, by simp [newPayable]⟩
  | verifyPayable a =>
    obtain ⟨p, hp, _, _, _, _, _, rfl⟩ := run_verifyPayable_ok h
    exact (Table.forall_mem_update hp).mpr ⟨fun q hq _ => hdb q hq, by simp [Payable.verify]⟩
  | approvePayable a =>
    obtain ⟨p, hp, _, _, _, _, rfl⟩ := run_approvePayable_ok h
    refine (Table.forall_mem_update hp).mpr ⟨fun q hq _ => hdb q hq, ?_⟩
    simpa [Payable.approveWith, Payable.approve] using hdb p hp
  | recordPayment a =>
    obtain ⟨r, hr, rfl⟩ := run_recordPayment_ok h
    refine (Table.forall_mem_update hr.mem).mpr ⟨fun q hq _ => hdb q hq, ?_⟩
    simpa [Payable.pay] using hdb r.payable hr.mem

theorem step_noneDetected {i : Caller × Request} (hdb : NoneDetected db) :
    NoneDetected (step db i) :=
  commit_keeps hdb fun _ _ h => Request.noneDetected hdb h

/-- The rejection raises after its writes, and none of them is committed. -/
theorem step_rejected {p : Payable} {a : VerifyPayable} (hp : p ∈ db.payables)
    (hid : a.payableId = p.id) (hmaterial : isMaterial p.totalAmount |p.varianceAmount|)
    (hallow : a.allowMaterialVariance = false) :
    step db (caller, .verifyPayable a) = db := by
  rcases commit_cases ((Request.verifyPayable a).run caller) db with heq | ⟨d, h⟩
  · exact heq
  · obtain ⟨q, hq, hqid, _, _, _, hnot, _⟩ := run_verifyPayable_ok h
    rw [Table.eq_of_key_eq hq hp (hqid.trans hid)] at hnot
    exact absurd ⟨hmaterial, hallow⟩ hnot

theorem variance_never_recorded {db t : Database} (hdb : NoBills db)
    (ht : Reaches step Always db t) {p : Payable} (hp : p ∈ t.payables)
    (hmaterial : isMaterial p.totalAmount |p.varianceAmount|) {a : VerifyPayable}
    (hid : a.payableId = p.id) (hallow : a.allowMaterialVariance = false) :
    ¬ VarianceRecorded p (step t (caller, .verifyPayable a)) := by
  have hnone : NoneDetected t :=
    ht.invariant NoneDetected (fun _ _ hu _ => step_noneDetected hu)
      fun q hq => absurd hq (hdb.1 q)
  rw [step_rejected hp hid hmaterial hallow]
  rintro ⟨⟨q, hq, _, hdetected⟩, _⟩
  exact hnone q hq hdetected

end Rejection

section Verbatim
open Friet.Verbatim

def demurrageBilled : Database := step shipped (clerk, .recordPayable (billOf "B-1" "DEMURRAGE" 200))

def strictly : VerifyPayable := ⟨0, false, none⟩

theorem variance_never_recorded_demurrage : ∃ p ∈ demurrageBilled.payables,
    ¬ VarianceRecorded p (step demurrageBilled (clerk, .verifyPayable strictly)) := by
  obtain ⟨p, hp, hid, hmaterial⟩ : ∃ p ∈ demurrageBilled.payables,
      strictly.payableId = p.id ∧ isMaterial p.totalAmount |p.varianceAmount| := by
    decide +kernel
  have hbills : NoBills shipped := ⟨fun _ => Table.not_mem_empty _, fun _ => Table.not_mem_empty _⟩
  exact ⟨p, hp, variance_never_recorded hbills (Reaches.single trivial) hp hmaterial hid rfl⟩

/-- A bill of 200 that nothing was expected for is rejected, and no trace is left. -/
theorem rejection_leaves_no_record : ∃ p ∈ demurrageBilled.payables,
    p.id = strictly.payableId ∧ isMaterial p.totalAmount |p.varianceAmount| ∧
      ¬ VarianceRecorded p (step demurrageBilled (clerk, .verifyPayable strictly)) := by
  decide +kernel

end Verbatim

end Friet.Payables
