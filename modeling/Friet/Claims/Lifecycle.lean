import Friet.Claims.Service
import Friet.Lib.Run

/-!
# The life of a claim

A status changes along the table, and a rejected call changes nothing. The net loss is told
once, so amounts that change later make it wrong; and a call without notes clears them.
-/

set_option autoImplicit false

namespace Friet.Claims

open Session

/-- What the amounts come to, absent ones counted as zero. -/
def lossOf (c : Claim) : Money := c.approvedAmount.getD 0 - c.settlementAmount.getD 0

def LossTold (claims : Table Claim) : Prop :=
  ∀ c ∈ claims, c.status = .closed → c.netLoss = some (lossOf c)

instance (claims : Table Claim) : Decidable (LossTold claims) :=
  inferInstanceAs (Decidable (∀ c ∈ claims, _))

/-- The status stays, or changes along the table. -/
def StatusLawful (c c' : Claim) : Prop :=
  c'.status = c.status ∨ c'.status ∈ validTransitions c.status

theorem StatusLawful.refl (c : Claim) : StatusLawful c c := Or.inl rfl

def SameNotes (c c' : Claim) : Prop := c'.notes = c.notes

instance : DecidableRel SameNotes := fun c c' => inferInstanceAs (Decidable (c'.notes = c.notes))

theorem SameNotes.refl (c : Claim) : SameNotes c c := rfl

structure Handled (claims : Table Claim) (i : Timestamp × Request) : Prop where
  status : claims.Follows StatusLawful (step claims i)
  rejected : ¬ Succeeds (i.2.run i.1) claims → step claims i = claims
  notes : ∀ a, i.2 = .processClaimStatus a → a.notes = none →
    claims.Follows SameNotes (step claims i)

/-- On a claim that is closed already the amounts given come to what was told. -/
def KeepsLoss (claims : Table Claim) (i : Timestamp × Request) : Prop :=
  ∀ a, i.2 = .processClaimStatus a → ∀ c ∈ claims, c.id = a.claimId → c.status = .closed →
    a.status = .closed →
      amountOf a.approvedAmount c.approvedAmount - amountOf a.settlementAmount c.settlementAmount =
        lossOf c

def accepts (a : ProcessClaimStatus) (c : Claim) : Prop :=
  a.status ∈ validTransitions c.status ∨ a.status = c.status

/-- An accepted call gives notes, or there are none. -/
def KeepsNotes (claims : Table Claim) (i : Timestamp × Request) : Prop :=
  ∀ a, i.2 = .processClaimStatus a → a.notes = none → ∀ c ∈ claims, c.id = a.claimId →
    accepts a c → c.notes = none

section Row
variable {now : Timestamp} {a : ProcessClaimStatus} {c : Claim}

theorem lossOf_applyUpdate : lossOf (applyUpdate (updateData now a c) c) =
    amountOf a.approvedAmount c.approvedAmount -
      amountOf a.settlementAmount c.settlementAmount := by
  have hkept : ∀ new old : Option Money, (new.map some).getD old = new.or old := by
    intro new old
    cases new with
    | none => rfl
    | some amount => rfl
  unfold lossOf applyUpdate updateData amountOf
  rw [hkept, hkept]

theorem netLoss_applyUpdate : (applyUpdate (updateData now a c) c).netLoss =
    if closes a c then some (lossOf (applyUpdate (updateData now a c) c)) else c.netLoss := by
  rw [lossOf_applyUpdate]
  unfold applyUpdate updateData
  split_ifs <;> rfl

/-- The loss is told right once more, unless the amounts of a closed claim change it. -/
theorem told_applyUpdate_iff (h : c.status = .closed → c.netLoss = some (lossOf c)) :
    (a.status = .closed → (applyUpdate (updateData now a c) c).netLoss =
        some (lossOf (applyUpdate (updateData now a c) c))) ↔
      (c.status = .closed → a.status = .closed →
        amountOf a.approvedAmount c.approvedAmount -
          amountOf a.settlementAmount c.settlementAmount = lossOf c) := by
  rw [netLoss_applyUpdate]
  by_cases hclosed : c.status = .closed
  · rw [if_neg fun hcloses => hcloses.2 hclosed, h hclosed, lossOf_applyUpdate, Option.some_inj]
    exact ⟨fun htold _ ha => (htold ha).symm, fun hkept ha => (hkept hclosed ha).symm⟩
  · refine iff_of_true (fun ha => if_pos ⟨ha, hclosed⟩) fun hc => absurd hc hclosed

end Row

section Calls
variable {now : Timestamp} {a : ProcessClaimStatus} {claims claims' : Table Claim} {c d : Claim}
  {i : Timestamp × Request}

theorem keepsKey_processed (now : Timestamp) (a : ProcessClaimStatus) (c : Claim) :
    KeepsKey (applyUpdate (updateData now a c)) := keepsKey_applyUpdate _

/-- The claims once the call has been written to one of them. -/
def processed (now : Timestamp) (a : ProcessClaimStatus) (c : Claim) (claims : Table Claim) :
    Table Claim :=
  claims.update a.claimId (applyUpdate (updateData now a c)) (keepsKey_processed now a c)

theorem run_processClaimStatus_ok :
    (processClaimStatus now a).run claims = .ok d claims' ↔
      ∃ c ∈ claims, c.id = a.claimId ∧ accepts a c ∧
        applyUpdate (updateData now a c) c = d ∧ processed now a c claims = claims' := by
  unfold processClaimStatus accepts processed
  simp only [run_get_bind_ok, run_orFail_bind_ok, run_failIf_bind_ok, run_modify_bind_ok,
    run_pure_ok, Table.find?_eq_some_iff, not_and_or, not_not]
  constructor
  · rintro ⟨c, ⟨hc, hid⟩, haccepts, hd, hclaims⟩
    exact ⟨c, hc, hid, haccepts, hd, hclaims⟩
  · rintro ⟨c, hc, hid, haccepts, hd, hclaims⟩
    exact ⟨c, ⟨hc, hid⟩, haccepts, hd, hclaims⟩

theorem raisesClean_run (claims : Table Claim) (i : Timestamp × Request) :
    RaisesClean (i.2.run i.1) claims := by
  obtain ⟨now, request⟩ := i
  cases request with
  | createClaim a => exact raisesClean_of_run rfl
  | processClaimStatus a =>
    refine reads_get.bind_raisesClean fun _ => reads_orFail.bind_raisesClean fun c => ?_
    exact reads_failIf.bind_raisesClean fun _ => raisesClean_of_run rfl

/-- A call is refused, or adds a claim, or writes to one. -/
theorem step_cases (claims : Table Claim) (i : Timestamp × Request) :
    (¬ Succeeds (i.2.run i.1) claims ∧ step claims i = claims) ∨
      (∃ a, i.2 = .createClaim a ∧ step claims i = claims.insert (newClaim i.1 a)) ∨
      ∃ a c, i.2 = .processClaimStatus a ∧ (c ∈ claims ∧ c.id = a.claimId ∧ accepts a c) ∧
        step claims i = processed i.1 a c claims := by
  rcases after_cases (raisesClean_run claims i) with ⟨d, hok⟩ | hrefused
  · obtain ⟨now, request⟩ := i
    cases request with
    | createClaim a => exact Or.inr (Or.inl ⟨a, rfl, rfl⟩)
    | processClaimStatus a =>
      obtain ⟨c, hc, hid, haccepts, -, hclaims⟩ := run_processClaimStatus_ok.mp hok
      exact Or.inr (Or.inr ⟨a, c, rfl, ⟨hc, hid, haccepts⟩, hclaims.symm⟩)
  · exact Or.inl hrefused

theorem succeeds_of_accepts (hc : c ∈ claims) (hid : c.id = a.claimId) (h : accepts a c) :
    Succeeds ((Request.processClaimStatus a).run now) claims :=
  ⟨_, _, run_processClaimStatus_ok.mpr ⟨c, hc, hid, h, rfl, rfl⟩⟩

theorem accepts_of_closed (hc : c.status = .closed) (ha : a.status = .closed) : accepts a c :=
  Or.inr (ha.trans hc.symm)

theorem lossTold_step_iff (h : LossTold claims) :
    LossTold (step claims i) ↔ KeepsLoss claims i := by
  rcases step_cases claims i with
    ⟨hfails, hsame⟩ | ⟨a, hi, hclaims⟩ | ⟨a, c, hi, ⟨hc, hid, haccepts⟩, hclaims⟩
  · rw [hsame]
    refine iff_of_true h fun a hi c hc hid hclosed ha => ?_
    rw [hi] at hfails
    exact absurd (succeeds_of_accepts hc hid (accepts_of_closed hclosed ha)) hfails
  · rw [hclaims]
    refine iff_of_true ?_ fun b hb => ?_
    · exact Table.forall_mem_insert.mpr ⟨h, nofun⟩
    · rw [hi] at hb
      cases hb
  · have hkeeps : KeepsLoss claims i ↔ (c.status = .closed → a.status = .closed →
        amountOf a.approvedAmount c.approvedAmount -
          amountOf a.settlementAmount c.settlementAmount = lossOf c) := by
      constructor
      · exact fun hkeeps => hkeeps a hi c hc hid
      · intro hkeeps b hb c' hc' hid'
        rw [hi] at hb
        cases hb
        rwa [Table.eq_of_key_eq hc' hc (hid'.trans hid.symm)]
    rw [hclaims, hkeeps, ← @told_applyUpdate_iff i.1 a c (h c hc)]
    unfold LossTold processed
    rw [Table.forall_mem_update hc hid]
    exact and_iff_right fun r hr _ => h r hr

theorem handled_iff : Handled claims i ↔ KeepsNotes claims i := by
  rcases step_cases claims i with
    ⟨hfails, hsame⟩ | ⟨a, hi, hclaims⟩ | ⟨a, c, hi, ⟨hc, hid, haccepts⟩, hclaims⟩
  · refine iff_of_true ⟨?_, fun _ => hsame, fun _ _ _ => ?_⟩ fun a hi _ c hc hid haccepts => ?_
    · rw [hsame]
      exact Table.Follows.refl StatusLawful.refl _
    · rw [hsame]
      exact Table.Follows.refl SameNotes.refl _
    · rw [hi] at hfails
      exact absurd (succeeds_of_accepts hc hid haccepts) hfails
  · have hsucceeds : Succeeds (i.2.run i.1) claims := by
      rw [hi]
      exact ⟨_, _, rfl⟩
    have hnot : ∀ b, i.2 ≠ .processClaimStatus b := by
      intro b hb
      rw [hi] at hb
      cases hb
    refine iff_of_true ⟨?_, fun hfails => absurd hsucceeds hfails, fun b hb => absurd hb (hnot b)⟩
      fun b hb => absurd hb (hnot b)
    rw [hclaims]
    exact Table.follows_insert StatusLawful.refl
  · have hsucceeds : Succeeds (i.2.run i.1) claims := by
      rw [hi]
      exact succeeds_of_accepts hc hid haccepts
    constructor
    · intro hhandled b hb hnone c' hc' hid' _
      rw [hi] at hb
      cases hb
      have hfollows := hhandled.notes a hi hnone
      rw [hclaims] at hfollows
      have hnew : applyUpdate (updateData i.1 a c) c ∈ processed i.1 a c claims :=
        (Table.mem_update_of_mem hc hid).mpr (Or.inr rfl)
      have hkept := hfollows.of_mem hc hnew rfl
      rw [Table.eq_of_key_eq hc' hc (hid'.trans hid.symm), ← hkept]
      exact hnone
    · intro hkeeps
      refine ⟨?_, fun hfails => absurd hsucceeds hfails, fun b hb hnone => ?_⟩
      · rw [hclaims]
        exact Table.follows_update StatusLawful.refl hc haccepts.symm hid
      · rw [hi] at hb
        cases hb
        rw [hclaims]
        refine Table.follows_update SameNotes.refl hc ?_ hid
        exact hnone.trans (hkeeps a hi hnone c hc hid haccepts).symm

end Calls

def damaged : Timestamp × Request := (0, .createClaim ⟨"SHP123", "CAR456", 1000, "Damaged goods"⟩)

def moveTo (status : ClaimStatus) (approvedAmount settlementAmount : Option Money)
    (notes : Option String) : Timestamp × Request :=
  (1, .processClaimStatus ⟨0, status, approvedAmount, settlementAmount, notes⟩)

def settledClaim : List (Timestamp × Request) :=
  [damaged, moveTo .underReview none none none, moveTo .approved (some 800) none none,
    moveTo .closed none (some 500) none]

end Friet.Claims
