import Friet.Tariff.Privacy
import Friet.Lib.Run

/-!
# Which version the engine prices from

The current version of a rate is the newest one, approved or not. Prices come from
approved versions as long as no other version is ever appended.
-/

set_option autoImplicit false

namespace Friet.Tariff

open Session

section Numbers
variable {r : Rate} {v w : RateVersion} {a : CreateNewRateVersion}

theorem lt_nextVersion (h : v ∈ r.versions) :
    v.versionNumber < (nextVersion a r).versionNumber :=
  Nat.lt_succ_of_le (List.le_max_of_le' 0 (List.mem_map_of_mem h) le_rfl)

def Numbered (r : Rate) : Prop := (r.versions.map (·.versionNumber)).Nodup

theorem numbered_newRate (a : CreateRate) (id : Uuid) : Numbered (newRate a id) :=
  List.nodup_singleton _

theorem Numbered.addVersion (h : Numbered r) : Numbered (r.addVersion a) := by
  unfold Numbered Rate.addVersion
  rw [List.map_append, List.nodup_append]
  refine ⟨h, List.nodup_singleton _, fun n hn m hm => ?_⟩
  obtain ⟨v, hv, rfl⟩ := List.mem_map.mp hn
  rw [List.mem_singleton.mp hm]
  exact ne_of_lt (lt_nextVersion hv)

theorem currentVersion_addVersion : (r.addVersion a).currentVersion = some (nextVersion a r) := by
  unfold Rate.currentVersion Rate.addVersion
  rw [List.argmax_concat]
  cases hmax : r.versions.argmax (·.versionNumber) with
  | none => rfl
  | some v => exact if_pos (lt_nextVersion (List.argmax_mem hmax))

theorem Numbered.lt_currentVersion (h : Numbered r) (hv : r.currentVersion = some v)
    (hw : w ∈ r.versions) : w = v ∨ w.versionNumber < v.versionNumber := by
  rcases Nat.lt_or_eq_of_le (List.le_of_mem_argmax hw hv) with hlt | heq
  · exact Or.inr hlt
  · exact Or.inl (List.inj_on_of_nodup_map h hw (List.argmax_mem hv) heq)

end Numbers

section Runs
variable [Text] {rates : Table Rate}

/-- A new version of a rate that exists is passed as approved. -/
def Approving (rates : Table Rate) : TariffRequest → Prop
  | .createRate _ => True
  | .createNewRateVersion a => (∃ r ∈ rates, r.id = a.rateId) → a.approvalStatus = .approved

theorem run_createNewRateVersion_ok {a : CreateNewRateVersion} {v : RateVersion}
    {rates' : Table Rate} : (createNewRateVersion a).run rates = .ok v rates' ↔
      ∃ r ∈ rates, r.id = a.rateId ∧ v = nextVersion a r ∧
        rates' = rates.update a.rateId (Rate.addVersion a) (keepsKey_addVersion a) := by
  unfold createNewRateVersion
  simp only [run_get_bind_ok, run_orFail_bind_ok, run_modify_bind_ok, run_pure_ok,
    Table.find?_eq_some_iff]
  constructor
  · rintro ⟨r, ⟨hr, hid⟩, rfl, rfl⟩
    exact ⟨r, hr, hid, rfl, rfl⟩
  · rintro ⟨r, hr, hid, rfl, rfl⟩
    exact ⟨r, ⟨hr, hid⟩, rfl, rfl⟩

theorem step_createNewRateVersion {a : CreateNewRateVersion} {r : Rate} (hr : r ∈ rates)
    (hid : r.id = a.rateId) : step rates (.createNewRateVersion a) =
      rates.update a.rateId (Rate.addVersion a) (keepsKey_addVersion a) :=
  after_of_ok (run_createNewRateVersion_ok.mpr ⟨r, hr, hid, rfl, rfl⟩)

/-- What a request keeps: one obligation for each operation that goes through. -/
theorem step_keeps {I : Table Rate → Prop} {i : TariffRequest} (hrates : I rates)
    (hcreate : ∀ a, i = .createRate a → I (rates.insert (newRate a) ⟨fun _ => rfl⟩))
    (hversion : ∀ a, ∀ r ∈ rates, i = .createNewRateVersion a → r.id = a.rateId →
      I (rates.update a.rateId (Rate.addVersion a) (keepsKey_addVersion a))) :
    I (step rates i) := by
  cases i with
  | createRate a => exact hcreate a rfl
  | createNewRateVersion a =>
    have hclean : RaisesClean (createNewRateVersion a) rates :=
      reads_get.bind_raisesClean fun _ => reads_orFail.bind_raisesClean fun _ =>
        raisesClean_of_run rfl
    rcases after_cases hclean with ⟨v, hrun⟩ | ⟨_, hsame⟩
    · obtain ⟨r, hr, hid, _, heq⟩ := run_createNewRateVersion_ok.mp hrun
      change I (after (createNewRateVersion a) rates)
      rw [heq]
      exact hversion a r hr rfl hid
    · change I (after (createNewRateVersion a) rates)
      rw [hsame]
      exact hrates

/-- Every version of every rate is approved, and no two have one number. -/
def Approved (rates : Table Rate) : Prop :=
  ∀ r ∈ rates, Numbered r ∧ ∀ v ∈ r.versions, v.approvalStatus = .approved

theorem approved_step {i : TariffRequest} (h : Approved rates) (hi : Approving rates i) :
    Approved (step rates i) := by
  refine step_keeps h (fun a _ => ?_) fun a r hr heq hid => ?_
  · refine Table.forall_mem_insert.mpr ⟨h, numbered_newRate a _, fun v hv => ?_⟩
    rw [List.mem_singleton.mp hv]
    rfl
  · subst heq
    have happroved := hi ⟨r, hr, hid⟩
    refine (Table.forall_mem_update hr hid).mpr ⟨fun s hs _ => h s hs, (h r hr).1.addVersion, ?_⟩
    intro v hv
    rcases List.mem_append.mp hv with hv | hv
    · exact (h r hr).2 v hv
    · rw [List.mem_singleton.mp hv]
      exact happroved

/-- A version that is not passed as approved is the current one of its rate at once. -/
theorem exists_unapproved_current {i : TariffRequest} (hi : ¬ Approving rates i) :
    ∃ r ∈ step rates i, ∃ v, r.currentVersion = some v ∧ v.approvalStatus ≠ .approved := by
  cases i with
  | createRate a => exact absurd trivial hi
  | createNewRateVersion a =>
    obtain ⟨⟨r, hr, hid⟩, hstatus⟩ := Classical.not_imp.mp hi
    rw [step_createNewRateVersion hr hid]
    exact ⟨r.addVersion a, (Table.mem_update_of_mem hr hid).mpr (Or.inr rfl), nextVersion a r,
      currentVersion_addVersion, hstatus⟩

/-- The version is approved, and of the approved versions of the rate the newest. -/
def PricesApproved (x : Resolution) : Prop :=
  ∀ r ∈ x.rate, ∀ v ∈ x.version, v ∈ r.versions ∧ v.approvalStatus = .approved ∧
    ∀ w ∈ r.versions, w.approvalStatus = .approved → w = v ∨ w.versionNumber < v.versionNumber

omit [Text] in
theorem resolved_current {q : LaneQuery} {r : Rate} {v : RateVersion}
    (hr : (resolveRateForLane q rates).rate = some r)
    (hv : (resolveRateForLane q rates).version = some v) :
    r ∈ rates ∧ r.currentVersion = some v := by
  unfold resolveRateForLane at hr hv
  cases hfirst : categoryPriority.findSome? (offer q (availableRates q rates)) with
  | none =>
    rw [hfirst] at hr
    cases hr
  | some x =>
    rw [hfirst] at hr hv
    obtain ⟨c, _, hoffer⟩ := List.exists_of_findSome?_eq_some hfirst
    obtain ⟨best, hbest, version, hversion, rfl⟩ := offer_eq_some.mp hoffer
    cases hr
    cases hv
    exact ⟨hbest.mem, hversion⟩

theorem pricesApproved_of_approving {q : LaneQuery} (h : Reaches step Approving .empty rates) :
    PricesApproved (resolveRateForLane q rates) := by
  have happroved : Approved rates :=
    h.invariant Approved (fun _ _ => approved_step) fun r hr => absurd hr (Table.not_mem_empty r)
  intro r hr v hv
  obtain ⟨hmem, hcurrent⟩ := resolved_current hr hv
  obtain ⟨hnumbered, hall⟩ := happroved r hmem
  have hv := List.argmax_mem hcurrent
  exact ⟨hv, hall v hv, fun w hw _ => hnumbered.lt_currentVersion hcurrent hw⟩

end Runs

section Verbatim
open Friet.Verbatim

def newFak : CreateRate where
  rateNumber := "FAK-1"
  rateType := "SEA"
  rateCategory := .fak
  carrierVendorId := "MAERSK"
  serviceName := "AE1"
  originLocationId := "SHA"
  destinationLocationId := "RTM"
  effectiveDate := ⟨2026, 1, 1⟩
  expiryDate := ⟨2026, 12, 31⟩
  lines := []
  surcharges := []
  currencyCode := "USD"
  customerId := none
  commodityId := none
  createdBy := "u"
  reason := "Initial rate creation"
  versionId := 1
  now := 0

def secondVersion (approvalStatus : ApprovalStatus) : CreateNewRateVersion :=
  ⟨0, [], [], "u", "GRI", approvalStatus, 2, 1⟩

def fakQuery : LaneQuery := ⟨1, "SHA", "RTM", ⟨2026, 1, 15⟩, none, none, none, none⟩

theorem approved_second_version_prices : PricesApproved (resolveRateForLane fakQuery
    ([.createRate newFak, .createNewRateVersion (secondVersion .approved)].foldl step .empty)) :=
  pricesApproved_of_approving (Meets.reaches ⟨trivial, fun _ => rfl, trivial⟩)

/-- A draft that is appended is what the engine prices from. -/
theorem draft_second_version_prices :
    ((resolveRateForLane fakQuery
        ([.createRate newFak, .createNewRateVersion (secondVersion .draft)].foldl step
          .empty)).version.map fun v => (v.versionNumber, v.approvalStatus)) = some (2, .draft) := by
  decide +kernel

end Verbatim

end Friet.Tariff
