import Friet.Lib.Dict
import Friet.Tariff.Entities

/-!
# Two versions side by side: `compare_rate_versions`

The lines and the surcharges of both versions are put into dictionaries, by keys that
leave some of their fields out.
-/

set_option autoImplicit false

namespace Friet.Tariff

open Session
open Commercial (RateBasis SurchargeBasis)

structure ModifiedLine where
  chargeCode : String
  v1Amount : Money
  v2Amount : Money
  change : Money
  deriving DecidableEq

structure ModifiedSurcharge where
  chargeCode : String
  v1Amount : Money
  v2Amount : Money
  v1Basis : SurchargeBasis
  v2Basis : SurchargeBasis
  deriving DecidableEq

structure RateVersionDiff where
  rateId : Uuid
  v1Number : ℕ
  v2Number : ℕ
  v1VersionId : Uuid
  v2VersionId : Uuid
  addedLines : List RateLine
  removedLines : List RateLine
  modifiedLines : List ModifiedLine
  addedSurcharges : List RateSurcharge
  removedSurcharges : List RateSurcharge
  modifiedSurcharges : List ModifiedSurcharge
  deriving DecidableEq

abbrev LineKey := String × RateBasis × Option String × Option ℚ

/-- Without the upper bound. -/
def RateLine.comparisonKey (l : RateLine) : LineKey :=
  (l.chargeCode, l.rateBasis, l.containerTypeCode, l.weightBreakFrom)

def modifiedLine (lines : RateLine × RateLine) : ModifiedLine where
  chargeCode := lines.2.chargeCode
  v1Amount := lines.1.amount
  v2Amount := lines.2.amount
  change := cents (lines.2.amount - lines.1.amount)

def modifiedSurcharge (surcharges : RateSurcharge × RateSurcharge) : ModifiedSurcharge where
  chargeCode := surcharges.2.chargeCode
  v1Amount := surcharges.1.amount
  v2Amount := surcharges.2.amount
  v1Basis := surcharges.1.basis
  v2Basis := surcharges.2.basis

def lineChanged (l1 l2 : RateLine) : Bool := l1.amount ≠ l2.amount

def surchargeChanged (s1 s2 : RateSurcharge) : Bool := s1.amount ≠ s2.amount || s1.basis ≠ s2.basis

def versionDiff (rateId : Uuid) (v1Number v2Number : ℕ) (v1 v2 : RateVersion) :
    RateVersionDiff where
  rateId := rateId
  v1Number := v1Number
  v2Number := v2Number
  v1VersionId := v1.id
  v2VersionId := v2.id
  addedLines := Dict.added RateLine.comparisonKey v1.lines v2.lines
  removedLines := Dict.added RateLine.comparisonKey v2.lines v1.lines
  modifiedLines :=
    (Dict.modified RateLine.comparisonKey lineChanged v1.lines v2.lines).map modifiedLine
  addedSurcharges := Dict.added RateSurcharge.chargeCode v1.surcharges v2.surcharges
  removedSurcharges := Dict.added RateSurcharge.chargeCode v2.surcharges v1.surcharges
  modifiedSurcharges :=
    (Dict.modified RateSurcharge.chargeCode surchargeChanged v1.surcharges v2.surcharges).map
      modifiedSurcharge

def Rate.version (number : ℕ) (r : Rate) : Option RateVersion :=
  r.versions.find? (·.versionNumber = number)

def compareRateVersions [Text] (rateId : Uuid) (v1Number v2Number : ℕ) :
    TariffM RateVersionDiff := do
  let rates ← get
  let rate ← orFail (rates.find? rateId) (.valueError s!"Rate {uuidStr rateId} not found")
  let missing := TariffError.valueError
    s!"Could not find both versions {v1Number} and {v2Number} on rate {uuidStr rateId}"
  let v1 ← orFail (rate.version v1Number) missing
  let v2 ← orFail (rate.version v2Number) missing
  pure (versionDiff rateId v1Number v2Number v1 v2)

/-- Nothing added, removed or modified. -/
structure RateVersionDiff.Unchanged (d : RateVersionDiff) : Prop where
  addedLines : d.addedLines = []
  removedLines : d.removedLines = []
  modifiedLines : d.modifiedLines = []
  addedSurcharges : d.addedSurcharges = []
  removedSurcharges : d.removedSurcharges = []
  modifiedSurcharges : d.modifiedSurcharges = []

/-- The upper bound and the amount, beside the key. -/
def RateLine.rest (l : RateLine) : Option ℚ × Money := (l.weightBreakTo, l.amount)

def RateSurcharge.rest (s : RateSurcharge) : SurchargeBasis × Money × Date × Date :=
  (s.basis, s.amount, s.applicableFrom, s.applicableTo)

/-- The same lines and the same surcharges, up to their order and identifiers. -/
structure SameContent (v1 v2 : RateVersion) : Prop where
  lines : (v1.lines.map fun l => (l.comparisonKey, l.rest)).Perm
    (v2.lines.map fun l => (l.comparisonKey, l.rest))
  surcharges : (v1.surcharges.map fun s => (s.chargeCode, s.rest)).Perm
    (v2.surcharges.map fun s => (s.chargeCode, s.rest))

/-- Under every key the last line has the same amount, or there is none in both; under every
charge code the last surcharge has the same amount and basis. -/
structure SeenAlike (v1 v2 : RateVersion) : Prop where
  lines : ∀ k, (Dict.latest RateLine.comparisonKey v1.lines k).map RateLine.amount =
    (Dict.latest RateLine.comparisonKey v2.lines k).map RateLine.amount
  surcharges : ∀ code,
    (Dict.latest RateSurcharge.chargeCode v1.surcharges code).map (fun s => (s.amount, s.basis)) =
      (Dict.latest RateSurcharge.chargeCode v2.surcharges code).map fun s => (s.amount, s.basis)

/-- Under every key, all the lines have the same upper bounds and amounts; under every charge
code, all the surcharges the same bases, amounts and periods. -/
structure UnseenAlike (v1 v2 : RateVersion) : Prop where
  lines : ∀ k, ((v1.lines.filter (·.comparisonKey = k)).map RateLine.rest).Perm
    ((v2.lines.filter (·.comparisonKey = k)).map RateLine.rest)
  surcharges : ∀ code, ((v1.surcharges.filter (·.chargeCode = code)).map RateSurcharge.rest).Perm
    ((v2.surcharges.filter (·.chargeCode = code)).map RateSurcharge.rest)

section Versions
variable {rateId : Uuid} {v1Number v2Number : ℕ} {v1 v2 : RateVersion}

theorem sameContent_iff : SameContent v1 v2 ↔ UnseenAlike v1 v2 := by
  constructor
  · intro h
    exact ⟨Dict.perm_iff_forall_key.mp h.lines, Dict.perm_iff_forall_key.mp h.surcharges⟩
  · intro h
    exact ⟨Dict.perm_iff_forall_key.mpr h.lines, Dict.perm_iff_forall_key.mpr h.surcharges⟩

theorem lineChanged_eq_false_iff (l1 l2 : RateLine) :
    lineChanged l1 l2 = false ↔ l1.amount = l2.amount := by
  simp [lineChanged]

theorem surchargeChanged_eq_false_iff (s1 s2 : RateSurcharge) :
    surchargeChanged s1 s2 = false ↔ (s1.amount, s1.basis) = (s2.amount, s2.basis) := by
  simp [surchargeChanged]

theorem unchanged_versionDiff_iff :
    (versionDiff rateId v1Number v2Number v1 v2).Unchanged ↔ SeenAlike v1 v2 := by
  have hlines : _ ↔ ∀ k, (Dict.latest RateLine.comparisonKey v1.lines k).map RateLine.amount =
      (Dict.latest RateLine.comparisonKey v2.lines k).map RateLine.amount :=
    Dict.unchanged_iff lineChanged_eq_false_iff
  have hsurcharges : _ ↔ ∀ code,
      (Dict.latest RateSurcharge.chargeCode v1.surcharges code).map (fun s => (s.amount, s.basis)) =
        (Dict.latest RateSurcharge.chargeCode v2.surcharges code).map fun s => (s.amount, s.basis) :=
    Dict.unchanged_iff surchargeChanged_eq_false_iff
  constructor
  · intro h
    exact ⟨hlines.mp ⟨h.addedLines, List.map_eq_nil_iff.mp h.modifiedLines, h.removedLines⟩,
      hsurcharges.mp ⟨h.addedSurcharges, List.map_eq_nil_iff.mp h.modifiedSurcharges,
        h.removedSurcharges⟩⟩
  · intro h
    obtain ⟨hadded, hmodified, hremoved⟩ := hlines.mpr h.lines
    obtain ⟨hadded', hmodified', hremoved'⟩ := hsurcharges.mpr h.surcharges
    exact ⟨hadded, hremoved, List.map_eq_nil_iff.mpr hmodified, hadded', hremoved',
      List.map_eq_nil_iff.mpr hmodified'⟩

end Versions

def Compared (rates : Table Rate) (rateId : Uuid) (v1Number v2Number : ℕ) (v1 v2 : RateVersion) :
    Prop :=
  ∃ rate ∈ rates, rate.id = rateId ∧ rate.version v1Number = some v1 ∧
    rate.version v2Number = some v2

section Completeness
variable [Text] {rates : Table Rate} {rateId : Uuid} {v1Number v2Number : ℕ}

theorem run_compareRateVersions_ok {diff : RateVersionDiff} {rates' : Table Rate} :
    (compareRateVersions rateId v1Number v2Number).run rates = .ok diff rates' ↔
      ∃ v1 v2, Compared rates rateId v1Number v2Number v1 v2 ∧
        versionDiff rateId v1Number v2Number v1 v2 = diff ∧ rates = rates' := by
  unfold compareRateVersions
  simp only [run_get_bind_ok, run_orFail_bind_ok, run_pure_ok, Table.find?_eq_some_iff]
  constructor
  · rintro ⟨rate, ⟨hrate, hid⟩, v1, hv1, v2, hv2, hdiff, hrates⟩
    exact ⟨v1, v2, ⟨rate, hrate, hid, hv1, hv2⟩, hdiff, hrates⟩
  · rintro ⟨v1, v2, ⟨rate, hrate, hid, hv1, hv2⟩, hdiff, hrates⟩
    exact ⟨rate, ⟨hrate, hid⟩, v1, hv1, v2, hv2, hdiff, hrates⟩

omit [Text] in
theorem Compared.unique {v1 v2 w1 w2 : RateVersion}
    (h : Compared rates rateId v1Number v2Number v1 v2)
    (h' : Compared rates rateId v1Number v2Number w1 w2) : v1 = w1 ∧ v2 = w2 := by
  obtain ⟨rate, hrate, hid, hv1, hv2⟩ := h
  obtain ⟨rate', hrate', hid', hw1, hw2⟩ := h'
  obtain rfl : rate = rate' := Table.eq_of_key_eq hrate hrate' (hid.trans hid'.symm)
  rw [hv1] at hw1
  rw [hv2] at hw2
  exact ⟨Option.some.inj hw1, Option.some.inj hw2⟩

/-- A comparison without differences compares equal versions. -/
def ComparesCompletely (rates : Table Rate) (rateId : Uuid) (v1Number v2Number : ℕ) : Prop :=
  ∀ v1 v2, Compared rates rateId v1Number v2Number v1 v2 → ∀ diff rates',
    (compareRateVersions rateId v1Number v2Number).run rates = .ok diff rates' →
      diff.Unchanged → SameContent v1 v2

theorem comparesCompletely_iff : ComparesCompletely rates rateId v1Number v2Number ↔
    ∀ v1 v2, Compared rates rateId v1Number v2Number v1 v2 →
      SeenAlike v1 v2 → UnseenAlike v1 v2 := by
  apply forall₂_congr
  intro v1 v2
  apply imp_congr_right
  intro hcompared
  constructor
  · intro h hseen
    exact sameContent_iff.mp (h _ rates
      (run_compareRateVersions_ok.mpr ⟨v1, v2, hcompared, rfl, rfl⟩)
      (unchanged_versionDiff_iff.mpr hseen))
  · intro h diff rates' hrun hunchanged
    obtain ⟨w1, w2, hcompared', rfl, rfl⟩ := run_compareRateVersions_ok.mp hrun
    obtain ⟨rfl, rfl⟩ := hcompared.unique hcompared'
    exact sameContent_iff.mpr (h (unchanged_versionDiff_iff.mp hunchanged))

end Completeness

def breakVersion (number : ℕ) (weightBreakTo : ℚ) : RateVersion where
  id := number
  rateId := 0
  versionNumber := number
  modifiedBy := "CLERK"
  modifiedDate := 0
  reason := "Rate tariff update"
  approvalStatus := .approved
  lines := [⟨number, "AFT", .perKg, 5, some 45, some weightBreakTo, none, some number⟩]
  surcharges := []

def widenedRate (id : Uuid) : Rate where
  id := id
  rateNumber := "RT-1"
  rateType := "AIR"
  rateCategory := .fak
  carrierVendorId := "EK"
  serviceName := "Standard"
  originLocationId := "KHI"
  destinationLocationId := "DXB"
  effectiveDate := ⟨2026, 1, 1⟩
  expiryDate := ⟨2026, 12, 31⟩
  currencyCode := "USD"
  status := .active
  commodityId := none
  customerId := none
  versions := [breakVersion 1 100, breakVersion 2 300]

open Verbatim in
theorem wider_break_not_shown :
    let rates := (Table.empty : Table Rate).insert widenedRate
    (∃ diff, (compareRateVersions 0 1 2).run rates = .ok diff rates ∧ diff.Unchanged) ∧
      ¬ ComparesCompletely rates 0 1 2 := by
  intro rates
  have hcompared : Compared rates 0 1 2 (breakVersion 1 100) (breakVersion 2 300) :=
    ⟨widenedRate 0, Table.mem_insert_self, rfl, by decide +kernel, by decide +kernel⟩
  have hrun : (compareRateVersions 0 1 2).run rates =
      .ok (versionDiff 0 1 2 (breakVersion 1 100) (breakVersion 2 300)) rates :=
    run_compareRateVersions_ok.mpr ⟨_, _, hcompared, rfl, rfl⟩
  have hunchanged : (versionDiff 0 1 2 (breakVersion 1 100) (breakVersion 2 300)).Unchanged := by
    refine ⟨?_, ?_, ?_, ?_, ?_, ?_⟩ <;> decide +kernel
  refine ⟨⟨_, hrun, hunchanged⟩, fun h => ?_⟩
  have hlines := (h _ _ hcompared _ _ hrun hunchanged).lines
  exact absurd (List.perm_singleton.mp hlines) (by decide +kernel)

end Friet.Tariff
