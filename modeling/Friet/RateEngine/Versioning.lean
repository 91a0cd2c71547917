import Friet.Lib.Ends
import Friet.RateEngine.Ports
import Friet.RateEngine.Resolution

/-!
# Versions of a rate: `RateVersioningService`

The number of a new version is one above the highest that is stored.
-/

set_option autoImplicit false

namespace Friet.RateEngine.Versioning

open Session
open ImmutableRepository (Operation)

structure RateVersion where
  id : Uuid
  rateId : Uuid
  versionNumber : ℤ
  modifiedBy : String
  modifiedDate : Timestamp
  reason : String
  approvalStatus : String
  deriving DecidableEq

instance : Keyed RateVersion := ⟨RateVersion.id⟩
instance : Keyed RateLine := ⟨RateLine.id⟩

structure Repositories where
  versions : Table RateVersion
  lines : Table RateLine

abbrev VersioningM := EStateM PortError Repositories

/-- `newId` gives the identifiers drawn, in their order. -/
structure CreateNewVersion where
  rateId : Uuid
  modifiedBy : String
  reason : String
  lines : List RateLine
  modifiedDate : Option Timestamp
  now : Timestamp
  newId : ℕ → Uuid

def versionsOf (rateId : Uuid) (s : Repositories) : List RateVersion :=
  ImmutableRepository.list [fun v => v.rateId = rateId] s.versions

/-- `max(..., default=0) + 1`. -/
def nextVersionNumber (rateId : Uuid) (s : Repositories) : ℤ :=
  ((versionsOf rateId s).map RateVersion.versionNumber).max?.getD 0 + 1

def newVersion (a : CreateNewVersion) (s : Repositories) : RateVersion where
  id := a.newId 0
  rateId := a.rateId
  versionNumber := nextVersionNumber a.rateId s
  modifiedBy := a.modifiedBy
  modifiedDate := a.modifiedDate.getD a.now
  reason := a.reason
  approvalStatus := "DRAFT"

def stampedLine (a : CreateNewVersion) (versionId : Uuid) (line : RateLine × ℕ) : RateLine :=
  { line.1 with id := a.newId line.2, rateVersionId := versionId }

def addVersion [Text] (version : RateVersion) : VersioningM Unit := do
  let s ← get
  let versions ← orRaise (ImmutableRepository.add version s.versions)
  modify fun s => { s with versions := versions }

def addLine [Text] (line : RateLine) : VersioningM Unit := do
  let s ← get
  let lines ← orRaise (ImmutableRepository.add line s.lines)
  modify fun s => { s with lines := lines }

def createNewVersion [Text] (a : CreateNewVersion) : VersioningM RateVersion := do
  let s ← get
  let version := newVersion a s
  addVersion version
  (a.lines.zipIdx 1).forM fun line => addLine (stampedLine a version.id line)
  pure version

def getLatestVersion (rateId : Uuid) (s : Repositories) : Option RateVersion :=
  (versionsOf rateId s).maxOn? RateVersion.versionNumber

/-- A creation, or an operation on one of the two repositories. -/
inductive VersioningCall where
  | create (a : CreateNewVersion)
  | onVersions (op : Operation RateVersion)
  | onLines (op : Operation RateLine)

section Runs
variable [Text] {s t : Repositories} {rateId : Uuid}

def callStep (s : Repositories) : VersioningCall → Repositories
  | .create a => endState (createNewVersion a) s
  | .onVersions op => { s with versions := ImmutableRepository.step s.versions op }
  | .onLines op => { s with lines := ImmutableRepository.step s.lines op }

/-- The versions that creations have stored, in their order. -/
def created : Repositories → List VersioningCall → List RateVersion
  | _, [] => []
  | s, .create a :: calls =>
    (if ImmutableRepository.get s.versions (a.newId 0) = none then [newVersion a s] else []) ++
      created (callStep s (.create a)) calls
  | s, call :: calls => created (callStep s call) calls

omit [Text] in
theorem mem_versionsOf {v : RateVersion} :
    v ∈ versionsOf rateId s ↔ v ∈ s.versions ∧ v.rateId = rateId := by
  unfold versionsOf ImmutableRepository.list
  rw [List.foldl_cons, List.foldl_nil, List.mem_filter, decide_eq_true_eq]
  exact Iff.rfl

omit [Text] in
theorem lt_nextVersionNumber {v : RateVersion} (hv : v ∈ s.versions) (hrate : v.rateId = rateId) :
    v.versionNumber < nextVersionNumber rateId s := by
  have hmem : v.versionNumber ∈ (versionsOf rateId s).map RateVersion.versionNumber :=
    List.mem_map_of_mem (mem_versionsOf.mpr ⟨hv, hrate⟩)
  unfold nextVersionNumber
  cases hmax : ((versionsOf rateId s).map RateVersion.versionNumber).max? with
  | none =>
    rw [List.max?_eq_none_iff.mp hmax] at hmem
    cases hmem
  | some highest =>
    have hle := (List.max?_eq_some_iff.mp hmax).2 _ hmem
    rw [Option.getD_some]
    omega

omit [Text] in
theorem getLatestVersion_eq_some {v : RateVersion} (h : getLatestVersion rateId s = some v) :
    (v ∈ s.versions ∧ v.rateId = rateId) ∧
      ∀ w ∈ s.versions, w.rateId = rateId → w.versionNumber ≤ v.versionNumber := by
  refine ⟨mem_versionsOf.mp (List.maxOn?_mem h), fun w hw hrate => ?_⟩
  have hle := List.le_apply_get_maxOn?_of_mem (f := RateVersion.versionNumber)
    (mem_versionsOf.mpr ⟨hw, hrate⟩)
  simp only [show (versionsOf rateId s).maxOn? _ = some v from h, Option.get_some] at hle
  exact hle

omit [Text] in
theorem exists_getLatestVersion {w : RateVersion} (hw : w ∈ s.versions) :
    ∃ v, getLatestVersion w.rateId s = some v :=
  Option.isSome_iff_exists.mp (List.isSome_maxOn?_of_mem (mem_versionsOf.mpr ⟨hw, rfl⟩))

/-- Every version stored before has one of its rate after it that is no lower. -/
def Rises (s t : Repositories) : Prop :=
  ∀ v ∈ s.versions, ∃ w ∈ t.versions, w.rateId = v.rateId ∧ v.versionNumber ≤ w.versionNumber

/-- The latest version of a rate, once there is one, is never a lower one. -/
def LatestKept (s t : Repositories) : Prop :=
  ∀ rateId v, getLatestVersion rateId s = some v →
    ∃ w, getLatestVersion rateId t = some w ∧ v.versionNumber ≤ w.versionNumber

omit [Text] in
theorem latestKept_iff_rises : LatestKept s t ↔ Rises s t := by
  constructor
  · intro h v hv
    obtain ⟨top, htop⟩ := exists_getLatestVersion hv
    obtain ⟨w, hw, hle⟩ := h v.rateId top htop
    obtain ⟨⟨hmem, hrate⟩, -⟩ := getLatestVersion_eq_some hw
    exact ⟨w, hmem, hrate, ((getLatestVersion_eq_some htop).2 v hv rfl).trans hle⟩
  · intro h rateId v hv
    obtain ⟨⟨hmem, hrate⟩, -⟩ := getLatestVersion_eq_some hv
    obtain ⟨w, hw, hwrate, hle⟩ := h v hmem
    obtain ⟨top, htop⟩ := exists_getLatestVersion hw
    rw [hwrate, hrate] at htop
    exact ⟨top, htop, hle.trans ((getLatestVersion_eq_some htop).2 w hw (hwrate.trans hrate))⟩

omit [Text] in
theorem Rises.refl (s : Repositories) : Rises s s := fun v hv => ⟨v, hv, rfl, le_rfl⟩

omit [Text] in
theorem Rises.trans {u : Repositories} (hst : Rises s t) (htu : Rises t u) : Rises s u := by
  intro v hv
  obtain ⟨w, hw, hwrate, hle⟩ := hst v hv
  obtain ⟨x, hx, hxrate, hle'⟩ := htu w hw
  exact ⟨x, hx, hxrate.trans hwrate, hle.trans hle'⟩

omit [Text] in
theorem rises_of_keeps (h : ∀ v ∈ s.versions, v ∈ t.versions) : Rises s t :=
  fun v hv => ⟨v, h v hv, rfl, le_rfl⟩

/-- A deletion takes no version away that is the highest of its rate alone. -/
def KeepsHighest (s : Repositories) : VersioningCall → Prop
  | .onVersions (.delete id) => ∀ v ∈ s.versions, v.id = id → ∃ w ∈ s.versions, w.id ≠ id ∧
      w.rateId = v.rateId ∧ v.versionNumber ≤ w.versionNumber
  | _ => True

theorem ends_addVersion (version : RateVersion) :
    Ends (addVersion version) (fun _ t => t.versions = s.versions.put version)
      (fun t => t.versions = s.versions.put version) s := by
  have hput : (ImmutableRepository.add version s.versions).toOption.getD s.versions =
      s.versions.put version := ImmutableRepository.step_add
  unfold addVersion
  refine ends_bind (ends_get (ends_bind ?_))
  cases hadd : ImmutableRepository.add version s.versions with
  | error e =>
    rw [hadd] at hput
    exact hput
  | ok versions =>
    rw [hadd] at hput
    exact hput

theorem ends_addLine (line : RateLine) :
    Ends (addLine line) (fun _ t => t.versions = s.versions)
      (fun t => t.versions = s.versions) s := by
  unfold addLine
  refine ends_bind (ends_get (ends_bind (ends_orRaise rfl fun lines _ => ?_)))
  exact ends_modify rfl

/-- Whatever becomes of the lines, the version is put where its identifier is new. -/
theorem versions_create (a : CreateNewVersion) :
    (callStep s (.create a)).versions = s.versions.put (newVersion a s) := by
  unfold callStep createNewVersion
  refine Ends.endState
    (P := fun u : Repositories => u.versions = s.versions.put (newVersion a s)) ?_
  refine ends_bind (ends_get (ends_bind ?_))
  refine (ends_addVersion (newVersion a s)).imp (fun _ t ht => ?_) fun _ h => h
  have hloop := ends_forM (P := fun u : Repositories => u.versions = t.versions)
    (f := fun line => addLine (stampedLine a (newVersion a s).id line)) (a.lines.zipIdx 1)
    (fun line _ u hu => by rw [← hu]; exact ends_addLine _) rfl
  rw [ht] at hloop
  exact ends_bind (hloop.imp (fun _ _ h => h) fun _ h => h)

theorem rises_step_iff {call : VersioningCall} :
    Rises s (callStep s call) ↔ KeepsHighest s call := by
  cases call with
  | create a =>
    refine iff_of_true (rises_of_keeps fun v hv => ?_) trivial
    rw [versions_create]
    exact Table.mem_put.mpr (Or.inl hv)
  | onLines op => exact iff_of_true (Rises.refl s) trivial
  | onVersions op =>
    cases op with
    | delete id =>
      constructor
      · intro h v hv _
        obtain ⟨w, hw, hrate, hle⟩ := h v hv
        obtain ⟨hmem, hne⟩ := Table.mem_erase.mp hw
        exact ⟨w, hmem, hne, hrate, hle⟩
      · intro h v hv
        by_cases hid : v.id = id
        · obtain ⟨w, hw, hne, hrate, hle⟩ := h v hv hid
          exact ⟨w, Table.mem_erase.mpr ⟨hw, hne⟩, hrate, hle⟩
        · exact ⟨v, Table.mem_erase.mpr ⟨hv, hid⟩, rfl, le_rfl⟩
    | add v =>
      refine iff_of_true (rises_of_keeps ?_) trivial
      exact ImmutableRepository.keeps_step_iff.mpr trivial
    | update v => exact iff_of_true (Rises.refl s) trivial
    | list filters => exact iff_of_true (Rises.refl s) trivial
    | get id => exact iff_of_true (Rises.refl s) trivial

theorem latestKept_iff_meets {calls : List VersioningCall} :
    (∀ made made', made <+: made' → made' <+: calls →
      LatestKept (made.foldl callStep s) (made'.foldl callStep s)) ↔
      Meets callStep KeepsHighest s calls := by
  simp only [latestKept_iff_rises]
  exact forall_prefixes_iff_meets Rises.refl (fun _ _ _ => Rises.trans) fun _ _ => rises_step_iff

theorem lt_of_created {calls : List VersioningCall} (h : Meets callStep KeepsHighest s calls)
    {v w : RateVersion} (hv : v ∈ s.versions) (hw : w ∈ created s calls)
    (hrate : v.rateId = w.rateId) : v.versionNumber < w.versionNumber := by
  induction calls generalizing s v with
  | nil => cases hw
  | cons call calls ih =>
    obtain ⟨v', hv', hrate', hle⟩ := rises_step_iff.mpr h.1 v hv
    have hlater : w ∈ created (callStep s call) calls → v.versionNumber < w.versionNumber :=
      fun hmem => hle.trans_lt (ih h.2 hv' hmem (hrate'.trans hrate))
    cases call with
    | create a =>
      unfold created at hw
      rcases List.mem_append.mp hw with hw | hw
      · split_ifs at hw
        · rw [List.mem_singleton.mp hw] at hrate ⊢
          exact lt_nextVersionNumber hv hrate
        · cases hw
      · exact hlater hw
    | onVersions op => exact hlater hw
    | onLines op => exact hlater hw

/-- Later ones of a rate have higher numbers, so no two have the same. -/
theorem pairwise_created {calls : List VersioningCall}
    (h : Meets callStep KeepsHighest s calls) :
    (created s calls).Pairwise fun v w =>
      v.rateId = w.rateId → v.versionNumber < w.versionNumber := by
  induction calls generalizing s with
  | nil => exact .nil
  | cons call calls ih =>
    cases call with
    | create a =>
      unfold created
      rw [List.pairwise_append]
      refine ⟨?_, ih h.2, fun v hv w hw hrate => ?_⟩
      · split_ifs
        · exact List.pairwise_singleton _ _
        · exact .nil
      · split_ifs at hv with hnew
        · have hstored : v ∈ (callStep s (.create a)).versions := by
            rw [versions_create, List.mem_singleton.mp hv, Table.mem_put]
            exact Or.inr ⟨rfl, ImmutableRepository.get_eq_none_iff.mp hnew⟩
          exact lt_of_created h.2 hstored hw hrate
        · cases hv
    | onVersions op => exact ih h.2
    | onLines op => exact ih h.2

/-- Versions created for one rate have numbers of their own, and its latest version is never a
lower one than before. -/
structure NumbersRise (s : Repositories) (calls : List VersioningCall) : Prop where
  distinct : ((created s calls).map fun v => (v.rateId, v.versionNumber)).Nodup
  latest : ∀ made made', made <+: made' → made' <+: calls →
    LatestKept (made.foldl callStep s) (made'.foldl callStep s)

theorem numbersRise_iff_meets {calls : List VersioningCall} :
    NumbersRise s calls ↔ Meets callStep KeepsHighest s calls := by
  constructor
  · intro h
    exact latestKept_iff_meets.mp h.latest
  · intro h
    refine ⟨?_, latestKept_iff_meets.mpr h⟩
    rw [List.Nodup, List.pairwise_map]
    apply (pairwise_created h).imp
    intro v w hlt heq
    obtain ⟨hrate, hnumber⟩ := Prod.mk.inj heq
    exact absurd hnumber (hlt hrate).ne

/-- What is stored stays while nothing stored is deleted; and the numbers of the versions rise
while the highest of a rate is not deleted. -/
theorem immutable_versions :
    (∀ (T : Type) [Keyed T] (store : Table T) (ops : List (Operation T)),
      ImmutableRepository.Persists store ops ↔
        Meets ImmutableRepository.step ImmutableRepository.DeletesNothing store ops) ∧
      ∀ (s : Repositories) (calls : List VersioningCall),
        NumbersRise s calls ↔ Meets callStep KeepsHighest s calls :=
  ⟨fun _ _ _ _ => ImmutableRepository.persists_iff_meets, fun _ _ => numbersRise_iff_meets⟩

end Runs

def tariffUpdate (firstId : Uuid) : CreateNewVersion :=
  ⟨7, "ANALYST", "Tariff update", [], none, 0, (firstId + ·)⟩

def draft (id : Uuid) (reason : String) : RateVersion := ⟨id, 7, 1, "ANALYST", 0, reason, "DRAFT"⟩

open Verbatim in
theorem deleted_version_replaced :
    let calls : List VersioningCall :=
      [.create (tariffUpdate 1), .onVersions (.delete 1), .create (tariffUpdate 2)]
    let ops : List (Operation RateVersion) :=
      [.add (draft 1 "First"), .delete 1, .add (draft 1 "Second")]
    (created ⟨Table.empty, Table.empty⟩ calls).map RateVersion.versionNumber = [1, 1] ∧
      ¬ NumbersRise ⟨Table.empty, Table.empty⟩ calls ∧
      ¬ ImmutableRepository.Persists Table.empty ops := by
  intro calls ops
  refine ⟨by decide +kernel, fun h => ?_, fun h => ?_⟩
  · exact absurd h.distinct (by decide +kernel)
  · have hfirst := h (ops.take 1) ops (List.take_prefix 1 ops) (List.prefix_refl ops) 1
      (draft 1 "First") (by decide +kernel)
    exact absurd hfirst (by decide +kernel)

end Friet.RateEngine.Versioning
