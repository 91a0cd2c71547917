import Friet.Awb.Steps
import Friet.Lib.Run

/-!
# House and master waybills

A house waybill names its master by id. Creating one does not look whether the
master is cancelled, and an amendment does not look at all; cancelling a master
is refused while a house waybill names it.
-/

set_option autoImplicit false

namespace Friet.Awb

def Fields.ActiveHawb (d : Fields) : Prop :=
  d.scalar "awb_type" = some (.str "HAWB") ∧ d.scalar "status" ≠ some (.str "CANCELLED")

/-- A MAWB of the same tenant that is not cancelled. -/
structure Fields.ParentOf (p d : Fields) : Prop where
  type : p.scalar "awb_type" = some (.str "MAWB")
  tenant : p "tenant_id" = d "tenant_id"
  status : p.scalar "status" ≠ some (.str "CANCELLED")

/-- The AWB names another one as its parent. -/
def Repo.Names (s : Repo) (d : Fields) (parent : ℕ) : Prop :=
  ∃ key, d.scalar "parent_mawb_id" = some key ∧ s.awbs.lookup key = some parent

def Repo.Hierarchy (s : Repo) : Prop :=
  ∀ key ref, s.awbs.lookup key = some ref → (s.objects ref).ActiveHawb →
    ∃ parent, s.Names (s.objects ref) parent ∧ (s.objects parent).ParentOf (s.objects ref)

/-- Every AWB is filed under its id, a UUID. -/
structure Repo.Filed (s : Repo) : Prop where
  id : ∀ key ref, s.awbs.lookup key = some ref →
    (s.objects ref).scalar "id" = some key ∧ ∃ u, key = .uuid u
  lt : ∀ key ref, s.awbs.lookup key = some ref → ref < s.allocated

theorem Fields.ParentOf.not_hawb {p d : Fields} (h : p.ParentOf d) : ¬ p.ActiveHawb := by
  rintro ⟨htype, -⟩
  exact absurd (htype.symm.trans h.type) (by decide)

section Alike
variable {s t : Repo}

theorem Fields.Alike.activeHawb_iff {d e : Fields} (h : d.Alike e) :
    d.ActiveHawb ↔ e.ActiveHawb := by
  unfold Fields.ActiveHawb
  rw [h.scalar (f := "awb_type") (by decide), h.scalar (f := "status") (by decide)]

theorem Fields.Alike.parentOf {p p' d d' : Fields} (hp : p.Alike p') (hd : d.Alike d')
    (h : p.ParentOf d) : p'.ParentOf d' where
  type := (hp.scalar (by decide)).symm.trans h.type
  tenant := ((hp _ (by decide)).symm.trans h.tenant).trans (hd _ (by decide))
  status := (hp.scalar (f := "status") (by decide)) ▸ h.status

theorem Repo.Alike.symm (h : s.Alike t) : t.Alike s :=
  ⟨h.awbs.symm, h.allocated.symm, h.sequences.symm, fun ref f hf => (h.objects ref f hf).symm⟩

theorem Repo.Alike.hierarchy (h : s.Alike t) (hs : s.Hierarchy) : t.Hierarchy := by
  intro key ref hlookup hactive
  rw [← h.awbs] at hlookup
  obtain ⟨parent, ⟨name, hname, hfound⟩, hparent⟩ :=
    hs key ref hlookup ((h.objects ref).activeHawb_iff.mpr hactive)
  refine ⟨parent, ⟨name, ?_, h.awbs ▸ hfound⟩, (h.objects parent).parentOf (h.objects ref) hparent⟩
  rw [← (h.objects ref).scalar (by decide)]
  exact hname

theorem Repo.Alike.hierarchy_iff (h : s.Alike t) : s.Hierarchy ↔ t.Hierarchy :=
  ⟨h.hierarchy, h.symm.hierarchy⟩

theorem Repo.Alike.filed (h : s.Alike t) (hs : s.Filed) : t.Filed where
  id key ref hlookup := by
    rw [← (h.objects ref).scalar (by decide)]
    exact hs.id key ref (h.awbs ▸ hlookup)
  lt key ref hlookup := h.allocated ▸ hs.lt key ref (h.awbs ▸ hlookup)

end Alike

section Put
variable {s : Repo} {ref : ℕ} {awbId : Uuid} {d : Fields}

theorem Repo.lookup_put (hfound : s.awbs.lookup (.uuid awbId) = some ref)
    (hid : d.scalar "id" = some (.uuid awbId)) (key : Scalar) :
    (s.put ref d).awbs.lookup key = s.awbs.lookup key := by
  unfold Repo.put Repo.file
  rw [Repo.objects_setObject, hid]
  change AList.lookup key (s.awbs.insert (.uuid awbId) ref) = _
  by_cases hkey : key = .uuid awbId
  · subst hkey
    rw [AList.lookup_insert, hfound]
  · rw [AList.lookup_insert_ne hkey]

theorem Repo.objects_put (s : Repo) (ref : ℕ) (d : Fields) :
    (s.put ref d).objects = Function.update s.objects ref d := by
  unfold Repo.put Repo.file
  split <;> rfl

theorem Repo.allocated_put (s : Repo) (ref : ℕ) (d : Fields) :
    (s.put ref d).allocated = s.allocated := by
  unfold Repo.put Repo.file
  split <;> rfl

theorem Repo.Filed.put (hs : s.Filed) (hfound : s.awbs.lookup (.uuid awbId) = some ref)
    (hid : d.scalar "id" = some (.uuid awbId)) : (s.put ref d).Filed := by
  constructor
  · intro key r hlookup
    rw [Repo.lookup_put hfound hid] at hlookup
    rw [Repo.objects_put]
    by_cases hr : r = ref
    · subst hr
      have hkey : key = .uuid awbId := Option.some.inj
        ((hs.id key r hlookup).1.symm.trans (hs.id _ r hfound).1)
      rw [Function.update_self, hkey]
      exact ⟨hid, awbId, rfl⟩
    · rw [Function.update_of_ne hr]
      exact hs.id key r hlookup
  · intro key r hlookup
    rw [Repo.lookup_put hfound hid] at hlookup
    rw [Repo.allocated_put]
    exact hs.lt key r hlookup

/-- The AWB as it is changed still has its parent, and is still one to the HAWBs that name it. -/
structure Repo.Fits (s : Repo) (ref : ℕ) (d : Fields) : Prop where
  parent : d.ActiveHawb → ∃ parent, s.Names d parent ∧ parent ≠ ref ∧ (s.objects parent).ParentOf d
  children : ∀ key child, s.awbs.lookup key = some child → child ≠ ref →
    (s.objects child).ActiveHawb → s.Names (s.objects child) ref → d.ParentOf (s.objects child)

section Put
variable (hfound : s.awbs.lookup (.uuid awbId) = some ref)
  (hid : d.scalar "id" = some (.uuid awbId))
include hfound hid

theorem Repo.names_put_iff {e : Fields} {parent : ℕ} :
    (s.put ref d).Names e parent ↔ s.Names e parent := by
  unfold Repo.Names
  simp only [Repo.lookup_put hfound hid]

theorem Repo.Hierarchy.fits_of_put (h : (s.put ref d).Hierarchy) : s.Fits ref d := by
  constructor
  · intro hactive
    obtain ⟨parent, hname, hparent⟩ := h (.uuid awbId) ref
      ((Repo.lookup_put hfound hid _).trans hfound)
      (by rw [Repo.objects_put, Function.update_self]; exact hactive)
    simp only [Repo.names_put_iff hfound hid, Repo.objects_put, Function.update_self]
      at hname hparent
    have hne : parent ≠ ref := by
      rintro rfl
      rw [Function.update_self] at hparent
      exact hparent.not_hawb hactive
    rw [Function.update_of_ne hne] at hparent
    exact ⟨parent, hname, hne, hparent⟩
  · rintro key child hchild hne hactive ⟨name, hname, hnamed⟩
    obtain ⟨parent, hparentName, hparent⟩ := h key child
      ((Repo.lookup_put hfound hid _).trans hchild)
      (by rw [Repo.objects_put, Function.update_of_ne hne]; exact hactive)
    simp only [Repo.names_put_iff hfound hid, Repo.objects_put, Function.update_of_ne hne]
      at hparentName hparent
    obtain ⟨name', hname', hnamed'⟩ := hparentName
    obtain rfl : name = name' := Option.some.inj (hname.symm.trans hname')
    obtain rfl : ref = parent := Option.some.inj (hnamed.symm.trans hnamed')
    rwa [Function.update_self] at hparent

/-- Whoever named the AWB as its parent still does. -/
theorem Repo.Hierarchy.put_of_fits (hs : s.Hierarchy) (h : s.Fits ref d) :
    (s.put ref d).Hierarchy := by
  intro key r hlookup hactive
  rw [Repo.lookup_put hfound hid] at hlookup
  simp only [Repo.names_put_iff hfound hid]
  rw [Repo.objects_put] at hactive ⊢
  by_cases hr : r = ref
  · subst hr
    rw [Function.update_self] at hactive ⊢
    obtain ⟨parent, hname, hne, hparent⟩ := h.parent hactive
    exact ⟨parent, hname, by rwa [Function.update_of_ne hne]⟩
  · rw [Function.update_of_ne hr] at hactive ⊢
    obtain ⟨parent, hname, hparent⟩ := hs key r hlookup hactive
    refine ⟨parent, hname, ?_⟩
    by_cases hp : parent = ref
    · subst hp
      rw [Function.update_self]
      exact h.children key r hlookup hr hactive hname
    · rwa [Function.update_of_ne hp]

theorem Repo.hierarchy_put_iff (hs : s.Hierarchy) : (s.put ref d).Hierarchy ↔ s.Fits ref d := by
  constructor
  · exact fun h => h.fits_of_put hfound hid
  · exact fun h => hs.put_of_fits hfound hid h

end Put

theorem Repo.Hierarchy.congr {t : Repo} (hs : s.Hierarchy)
    (hlookup : ∀ key, t.awbs.lookup key = s.awbs.lookup key) (hobjects : t.objects = s.objects) :
    t.Hierarchy := by
  intro key r hfound hactive
  rw [hobjects] at hactive ⊢
  obtain ⟨parent, ⟨name, hname, hnamed⟩, hparent⟩ :=
    hs key r ((hlookup key).symm.trans hfound) hactive
  exact ⟨parent, ⟨name, hname, (hlookup name).trans hnamed⟩, hparent⟩

theorem Repo.Filed.congr {t : Repo} (hs : s.Filed)
    (hlookup : ∀ key, t.awbs.lookup key = s.awbs.lookup key) (hobjects : t.objects = s.objects)
    (hallocated : t.allocated = s.allocated) : t.Filed where
  id key r hfound := by
    rw [hobjects]
    exact hs.id key r ((hlookup key).symm.trans hfound)
  lt key r hfound := by
    rw [hallocated]
    exact hs.lt key r ((hlookup key).symm.trans hfound)

end Put

section Create
variable {s : Repo}

theorem Repo.lookup_freshId (s : Repo) : s.awbs.lookup (.uuid s.freshId) = none := by
  rw [AList.lookup_eq_none]
  intro hmem
  have hle : ∀ keys : List Scalar, ∀ u, .uuid u ∈ keys →
      u ≤ (keys.map Scalar.uuidOrZero).foldr max 0 := by
    intro keys u hu
    induction keys with
    | nil => cases hu
    | cons k keys ih =>
      rw [List.map_cons, List.foldr_cons]
      rcases List.mem_cons.mp hu with rfl | hu
      · exact le_max_left _ _
      · exact (ih hu).trans (le_max_right _ _)
  have hlt := hle s.awbs.keys s.freshId hmem
  unfold Repo.freshId at hlt
  omega

theorem Repo.lookup_created (s : Repo) (caller : Caller) (p : AwbCreateRequest) :
    (s.created caller p).awbs.lookup (.uuid s.freshId) = some s.allocated := by
  exact AList.lookup_insert _

theorem Repo.lookup_created_of_ne (caller : Caller) (p : AwbCreateRequest) {key : Scalar}
    (h : key ≠ .uuid s.freshId) :
    (s.created caller p).awbs.lookup key = s.awbs.lookup key := by
  have hnumbered : (s.numbered p).awbs = s.awbs := by
    unfold Repo.numbered
    split <;> rfl
  unfold Repo.created
  dsimp only
  rw [hnumbered, AList.lookup_insert_ne h]

theorem Repo.objects_created (s : Repo) (caller : Caller) (p : AwbCreateRequest) :
    (s.created caller p).objects =
      Function.update s.objects s.allocated (newAwb caller p s.freshId (s.serialFor p)) := by
  have hnumbered : (s.numbered p).objects = s.objects := by
    unfold Repo.numbered
    split <;> rfl
  unfold Repo.created
  dsimp only
  rw [hnumbered]

/-- What is filed after a creation: the new AWB, or one from before. -/
theorem Repo.lookup_created_cases {caller : Caller} {p : AwbCreateRequest} {key : Scalar}
    {ref : ℕ} (h : (s.created caller p).awbs.lookup key = some ref) :
    (key = .uuid s.freshId ∧ ref = s.allocated) ∨ s.awbs.lookup key = some ref := by
  by_cases hkey : key = .uuid s.freshId
  · subst hkey
    rw [Repo.lookup_created] at h
    exact Or.inl ⟨rfl, (Option.some.inj h).symm⟩
  · rw [Repo.lookup_created_of_ne caller p hkey] at h
    exact Or.inr h

theorem Repo.lookup_created_of_some {key : Scalar} {ref : ℕ} (caller : Caller)
    (p : AwbCreateRequest) (h : s.awbs.lookup key = some ref) :
    (s.created caller p).awbs.lookup key = some ref := by
  rw [Repo.lookup_created_of_ne caller p, h]
  rintro rfl
  rw [Repo.lookup_freshId] at h
  cases h

theorem Repo.Filed.objects_created (hs : s.Filed) (caller : Caller) (p : AwbCreateRequest)
    {key : Scalar} {ref : ℕ} (h : s.awbs.lookup key = some ref) :
    (s.created caller p).objects ref = s.objects ref := by
  rw [Repo.objects_created, Function.update_of_ne (hs.lt key ref h).ne]

theorem Repo.objects_created_new (s : Repo) (caller : Caller) (p : AwbCreateRequest) :
    (s.created caller p).objects s.allocated = newAwb caller p s.freshId (s.serialFor p) := by
  rw [Repo.objects_created, Function.update_self]

theorem Repo.Filed.created (hs : s.Filed) (caller : Caller) (p : AwbCreateRequest) :
    (s.created caller p).Filed := by
  constructor
  · intro key ref hlookup
    rcases Repo.lookup_created_cases hlookup with ⟨rfl, rfl⟩ | hold
    · rw [Repo.objects_created_new]
      refine ⟨?_, s.freshId, rfl⟩
      unfold Fields.scalar
      rw [(newAwb_link caller p s.freshId (s.serialFor p)).1]
      rfl
    · rw [hs.objects_created caller p hold]
      exact hs.id key ref hold
  · intro key ref hlookup
    rcases Repo.lookup_created_cases hlookup with ⟨-, rfl⟩ | hold
    · exact Nat.lt_succ_self _
    · exact (hs.lt key ref hold).trans (Nat.lt_succ_self _)

def Repo.ParentStands (s : Repo) (p : AwbCreateRequest) : Prop :=
  p.awbType = .hawb → ∀ parentId parent, p.parentMawbId = some parentId →
    s.awbs.lookup (.uuid parentId) = some parent →
      (s.objects parent).scalar "status" ≠ some (.str "CANCELLED")

theorem newAwb_scalar (caller : Caller) (p : AwbCreateRequest) (id : Uuid) (serial : String) :
    (newAwb caller p id serial).scalar "awb_type" = some (.str p.awbType.str) ∧
      (newAwb caller p id serial).scalar "status" = some (.str "DRAFT") ∧
      (newAwb caller p id serial).scalar "parent_mawb_id" =
        (PyValue.ofOption .uuid p.parentMawbId).scalar? := by
  obtain ⟨-, -, htype, hstatus, hparent, -⟩ := newAwb_link caller p id serial
  unfold Fields.scalar
  rw [htype, hstatus, hparent]
  exact ⟨rfl, rfl, rfl⟩

theorem newAwb_activeHawb_iff (caller : Caller) (p : AwbCreateRequest) (id : Uuid)
    (serial : String) : (newAwb caller p id serial).ActiveHawb ↔ p.awbType = .hawb := by
  unfold Fields.ActiveHawb
  rw [(newAwb_scalar caller p id serial).1, (newAwb_scalar caller p id serial).2.1]
  cases p.awbType <;> decide

theorem Repo.hierarchy_created_iff (hs : s.Hierarchy) (hfiled : s.Filed) {caller : Caller}
    {p : AwbCreateRequest} (hadmits : s.Admits caller p) :
    (s.created caller p).Hierarchy ↔ s.ParentStands p := by
  obtain ⟨-, htenant, -, -, -, -⟩ := newAwb_link caller p s.freshId (s.serialFor p)
  have hparentField := (newAwb_scalar caller p s.freshId (s.serialFor p)).2.2
  constructor
  · intro h hhawb parentId parent hparent hfound
    obtain ⟨parent', ⟨name, hname, hnamed⟩, hvalid⟩ := h _ _ (s.lookup_created caller p)
      (by rw [Repo.objects_created_new, newAwb_activeHawb_iff]; exact hhawb)
    rw [Repo.objects_created_new, hparentField, hparent] at hname
    obtain rfl : .uuid parentId = name := Option.some.inj hname
    rw [Repo.lookup_created_of_some caller p hfound] at hnamed
    obtain rfl : parent = parent' := Option.some.inj hnamed
    rw [hfiled.objects_created caller p hfound] at hvalid
    exact hvalid.status
  · intro hstands key ref hlookup hactive
    rcases Repo.lookup_created_cases hlookup with ⟨rfl, rfl⟩ | hold
    · rw [Repo.objects_created_new] at hactive ⊢
      have hhawb := (newAwb_activeHawb_iff caller p _ _).mp hactive
      obtain ⟨parentId, parent, hparent, hfound, hsame, htype⟩ := hadmits hhawb
      refine ⟨parent, ⟨.uuid parentId, ?_, Repo.lookup_created_of_some caller p hfound⟩, ?_⟩
      · rw [hparentField, hparent]
        rfl
      · rw [hfiled.objects_created caller p hfound]
        refine ⟨htype, ?_, hstands hhawb parentId parent hparent hfound⟩
        rw [htenant]
        exact Fields.scalar_eq_some.mp hsame
    · rw [hfiled.objects_created caller p hold] at hactive ⊢
      obtain ⟨parent, ⟨name, hname, hnamed⟩, hvalid⟩ := hs key ref hold hactive
      refine ⟨parent, ⟨name, hname, Repo.lookup_created_of_some caller p hnamed⟩, ?_⟩
      rwa [hfiled.objects_created caller p hnamed]

end Create

theorem Fields.cancelled_not_active (d : Fields) :
    ¬ (d.set "status" (.str "CANCELLED")).ActiveHawb := by
  rintro ⟨-, hstatus⟩
  refine hstatus ?_
  rw [Fields.scalar_eq_some]
  exact Fields.set_self ..

theorem Repo.hasChildren_of_names {s : Repo} {key : Scalar} {child : ℕ} {awbId : Uuid}
    (hchild : s.awbs.lookup key = some child) (hactive : (s.objects child).ActiveHawb)
    (hname : (s.objects child).scalar "parent_mawb_id" = some (.uuid awbId)) :
    s.HasChildren awbId :=
  ⟨⟨key, child⟩, AList.mem_lookup_iff.mp hchild, hname, hactive.2⟩

theorem Repo.Hierarchy.fits_cancelled {s : Repo} (hs : s.Hierarchy) (hfiled : s.Filed)
    {awbId : Uuid} {ref : ℕ} (hfound : s.awbs.lookup (.uuid awbId) = some ref)
    (hchildren : ¬ ((s.objects ref).scalar "awb_type" = some (.str "MAWB") ∧ s.HasChildren awbId)) :
    s.Fits ref ((s.objects ref).set "status" (.str "CANCELLED")) where
  parent hactive := absurd hactive (Fields.cancelled_not_active _)
  children := by
    rintro key child hchild - hactive ⟨name, hname, hnamed⟩
    obtain ⟨parent, ⟨name', hname', hnamed'⟩, hparent⟩ := hs key child hchild hactive
    obtain rfl : name = name' := Option.some.inj (hname.symm.trans hname')
    obtain rfl : ref = parent := Option.some.inj (hnamed.symm.trans hnamed')
    have hkey : name = .uuid awbId := Option.some.inj
      ((hfiled.id name ref hnamed).1.symm.trans (hfiled.id _ ref hfound).1)
    subst hkey
    exact absurd ⟨hparent.type, Repo.hasChildren_of_names hchild hactive hname⟩ hchildren

/-- An amendment leaves the id as it is. -/
def Request.KeepsId : Request → Prop
  | .amendAwb awbId p => ∀ v, ("id", v) ∈ p.fieldsChanged → v = .uuid awbId
  | _ => True

/-- The master of a new HAWB is not cancelled, and an amended AWB fits in. -/
def Repo.Linked (s : Repo) : Caller × Request → Prop
  | (caller, .createAwb p) => s.Admits caller p → s.ParentStands p
  | (caller, .amendAwb awbId p) =>
    ∀ ref, s.Amendable caller awbId ref → s.Fits ref ((s.objects ref).update p.fieldsChanged)
  | (_, .cancelAwb _ _) => True

section Runs
variable [ResponseModel] {s : Repo}

omit [ResponseModel] in
theorem Repo.Amendable.id_update {caller : Caller} {awbId : Uuid} {ref : ℕ}
    {p : AwbAmendmentRequest} (h : s.Amendable caller awbId ref) (hfiled : s.Filed)
    (hid : ∀ v, ("id", v) ∈ p.fieldsChanged → v = .uuid awbId) :
    ((s.objects ref).update p.fieldsChanged).scalar "id" = some (.uuid awbId) := by
  have hfound := (Repo.find?_eq_some.mp h.found).1
  have hown := Fields.scalar_eq_some.mp (hfiled.id _ ref hfound).1
  exact Fields.scalar_eq_some.mpr (Fields.update_eq hown hid)

/-- What a cancellation leaves is the marked AWB, filed as it was. -/
theorem Repo.Filed.left_cancelAwb (hfiled : s.Filed) (caller : Caller) (awbId : Uuid)
    (p : AwbCancellationRequest) :
    (left (cancelAwb awbId caller p) s).Alike s ∨
      ∃ ref, s.awbs.lookup (.uuid awbId) = some ref ∧
        ((s.objects ref).set "status" (.str "CANCELLED")).scalar "id" = some (.uuid awbId) ∧
        ¬ ((s.objects ref).scalar "awb_type" = some (.str "MAWB") ∧ s.HasChildren awbId) ∧
        ∃ t : Repo, (left (cancelAwb awbId caller p) s).Alike t ∧
          (∀ key, t.awbs.lookup key =
            (s.put ref ((s.objects ref).set "status" (.str "CANCELLED"))).awbs.lookup key) ∧
          t.objects = (s.put ref ((s.objects ref).set "status" (.str "CANCELLED"))).objects ∧
          t.allocated =
            (s.put ref ((s.objects ref).set "status" (.str "CANCELLED"))).allocated := by
  rcases Awb.left_cancelAwb s caller awbId p with halike | ⟨ref, hfind, hchildren, halike⟩
  · exact Or.inl halike
  · have hfound := (Repo.find?_eq_some.mp hfind).1
    have hid : ((s.objects ref).set "status" (.str "CANCELLED")).scalar "id" =
        some (.uuid awbId) := by
      rw [← (hfiled.id _ ref hfound).1]
      rfl
    refine Or.inr ⟨ref, hfound, hid, hchildren, ?_⟩
    rcases halike with halike | halike
    · refine ⟨_, halike, fun key => ?_, ?_, ?_⟩
      · exact (Repo.lookup_put hfound hid key).symm
      · exact (Repo.objects_put s ref _).symm
      · exact (Repo.allocated_put s ref _).symm
    · exact ⟨_, halike, fun _ => rfl, rfl, rfl⟩

theorem step_filed (hfiled : s.Filed) {r : Caller × Request} (hid : r.2.KeepsId) :
    (step s r).Filed := by
  obtain ⟨caller, request⟩ := r
  cases request with
  | createAwb p =>
    change (left (createAwb caller p) s).Filed
    rcases left_createAwb s caller p with ⟨-, heq⟩ | ⟨-, heq⟩
    · rwa [heq]
    · rw [heq]
      exact hfiled.created caller p
  | amendAwb awbId p =>
    change (left (amendAwb awbId caller p) s).Filed
    rcases left_amendAwb s caller awbId p with ⟨-, halike⟩ | ⟨ref, hamend, halike⟩
    · exact halike.symm.filed hfiled
    · exact halike.symm.filed
        (hfiled.put (Repo.find?_eq_some.mp hamend.found).1 (hamend.id_update hfiled hid))
  | cancelAwb awbId p =>
    change (left (cancelAwb awbId caller p) s).Filed
    rcases hfiled.left_cancelAwb caller awbId p with
      halike | ⟨ref, hfound, hid, -, t, halike, hlookup, hobjects, hallocated⟩
    · exact halike.symm.filed hfiled
    · exact halike.symm.filed ((hfiled.put hfound hid).congr hlookup hobjects hallocated)

theorem step_hierarchy_iff (hs : s.Hierarchy) (hfiled : s.Filed) {r : Caller × Request}
    (hid : r.2.KeepsId) : (step s r).Hierarchy ↔ s.Linked r := by
  obtain ⟨caller, request⟩ := r
  cases request with
  | createAwb p =>
    change (left (createAwb caller p) s).Hierarchy ↔ (s.Admits caller p → s.ParentStands p)
    rcases left_createAwb s caller p with ⟨hfail, heq⟩ | ⟨hadmits, heq⟩
    · rw [heq]
      exact iff_of_true hs fun hadmits => absurd hadmits hfail
    · rw [heq, Repo.hierarchy_created_iff hs hfiled hadmits]
      exact ⟨fun h _ => h, fun h => h hadmits⟩
  | amendAwb awbId p =>
    change (left (amendAwb awbId caller p) s).Hierarchy ↔ ∀ ref, s.Amendable caller awbId ref →
      s.Fits ref ((s.objects ref).update p.fieldsChanged)
    rcases left_amendAwb s caller awbId p with ⟨hnone, halike⟩ | ⟨ref, hamend, halike⟩
    · exact iff_of_true (halike.symm.hierarchy hs) fun ref hamend => absurd hamend (hnone ref)
    · rw [halike.hierarchy_iff, Repo.hierarchy_put_iff
        (Repo.find?_eq_some.mp hamend.found).1 (hamend.id_update hfiled hid) hs]
      constructor
      · intro hfits ref' hamend'
        obtain rfl : ref = ref' := Option.some.inj (hamend.found.symm.trans hamend'.found)
        exact hfits
      · exact fun h => h ref hamend
  | cancelAwb awbId p =>
    change (left (cancelAwb awbId caller p) s).Hierarchy ↔ True
    rw [iff_true]
    rcases hfiled.left_cancelAwb caller awbId p with
      halike | ⟨ref, hfound, hid, hchildren, t, halike, hlookup, hobjects, -⟩
    · exact halike.symm.hierarchy hs
    · have hput := hs.put_of_fits hfound hid (hs.fits_cancelled hfiled hfound hchildren)
      exact halike.symm.hierarchy (hput.congr hlookup hobjects)

omit [ResponseModel] in
theorem empty_hierarchy : Repo.empty.Hierarchy := by
  rintro key ref ⟨⟩

omit [ResponseModel] in
theorem empty_filed : Repo.empty.Filed := by
  constructor <;> rintro key ref ⟨⟩

/-- In a run that amends no ids, every house waybill has its master throughout exactly when none is
created under a cancelled master and every amended AWB fits in. -/
theorem hierarchy_iff_linked {rs : List (Caller × Request)} (hid : ∀ r ∈ rs, r.2.KeepsId) :
    (∀ made, made <+: rs → (made.foldl step Repo.empty).Hierarchy) ↔
      Meets step Repo.Linked Repo.empty rs := by
  have hfiled : ∀ t, ∀ r ∈ rs, t.Filed → (step t r).Filed := fun t r hr ht =>
    step_filed ht (hid r hr)
  have hstep : ∀ t, ∀ r ∈ rs, t.Filed → t.Hierarchy → ((step t r).Hierarchy ↔ t.Linked r) :=
    fun t r hr ht hs => step_hierarchy_iff hs ht (hid r hr)
  exact forall_prefix_iff_meets_of_invariant Repo.Filed hfiled hstep empty_filed empty_hierarchy

end Runs

namespace AnyResponse

/-- Every dict is taken for a response. -/
scoped instance anyResponse : ResponseModel := ⟨fun _ => true⟩

end AnyResponse

section Consolidations
open AnyResponse

def agent : Caller := ⟨1, 7, "2024-01-01T00:00:00+00:00"⟩

def request (awbType : AwbType) (parentMawbId : Option Uuid) (serialNumber : Option String) :
    AwbCreateRequest where
  shipmentId := 9
  awbType := awbType
  parentMawbId := parentMawbId
  airlineName := "Carrier"
  airlinePrefix := "176"
  serialNumber := serialNumber
  fullAwbNumber := none
  shipper := "S"
  consignee := "C"
  originAirport := "DXB"
  destinationAirport := "LHR"
  routing := "DXB-LHR"
  pieces := 1
  grossWeight := 10
  chargeableWeight := 10
  commodity := "parts"
  specialHandlingCodes := []
  airlinePrefix_length := by decide
  originAirport_length := by decide
  destinationAirport_length := by decide

def consolidated : List (Caller × Request) :=
  [(agent, .createAwb (request .mawb none none)), (agent, .createAwb (request .hawb (some 1) none))]

theorem hierarchy_consolidated :
    (consolidated.foldl step Repo.empty).Hierarchy ∧
      (consolidated.foldl step Repo.empty).awbs.lookup (.uuid 2) = some 1 := by
  have hid : ∀ r ∈ consolidated, r.2.KeepsId := by
    intro r hr
    rcases List.mem_pair.mp hr with rfl | rfl <;> exact trivial
  have hlinked : Meets step Repo.Linked Repo.empty consolidated := by
    refine ⟨?_, ?_, trivial⟩
    · rintro - ⟨⟩
    · rintro - - parentId parent hparent hfound
      obtain rfl : 1 = parentId := Option.some.inj hparent
      have hfirst : (step Repo.empty (agent, .createAwb (request .mawb none none))).awbs.lookup
          (.uuid 1) = some 0 := by decide +kernel
      obtain rfl : 0 = parent := Option.some.inj (hfirst.symm.trans hfound)
      decide +kernel
  exact ⟨(hierarchy_iff_linked hid).mpr hlinked _ (List.prefix_refl _), by decide +kernel⟩

/-- A house waybill is created under a cancelled master. -/
def orphaned : List (Caller × Request) :=
  [(agent, .createAwb (request .mawb none none)), (agent, .cancelAwb 1 ⟨"void", none⟩),
    (agent, .createAwb (request .hawb (some 1) none))]

theorem hawb_under_cancelled_mawb : ¬ (orphaned.foldl step Repo.empty).Hierarchy := by
  intro h
  have hfound : (orphaned.foldl step Repo.empty).awbs.lookup (.uuid 2) = some 1 := by decide +kernel
  have hparent : (orphaned.foldl step Repo.empty).awbs.lookup (.uuid 1) = some 0 := by
    decide +kernel
  have hnames : ((orphaned.foldl step Repo.empty).objects 1).scalar "parent_mawb_id" =
      some (.uuid 1) := by decide +kernel
  obtain ⟨parent, ⟨name, hname, hnamed⟩, hvalid⟩ :=
    h _ _ hfound ⟨by decide +kernel, by decide +kernel⟩
  obtain rfl : .uuid 1 = name := Option.some.inj (hnames.symm.trans hname)
  obtain rfl : 0 = parent := Option.some.inj (hparent.symm.trans hnamed)
  exact hvalid.status (by decide +kernel)

end Consolidations

end Friet.Awb
