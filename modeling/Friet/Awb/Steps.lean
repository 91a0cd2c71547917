import Friet.Awb.Service

/-!
# What a call leaves in the repository

A call leaves the repository as it was but for histories and version numbers,
or it files one AWB: a new one, or one whose fields it has changed.
-/

set_option autoImplicit false

namespace Friet.Awb

open Session

section Left
variable {α β : Type} {s : Repo}

theorem left_get_bind (f : Repo → Service β) : left (get >>= f) s = left (f s) s := rfl

theorem left_modify_bind (g : Repo → Repo) (f : PUnit → Service β) :
    left (modify g >>= f) s = left (f ⟨⟩) (g s) := rfl

theorem left_modifyGet_bind (g : Repo → α × Repo) (f : α → Service β) :
    left (modifyGet g >>= f) s = left (f (g s).1) (g s).2 := rfl

theorem left_pure_bind (a : α) (f : α → Service β) : left (pure a >>= f) s = left (f a) s := rfl

theorem left_failIf_bind (c : Prop) [Decidable c] (e : AwbError) (f : Unit → Service β) :
    left (failIf c e >>= f) s = if c then s else left (f ()) s := by
  unfold failIf
  by_cases hc : c
  · simp only [if_pos hc]
    rfl
  · simp only [if_neg hc]
    rfl

theorem left_orFail_bind (o : Option α) (e : AwbError) (f : α → Service β) :
    left (orFail o e >>= f) s =
      match o with
      | some a => left (f a) s
      | none => s := by
  cases o <;> rfl

end Left

theorem Fields.set_self (d : Fields) (field : String) (value : PyValue) :
    d.set field value field = some value := Function.update_self ..

theorem Fields.set_of_ne {d : Fields} {field g : String} (h : g ≠ field) (value : PyValue) :
    d.set field value g = d g := Function.update_of_ne h _ _

theorem Fields.update_congr {d e : Fields} {f : String} (h : d f = e f)
    (changes : List (String × PyValue)) : d.update changes f = e.update changes f := by
  unfold Fields.update
  induction changes generalizing d e with
  | nil => exact h
  | cons c changes ih =>
    rw [List.foldl_cons, List.foldl_cons]
    refine ih ?_
    by_cases hc : f = c.1
    · rw [hc, Fields.set_self, Fields.set_self]
    · rw [Fields.set_of_ne hc, Fields.set_of_ne hc, h]

theorem Fields.scalar_eq_some {d : Fields} {f : String} {k : Scalar} :
    d.scalar f = some k ↔ d f = some (.scalar k) := by
  unfold Fields.scalar
  rw [Option.bind_eq_some_iff]
  constructor
  · rintro ⟨v, hv, hk⟩
    cases v with
    | scalar k' => rw [hv, Option.some.inj hk]
    | _ => cases hk
  · intro h
    exact ⟨_, h, rfl⟩

theorem Fields.update_eq {d : Fields} {f : String} {v : PyValue} (h : d f = some v)
    {changes : List (String × PyValue)} (hchanges : ∀ w, (f, w) ∈ changes → w = v) :
    d.update changes f = some v := by
  unfold Fields.update
  induction changes generalizing d with
  | nil => exact h
  | cons c changes ih =>
    rw [List.foldl_cons]
    refine ih ?_ fun w hw => hchanges w (List.mem_cons_of_mem _ hw)
    by_cases hc : f = c.1
    · subst hc
      rw [Fields.set_self, hchanges c.2 (List.mem_cons_self ..)]
    · rw [Fields.set_of_ne hc, h]

def linkFields : List String :=
  ["id", "tenant_id", "awb_type", "status", "parent_mawb_id", "full_awb_number"]

def Fields.Alike (d e : Fields) : Prop := ∀ f ∈ linkFields, d f = e f

structure Repo.Alike (s t : Repo) : Prop where
  awbs : s.awbs = t.awbs
  allocated : s.allocated = t.allocated
  sequences : s.sequences = t.sequences
  objects : ∀ ref, (s.objects ref).Alike (t.objects ref)

theorem Fields.Alike.refl (d : Fields) : d.Alike d := fun _ _ => rfl

theorem Fields.Alike.scalar {d e : Fields} (h : d.Alike e) {f : String} (hf : f ∈ linkFields) :
    d.scalar f = e.scalar f := by
  unfold Fields.scalar
  rw [h f hf]

theorem Fields.Alike.set_left {d e : Fields} (h : d.Alike e) {field : String}
    (hfield : field ∉ linkFields) (value : PyValue) : (d.set field value).Alike e := by
  intro f hf
  have hne : f ≠ field := by
    rintro rfl
    exact hfield hf
  rw [Fields.set_of_ne hne, h f hf]

theorem Fields.Alike.update {d e : Fields} (h : d.Alike e) (changes : List (String × PyValue)) :
    (d.update changes).Alike (e.update changes) :=
  fun f hf => Fields.update_congr (h f hf) changes

theorem Repo.Alike.trans {s t u : Repo} (h : s.Alike t) (h' : t.Alike u) : s.Alike u :=
  ⟨h.awbs.trans h'.awbs, h.allocated.trans h'.allocated, h.sequences.trans h'.sequences,
    fun ref f hf => (h.objects ref f hf).trans (h'.objects ref f hf)⟩

theorem Repo.Alike.refl (s : Repo) : s.Alike s := ⟨rfl, rfl, rfl, fun _ => .refl _⟩

theorem Repo.objects_setObject (s : Repo) (ref : ℕ) (d : Fields) :
    (s.setObject ref d).objects ref = d := Function.update_self ..

theorem Repo.objects_setObject_of_ne {s : Repo} {ref r : ℕ} (h : r ≠ ref) (d : Fields) :
    (s.setObject ref d).objects r = s.objects r := Function.update_of_ne h ..

theorem Repo.Alike.setObject {s t : Repo} (h : s.Alike t) {ref : ℕ} {d e : Fields}
    (hd : d.Alike e) : (s.setObject ref d).Alike (t.setObject ref e) := by
  refine ⟨h.awbs, h.allocated, h.sequences, fun r => ?_⟩
  by_cases hr : r = ref
  · subst hr
    rw [Repo.objects_setObject, Repo.objects_setObject]
    exact hd
  · rw [Repo.objects_setObject_of_ne hr, Repo.objects_setObject_of_ne hr]
    exact h.objects r

theorem Repo.setObject_self (s : Repo) (ref : ℕ) : s.setObject ref (s.objects ref) = s := by
  unfold Repo.setObject
  rw [Function.update_eq_self]

/-- Filed under its id, if that can be a key. -/
def Repo.file (s : Repo) (ref : ℕ) : Repo :=
  match (s.objects ref).scalar "id" with
  | some key => { s with awbs := s.awbs.insert key ref }
  | none => s

/-- Changed, and filed again. -/
def Repo.put (s : Repo) (ref : ℕ) (d : Fields) : Repo := (s.setObject ref d).file ref

theorem Repo.Alike.file {s t : Repo} (h : s.Alike t) (ref : ℕ) : (s.file ref).Alike (t.file ref) := by
  unfold Repo.file
  rw [(h.objects ref).scalar (f := "id") (by decide)]
  cases (t.objects ref).scalar "id" with
  | none => exact h
  | some key =>
    refine ⟨?_, h.allocated, h.sequences, h.objects⟩
    dsimp only
    rw [h.awbs]

theorem left_save_respond [ResponseModel] (s : Repo) (ref : ℕ) :
    left (save ref >>= fun _ => respond ref) s = s.file ref := by
  have hrespond : ∀ t : Repo, left (respond ref) t = t := by
    intro t
    unfold respond
    rw [left_get_bind, left_failIf_bind]
    split <;> rfl
  unfold save Repo.file
  simp only [bind_assoc]
  rw [left_get_bind, left_orFail_bind]
  cases (s.objects ref).scalar "id" with
  | none => rfl
  | some key => exact hrespond _

theorem left_appendHistory_bind {β : Type} {s : Repo} (ref : ℕ) (entry : PyValue)
    (f : Unit → Service β) :
    ((∀ items, s.objects ref "history" ≠ some (.list items)) ∧
        left (appendHistory ref entry >>= f) s = s) ∨
      ∃ items, s.objects ref "history" = some (.list items) ∧
        left (appendHistory ref entry >>= f) s =
          left (f ()) (s.setObject ref ((s.objects ref).set "history" (.list (items ++ [entry])))) := by
  unfold appendHistory
  simp only [bind_assoc]
  rw [left_get_bind]
  split
  · rename_i items hitems
    exact Or.inr ⟨items, hitems, rfl⟩
  · rename_i hnone
    exact Or.inl ⟨hnone, rfl⟩

theorem left_bumpVersion_bind {β : Type} {s : Repo} (ref : ℕ) (f : Unit → Service β) :
    ((∀ q, s.objects ref "version" ≠ some (.number q)) ∧
        left (bumpVersion ref >>= f) s = s) ∨
      ∃ q, s.objects ref "version" = some (.number q) ∧
        left (bumpVersion ref >>= f) s =
          left (f ()) (s.setObject ref ((s.objects ref).set "version" (.number (q + 1)))) := by
  unfold bumpVersion
  simp only [bind_assoc]
  rw [left_get_bind]
  split
  · rename_i q hq
    exact Or.inr ⟨q, hq, rfl⟩
  · rename_i hnone
    exact Or.inl ⟨hnone, rfl⟩

theorem Repo.find?_eq_some {s : Repo} {awbId tenantId : Uuid} {ref : ℕ} :
    s.find? awbId tenantId = some ref ↔ s.awbs.lookup (.uuid awbId) = some ref ∧
      (s.objects ref).scalar "tenant_id" = some (.uuid tenantId) := by
  unfold Repo.find?
  rw [Option.filter_eq_some_iff, decide_eq_true_iff]

theorem Repo.alike_setObject {s : Repo} {ref : ℕ} {field : String} (hfield : field ∉ linkFields)
    (value : PyValue) : (s.setObject ref ((s.objects ref).set field value)).Alike s := by
  have h := @Repo.Alike.setObject s s (.refl s) ref _ _
    ((Fields.Alike.refl (s.objects ref)).set_left hfield value)
  rwa [Repo.setObject_self] at h

structure Repo.Amendable (s : Repo) (caller : Caller) (awbId : Uuid) (ref : ℕ) : Prop where
  found : s.find? awbId caller.tenantId = some ref
  status : (s.objects ref).scalar "status" ≠ some (.str "CANCELLED")
  history : ∃ items, s.objects ref "history" = some (.list items)
  version : ∃ q, s.objects ref "version" = some (.number q)

section Calls
variable [ResponseModel]

/-- An amendment leaves the links alone, or files the AWB with its new fields. -/
theorem left_amendAwb (s : Repo) (caller : Caller) (awbId : Uuid) (p : AwbAmendmentRequest) :
    ((∀ ref, ¬ s.Amendable caller awbId ref) ∧ (left (amendAwb awbId caller p) s).Alike s) ∨
      ∃ ref, s.Amendable caller awbId ref ∧
        (left (amendAwb awbId caller p) s).Alike
          (s.put ref ((s.objects ref).update p.fieldsChanged)) := by
  unfold amendAwb
  rw [left_get_bind, left_orFail_bind]
  cases hfind : s.find? awbId caller.tenantId with
  | none =>
    refine Or.inl ⟨fun ref h => ?_, .refl s⟩
    cases hfind.symm.trans h.found
  | some ref =>
    have honly : ∀ ref', s.Amendable caller awbId ref' → ref = ref' := fun ref' h =>
      Option.some.inj (hfind.symm.trans h.found)
    dsimp only
    rw [left_failIf_bind]
    split
    · rename_i hstatus
      refine Or.inl ⟨fun ref' h => h.status ?_, .refl s⟩
      rw [← honly ref' h]
      exact hstatus
    · rename_i hstatus
      rcases left_appendHistory_bind ref _ _ with ⟨hnone, heq⟩ | ⟨items, hitems, heq⟩
      · rw [heq]
        refine Or.inl ⟨fun ref' h => ?_, .refl s⟩
        obtain ⟨items, hitems⟩ := h.history
        rw [← honly ref' h] at hitems
        exact hnone items hitems
      · rw [heq]
        generalize hset : PyValue.list (items ++ _) = entries
        have hhistory : (s.setObject ref ((s.objects ref).set "history" entries)).Alike s :=
          Repo.alike_setObject (by decide) _
        have hversion : (s.setObject ref ((s.objects ref).set "history" entries)).objects ref
            "version" = s.objects ref "version" := by
          rw [Repo.objects_setObject, Fields.set_of_ne (by decide)]
        generalize s.setObject ref ((s.objects ref).set "history" entries) = s₁ at hhistory hversion ⊢
        rcases left_bumpVersion_bind (s := s₁) ref _ with ⟨hnone, heq⟩ | ⟨q, hq, heq⟩
        · rw [heq]
          refine Or.inl ⟨fun ref' h => ?_, hhistory⟩
          obtain ⟨q, hq⟩ := h.version
          rw [← honly ref' h, ← hversion] at hq
          exact hnone q hq
        · rw [heq, left_modify_bind, left_save_respond]
          refine Or.inr ⟨ref, ⟨hfind, hstatus, ⟨items, hitems⟩, q, hversion ▸ hq⟩, ?_⟩
          have hboth : (s₁.setObject ref ((s₁.objects ref).set "version" (.number (q + 1)))).Alike s :=
            (Repo.alike_setObject (by decide) _).trans hhistory
          exact (hboth.setObject ((hboth.objects ref).update _)).file ref

/-- A cancellation leaves the links alone, or marks the AWB; it may raise before it files it. -/
theorem left_cancelAwb (s : Repo) (caller : Caller) (awbId : Uuid) (p : AwbCancellationRequest) :
    (left (cancelAwb awbId caller p) s).Alike s ∨
      ∃ ref, s.find? awbId caller.tenantId = some ref ∧
        ¬ ((s.objects ref).scalar "awb_type" = some (.str "MAWB") ∧ s.HasChildren awbId) ∧
        ((left (cancelAwb awbId caller p) s).Alike
            (s.setObject ref ((s.objects ref).set "status" (.str "CANCELLED"))) ∨
          (left (cancelAwb awbId caller p) s).Alike
            (s.put ref ((s.objects ref).set "status" (.str "CANCELLED")))) := by
  unfold cancelAwb
  rw [left_get_bind, left_orFail_bind]
  cases hfind : s.find? awbId caller.tenantId with
  | none => exact Or.inl (.refl s)
  | some ref =>
    dsimp only
    rw [left_failIf_bind]
    split
    · exact Or.inl (.refl s)
    · rename_i hchildren
      rw [left_modify_bind]
      refine Or.inr ⟨ref, rfl, hchildren, ?_⟩
      unfold Repo.put
      generalize s.setObject ref ((s.objects ref).set "status" (.str "CANCELLED")) = s₁
      rcases left_appendHistory_bind (s := s₁) ref _ _ with ⟨-, heq⟩ | ⟨items, -, heq⟩
      · rw [heq]
        exact Or.inl (.refl s₁)
      · rw [heq, left_save_respond]
        exact Or.inr ((Repo.alike_setObject (by decide) _).file ref)

/-- What `create_awb` checks before it writes anything. -/
def Repo.Admits (s : Repo) (caller : Caller) (p : AwbCreateRequest) : Prop :=
  p.awbType = .hawb → ∃ parentId parent, p.parentMawbId = some parentId ∧
    s.awbs.lookup (.uuid parentId) = some parent ∧
    (s.objects parent).scalar "tenant_id" = some (.uuid caller.tenantId) ∧
    (s.objects parent).scalar "awb_type" = some (.str "MAWB")

/-- The serial number that is supplied, or the next one of the prefix. -/
def Repo.serialFor (s : Repo) (p : AwbCreateRequest) : String :=
  (given p.serialNumber).getD (serialOf (s.sequence p.airlinePrefix))

/-- With a number drawn, unless one is supplied. -/
def Repo.numbered (s : Repo) (p : AwbCreateRequest) : Repo :=
  if (given p.serialNumber).isSome then s
  else { s with sequences :=
    Function.update s.sequences p.airlinePrefix (some (s.sequence p.airlinePrefix + 1)) }

def Repo.created (s : Repo) (caller : Caller) (p : AwbCreateRequest) : Repo :=
  let t := s.numbered p
  { awbs := t.awbs.insert (.uuid s.freshId) s.allocated
    objects := Function.update t.objects s.allocated (newAwb caller p s.freshId (s.serialFor p))
    allocated := s.allocated + 1
    sequences := t.sequences }

omit [ResponseModel] in
theorem left_checkParent_bind {β : Type} (s : Repo) (caller : Caller) (p : AwbCreateRequest)
    (f : Unit → Service β) :
    (¬ s.Admits caller p ∧ left (checkParent caller p >>= f) s = s) ∨
      (s.Admits caller p ∧ left (checkParent caller p >>= f) s = left (f ()) s) := by
  unfold checkParent Repo.Admits
  cases p.awbType with
  | mawb => exact Or.inr ⟨by rintro ⟨⟩, rfl⟩
  | hawb =>
    simp only [bind_assoc]
    rw [left_orFail_bind]
    cases hparent : p.parentMawbId with
    | none => exact Or.inl ⟨by simp, rfl⟩
    | some parentId =>
      dsimp only
      rw [left_get_bind, left_orFail_bind]
      cases hlookup : s.awbs.lookup (.uuid parentId) with
      | none => exact Or.inl ⟨by simp [hlookup], rfl⟩
      | some parent =>
        dsimp only
        rw [left_failIf_bind, left_failIf_bind]
        by_cases htenant : (s.objects parent).scalar "tenant_id" = some (.uuid caller.tenantId)
        · by_cases htype : (s.objects parent).scalar "awb_type" = some (.str "MAWB")
          · refine Or.inr ⟨fun _ => ⟨parentId, parent, rfl, hlookup, htenant, htype⟩, ?_⟩
            rw [if_neg (not_not.mpr htenant), if_neg (not_not.mpr htype)]
          · refine Or.inl ⟨?_, by rw [if_neg (not_not.mpr htenant), if_pos htype]⟩
            simp [hlookup, htype]
        · refine Or.inl ⟨?_, if_pos htenant⟩
          simp [hlookup, htenant]

omit [ResponseModel] in
/-- The fields that `create_awb` sets, and those it takes over. -/
theorem newAwb_link (caller : Caller) (p : AwbCreateRequest) (id : Uuid) (serial : String) :
    newAwb caller p id serial "id" = some (.uuid id) ∧
      newAwb caller p id serial "tenant_id" = some (.uuid caller.tenantId) ∧
      newAwb caller p id serial "awb_type" = some (.str p.awbType.str) ∧
      newAwb caller p id serial "status" = some (.str "DRAFT") ∧
      newAwb caller p id serial "parent_mawb_id" = some (.ofOption .uuid p.parentMawbId) ∧
      newAwb caller p id serial "full_awb_number" =
        some (.str s!"{p.airlinePrefix}-{serial}") := by
  refine ⟨rfl, rfl, rfl, rfl, rfl, rfl⟩

omit [ResponseModel] in
theorem file_allocated (s : Repo) (caller : Caller) (p : AwbCreateRequest) (serial : String) :
    Repo.file { s.setObject s.allocated (newAwb caller p s.freshId serial) with
        allocated := s.allocated + 1 } s.allocated =
      { awbs := s.awbs.insert (.uuid s.freshId) s.allocated
        objects := Function.update s.objects s.allocated (newAwb caller p s.freshId serial)
        allocated := s.allocated + 1
        sequences := s.sequences } := by
  have hid : (newAwb caller p s.freshId serial).scalar "id" = some (.uuid s.freshId) := by
    unfold Fields.scalar
    rw [(newAwb_link caller p s.freshId serial).1]
    rfl
  unfold Repo.file Repo.setObject
  dsimp only
  rw [Function.update_self, hid]

/-- A new AWB is filed unless a check fails. -/
theorem left_createAwb (s : Repo) (caller : Caller) (p : AwbCreateRequest) :
    (¬ s.Admits caller p ∧ left (createAwb caller p) s = s) ∨
      (s.Admits caller p ∧ left (createAwb caller p) s = s.created caller p) := by
  unfold createAwb
  rcases left_checkParent_bind s caller p _ with hfail | ⟨hadmits, heq⟩
  · exact Or.inl hfail
  · refine Or.inr ⟨hadmits, ?_⟩
    rw [heq]
    unfold Repo.created Repo.numbered Repo.serialFor
    cases hserial : given p.serialNumber with
    | some serial =>
      rw [left_pure_bind, left_get_bind]
      unfold allocate
      rw [left_modifyGet_bind, left_save_respond]
      exact file_allocated s caller p serial
    | none =>
      unfold getNextSequence
      rw [left_modifyGet_bind, left_get_bind]
      unfold allocate
      rw [left_modifyGet_bind, left_save_respond]
      exact file_allocated _ caller p _

end Calls

end Friet.Awb
