import Friet.Awb.Hierarchy

/-!
# Amending an air waybill

The stored dict is edited in place and put back before the response model looks at
it, and `fields_changed` may name any field. A rejected amendment so leaves its
writes behind, and an accepted one may change what it never should.
-/

set_option autoImplicit false

namespace Friet.Awb

open Session

def Repo.awb? (s : Repo) (awbId : Uuid) : Option Fields :=
  (s.awbs.lookup (.uuid awbId)).map s.objects

/-- What `fields_changed` assigns to each field. -/
def AwbAmendmentRequest.sets (p : AwbAmendmentRequest) : Fields :=
  Fields.update (fun _ => none) p.fieldsChanged

def historyEntry (caller : Caller) (p : AwbAmendmentRequest) (awb : Fields) : PyValue := .dict
  [("version", (awb "version").getD .null), ("timestamp", .str caller.timestamp),
    ("reason", .str p.reason), ("requested_by", .uuid caller.actorId),
    ("carrier_confirmation", .ofOption .str p.carrierConfirmationRef)]

def Fields.revised (awb : Fields) (items : List PyValue) (entry : PyValue) (q : ℚ) : Fields :=
  (awb.set "history" (.list (items ++ [entry]))).set "version" (.number (q + 1))

def Fields.amended (awb : Fields) (caller : Caller) (p : AwbAmendmentRequest)
    (items : List PyValue) (q : ℚ) : Fields :=
  (awb.revised items (historyEntry caller p awb) q).update p.fieldsChanged

theorem Fields.update_eq_or_of_eq {d e : Fields} {f : String} {v : Option PyValue}
    (h : d f = (e f).or v) (changes : List (String × PyValue)) :
    d.update changes f = (e.update changes f).or v := by
  unfold Fields.update
  induction changes generalizing d e with
  | nil => exact h
  | cons c changes ih =>
    rw [List.foldl_cons, List.foldl_cons]
    apply ih
    by_cases hc : f = c.1
    · rw [hc, Fields.set_self, Fields.set_self, Option.some_or]
    · rw [Fields.set_of_ne hc, Fields.set_of_ne hc, h]

/-- A field is what is assigned to it, or what it was. -/
theorem AwbAmendmentRequest.update_eq_or (p : AwbAmendmentRequest) (d : Fields) (f : String) :
    d.update p.fieldsChanged f = (p.sets f).or (d f) :=
  Fields.update_eq_or_of_eq rfl p.fieldsChanged

section Amended
variable {awb : Fields} {items : List PyValue} {entry : PyValue} {q : ℚ}

theorem Fields.revised_history :
    awb.revised items entry q "history" = some (.list (items ++ [entry])) := by
  unfold Fields.revised
  rw [Fields.set_of_ne (by decide), Fields.set_self]

theorem Fields.revised_version : awb.revised items entry q "version" = some (.number (q + 1)) :=
  Fields.set_self ..

theorem Fields.revised_of_ne {f : String} (hhistory : f ≠ "history") (hversion : f ≠ "version") :
    awb.revised items entry q f = awb f := by
  unfold Fields.revised
  rw [Fields.set_of_ne hversion, Fields.set_of_ne hhistory]

variable {caller : Caller} {p : AwbAmendmentRequest}

theorem Fields.amended_of_sets {f : String} {v : PyValue} (h : p.sets f = some v) :
    awb.amended caller p items q f = some v := by
  unfold Fields.amended
  rw [p.update_eq_or, h, Option.some_or]

theorem Fields.amended_of_sets_none {f : String} (h : p.sets f = none) :
    awb.amended caller p items q f = awb.revised items (historyEntry caller p awb) q f := by
  unfold Fields.amended
  rw [p.update_eq_or, h, Option.none_or]

/-- Nothing but what is stored is assigned, and the two fields that change by themselves
are set back. -/
structure Fields.RestoredBy (awb : Fields) (p : AwbAmendmentRequest) : Prop where
  stored : ∀ f v, p.sets f = some v → awb f = some v
  history : p.sets "history" ≠ none
  version : p.sets "version" ≠ none

theorem Fields.amended_eq_self_iff (hhistory : awb "history" = some (.list items))
    (hversion : awb "version" = some (.number q)) :
    awb.amended caller p items q = awb ↔ awb.RestoredBy p := by
  constructor
  · intro h
    constructor
    · intro f v hset
      rw [← h]
      exact Fields.amended_of_sets hset
    · intro hnone
      have heq := congrFun h "history"
      rw [Fields.amended_of_sets_none hnone, Fields.revised_history, hhistory] at heq
      have hlength := congrArg List.length (PyValue.list.inj (Option.some.inj heq))
      simp at hlength
    · intro hnone
      have heq := congrFun h "version"
      rw [Fields.amended_of_sets_none hnone, Fields.revised_version, hversion] at heq
      have hnumber := Scalar.number.inj (PyValue.scalar.inj (Option.some.inj heq))
      linarith
  · intro h
    funext f
    cases hset : p.sets f with
    | some v => rw [Fields.amended_of_sets hset, h.stored f v hset]
    | none =>
      have hne : f ≠ "history" := by
        rintro rfl
        exact h.history hset
      have hne' : f ≠ "version" := by
        rintro rfl
        exact h.version hset
      rw [Fields.amended_of_sets_none hset, Fields.revised_of_ne hne hne']

/-- The fields that an accepted amendment has to leave, or to set as it does itself. -/
structure Fields.KeptBy (awb : Fields) (p : AwbAmendmentRequest) (items : List PyValue) (q : ℚ) :
    Prop where
  id : ∀ v, p.sets "id" = some v → awb "id" = some v
  tenantId : ∀ v, p.sets "tenant_id" = some v → awb "tenant_id" = some v
  history : ∀ v, p.sets "history" = some v → ∃ e, v = .list (items ++ [e])
  version : ∀ v, p.sets "version" = some v → v = .number (q + 1)

/-- The same AWB with one history entry and one version more. -/
structure Fields.Amends (after before : Fields) : Prop where
  id : after "id" = before "id"
  tenantId : after "tenant_id" = before "tenant_id"
  history : ∃ items e, before "history" = some (.list items) ∧
    after "history" = some (.list (items ++ [e]))
  version : ∃ q, before "version" = some (.number q) ∧ after "version" = some (.number (q + 1))

theorem Fields.amended_keeps_iff {f : String} (hhistory : f ≠ "history")
    (hversion : f ≠ "version") :
    awb.amended caller p items q f = awb f ↔ ∀ v, p.sets f = some v → awb f = some v := by
  cases hset : p.sets f with
  | none =>
    rw [Fields.amended_of_sets_none hset, Fields.revised_of_ne hhistory hversion]
    exact iff_of_true rfl nofun
  | some v =>
    rw [Fields.amended_of_sets hset]
    constructor
    · rintro h _ ⟨⟩
      exact h.symm
    · intro h
      exact (h v rfl).symm

theorem Fields.amended_history_iff :
    (∃ e, awb.amended caller p items q "history" = some (.list (items ++ [e]))) ↔
      ∀ v, p.sets "history" = some v → ∃ e, v = .list (items ++ [e]) := by
  cases hset : p.sets "history" with
  | none =>
    rw [Fields.amended_of_sets_none hset, Fields.revised_history]
    exact iff_of_true ⟨_, rfl⟩ nofun
  | some v =>
    rw [Fields.amended_of_sets hset]
    constructor
    · rintro ⟨e, he⟩ _ ⟨⟩
      exact ⟨e, Option.some.inj he⟩
    · intro h
      obtain ⟨e, he⟩ := h v rfl
      exact ⟨e, congrArg some he⟩

theorem Fields.amended_version_iff :
    awb.amended caller p items q "version" = some (.number (q + 1)) ↔
      ∀ v, p.sets "version" = some v → v = .number (q + 1) := by
  cases hset : p.sets "version" with
  | none =>
    rw [Fields.amended_of_sets_none hset, Fields.revised_version]
    exact iff_of_true rfl nofun
  | some v =>
    rw [Fields.amended_of_sets hset]
    constructor
    · rintro h _ ⟨⟩
      exact Option.some.inj h
    · intro h
      exact congrArg some (h v rfl)

theorem Fields.amended_amends_iff (hhistory : awb "history" = some (.list items))
    (hversion : awb "version" = some (.number q)) :
    (awb.amended caller p items q).Amends awb ↔ awb.KeptBy p items q := by
  constructor
  · rintro ⟨hid, htenant, ⟨items', e, hitems, hafter⟩, q', hq, hbumped⟩
    rw [hhistory] at hitems
    rw [hversion] at hq
    cases hitems
    cases hq
    exact ⟨(Fields.amended_keeps_iff (by decide) (by decide)).mp hid,
      (Fields.amended_keeps_iff (by decide) (by decide)).mp htenant,
      Fields.amended_history_iff.mp ⟨e, hafter⟩, Fields.amended_version_iff.mp hbumped⟩
  · intro h
    obtain ⟨e, he⟩ : ∃ e, awb.amended caller p items q "history" = some (.list (items ++ [e])) :=
      Fields.amended_history_iff.mpr h.history
    exact ⟨(Fields.amended_keeps_iff (by decide) (by decide)).mpr h.id,
      (Fields.amended_keeps_iff (by decide) (by decide)).mpr h.tenantId,
      ⟨items, e, hhistory, he⟩, q, hversion, Fields.amended_version_iff.mpr h.version⟩

end Amended

section Run
variable {s : Repo} {ref : ℕ}

theorem run_appendHistory_of_list {items : List PyValue} (entry : PyValue)
    (h : s.objects ref "history" = some (.list items)) :
    (appendHistory ref entry).run s =
      .ok () (s.setObject ref ((s.objects ref).set "history" (.list (items ++ [entry])))) := by
  unfold appendHistory
  rw [run_bind_of_ok (run_get_ok.mpr ⟨rfl, rfl⟩), h]
  rfl

theorem run_appendHistory_of_not_list (entry : PyValue)
    (h : ∀ items, s.objects ref "history" ≠ some (.list items)) :
    (appendHistory ref entry).run s = .error .attributeError s := by
  unfold appendHistory
  rw [run_bind_of_ok (run_get_ok.mpr ⟨rfl, rfl⟩)]
  split
  · rename_i items hitems
    exact absurd hitems (h items)
  · rfl

theorem run_bumpVersion_of_number {q : ℚ} (h : s.objects ref "version" = some (.number q)) :
    (bumpVersion ref).run s =
      .ok () (s.setObject ref ((s.objects ref).set "version" (.number (q + 1)))) := by
  unfold bumpVersion
  rw [run_bind_of_ok (run_get_ok.mpr ⟨rfl, rfl⟩), h]
  rfl

theorem run_bumpVersion_of_not_number (h : ∀ q, s.objects ref "version" ≠ some (.number q)) :
    (bumpVersion ref).run s = .error .typeError s := by
  unfold bumpVersion
  rw [run_bind_of_ok (run_get_ok.mpr ⟨rfl, rfl⟩)]
  split
  · rename_i q hq
    exact absurd hq (h q)
  · rfl

theorem Repo.setObject_setObject (d e : Fields) :
    (s.setObject ref d).setObject ref e = s.setObject ref e := by
  unfold Repo.setObject
  rw [Function.update_idem]

theorem Repo.objects_file : (s.file ref).objects = s.objects := by
  unfold Repo.file
  split
  · rfl
  · rfl

/-- Filing an AWB, under whichever id, leaves it filed where it was. -/
theorem Repo.lookup_file {key : Scalar} (h : s.awbs.lookup key = some ref) :
    (s.file ref).awbs.lookup key = some ref := by
  unfold Repo.file
  split
  · rename_i newKey hkey
    change AList.lookup key (s.awbs.insert newKey ref) = _
    by_cases hne : key = newKey
    · rw [hne, AList.lookup_insert]
    · rw [AList.lookup_insert_ne hne, h]
  · exact h

theorem Repo.awb?_put {awbId : Uuid} (h : s.awbs.lookup (.uuid awbId) = some ref) (d : Fields) :
    (s.put ref d).awb? awbId = some d := by
  have hlookup : (s.put ref d).awbs.lookup (.uuid awbId) = some ref := Repo.lookup_file h
  unfold Repo.awb?
  rw [hlookup, Repo.objects_put]
  exact congrArg some (Function.update_self ..)

variable [ResponseModel]

/-- Its id can be a key, and it fits the response model. -/
def Fields.Accepted (d : Fields) : Prop :=
  (d.scalar "id").isSome ∧ ResponseModel.accepts d = true

theorem run_save_respond_of_accepted (h : (s.objects ref).Accepted) :
    (save ref >>= fun _ => respond ref).run s = .ok (s.objects ref) (s.file ref) := by
  obtain ⟨key, hkey⟩ := Option.isSome_iff_exists.mp h.1
  have hsave : (save ref).run s = .ok () (s.file ref) := by
    unfold save Repo.file
    rw [run_bind_of_ok (run_get_ok.mpr ⟨rfl, rfl⟩), hkey]
    rfl
  rw [run_bind_of_ok hsave]
  unfold respond
  rw [run_bind_of_ok (run_get_ok.mpr ⟨rfl, rfl⟩), Repo.objects_file]
  unfold failIf
  rw [if_neg (by simp [h.2])]
  rfl

theorem run_save_respond_of_not_accepted (h : ¬ (s.objects ref).Accepted) :
    ∃ e, (save ref >>= fun _ => respond ref).run s = .error e (s.file ref) := by
  cases hkey : (s.objects ref).scalar "id" with
  | none =>
    refine ⟨.typeError, run_bind_of_error ?_⟩
    unfold save Repo.file
    rw [run_bind_of_ok (run_get_ok.mpr ⟨rfl, rfl⟩), hkey]
    rfl
  | some key =>
    have hsave : (save ref).run s = .ok () (s.file ref) := by
      unfold save Repo.file
      rw [run_bind_of_ok (run_get_ok.mpr ⟨rfl, rfl⟩), hkey]
      rfl
    have hrejects : ResponseModel.accepts (s.objects ref) = false := by
      apply Bool.eq_false_iff.mpr
      intro haccepts
      exact h ⟨by rw [hkey]; rfl, haccepts⟩
    refine ⟨.response, ?_⟩
    rw [run_bind_of_ok hsave]
    unfold respond
    rw [run_bind_of_ok (run_get_ok.mpr ⟨rfl, rfl⟩), Repo.objects_file]
    unfold failIf
    rw [if_pos hrejects]
    rfl

end Run

section Amend
variable [ResponseModel] {s : Repo} {caller : Caller} {awbId : Uuid} {p : AwbAmendmentRequest}
  {ref : ℕ} {items : List PyValue}

theorem run_amendAwb_of_find (hfind : s.find? awbId caller.tenantId = some ref)
    (hstatus : (s.objects ref).scalar "status" ≠ some (.str "CANCELLED")) :
    (amendAwb awbId caller p).run s = EStateM.run (do
      appendHistory ref (historyEntry caller p (s.objects ref))
      bumpVersion ref
      modify fun s => s.setObject ref ((s.objects ref).update p.fieldsChanged)
      save ref
      respond ref) s := by
  unfold amendAwb
  rw [run_bind_of_ok (run_get_ok.mpr ⟨rfl, rfl⟩), run_bind_of_ok (run_orFail_ok.mpr ⟨hfind, rfl⟩)]
  exact run_bind_of_ok (a := ()) (run_failIf_ok.mpr ⟨hstatus, rfl⟩)

omit [ResponseModel] in
theorem objects_version_appended (entry : PyValue) :
    (s.setObject ref ((s.objects ref).set "history" entry)).objects ref "version" =
      s.objects ref "version" := by
  rw [Repo.objects_setObject, Fields.set_of_ne (by decide)]

theorem run_amendAwb_of_number {q : ℚ} (hfind : s.find? awbId caller.tenantId = some ref)
    (hstatus : (s.objects ref).scalar "status" ≠ some (.str "CANCELLED"))
    (hhistory : s.objects ref "history" = some (.list items))
    (hversion : s.objects ref "version" = some (.number q)) :
    (amendAwb awbId caller p).run s = (save ref >>= fun _ => respond ref).run
      (s.setObject ref ((s.objects ref).amended caller p items q)) := by
  rw [run_amendAwb_of_find hfind hstatus, run_bind_of_ok (run_appendHistory_of_list _ hhistory),
    run_bind_of_ok (run_bumpVersion_of_number ((objects_version_appended _).trans hversion)),
    run_bind_of_ok (a := ⟨⟩) (run_modify_ok.mpr rfl), Repo.setObject_setObject, Repo.setObject_setObject,
    Repo.objects_setObject, Repo.objects_setObject]
  rfl

theorem run_amendAwb_of_not_number (hfind : s.find? awbId caller.tenantId = some ref)
    (hstatus : (s.objects ref).scalar "status" ≠ some (.str "CANCELLED"))
    (hhistory : s.objects ref "history" = some (.list items))
    (hversion : ∀ q, s.objects ref "version" ≠ some (.number q)) :
    (amendAwb awbId caller p).run s = .error .typeError (s.setObject ref ((s.objects ref).set
      "history" (.list (items ++ [historyEntry caller p (s.objects ref)])))) := by
  rw [run_amendAwb_of_find hfind hstatus, run_bind_of_ok (run_appendHistory_of_list _ hhistory)]
  apply run_bind_of_error
  apply run_bumpVersion_of_not_number
  intro q
  rw [objects_version_appended]
  exact hversion q

/-- Where a check fails, or the history is no list, nothing has been written yet. -/
theorem run_amendAwb_of_not_writes
    (h : ∀ ref, s.find? awbId caller.tenantId = some ref →
      (s.objects ref).scalar "status" ≠ some (.str "CANCELLED") →
      ∀ items, s.objects ref "history" ≠ some (.list items)) :
    ∃ e, (amendAwb awbId caller p).run s = .error e s := by
  cases hfind : s.find? awbId caller.tenantId with
  | none =>
    unfold amendAwb
    rw [run_bind_of_ok (run_get_ok.mpr ⟨rfl, rfl⟩), hfind]
    exact ⟨_, rfl⟩
  | some ref =>
    by_cases hstatus : (s.objects ref).scalar "status" = some (.str "CANCELLED")
    · unfold amendAwb
      rw [run_bind_of_ok (run_get_ok.mpr ⟨rfl, rfl⟩),
        run_bind_of_ok (run_orFail_ok.mpr ⟨hfind, rfl⟩)]
      apply Exists.intro
      apply run_bind_of_error
      unfold failIf
      rw [if_pos hstatus]
      rfl
    · rw [run_amendAwb_of_find hfind hstatus]
      exact ⟨_, run_bind_of_error (run_appendHistory_of_not_list _ (h ref hfind hstatus))⟩

end Amend

/-- A call that raises leaves the AWB as it was, and one that returns has amended it. -/
def AmendsCleanly (s : Repo) (awbId : Uuid) : EStateM.Result AwbError Repo Fields → Prop
  | .error _ t => t.awb? awbId = s.awb? awbId
  | .ok _ t => ∃ before after, s.awb? awbId = some before ∧ t.awb? awbId = some after ∧
      after.Amends before

section Clean
variable [ResponseModel] {s : Repo} {caller : Caller} {awbId : Uuid} {p : AwbAmendmentRequest}

/-- An AWB with a history that the call comes to write has a version that counts, and
`fields_changed` takes the writes back or leaves them alone, as the response model decides. -/
def Repo.Spares (s : Repo) (caller : Caller) (awbId : Uuid) (p : AwbAmendmentRequest) : Prop :=
  ∀ ref, s.find? awbId caller.tenantId = some ref →
    (s.objects ref).scalar "status" ≠ some (.str "CANCELLED") →
    ∀ items, s.objects ref "history" = some (.list items) →
      ∃ q, s.objects ref "version" = some (.number q) ∧
        (((s.objects ref).amended caller p items q).Accepted →
          (s.objects ref).KeptBy p items q) ∧
        (¬ ((s.objects ref).amended caller p items q).Accepted → (s.objects ref).RestoredBy p)

theorem clean_save_respond_iff {ref : ℕ} (hlookup : s.awbs.lookup (.uuid awbId) = some ref)
    (d : Fields) :
    AmendsCleanly s awbId ((save ref >>= fun _ => respond ref).run (s.setObject ref d)) ↔
      (d.Accepted → d.Amends (s.objects ref)) ∧ (¬ d.Accepted → d = s.objects ref) := by
  have hbefore : s.awb? awbId = some (s.objects ref) := by
    unfold Repo.awb?
    rw [hlookup]
    rfl
  have hafter : ((s.setObject ref d).file ref).awb? awbId = some d := Repo.awb?_put hlookup d
  have hobject := Repo.objects_setObject s ref d
  by_cases haccepted : d.Accepted
  · rw [run_save_respond_of_accepted (by rwa [hobject])]
    unfold AmendsCleanly
    dsimp only
    rw [hbefore, hafter]
    constructor
    · rintro ⟨_, _, ⟨⟩, ⟨⟩, hamends⟩
      exact ⟨fun _ => hamends, absurd haccepted⟩
    · intro h
      exact ⟨_, _, rfl, rfl, h.1 haccepted⟩
  · have hrejected : ¬ ((s.setObject ref d).objects ref).Accepted := by rwa [hobject]
    obtain ⟨e, he⟩ := run_save_respond_of_not_accepted hrejected
    rw [he]
    unfold AmendsCleanly
    dsimp only
    rw [hbefore, hafter]
    constructor
    · intro h
      exact ⟨fun h' => absurd h' haccepted, fun _ => Option.some.inj h⟩
    · intro h
      exact congrArg some (h.2 haccepted)

theorem not_clean_of_not_number {ref : ℕ} {items : List PyValue}
    (hfind : s.find? awbId caller.tenantId = some ref)
    (hstatus : (s.objects ref).scalar "status" ≠ some (.str "CANCELLED"))
    (hhistory : s.objects ref "history" = some (.list items))
    (hversion : ∀ q, s.objects ref "version" ≠ some (.number q)) :
    ¬ AmendsCleanly s awbId ((amendAwb awbId caller p).run s) := by
  have hlookup := (Repo.find?_eq_some.mp hfind).1
  rw [run_amendAwb_of_not_number hfind hstatus hhistory hversion]
  unfold AmendsCleanly Repo.awb?
  change Option.map _ (s.awbs.lookup (.uuid awbId)) ≠ _
  rw [hlookup]
  intro h
  have hfields := congrFun (Option.some.inj h) "history"
  rw [Repo.objects_setObject, Fields.set_self, hhistory] at hfields
  have hlength := congrArg List.length (PyValue.list.inj (Option.some.inj hfields))
  simp at hlength

theorem amendAwb_clean_iff :
    AmendsCleanly s awbId ((amendAwb awbId caller p).run s) ↔ s.Spares caller awbId p := by
  by_cases hwrites : ∃ ref items, s.find? awbId caller.tenantId = some ref ∧
      (s.objects ref).scalar "status" ≠ some (.str "CANCELLED") ∧
      s.objects ref "history" = some (.list items)
  · obtain ⟨ref, items, hfind, hstatus, hhistory⟩ := hwrites
    by_cases hnumber : ∃ q, s.objects ref "version" = some (.number q)
    · obtain ⟨q, hversion⟩ := hnumber
      rw [run_amendAwb_of_number hfind hstatus hhistory hversion,
        clean_save_respond_iff (Repo.find?_eq_some.mp hfind).1,
        Fields.amended_amends_iff hhistory hversion, Fields.amended_eq_self_iff hhistory hversion]
      constructor
      · intro h ref' hfind' _ items' hhistory'
        cases hfind.symm.trans hfind'
        cases hhistory.symm.trans hhistory'
        exact ⟨q, hversion, h⟩
      · intro h
        obtain ⟨q', hversion', hkept⟩ := h ref hfind hstatus items hhistory
        cases hversion.symm.trans hversion'
        exact hkept
    · apply iff_of_false
      · exact not_clean_of_not_number hfind hstatus hhistory fun q hq => hnumber ⟨q, hq⟩
      · intro h
        obtain ⟨q, hq, -⟩ := h ref hfind hstatus items hhistory
        exact hnumber ⟨q, hq⟩
  · have hnone : ∀ ref, s.find? awbId caller.tenantId = some ref →
        (s.objects ref).scalar "status" ≠ some (.str "CANCELLED") →
        ∀ items, s.objects ref "history" ≠ some (.list items) := by
      intro ref hfind hstatus items hhistory
      exact hwrites ⟨ref, items, hfind, hstatus, hhistory⟩
    obtain ⟨e, he⟩ := run_amendAwb_of_not_writes (p := p) hnone
    rw [he]
    apply iff_of_true
    · rfl
    · intro ref hfind hstatus items hhistory
      exact absurd hhistory (hnone ref hfind hstatus items)

end Clean

namespace NumericPieces

scoped instance : ResponseModel where
  accepts d :=
    match d.scalar "pieces" with
    | some (.number _) => true
    | _ => false

end NumericPieces

section
open NumericPieces

def filed : Repo := left (createAwb agent (request .mawb none none)) Repo.empty

theorem find?_filed : filed.find? 1 agent.tenantId = some 0 := by decide +kernel

/-- Pieces that are no number are rejected, and stay; an accepted amendment gives the waybill
away. -/
theorem unclean_amendments :
    ¬ AmendsCleanly filed 1
        ((amendAwb 1 agent ⟨"count", [("pieces", .str "many")], none⟩).run filed) ∧
      ¬ AmendsCleanly filed 1
        ((amendAwb 1 agent ⟨"sold", [("tenant_id", .uuid 2)], none⟩).run filed) := by
  have hlookup : filed.awbs.lookup (.uuid 1) = some 0 := by decide +kernel
  have hstatus : (filed.objects 0).scalar "status" ≠ some (.str "CANCELLED") := by decide +kernel
  have hhistory : filed.objects 0 "history" = some (.list []) := rfl
  have hversion : filed.objects 0 "version" = some (.number 1) := rfl
  constructor
  · rw [run_amendAwb_of_number find?_filed hstatus hhistory hversion,
      clean_save_respond_iff hlookup]
    intro h
    have hpieces : some (PyValue.str "many") = some (.number 1) :=
      congrFun (h.2 fun haccepted => absurd haccepted.2 (by decide +kernel)) "pieces"
    cases hpieces
  · rw [run_amendAwb_of_number find?_filed hstatus hhistory hversion,
      clean_save_respond_iff hlookup]
    intro h
    have htenant : some (PyValue.uuid 2) = some (.uuid 1) :=
      (h.1 ⟨by decide +kernel, by decide +kernel⟩).tenantId
    exact absurd (Scalar.uuid.inj (PyValue.scalar.inj (Option.some.inj htenant))) (by decide)

end

end Friet.Awb
