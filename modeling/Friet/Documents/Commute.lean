import Friet.Documents.Gate

/-!
# When the checklist may be generated

A run with the checklist is followed by the same run without it: the documents agree,
and the items differ by those that the checklist added. An added item is linked by an
upload only, so it makes no difference when it was added, unless an upload came to it.
-/

set_option autoImplicit false

namespace Friet.Documents

open Session

variable {db db' : DocumentDatabase} {rules : List ChecklistRule} {i : Caller × Request}

/-- How a request rewrites the items of one type. -/
structure Rewrites (r : Request) (shipmentId : Uuid) (docType : String)
    (f : ChecklistItem → ChecklistItem) : Prop where
  keepsKey : KeepsKey f
  place : ∀ j, itemFor j.shipmentId j.docTypeCode (f j)
  docName : ∀ j, (f j).docName = j.docName
  isMandatory : ∀ j, (f j).isMandatory = j.isMandatory
  approvalRole : ∀ j, (f j).approvalRole = j.approvalRole
  present : ∀ j, j.isMissing = false → (f j).isMissing = false
  link : (∀ j, (f j).documentId = j.documentId) ∨
    ∃ a, r = .uploadDocument a ∧ a.shipmentId = shipmentId ∧ a.docType = docType

def withItems (items : Table ChecklistItem) (db : DocumentDatabase) : DocumentDatabase :=
  { db with checklistItems := items }

/-- The same request with other items writes the same documents and rewrites the same way. -/
def WritesAlike (rules : List ChecklistRule) (db : DocumentDatabase) (i : Caller × Request)
    (shipmentId : Uuid) (docType : String) (f : ChecklistItem → ChecklistItem) (hf : KeepsKey f) :
    Prop :=
  ∃ documents documentVersions, ∀ items, Consistent (withItems items db) →
    step rules (withItems items db) i = itemTables shipmentId docType f hf
      { db with
        documents := documents
        documentVersions := documentVersions
        checklistItems := items }

theorem rewrites_id (r : Request) : Rewrites r 0 "" id :=
  ⟨⟨fun _ => rfl⟩, fun _ => ⟨rfl, rfl⟩, fun _ => rfl, fun _ => rfl, fun _ => rfl, fun _ h => h,
    Or.inl fun _ => rfl⟩

theorem rewrites_link (a : UploadDocument) (documentId : Uuid) :
    Rewrites (.uploadDocument a) a.shipmentId a.docType (ChecklistItem.link documentId) :=
  ⟨keepsKey_link documentId, fun _ => ⟨rfl, rfl⟩, fun _ => rfl, fun _ => rfl, fun _ => rfl,
    fun _ _ => rfl, Or.inr ⟨a, rfl, rfl, rfl⟩⟩

/-- A request that changes nothing, whatever the items. -/
theorem writesAlike_of_unchanged
    (h : ∀ items, Consistent (withItems items db) → step rules (withItems items db) i =
      withItems items db) :
    WritesAlike rules db i 0 "" id ⟨fun _ => rfl⟩ := by
  refine ⟨db.documents, db.documentVersions, fun items hitems => ?_⟩
  rw [h items hitems]
  unfold itemTables
  rw [Table.updateWhere_eq_self (f := id) fun _ _ _ => rfl]
  rfl

theorem rewrites_decision {r : Request} {d : Document} {x : Decision} (h : Decides db r d x) :
    Rewrites r d.shipmentId d.docType x.onItem := by
  refine ⟨keepsKey_onItem x, fun _ => ⟨rfl, rfl⟩, fun _ => rfl, fun _ => rfl, fun _ => rfl,
    fun j hj => ?_, Or.inl fun _ => rfl⟩
  unfold ChecklistItem.isMissing at hj ⊢
  cases h with
  | approve _ _ _ => simpa [Decision.onItem, approval] using (by simpa using hj : _ ∧ _).2
  | reject _ _ => simpa [Decision.onItem, rejection] using (by simpa using hj : _ ∧ _).2
  | revise _ _ => exact hj

theorem decides_withItems_iff {r : Request} {d : Document} {x : Decision}
    {items : Table ChecklistItem} : Decides (withItems items db) r d x ↔ Decides db r d x := by
  constructor
  · rintro (⟨hd, hid, hgate⟩ | ⟨hd, hid⟩ | ⟨hd, hid⟩)
    · exact .approve hd hid hgate
    · exact .reject hd hid
    · exact .revise hd hid
  · rintro (⟨hd, hid, hgate⟩ | ⟨hd, hid⟩ | ⟨hd, hid⟩)
    · exact .approve hd hid hgate
    · exact .reject hd hid
    · exact .revise hd hid

theorem exists_writesAlike (rules : List ChecklistRule) (db : DocumentDatabase)
    {i : Caller × Request} (hi : ∀ a, i.2 ≠ .generateChecklist a) :
    ∃ shipmentId docType f, ∃ hf : Rewrites i.2 shipmentId docType f,
      WritesAlike rules db i shipmentId docType f hf.keepsKey := by
  obtain ⟨caller, request⟩ := i
  by_cases hupload : ∃ a, request = .uploadDocument a
  · obtain ⟨a, rfl⟩ := hupload
    by_cases hd : ∃ d ∈ db.documents, ofType a.shipmentId a.docType d
    · obtain ⟨d, hd, hdt⟩ := hd
      refine ⟨_, _, _, rewrites_link a d.id, (revisedTables caller a d db).documents,
        (revisedTables caller a d db).documentVersions, fun items hitems => ?_⟩
      exact commit_of_ok ((run_uploadDocument_ok hitems).mpr (Or.inl ⟨d, hd, hdt, rfl, rfl⟩))
    · push Not at hd
      by_cases hshipped : shipped a.shipmentId db
      · refine ⟨_, _, _, rewrites_link a db.documents.freshKey, (createdTables caller a db).documents,
          (createdTables caller a db).documentVersions, fun items hitems => ?_⟩
        exact commit_of_ok ((run_uploadDocument_ok hitems).mpr (Or.inr ⟨hd, hshipped, rfl, rfl⟩))
      · refine ⟨_, _, _, rewrites_id _, writesAlike_of_unchanged fun items hitems => ?_⟩
        rcases commit_cases (uploadDocument caller a) (withItems items db) with hsame | ⟨d, hok⟩
        · exact hsame
        · rcases (run_uploadDocument_ok hitems).mp hok with ⟨d, hmem, hdt, _⟩ | ⟨_, hship, _⟩
          · exact absurd hdt (hd d hmem)
          · exact absurd hship hshipped
  · by_cases hd : ∃ d x, Decides db request d x
    · obtain ⟨d, x, hdecides⟩ := hd
      refine ⟨_, _, _, rewrites_decision hdecides, (decidedTables x d db).documents,
        db.documentVersions, fun items hitems => ?_⟩
      exact step_of_decides hitems (decides_withItems_iff.mpr hdecides)
    · push Not at hd
      refine ⟨_, _, _, rewrites_id _, writesAlike_of_unchanged fun items hitems => ?_⟩
      refine step_keeps (I := fun t => t = withItems items db) hitems rfl
        (fun a _ _ heq _ => absurd ⟨a, heq⟩ hupload) (fun a heq _ _ => absurd ⟨a, heq⟩ hupload)
        (fun d x _ hdecides => absurd (decides_withItems_iff.mp hdecides) (hd d x))
        fun a heq => absurd heq (hi a)

/-- The item that was added for the entry; if mandatory it has not been linked. -/
def AddedFor (shipmentId : Uuid) (e : ChecklistEntry) (j : ChecklistItem) : Prop :=
  itemFor shipmentId e.docTypeCode j ∧
    (j.docName = e.docName ∧ j.isMandatory = e.isMandatory ∧ j.approvalRole = some e.approvalRole) ∧
    (e.isMandatory = true → j.documentId = none)

/-- The second database has items for the entries on top of what the first has. -/
def Ahead (shipmentId : Uuid) (entries : List ChecklistEntry) (db db' : DocumentDatabase) : Prop :=
  ∃ items added, db' = withItems items db ∧ items.rows = db.checklistItems.rows ++ added ∧
    List.Forall₂ (AddedFor shipmentId) entries added

theorem ahead_generated {a : GenerateChecklist} :
    Ahead a.shipmentId (addedEntries rules a db) db (generatedTables rules a db) := by
  obtain ⟨added, hrows, hadded⟩ := Table.rows_foldl_insert (takesKey_newItem a.shipmentId)
    (addedEntries rules a db) db.checklistItems
  refine ⟨_, added, rfl, hrows, hadded.imp ?_⟩
  rintro e j ⟨k, rfl⟩
  exact ⟨⟨rfl, rfl⟩, ⟨rfl, rfl, rfl⟩, fun _ => rfl⟩

/-- The request uploads no document that an entry makes mandatory. -/
def Spares (shipmentId : Uuid) (entries : List ChecklistEntry) (i : Caller × Request) : Prop :=
  ∀ a, i.2 = .uploadDocument a → a.shipmentId = shipmentId →
    ∀ e ∈ entries, e.isMandatory = true → e.docTypeCode ≠ a.docType

theorem addedFor_rewritten {shipmentId s : Uuid} {docType : String} {e : ChecklistEntry}
    {j : ChecklistItem} {f : ChecklistItem → ChecklistItem} (hf : Rewrites i.2 s docType f)
    (hspares : ∀ a, i.2 = .uploadDocument a → a.shipmentId = shipmentId →
      e.isMandatory = true → e.docTypeCode ≠ a.docType)
    (hj : AddedFor shipmentId e j) :
    AddedFor shipmentId e (if itemFor s docType j then f j else j) := by
  split_ifs with hjt
  · obtain ⟨hplace, ⟨hname, hmandatory, hrole⟩, hlink⟩ := hj
    refine ⟨⟨(hf.place j).1.trans hplace.1, (hf.place j).2.trans hplace.2⟩,
      ⟨(hf.docName j).trans hname, (hf.isMandatory j).trans hmandatory,
        (hf.approvalRole j).trans hrole⟩, fun hm => ?_⟩
    rcases hf.link with hsame | ⟨a, ha, hs, ht⟩
    · exact (hsame j).trans (hlink hm)
    · refine absurd ?_ (hspares a ha (hs.trans (hjt.1.symm.trans hplace.1)) hm)
      exact (hplace.2.symm.trans hjt.2).trans ht.symm
  · exact hj

theorem ahead_step {shipmentId : Uuid} {entries : List ChecklistEntry} (h : Consistent db)
    (h' : Consistent db') (hi : ∀ a, i.2 ≠ .generateChecklist a)
    (hspares : Spares shipmentId entries i) (hahead : Ahead shipmentId entries db db') :
    Ahead shipmentId entries (step rules db i) (step rules db' i) := by
  obtain ⟨items, added, rfl, hrows, hadded⟩ := hahead
  obtain ⟨s, t, f, hf, documents, documentVersions, hwrites⟩ := exists_writesAlike rules db hi
  have hstep := hwrites db.checklistItems h
  have hstep' := hwrites items h'
  rw [hstep', show step rules db i = _ from hstep]
  refine ⟨items.updateWhere (itemFor s t ·) f hf.keepsKey,
    added.map fun j => if itemFor s t j then f j else j, rfl, ?_, ?_⟩
  · unfold itemTables
    rw [Table.rows_updateWhere, Table.rows_updateWhere, hrows, List.map_append]
    simp only [decide_eq_true_eq]
  · rw [List.forall₂_map_right_iff]
    have hmem : List.Forall₂ (fun e j => e ∈ entries ∧ AddedFor shipmentId e j) entries added :=
      (List.forall₂_and_left _ _).mpr ⟨fun e he => he, hadded⟩
    refine hmem.imp ?_
    rintro e j ⟨he, hj⟩
    exact addedFor_rewritten hf (fun a ha hs => hspares a ha hs e he) hj

theorem ahead_run {shipmentId : Uuid} {entries : List ChecklistEntry} {rs : List (Caller × Request)}
    (h : Consistent db) (h' : Consistent db') (hrs : ∀ i ∈ rs, ∀ a, i.2 ≠ .generateChecklist a)
    (hspares : ∀ i ∈ rs, Spares shipmentId entries i) (hahead : Ahead shipmentId entries db db') :
    Ahead shipmentId entries (rs.foldl (step rules) db) (rs.foldl (step rules) db') := by
  induction rs generalizing db db' with
  | nil => exact hahead
  | cons i rs ih =>
    rw [List.forall_mem_cons] at hrs hspares
    exact ih (consistent_step h i) (consistent_step h' i) hrs.2 hspares.2
      (ahead_step h h' hrs.1 hspares.1 hahead)

/-- The same result, but for the order in which documents are listed. -/
structure SameGate (g g' : GateResult) : Prop where
  canProceed : g.canProceed = g'.canProceed
  missing : g.missingDocuments.Perm g'.missingDocuments
  unapproved : g.unapprovedDocuments.Perm g'.unapprovedDocuments

theorem SameGate.symm {g g' : GateResult} (h : SameGate g g') : SameGate g' g :=
  ⟨h.canProceed.symm, h.missing.symm, h.unapproved.symm⟩

theorem SameGate.trans {g g' g'' : GateResult} (h : SameGate g g') (h' : SameGate g' g'') :
    SameGate g g'' :=
  ⟨h.canProceed.trans h'.canProceed, h.missing.trans h'.missing, h.unapproved.trans h'.unapproved⟩

theorem sameGate_of_perm {items items' : List ChecklistItem} (h : items.Perm items') :
    SameGate (gateResult items) (gateResult items') := by
  have hmissing := (h.filter (·.isMissing)).map missingDocument
  have hunapproved := (h.filter (·.isUnapproved)).map unapprovedDocument
  refine ⟨?_, hmissing, hunapproved⟩
  unfold gateResult
  simp only [hmissing.length_eq, hunapproved.length_eq]

def entryMissing (e : ChecklistEntry) : MissingDocument :=
  ⟨e.docTypeCode, e.docName, some e.approvalRole⟩

/-- What the gate says of items to which mandatory entries without a document come. -/
def gateWith (items : List ChecklistItem) (entries : List ChecklistEntry) : GateResult :=
  let missing := (items.filter (·.isMissing)).map missingDocument ++
    (entries.filter (·.isMandatory)).map entryMissing
  let unapproved := (items.filter (·.isUnapproved)).map unapprovedDocument
  ⟨missing.length = 0 ∧ unapproved.length = 0, missing, unapproved⟩

/-- Items added without a document are missing ones. -/
theorem gateResult_added {shipmentId : Uuid} {items added : List ChecklistItem}
    {entries : List ChecklistEntry} (h : List.Forall₂ (AddedFor shipmentId) entries added) :
    gateResult (items ++ added.filter fun j => j.shipmentId = shipmentId ∧ j.isMandatory = true) =
      gateWith items entries := by
  have hadded : (added.filter fun j => j.shipmentId = shipmentId ∧ j.isMandatory = true).filter
        (·.isUnapproved) = [] ∧
      ((added.filter fun j => j.shipmentId = shipmentId ∧ j.isMandatory = true).filter
        (·.isMissing)).map missingDocument = (entries.filter (·.isMandatory)).map entryMissing := by
    induction h with
    | nil => exact ⟨rfl, rfl⟩
    | @cons e j entries added hj _ ih =>
      obtain ⟨hplace, ⟨hname, hmandatory, hrole⟩, hlink⟩ := hj
      cases hm : e.isMandatory with
      | false => simpa [hm, hmandatory] using ih
      | true =>
        have hmissing : j.isMissing = true := by simp [ChecklistItem.isMissing, hlink hm]
        have hunapproved : j.isUnapproved = false := by simp [ChecklistItem.isUnapproved, hmissing]
        have hentry : missingDocument j = entryMissing e := by
          unfold missingDocument entryMissing
          rw [hplace.2, hname, hrole]
        simpa [hm, hmandatory, hplace.1, hmissing, hunapproved, hentry] using ih
  unfold gateResult gateWith
  simp only [List.filter_append, List.map_append, hadded.1, hadded.2, List.append_nil]

theorem validate_of_ahead {shipmentId : Uuid} {entries : List ChecklistEntry}
    {order : RowOrder ChecklistItem} (h : Ahead shipmentId entries db db') :
    SameGate (validateTransitionDocuments shipmentId order db')
      (gateWith (mandatoryItems shipmentId db) entries) := by
  obtain ⟨items, added, rfl, hrows, hadded⟩ := h
  refine (sameGate_of_perm (order.perm _)).trans ?_
  rw [← gateResult_added hadded]
  refine sameGate_of_perm (.of_eq ?_)
  unfold mandatoryItems withItems
  rw [hrows, List.filter_append]

section Uploaded
variable {shipmentId : Uuid} {docType : String} {rs : List (Caller × Request)}

def Asked (shipmentId : Uuid) (docType : String) (db : DocumentDatabase) : Prop :=
  ∃ j ∈ db.checklistItems, itemFor shipmentId docType j

/-- The checklist has an item for the type, and a document for the item. -/
def Present (shipmentId : Uuid) (docType : String) (db : DocumentDatabase) : Prop :=
  ∃ j ∈ db.checklistItems, itemFor shipmentId docType j ∧ j.isMissing = false

/-- Items keep their place, and those with a document keep one. -/
theorem exists_item_step {j : ChecklistItem} (h : Consistent db)
    (hi : ∀ a, i.2 ≠ .generateChecklist a) (hj : j ∈ db.checklistItems) :
    ∃ k ∈ (step rules db i).checklistItems, itemFor j.shipmentId j.docTypeCode k ∧
      (j.isMissing = false → k.isMissing = false) := by
  obtain ⟨s, t, f, hf, documents, documentVersions, hwrites⟩ := exists_writesAlike rules db hi
  rw [show step rules db i = _ from hwrites db.checklistItems h]
  refine ⟨_, Table.mem_updateWhere.mpr ⟨j, hj, rfl⟩, ?_⟩
  split_ifs
  · exact ⟨hf.place j, hf.present j⟩
  · exact ⟨⟨rfl, rfl⟩, fun hmissing => hmissing⟩

theorem asked_step (h : Consistent db) (hi : ∀ a, i.2 ≠ .generateChecklist a)
    (hasked : Asked shipmentId docType db) : Asked shipmentId docType (step rules db i) := by
  obtain ⟨j, hj, hjt⟩ := hasked
  obtain ⟨k, hk, hkt, _⟩ := exists_item_step h hi hj
  exact ⟨k, hk, hkt.1.trans hjt.1, hkt.2.trans hjt.2⟩

theorem present_step (h : Consistent db) (hi : ∀ a, i.2 ≠ .generateChecklist a)
    (hpresent : Present shipmentId docType db) : Present shipmentId docType (step rules db i) := by
  obtain ⟨j, hj, hjt, hmissing⟩ := hpresent
  obtain ⟨k, hk, hkt, hkept⟩ := exists_item_step h hi hj
  exact ⟨k, hk, ⟨hkt.1.trans hjt.1, hkt.2.trans hjt.2⟩, hkept hmissing⟩

theorem shipments_step (h : Consistent db) : (step rules db i).shipments = db.shipments :=
  step_keeps (I := fun t => t.shipments = db.shipments) h rfl (fun _ _ _ _ _ => rfl)
    (fun _ _ _ _ => rfl) (fun _ _ _ _ => rfl) fun _ _ => rfl

theorem run_keeps {I : DocumentDatabase → Prop} (h : Consistent db)
    (hrs : ∀ i ∈ rs, ∀ a, i.2 ≠ .generateChecklist a) (hdb : I db)
    (hstep : ∀ t i, Consistent t → (∀ a, i.2 ≠ .generateChecklist a) → I t → I (step rules t i)) :
    I (rs.foldl (step rules) db) := by
  induction rs generalizing db with
  | nil => exact hdb
  | cons i rs ih =>
    rw [List.forall_mem_cons] at hrs
    exact ih (consistent_step h i) hrs.2 (hstep db i h hrs.1 hdb)

theorem present_of_upload {caller : Caller} {a : UploadDocument} (h : Consistent db)
    (hshipped : shipped a.shipmentId db) (hasked : Asked a.shipmentId a.docType db) :
    Present a.shipmentId a.docType (step rules db (caller, .uploadDocument a)) := by
  obtain ⟨j, hj, hjt⟩ := hasked
  by_cases hd : ∃ d ∈ db.documents, ofType a.shipmentId a.docType d
  · obtain ⟨d, hd, hdt⟩ := hd
    rw [show step rules db (caller, .uploadDocument a) = _ from
      commit_of_ok ((run_uploadDocument_ok h).mpr (Or.inl ⟨d, hd, hdt, rfl, rfl⟩))]
    refine ⟨_, Table.mem_updateWhere.mpr ⟨j, hj, rfl⟩, ?_⟩
    rw [if_pos (decide_eq_true hjt)]
    exact ⟨hjt, rfl⟩
  · push Not at hd
    rw [show step rules db (caller, .uploadDocument a) = _ from
      commit_of_ok ((run_uploadDocument_ok h).mpr (Or.inr ⟨hd, hshipped, rfl, rfl⟩))]
    refine ⟨_, Table.mem_updateWhere.mpr ⟨j, hj, rfl⟩, ?_⟩
    rw [if_pos (decide_eq_true hjt)]
    exact ⟨hjt, rfl⟩

theorem not_missing_of_present {order : RowOrder ChecklistItem} (h : Consistent db)
    (hpresent : Present shipmentId docType db) :
    ∀ m ∈ (validateTransitionDocuments shipmentId order db).missingDocuments,
      m.docTypeCode ≠ docType := by
  intro m hm heq
  obtain ⟨j, hj, hjt, hmissing⟩ := hpresent
  obtain ⟨k, hk, rfl⟩ := List.mem_map.mp hm
  rw [List.mem_filter, RowOrder.mem_arrange] at hk
  obtain ⟨hk, hkmissing⟩ := hk
  obtain ⟨hk, hkm⟩ := List.mem_filter.mp hk
  have hkm := of_decide_eq_true hkm
  rw [h.eq_item hk hj ⟨hkm.1, heq⟩ hjt, hmissing] at hkmissing
  cases hkmissing

end Uploaded

section Place
variable {a : GenerateChecklist} {rs : List (Caller × Request)}

theorem consistent_run (rules : List ChecklistRule) (h : Consistent db)
    (rs : List (Caller × Request)) :
    Consistent (rs.foldl (step rules) db) :=
  (reaches_foldl (step rules) db rs).invariant Consistent (fun _ i ht _ => consistent_step ht i) h

theorem addedEntries_step (h : Consistent db) (hi : ∀ a, i.2 ≠ .generateChecklist a) :
    addedEntries rules a (step rules db i) = addedEntries rules a db := by
  obtain ⟨s, t, f, hf, documents, documentVersions, hwrites⟩ := exists_writesAlike rules db hi
  rw [show step rules db i = _ from hwrites db.checklistItems h]
  have hitem : ∀ e : ChecklistEntry,
      (∃ j ∈ db.checklistItems.updateWhere (itemFor s t ·) f hf.keepsKey,
        itemFor a.shipmentId e.docTypeCode j) ↔
      ∃ j ∈ db.checklistItems, itemFor a.shipmentId e.docTypeCode j := by
    intro e
    have hplace : ∀ j : ChecklistItem,
        itemFor a.shipmentId e.docTypeCode (if itemFor s t j then f j else j) ↔
          itemFor a.shipmentId e.docTypeCode j := by
      intro j
      split_ifs
      · unfold itemFor
        rw [(hf.place j).1, (hf.place j).2]
      · exact Iff.rfl
    constructor
    · rintro ⟨j, hj, hjt⟩
      obtain ⟨k, hk, rfl⟩ := Table.mem_updateWhere.mp hj
      simp only [decide_eq_true_eq] at hjt
      exact ⟨k, hk, (hplace k).mp hjt⟩
    · rintro ⟨j, hj, hjt⟩
      refine ⟨_, Table.mem_updateWhere.mpr ⟨j, hj, rfl⟩, ?_⟩
      simp only [decide_eq_true_eq]
      exact (hplace j).mpr hjt
  unfold addedEntries newEntries itemTables
  simp only [hitem]
  rfl

theorem addedEntries_run (h : Consistent db) (hrs : ∀ i ∈ rs, ∀ a, i.2 ≠ .generateChecklist a) :
    addedEntries rules a (rs.foldl (step rules) db) = addedEntries rules a db := by
  induction rs generalizing db with
  | nil => rfl
  | cons i rs ih =>
    rw [List.forall_mem_cons] at hrs
    rw [List.foldl_cons, ih (consistent_step h i) hrs.2, addedEntries_step h hrs.1]

theorem present_generatedFirst {i : Caller × Request} {l rest : List (Caller × Request)}
    (h : Consistent db) (hrs : ∀ x ∈ l ++ i :: rest, ∀ a, x.2 ≠ .generateChecklist a)
    {u : UploadDocument} (hu : i.2 = .uploadDocument u) (hs : u.shipmentId = a.shipmentId)
    {e : ChecklistEntry} (he : e ∈ addedEntries rules a db) (heu : e.docTypeCode = u.docType) :
    Present a.shipmentId e.docTypeCode
      ((l ++ i :: rest).foldl (step rules) (generatedTables rules a db)) := by
  obtain ⟨caller, request⟩ := i
  subst hu
  rw [List.forall_mem_append, List.forall_mem_cons] at hrs
  obtain ⟨hl, hi, hrest⟩ := hrs
  have hgenerated : Consistent (generatedTables rules a db) := consistent_generated h
  obtain ⟨k, hk⟩ : ∃ k, newItem a.shipmentId e k ∈ (generatedTables rules a db).checklistItems :=
    Table.exists_mem_foldl_insert he
  have hbefore : (shipped u.shipmentId (l.foldl (step rules) (generatedTables rules a db))) ∧
      Asked u.shipmentId u.docType (l.foldl (step rules) (generatedTables rules a db)) := by
    refine run_keeps (I := fun t => shipped u.shipmentId t ∧ Asked u.shipmentId u.docType t)
      hgenerated hl ⟨?_, _, hk, ?_⟩ fun t i ht hi hkept => ⟨?_, asked_step ht hi hkept.2⟩
    · rw [hs]
      exact (mem_addedEntries he).1
    · rw [hs, ← heu]
      exact ⟨rfl, rfl⟩
    · unfold shipped
      rw [shipments_step ht]
      exact hkept.1
  have hrun := consistent_run rules hgenerated l
  rw [List.foldl_append, List.foldl_cons]
  refine run_keeps (consistent_step hrun _) hrest ?_ fun t i ht hi hkept => present_step ht hi hkept
  rw [← hs, heu]
  exact present_of_upload hrun hbefore.1 hbefore.2

theorem missing_generatedLast {order : RowOrder ChecklistItem} (h : Consistent db)
    (hrs : ∀ i ∈ rs, ∀ a, i.2 ≠ .generateChecklist a) {e : ChecklistEntry}
    (he : e ∈ addedEntries rules a db) (hmandatory : e.isMandatory = true) :
    entryMissing e ∈ (validateTransitionDocuments a.shipmentId order
      (generatedTables rules a (rs.foldl (step rules) db))).missingDocuments := by
  rw [← addedEntries_run h hrs] at he
  refine (validate_of_ahead ahead_generated).missing.mem_iff.mpr (List.mem_append_right _ ?_)
  exact List.mem_map_of_mem (List.mem_filter.mpr ⟨he, hmandatory⟩)

/-- The run with the checklist generated after `before`. -/
def generatedAfter (rules : List ChecklistRule) (caller : Caller) (a : GenerateChecklist)
    (db : DocumentDatabase) (before rest : List (Caller × Request)) : DocumentDatabase :=
  (before ++ (caller, .generateChecklist a) :: rest).foldl (step rules) db

theorem generatedAfter_eq (caller : Caller) (before rest : List (Caller × Request)) :
    generatedAfter rules caller a db before rest =
      rest.foldl (step rules) (generatedTables rules a (before.foldl (step rules) db)) := by
  unfold generatedAfter
  rw [List.foldl_append, List.foldl_cons]
  exact congrArg (fun t => rest.foldl (step rules) t) commit_generateChecklist

/-- If every upload spares what the checklist adds, the gate tells no more than the run does. -/
theorem validate_generatedAfter {caller : Caller} {before rest : List (Caller × Request)}
    {order : RowOrder ChecklistItem} (h : Consistent db)
    (hrs : ∀ i ∈ before ++ rest, ∀ a, i.2 ≠ .generateChecklist a)
    (hspares : ∀ i ∈ before ++ rest, Spares a.shipmentId (addedEntries rules a db) i) :
    SameGate
      (validateTransitionDocuments a.shipmentId order
        (generatedAfter rules caller a db before rest))
      (gateWith (mandatoryItems a.shipmentId ((before ++ rest).foldl (step rules) db))
        (addedEntries rules a db)) := by
  rw [generatedAfter_eq, List.foldl_append]
  have hbefore := consistent_run rules h before
  rw [List.forall_mem_append] at hrs hspares
  have hahead : Ahead a.shipmentId (addedEntries rules a db) (before.foldl (step rules) db)
      (generatedTables rules a (before.foldl (step rules) db)) := by
    rw [← addedEntries_run h hrs.1]
    exact ahead_generated
  exact validate_of_ahead
    (ahead_run hbefore (consistent_generated hbefore) hrs.2 hspares.2 hahead)

/-- The place of the checklist in the run does not matter if and only if no upload comes to it. -/
theorem generate_anywhere_iff (h : Consistent db) (caller : Caller) (a : GenerateChecklist)
    (hrs : ∀ i ∈ rs, ∀ a, i.2 ≠ .generateChecklist a) :
    (∀ before rest before' rest', before ++ rest = rs → before' ++ rest' = rs → ∀ order order',
      SameGate
        (validateTransitionDocuments a.shipmentId order
          (generatedAfter rules caller a db before rest))
        (validateTransitionDocuments a.shipmentId order'
          (generatedAfter rules caller a db before' rest'))) ↔
      ∀ i ∈ rs, Spares a.shipmentId (addedEntries rules a db) i := by
  constructor
  · intro hsame i hi u hu hs e he hmandatory heu
    obtain ⟨l, rest, rfl⟩ := List.append_of_mem hi
    have hfirst := hsame (l ++ i :: rest) [] [] (l ++ i :: rest) (List.append_nil _) rfl .stored
      .stored
    rw [generatedAfter_eq, generatedAfter_eq] at hfirst
    have hmissing := hfirst.missing.mem_iff.mp (missing_generatedLast h hrs he hmandatory)
    exact not_missing_of_present (consistent_run rules (consistent_generated h) _)
      (present_generatedFirst h hrs hu hs he heu) _ hmissing rfl
  · rintro hspares before rest before' rest' rfl hrs' order order'
    refine (validate_generatedAfter h hrs hspares).trans (SameGate.symm ?_)
    rw [← hrs'] at hrs hspares ⊢
    exact validate_generatedAfter h hrs hspares

end Place

section Verbatim
open Friet.Verbatim

def noContext : GenerateChecklist := ⟨1, fun _ => none⟩

def extraDocument : List (Caller × Request) := [upload "FUMIGATION_CERT", approve 0]

theorem extraDocument_anywhere_iff :
    (∀ before rest before' rest', before ++ rest = extraDocument →
      before' ++ rest' = extraDocument → ∀ order order',
        SameGate
          (validateTransitionDocuments 1 order
            (generatedAfter defaultChecklistRules clerk noContext booked before rest))
          (validateTransitionDocuments 1 order'
            (generatedAfter defaultChecklistRules clerk noContext booked before' rest'))) ↔
      ∀ i ∈ extraDocument, Spares 1 (addedEntries defaultChecklistRules noContext booked) i := by
  refine generate_anywhere_iff fresh_booked.consistent clerk noContext fun i hi a heq => ?_
  rcases List.mem_cons.mp hi with rfl | hi
  · cases heq
  · rw [List.mem_singleton.mp hi] at heq
    cases heq

/-- Documents approved before the checklist is generated are reported missing. -/
theorem approved_before_reported_missing :
    (validateTransitionDocuments 1 .stored
        (generatedAfter defaultChecklistRules clerk noContext booked [] cleared.tail)).canProceed =
      true ∧
    (validateTransitionDocuments 1 .stored
        (generatedAfter defaultChecklistRules clerk noContext booked cleared.tail
          [])).missingDocuments.map (·.docTypeCode) =
      ["COMMERCIAL_INVOICE", "PACKING_LIST", "PROOF_OF_DELIVERY"] := by
  decide +kernel

end Verbatim

end Friet.Documents
