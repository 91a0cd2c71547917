import Friet.Documents.Service
import Friet.Lib.Run

/-!
# What a document request does

In a consistent database a query by shipment and type finds one row at most. A
request that goes through then rewrites the document of the type and, whether there
is one or not, the checklist item of the type; what it writes is stated here once.
-/

set_option autoImplicit false

namespace Friet.Documents

open Session

variable {db db' : DocumentDatabase} {caller : Caller} {d : Document} {shipmentId : Uuid}
  {docType : String}

/-- One document and one item a type, each item linked to the document of its type. -/
structure Consistent (db : DocumentDatabase) : Prop where
  oneDocument : db.documents.Unique fun d => (d.shipmentId, d.docType)
  oneItem : db.checklistItems.Unique fun i => (i.shipmentId, i.docTypeCode)
  linked : ∀ i ∈ db.checklistItems, ∀ id ∈ i.documentId,
    ∃ d ∈ db.documents, d.id = id ∧ ofType i.shipmentId i.docTypeCode d
  onShipment : ∀ d ∈ db.documents, shipped d.shipmentId db

namespace Consistent

theorem eq_document (h : Consistent db) {d e : Document} (hd : d ∈ db.documents)
    (he : e ∈ db.documents) (hdt : ofType shipmentId docType d)
    (het : ofType shipmentId docType e) : d = e :=
  h.oneDocument d hd e he (Prod.ext (hdt.1.trans het.1.symm) (hdt.2.trans het.2.symm))

theorem eq_item (h : Consistent db) {i j : ChecklistItem} (hi : i ∈ db.checklistItems)
    (hj : j ∈ db.checklistItems) (hit : itemFor shipmentId docType i)
    (hjt : itemFor shipmentId docType j) : i = j :=
  h.oneItem i hi j hj (Prod.ext (hit.1.trans hjt.1.symm) (hit.2.trans hjt.2.symm))

end Consistent

theorem filter_ofType_cases (h : Consistent db) (shipmentId : Uuid) (docType : String) :
    (db.documents.rows.filter (ofType shipmentId docType ·) = [] ∧
        ∀ d ∈ db.documents, ¬ ofType shipmentId docType d) ∨
      ∃ d ∈ db.documents, ofType shipmentId docType d ∧
        db.documents.rows.filter (ofType shipmentId docType ·) = [d] := by
  by_cases hd : ∃ d ∈ db.documents, ofType shipmentId docType d
  · obtain ⟨d, hd, hdt⟩ := hd
    exact Or.inr ⟨d, hd, hdt, Table.filter_eq_singleton hd (decide_eq_true hdt) fun e he het =>
      h.eq_document he hd (of_decide_eq_true het) hdt⟩
  · push Not at hd
    exact Or.inl ⟨List.filter_eq_nil_iff.mpr fun d hmem heq => hd d hmem (of_decide_eq_true heq),
      hd⟩

section Item
variable {f : ChecklistItem → ChecklistItem} {hf : KeepsKey f}

/-- The items once those of the type have been rewritten. -/
def itemTables (shipmentId : Uuid) (docType : String) (f : ChecklistItem → ChecklistItem)
    (hf : KeepsKey f) (db : DocumentDatabase) : DocumentDatabase :=
  { db with checklistItems := db.checklistItems.updateWhere (itemFor shipmentId docType ·) f hf }

theorem run_updateItem
    (h : db.checklistItems.Unique fun i => (i.shipmentId, i.docTypeCode)) :
    (updateItem shipmentId docType f hf).run db =
      .ok () (itemTables shipmentId docType f hf db) := by
  unfold updateItem itemTables
  rw [run_get_bind_ok]
  by_cases hi : ∃ i ∈ db.checklistItems, itemFor shipmentId docType i
  · obtain ⟨i, hi, hit⟩ := hi
    have honly : ∀ j ∈ db.checklistItems, decide (itemFor shipmentId docType j) = true → j = i := by
      intro j hj hjt
      have hjt := of_decide_eq_true hjt
      exact h j hj i hi (Prod.ext (hjt.1.trans hit.1.symm) (hjt.2.trans hit.2.symm))
    rw [Table.filter_eq_singleton hi (decide_eq_true hit) honly, oneOrNone_singleton_bind,
      run_modify_ok, ← Table.update_eq_updateWhere hi (decide_eq_true hit) honly]
    rfl
  · push Not at hi
    have hnil : db.checklistItems.rows.filter (itemFor shipmentId docType ·) = [] :=
      List.filter_eq_nil_iff.mpr fun i hmem heq => hi i hmem (of_decide_eq_true heq)
    rw [hnil, oneOrNone_nil_bind, run_pure_ok, Table.updateWhere_eq_self fun i hmem heq =>
      absurd (of_decide_eq_true heq) (hi i hmem)]
    exact ⟨rfl, rfl⟩

end Item

section Upload
variable {a : UploadDocument}

/-- The item of the type stands as uploaded, and names the document. -/
def linkedTables (shipmentId : Uuid) (docType : String) (documentId : Uuid) (db : DocumentDatabase) :
    DocumentDatabase :=
  itemTables shipmentId docType (ChecklistItem.link documentId) (keepsKey_link documentId) db

/-- The tables after the next version of `d`. -/
def revisedTables (caller : Caller) (a : UploadDocument) (d : Document) (db : DocumentDatabase) :
    DocumentDatabase :=
  linkedTables a.shipmentId a.docType d.id
    { db with
      documents := db.documents.update d.id (Document.revise caller a) (keepsKey_revise caller a)
      documentVersions := db.documentVersions.insert (newVersion caller a (d.revise caller a))
        (takesKey_newVersion caller a _) }

/-- The tables after the first document of its type. -/
def createdTables (caller : Caller) (a : UploadDocument) (db : DocumentDatabase) :
    DocumentDatabase :=
  linkedTables a.shipmentId a.docType db.documents.freshKey
    { db with
      documents := db.documents.insert (newDocument caller a) (takesKey_newDocument caller a)
      documentVersions := db.documentVersions.insert
        (newVersion caller a (newDocument caller a db.documents.freshKey))
        (takesKey_newVersion caller a _) }

theorem run_nextDocument_ok (h : Consistent db) :
    (nextDocument caller a).run db = .ok d db' ↔
      (∃ e ∈ db.documents, ofType a.shipmentId a.docType e ∧ d = e.revise caller a ∧
        db' = { db with documents :=
          db.documents.update e.id (Document.revise caller a) (keepsKey_revise caller a) }) ∨
      ((∀ e ∈ db.documents, ¬ ofType a.shipmentId a.docType e) ∧ shipped a.shipmentId db ∧
        d = newDocument caller a db.documents.freshKey ∧
        db' = { db with documents :=
          db.documents.insert (newDocument caller a) (takesKey_newDocument caller a) }) := by
  unfold nextDocument setDocument addDocument
  rw [run_get_bind_ok]
  rcases filter_ofType_cases h a.shipmentId a.docType with ⟨hnil, hnone⟩ | ⟨e, he, het, hrows⟩
  · rw [hnil, oneOrNone_nil_bind, run_failIf_bind_ok, not_not]
    constructor
    · rintro ⟨hshipped, hrun⟩
      obtain ⟨rfl, rfl⟩ := EStateM.Result.ok.inj hrun
      exact Or.inr ⟨hnone, hshipped, rfl, rfl⟩
    · rintro (⟨e, he, het, _⟩ | ⟨_, hshipped, rfl, rfl⟩)
      · exact absurd het (hnone e he)
      · exact ⟨hshipped, rfl⟩
  · rw [hrows, oneOrNone_singleton_bind, run_modify_bind_ok, run_pure_ok]
    constructor
    · rintro ⟨rfl, rfl⟩
      exact Or.inl ⟨e, he, het, rfl, rfl⟩
    · rintro (⟨e', he', het', rfl, rfl⟩ | ⟨hnone, _⟩)
      · obtain rfl := h.eq_document he' he het' het
        exact ⟨rfl, rfl⟩
      · exact absurd het (hnone e he)

theorem run_uploadDocument_ok (h : Consistent db) :
    (uploadDocument caller a).run db = .ok d db' ↔
      (∃ e ∈ db.documents, ofType a.shipmentId a.docType e ∧ d = e.revise caller a ∧
        db' = revisedTables caller a e db) ∨
      ((∀ e ∈ db.documents, ¬ ofType a.shipmentId a.docType e) ∧ shipped a.shipmentId db ∧
        d = newDocument caller a db.documents.freshKey ∧ db' = createdTables caller a db) := by
  unfold uploadDocument addVersion
  rw [run_bind_ok]
  simp only [run_nextDocument_ok h, run_modify_bind_ok]
  have hrest : ∀ t : DocumentDatabase, t.checklistItems = db.checklistItems → ∀ e o u,
      ((do
        updateItem a.shipmentId a.docType (ChecklistItem.link e) (keepsKey_link e)
        pure o : DocumentM Document).run t = .ok d u ↔
      o = d ∧ itemTables a.shipmentId a.docType (ChecklistItem.link e) (keepsKey_link e) t = u) := by
    intro t ht e o u
    rw [run_bind_of_ok (run_updateItem (ht ▸ h.oneItem)), run_pure_ok]
  constructor
  · rintro ⟨o, t, ⟨e, he, het, rfl, rfl⟩ | ⟨hnone, hshipped, rfl, rfl⟩, hrun⟩
    · obtain ⟨rfl, rfl⟩ := (hrest _ (by rfl) _ _ _).mp hrun
      exact Or.inl ⟨e, he, het, rfl, rfl⟩
    · obtain ⟨rfl, rfl⟩ := (hrest _ (by rfl) _ _ _).mp hrun
      exact Or.inr ⟨hnone, hshipped, rfl, rfl⟩
  · rintro (⟨e, he, het, rfl, rfl⟩ | ⟨hnone, hshipped, rfl, rfl⟩)
    · exact ⟨_, _, Or.inl ⟨e, he, het, rfl, rfl⟩, (hrest _ (by rfl) _ _ _).mpr ⟨rfl, rfl⟩⟩
    · exact ⟨_, _, Or.inr ⟨hnone, hshipped, rfl, rfl⟩, (hrest _ (by rfl) _ _ _).mpr ⟨rfl, rfl⟩⟩

end Upload

/-- What a decision writes; `item` is the status that the checklist takes over, if any. -/
structure Decision where
  status : DocumentStatus
  rejectionReason : Option String
  item : Option ItemStatus

def approval : Decision := ⟨.approved, none, some .approved⟩

def rejection (reason : String) : Decision := ⟨.rejected, some reason, some .missing⟩

def revision (notes : String) : Decision := ⟨.revisionRequested, some notes, none⟩

/-- The request decides on the document, and may. -/
inductive Decides (db : DocumentDatabase) : Request → Document → Decision → Prop where
  | approve {a : ApproveDocument} {d : Document} (hd : d ∈ db.documents) (hid : d.id = a.documentId)
      (hgate : ¬ gateCloses a.userRoles d.docType) : Decides db (.approveDocument a) d approval
  | reject {a : RejectDocument} {d : Document} (hd : d ∈ db.documents) (hid : d.id = a.documentId) :
      Decides db (.rejectDocument a) d (rejection a.reason)
  | revise {a : RequestRevision} {d : Document} (hd : d ∈ db.documents)
      (hid : d.id = a.documentId) : Decides db (.requestRevision a) d (revision a.notes)

theorem Decides.mem {r : Request} {x : Decision} (h : Decides db r d x) : d ∈ db.documents := by
  cases h with
  | approve hd _ _ => exact hd
  | reject hd _ => exact hd
  | revise hd _ => exact hd

def Decision.onItem (x : Decision) (i : ChecklistItem) : ChecklistItem :=
  { i with status := x.item.getD i.status }

theorem keepsKey_onItem (x : Decision) : KeepsKey x.onItem := ⟨fun _ => rfl⟩

/-- The tables after a decision on `d`. -/
def decidedTables (x : Decision) (d : Document) (db : DocumentDatabase) : DocumentDatabase :=
  itemTables d.shipmentId d.docType x.onItem (keepsKey_onItem x)
    { db with
      documents := db.documents.update d.id (Document.decide x.status x.rejectionReason)
        (keepsKey_decide x.status x.rejectionReason) }

section Decide
variable {rules : List ChecklistRule} {r : Request} {x : Decision}

theorem run_findDocument_ok {documentId : Uuid} :
    (findDocument documentId).run db = .ok d db' ↔
      (d ∈ db.documents ∧ d.id = documentId) ∧ db = db' := by
  unfold findDocument
  rw [run_get_bind_ok, run_orFail_ok, Table.find?_eq_some_iff]
  rfl

theorem run_decision (h : Consistent db) {status : DocumentStatus} {reason : Option String}
    {item : ItemStatus} {o : Document} :
    ((do
      setDocument d (Document.decide status reason) (keepsKey_decide status reason)
      updateItem d.shipmentId d.docType (ChecklistItem.setStatus item) (keepsKey_setStatus item)
      pure o : DocumentM Document)).run db = .ok o (decidedTables ⟨status, reason, some item⟩ d db) := by
  unfold setDocument
  rw [run_modify_bind_ok, run_bind_of_ok (run_updateItem ?_), run_pure_ok]
  · exact ⟨rfl, rfl⟩
  · exact h.oneItem

theorem run_approveDocument_ok (h : Consistent db) {a : ApproveDocument} :
    (approveDocument a).run db = .ok d db' ↔ ∃ e, Decides db (.approveDocument a) e approval ∧
      d = e.decide .approved none ∧ db' = decidedTables approval e db := by
  unfold approveDocument
  rw [run_bind_ok]
  simp only [run_findDocument_ok, run_failIf_bind_ok]
  constructor
  · rintro ⟨e, _, ⟨⟨he, hid⟩, rfl⟩, hgate, hrun⟩
    rw [run_decision h] at hrun
    obtain ⟨rfl, rfl⟩ := EStateM.Result.ok.inj hrun
    exact ⟨e, .approve he hid hgate, rfl, rfl⟩
  · rintro ⟨e, hdecides, rfl, rfl⟩
    cases hdecides with
    | approve he hid hgate => exact ⟨e, db, ⟨⟨he, hid⟩, rfl⟩, hgate, run_decision h⟩

theorem run_rejectDocument_ok (h : Consistent db) {a : RejectDocument} :
    (rejectDocument a).run db = .ok d db' ↔
      ∃ e, Decides db (.rejectDocument a) e (rejection a.reason) ∧
        d = e.decide .rejected (some a.reason) ∧ db' = decidedTables (rejection a.reason) e db := by
  unfold rejectDocument
  rw [run_bind_ok]
  simp only [run_findDocument_ok]
  constructor
  · rintro ⟨e, _, ⟨⟨he, hid⟩, rfl⟩, hrun⟩
    rw [run_decision h] at hrun
    obtain ⟨rfl, rfl⟩ := EStateM.Result.ok.inj hrun
    exact ⟨e, .reject he hid, rfl, rfl⟩
  · rintro ⟨e, hdecides, rfl, rfl⟩
    cases hdecides with
    | reject he hid => exact ⟨e, db, ⟨⟨he, hid⟩, rfl⟩, run_decision h⟩

/-- A revision leaves the item's status as it is. -/
theorem onItem_revision (notes : String) (i : ChecklistItem) : (revision notes).onItem i = i := rfl

theorem decidedTables_revision (notes : String) : decidedTables (revision notes) d db =
    { db with
      documents := db.documents.update d.id (Document.decide .revisionRequested (some notes))
        (keepsKey_decide _ _) } := by
  unfold decidedTables itemTables
  rw [Table.updateWhere_eq_self fun i _ _ => onItem_revision notes i]
  rfl

theorem run_requestRevision_ok {a : RequestRevision} :
    (requestRevision a).run db = .ok d db' ↔
      ∃ e, Decides db (.requestRevision a) e (revision a.notes) ∧
        d = e.decide .revisionRequested (some a.notes) ∧
        db' = decidedTables (revision a.notes) e db := by
  unfold requestRevision setDocument
  rw [run_bind_ok]
  simp only [run_findDocument_ok, run_modify_bind_ok, run_pure_ok, decidedTables_revision]
  constructor
  · rintro ⟨e, _, ⟨⟨he, hid⟩, rfl⟩, rfl, rfl⟩
    exact ⟨e, .revise he hid, rfl, rfl⟩
  · rintro ⟨e, hdecides, rfl, rfl⟩
    cases hdecides with
    | revise he hid => exact ⟨e, db, ⟨⟨he, hid⟩, rfl⟩, rfl, rfl⟩

end Decide

section Generate
variable {rules : List ChecklistRule} {a : GenerateChecklist}

def addedEntries (rules : List ChecklistRule) (a : GenerateChecklist) (db : DocumentDatabase) :
    List ChecklistEntry :=
  if shipped a.shipmentId db then
    newEntries a.shipmentId db.checklistItems
      (DocumentChecklistEngine.generateChecklist rules a.context)
  else []

def generatedTables (rules : List ChecklistRule) (a : GenerateChecklist) (db : DocumentDatabase) :
    DocumentDatabase :=
  { db with checklistItems := addItems a.shipmentId db.checklistItems (addedEntries rules a db) }

theorem commit_generateChecklist :
    commit (generateChecklist rules a) db = generatedTables rules a db := by
  have hrun : ∀ o t, (generateChecklist rules a).run db = .ok o t ↔
      (newEntries a.shipmentId db.checklistItems
          (DocumentChecklistEngine.generateChecklist rules a.context) ≠ [] →
        shipped a.shipmentId db) ∧
      DocumentChecklistEngine.generateChecklist rules a.context = o ∧
      { db with
        checklistItems := addItems a.shipmentId db.checklistItems
          (newEntries a.shipmentId db.checklistItems
            (DocumentChecklistEngine.generateChecklist rules a.context)) } = t := by
    intro o t
    unfold generateChecklist
    rw [run_get_bind_ok, run_failIf_bind_ok, run_modify_bind_ok, run_pure_ok, not_and_not_right]
  unfold generatedTables addedEntries
  split_ifs with hshipped
  · exact commit_of_ok ((hrun _ _).mpr ⟨fun _ => hshipped, rfl, rfl⟩)
  · rcases commit_cases (generateChecklist rules a) db with hsame | ⟨o, hok⟩
    · rw [hsame]
      rfl
    · obtain ⟨hneeds, _, ht⟩ := (hrun _ _).mp hok
      rw [← ht, not_not.mp fun hne => hshipped (hneeds hne)]

theorem mem_addedEntries {e : ChecklistEntry} (h : e ∈ addedEntries rules a db) :
    shipped a.shipmentId db ∧ e ∈ DocumentChecklistEngine.generateChecklist rules a.context ∧
      ∀ i ∈ db.checklistItems, ¬ itemFor a.shipmentId e.docTypeCode i := by
  unfold addedEntries newEntries at h
  split_ifs at h with hshipped
  · rw [List.mem_filter, decide_eq_true_eq] at h
    exact ⟨hshipped, h.1, fun i hi hit => h.2 ⟨i, hi, hit⟩⟩
  · cases h

theorem nodup_addedEntries (rules : List ChecklistRule) (a : GenerateChecklist)
    (db : DocumentDatabase) : ((addedEntries rules a db).map (·.docTypeCode)).Nodup := by
  have hnodup := nodup_generateChecklist rules a.context
  unfold addedEntries newEntries
  split_ifs
  · exact hnodup.sublist (List.filter_sublist.map _)
  · exact List.nodup_nil

theorem mem_addItems {items : Table ChecklistItem} {entries : List ChecklistEntry}
    {i : ChecklistItem} (h : i ∈ addItems shipmentId items entries) :
    i ∈ items ∨ ∃ e ∈ entries, ∃ k, i = newItem shipmentId e k := Table.mem_foldl_insert h

end Generate

/-- The second row is of the same shipment and type. -/
def SameType (d e : Document) : Prop := ofType d.shipmentId d.docType e

theorem Consistent.write (h : Consistent db) {documents : Table Document}
    (documentVersions : Table DocumentVersion) {f : ChecklistItem → ChecklistItem}
    {hf : KeepsKey f} (hfollows : Table.Follows SameType db.documents documents)
    (hone : documents.Unique fun d => (d.shipmentId, d.docType))
    (hshipped : ∀ d ∈ documents, shipped d.shipmentId db)
    (hkeeps : ∀ i, itemFor i.shipmentId i.docTypeCode (f i))
    (hlinked : ∀ i ∈ db.checklistItems, itemFor shipmentId docType i → ∀ id ∈ (f i).documentId,
      ∃ d ∈ documents, d.id = id ∧ ofType shipmentId docType d) :
    Consistent (itemTables shipmentId docType f hf
      { db with documents := documents, documentVersions := documentVersions }) where
  oneDocument := hone
  oneItem := h.oneItem.updateWhere fun i => Prod.ext (hkeeps i).1 (hkeeps i).2
  linked := by
    intro i hi id hid
    obtain ⟨j, hj, rfl⟩ := Table.mem_updateWhere.mp hi
    split_ifs at hid ⊢ with hjt
    · obtain ⟨hs, ht⟩ := hkeeps j
      rw [hs, ht, (of_decide_eq_true hjt).1, (of_decide_eq_true hjt).2]
      exact hlinked j hj (of_decide_eq_true hjt) id hid
    · obtain ⟨d, hd, hdid, hdt⟩ := h.linked j hj id hid
      obtain ⟨e, he, hkey, het⟩ := hfollows d hd
      exact ⟨e, he, hkey.trans hdid, het.1.trans hdt.1, het.2.trans hdt.2⟩
  onShipment := hshipped

section Keep
variable {a : UploadDocument} {x : Decision} {rules : List ChecklistRule}

theorem sameType_refl (d : Document) : SameType d d := ⟨rfl, rfl⟩

theorem follows_revise : Table.Follows SameType db.documents
    (db.documents.update d.id (Document.revise caller a) (keepsKey_revise caller a)) :=
  Table.follows_update_of_forall sameType_refl fun _ => ⟨rfl, rfl⟩

theorem follows_decide : Table.Follows SameType db.documents
    (db.documents.update d.id (Document.decide x.status x.rejectionReason) (keepsKey_decide _ _)) :=
  Table.follows_update_of_forall sameType_refl fun _ => ⟨rfl, rfl⟩

theorem consistent_revised (h : Consistent db) (hd : d ∈ db.documents)
    (hdt : ofType a.shipmentId a.docType d) : Consistent (revisedTables caller a d db) := by
  refine h.write _ follows_revise (h.oneDocument.update fun _ => rfl) ?_ (fun _ => ⟨rfl, rfl⟩)
    fun i _ _ id hid => ?_
  · exact (Table.forall_mem_update hd (P := fun e : Document => shipped e.shipmentId db)).mpr
      ⟨fun e he _ => h.onShipment e he, h.onShipment d hd⟩
  · refine ⟨d.revise caller a, (Table.mem_update_of_mem hd).mpr (Or.inr rfl), ?_, hdt⟩
    exact Option.some.inj hid

theorem consistent_created (h : Consistent db) (hnone : ∀ d ∈ db.documents,
    ¬ ofType a.shipmentId a.docType d) (hshipped : shipped a.shipmentId db) :
    Consistent (createdTables caller a db) := by
  refine h.write _ (Table.follows_insert sameType_refl) (h.oneDocument.insert fun d hd heq => ?_)
    ((Table.forall_mem_insert (P := fun e : Document => shipped e.shipmentId db)).mpr
      ⟨h.onShipment, hshipped⟩) (fun _ => ⟨rfl, rfl⟩)
    fun i _ _ id hid => ?_
  · exact hnone d hd ⟨(Prod.ext_iff.mp heq).1, (Prod.ext_iff.mp heq).2⟩
  · exact ⟨_, Table.mem_insert_self, Option.some.inj hid, rfl, rfl⟩

theorem consistent_decided (h : Consistent db) (hd : d ∈ db.documents) :
    Consistent (decidedTables x d db) := by
  refine h.write db.documentVersions follows_decide
    (h.oneDocument.update fun _ => rfl) ?_ (fun _ => ⟨rfl, rfl⟩) fun i hi hit id hid => ?_
  · exact (Table.forall_mem_update hd (P := fun e : Document => shipped e.shipmentId db)).mpr
      ⟨fun e he _ => h.onShipment e he, h.onShipment d hd⟩
  · obtain ⟨e, he, heid, het⟩ := h.linked i hi id hid
    obtain ⟨e', he', hkey, het'⟩ := follows_decide e he
    exact ⟨e', he', hkey.trans heid, (het'.1.trans het.1).trans hit.1,
      (het'.2.trans het.2).trans hit.2⟩

theorem consistent_generated (h : Consistent db) {a : GenerateChecklist} :
    Consistent (generatedTables rules a db) where
  oneDocument := h.oneDocument
  oneItem := by
    refine Table.Unique.foldl_insert (h := fun e => (a.shipmentId, e.docTypeCode))
      (fun _ _ => rfl) h.oneItem ?_ fun i hi e he heq => ?_
    · have hnodup := (nodup_addedEntries rules a db).map
        (f := fun c => (a.shipmentId, c)) fun _ _ heq => (Prod.ext_iff.mp heq).2
      rwa [List.map_map] at hnodup
    · exact (mem_addedEntries he).2.2 i hi ⟨(Prod.ext_iff.mp heq).1, (Prod.ext_iff.mp heq).2⟩
  linked := by
    intro i hi id hid
    rcases mem_addItems hi with hi | ⟨e, _, k, rfl⟩
    · exact h.linked i hi id hid
    · cases hid
  onShipment := h.onShipment

/-- What a request keeps: one obligation for each operation that goes through. -/
theorem step_keeps {I : DocumentDatabase → Prop} {i : Caller × Request} (h : Consistent db)
    (hdb : I db)
    (hrevise : ∀ a, ∀ d ∈ db.documents, i.2 = .uploadDocument a → ofType a.shipmentId a.docType d →
      I (revisedTables i.1 a d db))
    (hcreate : ∀ a, i.2 = .uploadDocument a →
      (∀ d ∈ db.documents, ¬ ofType a.shipmentId a.docType d) → shipped a.shipmentId db →
      I (createdTables i.1 a db))
    (hdecide : ∀ d x, d ∈ db.documents → Decides db i.2 d x → I (decidedTables x d db))
    (hgenerate : ∀ a, i.2 = .generateChecklist a → I (generatedTables rules a db)) :
    I (step rules db i) := by
  obtain ⟨caller, request⟩ := i
  cases request with
  | uploadDocument a =>
    refine commit_keeps hdb fun o t hok => ?_
    rcases (run_uploadDocument_ok h).mp hok with ⟨d, hd, hdt, _, rfl⟩ | ⟨hnone, hshipped, _, rfl⟩
    · exact hrevise a d hd rfl hdt
    · exact hcreate a rfl hnone hshipped
  | approveDocument a =>
    refine commit_keeps hdb fun o t hok => ?_
    obtain ⟨d, hdecides, _, rfl⟩ := (run_approveDocument_ok h).mp hok
    exact hdecide d _ hdecides.mem hdecides
  | rejectDocument a =>
    refine commit_keeps hdb fun o t hok => ?_
    obtain ⟨d, hdecides, _, rfl⟩ := (run_rejectDocument_ok h).mp hok
    exact hdecide d _ hdecides.mem hdecides
  | requestRevision a =>
    refine commit_keeps hdb fun o t hok => ?_
    obtain ⟨d, hdecides, _, rfl⟩ := run_requestRevision_ok.mp hok
    exact hdecide d _ hdecides.mem hdecides
  | generateChecklist a =>
    change I (commit (generateChecklist rules a) db)
    rw [commit_generateChecklist]
    exact hgenerate a rfl

theorem step_of_decides (h : Consistent db) {i : Caller × Request} (hi : Decides db i.2 d x) :
    step rules db i = decidedTables x d db := by
  obtain ⟨caller, request⟩ := i
  cases hi with
  | approve hd hid hgate =>
    exact commit_of_ok ((run_approveDocument_ok h).mpr ⟨d, .approve hd hid hgate, rfl, rfl⟩)
  | reject hd hid => exact commit_of_ok ((run_rejectDocument_ok h).mpr ⟨d, .reject hd hid, rfl, rfl⟩)
  | revise hd hid => exact commit_of_ok (run_requestRevision_ok.mpr ⟨d, .revise hd hid, rfl, rfl⟩)

theorem consistent_step (h : Consistent db) (i : Caller × Request) :
    Consistent (step rules db i) :=
  step_keeps h h (fun _ _ hd _ hdt => consistent_revised h hd hdt)
    (fun _ _ hnone hshipped => consistent_created h hnone hshipped)
    (fun _ _ hd _ => consistent_decided h hd) fun _ _ => consistent_generated h

end Keep

/-- No document has been uploaded and no checklist generated yet. -/
structure Fresh (db : DocumentDatabase) : Prop where
  documents : db.documents = .empty
  documentVersions : db.documentVersions = .empty
  checklistItems : db.checklistItems = .empty

theorem Fresh.consistent (h : Fresh db) : Consistent db where
  oneDocument := by
    rw [h.documents]
    exact fun d hd => absurd hd (Table.not_mem_empty d)
  oneItem := by
    rw [h.checklistItems]
    exact fun i hi => absurd hi (Table.not_mem_empty i)
  linked := by
    rw [h.checklistItems]
    exact fun i hi => absurd hi (Table.not_mem_empty i)
  onShipment := by
    rw [h.documents]
    exact fun d hd => absurd hd (Table.not_mem_empty d)

end Friet.Documents
