import Friet.Documents.Steps
import Friet.Eta.Isolation
import Friet.Exceptions.Steps
import Friet.Tenancy.Rows

/-!
# What a call does

Every call either reads alone or writes rows of one shipment: the one of the document it
has found, the one of the leg, or the one it names. What it writes is stated here once,
and that it leaves every reference in place.
-/

set_option autoImplicit false

namespace Friet.Tenancy

open Session
open Documents (ChecklistItem Document DocumentDatabase Document.decide gateCloses itemFor keepsKey_decide
  keepsKey_setStatus)
open Eta (Accepted EtaDatabase EtaText RecordVersion recordedTables)
open Exceptions (EscalationText)
open Tracking (GetTimeline)

variable {o : RowOrders} {caller : Caller} {db t : ServiceDatabase}

section Documents

theorem keepsShipment_approve : KeepsShipment (Document.decide .approved none) :=
  ⟨keepsKey_decide _ _, fun _ => rfl⟩

/-- The approval of the checklist item that was found, if one was. -/
def withApprovedItem (item : Option ChecklistItem) (db : ServiceDatabase) : ServiceDatabase :=
  item.elim db fun i =>
    withItem i.id (ChecklistItem.setStatus .approved) (keepsKey_setStatus .approved) db

def withApproval (d : Document) (item : Option ChecklistItem) (db : ServiceDatabase) :
    ServiceDatabase :=
  withApprovedItem item (withDocument d.id (Document.decide .approved none) keepsShipment_approve db)

/-- The document was found, its gate is open, and so may the item of its type have been. -/
structure Approvable (a : ApproveDocument) (d : Document) (item : Option ChecklistItem)
    (db : ServiceDatabase) : Prop where
  mem : d ∈ db.documents
  id : d.id = a.documentId
  gate : ¬ gateCloses a.userRoles d.docType
  item : db.checklistItems.rows.filter (itemFor d.shipmentId d.docType ·) = item.toList

theorem run_listShipmentDocuments_ok {a : ListShipmentDocuments}
    {x : List Documents.ListedDocument} (h : (listShipmentDocuments o caller a).run db = .ok x t) :
    t = db := by
  unfold listShipmentDocuments at h
  rw [run_get_bind_ok, run_orRaise_ok] at h
  exact h.2.symm

/-- The view is in the log, if the user is known. -/
def withView (caller : Caller) (a : GetDocument) (documentId : Uuid) (db : ServiceDatabase) :
    ServiceDatabase :=
  a.actorId.elim db fun actorId =>
    withLog (accessLog documentId (some actorId) "VIEW" a.ipAddress caller.now)
      (takesKey_accessLog ..) db

theorem run_logView {a : GetDocument} {documentId : Uuid} :
    (logView caller a documentId).run db = .ok () (withView caller a documentId db) := by
  unfold logView withView
  cases a.actorId with
  | none => rfl
  | some actorId => rfl

theorem run_getDocument_ok {a : GetDocument} {x : DocumentDetail} :
    (getDocument o caller a).run db = .ok x t ↔
      ∃ d ∈ db.documents, d.id = a.documentId ∧
        documentDetail d (versionsOf o.versions a.documentId db.documentVersions) = x ∧
        withView caller a d.id db = t := by
  unfold getDocument onDocuments
  rw [run_bind_ok]
  simp only [run_onPart_ok, Documents.run_findDocument_ok, run_get_bind_ok]
  constructor
  · rintro ⟨d, _, ⟨_, ⟨⟨hd, hid⟩, rfl⟩, rfl⟩, hrun⟩
    rw [run_bind_of_ok run_logView, run_pure_ok] at hrun
    exact ⟨d, hd, hid, hrun⟩
  · rintro ⟨d, hd, hid, hrun⟩
    refine ⟨d, _, ⟨_, ⟨⟨hd, hid⟩, rfl⟩, rfl⟩, ?_⟩
    rw [run_bind_of_ok run_logView, run_pure_ok]
    exact hrun

theorem run_updateItem_ok {shipmentId : Uuid} {docType : String} {u : Unit}
    {f : ChecklistItem → ChecklistItem} {hf : KeepsKey f} {docs docs' : DocumentDatabase} :
    (Documents.updateItem shipmentId docType f hf).run docs = .ok u docs' ↔
      ∃ item : Option ChecklistItem, docs.checklistItems.rows.filter (itemFor shipmentId docType ·) = item.toList ∧
        item.elim docs (fun i =>
          { docs with checklistItems := docs.checklistItems.update i.id f hf }) = docs' := by
  unfold Documents.updateItem
  rw [run_get_bind_ok, run_oneOrNone_bind_ok]
  refine exists_congr fun item => and_congr_right fun _ => ?_
  cases item with
  | none =>
    rw [run_pure_ok]
    exact and_iff_right rfl
  | some i => exact run_modify_ok

theorem run_approval_ok {a : ApproveDocument} {e : Document} {docs : DocumentDatabase} :
    (Documents.approveDocument a.toApproveDocument).run db.toDocumentDatabase = .ok e docs ↔
      ∃ d item, Approvable a d item db ∧ d.decide .approved none = e ∧
        (withApproval d item db).toDocumentDatabase = docs := by
  have hstate : ∀ (d : Document) (item : Option ChecklistItem),
      (withApproval d item db).toDocumentDatabase =
        item.elim (withDocument d.id (Document.decide .approved none) keepsShipment_approve
          db).toDocumentDatabase fun i =>
            (withItem i.id (ChecklistItem.setStatus .approved) (keepsKey_setStatus .approved)
              (withDocument d.id (Document.decide .approved none) keepsShipment_approve
                db)).toDocumentDatabase := by
    intro d item
    cases item with
    | none => rfl
    | some i => rfl
  unfold Documents.approveDocument Documents.setDocument
  rw [run_bind_ok]
  simp only [Documents.run_findDocument_ok, run_failIf_bind_ok, run_modify_bind_ok]
  constructor
  · rintro ⟨d, _, ⟨⟨hd, hid⟩, rfl⟩, hgate, hrun⟩
    obtain ⟨_, docs', hitem, hrun⟩ := run_bind_ok.mp hrun
    obtain ⟨item, hrows, rfl⟩ := run_updateItem_ok.mp hitem
    obtain ⟨rfl, rfl⟩ := run_pure_ok.mp hrun
    exact ⟨d, item, ⟨hd, hid, hgate, hrows⟩, rfl, hstate d item⟩
  · rintro ⟨d, item, h, rfl, rfl⟩
    refine ⟨d, _, ⟨⟨h.mem, h.id⟩, rfl⟩, h.gate, run_bind_ok.mpr
      ⟨(), (withApproval d item db).toDocumentDatabase, ?_, run_pure_ok.mpr ⟨rfl, rfl⟩⟩⟩
    exact run_updateItem_ok.mpr ⟨item, h.item, (hstate d item).symm⟩

section Approve
variable [Text]

/-- The approval is in the log and in the audit trail. -/
def withApprovalLogged (caller : Caller) (a : ApproveDocument) (documentId : Uuid)
    (db : ServiceDatabase) : ServiceDatabase :=
  { withLog (accessLog documentId (some caller.actorId) "APPROVE" a.ipAddress caller.now)
      (takesKey_accessLog ..) db with
    documentAudit := AuditService.record (some caller.tenantId) (some caller.actorId) "document"
      (uuidStr documentId) "document.approve" none (some ⟨.approved, a.notes⟩) db.documentAudit }

theorem run_approveDocument_ok {a : ApproveDocument} {x : ApprovedDocument} :
    (approveDocument caller a).run db = .ok x t ↔ ∃ d item, Approvable a d item db ∧
      (⟨d.id, .approved, d.docType⟩ : ApprovedDocument) = x ∧
        withApprovalLogged caller a d.id (withApproval d item db) = t := by
  have hstate : ∀ (d : Document) (item : Option ChecklistItem),
      ({ db with toDocumentDatabase := (withApproval d item db).toDocumentDatabase } :
        ServiceDatabase) = withApproval d item db := by
    intro d item
    cases item with
    | none => rfl
    | some i => rfl
  unfold approveDocument onDocuments logAccess
  rw [run_bind_ok]
  simp only [run_onPart_ok, run_approval_ok, run_modify_bind_ok, run_pure_ok]
  constructor
  · rintro ⟨_, _, ⟨_, ⟨d, item, h, rfl, rfl⟩, rfl⟩, rfl, rfl⟩
    rw [hstate]
    exact ⟨d, item, h, rfl, rfl⟩
  · rintro ⟨d, item, h, rfl, rfl⟩
    refine ⟨_, _, ⟨_, ⟨d, item, h, rfl, rfl⟩, rfl⟩, rfl, ?_⟩
    rw [hstate]
    rfl

end Approve

end Documents

section Calls
variable [Text] [EtaText] [EscalationText]

omit [EscalationText] in
theorem run_recordVersion_ok {a : RecordVersion} :
    (∃ x, (recordVersion o caller a).run db = .ok x t) ↔
      ∃ type leg, Accepted (recordingOf o caller a) db.eta type leg ∧
        withEta (recordedTables (recordingOf o caller a) type db.eta) db = t := by
  unfold recordVersion onEta
  simp only [run_onPart_ok]
  constructor
  · rintro ⟨x, u, hrun, rfl⟩
    obtain ⟨type, leg, h, rfl⟩ := Eta.run_recordVersion_ok.mp ⟨x, hrun⟩
    exact ⟨type, leg, h, rfl⟩
  · rintro ⟨type, leg, h, rfl⟩
    obtain ⟨x, hrun⟩ := Eta.run_recordVersion_ok.mpr ⟨type, leg, h, rfl⟩
    exact ⟨x, _, hrun, rfl⟩

/-- The events and the audit record of an exception that was opened. -/
def withAnnounced (caller : Caller) (a : CreateException) (e : ShipmentException)
    (db : ServiceDatabase) : ServiceDatabase :=
  { db with
    exceptionEvents := (Exceptions.evaluateExceptionEscalations (escalatedException a e)
      caller.now).foldl (announce caller e) db.exceptionEvents
    exceptionAudit := AuditService.record (some caller.tenantId) a.userId "shipment_exception"
      (uuidStr e.id) "exception.created" none
      (some ⟨e.exceptionType, e.severity, e.domain, e.status⟩) db.exceptionAudit }

omit [EtaText] in
theorem run_createException_ok {a : CreateException} :
    (∃ x, (createException caller a).run db = .ok x t) ↔
      ∃ config severity, Exceptions.Recognised a.toCreateException config severity ∧
        shipped db a.shipmentId ∧ ∃ e, withAnnounced caller a e
          (withException (Exceptions.exceptionRow caller a.toCreateException config severity
            (Exceptions.finalDomain a.toCreateException config)) Exceptions.takesKey_exceptionRow
              db) = t ∧ e = Exceptions.exceptionRow caller a.toCreateException config severity
                (Exceptions.finalDomain a.toCreateException config)
                  db.shipmentExceptions.freshKey := by
  unfold createException onFinance
  simp only [run_bind_ok, run_onPart_ok, Exceptions.run_createException_ok, run_modify_ok,
    run_pure_ok]
  constructor
  · rintro ⟨x, e, _, ⟨_, ⟨config, severity, h, hshipped, rfl, rfl⟩, rfl⟩, _, _, rfl, _, rfl⟩
    exact ⟨config, severity, h, hshipped, _, rfl, rfl⟩
  · rintro ⟨config, severity, h, hshipped, e, rfl, rfl⟩
    exact ⟨_, _, _, ⟨_, ⟨config, severity, h, hshipped, rfl, rfl⟩, rfl⟩, (), _, rfl, rfl, rfl⟩

omit [EtaText] [EscalationText] in
theorem run_getTimeline_ok {a : GetTimeline} {x : List Tracking.TimelineEntry}
    (h : (getTimeline o a).run db = .ok x t) : t = db := by
  unfold getTimeline at h
  rw [run_get_bind_ok, run_orRaise_ok] at h
  exact h.2.symm

/-- What the call would write is of a shipment of these tenants. -/
def Touches (q : Uuid → Prop) (db : ServiceDatabase) : Call → Prop
  | .listShipmentDocuments _ => False
  | .getDocument a => documentOf q db a.documentId
  | .approveDocument a => documentOf q db a.documentId
  | .recordVersion a => ownedBy q db a.shipmentId
  | .createException a => ownedBy q db a.shipmentId
  | .getTimeline _ => False

omit [Text] [EtaText] [EscalationText] in
theorem run_return_ok {α : Type} {m : TenancyM α} {f : α → Answer} {x : Answer} :
    (do pure (f (← m)) : TenancyM Answer).run db = .ok x t ↔ ∃ y, m.run db = .ok y t ∧ f y = x := by
  rw [run_bind_ok]
  simp only [run_pure_ok]
  constructor
  · rintro ⟨y, _, hrun, hx, rfl⟩
    exact ⟨y, hrun, hx⟩
  · rintro ⟨y, hrun, hx⟩
    exact ⟨y, t, hrun, hx, rfl⟩

omit [EtaText] [EscalationText] [Text] in
theorem rowsOf_withView {q : Uuid → Prop} [DecidablePred q] {a : GetDocument} {documentId : Uuid}
    (h : ¬ documentOf q db documentId) :
    rowsOf q (withView caller a documentId db) = rowsOf q db := by
  unfold withView
  cases a.actorId with
  | none => rfl
  | some actorId => exact rowsOf_withLog fun _ => h

omit [EtaText] [EscalationText] in
theorem rowsOf_approved {q : Uuid → Prop} [DecidablePred q] {a : ApproveDocument} {d : Document}
    {item : Option ChecklistItem} (h : Approvable a d item db)
    (hnot : ¬ documentOf q db a.documentId) :
    rowsOf q (withApprovalLogged caller a d.id (withApproval d item db)) = rowsOf q db := by
  rw [← h.id] at hnot
  have hshipment : ¬ ownedBy q db d.shipmentId := mt (documentOf_id_iff h.mem).mpr hnot
  have hdocument : rowsOf q (withDocument d.id (Document.decide .approved none)
      keepsShipment_approve db) = rowsOf q db := rowsOf_withDocument hnot
  have hitem : rowsOf q (withApproval d item db) = rowsOf q db := by
    unfold withApproval withApprovedItem
    cases hsome : item with
    | none => exact hdocument
    | some i =>
      have hkept : ∀ j : ChecklistItem,
          (j.setStatus .approved).shipmentId = j.shipmentId := fun _ => rfl
      refine (rowsOf_withItem hkept fun j hj hid => ?_).trans hdocument
      have hi : i ∈ db.checklistItems.rows.filter (itemFor d.shipmentId d.docType ·) := by
        rw [h.item, hsome]
        exact List.mem_singleton_self i
      obtain ⟨hmem, hfor⟩ := List.mem_filter.mp hi
      rw [Table.eq_of_key_eq hj hmem hid, (of_decide_eq_true hfor).1]
      exact hshipment
  have hdecided : ¬ documentOf q (withDocument d.id (Document.decide .approved none)
      keepsShipment_approve db) d.id := mt exists_withDocument.mp hnot
  have hlog : ¬ documentOf q (withApproval d item db) d.id := by
    unfold withApproval withApprovedItem
    cases item with
    | none => exact hdecided
    | some i => exact hdecided
  exact (rowsOf_withLog fun _ => hlog).trans hitem

theorem rowsOf_of_run {q : Uuid → Prop} [DecidablePred q] {c : Call} {x : Answer}
    (h : (perform o caller c).run db = .ok x t) (hnot : ¬ Touches q db c) :
    rowsOf q t = rowsOf q db := by
  cases c with
  | listShipmentDocuments a =>
    obtain ⟨y, hrun, -⟩ := run_return_ok.mp h
    rw [run_listShipmentDocuments_ok hrun]
  | getDocument a =>
    obtain ⟨y, hrun, -⟩ := run_return_ok.mp h
    obtain ⟨d, -, hid, -, rfl⟩ := run_getDocument_ok.mp hrun
    exact rowsOf_withView (hid ▸ hnot)
  | approveDocument a =>
    obtain ⟨y, hrun, -⟩ := run_return_ok.mp h
    obtain ⟨d, item, happrovable, -, rfl⟩ := run_approveDocument_ok.mp hrun
    exact rowsOf_approved happrovable hnot
  | recordVersion a =>
    obtain ⟨y, hrun, -⟩ := run_return_ok.mp h
    obtain ⟨type, leg, haccepted, rfl⟩ := run_recordVersion_ok.mp ⟨y, hrun⟩
    obtain ⟨hlegs, hhistory⟩ := Eta.others_recordedTables haccepted
      (p := fun shipmentId => ownedBy q db shipmentId) (decide_eq_false hnot)
    exact rowsOf_withEta hlegs hhistory
  | createException a =>
    obtain ⟨y, hrun, -⟩ := run_return_ok.mp h
    obtain ⟨config, severity, -, -, e, rfl, -⟩ := run_createException_ok.mp ⟨y, hrun⟩
    exact rowsOf_withException fun _ => hnot
  | getTimeline a =>
    obtain ⟨y, hrun, -⟩ := run_return_ok.mp h
    rw [run_getTimeline_ok hrun]

omit [EtaText] [EscalationText] in
theorem referential_approved {a : ApproveDocument} {d : Document} {item : Option ChecklistItem}
    (hdb : Referential db) (h : Approvable a d item db) :
    Referential (withApprovalLogged caller a d.id (withApproval d item db)) := by
  have hdocument : Referential (withDocument d.id (Document.decide .approved none)
      keepsShipment_approve db) := referential_withDocument hdb
  have hitem : Referential (withApproval d item db) := by
    unfold withApproval withApprovedItem
    cases item with
    | none => exact hdocument
    | some i => exact referential_withItem (fun _ => rfl) hdocument
  have hdecided : filed (withDocument d.id (Document.decide .approved none) keepsShipment_approve
      db) d.id := filed_withDocument ⟨d, h.mem, rfl⟩
  have hfiled : filed (withApproval d item db) d.id := by
    unfold withApproval withApprovedItem
    cases item with
    | none => exact hdecided
    | some i => exact hdecided
  have hlogged : Referential (withLog (accessLog d.id (some caller.actorId) "APPROVE" a.ipAddress
      caller.now) (takesKey_accessLog ..) (withApproval d item db)) :=
    referential_withLog hitem fun _ => hfiled
  exact { hlogged with }

theorem referential_of_run {c : Call} {x : Answer} (h : (perform o caller c).run db = .ok x t)
    (hdb : Referential db) : Referential t := by
  cases c with
  | listShipmentDocuments a =>
    obtain ⟨y, hrun, -⟩ := run_return_ok.mp h
    rw [run_listShipmentDocuments_ok hrun]
    exact hdb
  | getDocument a =>
    obtain ⟨y, hrun, -⟩ := run_return_ok.mp h
    obtain ⟨d, hd, -, -, rfl⟩ := run_getDocument_ok.mp hrun
    unfold withView
    cases a.actorId with
    | none => exact hdb
    | some actorId => exact referential_withLog hdb fun _ => ⟨d, hd, rfl⟩
  | approveDocument a =>
    obtain ⟨y, hrun, -⟩ := run_return_ok.mp h
    obtain ⟨d, item, happrovable, -, rfl⟩ := run_approveDocument_ok.mp hrun
    exact referential_approved hdb happrovable
  | recordVersion a =>
    obtain ⟨y, hrun, -⟩ := run_return_ok.mp h
    obtain ⟨type, leg, haccepted, rfl⟩ := run_recordVersion_ok.mp ⟨y, hrun⟩
    exact referential_withEta hdb (fun _ _ howns => Eta.owns_recordedTables.mp howns)
      (Eta.owned_recordedTables haccepted hdb.etaHistory)
  | createException a =>
    obtain ⟨y, hrun, -⟩ := run_return_ok.mp h
    obtain ⟨config, severity, -, hshipped, e, rfl, -⟩ := run_createException_ok.mp ⟨y, hrun⟩
    have hraised : Referential (withException (Exceptions.exceptionRow caller a.toCreateException
        config severity (Exceptions.finalDomain a.toCreateException config))
          Exceptions.takesKey_exceptionRow db) :=
      referential_withException hdb fun _ => hshipped
    exact { hraised with }
  | getTimeline a =>
    obtain ⟨y, hrun, -⟩ := run_return_ok.mp h
    rw [run_getTimeline_ok hrun]
    exact hdb

theorem referential_after {c : Call} (hdb : Referential db) : Referential (after o caller c db) :=
  commit_keeps hdb fun _ _ hrun => referential_of_run hrun hdb

end Calls

end Friet.Tenancy
