import Friet.Database
import Friet.Documents.Checklist

/-!
# Documents of a shipment: `DocumentService`

A type of document has one row for each shipment, and a record for each version of
it that was uploaded. The checklist keeps a status of its own for every type asked
for; the transition gate reads the checklist alone. Requests commit at their end.
-/

set_option autoImplicit false

namespace Friet.Documents

open Session

inductive DocumentStatus where
  | pendingReview
  | approved
  | rejected
  | revisionRequested
  deriving DecidableEq

def DocumentStatus.name : DocumentStatus → String
  | .pendingReview => "PENDING_REVIEW"
  | .approved => "APPROVED"
  | .rejected => "REJECTED"
  | .revisionRequested => "REVISION_REQUESTED"

structure Document where
  id : Uuid
  shipmentId : Uuid
  docType : String
  documentName : Option String
  fileUrl : String
  versionNumber : ℕ
  uploadedBy : Option Uuid
  uploadedAt : Timestamp
  fileSize : Option ℕ
  mimeType : Option String
  status : DocumentStatus
  expiryDate : Option Timestamp
  isMandatory : Bool
  rejectionReason : Option String
  createdAt : Timestamp
  deriving DecidableEq

structure DocumentVersion where
  id : Uuid
  documentId : Uuid
  versionNumber : ℕ
  fileUrl : String
  fileSize : Option ℕ
  uploadedBy : Option Uuid
  uploadedAt : Timestamp
  changeSummary : Option String
  status : DocumentStatus
  deriving DecidableEq

inductive ItemStatus where
  | required
  | uploaded
  | approved
  | missing
  deriving DecidableEq

def ItemStatus.name : ItemStatus → String
  | .required => "REQUIRED"
  | .uploaded => "UPLOADED"
  | .approved => "APPROVED"
  | .missing => "MISSING"

structure ChecklistItem where
  id : Uuid
  shipmentId : Uuid
  docTypeCode : String
  docName : String
  isMandatory : Bool
  status : ItemStatus
  documentId : Option Uuid
  approvalRole : Option String
  deriving DecidableEq

instance : Keyed Document := ⟨Document.id⟩
instance : Keyed DocumentVersion := ⟨DocumentVersion.id⟩
instance : Keyed ChecklistItem := ⟨ChecklistItem.id⟩

structure DocumentDatabase extends Database where
  documents : Table Document
  documentVersions : Table DocumentVersion
  checklistItems : Table ChecklistItem

abbrev DocumentM := EStateM AppError DocumentDatabase

def integrityError : AppError := .unhandled "IntegrityError"

def multipleResults : AppError := .unhandled "MultipleResultsFound"

def ofType (shipmentId : Uuid) (docType : String) (d : Document) : Prop :=
  d.shipmentId = shipmentId ∧ d.docType = docType

instance (shipmentId : Uuid) (docType : String) : DecidablePred (ofType shipmentId docType) :=
  fun _ => inferInstanceAs (Decidable (_ ∧ _))

def itemFor (shipmentId : Uuid) (docType : String) (i : ChecklistItem) : Prop :=
  i.shipmentId = shipmentId ∧ i.docTypeCode = docType

instance (shipmentId : Uuid) (docType : String) : DecidablePred (itemFor shipmentId docType) :=
  fun _ => inferInstanceAs (Decidable (_ ∧ _))

def shipped (shipmentId : Uuid) (db : DocumentDatabase) : Prop :=
  ∃ s ∈ db.shipments, s.id = shipmentId

instance (shipmentId : Uuid) (db : DocumentDatabase) : Decidable (shipped shipmentId db) :=
  inferInstanceAs (Decidable (∃ s ∈ db.shipments, s.id = shipmentId))

/-- `fileUrl` is what the storage returns for the file. -/
structure UploadDocument where
  shipmentId : Uuid
  docType : String
  documentName : Option String
  fileSize : ℕ
  fileUrl : String
  filename : String
  contentType : Option String
  expiryDate : Option Timestamp
  isMandatory : Bool
  changeSummary : Option String

def Document.revise (caller : Caller) (a : UploadDocument) (d : Document) : Document :=
  { d with
    versionNumber := d.versionNumber + 1
    fileUrl := a.fileUrl
    fileSize := some a.fileSize
    uploadedBy := some caller.actorId
    uploadedAt := caller.now
    status := .pendingReview
    expiryDate := a.expiryDate.or d.expiryDate
    documentName := (given a.documentName).or d.documentName }

def newDocument (caller : Caller) (a : UploadDocument) (id : Uuid) : Document where
  id := id
  shipmentId := a.shipmentId
  docType := a.docType
  documentName := (given a.documentName).or (some a.filename)
  fileUrl := a.fileUrl
  versionNumber := 1
  uploadedBy := some caller.actorId
  uploadedAt := caller.now
  fileSize := some a.fileSize
  mimeType := a.contentType
  status := .pendingReview
  expiryDate := a.expiryDate
  isMandatory := a.isMandatory
  rejectionReason := none
  createdAt := caller.now

def newVersion (caller : Caller) (a : UploadDocument) (d : Document) (id : Uuid) :
    DocumentVersion where
  id := id
  documentId := d.id
  versionNumber := d.versionNumber
  fileUrl := a.fileUrl
  fileSize := some a.fileSize
  uploadedBy := some caller.actorId
  uploadedAt := caller.now
  changeSummary := (given a.changeSummary).or (some s!"Version {d.versionNumber} upload")
  status := .pendingReview

def ChecklistItem.link (documentId : Uuid) (i : ChecklistItem) : ChecklistItem :=
  { i with status := .uploaded, documentId := some documentId }

def ChecklistItem.setStatus (status : ItemStatus) (i : ChecklistItem) : ChecklistItem :=
  { i with status := status }

/-- The item of the document's type, if the checklist has one, is rewritten. -/
def updateItem (shipmentId : Uuid) (docType : String) (f : ChecklistItem → ChecklistItem)
    (hf : KeepsKey f) : DocumentM Unit := do
  let db ← get
  let item ← oneOrNone (db.checklistItems.rows.filter (itemFor shipmentId docType ·))
    multipleResults
  match item with
  | none => pure ()
  | some i => modify fun db => { db with checklistItems := db.checklistItems.update i.id f hf }

def addDocument (mk : Uuid → Document) (hmk : TakesKey mk) : DocumentM Document :=
  modifyGet fun db =>
    (mk db.documents.freshKey, { db with documents := db.documents.insert mk hmk })

def addVersion (mk : Uuid → DocumentVersion) (hmk : TakesKey mk) : DocumentM Unit :=
  modify fun db => { db with documentVersions := db.documentVersions.insert mk hmk }

def setDocument (d : Document) (f : Document → Document) (hf : KeepsKey f) : DocumentM Unit :=
  modify fun db => { db with documents := db.documents.update d.id f hf }

theorem keepsKey_revise (caller : Caller) (a : UploadDocument) :
    KeepsKey (Document.revise caller a) := ⟨fun _ => rfl⟩

theorem takesKey_newDocument (caller : Caller) (a : UploadDocument) :
    TakesKey (newDocument caller a) := ⟨fun _ => rfl⟩

theorem takesKey_newVersion (caller : Caller) (a : UploadDocument) (d : Document) :
    TakesKey (newVersion caller a d) := ⟨fun _ => rfl⟩

theorem keepsKey_link (documentId : Uuid) : KeepsKey (ChecklistItem.link documentId) :=
  ⟨fun _ => rfl⟩

theorem keepsKey_setStatus (status : ItemStatus) : KeepsKey (ChecklistItem.setStatus status) :=
  ⟨fun _ => rfl⟩

/-- The document of the type, in its next version or new. -/
def nextDocument (caller : Caller) (a : UploadDocument) : DocumentM Document := do
  let db ← get
  let existing ← oneOrNone (db.documents.rows.filter (ofType a.shipmentId a.docType ·))
    multipleResults
  match existing with
  | some d =>
    setDocument d (Document.revise caller a) (keepsKey_revise caller a)
    pure (d.revise caller a)
  | none =>
    failIf (¬ shipped a.shipmentId db) integrityError
    addDocument (newDocument caller a) (takesKey_newDocument caller a)

def uploadDocument (caller : Caller) (a : UploadDocument) : DocumentM Document := do
  let d ← nextDocument caller a
  addVersion (newVersion caller a d) (takesKey_newVersion caller a d)
  updateItem a.shipmentId a.docType (ChecklistItem.link d.id) (keepsKey_link d.id)
  pure d

/-- `DOCUMENT_APPROVAL_GATES`. -/
def documentApprovalGates : String → Option (List String)
  | "DGR_DECLARATION" => some ["COMPLIANCE", "COMPLIANCE_OFFICER", "SUPER_ADMIN"]
  | "DGR_EMERGENCY_RESPONSE" => some ["COMPLIANCE", "COMPLIANCE_OFFICER", "SUPER_ADMIN"]
  | "COMMERCIAL_INVOICE" =>
    some ["CUSTOMS", "FINANCE", "FINANCE_CONTROLLER", "OPERATIONS", "SUPER_ADMIN"]
  | "US_ISF_10_2" => some ["CUSTOMS", "OPERATIONS", "SUPER_ADMIN"]
  | "SABER_SASO_CERTIFICATE" => some ["CUSTOMS", "COMPLIANCE", "SUPER_ADMIN"]
  | "PHYTOSANITARY_CERT" => some ["CUSTOMS", "COMPLIANCE", "SUPER_ADMIN"]
  | "BILL_OF_LADING" => some ["OPERATIONS", "PRICING", "SUPER_ADMIN"]
  | "AIR_WAYBILL" => some ["OPERATIONS", "PRICING", "SUPER_ADMIN"]
  | _ => none

/-- The type is gated, and the user has none of the roles that pass. -/
def gateCloses (userRoles : List String) (docType : String) : Prop :=
  ∃ required ∈ documentApprovalGates docType,
    (∀ role ∈ userRoles, role ∉ required) ∧ "SUPER_ADMIN" ∉ userRoles

instance (userRoles : List String) (docType : String) : Decidable (gateCloses userRoles docType) :=
  inferInstanceAs (Decidable (∃ required ∈ documentApprovalGates docType, _))

/-- The roles are listed in the order in which the set happens to be read. -/
def gateMessage (docType : String) : String :=
  s!"Approval of {docType} requires one of roles: " ++
    ", ".intercalate ((documentApprovalGates docType).getD [])

def findDocument (documentId : Uuid) : DocumentM Document := do
  let db ← get
  orFail (db.documents.find? documentId) (.notFound "Document not found")

def Document.decide (status : DocumentStatus) (rejectionReason : Option String) (d : Document) :
    Document := { d with status := status, rejectionReason := rejectionReason }

theorem keepsKey_decide (status : DocumentStatus) (rejectionReason : Option String) :
    KeepsKey (Document.decide status rejectionReason) := ⟨fun _ => rfl⟩

structure ApproveDocument where
  documentId : Uuid
  userRoles : List String

def approveDocument (a : ApproveDocument) : DocumentM Document := do
  let d ← findDocument a.documentId
  failIf (gateCloses a.userRoles d.docType) (.forbidden (gateMessage d.docType))
  setDocument d (Document.decide .approved none) (keepsKey_decide _ _)
  updateItem d.shipmentId d.docType (ChecklistItem.setStatus .approved) (keepsKey_setStatus _)
  pure (d.decide .approved none)

structure RejectDocument where
  documentId : Uuid
  reason : String

def rejectDocument (a : RejectDocument) : DocumentM Document := do
  let d ← findDocument a.documentId
  setDocument d (Document.decide .rejected (some a.reason)) (keepsKey_decide _ _)
  updateItem d.shipmentId d.docType (ChecklistItem.setStatus .missing) (keepsKey_setStatus _)
  pure (d.decide .rejected (some a.reason))

structure RequestRevision where
  documentId : Uuid
  notes : String

def requestRevision (a : RequestRevision) : DocumentM Document := do
  let d ← findDocument a.documentId
  setDocument d (Document.decide .revisionRequested (some a.notes)) (keepsKey_decide _ _)
  pure (d.decide .revisionRequested (some a.notes))

structure GenerateChecklist where
  shipmentId : Uuid
  context : Context

def newItem (shipmentId : Uuid) (e : ChecklistEntry) (id : Uuid) : ChecklistItem where
  id := id
  shipmentId := shipmentId
  docTypeCode := e.docTypeCode
  docName := e.docName
  isMandatory := e.isMandatory
  status := .required
  documentId := none
  approvalRole := some e.approvalRole

theorem takesKey_newItem (shipmentId : Uuid) (e : ChecklistEntry) :
    TakesKey (newItem shipmentId e) := ⟨fun _ => rfl⟩

def newEntries (shipmentId : Uuid) (items : Table ChecklistItem) (entries : List ChecklistEntry) :
    List ChecklistEntry :=
  entries.filter fun e => ¬ ∃ i ∈ items, itemFor shipmentId e.docTypeCode i

def addItems (shipmentId : Uuid) (items : Table ChecklistItem) (entries : List ChecklistEntry) :
    Table ChecklistItem :=
  entries.foldl (fun t e => t.insert (newItem shipmentId e) (takesKey_newItem shipmentId e)) items

def generateChecklist (rules : List ChecklistRule) (a : GenerateChecklist) :
    DocumentM (List ChecklistEntry) := do
  let entries := DocumentChecklistEngine.generateChecklist rules a.context
  let db ← get
  let missing := newEntries a.shipmentId db.checklistItems entries
  failIf (missing ≠ [] ∧ ¬ shipped a.shipmentId db) integrityError
  modify fun db => { db with checklistItems := addItems a.shipmentId db.checklistItems missing }
  pure entries

structure MissingDocument where
  docTypeCode : String
  docName : String
  approvalRole : Option String
  deriving DecidableEq

structure UnapprovedDocument where
  docTypeCode : String
  docName : String
  status : ItemStatus
  approvalRole : Option String
  deriving DecidableEq

structure GateResult where
  canProceed : Bool
  missingDocuments : List MissingDocument
  unapprovedDocuments : List UnapprovedDocument
  deriving DecidableEq

def ChecklistItem.isMissing (i : ChecklistItem) : Bool :=
  i.status = .required ∨ i.documentId = none

def ChecklistItem.isUnapproved (i : ChecklistItem) : Bool :=
  ¬ i.isMissing = true ∧ i.status ≠ .approved

def missingDocument (i : ChecklistItem) : MissingDocument :=
  ⟨i.docTypeCode, i.docName, i.approvalRole⟩

def unapprovedDocument (i : ChecklistItem) : UnapprovedDocument :=
  ⟨i.docTypeCode, i.docName, i.status, i.approvalRole⟩

def gateResult (items : List ChecklistItem) : GateResult :=
  let missing := (items.filter (·.isMissing)).map missingDocument
  let unapproved := (items.filter (·.isUnapproved)).map unapprovedDocument
  ⟨missing.length = 0 ∧ unapproved.length = 0, missing, unapproved⟩

def mandatoryItems (shipmentId : Uuid) (db : DocumentDatabase) : List ChecklistItem :=
  db.checklistItems.rows.filter fun i => i.shipmentId = shipmentId ∧ i.isMandatory = true

def validateTransitionDocuments (shipmentId : Uuid) (order : RowOrder ChecklistItem)
    (db : DocumentDatabase) : GateResult :=
  gateResult (order.arrange (mandatoryItems shipmentId db))

inductive Request where
  | uploadDocument (a : UploadDocument)
  | approveDocument (a : ApproveDocument)
  | rejectDocument (a : RejectDocument)
  | requestRevision (a : RequestRevision)
  | generateChecklist (a : GenerateChecklist)

def step (rules : List ChecklistRule) (db : DocumentDatabase) (i : Caller × Request) :
    DocumentDatabase :=
  match i.2 with
  | .uploadDocument a => commit (uploadDocument i.1 a) db
  | .approveDocument a => commit (approveDocument a) db
  | .rejectDocument a => commit (rejectDocument a) db
  | .requestRevision a => commit (requestRevision a) db
  | .generateChecklist a => commit (generateChecklist rules a) db

end Friet.Documents
