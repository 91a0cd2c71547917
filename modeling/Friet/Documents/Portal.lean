import Friet.Documents.Gate
import Friet.Auth.Access
import Friet.Lib.Cascade

/-!
# Listing a shipment's documents for a portal user

The list compares the shipment's customer with the user's when the user has one. No
authenticated user does, so the comparison never takes place, and what keeps a document
from a portal user is a permission it lacks, or a carrier's view of transport documents.
-/

set_option autoImplicit false

namespace Friet.Documents

open Auth Cascade

/-- `TRANSPORT_DOC_TYPES`. -/
def transportDocTypes : List String :=
  ["BILL_OF_LADING", "AIR_WAYBILL", "MANIFEST", "CARGO_MANIFEST", "SHIPPING_INSTRUCTIONS",
    "VGM_CERTIFICATE", "SECURITY_SCREENING_CERT", "PROOF_OF_DELIVERY"]

structure ListedDocument where
  id : Uuid
  shipmentId : Uuid
  docType : String
  documentName : Option String
  fileUrl : String
  versionNumber : ℕ
  fileSize : Option ℕ
  status : DocumentStatus
  isMandatory : Bool
  uploadedAt : Timestamp
  expiryDate : Option Timestamp
  deriving DecidableEq

def Document.listed (d : Document) : ListedDocument where
  id := d.id
  shipmentId := d.shipmentId
  docType := d.docType
  documentName := d.documentName
  fileUrl := d.fileUrl
  versionNumber := d.versionNumber
  fileSize := d.fileSize
  status := d.status
  isMandatory := d.isMandatory
  uploadedAt := d.uploadedAt
  expiryDate := d.expiryDate

def isCarrierPortal (userRoles : List String) : Prop :=
  "CARRIER_PORTAL" ∈ userRoles ∨ "CARRIER" ∈ userRoles

instance (userRoles : List String) : Decidable (isCarrierPortal userRoles) :=
  inferInstanceAs (Decidable (_ ∨ _))

/-- A carrier sees transport documents only. -/
def visibleTo (userRoles : List String) (d : Document) : Prop :=
  isCarrierPortal userRoles → d.docType ∈ transportDocTypes

instance (userRoles : List String) : DecidablePred (visibleTo userRoles) :=
  fun _ => inferInstanceAs (Decidable (_ → _))

/-- The customer of the request is not the shipment's. -/
def portalCloses (shipmentId tenantId : Uuid) (isPortal : Bool) (customerId : Option Uuid)
    (db : DocumentDatabase) : Prop :=
  isPortal = true ∧ ∃ c ∈ customerId,
    ¬ ∃ s ∈ db.shipments, s.id = shipmentId ∧ s.tenantId = tenantId ∧ s.customerId = c

instance (shipmentId tenantId : Uuid) (isPortal : Bool) (customerId : Option Uuid)
    (db : DocumentDatabase) : Decidable (portalCloses shipmentId tenantId isPortal customerId db) :=
  inferInstanceAs (Decidable (_ ∧ ∃ c ∈ customerId, _))

/-- `order_by(created_at.desc())`. -/
def newestFirst (d e : Document) : Prop := e.createdAt ≤ d.createdAt

instance : DecidableRel newestFirst :=
  fun d e => inferInstanceAs (Decidable (e.createdAt ≤ d.createdAt))

/-- The query, newest first, and the carrier's filter; `order` is how it returns documents
created at the same time. -/
def listing (order : RowOrder Document) (shipmentId : Uuid) (userRoles : List String)
    (documents : Table Document) : List ListedDocument :=
  let docs := (order.arrange (documents.rows.filter (·.shipmentId = shipmentId))).insertionSort
    newestFirst
  (docs.filter (visibleTo userRoles ·)).map Document.listed

def listShipmentDocuments (order : RowOrder Document) (shipmentId tenantId : Uuid)
    (userRoles : List String) (isPortal : Bool) (customerId : Option Uuid)
    (db : DocumentDatabase) : Except AccessError (List ListedDocument) :=
  if portalCloses shipmentId tenantId isPortal customerId db then
    throw (.forbidden "You do not have access to documents for this shipment.")
  else pure (listing order shipmentId userRoles db.documents)

/-- The documents, and who may ask for them. -/
structure PortalDatabase extends DocumentDatabase where
  access : AccessTables

/-- The endpoint: authentication, the permission, and the service. -/
def listDocuments (order : RowOrder Document) (credentials : Credentials) (shipmentId : Uuid)
    (db : PortalDatabase) : Except AccessError (List ListedDocument) := do
  let current ← getCurrentUser credentials db.access
  let user ← requirePermission "shipment:read" current
  listShipmentDocuments order shipmentId user.tenantId user.roles user.isPortal user.customerId
    db.toDocumentDatabase

variable {order : RowOrder Document} {credentials : Credentials} {shipmentId : Uuid}
  {db : PortalDatabase} {user : CurrentUser}

def withDocuments (documents : Table Document) (db : PortalDatabase) : PortalDatabase :=
  { db with documents := documents }

theorem listDocuments_of_missing (huser : getCurrentUser credentials db.access = .ok user)
    (h : "shipment:read" ∉ user.permissions) :
    listDocuments order credentials shipmentId db =
      .error (.forbidden "Missing permission: shipment:read") := by
  unfold listDocuments
  rw [huser]
  change requirePermission _ user >>= _ = _
  rw [requirePermission_of_missing h]
  rfl

theorem listDocuments_of_permitted (huser : getCurrentUser credentials db.access = .ok user)
    (h : "shipment:read" ∈ user.permissions) : listDocuments order credentials shipmentId db =
      .ok (listing order shipmentId user.roles db.documents) := by
  have hread : ¬ internalOnly "shipment:read" := by decide +kernel
  have hopen : ¬ portalCloses shipmentId user.tenantId user.isPortal user.customerId
      db.toDocumentDatabase := by
    rintro ⟨_, c, hc, _⟩
    rw [customerId_of_getCurrentUser huser] at hc
    cases hc
  unfold listDocuments
  rw [huser]
  change requirePermission _ user >>= _ = _
  rw [requirePermission_of_mem h hread]
  exact if_neg hopen

theorem mem_listing {userRoles : List String} {documents : Table Document} {x : ListedDocument} :
    x ∈ listing order shipmentId userRoles documents ↔
      ∃ d ∈ documents, d.shipmentId = shipmentId ∧ visibleTo userRoles d ∧ d.listed = x := by
  simp only [listing, List.mem_map, List.mem_filter, List.mem_insertionSort, RowOrder.mem_arrange,
    decide_eq_true_eq, and_assoc]
  rfl

theorem listing_eq_nil_iff {userRoles : List String} {documents : Table Document} :
    listing order shipmentId userRoles documents = [] ↔
      ∀ d ∈ documents, d.shipmentId = shipmentId → ¬ visibleTo userRoles d := by
  simp only [List.eq_nil_iff_forall_not_mem, mem_listing]
  constructor
  · intro h d hd hshipment hvisible
    exact h d.listed ⟨d, hd, hshipment, hvisible, rfl⟩
  · rintro h x ⟨d, hd, hshipment, hvisible, _⟩
    exact h d hd hshipment hvisible

/-- The portal account of the user stands for the customer. -/
def standsFor (userId customerId : Uuid) (db : PortalDatabase) : Prop :=
  ∃ p ∈ db.access.customerPortalUsers, p.userId = userId ∧ p.customerId = customerId

instance (userId customerId : Uuid) (db : PortalDatabase) :
    Decidable (standsFor userId customerId db) :=
  inferInstanceAs (Decidable (∃ p ∈ db.access.customerPortalUsers, _))

/-- The document is of a shipment of the user's customer. -/
def ownDocument (userId : Uuid) (db : PortalDatabase) (d : Document) : Prop :=
  ∃ s ∈ db.shipments, s.id = d.shipmentId ∧ standsFor userId s.customerId db

instance (userId : Uuid) (db : PortalDatabase) : DecidablePred (ownDocument userId db) :=
  fun d => inferInstanceAs (Decidable (∃ s ∈ db.shipments, s.id = d.shipmentId ∧ _))

/-- The shipment is there, and its customer is not the user's. -/
structure Foreign (userId shipmentId : Uuid) (db : PortalDatabase) : Prop where
  shipped : shipped shipmentId db.toDocumentDatabase
  customer : ∀ s ∈ db.shipments, s.id = shipmentId → ¬ standsFor userId s.customerId db

/-- Forbidden, or nothing. -/
def Withheld (answer : Except AccessError (List ListedDocument)) : Prop :=
  (∃ message, answer = .error (.forbidden message)) ∨ answer = .ok []

/-- Whatever documents other customers' shipments have, the answer is the same. -/
def IndependentOfOthers (order : RowOrder Document) (credentials : Credentials)
    (userId shipmentId : Uuid) (db : PortalDatabase) : Prop :=
  ∀ documents : Table Document,
    (∀ d ∈ documents, shipped d.shipmentId db.toDocumentDatabase) →
    SameSeen (ownDocument userId db) db.documents.rows documents.rows →
    listDocuments order credentials shipmentId (withDocuments documents db) =
      listDocuments order credentials shipmentId db

theorem not_own_of_foreign (h : Foreign user.id shipmentId db) {d : Document}
    (hd : d.shipmentId = shipmentId) : ¬ ownDocument user.id db d := by
  rintro ⟨s, hs, hid, hstands⟩
  exact h.customer s hs (hid.trans hd) hstands

def ownDocuments (userId : Uuid) (db : PortalDatabase) : Table Document where
  rows := db.documents.rows.filter (ownDocument userId db ·)
  nodup := db.documents.nodup.sublist (List.filter_sublist.map key)

def otherBill (shipmentId id : Uuid) : Document where
  id := id
  shipmentId := shipmentId
  docType := "BILL_OF_LADING"
  documentName := none
  fileUrl := ""
  versionNumber := 1
  uploadedBy := none
  uploadedAt := 0
  fileSize := none
  mimeType := none
  status := .approved
  expiryDate := none
  isMandatory := false
  rejectionReason := none
  createdAt := 0

theorem takesKey_otherBill (shipmentId : Uuid) : TakesKey (otherBill shipmentId) :=
  ⟨fun _ => rfl⟩

/-- The user's own documents, and a bill of lading of the shipment. -/
def withOtherBill (userId shipmentId : Uuid) (db : PortalDatabase) : Table Document :=
  (ownDocuments userId db).insert (otherBill shipmentId) (takesKey_otherBill shipmentId)

theorem shipped_of_own {d : Document} (h : d ∈ ownDocuments user.id db) :
    shipped d.shipmentId db.toDocumentDatabase := by
  obtain ⟨s, hs, hid, _⟩ := of_decide_eq_true (List.mem_filter.mp h).2
  exact ⟨s, hs, hid⟩

theorem sameSeen_withOtherBill (hforeign : Foreign user.id shipmentId db) :
    SameSeen (ownDocument user.id db) db.documents.rows
      (withOtherBill user.id shipmentId db).rows := by
  have hbill : ¬ ownDocument user.id db (otherBill shipmentId (ownDocuments user.id db).freshKey) :=
    not_own_of_foreign hforeign rfl
  unfold SameSeen withOtherBill
  rw [Table.rows_insert, List.filter_append, List.filter_cons_of_neg (by simpa using hbill),
    List.filter_nil, List.append_nil]
  exact Eq.symm sameSeen_filter

theorem withheld_iff (huser : getCurrentUser credentials db.access = .ok user) :
    Withheld (listDocuments order credentials shipmentId db) ↔
      "shipment:read" ∉ user.permissions ∨
        ∀ d ∈ db.documents, d.shipmentId = shipmentId → ¬ visibleTo user.roles d := by
  by_cases h : "shipment:read" ∈ user.permissions
  · rw [listDocuments_of_permitted huser h, or_iff_right (not_not_intro h),
      ← @listing_eq_nil_iff order]
    unfold Withheld
    rw [Except.ok.injEq]
    exact or_iff_right fun ⟨_, hforbidden⟩ => by cases hforbidden
  · rw [listDocuments_of_missing huser h]
    exact iff_of_true (Or.inl ⟨_, rfl⟩) (Or.inl h)

theorem independent_iff (huser : getCurrentUser credentials db.access = .ok user)
    (hforeign : Foreign user.id shipmentId db) :
    IndependentOfOthers order credentials user.id shipmentId db ↔
      "shipment:read" ∉ user.permissions := by
  constructor
  · intro h hpermitted
    have hown := h (ownDocuments user.id db) (fun d hd => shipped_of_own hd)
      (Eq.symm sameSeen_filter)
    have hbill := h (withOtherBill user.id shipmentId db)
      (Table.forall_mem_insert.mpr ⟨fun d hd => shipped_of_own hd, hforeign.shipped⟩)
      (sameSeen_withOtherBill hforeign)
    have huser' : ∀ documents, getCurrentUser credentials (withDocuments documents db).access =
        .ok user := fun _ => huser
    have hsame := hbill.trans hown.symm
    rw [listDocuments_of_permitted (huser' _) hpermitted,
      listDocuments_of_permitted (huser' _) hpermitted, Except.ok.injEq] at hsame
    -- The new document is listed, and no document of the user's own is of this shipment.
    have hempty : listing order shipmentId user.roles (ownDocuments user.id db) = [] :=
      listing_eq_nil_iff.mpr fun d hd hshipment =>
        absurd (of_decide_eq_true (List.mem_filter.mp hd).2) (not_own_of_foreign hforeign hshipment)
    exact listing_eq_nil_iff.mp (hsame.trans hempty) _ Table.mem_insert_self rfl
      fun _ => List.mem_cons_self
  · intro h documents _ _
    rw [listDocuments_of_missing huser h]
    exact listDocuments_of_missing huser h

/-- What keeps another customer's documents back is a permission that the user lacks. -/
theorem foreign_documents_withheld_iff
    (huser : getCurrentUser credentials db.access = .ok user)
    (hforeign : Foreign user.id shipmentId db) :
    (Withheld (listDocuments order credentials shipmentId db) ↔
      "shipment:read" ∉ user.permissions ∨
        ∀ d ∈ db.documents, d.shipmentId = shipmentId → ¬ visibleTo user.roles d) ∧
    (IndependentOfOthers order credentials user.id shipmentId db ↔
      "shipment:read" ∉ user.permissions) :=
  ⟨withheld_iff huser, independent_iff huser hforeign⟩

section Verbatim
open Friet.Verbatim

/-- Account 7 stands for customer 2, in the role that customers have. -/
def portalAccess : AccessTables where
  roles := Table.empty.insert fun id => ⟨id, 1, "CUSTOMER_PORTAL"⟩
  permissions := .empty
  rolePermissions := .empty
  userBranchRoles := Table.empty.insert fun id => ⟨id, 7, 1, 0⟩
  customerPortalUsers := Table.empty.insert fun id => ⟨id, 2, 7⟩

def portalCredentials : Credentials := some (.ok ⟨some "access", some 7, some 1⟩)

def portalUser : CurrentUser := userOf 7 1 portalAccess

/-- The shipment of customer 1, with the documents that `uploads` leaves. -/
def portalDatabase (uploads : List (Caller × Request)) : PortalDatabase where
  toDocumentDatabase := uploads.foldl (step defaultChecklistRules) booked
  access := portalAccess

theorem foreign_shipment_without_documents_withheld :
    (Withheld (listDocuments .stored portalCredentials 1 (portalDatabase [])) ↔
      "shipment:read" ∉ portalUser.permissions ∨
        ∀ d ∈ (portalDatabase []).documents, d.shipmentId = 1 → ¬ visibleTo portalUser.roles d) ∧
    (IndependentOfOthers .stored portalCredentials 7 1 (portalDatabase []) ↔
      "shipment:read" ∉ portalUser.permissions) :=
  foreign_documents_withheld_iff
    (show getCurrentUser portalCredentials (portalDatabase []).access = .ok portalUser from rfl)
    ⟨by decide +kernel, by decide +kernel⟩

/-- A portal account of customer 2 is given customer 1's document. -/
theorem foreign_document_listed :
    getCurrentUser portalCredentials (portalDatabase [upload "PACKING_LIST"]).access =
      .ok portalUser ∧ portalUser.isPortal = true ∧
    Foreign 7 1 (portalDatabase [upload "PACKING_LIST"]) ∧
    ¬ Withheld (listDocuments .stored portalCredentials 1
      (portalDatabase [upload "PACKING_LIST"])) ∧
    ¬ IndependentOfOthers .stored portalCredentials 7 1
      (portalDatabase [upload "PACKING_LIST"]) := by
  have huser : getCurrentUser portalCredentials (portalDatabase [upload "PACKING_LIST"]).access =
      .ok portalUser := rfl
  have hforeign : Foreign 7 1 (portalDatabase [upload "PACKING_LIST"]) :=
    ⟨by decide +kernel, by decide +kernel⟩
  have hread : "shipment:read" ∈ portalUser.permissions := by decide +kernel
  refine ⟨huser, by decide +kernel, hforeign, fun h => ?_, fun h => ?_⟩
  · revert h
    rw [withheld_iff huser]
    decide +kernel
  · exact (independent_iff huser hforeign).mp h hread

end Verbatim

end Friet.Documents
