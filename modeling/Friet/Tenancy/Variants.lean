import Friet.Tenancy.Rows

/-!
# Databases that differ in one tenant's rows

The rows of some tenants' shipments make a database of their own, with every reference in
place; and a shipment of another tenant can be added to it, with a document, a leg and an
event, without a change to theirs.
-/

set_option autoImplicit false

namespace Friet.Tenancy

open Documents (Document)
open Tracking (TrackingEvent)

section Bare
variable {q : Uuid → Prop} [DecidablePred q] {db : ServiceDatabase} {shipmentId documentId : Uuid}

/-- The rows of these tenants' shipments alone. -/
def bare (q : Uuid → Prop) [DecidablePred q] (db : ServiceDatabase) : ServiceDatabase :=
  { db with
    shipments := db.shipments.restrict fun s => ownedBy q db s.id
    documents := db.documents.restrict fun d => ownedBy q db d.shipmentId
    documentVersions := db.documentVersions.restrict fun v => documentOf q db v.documentId
    checklistItems := db.checklistItems.restrict fun i => ownedBy q db i.shipmentId
    documentAccessLogs := db.documentAccessLogs.restrict fun l => documentOf q db l.documentId
    eta :=
      { db.eta with
        shipmentLegs := db.eta.shipmentLegs.restrict fun l => ownedBy q db l.shipmentId
        etaHistory := db.eta.etaHistory.restrict fun r => ownedBy q db r.shipmentId }
    trackingEvents := db.trackingEvents.restrict fun e => ownedBy q db e.shipmentId
    shipmentExceptions := db.shipmentExceptions.restrict fun e => ownedBy q db e.shipmentId }

theorem ownedBy_bare : ownedBy q (bare q db) shipmentId ↔ ownedBy q db shipmentId := by
  constructor
  · rintro ⟨s, hs, rfl, hq⟩
    exact ⟨s, (Table.mem_restrict.mp hs).1, rfl, hq⟩
  · rintro ⟨s, hs, rfl, hq⟩
    exact ⟨s, Table.mem_restrict.mpr ⟨hs, decide_eq_true ⟨s, hs, rfl, hq⟩⟩, rfl, hq⟩

theorem shipped_bare : shipped (bare q db) shipmentId ↔ ownedBy q db shipmentId := by
  constructor
  · rintro ⟨s, hs, rfl⟩
    exact of_decide_eq_true (Table.mem_restrict.mp hs).2
  · exact fun h => shipped_of_owned (ownedBy_bare.mpr h)

theorem documentOf_bare : documentOf q (bare q db) documentId ↔ documentOf q db documentId := by
  constructor
  · rintro ⟨d, hd, rfl, howned⟩
    exact ⟨d, (Table.mem_restrict.mp hd).1, rfl, ownedBy_bare.mp howned⟩
  · rintro ⟨d, hd, rfl, howned⟩
    exact ⟨d, Table.mem_restrict.mpr ⟨hd, decide_eq_true howned⟩, rfl, ownedBy_bare.mpr howned⟩

theorem filed_bare : filed (bare q db) documentId ↔ documentOf q db documentId := by
  constructor
  · rintro ⟨d, hd, rfl⟩
    obtain ⟨hd, howned⟩ := Table.mem_restrict.mp hd
    exact ⟨d, hd, rfl, of_decide_eq_true howned⟩
  · exact fun h => filed_of_documentOf (documentOf_bare.mpr h)

theorem rowsOf_bare : rowsOf q (bare q db) = rowsOf q db := by
  have howned : ∀ shipmentId, decide (ownedBy q (bare q db) shipmentId) =
      decide (ownedBy q db shipmentId) := fun _ => decide_eq_decide.mpr ownedBy_bare
  have hof : ∀ documentId, decide (documentOf q (bare q db) documentId) =
      decide (documentOf q db documentId) := fun _ => decide_eq_decide.mpr documentOf_bare
  unfold rowsOf
  simp only [howned, hof]
  simp only [bare, Table.restrict, List.filter_filter, Bool.and_self]

theorem referential_bare (hdb : Referential db) : Referential (bare q db) := by
  constructor
  · exact fun d hd => shipped_bare.mpr (of_decide_eq_true (Table.mem_restrict.mp hd).2)
  · exact fun v hv => filed_bare.mpr (of_decide_eq_true (Table.mem_restrict.mp hv).2)
  · exact fun i hi => shipped_bare.mpr (of_decide_eq_true (Table.mem_restrict.mp hi).2)
  · exact fun l hl => filed_bare.mpr (of_decide_eq_true (Table.mem_restrict.mp hl).2)
  · exact fun l hl => shipped_bare.mpr (of_decide_eq_true (Table.mem_restrict.mp hl).2)
  · intro r hr
    obtain ⟨hr, howned⟩ := Table.mem_restrict.mp hr
    obtain ⟨l, hl, hid, hshipment⟩ := hdb.etaHistory r hr
    exact ⟨l, Table.mem_restrict.mpr ⟨hl, hshipment ▸ howned⟩, hid, hshipment⟩
  · exact fun e he => shipped_bare.mpr (of_decide_eq_true (Table.mem_restrict.mp he).2)
  · exact fun e he => shipped_bare.mpr (of_decide_eq_true (Table.mem_restrict.mp he).2)

end Bare

section Seed

/-- A shipment that is not there yet, with a document, a leg and an event of it. -/
structure Seed (db : ServiceDatabase) where
  shipment : Shipment
  document : Document
  leg : Eta.ShipmentLeg
  event : TrackingEvent
  document_shipmentId : document.shipmentId = shipment.id
  leg_shipmentId : leg.shipmentId = shipment.id
  event_shipmentId : event.shipmentId = shipment.id
  shipment_free : ∀ s ∈ db.shipments, s.id ≠ shipment.id
  document_free : ∀ d ∈ db.documents, d.id ≠ document.id
  leg_free : ∀ l ∈ db.eta.shipmentLegs, l.id ≠ leg.id
  event_free : ∀ e ∈ db.trackingEvents, e.id ≠ event.id

variable {q : Uuid → Prop} [DecidablePred q] {db : ServiceDatabase} {x : Seed db}
  {shipmentId documentId : Uuid}

def Seed.planted (x : Seed db) : ServiceDatabase :=
  { db with
    shipments := db.shipments.place x.shipment x.shipment_free
    documents := db.documents.place x.document x.document_free
    eta := { db.eta with shipmentLegs := db.eta.shipmentLegs.place x.leg x.leg_free }
    trackingEvents := db.trackingEvents.place x.event x.event_free }

theorem mem_shipments_planted {s : Shipment} :
    s ∈ x.planted.shipments ↔ s ∈ db.shipments ∨ s = x.shipment := Table.mem_place x.shipment_free

theorem mem_documents_planted {d : Document} :
    d ∈ x.planted.documents ↔ d ∈ db.documents ∨ d = x.document := Table.mem_place x.document_free

theorem mem_shipmentLegs_planted {l : Eta.ShipmentLeg} :
    l ∈ x.planted.eta.shipmentLegs ↔ l ∈ db.eta.shipmentLegs ∨ l = x.leg := Table.mem_place x.leg_free

theorem mem_trackingEvents_planted {e : TrackingEvent} :
    e ∈ x.planted.trackingEvents ↔ e ∈ db.trackingEvents ∨ e = x.event := Table.mem_place x.event_free

theorem shipped_planted (h : shipped db shipmentId) : shipped x.planted shipmentId := by
  obtain ⟨s, hs, hid⟩ := h
  exact ⟨s, mem_shipments_planted.mpr (Or.inl hs), hid⟩

theorem shipped_seed : shipped x.planted x.shipment.id :=
  ⟨x.shipment, mem_shipments_planted.mpr (Or.inr rfl), rfl⟩

theorem filed_planted (h : filed db documentId) : filed x.planted documentId := by
  obtain ⟨d, hd, hid⟩ := h
  exact ⟨d, mem_documents_planted.mpr (Or.inl hd), hid⟩

omit [DecidablePred q] in
theorem ownedBy_planted (hseed : ¬ q x.shipment.tenantId) :
    ownedBy q x.planted shipmentId ↔ ownedBy q db shipmentId := by
  constructor
  · rintro ⟨s, hs, rfl, hq⟩
    rcases mem_shipments_planted.mp hs with hs | rfl
    · exact ⟨s, hs, rfl, hq⟩
    · exact absurd hq hseed
  · rintro ⟨s, hs, rfl, hq⟩
    exact ⟨s, mem_shipments_planted.mpr (Or.inl hs), rfl, hq⟩

omit [DecidablePred q] in
theorem not_owned_seed : ¬ ownedBy q db x.shipment.id := by
  rintro ⟨s, hs, hid, -⟩
  exact x.shipment_free s hs hid

omit [DecidablePred q] in
theorem documentOf_planted (hseed : ¬ q x.shipment.tenantId) :
    documentOf q x.planted documentId ↔ documentOf q db documentId := by
  unfold documentOf
  simp only [ownedBy_planted hseed]
  constructor
  · rintro ⟨d, hd, rfl, howned⟩
    rcases mem_documents_planted.mp hd with hd | rfl
    · exact ⟨d, hd, rfl, howned⟩
    · rw [x.document_shipmentId] at howned
      exact absurd howned not_owned_seed
  · rintro ⟨d, hd, rfl, howned⟩
    exact ⟨d, mem_documents_planted.mpr (Or.inl hd), rfl, howned⟩

theorem rowsOf_planted (hseed : ¬ q x.shipment.tenantId) : rowsOf q x.planted = rowsOf q db := by
  have howned : ∀ shipmentId, decide (ownedBy q x.planted shipmentId) =
      decide (ownedBy q db shipmentId) := fun _ => decide_eq_decide.mpr (ownedBy_planted hseed)
  have hof : ∀ documentId, decide (documentOf q x.planted documentId) =
      decide (documentOf q db documentId) :=
    fun _ => decide_eq_decide.mpr (documentOf_planted hseed)
  have hnot : decide (ownedBy q db x.shipment.id) = false := decide_eq_false not_owned_seed
  unfold rowsOf
  simp only [howned, hof]
  simp [Seed.planted, Table.place, x.document_shipmentId, x.leg_shipmentId, x.event_shipmentId,
    hnot]

theorem referential_planted (hdb : Referential db) : Referential x.planted := by
  constructor
  · intro d hd
    rcases mem_documents_planted.mp hd with hd | rfl
    · exact shipped_planted (hdb.documents d hd)
    · exact x.document_shipmentId ▸ shipped_seed
  · exact fun v hv => filed_planted (hdb.documentVersions v hv)
  · exact fun i hi => shipped_planted (hdb.checklistItems i hi)
  · exact fun l hl => filed_planted (hdb.documentAccessLogs l hl)
  · intro l hl
    rcases mem_shipmentLegs_planted.mp hl with hl | rfl
    · exact shipped_planted (hdb.shipmentLegs l hl)
    · exact x.leg_shipmentId ▸ shipped_seed
  · intro r hr
    obtain ⟨l, hl, hid⟩ := hdb.etaHistory r hr
    exact ⟨l, mem_shipmentLegs_planted.mpr (Or.inl hl), hid⟩
  · intro e he
    rcases mem_trackingEvents_planted.mp he with he | rfl
    · exact shipped_planted (hdb.trackingEvents e he)
    · exact x.event_shipmentId ▸ shipped_seed
  · exact fun e he => shipped_planted (hdb.shipmentExceptions e he)

def seedShipment (tenantId id : Uuid) : Shipment where
  id := id
  tenantId := tenantId
  bookingId := 0
  jobId := none
  customerId := 0
  mode := "SEA"
  status := "DRAFT"
  createdBy := none

/-- Carriers see it as others do, and its approval has no gate. -/
def seedDocument (shipmentId id : Uuid) : Document where
  id := id
  shipmentId := shipmentId
  docType := "MANIFEST"
  documentName := none
  fileUrl := ""
  versionNumber := 1
  uploadedBy := none
  uploadedAt := 0
  fileSize := none
  mimeType := none
  status := .pendingReview
  expiryDate := none
  isMandatory := false
  rejectionReason := none
  createdAt := 0

def seedLeg (shipmentId id : Uuid) : Eta.ShipmentLeg where
  id := id
  shipmentId := shipmentId
  origin := ""
  destination := ""
  etd := none
  eta := none
  createdAt := 0

def seedEvent (shipmentId : Uuid) (category : String) (id : Uuid) : TrackingEvent where
  id := id
  shipmentId := shipmentId
  eventType := "DEPARTED"
  category := category
  location := none
  eventTimeOriginal := none
  eventTimeUtc := 0
  description := none
  source := "MANUAL"
  createdBy := none
  createdAt := 0

def seed (tenantId shipmentId documentId legId : Uuid) (category : String)
    (hshipment : ¬ shipped db shipmentId) (hdocument : ¬ filed db documentId)
    (hleg : ∀ l ∈ db.eta.shipmentLegs, l.id ≠ legId) : Seed db where
  shipment := seedShipment tenantId shipmentId
  document := seedDocument shipmentId documentId
  leg := seedLeg shipmentId legId
  event := seedEvent shipmentId category db.trackingEvents.freshKey
  document_shipmentId := rfl
  leg_shipmentId := rfl
  event_shipmentId := rfl
  shipment_free := fun s hs hid => hshipment ⟨s, hs, hid⟩
  document_free := fun d hd hid => hdocument ⟨d, hd, hid⟩
  leg_free := hleg
  event_free := fun _ he => (Table.key_lt_freshKey he).ne

theorem not_shipped_freshKey : ¬ shipped db db.shipments.freshKey := by
  rintro ⟨s, hs, hid⟩
  exact (Table.key_lt_freshKey hs).ne hid

theorem not_filed_freshKey : ¬ filed db db.documents.freshKey := by
  rintro ⟨d, hd, hid⟩
  exact (Table.key_lt_freshKey hd).ne hid

end Seed

end Friet.Tenancy
