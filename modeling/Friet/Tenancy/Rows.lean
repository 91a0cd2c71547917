import Friet.Eta.Deviations
import Friet.Lib.Views
import Friet.Tenancy.Service

/-!
# Whose rows they are

A row is of the shipment it refers to, or of the shipment of its document, and a shipment
is its tenant's. A write to a row of one shipment leaves the rows of other tenants'
shipments as they were, and every reference in place.
-/

set_option autoImplicit false

namespace Friet.Tenancy

open Session
open Documents (ChecklistItem Document DocumentVersion)
open Eta (EtaDatabase EtaHistory Owns ShipmentLeg)
open Tracking (TrackingEvent)

/-- The shipment is there, and its tenant is one of these. -/
def ownedBy (q : Uuid → Prop) (db : ServiceDatabase) (shipmentId : Uuid) : Prop :=
  ∃ s ∈ db.shipments, s.id = shipmentId ∧ q s.tenantId

/-- The document is there, and of a shipment of such a tenant. -/
def documentOf (q : Uuid → Prop) (db : ServiceDatabase) (documentId : Uuid) : Prop :=
  ∃ d ∈ db.documents, d.id = documentId ∧ ownedBy q db d.shipmentId

section Decide
variable (q : Uuid → Prop) [DecidablePred q] (db : ServiceDatabase)

instance : DecidablePred (ownedBy q db) :=
  fun shipmentId => inferInstanceAs (Decidable (∃ s ∈ db.shipments, s.id = shipmentId ∧ _))

instance : DecidablePred (documentOf q db) :=
  fun documentId => inferInstanceAs (Decidable (∃ d ∈ db.documents, d.id = documentId ∧ _))

end Decide

/-- The rows of shipments, one list a table. -/
structure Rows where
  shipments : List Shipment
  documents : List Document
  documentVersions : List DocumentVersion
  checklistItems : List ChecklistItem
  documentAccessLogs : List DocumentAccessLog
  shipmentLegs : List ShipmentLeg
  etaHistory : List EtaHistory
  trackingEvents : List TrackingEvent
  shipmentExceptions : List ShipmentException

/-- The rows of the shipments of these tenants. -/
def rowsOf (q : Uuid → Prop) [DecidablePred q] (db : ServiceDatabase) : Rows where
  shipments := db.shipments.rows.filter (ownedBy q db ·.id)
  documents := db.documents.rows.filter (ownedBy q db ·.shipmentId)
  documentVersions := db.documentVersions.rows.filter (documentOf q db ·.documentId)
  checklistItems := db.checklistItems.rows.filter (ownedBy q db ·.shipmentId)
  documentAccessLogs := db.documentAccessLogs.rows.filter (documentOf q db ·.documentId)
  shipmentLegs := db.eta.shipmentLegs.rows.filter (ownedBy q db ·.shipmentId)
  etaHistory := db.eta.etaHistory.rows.filter (ownedBy q db ·.shipmentId)
  trackingEvents := db.trackingEvents.rows.filter (ownedBy q db ·.shipmentId)
  shipmentExceptions := db.shipmentExceptions.rows.filter (ownedBy q db ·.shipmentId)

def shipped (db : ServiceDatabase) (shipmentId : Uuid) : Prop :=
  ∃ s ∈ db.shipments, s.id = shipmentId

def filed (db : ServiceDatabase) (documentId : Uuid) : Prop :=
  ∃ d ∈ db.documents, d.id = documentId

/-- What the tables refer to is there, and an ETA record has the shipment of its leg. -/
structure Referential (db : ServiceDatabase) : Prop where
  documents : ∀ d ∈ db.documents, shipped db d.shipmentId
  documentVersions : ∀ v ∈ db.documentVersions, filed db v.documentId
  checklistItems : ∀ i ∈ db.checklistItems, shipped db i.shipmentId
  documentAccessLogs : ∀ l ∈ db.documentAccessLogs, filed db l.documentId
  shipmentLegs : ∀ l ∈ db.eta.shipmentLegs, shipped db l.shipmentId
  etaHistory : ∀ r ∈ db.eta.etaHistory, Owns db.eta.shipmentLegs r.shipmentId r.legId
  trackingEvents : ∀ e ∈ db.trackingEvents, shipped db e.shipmentId
  shipmentExceptions : ∀ e ∈ db.shipmentExceptions, shipped db e.shipmentId

section Owners
variable {q : Uuid → Prop} {db : ServiceDatabase} {s : Shipment} {d : Document}
  {B shipmentId documentId : Uuid}

theorem shipped_of_owned (h : ownedBy q db shipmentId) : shipped db shipmentId := by
  obtain ⟨s, hs, hid, -⟩ := h
  exact ⟨s, hs, hid⟩

theorem filed_of_documentOf (h : documentOf q db documentId) : filed db documentId := by
  obtain ⟨d, hd, hid, -⟩ := h
  exact ⟨d, hd, hid⟩

theorem ownedBy_id_iff (hs : s ∈ db.shipments) : ownedBy q db s.id ↔ q s.tenantId := by
  constructor
  · rintro ⟨s', hs', hid, hq⟩
    rwa [Table.eq_of_key_eq hs hs' hid.symm]
  · exact fun hq => ⟨s, hs, rfl, hq⟩

theorem documentOf_id_iff (hd : d ∈ db.documents) :
    documentOf q db d.id ↔ ownedBy q db d.shipmentId := by
  constructor
  · rintro ⟨d', hd', hid, howned⟩
    rwa [Table.eq_of_key_eq hd hd' hid.symm]
  · exact fun howned => ⟨d, hd, rfl, howned⟩

/-- A shipment is the tenant's or another's, not both. -/
theorem not_owned_of_other (h : ownedBy (· ≠ B) db shipmentId) : ¬ ownedBy (· = B) db shipmentId := by
  obtain ⟨s, hs, rfl, hne⟩ := h
  rw [ownedBy_id_iff hs]
  exact hne

theorem not_documentOf_of_other (h : documentOf (· ≠ B) db documentId) :
    ¬ documentOf (· = B) db documentId := by
  obtain ⟨d, hd, rfl, hother⟩ := h
  rw [documentOf_id_iff hd]
  exact not_owned_of_other hother

end Owners

section Writes
variable {q : Uuid → Prop} [DecidablePred q] {db : ServiceDatabase}

def withLog (mk : Uuid → DocumentAccessLog) (hmk : TakesKey mk) (db : ServiceDatabase) :
    ServiceDatabase :=
  { db with documentAccessLogs := db.documentAccessLogs.insert mk hmk }

theorem rowsOf_withLog {mk : Uuid → DocumentAccessLog} {hmk : TakesKey mk}
    (h : ∀ id, ¬ documentOf q db (mk id).documentId) :
    rowsOf q (withLog mk hmk db) = rowsOf q db := by
  have hlogs : (db.documentAccessLogs.insert mk hmk).rows.filter (documentOf q db ·.documentId) =
      db.documentAccessLogs.rows.filter (documentOf q db ·.documentId) :=
    Table.filter_insert_of_not (decide_eq_false (h _))
  unfold rowsOf
  congr 1

theorem referential_withLog {mk : Uuid → DocumentAccessLog} {hmk : TakesKey mk}
    (hdb : Referential db) (h : ∀ id, filed db (mk id).documentId) :
    Referential (withLog mk hmk db) :=
  { hdb with
    documentAccessLogs := Table.forall_mem_insert.mpr ⟨hdb.documentAccessLogs, h _⟩ }

/-- A rewriting that leaves a document with its shipment. -/
structure KeepsShipment (f : Document → Document) : Prop extends KeepsKey f where
  shipmentId_eq : ∀ d, (f d).shipmentId = d.shipmentId

def withDocument (id : Uuid) (f : Document → Document) (hf : KeepsShipment f)
    (db : ServiceDatabase) : ServiceDatabase :=
  { db with documents := db.documents.update id f hf.toKeepsKey }

section WithDocument
variable {id documentId : Uuid} {f : Document → Document} {hf : KeepsShipment f}

omit [DecidablePred q] in
theorem exists_withDocument {P : Uuid → Prop} :
    (∃ d ∈ (withDocument id f hf db).documents, d.id = documentId ∧ P d.shipmentId) ↔
      ∃ d ∈ db.documents, d.id = documentId ∧ P d.shipmentId := by
  have hkey : ∀ d : Document, (f d).id = d.id := hf.key_eq
  constructor
  · rintro ⟨d, hd, rfl, hP⟩
    rcases Table.mem_update.mp hd with ⟨hd, -⟩ | ⟨d₀, hd₀, -, rfl⟩
    · exact ⟨d, hd, rfl, hP⟩
    · rw [hf.shipmentId_eq] at hP
      exact ⟨d₀, hd₀, (hkey d₀).symm, hP⟩
  · rintro ⟨d, hd, rfl, hP⟩
    by_cases hid : d.id = id
    · refine ⟨f d, Table.mem_update.mpr (Or.inr ⟨d, hd, hid, rfl⟩), hkey d, ?_⟩
      rwa [hf.shipmentId_eq]
    · exact ⟨d, Table.mem_update.mpr (Or.inl ⟨hd, hid⟩), rfl, hP⟩

theorem filed_withDocument (h : filed db documentId) :
    filed (withDocument id f hf db) documentId := by
  obtain ⟨d, hd, hid⟩ := h
  obtain ⟨e, he, hid', -⟩ := (exists_withDocument (P := fun _ => True)).mpr ⟨d, hd, hid, trivial⟩
  exact ⟨e, he, hid'⟩

theorem rowsOf_withDocument (h : ¬ documentOf q db id) :
    rowsOf q (withDocument id f hf db) = rowsOf q db := by
  have hdocuments : (db.documents.update id f hf.toKeepsKey).rows.filter
      (ownedBy q db ·.shipmentId) = db.documents.rows.filter (ownedBy q db ·.shipmentId) := by
    refine Table.filter_update_of_not fun d hd hid => ?_
    have hnot : ¬ ownedBy q db d.shipmentId := fun howned => h ⟨d, hd, hid, howned⟩
    exact ⟨decide_eq_false hnot, decide_eq_false (by rwa [hf.shipmentId_eq])⟩
  have hof : ∀ documentId, decide (documentOf q (withDocument id f hf db) documentId) =
      decide (documentOf q db documentId) := fun _ => decide_eq_decide.mpr exists_withDocument
  unfold rowsOf
  simp only [hof]
  congr 1

theorem referential_withDocument (hdb : Referential db) :
    Referential (withDocument id f hf db) where
  documents := by
    intro d hd
    rcases Table.mem_update.mp hd with ⟨hd, -⟩ | ⟨d₀, hd₀, -, rfl⟩
    · exact hdb.documents d hd
    · rw [hf.shipmentId_eq]
      exact hdb.documents d₀ hd₀
  documentVersions := fun v hv => filed_withDocument (hdb.documentVersions v hv)
  checklistItems := hdb.checklistItems
  documentAccessLogs := fun l hl => filed_withDocument (hdb.documentAccessLogs l hl)
  shipmentLegs := hdb.shipmentLegs
  etaHistory := hdb.etaHistory
  trackingEvents := hdb.trackingEvents
  shipmentExceptions := hdb.shipmentExceptions

end WithDocument

def withItem (id : Uuid) (f : ChecklistItem → ChecklistItem) (hf : KeepsKey f)
    (db : ServiceDatabase) : ServiceDatabase :=
  { db with checklistItems := db.checklistItems.update id f hf }

section WithItem
variable {id : Uuid} {f : ChecklistItem → ChecklistItem} {hf : KeepsKey f}

theorem rowsOf_withItem (hkept : ∀ i, (f i).shipmentId = i.shipmentId)
    (h : ∀ i ∈ db.checklistItems, i.id = id → ¬ ownedBy q db i.shipmentId) :
    rowsOf q (withItem id f hf db) = rowsOf q db := by
  have hitems : (db.checklistItems.update id f hf).rows.filter (ownedBy q db ·.shipmentId) =
      db.checklistItems.rows.filter (ownedBy q db ·.shipmentId) := by
    refine Table.filter_update_of_not fun i hi hid => ?_
    have hnot := h i hi hid
    exact ⟨decide_eq_false hnot, decide_eq_false (by rwa [hkept])⟩
  unfold rowsOf
  congr 1

theorem referential_withItem (hkept : ∀ i, (f i).shipmentId = i.shipmentId)
    (hdb : Referential db) : Referential (withItem id f hf db) :=
  { hdb with
    checklistItems := by
      intro i hi
      rcases Table.mem_update.mp hi with ⟨hi, -⟩ | ⟨i₀, hi₀, -, rfl⟩
      · exact hdb.checklistItems i hi
      · rw [hkept]
        exact hdb.checklistItems i₀ hi₀ }

end WithItem

def withException (mk : Uuid → ShipmentException) (hmk : TakesKey mk) (db : ServiceDatabase) :
    ServiceDatabase :=
  { db with shipmentExceptions := db.shipmentExceptions.insert mk hmk }

section WithException
variable {mk : Uuid → ShipmentException} {hmk : TakesKey mk}

theorem rowsOf_withException (h : ∀ id, ¬ ownedBy q db (mk id).shipmentId) :
    rowsOf q (withException mk hmk db) = rowsOf q db := by
  have hexceptions : (db.shipmentExceptions.insert mk hmk).rows.filter
      (ownedBy q db ·.shipmentId) =
        db.shipmentExceptions.rows.filter (ownedBy q db ·.shipmentId) :=
    Table.filter_insert_of_not (decide_eq_false (h _))
  unfold rowsOf
  congr 1

theorem referential_withException (hdb : Referential db)
    (h : ∀ id, shipped db (mk id).shipmentId) : Referential (withException mk hmk db) :=
  { hdb with
    shipmentExceptions := Table.forall_mem_insert.mpr ⟨hdb.shipmentExceptions, h _⟩ }

end WithException

def withEta (t : EtaDatabase) (db : ServiceDatabase) : ServiceDatabase := { db with eta := t }

section WithEta
variable {t : EtaDatabase}

theorem rowsOf_withEta
    (hlegs : t.shipmentLegs.rows.filter (ownedBy q db ·.shipmentId) =
      db.eta.shipmentLegs.rows.filter (ownedBy q db ·.shipmentId))
    (hhistory : t.etaHistory.rows.filter (ownedBy q db ·.shipmentId) =
      db.eta.etaHistory.rows.filter (ownedBy q db ·.shipmentId)) :
    rowsOf q (withEta t db) = rowsOf q db := by
  unfold rowsOf
  congr 1

theorem referential_withEta (hdb : Referential db)
    (hlegs : ∀ shipmentId legId, Owns t.shipmentLegs shipmentId legId →
      Owns db.eta.shipmentLegs shipmentId legId)
    (hhistory : ∀ r ∈ t.etaHistory, Owns t.shipmentLegs r.shipmentId r.legId) :
    Referential (withEta t db) :=
  { hdb with
    shipmentLegs := by
      intro l hl
      obtain ⟨m, hm, -, hshipment⟩ := hlegs l.shipmentId l.id ⟨l, hl, rfl, rfl⟩
      rw [← hshipment]
      exact hdb.shipmentLegs m hm
    etaHistory := hhistory }

end WithEta

end Writes

end Friet.Tenancy
