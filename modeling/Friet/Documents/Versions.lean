import Friet.Documents.Gate
import Friet.Lib.History

/-!
# The version records of a document

Every upload writes a record and brings the document's own row up to it; decisions
write neither. So the records of a document are numbered without a gap, and the
document tells what its last record tells.
-/

set_option autoImplicit false

namespace Friet.Documents

open History

variable {db db₀ : DocumentDatabase} {rules : List ChecklistRule} {d : Document}

def recordsOf (documentId : Uuid) (db : DocumentDatabase) : List DocumentVersion :=
  db.documentVersions.rows.filter (·.documentId = documentId)

/-- The record is of the document's current version. -/
def Records (v : DocumentVersion) (d : Document) : Prop :=
  v.documentId = d.id ∧ v.versionNumber = d.versionNumber ∧ v.fileUrl = d.fileUrl ∧
    v.fileSize = d.fileSize

instance (v : DocumentVersion) (d : Document) : Decidable (Records v d) :=
  inferInstanceAs (Decidable (_ ∧ _))

structure Recorded (db : DocumentDatabase) : Prop where
  owned : ∀ v ∈ db.documentVersions, ∃ d ∈ db.documents, d.id = v.documentId
  numbered : ∀ d ∈ db.documents, Numbered DocumentVersion.versionNumber
    (fun v => v.documentId = d.id) d.versionNumber db.documentVersions
  current : ∀ d ∈ db.documents, ∃ v ∈ db.documentVersions, Records v d

section Step
variable {caller : Caller} {a : UploadDocument}

theorem recorded_revised (h : Recorded db) (hd : d ∈ db.documents) :
    Recorded (revisedTables caller a d db) where
  owned := by
    refine Table.forall_mem_insert.mpr ⟨fun v hv => ?_, ?_⟩
    · obtain ⟨e, he, hev⟩ := h.owned v hv
      obtain ⟨e', he', hkey, _⟩ := follows_revise (a := a) (d := d) e he
      exact ⟨e', he', hkey.trans hev⟩
    · exact ⟨_, (Table.mem_update_of_mem hd).mpr (Or.inr rfl), rfl⟩
  numbered := by
    refine (Table.forall_mem_update hd).mpr ⟨fun e he hne => ?_, ?_⟩
    · exact (h.numbered e he).insert_of_not (decide_eq_false fun heq => hne heq.symm)
    · exact (h.numbered d hd).insert (decide_eq_true rfl) rfl
  current := by
    refine (Table.forall_mem_update hd).mpr ⟨fun e he _ => ?_, ?_⟩
    · obtain ⟨v, hv, hrecords⟩ := h.current e he
      exact ⟨v, Table.mem_insert_of_mem hv, hrecords⟩
    · exact ⟨_, Table.mem_insert_self, rfl, rfl, rfl, rfl⟩

theorem recorded_created (h : Recorded db) : Recorded (createdTables caller a db) where
  owned := by
    refine Table.forall_mem_insert.mpr ⟨fun v hv => ?_, _, Table.mem_insert_self, rfl⟩
    obtain ⟨d, hd, hdv⟩ := h.owned v hv
    exact ⟨d, Table.mem_insert_of_mem hd, hdv⟩
  numbered := by
    refine Table.forall_mem_insert.mpr ⟨fun d hd => ?_, ?_⟩
    · exact (h.numbered d hd).insert_of_not
        (decide_eq_false (ne_of_gt (Table.key_lt_freshKey hd)))
    · refine (numbered_zero fun v hv => ?_).insert (decide_eq_true rfl) rfl
      obtain ⟨d, hd, hdv⟩ := h.owned v hv
      exact decide_eq_false (hdv ▸ ne_of_lt (Table.key_lt_freshKey hd))
  current := by
    refine Table.forall_mem_insert.mpr ⟨fun d hd => ?_, _, Table.mem_insert_self, rfl, rfl, rfl, rfl⟩
    obtain ⟨v, hv, hrecords⟩ := h.current d hd
    exact ⟨v, Table.mem_insert_of_mem hv, hrecords⟩

theorem recorded_decided (h : Recorded db) (hd : d ∈ db.documents) {x : Decision} :
    Recorded (decidedTables x d db) where
  owned := by
    intro v hv
    obtain ⟨e, he, hev⟩ := h.owned v hv
    obtain ⟨e', he', hkey, _⟩ := follows_decide (x := x) (d := d) e he
    exact ⟨e', he', hkey.trans hev⟩
  numbered :=
    (Table.forall_mem_update hd).mpr ⟨fun e he _ => h.numbered e he, h.numbered d hd⟩
  current := (Table.forall_mem_update hd).mpr ⟨fun e he _ => h.current e he, h.current d hd⟩

theorem recorded_step (h : Consistent db) (hdb : Recorded db) (i : Caller × Request) :
    Recorded (step rules db i) :=
  step_keeps h hdb (fun _ _ hd _ _ => recorded_revised hdb hd) (fun _ _ _ _ => recorded_created hdb)
    (fun _ _ hd _ => recorded_decided hdb hd) fun _ _ => ⟨hdb.owned, hdb.numbered, hdb.current⟩

/-- A record that has been written stays as it is. -/
theorem record_stays (h : Consistent db) (i : Caller × Request) :
    ∀ v ∈ db.documentVersions, v ∈ (step rules db i).documentVersions := by
  intro v hv
  exact step_keeps (I := fun t => v ∈ t.documentVersions) h hv (fun _ _ _ _ _ => Table.mem_insert_of_mem hv)
    (fun _ _ _ _ => Table.mem_insert_of_mem hv) (fun _ _ _ _ => hv) fun _ _ => hv

end Step

theorem Fresh.recorded (h : Fresh db) : Recorded db where
  owned := by
    rw [h.documentVersions]
    exact fun v hv => absurd hv (Table.not_mem_empty v)
  numbered := by
    rw [h.documents]
    exact fun d hd => absurd hd (Table.not_mem_empty d)
  current := by
    rw [h.documents]
    exact fun d hd => absurd hd (Table.not_mem_empty d)

/-- One document a type; its records are numbered 1 to `n`, stay, and it agrees with the last. -/
theorem document_history (hfresh : Fresh db₀) (h : Reaches (step rules) Always db₀ db) :
    (∀ d ∈ db.documents, ∀ e ∈ db.documents, d.shipmentId = e.shipmentId → d.docType = e.docType →
      d = e) ∧
    (∀ d ∈ db.documents,
      (recordsOf d.id db).map (·.versionNumber) = List.range' 1 (recordsOf d.id db).length ∧
      d.versionNumber = (recordsOf d.id db).length ∧ ∃ v ∈ recordsOf d.id db, Records v d) ∧
    ∀ db', Reaches (step rules) Always db db' →
      ∀ v ∈ db.documentVersions, v ∈ db'.documentVersions := by
  obtain ⟨hconsistent, hrecorded⟩ : Consistent db ∧ Recorded db :=
    h.invariant (fun t => Consistent t ∧ Recorded t)
      (fun t i ht _ => ⟨consistent_step ht.1 i, recorded_step ht.1 ht.2 i⟩)
      ⟨hfresh.consistent, hfresh.recorded⟩
  refine ⟨fun d hd e he hs ht => ?_, fun d hd => ?_, fun db' hreach => ?_⟩
  · exact hconsistent.eq_document hd he ⟨rfl, rfl⟩ ⟨hs.symm, ht.symm⟩
  · have hnumbered := hrecorded.numbered d hd
    obtain ⟨v, hv, hrecords⟩ := hrecorded.current d hd
    have hlength : (recordsOf d.id db).length = d.versionNumber := hnumbered.length
    refine ⟨?_, hlength.symm, v, List.mem_filter.mpr ⟨hv, decide_eq_true hrecords.1⟩, hrecords⟩
    rw [hlength]
    exact hnumbered
  · exact hreach.preorder (fun t u => ∀ v ∈ t.documentVersions, v ∈ u.documentVersions) Consistent
      (fun _ _ hv => hv) (fun _ _ _ hab hbc v hv => hbc v (hab v hv))
      (fun _ i ht _ => consistent_step ht i) (fun _ i ht _ => record_stays ht i) hconsistent

section Verbatim
open Friet.Verbatim

def reuploaded : List (Caller × Request) :=
  [upload "PACKING_LIST", (clerk, .rejectDocument ⟨0, "Wrong shipper"⟩), upload "PACKING_LIST"]

theorem reuploaded_history :
    (∃ d ∈ (reuploaded.foldl (step []) booked).documents, d.versionNumber = 2) ∧
    ∀ d ∈ (reuploaded.foldl (step []) booked).documents,
      (recordsOf d.id (reuploaded.foldl (step []) booked)).map (·.versionNumber) =
        List.range' 1 (recordsOf d.id (reuploaded.foldl (step []) booked)).length ∧
      d.versionNumber = (recordsOf d.id (reuploaded.foldl (step []) booked)).length ∧
      ∃ v ∈ recordsOf d.id (reuploaded.foldl (step []) booked), Records v d :=
  ⟨by decide +kernel, (document_history fresh_booked (reaches_foldl _ _ _)).2.1⟩

end Verbatim

end Friet.Documents
