import Friet.Documents.Steps

/-!
# The transition gate

The gate reads a status that the checklist keeps beside the document's own. Uploads,
approvals and rejections write both; a request for revision writes the document's
alone, so it must not meet a mandatory item that stands as approved.
-/

set_option autoImplicit false

namespace Friet.Documents

open Session

variable {db db₀ : DocumentDatabase} {rules : List ChecklistRule} {i : Caller × Request}

theorem canProceed_iff {shipmentId : Uuid} {order : RowOrder ChecklistItem} :
    (validateTransitionDocuments shipmentId order db).canProceed = true ↔
      ∀ j ∈ db.checklistItems, j.shipmentId = shipmentId → j.isMandatory = true →
        j.documentId ≠ none ∧ j.status = .approved := by
  have hitem : ∀ j : ChecklistItem, (j.isMissing = false ∧ j.isUnapproved = false) ↔
      j.documentId ≠ none ∧ j.status = .approved := by
    intro j
    unfold ChecklistItem.isUnapproved ChecklistItem.isMissing
    cases j.status <;> simp
  have hgate : (validateTransitionDocuments shipmentId order db).canProceed = true ↔
      ∀ j ∈ mandatoryItems shipmentId db, j.isMissing = false ∧ j.isUnapproved = false := by
    unfold validateTransitionDocuments gateResult
    simp only [List.length_map, List.length_eq_zero_iff, List.filter_eq_nil_iff,
      RowOrder.mem_arrange, Bool.not_eq_true, decide_eq_true_eq, ← forall₂_and]
  rw [hgate]
  unfold mandatoryItems
  simp only [hitem, List.mem_filter, decide_eq_true_eq, and_imp]
  rfl

/-- Behind every mandatory item that stands as approved is a document that is. -/
def Backed (db : DocumentDatabase) : Prop :=
  ∀ j ∈ db.checklistItems, j.isMandatory = true → j.status = .approved →
    ∀ id ∈ j.documentId, ∃ d ∈ db.documents, d.id = id ∧ d.status = .approved

def Request.revised : Request → Option Uuid
  | .requestRevision a => some a.documentId
  | _ => none

/-- No revision is requested of a document whose mandatory item stands as approved. -/
def SparesApproved (db : DocumentDatabase) (i : Caller × Request) : Prop :=
  ∀ j ∈ db.checklistItems, ∀ id ∈ j.documentId, i.2.revised = some id →
    ¬ (j.isMandatory = true ∧ j.status = .approved)

instance (db : DocumentDatabase) (i : Caller × Request) : Decidable (SparesApproved db i) :=
  inferInstanceAs (Decidable (∀ j ∈ db.checklistItems, ∀ id ∈ j.documentId, _))

/-- Writes to one type: items of other types keep their documents. -/
theorem Backed.write (hdb : Backed db) (h : Consistent db) {shipmentId : Uuid} {docType : String}
    {documents : Table Document} (documentVersions : Table DocumentVersion)
    {f : ChecklistItem → ChecklistItem} {hf : KeepsKey f}
    (hothers : ∀ d ∈ db.documents, ¬ ofType shipmentId docType d → d ∈ documents)
    (hown : ∀ j ∈ db.checklistItems, itemFor shipmentId docType j → (f j).isMandatory = true →
      (f j).status = .approved → ∀ id ∈ (f j).documentId,
        ∃ d ∈ documents, d.id = id ∧ d.status = .approved) :
    Backed (itemTables shipmentId docType f hf
      { db with documents := documents, documentVersions := documentVersions }) := by
  intro j hj hmandatory hstatus id hid
  obtain ⟨k, hk, rfl⟩ := Table.mem_updateWhere.mp hj
  split_ifs at hmandatory hstatus hid with hkt
  · exact hown k hk (of_decide_eq_true hkt) hmandatory hstatus id hid
  · obtain ⟨d, hd, hdid, happroved⟩ := hdb k hk hmandatory hstatus id hid
    refine ⟨d, hothers d hd fun hdt => hkt (decide_eq_true ?_), hdid, happroved⟩
    obtain ⟨e, he, heid, het⟩ := h.linked k hk id hid
    obtain rfl : e = d := Table.eq_of_key_eq he hd (heid.trans hdid.symm)
    exact ⟨het.1.symm.trans hdt.1, het.2.symm.trans hdt.2⟩

theorem mem_update_of_not_ofType {d e : Document} (hd : d ∈ db.documents) (he : e ∈ db.documents)
    {f : Document → Document} {hf : KeepsKey f} (hne : ¬ ofType d.shipmentId d.docType e) :
    e ∈ db.documents.update d.id f hf := by
  refine (Table.mem_update_of_mem hd).mpr (Or.inl ⟨he, fun hkey => hne ?_⟩)
  rw [Table.eq_of_key_eq he hd hkey]
  exact ⟨rfl, rfl⟩

theorem backed_step (h : Consistent db) (hdb : Backed db) (hi : SparesApproved db i) :
    Backed (step rules db i) := by
  obtain ⟨caller, request⟩ := i
  refine step_keeps h hdb (fun a d hd _ hdt => ?_) (fun a _ hnone _ => ?_)
    (fun d x hd hdecides => ?_) fun a _ => ?_
  · refine hdb.write h _ (fun e he hne => ?_) fun j _ _ _ hstatus => by cases hstatus
    exact mem_update_of_not_ofType hd he fun het => hne ⟨het.1.trans hdt.1, het.2.trans hdt.2⟩
  · exact hdb.write h _ (fun e he _ => Table.mem_insert_of_mem he)
      fun j _ _ _ hstatus => by cases hstatus
  · refine hdb.write h db.documentVersions
      (fun e he hne => mem_update_of_not_ofType hd he hne) fun j hj hjt hmandatory hstatus id hid => ?_
    obtain ⟨e, he, heid, het⟩ := h.linked j hj id hid
    obtain rfl : e = d := h.eq_document he hd ⟨het.1.trans hjt.1, het.2.trans hjt.2⟩ ⟨rfl, rfl⟩
    cases hdecides with
    | approve _ _ _ => exact ⟨_, (Table.mem_update_of_mem hd).mpr (Or.inr rfl), heid, rfl⟩
    | reject _ _ => cases hstatus
    | revise _ hrid =>
      exact absurd ⟨hmandatory, hstatus⟩ (hi j hj id hid (congrArg some (hrid.symm.trans heid)))
  · intro j hj hmandatory hstatus id hid
    rcases mem_addItems hj with hj | ⟨e, _, k, rfl⟩
    · exact hdb j hj hmandatory hstatus id hid
    · cases hstatus

/-- A revision that is not spared leaves an item standing as approved without a document that is. -/
theorem not_backed_of_revision (h : Consistent db) (hi : ¬ SparesApproved db i) :
    ¬ Backed (step rules db i) := by
  obtain ⟨caller, request⟩ := i
  unfold SparesApproved at hi
  push Not at hi
  obtain ⟨j, hj, id, hid, hrevised, hmandatory, hstatus⟩ := hi
  obtain ⟨d, hd, hdid, _⟩ := h.linked j hj id hid
  cases request with
  | requestRevision a =>
    have hrun := run_requestRevision_ok.mpr
      ⟨d, .revise hd (hdid.trans (Option.some.inj hrevised).symm), rfl, rfl⟩
    intro hbacked
    change Backed (commit (requestRevision a) db) at hbacked
    rw [commit_of_ok hrun, decidedTables_revision] at hbacked
    obtain ⟨e, he, heid, happroved⟩ := hbacked j hj hmandatory hstatus id hid
    rcases (Table.mem_update_of_mem hd).mp he with ⟨_, hne⟩ | rfl
    · exact hne (heid.trans hdid.symm)
    · cases happroved
  | _ => cases hrevised

theorem Fresh.backed (h : Fresh db) : Backed db := by
  unfold Backed
  rw [h.checklistItems]
  exact fun j hj => absurd hj (Table.not_mem_empty j)

/-- Whenever the gate opens, every mandatory item's document is approved. -/
theorem approved_of_canProceed {shipmentId : Uuid} (order : RowOrder ChecklistItem)
    (hfresh : Fresh db₀) (h : Reaches (step rules) SparesApproved db₀ db)
    (hopen : (validateTransitionDocuments shipmentId order db).canProceed = true) :
    ∀ j ∈ db.checklistItems, j.shipmentId = shipmentId → j.isMandatory = true →
      ∃ d ∈ db.documents, j.documentId = some d.id ∧ d.status = .approved := by
  obtain ⟨_, hbacked⟩ : Consistent db ∧ Backed db :=
    h.invariant (fun t => Consistent t ∧ Backed t)
      (fun t i ht hi => ⟨consistent_step ht.1 i, backed_step ht.1 ht.2 hi⟩)
      ⟨hfresh.consistent, hfresh.backed⟩
  intro j hj hshipment hmandatory
  obtain ⟨hlinked, hstatus⟩ := canProceed_iff.mp hopen j hj hshipment hmandatory
  obtain ⟨id, hid⟩ := Option.ne_none_iff_exists'.mp hlinked
  obtain ⟨d, hd, rfl, happroved⟩ := hbacked j hj hmandatory hstatus id hid
  exact ⟨d, hd, hid, happroved⟩

section Verbatim
open Friet.Verbatim

def booked : DocumentDatabase where
  toDatabase := Friet.Verbatim.shipped
  documents := .empty
  documentVersions := .empty
  checklistItems := .empty

theorem fresh_booked : Fresh booked := ⟨rfl, rfl, rfl⟩

def upload (docType : String) : Caller × Request :=
  (clerk, .uploadDocument ⟨1, docType, none, 10, "file", "file.pdf", none, none, false, none⟩)

def approve (documentId : Uuid) : Caller × Request :=
  (clerk, .approveDocument ⟨documentId, ["OPERATIONS"]⟩)

def reviseRequest (documentId : Uuid) : Caller × Request :=
  (clerk, .requestRevision ⟨documentId, "Illegible"⟩)

def generate : Caller × Request := (clerk, .generateChecklist ⟨1, fun _ => none⟩)

/-- The three documents that every shipment needs, asked for, uploaded and approved. -/
def cleared : List (Caller × Request) :=
  [generate, upload "COMMERCIAL_INVOICE", upload "PACKING_LIST", upload "PROOF_OF_DELIVERY",
    approve 0, approve 1, approve 2]

theorem cleared_approved :
    (validateTransitionDocuments 1 .stored
        (cleared.foldl (step defaultChecklistRules) booked)).canProceed = true ∧
    ∀ j ∈ (cleared.foldl (step defaultChecklistRules) booked).checklistItems,
      j.shipmentId = 1 → j.isMandatory = true →
        ∃ d ∈ (cleared.foldl (step defaultChecklistRules) booked).documents,
          j.documentId = some d.id ∧ d.status = .approved := by
  have hopen : (validateTransitionDocuments 1 .stored
      (cleared.foldl (step defaultChecklistRules) booked)).canProceed = true := by decide +kernel
  exact ⟨hopen, approved_of_canProceed .stored fresh_booked
    (show Meets (step defaultChecklistRules) SparesApproved booked cleared by
      decide +kernel).reaches hopen⟩

/-- The gate is open while a revision of a mandatory document is outstanding. -/
theorem gate_open_under_revision :
    (validateTransitionDocuments 1 .stored
        ((cleared ++ [reviseRequest 0]).foldl (step defaultChecklistRules) booked)).canProceed =
      true ∧
    ∃ j ∈ ((cleared ++ [reviseRequest 0]).foldl (step defaultChecklistRules)
        booked).checklistItems, (j.shipmentId = 1 ∧ j.isMandatory = true) ∧
      ∃ d ∈ ((cleared ++ [reviseRequest 0]).foldl (step defaultChecklistRules) booked).documents,
        j.documentId = some d.id ∧ d.status = .revisionRequested := by
  decide +kernel

end Verbatim

end Friet.Documents
