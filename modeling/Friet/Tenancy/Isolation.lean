import Friet.Tenancy.Steps
import Friet.Tenancy.Variants

/-!
# Tenants do not see each other's shipments

A call is isolated from a tenant when the rows of that tenant's shipments make no
difference to its answer, and it writes none of them. The document, ETA, exception and
tracking services look shipments up without their tenant, so what isolates a call is that
the rows it names belong to someone else.
-/

set_option autoImplicit false

namespace Friet.Tenancy

open Session
open Documents (ChecklistItem Document DocumentVersion gateCloses itemFor)
open Eta (EtaText RecordVersion)
open Exceptions (EscalationText)
open Tracking (GetTimeline TrackingEvent)

/-- The answer, without the identifier of the row that the call has added. -/
def Answer.withoutId : Answer → Answer
  | .version x => .version x.withoutId
  | .exception x => .exception { x with exception := { x.exception with id := 0 } }
  | .documents x => .documents x
  | .document x => .document x
  | .approved x => .approved x
  | .timeline x => .timeline x

section Definitions
variable [Text] [EtaText] [EscalationText]

/-- The answers that a call may get, over the orders in which rows are returned. -/
def answers (caller : Caller) (c : Call) (db : ServiceDatabase) : Set (Except TenancyError Answer) :=
  {x | ∃ o, (reply (perform o caller c) db).map Answer.withoutId = x}

/-- Databases that differ in the tenant's rows only answer alike, and those rows stay. -/
structure Isolated (caller : Caller) (B : Uuid) (c : Call) (db : ServiceDatabase) : Prop where
  independent : ∀ db', Referential db' → rowsOf (· ≠ B) db' = rowsOf (· ≠ B) db →
    answers caller c db' = answers caller c db
  untouched : ∀ o, rowsOf (· = B) (after o caller c db) = rowsOf (· = B) db

omit [EtaText] [EscalationText] in
/-- The rows that a call names are another tenant's, or it is refused as it stands. -/
def Confined (B : Uuid) (db : ServiceDatabase) : Call → Prop
  | .listShipmentDocuments a =>
    (a.isPortal = true ∧ a.customerId ≠ none) ∨ ownedBy (· ≠ B) db a.shipmentId
  | .getDocument a => documentOf (· ≠ B) db a.documentId
  | .approveDocument a => documentOf (· ≠ B) db a.documentId
  | .recordVersion a => Eta.Recognised a → Eta.AboutSeen (ownedBy (· ≠ B) db) a db.eta
  | .createException a =>
    (∃ config severity, Exceptions.Recognised a.toCreateException config severity) →
      ownedBy (· ≠ B) db a.shipmentId
  | .getTimeline a => 0 < a.limit → ownedBy (· ≠ B) db a.shipmentId

end Definitions

section Same
variable {q : Uuid → Prop} [DecidablePred q] {db db' : ServiceDatabase} {B : Uuid}
  {shipmentId documentId : Uuid}

theorem ownedBy_of_same (h : rowsOf q db = rowsOf q db') (howned : ownedBy q db shipmentId) :
    ownedBy q db' shipmentId := by
  have howned' := howned
  obtain ⟨s, hs, rfl, -⟩ := howned'
  exact of_decide_eq_true
    (mem_of_part (congrArg Rows.shipments h) hs (decide_eq_true howned)).2

theorem ownedBy_iff_of_same (h : rowsOf q db = rowsOf q db') :
    ownedBy q db shipmentId ↔ ownedBy q db' shipmentId :=
  ⟨ownedBy_of_same h, ownedBy_of_same h.symm⟩

theorem documentOf_of_same (h : rowsOf q db = rowsOf q db') (hof : documentOf q db documentId) :
    documentOf q db' documentId := by
  obtain ⟨d, hd, rfl, howned⟩ := hof
  obtain ⟨hd', howned'⟩ := mem_of_part (congrArg Rows.documents h) hd (decide_eq_true howned)
  exact ⟨d, hd', rfl, of_decide_eq_true howned'⟩

theorem mem_shipments_of_same (h : rowsOf q db = rowsOf q db') {s : Shipment}
    (hs : s ∈ db.shipments) (hq : q s.tenantId) : s ∈ db'.shipments :=
  (mem_of_part (congrArg Rows.shipments h) hs (decide_eq_true ⟨s, hs, rfl, hq⟩)).1

theorem findDocument_of_same (h : rowsOf q db = rowsOf q db') (hof : documentOf q db documentId) :
    db.documents.find? documentId = db'.documents.find? documentId := by
  refine Table.find?_eq_of_part (congrArg Rows.documents h)
    (fun d hd (hid : d.id = documentId) => ?_) fun d hd (hid : d.id = documentId) => ?_
  · exact decide_eq_true ((documentOf_id_iff hd).mp (hid ▸ hof))
  · exact decide_eq_true ((documentOf_id_iff hd).mp (hid ▸ documentOf_of_same h hof))

theorem findShipment_of_same (h : rowsOf q db = rowsOf q db') (howned : ownedBy q db shipmentId) :
    db.shipments.find? shipmentId = db'.shipments.find? shipmentId := by
  refine Table.find?_eq_of_part (congrArg Rows.shipments h)
    (fun s _ (hid : s.id = shipmentId) => ?_) fun s _ (hid : s.id = shipmentId) => ?_
  · exact decide_eq_true (hid ▸ howned)
  · exact decide_eq_true (hid ▸ ownedBy_of_same h howned)

theorem versions_of_same (h : rowsOf q db = rowsOf q db') (hof : documentOf q db documentId)
    (order : RowOrder DocumentVersion) :
    versionsOf order documentId db.documentVersions =
      versionsOf order documentId db'.documentVersions := by
  unfold versionsOf
  rw [filter_eq_of_part (congrArg Rows.documentVersions h) (fun v _ hid => ?_) fun v _ hid => ?_]
  · rw [of_decide_eq_true hid]
    exact decide_eq_true hof
  · rw [of_decide_eq_true hid]
    exact decide_eq_true (documentOf_of_same h hof)

theorem items_of_same (h : rowsOf q db = rowsOf q db') (howned : ownedBy q db shipmentId)
    (docType : String) :
    db.checklistItems.rows.filter (itemFor shipmentId docType ·) =
      db'.checklistItems.rows.filter (itemFor shipmentId docType ·) := by
  refine filter_eq_of_part (congrArg Rows.checklistItems h) (fun i _ hfor => ?_) fun i _ hfor => ?_
  · rw [(of_decide_eq_true hfor).1]
    exact decide_eq_true howned
  · rw [(of_decide_eq_true hfor).1]
    exact decide_eq_true (ownedBy_of_same h howned)

theorem documents_of_same (h : rowsOf q db = rowsOf q db') (howned : ownedBy q db shipmentId) :
    db.documents.rows.filter (·.shipmentId = shipmentId) =
      db'.documents.rows.filter (·.shipmentId = shipmentId) := by
  refine filter_eq_of_part (congrArg Rows.documents h) (fun d _ hid => ?_) fun d _ hid => ?_
  · rw [of_decide_eq_true hid]
    exact decide_eq_true howned
  · rw [of_decide_eq_true hid]
    exact decide_eq_true (ownedBy_of_same h howned)

theorem sameSeenBy_of_same (h : rowsOf q db = rowsOf q db') (hdb : Referential db)
    (hdb' : Referential db') : Eta.SameSeenBy (ownedBy q db) db.eta db'.eta := by
  have hseen : ∀ shipmentId, decide (ownedBy q db' shipmentId) = decide (ownedBy q db shipmentId) :=
    fun _ => decide_eq_decide.mpr (ownedBy_iff_of_same h.symm)
  have hlegs := congrArg Rows.shipmentLegs h
  have hhistory := congrArg Rows.etaHistory h
  simp only [rowsOf, hseen] at hlegs hhistory
  exact ⟨hlegs, congrArg (List.map _) hhistory, hdb.etaHistory, hdb'.etaHistory⟩

end Same

section Alike
variable [Text] [EtaText] [EscalationText] {db db' : ServiceDatabase} {B : Uuid} {o : RowOrders}
  {caller : Caller}

/-- Both answer the same, or refuse for the same reason. -/
abbrev Alike {α : Type} (x y : TenancyM α) (db db' : ServiceDatabase) : Prop :=
  EndAlike (fun a b _ _ => a = b) x y db db'

omit [Text] [EtaText] [EscalationText] in
theorem portalCloses_of_same (h : rowsOf (· ≠ B) db = rowsOf (· ≠ B) db')
    (hne : caller.tenantId ≠ B) {a : ListShipmentDocuments}
    (hcloses : ¬ Documents.portalCloses a.shipmentId caller.tenantId a.isPortal a.customerId
      db.toDocumentDatabase) :
    ¬ Documents.portalCloses a.shipmentId caller.tenantId a.isPortal a.customerId
      db'.toDocumentDatabase := by
  rintro ⟨hportal, c, hc, hnone⟩
  refine hcloses ⟨hportal, c, hc, ?_⟩
  rintro ⟨s, hs, hid, htenant, hcustomer⟩
  exact hnone ⟨s, mem_shipments_of_same h hs (htenant ▸ hne), hid, htenant, hcustomer⟩

omit [Text] [EtaText] [EscalationText] in
theorem listShipmentDocuments_alike (h : rowsOf (· ≠ B) db = rowsOf (· ≠ B) db')
    (hne : caller.tenantId ≠ B) {a : ListShipmentDocuments}
    (hconfined : (a.isPortal = true ∧ a.customerId ≠ none) ∨ ownedBy (· ≠ B) db a.shipmentId) :
    Alike (listShipmentDocuments o caller a) (listShipmentDocuments o caller a) db db' := by
  refine endAlike_bind (endAlike_get (endAlike_orRaise (congrArg _ ?_) fun _ _ => rfl))
  unfold Documents.listShipmentDocuments
  by_cases hcloses : Documents.portalCloses a.shipmentId caller.tenantId a.isPortal a.customerId
      db.toDocumentDatabase
  · rw [if_pos hcloses, if_pos (not_not.mp (mt (portalCloses_of_same h.symm hne) (not_not.mpr
      hcloses)))]
  · rw [if_neg hcloses, if_neg (portalCloses_of_same h hne hcloses)]
    have howned : ownedBy (· ≠ B) db a.shipmentId := by
      rcases hconfined with ⟨hportal, hgiven⟩ | howned
      · -- The portal has found the shipment among the caller's own.
        obtain ⟨c, hc⟩ := Option.ne_none_iff_exists'.mp hgiven
        obtain ⟨s, hs, hid, htenant, -⟩ := not_not.mp fun hnone => hcloses ⟨hportal, c, hc, hnone⟩
        exact ⟨s, hs, hid, htenant ▸ hne⟩
      · exact howned
    unfold Documents.listing
    rw [documents_of_same h howned]

omit [Text] [EtaText] [EscalationText] in
theorem findDocument_alike (h : rowsOf (· ≠ B) db = rowsOf (· ≠ B) db') {documentId : Uuid}
    (hof : documentOf (· ≠ B) db documentId) {Q : Document → Document → ServiceDatabase →
      ServiceDatabase → Prop}
    (hQ : ∀ d ∈ db.documents, d.id = documentId → Q d d db db') :
    EndAlike Q (onDocuments (Documents.findDocument documentId))
      (onDocuments (Documents.findDocument documentId)) db db' := by
  refine endAlike_onPart (endAlike_bind (endAlike_get
    (endAlike_orFail (findDocument_of_same h hof) fun d hd => ?_)))
  obtain ⟨hmem, hid⟩ := Table.find?_eq_some_iff.mp hd
  exact hQ d hmem hid

omit [Text] [EtaText] [EscalationText] in
theorem getDocument_alike (h : rowsOf (· ≠ B) db = rowsOf (· ≠ B) db') {a : GetDocument}
    (hof : documentOf (· ≠ B) db a.documentId) :
    Alike (getDocument o caller a) (getDocument o caller a) db db' := by
  refine endAlike_bind (findDocument_alike h hof fun d _ _ => ?_)
  refine endAlike_bind (endAlike_get ?_)
  rw [versions_of_same h hof]
  refine endAlike_bind ?_
  unfold logView
  cases a.actorId with
  | none => exact endAlike_pure (endAlike_pure rfl)
  | some actorId => exact endAlike_modify (endAlike_pure rfl)

omit [EtaText] [EscalationText] in
theorem approveDocument_alike (h : rowsOf (· ≠ B) db = rowsOf (· ≠ B) db') {a : ApproveDocument}
    (hof : documentOf (· ≠ B) db a.documentId) :
    Alike (approveDocument caller a) (approveDocument caller a) db db' := by
  refine endAlike_bind (endAlike_onPart ?_)
  unfold Documents.approveDocument
  refine endAlike_bind (endAlike_bind (endAlike_get
    (endAlike_orFail (findDocument_of_same h hof) fun d hd => ?_)))
  obtain ⟨hmem, hid⟩ := Table.find?_eq_some_iff.mp hd
  have howned : ownedBy (· ≠ B) db d.shipmentId := by
    rw [← documentOf_id_iff hmem]
    exact (show d.id = a.documentId from hid) ▸ hof
  refine endAlike_bind (endAlike_failIf Iff.rfl fun _ => ?_)
  refine endAlike_bind (endAlike_modify (endAlike_bind ?_))
  -- The documents have been written; the checklist is read after that.
  refine endAlike_bind (endAlike_get (endAlike_bind
    (endAlike_oneOrNone (items_of_same h howned d.docType) fun item _ => ?_)))
  cases item with
  | none =>
    refine endAlike_pure (endAlike_pure ?_)
    exact endAlike_bind (endAlike_modify (endAlike_bind (endAlike_modify (endAlike_pure rfl))))
  | some i =>
    refine endAlike_modify (endAlike_pure ?_)
    exact endAlike_bind (endAlike_modify (endAlike_bind (endAlike_modify (endAlike_pure rfl))))

omit [EtaText] in
/-- A new exception differs in its identifier at most, which no rule looks at. -/
theorem createException_alike (h : rowsOf (· ≠ B) db = rowsOf (· ≠ B) db') {a : CreateException}
    (hconfined : (∃ config severity, Exceptions.Recognised a.toCreateException config severity) →
      ownedBy (· ≠ B) db a.shipmentId) :
    EndAlike (fun x y _ _ => (Answer.exception x).withoutId = (Answer.exception y).withoutId)
      (createException caller a) (createException caller a) db db' := by
  refine endAlike_bind (endAlike_onPart ?_)
  unfold Exceptions.createException
  refine endAlike_bind (endAlike_orFail rfl fun config htype => ?_)
  cases hseverity : Exceptions.finalSeverity a.toCreateException config with
  | error name => exact endAlike_bind endAlike_throw
  | ok severity =>
    refine endAlike_bind (endAlike_pure (endAlike_bind (endAlike_failIf Iff.rfl fun hdomain => ?_)))
    have howned := hconfined ⟨config, severity, htype, hseverity, not_not.mp hdomain⟩
    refine endAlike_bind (endAlike_get (endAlike_bind
      (endAlike_orFail (findShipment_of_same h howned) fun s _ => ?_)))
    refine endAlike_bind (endAlike_modifyGet (endAlike_pure ?_))
    exact endAlike_bind (endAlike_modify (endAlike_pure rfl))

omit [EtaText] [EscalationText] in
theorem getTimeline_alike (h : rowsOf (· ≠ B) db = rowsOf (· ≠ B) db') {a : GetTimeline}
    (hconfined : 0 < a.limit → ownedBy (· ≠ B) db a.shipmentId) :
    Alike (getTimeline o a) (getTimeline o a) db db' := by
  refine endAlike_bind (endAlike_get (endAlike_orRaise (congrArg _ ?_) fun _ _ => rfl))
  unfold Tracking.getTimeline
  by_cases hlimit : 0 < a.limit
  · have howned := hconfined hlimit
    have hselected : db.trackingEvents.rows.filter (a.selects ·) =
        db'.trackingEvents.rows.filter (a.selects ·) := by
      refine filter_eq_of_part (congrArg Rows.trackingEvents h) (fun e _ he => ?_) fun e _ he => ?_
      · rw [(of_decide_eq_true he).1]
        exact decide_eq_true howned
      · rw [(of_decide_eq_true he).1]
        exact decide_eq_true (ownedBy_of_same h howned)
    rw [hselected]
  · -- No event is asked for.
    have hnone : a.limit.toNat = 0 := Int.toNat_of_nonpos (not_lt.mp hlimit)
    simp only [hnone, List.take_zero]

omit [EscalationText] in
theorem recordVersion_alike (h : rowsOf (· ≠ B) db = rowsOf (· ≠ B) db') (hdb : Referential db)
    (hdb' : Referential db') {a : RecordVersion}
    (hconfined : Eta.Recognised a → Eta.AboutSeen (ownedBy (· ≠ B) db) a db.eta) : ∃ order,
      EndAlike (fun x y _ _ => x.withoutId = y.withoutId) (recordVersion o caller a)
        (recordVersion { o with history := order } caller a) db db' := by
  obtain ⟨order, halike⟩ := Eta.recordVersion_of_seen (a := recordingOf o caller a)
    (sameSeenBy_of_same h hdb hdb') hconfined
  exact ⟨order, endAlike_onPart halike⟩

omit [Text] [EtaText] [EscalationText] in
theorem endAlike_return {α β : Type} {x : TenancyM α} {y : TenancyM β} {f : α → Answer}
    {g : β → Answer}
    (h : EndAlike (fun a b _ _ => (f a).withoutId = (g b).withoutId) x y db db') :
    EndAlike (fun a b _ _ => a.withoutId = b.withoutId) (do pure (f (← x)) : TenancyM Answer)
      (do pure (g (← y))) db db' :=
  endAlike_bind (h.imp fun _ _ _ _ hab => endAlike_pure hab)

theorem perform_alike (h : rowsOf (· ≠ B) db = rowsOf (· ≠ B) db') (hdb : Referential db)
    (hdb' : Referential db') (hne : caller.tenantId ≠ B) {c : Call} (hc : Confined B db c) :
    ∃ o', EndAlike (fun x y _ _ => x.withoutId = y.withoutId) (perform o caller c)
      (perform o' caller c) db db' := by
  cases c with
  | listShipmentDocuments a =>
    refine ⟨o, endAlike_return ((listShipmentDocuments_alike h hne hc).imp ?_)⟩
    rintro x _ _ _ rfl
    rfl
  | getDocument a =>
    refine ⟨o, endAlike_return ((getDocument_alike h hc).imp ?_)⟩
    rintro x _ _ _ rfl
    rfl
  | approveDocument a =>
    refine ⟨o, endAlike_return ((approveDocument_alike h hc).imp ?_)⟩
    rintro x _ _ _ rfl
    rfl
  | recordVersion a =>
    obtain ⟨order, halike⟩ := recordVersion_alike (o := o) h hdb hdb' hc
    exact ⟨_, endAlike_return (halike.imp fun _ _ _ _ hxy => congrArg Answer.version hxy)⟩
  | createException a => exact ⟨o, endAlike_return (createException_alike h hc)⟩
  | getTimeline a =>
    refine ⟨o, endAlike_return ((getTimeline_alike h hc).imp ?_)⟩
    rintro x _ _ _ rfl
    rfl

omit [EtaText] [EscalationText] in
theorem confined_of_same (h : rowsOf (· ≠ B) db = rowsOf (· ≠ B) db') {c : Call}
    (hc : Confined B db c) : Confined B db' c := by
  cases c with
  | listShipmentDocuments a => exact hc.imp id (ownedBy_of_same h)
  | getDocument a => exact documentOf_of_same h hc
  | approveDocument a => exact documentOf_of_same h hc
  | recordVersion a =>
    intro hrecognised
    rcases hc hrecognised with ⟨l, hl, hid, howned⟩ | howned
    · have hl' := mem_of_part (congrArg Rows.shipmentLegs h) hl (decide_eq_true howned)
      exact Or.inl ⟨l, hl'.1, hid, of_decide_eq_true hl'.2⟩
    · exact Or.inr (ownedBy_of_same h howned)
  | createException a => exact fun hrecognised => ownedBy_of_same h (hc hrecognised)
  | getTimeline a => exact fun hlimit => ownedBy_of_same h (hc hlimit)

theorem answers_subset (h : rowsOf (· ≠ B) db = rowsOf (· ≠ B) db') (hdb : Referential db)
    (hdb' : Referential db') (hne : caller.tenantId ≠ B) {c : Call} (hc : Confined B db c) :
    answers caller c db ⊆ answers caller c db' := by
  rintro x ⟨o, rfl⟩
  obtain ⟨o', halike⟩ := perform_alike h hdb hdb' hne hc
  exact ⟨o', (map_reply_of_endAlike halike).symm⟩

theorem not_touches {c : Call} (hc : Confined B db c) {x : Answer} {t : ServiceDatabase}
    (hrun : (perform o caller c).run db = .ok x t) : ¬ Touches (· = B) db c := by
  cases c with
  | listShipmentDocuments a => exact not_false
  | getDocument a => exact not_documentOf_of_other hc
  | approveDocument a => exact not_documentOf_of_other hc
  | recordVersion a =>
    obtain ⟨y, hrun, -⟩ := run_return_ok.mp hrun
    obtain ⟨type, leg, h, -⟩ := run_recordVersion_ok.mp ⟨y, hrun⟩
    have hparsed : Eta.VersionType.parse (upper (strip a.type)) ≠ none :=
      Option.ne_none_iff_exists'.mpr ⟨type, h.parsed⟩
    rcases hc ⟨hparsed, h.source⟩ with ⟨l, hl, hid, howned⟩ | howned
    · rw [Table.eq_of_key_eq hl h.mem (hid.trans h.id.symm), h.shipment] at howned
      exact not_owned_of_other howned
    · exact not_owned_of_other howned
  | createException a =>
    obtain ⟨y, hrun, -⟩ := run_return_ok.mp hrun
    obtain ⟨config, severity, h, -, -⟩ := run_createException_ok.mp ⟨y, hrun⟩
    exact not_owned_of_other (hc ⟨config, severity, h⟩)
  | getTimeline a => exact not_false

theorem isolated_of_confined (hdb : Referential db) (hne : caller.tenantId ≠ B) {c : Call}
    (hc : Confined B db c) : Isolated caller B c db := by
  constructor
  · intro db' hdb' hsame
    exact (answers_subset hsame hdb' hdb hne (confined_of_same hsame.symm hc)).antisymm
      (answers_subset hsame.symm hdb hdb' hne hc)
  · intro o
    exact commit_keeps (I := fun t => rowsOf (· = B) t = rowsOf (· = B) db) rfl
      fun x t hrun => rowsOf_of_run hrun (not_touches hc hrun)

end Alike

section Named
variable [Text] [EtaText] [EscalationText] {db : ServiceDatabase} {B : Uuid} {o : RowOrders}
  {caller : Caller} {c : Call}

theorem answers_planted (h : Isolated caller B c db) (hdb : Referential db)
    (x : Seed (bare (· ≠ B) db)) (hx : x.shipment.tenantId = B) :
    answers caller c x.planted = answers caller c (bare (· ≠ B) db) := by
  have hbare := h.independent _ (referential_bare hdb) rowsOf_bare
  have hplanted := h.independent x.planted (referential_planted (referential_bare hdb))
    ((rowsOf_planted (not_not.mpr hx)).trans rowsOf_bare)
  exact hplanted.trans hbare.symm

theorem succeeds_bare (h : Isolated caller B c db) (hdb : Referential db)
    (x : Seed (bare (· ≠ B) db)) (hx : x.shipment.tenantId = B)
    (hplanted : Succeeds (perform .stored caller c) x.planted) :
    ∃ o, Succeeds (perform o caller c) (bare (· ≠ B) db) := by
  obtain ⟨y, t, hrun⟩ := hplanted
  have hmem : (Except.ok y.withoutId : Except TenancyError Answer) ∈
      answers caller c x.planted := ⟨.stored, by rw [reply_of_ok hrun]; rfl⟩
  rw [answers_planted h hdb x hx] at hmem
  obtain ⟨o, ho⟩ := hmem
  refine ⟨o, ?_⟩
  cases hbare : (perform o caller c).run (bare (· ≠ B) db) with
  | ok z u => exact ⟨z, u, hbare⟩
  | error e u =>
    rw [reply_of_error hbare] at ho
    cases ho

omit [Text] [EtaText] [EscalationText] in
theorem succeeds_return {α : Type} {m : TenancyM α} {f : α → Answer} {t : ServiceDatabase} :
    Succeeds (do pure (f (← m)) : TenancyM Answer) t ↔ ∃ u y, m.run t = .ok y u := by
  constructor
  · rintro ⟨x, u, hrun⟩
    obtain ⟨y, hrun, -⟩ := run_return_ok.mp hrun
    exact ⟨u, y, hrun⟩
  · rintro ⟨u, y, hrun⟩
    exact ⟨f y, u, run_return_ok.mpr ⟨y, hrun, rfl⟩⟩

theorem reply_listShipmentDocuments {a : ListShipmentDocuments}
    (hopen : ¬ Documents.portalCloses a.shipmentId caller.tenantId a.isPortal a.customerId
      db.toDocumentDatabase) :
    (reply (perform o caller (.listShipmentDocuments a)) db).map Answer.withoutId =
      .ok (.documents (Documents.listing o.documents a.shipmentId a.userRoles db.documents)) := by
  have hrun : (listShipmentDocuments o caller a).run db =
      .ok (Documents.listing o.documents a.shipmentId a.userRoles db.documents) db := by
    unfold listShipmentDocuments Documents.listShipmentDocuments
    rw [run_get_bind_ok, run_orRaise_ok, if_neg hopen]
    exact ⟨rfl, rfl⟩
  have hperform : (perform o caller (.listShipmentDocuments a)).run db =
      .ok (.documents (Documents.listing o.documents a.shipmentId a.userRoles db.documents)) db :=
    run_return_ok.mpr ⟨_, hrun, rfl⟩
  rw [reply_of_ok hperform]
  rfl

theorem confined_list (hdb : Referential db) {a : ListShipmentDocuments}
    (h : Isolated caller B (.listShipmentDocuments a) db) :
    Confined B db (.listShipmentDocuments a) := by
  by_contra hconfined
  obtain ⟨hportal, hnot⟩ := not_or.mp hconfined
  have hopen : ∀ t, ¬ Documents.portalCloses a.shipmentId caller.tenantId a.isPortal a.customerId
      t := by
    rintro t ⟨hp, c, hc, -⟩
    exact hportal ⟨hp, Option.ne_none_iff_exists'.mpr ⟨c, hc⟩⟩
  have hseed := answers_planted h hdb (seed B a.shipmentId _ _ "" (mt shipped_bare.mp hnot)
    not_filed_freshKey fun l hl => (Table.key_lt_freshKey hl).ne) rfl
  have hmem := hseed.subset ⟨.stored, rfl⟩
  rw [reply_listShipmentDocuments (hopen _)] at hmem
  obtain ⟨o, ho⟩ := hmem
  rw [reply_listShipmentDocuments (hopen _), Except.ok.injEq, Answer.documents.injEq] at ho
  have hempty : Documents.listing o.documents a.shipmentId a.userRoles
      (bare (· ≠ B) db).documents = [] := by
    rw [Documents.listing_eq_nil_iff]
    intro d hd hid
    exact absurd (hid ▸ of_decide_eq_true (Table.mem_restrict.mp hd).2) hnot
  rw [hempty] at ho
  have hmanifest : "MANIFEST" ∈ Documents.transportDocTypes := by decide
  exact Documents.listing_eq_nil_iff.mp ho.symm _ (mem_documents_planted.mpr (Or.inr rfl)) rfl
    fun _ => hmanifest

theorem confined_getDocument (hdb : Referential db) {a : GetDocument}
    (h : Isolated caller B (.getDocument a) db) : Confined B db (.getDocument a) := by
  by_contra hnot
  have hfree : ¬ filed (bare (· ≠ B) db) a.documentId := mt filed_bare.mp hnot
  obtain ⟨o, hsucceeds⟩ := succeeds_bare h hdb (seed B _ a.documentId _ "" not_shipped_freshKey
    hfree fun l hl => (Table.key_lt_freshKey hl).ne) rfl
      (succeeds_return.mpr ⟨_, _, run_getDocument_ok.mpr
        ⟨_, mem_documents_planted.mpr (Or.inr rfl), rfl, rfl, rfl⟩⟩)
  obtain ⟨t, x, hrun⟩ := succeeds_return.mp hsucceeds
  obtain ⟨d, hd, hid, -⟩ := run_getDocument_ok.mp hrun
  exact hfree ⟨d, hd, hid⟩

theorem confined_approveDocument (hdb : Referential db) {a : ApproveDocument}
    (h : Isolated caller B (.approveDocument a) db) : Confined B db (.approveDocument a) := by
  by_contra hnot
  have hfree : ¬ filed (bare (· ≠ B) db) a.documentId := mt filed_bare.mp hnot
  let x : Seed (bare (· ≠ B) db) := seed B _ a.documentId _ "" not_shipped_freshKey hfree
    fun l hl => (Table.key_lt_freshKey hl).ne
  have hopen : ¬ gateCloses a.userRoles "MANIFEST" := by
    rintro ⟨required, hrequired, -⟩
    cases hrequired
  have hitems : x.planted.checklistItems.rows.filter
      (itemFor x.document.shipmentId x.document.docType ·) = [] := by
    refine List.filter_eq_nil_iff.mpr fun i hi hfor => ?_
    obtain ⟨s, hs, hid⟩ := (referential_bare hdb).checklistItems i hi
    exact x.shipment_free s hs (hid.trans (of_decide_eq_true hfor).1)
  obtain ⟨o, hsucceeds⟩ := succeeds_bare h hdb x rfl (succeeds_return.mpr ⟨_, _,
    run_approveDocument_ok.mpr ⟨x.document, none,
      ⟨mem_documents_planted.mpr (Or.inr rfl), rfl, hopen, hitems⟩, rfl, rfl⟩⟩)
  obtain ⟨t, y, hrun⟩ := succeeds_return.mp hsucceeds
  obtain ⟨d, item, happrovable, -⟩ := run_approveDocument_ok.mp hrun
  exact hfree ⟨d, happrovable.mem, happrovable.id⟩

theorem confined_recordVersion (hdb : Referential db) {a : RecordVersion}
    (h : Isolated caller B (.recordVersion a) db) : Confined B db (.recordVersion a) := by
  intro hrecognised
  by_contra hnot
  obtain ⟨hleg, hshipment⟩ := not_or.mp hnot
  have hfree : ∀ l ∈ (bare (· ≠ B) db).eta.shipmentLegs, l.id ≠ a.legId := by
    intro l hl hid
    obtain ⟨hl, howned⟩ := Table.mem_restrict.mp hl
    exact hleg ⟨l, hl, hid, of_decide_eq_true howned⟩
  obtain ⟨type, htype⟩ := Option.ne_none_iff_exists'.mp hrecognised.1
  let x : Seed (bare (· ≠ B) db) := seed B a.shipmentId _ a.legId "" (mt shipped_bare.mp hshipment)
    not_filed_freshKey hfree
  have haccepted : Eta.Accepted (recordingOf .stored caller a) x.planted.eta type x.leg :=
    ⟨htype, hrecognised.2, mem_shipmentLegs_planted.mpr (Or.inr rfl), rfl, rfl⟩
  obtain ⟨o, hsucceeds⟩ := succeeds_bare h hdb x rfl
    (succeeds_return.mpr ⟨_, run_recordVersion_ok.mpr ⟨type, x.leg, haccepted, rfl⟩⟩)
  obtain ⟨t, y, hrun⟩ := succeeds_return.mp hsucceeds
  obtain ⟨type', leg, haccepted', -⟩ := run_recordVersion_ok.mp ⟨y, hrun⟩
  exact hfree leg haccepted'.mem haccepted'.id

theorem confined_createException (hdb : Referential db) {a : CreateException}
    (h : Isolated caller B (.createException a) db) : Confined B db (.createException a) := by
  rintro ⟨config, severity, hrecognised⟩
  by_contra hnot
  have hfree : ¬ shipped (bare (· ≠ B) db) a.shipmentId := mt shipped_bare.mp hnot
  let x : Seed (bare (· ≠ B) db) := seed B a.shipmentId _ _ "" hfree not_filed_freshKey
    fun l hl => (Table.key_lt_freshKey hl).ne
  obtain ⟨o, hsucceeds⟩ := succeeds_bare h hdb x rfl (succeeds_return.mpr ⟨_,
    run_createException_ok.mpr ⟨config, severity, hrecognised, shipped_seed, _, rfl, rfl⟩⟩)
  obtain ⟨t, y, hrun⟩ := succeeds_return.mp hsucceeds
  obtain ⟨_, _, -, hshipped, -⟩ := run_createException_ok.mp ⟨y, hrun⟩
  exact hfree hshipped

/-- The timeline that a call with a positive limit gets. -/
def timelineOf (order : RowOrder TrackingEvent) (a : GetTimeline) (db : ServiceDatabase) :
    List Tracking.TimelineEntry :=
  (((order.arrange (db.trackingEvents.rows.filter (a.selects ·))).insertionSort
    Tracking.latestFirst).take a.limit.toNat).map TrackingEvent.entry

omit [EtaText] [EscalationText] in
theorem length_timelineOf (order : RowOrder TrackingEvent) (a : GetTimeline) :
    (timelineOf order a db).length =
      min a.limit.toNat (db.trackingEvents.rows.filter (a.selects ·)).length := by
  unfold timelineOf
  rw [List.length_map, List.length_take, List.length_insertionSort, (order.perm _).length_eq]

theorem reply_getTimeline {a : GetTimeline} (hlimit : 0 < a.limit) :
    (reply (perform o caller (.getTimeline a)) db).map Answer.withoutId =
      .ok (.timeline (timelineOf o.events a db)) := by
  have hrun : (getTimeline o a).run db = .ok (timelineOf o.events a db) db := by
    unfold getTimeline Tracking.getTimeline
    rw [run_get_bind_ok, run_orRaise_ok, if_neg hlimit.le.not_gt]
    exact ⟨rfl, rfl⟩
  have hperform : (perform o caller (.getTimeline a)).run db =
      .ok (.timeline (timelineOf o.events a db)) db := run_return_ok.mpr ⟨_, hrun, rfl⟩
  rw [reply_of_ok hperform]
  rfl

theorem confined_getTimeline (hdb : Referential db) {a : GetTimeline}
    (h : Isolated caller B (.getTimeline a) db) : Confined B db (.getTimeline a) := by
  intro hlimit
  by_contra hnot
  let x : Seed (bare (· ≠ B) db) := seed B a.shipmentId _ _ ((given a.category).elim "" upper)
    (mt shipped_bare.mp hnot) not_filed_freshKey fun l hl => (Table.key_lt_freshKey hl).ne
  have hmem := (answers_planted h hdb x rfl).subset ⟨.stored, rfl⟩
  rw [reply_getTimeline hlimit] at hmem
  obtain ⟨o, ho⟩ := hmem
  rw [reply_getTimeline hlimit, Except.ok.injEq, Answer.timeline.injEq] at ho
  have hempty : (bare (· ≠ B) db).trackingEvents.rows.filter (a.selects ·) = [] := by
    refine List.filter_eq_nil_iff.mpr fun e he hselects => hnot ?_
    rw [← (of_decide_eq_true hselects).1]
    exact of_decide_eq_true (Table.mem_restrict.mp he).2
  have hevent : x.event ∈ x.planted.trackingEvents.rows.filter (a.selects ·) := by
    refine List.mem_filter.mpr ⟨mem_trackingEvents_planted.mpr (Or.inr rfl), decide_eq_true ?_⟩
    refine ⟨rfl, fun c hc => ?_⟩
    change (given a.category).elim "" upper = upper c
    rw [hc]
    rfl
  have hlength := congrArg List.length ho
  rw [length_timelineOf, length_timelineOf, hempty, List.length_nil] at hlength
  have hpos : 0 < (x.planted.trackingEvents.rows.filter (a.selects ·)).length :=
    List.length_pos_of_mem hevent
  omega

theorem isolated_iff_confined (hdb : Referential db) (hne : caller.tenantId ≠ B) :
    Isolated caller B c db ↔ Confined B db c := by
  constructor
  · intro h
    cases c with
    | listShipmentDocuments a => exact confined_list hdb h
    | getDocument a => exact confined_getDocument hdb h
    | approveDocument a => exact confined_approveDocument hdb h
    | recordVersion a => exact confined_recordVersion hdb h
    | createException a => exact confined_createException hdb h
    | getTimeline a => exact confined_getTimeline hdb h
  · exact isolated_of_confined hdb hne

/-- A call is isolated from another tenant exactly when it names none of its rows. -/
theorem isolated_iff (hdb : Referential db) (hne : caller.tenantId ≠ B) :
    Isolated caller B c db ↔ Confined B db c := isolated_iff_confined hdb hne

end Named

section Verbatim
open Friet.Verbatim
open Documents (booked upload)

/-- The first tenant's shipment, with one document. -/
def manifested : ServiceDatabase where
  toDocumentDatabase := Documents.step [] booked (upload "MANIFEST")
  documentAccessLogs := .empty
  documentAudit := .empty
  eta := ⟨.empty, .empty, .empty, .empty⟩
  trackingEvents := .empty
  exceptionAudit := .empty
  exceptionEvents := .empty

theorem referential_manifested : Referential manifested := by
  constructor <;> simp only [shipped, filed, Eta.Owns] <;> decide +kernel

def outsider : Caller := { clerk with tenantId := 2 }

def approveManifest : Call := .approveDocument ⟨⟨0, []⟩, none, none⟩

theorem own_document_isolated : Referential manifested ∧ clerk.tenantId ≠ 2 ∧
    (Isolated clerk 2 approveManifest manifested ↔ Confined 2 manifested approveManifest) :=
  ⟨referential_manifested, by decide, isolated_iff referential_manifested (by decide)⟩

/-- Another tenant reads a document by its identifier, and approves it. -/
theorem document_read_and_approved_by_outsider :
    Referential manifested ∧ outsider.tenantId ≠ 1 ∧
      ¬ Isolated outsider 1 (.getDocument ⟨0, none, none⟩) manifested ∧
      rowsOf (· = 1) (after .stored outsider approveManifest manifested) ≠
        rowsOf (· = 1) manifested := by
  refine ⟨referential_manifested, by decide, fun h => ?_, fun h => ?_⟩
  · have hof : documentOf (· ≠ 1) manifested 0 :=
      (isolated_iff_confined referential_manifested (by decide)).mp h
    revert hof
    decide +kernel
  · have hdocuments := congrArg (fun r => r.documents.map (·.status)) h
    revert hdocuments
    decide +kernel

end Verbatim

end Friet.Tenancy
