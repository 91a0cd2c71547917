import Friet.Dgr.Gate

/-!
# Runs of the dangerous goods services

Every call keeps validations, exceptions and approvals together, also one that
raises half way. A declaration goes through exactly when the gate is open.
-/

set_option autoImplicit false

namespace Friet.Dgr

open Session

section World
variable {σ α : Type} {w : World σ} {E : World σ → Prop}

theorem ends_uuid4 {Q : Uuid → World σ → Prop} (h : Q w.drawn { w with drawn := w.drawn + 1 }) :
    Ends uuid4 Q E w := ends_modifyGet h

theorem ends_write {f : σ → σ} {Q : PUnit → World σ → Prop}
    (h : Q ⟨⟩ { w with repo := f w.repo }) : Ends (write f) Q E w := ends_modify h

theorem ends_read {f : σ → α} {Q : α → World σ → Prop} (h : Q (f w.repo) w) :
    Ends (read f) Q E w := ends_bind (ends_get h)

end World

section Calls
variable [Text] [Library] {σ : Type} {R : Repository σ} {view : σ → Tables}

def Stands (view : σ → Tables) (w : World σ) : Prop := Linked (view w.repo) w.drawn

def Sound (view : σ → Tables) (items : List DgrItem) (w : World σ) : Prop :=
  Stands view w ∧ (view w.repo).items = items

variable {w : World σ}

omit [Text] in
theorem createRule_sound (hR : R.Lawful view) (caller : Caller) (p : DgrRuleCreate)
    (h : Stands view w) :
    Ends (createRule R caller p) (fun _ => Stands view)
      (Stands view) w := by
  refine ends_bind (ends_uuid4 (ends_bind (ends_write (ends_pure ?_))))
  unfold Stands
  rw [hR.saveRule]
  exact (h.mono (Nat.le_succ _)).congr rfl rfl rfl (List.Subset.refl _)

omit [Text] in
theorem captureItem_sound (hR : R.Lawful view) (caller : Caller) (shipmentId : Uuid)
    (p : DgrItemCapture) (h : Stands view w) :
    Ends (captureItem R caller shipmentId p) (fun _ => Stands view)
      (Stands view) w := by
  refine ends_bind (ends_uuid4 (ends_bind (ends_write (ends_pure ?_))))
  unfold Stands
  rw [hR.saveItem]
  exact h.addItem rfl

omit [Text] in
/-- One more check, after the exception that it raises if it fails. -/
theorem Tables.Progress.addCheck {t : Tables} {item : DgrItem} {checks : List DgrValidationCheck}
    {status status' : Verdict} {c : DgrValidationCheck} (h : t.Progress item checks status)
    (ruleId : Uuid) (hrule : c.ruleId = some ruleId)
    (hstatus : status' = .pass → status = .pass ∧ c.result = .pass)
    (hraised : c.result = .fail → ∃ e ∈ t.exceptions, e.itemId = item.id ∧ e.ruleId = ruleId ∧
      e.createdAt = c.timestamp) : t.Progress item (checks ++ [c]) status' where
  unFailed hinvalid := by
    obtain ⟨d, hd, hfailed⟩ := h.unFailed hinvalid
    exact ⟨d, List.mem_append_left _ hd, hfailed⟩
  unPassed d hd hnone hfail := by
    rcases List.mem_append.mp hd with hd | hd
    · exact h.unPassed d hd hnone hfail
    · rw [List.mem_singleton.mp hd, hrule] at hnone
      cases hnone
  status hpass d hd := by
    rcases List.mem_append.mp hd with hd | hd
    · exact h.status (hstatus hpass).1 d hd
    · rw [List.mem_singleton.mp hd]
      exact (hstatus hpass).2
  raised d hd id hid hfail := by
    rcases List.mem_append.mp hd with hd | hd
    · exact h.raised d hd id hid hfail
    · rw [List.mem_singleton.mp hd] at hid hfail ⊢
      obtain rfl : ruleId = id := Option.some.inj (hrule.symm.trans hid)
      exact hraised hfail

omit [Text] in
theorem progress_unCheck (t : Tables) (item : DgrItem) (asOf : Timestamp) :
    t.Progress item [unCheck item asOf] (if item.unValid then .pass else .fail) where
  unFailed hinvalid := ⟨_, List.mem_singleton_self _, rfl, by simp [unCheck, hinvalid]⟩
  unPassed c hc _ hfail := by
    rw [List.mem_singleton.mp hc] at hfail
    by_contra hvalid
    simp [unCheck, hvalid] at hfail
  status hpass c hc := by
    rw [List.mem_singleton.mp hc]
    exact hpass
  raised c hc ruleId hrule _ := by
    rw [List.mem_singleton.mp hc] at hrule
    cases hrule

theorem checkRules_ends (hR : R.Lawful view) (caller : Caller) (item : DgrItem)
    (items : List DgrItem) (rules : List DgrRule) (checks : List DgrValidationCheck)
    (status : Verdict) (h : Sound view items w)
    (hprogress : (view w.repo).Progress item checks status) :
    Ends (checkRules R caller item rules checks status)
      (fun r w => Sound view items w ∧ (view w.repo).Progress item r.1 r.2) (Sound view items) w := by
  induction rules generalizing checks status w with
  | nil => exact ends_pure ⟨h, hprogress⟩
  | cons rule rules ih =>
    refine ends_bind (ends_orRaise h fun failure _ => ?_)
    cases failure with
    | none =>
      refine ih _ _ h (hprogress.addCheck rule.id rfl (fun hpass => ⟨hpass, rfl⟩) ?_)
      intro hfail
      cases hfail
    | some reason =>
      refine ends_bind (ends_uuid4 (ends_bind (ends_write ?_)))
      have hview := hR.saveException ⟨w.drawn, caller.tenantId, item.id, item.shipmentId, rule.id,
        .open, reason, caller.now⟩ w.repo
      refine ih _ _ ⟨?_, ?_⟩ ?_
      · unfold Stands
        rw [hview]
        exact h.1.addException rfl rfl
      · rw [hview]
        exact h.2
      · rw [hview]
        refine (hprogress.mono (.of_subset (List.subset_append_left _ _))).addCheck
          rule.id rfl (by rintro ⟨⟩) fun _ => ?_
        exact ⟨_, List.mem_append_right _ (List.mem_singleton_self _), rfl, rfl, rfl⟩

theorem validateItem_ends (hR : R.Lawful view) (caller : Caller) (shipmentId : Uuid)
    (rules : List DgrRule) {item : DgrItem} {items : List DgrItem} (hitem : item ∈ items)
    (h : Sound view items w) :
    Ends (validateItem R caller shipmentId rules item) (fun _ => Sound view items)
      (Sound view items) w := by
  refine ends_bind ((checkRules_ends hR caller item items rules _ _ h
    (progress_unCheck _ item caller.now)).imp ?_ fun _ h => h)
  rintro ⟨checks, status⟩ w ⟨hsound, hprogress⟩
  refine ends_bind (ends_uuid4 (ends_bind (ends_write (ends_pure ?_))))
  unfold Sound Stands
  rw [hR.saveSnapshot]
  have hdrawn : Linked (view w.repo) (w.drawn + 1) := hsound.1.mono (Nat.le_succ _)
  exact ⟨hdrawn.addSnapshot (hsound.2 ▸ hitem) rfl hprogress, hsound.2⟩

theorem validateItems_sound (hR : R.Lawful view) (caller : Caller) (shipmentId : Uuid)
    (h : Stands view w) :
    Ends (validateItems R caller shipmentId) (fun _ => Stands view)
      (Stands view) w := by
  refine ends_bind (ends_read (ends_bind (ends_failIf (fun _ => h) fun _ =>
    ends_bind (ends_read ?_))))
  have hloop := ends_mapM (P := Sound view (view w.repo).items)
    (R.getItemsByShipment shipmentId w.repo)
    (f := validateItem R caller shipmentId (R.getActiveRules caller.tenantId caller.now w.repo))
    (fun item hitem t ht => validateItem_ends hR caller shipmentId _
      ((hR.getItemsByShipment shipmentId w.repo item).mp hitem).1 ht) ⟨h, rfl⟩
  exact hloop.imp (fun _ _ hsound => hsound.1) fun _ hsound => hsound.1

omit [Library] in
theorem checkOverridable_ends (exc : DgrException) :
    Ends (checkOverridable R exc) (fun _ t => t = w) (fun t => t = w) w := by
  refine ends_bind (ends_read ?_)
  cases R.getRule exc.ruleId w.repo with
  | none => exact ends_pure rfl
  | some rule => exact ends_failIf (fun _ => rfl) fun _ => rfl

omit [Text] in
theorem closeExceptions_ends (hR : R.Lawful view) {exceptions : List DgrException} (itemId : Uuid)
    (hitem : ∀ e ∈ exceptions, e.itemId = itemId) (h : Stands view w)
    (hknown : ∀ e ∈ exceptions, (view w.repo).Known e)
    (happroval : ∃ a ∈ (view w.repo).approvals, a.itemId = itemId) :
    Ends (exceptions.forM (closeException R)) (fun _ => Stands view)
      (Stands view) w := by
  have hloop := ends_forM (P := fun w : World σ => Stands view w ∧
      (∀ e ∈ exceptions, (view w.repo).Known e) ∧ ∃ a ∈ (view w.repo).approvals, a.itemId = itemId)
    (f := closeException R) (s := w) exceptions ?_ ⟨h, hknown, happroval⟩
  · exact hloop.imp (fun _ _ h => h.1) fun _ h => h.1
  · rintro exc hexc t ⟨hlinked, hknown, happroval⟩
    refine ends_write ?_
    unfold Stands
    rw [hR.updateException]
    have hexcKnown : (view t.repo).Known { exc with status := .approved } := hknown exc hexc
    refine ⟨hlinked.replaced hexcKnown ?_, fun e he => ?_, happroval⟩
    · obtain ⟨a, ha, hid⟩ := happroval
      exact ⟨a, ha, hid.trans (hitem exc hexc).symm⟩
    · exact hexcKnown.replaced (hknown e he) hlinked.exceptions_inj

theorem approveException_sound (hR : R.Lawful view) (caller : Caller) (itemId : Uuid)
    (p : DgrApprovalRequest) (h : Stands view w) :
    Ends (approveException R caller itemId p) (fun _ => Stands view)
      (Stands view) w := by
  refine ends_bind (ends_read (ends_bind (ends_orFail (fun _ => h) fun item _ =>
    ends_bind (ends_failIf (fun _ => h) fun _ => ends_bind (ends_read (ends_bind
      (ends_failIf (fun _ => h) fun _ => ?_)))))))
  have hopen := hR.getOpenExceptions itemId w.repo
  generalize R.getOpenExceptions itemId w.repo = exceptions at hopen ⊢
  have hchecks := ends_forM (P := fun t : World σ => t = w) (s := w)
    (f := checkOverridable R) exceptions (by rintro exc - t rfl; exact checkOverridable_ends exc) rfl
  refine ends_bind (hchecks.imp ?_ ?_)
  · rintro - t rfl
    refine ends_bind (ends_uuid4 (ends_bind (ends_uuid4 (ends_bind (ends_write ?_)))))
    have hview := hR.saveApproval ⟨t.drawn, caller.tenantId, itemId, caller.userId, p.reason,
      caller.now, t.drawn + 1⟩ t.repo
    refine ends_bind ((closeExceptions_ends hR itemId
      (fun e he => ((hopen e).mp he).2.1) ?_ ?_ ?_).imp (fun _ u hu => ?_) fun _ h => h)
    · unfold Stands
      rw [hview]
      exact (h.mono ((Nat.le_succ _).trans (Nat.le_succ _))).congr rfl rfl rfl
        (List.subset_append_left _ _)
    · rw [hview]
      exact fun e he => ⟨e, ((hopen e).mp he).1, rfl, rfl, rfl, rfl⟩
    · rw [hview]
      exact ⟨_, List.mem_append_right _ (List.mem_singleton_self _), rfl⟩
    · exact ends_bind (ends_failIf (fun _ => hu) fun _ => ends_pure hu)
  · rintro t rfl
    exact h

omit [Text] [Library] in
theorem checkClosed_ends (item : DgrItem) :
    Ends (checkClosed R item) (fun _ t => t = w ∧ R.getOpenExceptions item.id w.repo = [])
      (fun t => t = w ∧ ¬ R.getOpenExceptions item.id w.repo = []) w :=
  ends_bind (ends_read (ends_failIf (fun h => ⟨rfl, h⟩) fun h => ⟨rfl, not_not.mp h⟩))

theorem generateDgd_ends (hR : R.Lawful view) (caller : Caller) (shipmentId : Uuid)
    (docType : String) (h : Stands view w) :
    Ends (generateDgd R caller shipmentId docType)
      (fun _ t => (view w.repo).GateOpen shipmentId ∧ Stands view t)
      (fun t => ¬ (view w.repo).GateOpen shipmentId ∧ Stands view t) w := by
  have hitems := hR.getItemsByShipment shipmentId w.repo
  refine ends_bind (ends_read (ends_bind (ends_failIf (fun hnone => ⟨?_, h⟩) fun hsome => ?_)))
  · rintro ⟨⟨item, hitem, hship⟩, -⟩
    have hmem := (hitems item).mpr ⟨hitem, hship⟩
    rw [hnone] at hmem
    cases hmem
  · refine ends_bind ((ends_forM_all fun item _ => checkClosed_ends item).imp ?_ ?_)
    · rintro - t ⟨rfl, hclosed⟩
      refine ends_bind (ends_read (ends_bind (ends_uuid4 (ends_bind (ends_write
        (ends_pure ⟨⟨?_, ?_⟩, ?_⟩))))))
      · obtain ⟨item, hitem⟩ := List.exists_mem_of_ne_nil _ hsome
        exact ⟨item, (hitems item).mp hitem⟩
      · intro item hitem hship e he hid hopen
        have hmem := (hR.getOpenExceptions item.id t.repo e).mpr ⟨he, hid, hopen⟩
        rw [hclosed item ((hitems item).mpr ⟨hitem, hship⟩)] at hmem
        cases hmem
      · unfold Stands
        rw [hR.saveDocument]
        exact (h.mono (Nat.le_succ _)).congr rfl rfl rfl (List.Subset.refl _)
    · rintro t ⟨rfl, item, hitem, hopen⟩
      refine ⟨fun hgate => ?_, h⟩
      obtain ⟨e, he⟩ := List.exists_mem_of_ne_nil _ hopen
      obtain ⟨hmem, hid, hstatus⟩ := (hR.getOpenExceptions item.id t.repo e).mp he
      obtain ⟨hstored, hship⟩ := (hitems item).mp hitem
      exact hgate.exceptions item hstored hship e hmem hid hstatus

def Declares (R : Repository σ) (caller : Caller) (shipmentId : Uuid) (docType : String)
    (w : World σ) : Prop :=
  ∃ document t, (generateDgd R caller shipmentId docType).run w = .ok document t

theorem declares_iff (hR : R.Lawful view) (caller : Caller) (shipmentId : Uuid)
    (docType : String) (h : Stands view w) :
    Declares R caller shipmentId docType w ↔ (view w.repo).GateOpen shipmentId := by
  have hends := generateDgd_ends hR caller shipmentId docType h
  constructor
  · rintro ⟨document, t, hrun⟩
    exact (hends.of_run hrun).1
  · intro hgate
    unfold Ends at hends
    cases hrun : (generateDgd R caller shipmentId docType).run w with
    | ok document t => exact ⟨document, t, hrun⟩
    | error e t =>
      rw [hrun] at hends
      exact absurd hgate hends.1

theorem step_stands (hR : R.Lawful view) (c : Caller × Call) (h : Stands view w) :
    Stands view (step R w c) := by
  obtain ⟨caller, call⟩ := c
  cases call with
  | createRule p =>
    exact (createRule_sound hR caller p h).endState (P := Stands view)
  | captureItem shipmentId p =>
    exact (captureItem_sound hR caller shipmentId p h).endState
      (P := Stands view)
  | validateItems shipmentId =>
    exact (validateItems_sound hR caller shipmentId h).endState
      (P := Stands view)
  | approveException itemId p =>
    exact (approveException_sound hR caller itemId p h).endState
      (P := Stands view)
  | generateDgd shipmentId docType =>
    exact ((generateDgd_ends hR caller shipmentId docType h).imp (fun _ _ h => h.2)
      fun _ h => h.2).endState (P := Stands view)

omit [Text] in
theorem empty_linked (drawn : Uuid) : Linked Tables.empty drawn where
  items_lt := List.forall_mem_nil _
  items_inj := List.forall_mem_nil _
  exceptions_lt := List.forall_mem_nil _
  exceptions_inj := List.forall_mem_nil _
  snapshots := List.forall_mem_nil _
  approved := List.forall_mem_nil _

/-- Every declaration of the run is made for a shipment that is cleared. -/
def DeclaresCleared (R : Repository σ) (view : σ → Tables) (w : World σ) (c : Caller × Call) :
    Prop :=
  ∀ shipmentId docType, c.2 = .generateDgd shipmentId docType →
    Declares R c.1 shipmentId docType w → (view w.repo).Cleared shipmentId

/-- A declaration is asked for, while no exception is open, of examined items only. -/
def AsksExamined (view : σ → Tables) (w : World σ) (c : Caller × Call) : Prop :=
  ∀ shipmentId docType, c.2 = .generateDgd shipmentId docType →
    (view w.repo).GateOpen shipmentId → (view w.repo).Examined shipmentId

/-- In every run the declarations that go through are for cleared shipments exactly when each is
asked for after all items of the shipment have been validated and with valid UN numbers. -/
theorem declarations_cleared_iff (hR : R.Lawful view) {w : World σ}
    (hw : view w.repo = Tables.empty) (cs : List (Caller × Call)) :
    Meets (step R) (DeclaresCleared R view) w cs ↔ Meets (step R) (AsksExamined view) w cs := by
  have hstart : Stands view w := by
    unfold Stands
    rw [hw]
    exact empty_linked w.drawn
  have hiff : ∀ t, Stands view t → ∀ c,
      DeclaresCleared R view t c ↔ AsksExamined view t c := by
    intro t ht c
    refine forall_congr' fun shipmentId => forall_congr' fun docType => imp_congr_right fun _ => ?_
    rw [declares_iff hR c.1 shipmentId docType ht]
    exact forall_congr' fun hgate => ht.cleared_iff hgate
  exact ⟨Meets.imp (Stands view) (fun t c ht _ => step_stands hR c ht)
      (fun t c ht h => (hiff t ht c).mp h) hstart,
    Meets.imp (Stands view) (fun t c ht _ => step_stands hR c ht)
      (fun t c ht h => (hiff t ht c).mpr h) hstart⟩

end Calls

/-- The tables themselves, with rules of the tenant in force at the time. -/
def tablesRepository : Repository Tables where
  saveRule r t := { t with rules := t.rules ++ [r] }
  saveItem i t := { t with items := t.items ++ [i] }
  saveException e t := { t with exceptions := t.exceptions ++ [e] }
  updateException e t :=
    { t with exceptions := t.exceptions.map fun x => if x.id = e.id then e else x }
  saveSnapshot n t := { t with snapshots := t.snapshots ++ [n] }
  saveApproval a t := { t with approvals := t.approvals ++ [a] }
  saveDocument d t := { t with documents := t.documents ++ [d] }
  getItem itemId t := t.items.find? (·.id = itemId)
  getItemsByShipment shipmentId t := t.items.filter (·.shipmentId = shipmentId)
  getActiveRules tenantId asOf t := t.rules.filter fun r => r.tenantId = tenantId ∧
    r.isActive = true ∧ r.effectiveDate ≤ asOf ∧ ∀ expiry ∈ r.expiryDate, asOf < expiry
  getRule ruleId t := t.rules.find? (·.id = ruleId)
  getOpenExceptions itemId t := t.exceptions.filter fun e => e.itemId = itemId ∧ e.status = .open
  getLatestDocumentVersion shipmentId docType t := ((t.documents.filter fun d =>
    d.shipmentId = shipmentId ∧ d.docType = docType).map (·.version)).foldr max 0

theorem tablesRepository_lawful : tablesRepository.Lawful id where
  saveRule _ _ := rfl
  saveItem _ _ := rfl
  saveException _ _ := rfl
  updateException _ _ := rfl
  saveSnapshot _ _ := rfl
  saveApproval _ _ := rfl
  saveDocument _ _ := rfl
  getItemsByShipment shipmentId t i := by simp [tablesRepository]
  getOpenExceptions itemId t e := by simp [tablesRepository]

section Runs
open Verbatim

local instance plainLibrary : Library where
  isdigit s := s.toList.all Char.isDigit
  sha256Hex _ := ""

def officer : Caller := ⟨1, some 7, 0⟩

def acetone : DgrItemCapture where
  unNumber := "1090"
  classDivision := "3"
  netQuantity := 10
  unNumber_length := by decide
  netQuantity_pos := by norm_num

def emptyWorld : World Tables := ⟨.empty, 0⟩

/-- An item is captured and validated before its declaration. -/
def validated : List (Caller × Call) :=
  [(officer, .captureItem 5 acetone), (officer, .validateItems 5), (officer, .generateDgd 5 "DGD")]

theorem declarations_cleared_validated :
    Meets (step tablesRepository) (DeclaresCleared tablesRepository id) emptyWorld validated ∧
      (validated.foldl (step tablesRepository) emptyWorld).repo.documents.length = 1 := by
  have hasks : Meets (step tablesRepository) (AsksExamined id) emptyWorld validated := by
    refine ⟨?_, ?_, ?_, trivial⟩
    · rintro shipmentId docType ⟨⟩
    · rintro shipmentId docType ⟨⟩
    · rintro shipmentId docType hcall -
      obtain ⟨rfl, -⟩ := Call.generateDgd.inj hcall
      unfold Tables.Examined
      decide +kernel
  exact ⟨(declarations_cleared_iff tablesRepository_lawful rfl validated).mpr hasks,
    by decide +kernel⟩

/-- A declaration for an item that nobody has validated. -/
theorem declared_unvalidated :
    ¬ Meets (step tablesRepository) (DeclaresCleared tablesRepository id) emptyWorld
      [(officer, .captureItem 5 acetone), (officer, .generateDgd 5 "DGD")] := by
  rintro ⟨-, hdeclares, -⟩
  have hstands : Stands id (step tablesRepository emptyWorld (officer, .captureItem 5 acetone)) :=
    step_stands tablesRepository_lawful _ (empty_linked 0)
  have hgate : (step tablesRepository emptyWorld (officer, .captureItem 5 acetone)).repo.GateOpen
      5 := by
    constructor <;> decide +kernel
  have hcleared := hdeclares 5 "DGD" rfl
    ((declares_iff tablesRepository_lawful officer 5 "DGD" hstands).mpr hgate)
  obtain ⟨item, hitem, hship⟩ := hgate.items
  obtain ⟨snapshot, hlatest, -⟩ := hcleared item hitem hship
  have hmem := (Tables.mem_of_latest hlatest).1
  exact absurd hmem List.not_mem_nil

end Runs

end Friet.Dgr
