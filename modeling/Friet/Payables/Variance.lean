import Friet.Payables.Steps

/-!
# What the variances of a shipment's bills account for

The variance of a bill is what it bills beyond the cost lines it matches. Over
many bills this accounts for everything billed only if each expected cost is
matched once: matching neither uses a cost line up nor leaves out the ones that
bills have added.
-/

set_option autoImplicit false

namespace Friet.Payables

open Session Rounding

/-- The cost line a bill line is matched with, told from the state before the call. -/
def matchedId [Text] (a : RecordPayable) (db : Database) (l : BillLine) : Option Uuid :=
  match l.costLineId with
  | some id => some id
  | none => (costLinesMap (shipmentCostLines a db) (billCode l)).map (·.id)

theorem Finds.matchedId_eq [Text] {a : RecordPayable} {db : Database} {t : Table CostLine}
    {l : BillLine} {c : CostLine}
    (h : Finds a (costLinesMap (shipmentCostLines a db)) t l (some c)) :
    matchedId a db l = some c.id := by
  unfold Finds at h
  unfold matchedId
  cases hl : l.costLineId with
  | some id =>
    simp only [hl] at h
    obtain ⟨c', hc', heq⟩ := h
    rw [Option.some.inj heq, ← (Table.findWhere_eq_some_iff.mp hc').2.1]
    rfl
  | none =>
    simp only [hl] at h
    simp [← h]

def SameAmount (c c' : CostLine) : Prop := c'.amount = c.amount

theorem SameAmount.refl (c : CostLine) : SameAmount c c := rfl

theorem SameAmount.trans (c c' c'' : CostLine) (h : SameAmount c c') (h' : SameAmount c' c'') :
    SameAmount c c'' := Eq.trans h' h

theorem bill_sameAmount (c : CostLine) : SameAmount c (CostLine.bill c) := by
  unfold SameAmount CostLine.bill
  split <;> rfl

def OfShipment (payables : Table Payable) (shipmentId : Uuid) (l : PayableLine) : Prop :=
  ∃ p ∈ payables, p.id = l.payableId ∧ p.shipmentId = shipmentId

instance (payables : Table Payable) (shipmentId : Uuid) (l : PayableLine) :
    Decidable (OfShipment payables shipmentId l) :=
  inferInstanceAs (Decidable (∃ p ∈ payables, _))

/-- Some bill line of the shipment is linked to the cost line. -/
def MatchedFor (db : Database) (shipmentId costLineId : Uuid) : Prop :=
  ∃ l ∈ db.payableLines, l.costLineId = some costLineId ∧ OfShipment db.payables shipmentId l

instance (db : Database) (shipmentId costLineId : Uuid) :
    Decidable (MatchedFor db shipmentId costLineId) :=
  inferInstanceAs (Decidable (∃ l ∈ db.payableLines, _))

def totalVariance (db : Database) (shipmentId : Uuid) : Money :=
  db.payables.sum (·.shipmentId = shipmentId) (·.varianceAmount)

def totalBilled (db : Database) (shipmentId : Uuid) : Money :=
  db.payableLines.sum (fun l => OfShipment db.payables shipmentId l) (·.billedAmount)

/-- The expected cost lines that were matched, each counted once. -/
def totalMatched (expected : Table CostLine) (db : Database) (shipmentId : Uuid) : Money :=
  expected.sum (fun c => MatchedFor db shipmentId c.id) (·.amount)

/-- What the variances account for, the expected cost lines being those no bill created. -/
structure Accounted (expected : Table CostLine) (db : Database) : Prop where
  amounts : expected.Follows SameAmount db.costLines
  cents : ∀ c ∈ db.costLines, WholeCents c.amount
  created : ∀ c ∈ db.costLines, (∃ c₀ ∈ expected, c₀.id = c.id) ∨
    (c.amount ≠ 0 ∧ ∃ l ∈ db.payableLines, l.costLineId = some c.id)
  line_of : ∀ l ∈ db.payableLines, ∃ p ∈ db.payables, p.id = l.payableId
  additional : ∀ l ∈ db.payableLines, ∀ id, l.costLineId = some id →
    (∀ c ∈ expected, c.id ≠ id) → l.status = .additionalCharge
  balance : ∀ shipmentId, totalVariance db shipmentId + totalMatched expected db shipmentId =
    totalBilled db shipmentId

/-- No cost line with an amount is matched a second time, by this bill or after an earlier one. -/
def MatchesOnce [Text] (db : Database) (a : RecordPayable) : Prop :=
  ∀ id ∈ a.lines.filterMap (matchedId a db), ∃ c ∈ db.costLines, c.id = id ∧
    (c.amount = 0 ∨ ((a.lines.filterMap (matchedId a db)).count id = 1 ∧
      ∀ l ∈ db.payableLines, l.costLineId ≠ some id))

instance [Text] (db : Database) (a : RecordPayable) : Decidable (MatchesOnce db a) :=
  inferInstanceAs (Decidable (∀ id ∈ a.lines.filterMap (matchedId a db), ∃ c ∈ db.costLines, _))

/-- Some line of the bill, so far, is linked to the cost line. -/
def added (acc : BillTotals) (id : Uuid) : Bool :=
  acc.payableLinesToAdd.any fun d => d.costLineId = id

theorem added_eq_true {acc : BillTotals} {id : Uuid} :
    added acc id = true ↔ ∃ d ∈ acc.payableLinesToAdd, d.costLineId = id := by
  simp [added]

theorem added_push (acc : BillTotals) (d : PayableLineData) (id : Uuid) :
    added (acc.push d) id = (added acc id || decide (d.costLineId = id)) := by
  simp [added, BillTotals.push]

theorem BillTotals.billed_push {acc : BillTotals} (d : PayableLineData)
    (h : (acc.payableLinesToAdd.map (·.billedAmount)).sum = acc.subtotal) :
    ((acc.push d).payableLinesToAdd.map (·.billedAmount)).sum = (acc.push d).subtotal := by
  simp only [BillTotals.push, List.map_append, List.sum_append, h]
  simp

/-- The accumulators against the expected cost lines, `links` being what was linked before. -/
def LoopBalance (expected : Table CostLine) (links : Uuid → Bool) (acc : BillTotals) : Prop :=
  acc.totalVariance + expected.sum (fun c => links c.id || added acc c.id) (·.amount) =
    acc.subtotal + expected.sum (fun c => links c.id) (·.amount)

section Balance
variable {expected : Table CostLine} {links : Uuid → Bool} {acc : BillTotals} {d : PayableLineData}

theorem LoopBalance.additional (h : LoopBalance expected links acc)
    (hnew : ∀ c ∈ expected, c.id ≠ d.costLineId) (hvar : d.varianceAmount = d.billedAmount) :
    LoopBalance expected links (acc.push d) := by
  have hsame : expected.sum (fun c => links c.id || added (acc.push d) c.id) (·.amount) =
      expected.sum (fun c => links c.id || added acc c.id) (·.amount) := by
    refine Table.sum_congr (fun c hc => ?_) fun _ _ _ => rfl
    rw [added_push]
    simp [(hnew c hc).symm]
  unfold LoopBalance at h ⊢
  rw [hsame]
  simp only [BillTotals.push, hvar]
  linarith

theorem LoopBalance.matched {c : CostLine} (h : LoopBalance expected links acc)
    (hc : c ∈ expected) (hid : d.costLineId = c.id)
    (hvar : d.varianceAmount = d.billedAmount - c.amount)
    (hfirst : c.amount = 0 ∨ (links c.id = false ∧ added acc c.id = false)) :
    LoopBalance expected links (acc.push d) := by
  have hsum : expected.sum (fun c => links c.id || added (acc.push d) c.id) (·.amount) =
      expected.sum (fun c => links c.id || added acc c.id) (·.amount) +
        if (links c.id || added acc c.id) = true then 0 else c.amount := by
    refine Table.sum_select expected _ hc fun s _ => ?_
    rw [added_push, hid, Bool.or_assoc]
    congr 2
    exact decide_eq_decide.mpr eq_comm
  have hamount : (if (links c.id || added acc c.id) = true then 0 else c.amount) = c.amount := by
    rcases hfirst with hzero | ⟨hlinks, hadded⟩
    · simp [hzero]
    · simp [hlinks, hadded]
  unfold LoopBalance at h ⊢
  rw [hsum, hamount]
  simp only [BillTotals.push, hvar]
  linarith

end Balance

/-- The loop invariant over the bill lines passed; `db` is the state the call started in. -/
structure LoopAccounted [Text] (expected : Table CostLine) (links : Uuid → Bool) (a : RecordPayable)
    (db : Database) (pre : List BillLine) (acc : BillTotals) (t : Database) : Prop where
  amounts : db.costLines.Follows SameAmount t.costLines
  cents : ∀ c ∈ t.costLines, WholeCents c.amount
  created : ∀ c ∈ t.costLines, (∃ c' ∈ db.costLines, c'.id = c.id) ∨
    (c.amount ≠ 0 ∧ ∃ d ∈ acc.payableLinesToAdd, d.costLineId = c.id)
  ids : ∀ d ∈ acc.payableLinesToAdd, d.costLineId ∈ pre.filterMap (matchedId a db) ∨
    ∀ c ∈ db.costLines, c.id ≠ d.costLineId
  lines : ∀ d ∈ acc.payableLinesToAdd, WholeCents d.billedAmount ∧
    ((∀ c ∈ expected, c.id ≠ d.costLineId) → d.status = .additionalCharge)
  billed : (acc.payableLinesToAdd.map (·.billedAmount)).sum = acc.subtotal
  variance_cents : WholeCents acc.totalVariance
  balance : LoopBalance expected links acc

section Loop
variable [Text] {caller : Caller} {a : RecordPayable} {expected : Table CostLine}
  {links : Uuid → Bool} {db : Database}

omit [Text] in
theorem Accounted.expected_of (hdb : Accounted expected db) {c : CostLine} (hc : c ∈ db.costLines)
    (hfree : c.amount = 0 ∨ ∀ l ∈ db.payableLines, l.costLineId ≠ some c.id) :
    ∃ c₀ ∈ expected, c₀.id = c.id ∧ c₀.amount = c.amount := by
  rcases hdb.created c hc with ⟨c₀, hc₀, hid⟩ | ⟨hne, l, hl, hlink⟩
  · exact ⟨c₀, hc₀, hid, (hdb.amounts.of_mem hc₀ hc hid.symm).symm⟩
  · rcases hfree with hzero | hfree
    · exact absurd hzero hne
    · exact absurd hlink (hfree l hl)

/-- A cost line stays known by the lines passed, or by its being none of the state before. -/
theorem ids_append {pre : List BillLine} {l : BillLine} {d : PayableLineData}
    (h : d.costLineId ∈ pre.filterMap (matchedId a db) ∨
      ∀ c ∈ db.costLines, c.id ≠ d.costLineId) :
    d.costLineId ∈ (pre ++ [l]).filterMap (matchedId a db) ∨
      ∀ c ∈ db.costLines, c.id ≠ d.costLineId := by
  rw [List.filterMap_append]
  exact h.imp_left (List.mem_append_left _)

theorem LoopAccounted.not_added {pre post : List BillLine} {l : BillLine} {acc : BillTotals}
    {t : Database} {id : Uuid} (h : LoopAccounted expected links a db pre acc t)
    (hmem : ∃ c ∈ db.costLines, c.id = id) (hmatched : matchedId a db l = some id)
    (hcount : ((pre ++ l :: post).filterMap (matchedId a db)).count id = 1) :
    added acc id = false := by
  obtain ⟨c, hc, hid⟩ := hmem
  refine Bool.eq_false_iff.mpr fun hadded => ?_
  obtain ⟨d, hd, hdid⟩ := added_eq_true.mp hadded
  rcases h.ids d hd with hpre | hnone
  · rw [hdid] at hpre
    have hpos := List.count_pos_iff.mpr hpre
    rw [List.filterMap_append, List.count_append, List.filterMap_cons_some hmatched,
      List.count_cons_self] at hcount
    omega
  · exact hnone c hc (hid.trans hdid.symm)

theorem LoopAccounted.created_push {pre : List BillLine} {acc : BillTotals} {t : Database}
    {c : CostLine} (h : LoopAccounted expected links a db pre acc t) (d : PayableLineData)
    (hc : c ∈ t.costLines) : (∃ c' ∈ db.costLines, c'.id = c.id) ∨
      (c.amount ≠ 0 ∧ ∃ e ∈ (acc.push d).payableLinesToAdd, e.costLineId = c.id) := by
  refine (h.created c hc).imp_right fun ⟨hne, e, he, hid⟩ => ⟨hne, e, ?_, hid⟩
  exact List.mem_append_left _ he

/-- The cost line that a bill line matches was there before the call, is an expected one, and
has been counted neither before the call nor by an earlier line. -/
theorem LoopAccounted.exists_expected {pre post : List BillLine} {l : BillLine} {acc : BillTotals}
    {t : Database} {c : CostLine} (hdb : Accounted expected db) (honce : MatchesOnce db a)
    (hlinks : ∀ id, links id = true → ∃ l ∈ db.payableLines, l.costLineId = some id)
    (hlines : a.lines = pre ++ l :: post) (h : LoopAccounted expected links a db pre acc t)
    (hfind : Finds a (costLinesMap (shipmentCostLines a db)) t.costLines l (some c)) :
    ∃ c' ∈ db.costLines, c'.id = c.id ∧ c'.amount = c.amount ∧
      ∃ c₀ ∈ expected, c₀.id = c.id ∧ c₀.amount = c.amount ∧
        (c₀.amount = 0 ∨ (links c₀.id = false ∧ added acc c₀.id = false)) := by
  have hmem : c.id ∈ a.lines.filterMap (matchedId a db) :=
    List.mem_filterMap.mpr ⟨l, by rw [hlines]; simp, hfind.matchedId_eq⟩
  obtain ⟨c', hc', hid', hfree⟩ := honce c.id hmem
  have hamount : c.amount = c'.amount := by
    rcases hfind.mem with hc | hc
    · exact h.amounts.of_mem hc' hc hid'.symm
    · rw [Table.eq_of_key_eq hc hc' hid'.symm]
  obtain ⟨c₀, hc₀, hid₀, hamount₀⟩ := hdb.expected_of hc' (hfree.imp_right fun hf => by
    rw [hid']
    exact hf.2)
  refine ⟨c', hc', hid', hamount.symm, c₀, hc₀, hid₀.trans hid', hamount₀.trans hamount.symm, ?_⟩
  rw [hamount₀, hid₀, hid']
  refine hfree.imp_right fun ⟨hcount, hunlinked⟩ => ⟨?_, ?_⟩
  · refine Bool.eq_false_iff.mpr fun hl => ?_
    obtain ⟨l', hl', hlink⟩ := hlinks c.id hl
    exact hunlinked l' hl' hlink
  · rw [hlines] at hcount
    exact h.not_added ⟨c', hc', hid'⟩ hfind.matchedId_eq hcount

theorem LoopAccounted.matched {pre post : List BillLine} {l : BillLine} {acc : BillTotals}
    {t : Database} {c : CostLine} (hdb : Accounted expected db) (honce : MatchesOnce db a)
    (hlinks : ∀ id, links id = true → ∃ l ∈ db.payableLines, l.costLineId = some id)
    (hlines : a.lines = pre ++ l :: post) (hcents : WholeCents l.billedAmount)
    (h : LoopAccounted expected links a db pre acc t)
    (hfind : Finds a (costLinesMap (shipmentCostLines a db)) t.costLines l (some c)) :
    LoopAccounted expected links a db (pre ++ [l]) (acc.push (matchedLine a l c))
      { t with costLines := t.costLines.update c.id CostLine.bill CostLine.bill_keepsKey } := by
  obtain ⟨c', hc', hid', hamount, c₀, hc₀, hid₀, hamount₀, hfirst⟩ :=
    h.exists_expected hdb honce hlinks hlines hfind
  have hcentsc : WholeCents c.amount := by
    rw [← hamount]
    exact hdb.cents c' hc'
  have hvar : (matchedLine a l c).varianceAmount = l.billedAmount - c.amount :=
    cents_of_wholeCents (hcents.sub hcentsc)
  obtain ⟨c₁, hc₁, hid₁, _⟩ := h.amounts c' hc'
  have hk₁ : c₁.id = c.id := (show c₁.id = c'.id from hid₁).trans hid'
  refine ⟨h.amounts.trans SameAmount.trans
    (Table.follows_update SameAmount.refl hc₁ (bill_sameAmount c₁) hk₁), ?_, ?_, ?_, ?_, ?_, ?_,
    h.balance.matched hc₀ hid₀.symm ?_ hfirst⟩
  · refine (Table.forall_mem_update hc₁ hk₁).mpr ⟨fun s hs _ => h.cents s hs, ?_⟩
    rw [bill_sameAmount c₁]
    exact h.cents c₁ hc₁
  · refine (Table.forall_mem_update hc₁ hk₁).mpr
      ⟨fun s hs _ => h.created_push _ hs, Or.inl ⟨c', hc', ?_⟩⟩
    exact hid'.trans (hk₁.symm.trans (CostLine.bill_keepsKey.key_eq c₁).symm)
  · refine BillTotals.forall_mem_push.mpr ⟨fun d hd => ids_append (h.ids d hd), Or.inl ?_⟩
    rw [List.filterMap_append, List.filterMap_cons_some hfind.matchedId_eq]
    exact List.mem_append_right _ List.mem_cons_self
  · refine BillTotals.forall_mem_push.mpr ⟨h.lines, hcents, fun hnone => ?_⟩
    exact absurd hid₀ (hnone c₀ hc₀)
  · exact BillTotals.billed_push _ h.billed
  · refine h.variance_cents.add ?_
    rw [hvar]
    exact hcents.sub hcentsc
  · rw [hvar, hamount₀]
    rfl

theorem LoopAccounted.additional {pre : List BillLine} {l : BillLine} {acc : BillTotals}
    {t : Database} (hdb : Accounted expected db) (hcents : WholeCents l.billedAmount)
    (hpos : 0 < l.billedAmount) (h : LoopAccounted expected links a db pre acc t) :
    LoopAccounted expected links a db (pre ++ [l])
      (acc.push (additionalLine a l t.costLines.freshKey))
      { t with costLines := t.costLines.insert (additionalCostLine caller a l) } := by
  have hfresh : ∀ c ∈ db.costLines, c.id ≠ t.costLines.freshKey := by
    intro c hc
    obtain ⟨c', hc', hk, _⟩ := h.amounts c hc
    have hlt : c'.id < t.costLines.freshKey := Table.key_lt_freshKey hc'
    exact ne_of_lt ((show c'.id = c.id from hk) ▸ hlt)
  have hamount : ∀ k, (additionalCostLine caller a l k).amount = l.billedAmount :=
    fun _ => column_of_wholeCents hcents
  refine ⟨h.amounts.trans SameAmount.trans (Table.follows_insert SameAmount.refl), ?_, ?_, ?_, ?_,
    ?_, h.variance_cents.add hcents, h.balance.additional ?_ rfl⟩
  · refine Table.forall_mem_insert.mpr ⟨h.cents, ?_⟩
    rw [hamount]
    exact hcents
  · refine Table.forall_mem_insert.mpr ⟨fun c hc => h.created_push _ hc, Or.inr ⟨?_, ?_⟩⟩
    · rw [hamount]
      exact hpos.ne'
    · exact ⟨_, List.mem_append_right _ List.mem_cons_self, rfl⟩
  · exact BillTotals.forall_mem_push.mpr ⟨fun d hd => ids_append (h.ids d hd), Or.inr hfresh⟩
  · exact BillTotals.forall_mem_push.mpr ⟨h.lines, hcents, fun _ => rfl⟩
  · exact BillTotals.billed_push _ h.billed
  · intro c hc
    obtain ⟨c', hc', hk, _⟩ := hdb.amounts c hc
    exact fun heq => hfresh c' hc' ((show c'.id = c.id from hk).trans heq)

theorem BillLoop.accounted {totals : BillTotals} {billed : Database}
    (hdb : Accounted expected db) (honce : MatchesOnce db a)
    (hlinks : ∀ id, links id = true → ∃ l ∈ db.payableLines, l.costLineId = some id)
    (hcents : ∀ l ∈ a.lines, WholeCents l.billedAmount) (h : BillLoop caller a db totals billed) :
    LoopAccounted expected links a db a.lines totals billed := by
  have hstart : LoopAccounted expected links a db [] BillTotals.zero db :=
    { amounts := .refl SameAmount.refl _
      cents := hdb.cents
      created := fun c hc => Or.inl ⟨c, hc, rfl⟩
      ids := fun d hd => by cases hd
      lines := fun d hd => by cases hd
      billed := rfl
      variance_cents := OnGrid.zero
      balance := by simp [LoopBalance, BillTotals.zero, added] }
  refine run_foldlM_ok ?_ hstart h
  intro pre l post acc t acc' t' hlines hacc hrun
  have hl : l ∈ a.lines := by
    rw [hlines]
    simp
  obtain ⟨hpos, ⟨c, hfind, rfl, rfl⟩ | ⟨_, rfl, rfl⟩⟩ := run_recordBillLine_ok hrun
  · exact hacc.matched hdb honce hlinks hlines (hcents l hl) hfind
  · exact hacc.additional hdb (hcents l hl) hpos

end Loop

section Bill
variable [Text] {caller : Caller} {a : RecordPayable} {expected : Table CostLine}
  {db db' : Database} {totals : BillTotals} {billed : Database}

theorem ofShipment_old (hline : ∀ l ∈ db.payableLines, ∃ p ∈ db.payables, p.id = l.payableId)
    {l : PayableLine} (hl : l ∈ db.payableLines)
    (shipmentId : Uuid) : OfShipment (billTables caller a totals billed db).payables shipmentId l ↔
      OfShipment db.payables shipmentId l := by
  constructor
  · rintro ⟨p, hp, hid, hs⟩
    rcases Table.mem_insert.mp hp with hp | rfl
    · exact ⟨p, hp, hid, hs⟩
    · obtain ⟨q, hq, hql⟩ := hline l hl
      have hlt : q.id < db.payables.freshKey := Table.key_lt_freshKey hq
      exact absurd hlt (by rw [hql, ← hid]; exact lt_irrefl _)
  · rintro ⟨p, hp, hid, hs⟩
    exact ⟨p, Table.mem_insert_of_mem hp, hid, hs⟩

theorem ofShipment_new (d : PayableLineData) (k shipmentId : Uuid) :
    OfShipment (billTables caller a totals billed db).payables shipmentId
      (payableLineRow caller.tenantId db.payables.freshKey d k) ↔ a.shipmentId = shipmentId := by
  constructor
  · rintro ⟨p, hp, hid, hs⟩
    rcases Table.mem_insert.mp hp with hp | rfl
    · have hlt : p.id < db.payables.freshKey := Table.key_lt_freshKey hp
      rw [hid] at hlt
      exact absurd hlt (lt_irrefl _)
    · exact hs
  · intro hs
    exact ⟨_, Table.mem_insert_self, rfl, hs⟩

theorem matchedFor_billTables (hdb : Accounted expected db) (shipmentId id : Uuid) :
    MatchedFor (billTables caller a totals billed db) shipmentId id ↔
      MatchedFor db shipmentId id ∨ (a.shipmentId = shipmentId ∧ added totals id = true) := by
  rw [added_eq_true]
  constructor
  · rintro ⟨l, hl, hlink, hof⟩
    rcases mem_addPayableLines hl with hl | ⟨d, hd, k, rfl⟩
    · exact Or.inl ⟨l, hl, hlink, (ofShipment_old hdb.line_of hl shipmentId).mp hof⟩
    · exact Or.inr ⟨(ofShipment_new d k shipmentId).mp hof, d, hd, Option.some.inj hlink⟩
  · rintro (⟨l, hl, hlink, hof⟩ | ⟨hs, d, hd, rfl⟩)
    · exact ⟨l, mem_addPayableLines_of_mem hl, hlink, (ofShipment_old hdb.line_of hl shipmentId).mpr hof⟩
    · obtain ⟨k, hk⟩ := exists_mem_addPayableLines hd
      exact ⟨_, hk, rfl, (ofShipment_new d k shipmentId).mpr hs⟩

theorem totalMatched_billTables (hdb : Accounted expected db) (shipmentId : Uuid) :
    totalMatched expected (billTables caller a totals billed db) shipmentId =
      expected.sum (fun c => decide (MatchedFor db shipmentId c.id) ||
        (decide (a.shipmentId = shipmentId) && added totals c.id)) (·.amount) := by
  refine Table.sum_congr (fun c _ => ?_) fun _ _ _ => rfl
  rw [← Bool.decide_coe (added totals c.id), ← Bool.decide_and, ← Bool.decide_or]
  exact decide_eq_decide.mpr (matchedFor_billTables hdb shipmentId c.id)

theorem totalVariance_billTables (hcents : WholeCents totals.totalVariance) (shipmentId : Uuid) :
    totalVariance (billTables caller a totals billed db) shipmentId =
      totalVariance db shipmentId + if a.shipmentId = shipmentId then totals.totalVariance else 0 := by
  unfold totalVariance billTables
  rw [Table.sum_insert]
  simp only [newPayable, cents_of_wholeCents hcents, column_of_wholeCents hcents]
  congr 1
  exact if_congr decide_eq_true_iff rfl rfl

theorem totalBilled_billTables
    (hline : ∀ l ∈ db.payableLines, ∃ p ∈ db.payables, p.id = l.payableId)
    (hcents : ∀ d ∈ totals.payableLinesToAdd, WholeCents d.billedAmount)
    (hsum : (totals.payableLinesToAdd.map (·.billedAmount)).sum = totals.subtotal)
    (shipmentId : Uuid) :
    totalBilled (billTables caller a totals billed db) shipmentId =
      totalBilled db shipmentId + if a.shipmentId = shipmentId then totals.subtotal else 0 := by
  have hold : db.payableLines.sum
      (fun l => OfShipment (billTables caller a totals billed db).payables shipmentId l)
      (·.billedAmount) = totalBilled db shipmentId :=
    Table.sum_congr (fun l hl => decide_eq_decide.mpr (ofShipment_old hline hl shipmentId))
      fun _ _ _ => rfl
  have hnew : totalBilled (billTables caller a totals billed db) shipmentId =
      db.payableLines.sum
        (fun l => OfShipment (billTables caller a totals billed db).payables shipmentId l)
        (·.billedAmount) + if decide (a.shipmentId = shipmentId) = true then
          (totals.payableLinesToAdd.map (·.billedAmount)).sum else 0 :=
    sum_addPayableLines (fun d _ k => decide_eq_decide.mpr (ofShipment_new d k shipmentId))
      fun d hd _ => column_of_wholeCents (hcents d hd)
  rw [hnew, hold, hsum]
  congr 1
  exact if_congr decide_eq_true_iff rfl rfl

theorem Accounted.recordPayable {d : PayableDetail} (hdb : Accounted expected db)
    (hcents : ∀ l ∈ a.lines, WholeCents l.billedAmount) (honce : MatchesOnce db a)
    (h : (recordPayable caller a).run db = .ok d db') : Accounted expected db' := by
  obtain ⟨_, _, totals, billed, hloop, rfl⟩ := run_recordPayable_ok h
  have hacc : ∀ shipmentId, LoopAccounted expected (fun id => MatchedFor db shipmentId id) a db
      a.lines totals billed := by
    refine fun shipmentId => hloop.accounted hdb honce (fun id hid => ?_) hcents
    obtain ⟨l, hl, hlink, _⟩ := of_decide_eq_true hid
    exact ⟨l, hl, hlink⟩
  have hbase := hacc a.shipmentId
  refine ⟨hdb.amounts.trans SameAmount.trans hbase.amounts, hbase.cents, ?_,
    line_of_addPayableLines hdb.line_of, ?_, ?_⟩
  · intro c hc
    rcases hbase.created c hc with ⟨c', hc', hid⟩ | ⟨hne, dl, hdl, hid⟩
    · rcases hdb.created c' hc' with ⟨c₀, hc₀, hid₀⟩ | ⟨hne, l, hl, hlink⟩
      · exact Or.inl ⟨c₀, hc₀, hid₀.trans hid⟩
      · have hsame : c.amount = c'.amount := hbase.amounts.of_mem hc' hc hid.symm
        refine Or.inr ⟨by rw [hsame]; exact hne, l, mem_addPayableLines_of_mem hl, ?_⟩
        rw [hlink, hid]
    · obtain ⟨k, hk⟩ := exists_mem_addPayableLines hdl
      exact Or.inr ⟨hne, _, hk, congrArg some hid⟩
  · intro l hl id hlink hnone
    rcases mem_addPayableLines hl with hl | ⟨dl, hdl, k, rfl⟩
    · exact hdb.additional l hl id hlink hnone
    · rw [← Option.some.inj hlink] at hnone
      exact (hbase.lines dl hdl).2 hnone
  · intro shipmentId
    have hline := hacc shipmentId
    rw [totalVariance_billTables hline.variance_cents,
      totalBilled_billTables hdb.line_of (fun dl hdl => (hline.lines dl hdl).1) hline.billed]
    have hbal := hdb.balance shipmentId
    have hloopbal := hline.balance
    rw [totalMatched_billTables hdb]
    by_cases hs : a.shipmentId = shipmentId
    · simp only [hs, if_true, decide_true, Bool.true_and]
      unfold LoopBalance at hloopbal
      change totalVariance db shipmentId + expected.sum
        (fun c => decide (MatchedFor db shipmentId c.id)) (·.amount) = _ at hbal
      linarith
    · simp only [hs, if_false, decide_false, Bool.false_and, Bool.or_false, add_zero]
      exact hbal

end Bill

section Run
variable [Text]

def billStep (db : Database) (i : Caller × RecordPayable) : Database :=
  step db (i.1, .recordPayable i.2)

/-- Bills in whole cents; one that is recorded matches each expected cost line for the first time. -/
def BilledOnce (db : Database) (i : Caller × RecordPayable) : Prop :=
  (∀ l ∈ i.2.lines, WholeCents l.billedAmount) ∧
    (Succeeds (recordPayable i.1 i.2) db → MatchesOnce db i.2)

instance (db : Database) (i : Caller × RecordPayable) : Decidable (BilledOnce db i) :=
  inferInstanceAs (Decidable (_ ∧ _))

theorem billStep_accounted {expected : Table CostLine} {db : Database} {i : Caller × RecordPayable}
    (hdb : Accounted expected db) (hok : BilledOnce db i) : Accounted expected (billStep db i) := by
  rcases commit_cases (recordPayable i.1 i.2) db with heq | ⟨d, h⟩
  · change Accounted expected (commit (recordPayable i.1 i.2) db)
    rw [heq]
    exact hdb
  · exact hdb.recordPayable hok.1 (hok.2 ⟨d, _, h⟩) h

omit [Text] in
theorem NoBills.accounted {db : Database} (h : NoBills db)
    (hcents : ∀ c ∈ db.costLines, WholeCents c.amount) : Accounted db.costLines db where
  amounts := .refl SameAmount.refl _
  cents := hcents
  created c hc := Or.inl ⟨c, hc, rfl⟩
  line_of l hl := absurd hl (h.2 l)
  additional l hl := absurd hl (h.2 l)
  balance shipmentId := by
    have hvariance : totalVariance db shipmentId = 0 :=
      Table.sum_eq_zero fun p hp => absurd hp (h.1 p)
    have hbilled : totalBilled db shipmentId = 0 :=
      Table.sum_eq_zero fun l hl => absurd hl (h.2 l)
    have hmatched : totalMatched db.costLines db shipmentId = 0 := by
      refine Table.sum_eq_zero fun c _ hc => ?_
      obtain ⟨l, hl, _⟩ := of_decide_eq_true hc
      exact absurd hl (h.2 l)
    rw [hvariance, hbilled, hmatched, add_zero]

/-- The variances are what is billed beyond the expected costs matched. -/
theorem variances_account_for_billed {db t : Database} (hdb : NoBills db)
    (hcents : ∀ c ∈ db.costLines, WholeCents c.amount) (ht : Reaches billStep BilledOnce db t) :
    (∀ shipmentId, totalVariance t shipmentId =
      totalBilled t shipmentId - totalMatched db.costLines t shipmentId) ∧
    ∀ l ∈ t.payableLines, ∀ id, l.costLineId = some id →
      (∀ c ∈ db.costLines, c.id ≠ id) → l.status = .additionalCharge := by
  have hacc : Accounted db.costLines t :=
    ht.invariant (Accounted db.costLines) (fun _ _ hu hi => billStep_accounted hu hi)
      (hdb.accounted hcents)
  exact ⟨fun shipmentId => eq_sub_of_add_eq (hacc.balance shipmentId), hacc.additional⟩

end Run

section Bills
open Verbatim

/-- The shipment with one expected cost line, freight of 100. -/
def expectingFreight : Database :=
  { shipped with
    costLines := ⟨[⟨0, 1, none, none, some "OFR", none, 1, none, 100, some "USD", .accrued, false,
      none, none⟩], by decide⟩ }

def freightAndHandling : List (Caller × RecordPayable) :=
  [(clerk, billOf "B-1" "OFR" 120), (clerk, billOf "B-2" "THC" 50)]

theorem variances_account_freightAndHandling :
    (∀ shipmentId, totalVariance (freightAndHandling.foldl billStep expectingFreight) shipmentId =
      totalBilled (freightAndHandling.foldl billStep expectingFreight) shipmentId -
        totalMatched expectingFreight.costLines
          (freightAndHandling.foldl billStep expectingFreight) shipmentId) ∧
    ∀ l ∈ (freightAndHandling.foldl billStep expectingFreight).payableLines,
      ∀ id, l.costLineId = some id →
        (∀ c ∈ expectingFreight.costLines, c.id ≠ id) → l.status = .additionalCharge :=
  variances_account_for_billed ⟨fun _ => Table.not_mem_empty _, fun _ => Table.not_mem_empty _⟩
    (by decide +kernel)
    (show Meets billStep BilledOnce expectingFreight freightAndHandling by decide +kernel).reaches

/-- Freight billed twice shows no variance, and handling billed twice is matched the second time. -/
theorem billed_twice_unnoticed :
    let t := [(clerk, billOf "B-1" "OFR" 100), (clerk, billOf "B-2" "OFR" 100),
      (clerk, billOf "B-3" "THC" 50), (clerk, billOf "B-4" "THC" 50)].foldl billStep
        expectingFreight
    totalVariance t 1 = 50 ∧
      totalBilled t 1 - totalMatched expectingFreight.costLines t 1 = 200 ∧
      ∃ l ∈ t.payableLines, l.status = .matched ∧ l.chargeCode = "THC" := by
  decide +kernel

end Bills

end Friet.Payables
