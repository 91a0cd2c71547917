import Friet.Payables.CostLines
import Friet.Payables.Variance

/-!
# The actual cost and what was billed

A bill sets the cost lines it matches to `BILLED` and keeps their amounts. The actual cost
is what was billed as long as every bill comes, on the lines it matches, to the expected
amounts of those that were not billed before.
-/

set_option autoImplicit false

namespace Friet.Payables

open Session Rounding Financial Exact

/-- The statuses that `get_profitability` counts as actual. -/
def isBilled (c : CostLine) : Bool :=
  c.status = .billed || c.status = .verified || c.status = .approved || c.status = .paid

def billedCost (shipmentId : Uuid) (t : Table CostLine) : Money :=
  t.sum (fun c => c.shipmentId = shipmentId ∧ isBilled c) (·.amount)

theorem actualCost_eq (orders : LedgerOrders) (shipmentId : Uuid) (db : Database) :
    (profitabilityOf orders shipmentId db).actualCost =
      cents (billedCost shipmentId db.costLines) :=
  congrArg cents (costTotal_exact _ isBilled)

/-- The actual cost is what the bills of the shipment come to. -/
def CostIsBilled (orders : LedgerOrders) (shipmentId : Uuid) (db : Database) : Prop :=
  (profitabilityOf orders shipmentId db).actualCost = totalBilled db shipmentId

instance (orders : LedgerOrders) (shipmentId : Uuid) (db : Database) :
    Decidable (CostIsBilled orders shipmentId db) :=
  inferInstanceAs (Decidable (_ = _))

section Bill
variable [Text]

/-- What the lines of the bill come to that are matched with a cost line. -/
def billedOnMatched (a : RecordPayable) (db : Database) (lines : List BillLine) : Money :=
  ((lines.filter fun l => (matchedId a db l).isSome).map (·.billedAmount)).sum

def billedAdditional (a : RecordPayable) (db : Database) (lines : List BillLine) : Money :=
  ((lines.filter fun l => (matchedId a db l).isNone).map (·.billedAmount)).sum

/-- The expected amounts of the cost lines matched that no bill has matched before. -/
def newlyBilled (a : RecordPayable) (db : Database) (lines : List BillLine) : Money :=
  db.costLines.sum
    (fun c => c.shipmentId = a.shipmentId ∧ isBilled c = false ∧
      c.id ∈ lines.filterMap (matchedId a db)) (·.amount)

/-- A recorded bill comes, on the lines it matches, to what they were expected to cost. -/
def BillsExpected (db : Database) (i : Caller × CostRequest) : Prop :=
  ∀ a, i.2 = .payable (.recordPayable a) → Succeeds (recordPayable i.1 a) db →
    billedOnMatched a db a.lines = newlyBilled a db a.lines

/-- A call for the shipment that adds an expected cost or records a bill, in whole cents. -/
def CostCall (shipmentId : Uuid) : Caller × CostRequest → Prop
  | (_, .addCostLine a) => a.shipmentId = shipmentId ∧ WholeCents a.amount ∧
      (upper (strip a.status) = "ESTIMATED" ∨ upper (strip a.status) = "ACCRUED")
  | (_, .payable (.recordPayable a)) => a.shipmentId = shipmentId ∧
      ∀ l ∈ a.lines, WholeCents l.billedAmount
  | (_, .payable (.verifyPayable _)) => False
  | (_, .payable (.approvePayable _)) => False
  | (_, .payable (.recordPayment _)) => False

instance (shipmentId : Uuid) : DecidablePred (CostCall shipmentId)
  | (_, .addCostLine _) => inferInstanceAs (Decidable (_ ∧ _ ∧ (_ ∨ _)))
  | (_, .payable (.recordPayable _)) => inferInstanceAs (Decidable (_ ∧ ∀ l ∈ _, _))
  | (_, .payable (.verifyPayable _)) => inferInstanceAs (Decidable False)
  | (_, .payable (.approvePayable _)) => inferInstanceAs (Decidable False)
  | (_, .payable (.recordPayment _)) => inferInstanceAs (Decidable False)

end Bill

section Row
variable {c : CostLine} {ids : List Uuid}

theorem bill_of_isBilled (h : isBilled c = true) : CostLine.bill c = c := by
  unfold CostLine.bill
  refine if_neg fun hopen => ?_
  unfold isBilled at h
  rcases hopen with hopen | hopen <;> simp [hopen] at h

theorem isBilled_bill (c : CostLine) : isBilled (CostLine.bill c) = true := by
  unfold isBilled CostLine.bill
  cases h : c.status <;> simp [h]

theorem bill_bill (c : CostLine) : CostLine.bill (CostLine.bill c) = CostLine.bill c :=
  bill_of_isBilled (isBilled_bill c)

theorem shipmentId_bill (c : CostLine) : (CostLine.bill c).shipmentId = c.shipmentId := by
  unfold CostLine.bill
  split <;> rfl

/-- The cost line once the ones named have been billed. -/
def billedBy (ids : List Uuid) (c : CostLine) : CostLine :=
  if c.id ∈ ids then CostLine.bill c else c

theorem id_billedBy (ids : List Uuid) (c : CostLine) : (billedBy ids c).id = c.id := by
  unfold billedBy
  split
  · exact CostLine.bill_keepsKey.key_eq c
  · rfl

theorem amount_billedBy (ids : List Uuid) (c : CostLine) : (billedBy ids c).amount = c.amount := by
  unfold billedBy
  split
  · exact bill_sameAmount c
  · rfl

theorem shipmentId_billedBy (ids : List Uuid) (c : CostLine) :
    (billedBy ids c).shipmentId = c.shipmentId := by
  unfold billedBy
  split
  · exact shipmentId_bill c
  · rfl

theorem isBilled_billedBy (ids : List Uuid) (c : CostLine) :
    isBilled (billedBy ids c) = (isBilled c || decide (c.id ∈ ids)) := by
  unfold billedBy
  by_cases h : c.id ∈ ids
  · rw [if_pos h, isBilled_bill, decide_eq_true h, Bool.or_true]
  · rw [if_neg h, decide_eq_false h, Bool.or_false]

theorem billedBy_append_of_ne {id : Uuid} (h : c.id ≠ id) :
    billedBy (ids ++ [id]) c = billedBy ids c := by
  refine if_congr ?_ rfl rfl
  rw [List.mem_append, List.mem_singleton]
  exact or_iff_left h

theorem bill_billedBy (ids : List Uuid) (c : CostLine) :
    CostLine.bill (billedBy ids c) = CostLine.bill c := by
  unfold billedBy
  split
  · exact bill_bill c
  · rfl

end Row

/-- The loop invariant over the bill lines passed; `db` is the state the call started in. -/
structure LoopBilled [Text] (a : RecordPayable) (db : Database) (pre : List BillLine)
    (acc : BillTotals) (t : Database) : Prop where
  rows : ∀ c ∈ db.costLines, billedBy (pre.filterMap (matchedId a db)) c ∈ t.costLines
  added : ∀ c ∈ t.costLines, (∃ c₀ ∈ db.costLines, c₀.id = c.id) ∨ isBilled c = true
  cents : ∀ c ∈ t.costLines, c.shipmentId = a.shipmentId → WholeCents c.amount
  lines : ∀ d ∈ acc.payableLinesToAdd, WholeCents d.billedAmount
  billed : (acc.payableLinesToAdd.map (·.billedAmount)).sum = acc.subtotal
  cost : billedCost a.shipmentId t.costLines = billedCost a.shipmentId db.costLines +
    newlyBilled a db pre + billedAdditional a db pre

section Loop
variable [Text] {caller : Caller} {a : RecordPayable} {db t : Database} {pre : List BillLine}
  {l : BillLine} {acc : BillTotals} {c : CostLine}

theorem Finds.shipment
    (h : Finds a (costLinesMap (shipmentCostLines a db)) t.costLines l (some c)) :
    c.shipmentId = a.shipmentId := by
  unfold Finds at h
  split at h
  · obtain ⟨c', hc', heq⟩ := h
    rw [Option.some.inj heq]
    exact of_decide_eq_true (Table.findWhere_eq_some_iff.mp hc').2.2
  · have hc := List.mem_of_find?_eq_some h.symm
    rw [List.mem_reverse, shipmentCostLines, RowOrder.mem_arrange] at hc
    exact of_decide_eq_true (List.mem_filter.mp hc).2

theorem Finds.matchedId_eq_none
    (h : Finds a (costLinesMap (shipmentCostLines a db)) t.costLines l none) :
    matchedId a db l = none := by
  cases hid : l.costLineId with
  | some id =>
    simp only [Finds, hid] at h
    obtain ⟨c', -, heq⟩ := h
    cases heq
  | none =>
    simp only [Finds, hid] at h
    simp only [matchedId, hid, ← h, Option.map_none]

theorem matchedIds_append_of_some {id : Uuid} (h : matchedId a db l = some id) :
    (pre ++ [l]).filterMap (matchedId a db) = pre.filterMap (matchedId a db) ++ [id] := by
  rw [List.filterMap_append, List.filterMap_cons_some h, List.filterMap_nil]

theorem matchedIds_append_of_none (h : matchedId a db l = none) :
    (pre ++ [l]).filterMap (matchedId a db) = pre.filterMap (matchedId a db) := by
  rw [List.filterMap_append, List.filterMap_cons_none h, List.filterMap_nil, List.append_nil]

theorem newlyBilled_append_of_none (h : matchedId a db l = none) :
    newlyBilled a db (pre ++ [l]) = newlyBilled a db pre := by
  unfold newlyBilled
  rw [matchedIds_append_of_none h]

theorem billedAdditional_append_of_none (h : matchedId a db l = none) :
    billedAdditional a db (pre ++ [l]) = billedAdditional a db pre + l.billedAmount := by
  unfold billedAdditional
  rw [List.filter_append, List.filter_cons_of_pos (by rw [h]; rfl), List.filter_nil,
    List.map_append, List.sum_append, List.map_singleton, List.sum_singleton]

theorem billedAdditional_append_of_some {id : Uuid} (h : matchedId a db l = some id) :
    billedAdditional a db (pre ++ [l]) = billedAdditional a db pre := by
  unfold billedAdditional
  rw [List.filter_append, List.filter_cons_of_neg (by rw [h]; exact Bool.false_ne_true),
    List.filter_nil, List.append_nil]

/-- A cost line that is matched for the first time is newly billed, if it was not before. -/
theorem newlyBilled_append_of_mem {c₀ : CostLine} (hc₀ : c₀ ∈ db.costLines)
    (hshipment : c₀.shipmentId = a.shipmentId) (h : matchedId a db l = some c₀.id) :
    newlyBilled a db (pre ++ [l]) = newlyBilled a db pre +
      if isBilled (billedBy (pre.filterMap (matchedId a db)) c₀) then 0 else c₀.amount := by
  unfold newlyBilled
  rw [matchedIds_append_of_some h, isBilled_billedBy]
  generalize pre.filterMap (matchedId a db) = ids
  by_cases hbilled : (isBilled c₀ || decide (c₀.id ∈ ids)) = true
  · rw [if_pos hbilled, add_zero]
    refine Table.sum_congr (fun c hc => decide_eq_decide.mpr ?_) fun _ _ _ => rfl
    refine and_congr_right fun _ => and_congr_right fun hopen => ?_
    rw [List.mem_append, List.mem_singleton]
    refine or_iff_left_of_imp fun hid => ?_
    rw [Table.eq_of_key_eq hc hc₀ hid] at hopen ⊢
    rw [hopen, Bool.false_or] at hbilled
    exact of_decide_eq_true hbilled
  · obtain ⟨hopen, hnew⟩ := Bool.or_eq_false_iff.mp (Bool.eq_false_of_not_eq_true hbilled)
    have hnot : ¬ (c₀.shipmentId = a.shipmentId ∧ isBilled c₀ = false ∧ c₀.id ∈ ids) := fun hc =>
      of_decide_eq_false hnew hc.2.2
    rw [if_neg hbilled, Table.sum_select (p := fun c => c.shipmentId = a.shipmentId ∧
      isBilled c = false ∧ c.id ∈ ids) _ (·.amount) hc₀ ?_, decide_eq_false hnot,
      if_neg Bool.false_ne_true]
    intro c hc
    rw [← Bool.decide_or, decide_eq_decide, List.mem_append, List.mem_singleton]
    constructor
    · rintro ⟨hs, hb, hin | hid⟩
      · exact Or.inl ⟨hs, hb, hin⟩
      · exact Or.inr hid
    · rintro (⟨hs, hb, hin⟩ | hid)
      · exact ⟨hs, hb, Or.inl hin⟩
      · rw [Table.eq_of_key_eq hc hc₀ hid]
        exact ⟨hshipment, hopen, Or.inr rfl⟩

theorem newlyBilled_append_of_not_mem {id : Uuid} (hid : ∀ c₀ ∈ db.costLines, c₀.id ≠ id)
    (h : matchedId a db l = some id) : newlyBilled a db (pre ++ [l]) = newlyBilled a db pre := by
  refine Table.sum_congr (fun c hc => decide_eq_decide.mpr ?_) fun _ _ _ => rfl
  rw [List.filterMap_append, List.filterMap_cons_some h, List.filterMap_nil, List.mem_append,
    List.mem_singleton]
  exact and_congr_right fun _ => and_congr_right fun _ => or_iff_left (hid c hc)

/-- The row that is billed, with the one it was before the call, unless it is an additional
line of the same bill. -/
theorem LoopBilled.row (h : LoopBilled a db pre acc t)
    (hfind : Finds a (costLinesMap (shipmentCostLines a db)) t.costLines l (some c)) :
    (∃ c₀ ∈ db.costLines, c₀.id = c.id ∧ c₀.shipmentId = a.shipmentId ∧
        billedBy (pre.filterMap (matchedId a db)) c₀ ∈ t.costLines) ∨
      ((∀ c₀ ∈ db.costLines, c₀.id ≠ c.id) ∧ c ∈ t.costLines ∧ isBilled c = true) := by
  have hshipment : c.shipmentId = a.shipmentId := hfind.shipment
  rcases hfind.mem with hc | hc
  · by_cases hold : ∃ c₀ ∈ db.costLines, c₀.id = c.id
    · obtain ⟨c₀, hc₀, hid⟩ := hold
      have hrow := h.rows c₀ hc₀
      have hsame : billedBy (pre.filterMap (matchedId a db)) c₀ = c :=
        Table.eq_of_key_eq hrow hc ((id_billedBy _ c₀).trans hid)
      refine Or.inl ⟨c₀, hc₀, hid, ?_, hrow⟩
      rw [← shipmentId_billedBy (pre.filterMap (matchedId a db)) c₀, hsame]
      exact hshipment
    · refine Or.inr ⟨fun c₀ hc₀ hid => hold ⟨c₀, hc₀, hid⟩, hc, ?_⟩
      exact (h.added c hc).resolve_left hold
  · exact Or.inl ⟨c, hc, rfl, hshipment, h.rows c hc⟩

omit [Text] in
/-- Billing a cost line adds its amount to the billed cost, unless it was counted before. -/
theorem billedCost_update {c₁ : CostLine} (hc₁ : c₁ ∈ t.costLines)
    (hshipment : c₁.shipmentId = a.shipmentId) {id : Uuid} (hid : c₁.id = id) :
    billedCost a.shipmentId (t.costLines.update id CostLine.bill CostLine.bill_keepsKey) =
      billedCost a.shipmentId t.costLines + if isBilled c₁ then 0 else c₁.amount := by
  have hsum := Table.sum_update t.costLines
    (fun c => c.shipmentId = a.shipmentId ∧ isBilled c) (·.amount) hc₁ CostLine.bill_keepsKey hid
  have hafter : (CostLine.bill c₁).shipmentId = a.shipmentId ∧ isBilled (CostLine.bill c₁) = true :=
    ⟨(shipmentId_bill c₁).trans hshipment, isBilled_bill c₁⟩
  have hamount : (CostLine.bill c₁).amount = c₁.amount := bill_sameAmount c₁
  rw [if_pos (decide_eq_true hafter), hamount] at hsum
  unfold billedCost
  by_cases hbilled : isBilled c₁ = true
  · rw [if_pos hbilled, add_zero]
    rw [if_pos (decide_eq_true ⟨hshipment, hbilled⟩)] at hsum
    exact add_right_cancel hsum
  · rw [if_neg hbilled]
    rwa [decide_eq_false fun hc => hbilled hc.2, if_neg Bool.false_ne_true, add_zero] at hsum

theorem LoopBilled.bill_stored (hcents : WholeCents l.billedAmount)
    (h : LoopBilled a db pre acc t)
    (hfind : Finds a (costLinesMap (shipmentCostLines a db)) t.costLines l (some c))
    {c₀ : CostLine} (hc₀ : c₀ ∈ db.costLines) (hid : c₀.id = c.id)
    (hshipment : c₀.shipmentId = a.shipmentId)
    (hrow : billedBy (pre.filterMap (matchedId a db)) c₀ ∈ t.costLines) :
    LoopBilled a db (pre ++ [l]) (acc.push (matchedLine a l c))
      { t with costLines := t.costLines.update c.id CostLine.bill CostLine.bill_keepsKey } := by
  have hrowid : (billedBy (pre.filterMap (matchedId a db)) c₀).id = c.id :=
    (id_billedBy _ c₀).trans hid
  have hrowshipment := (shipmentId_billedBy (pre.filterMap (matchedId a db)) c₀).trans hshipment
  refine ⟨fun c' hc' => ?_, ?_, ?_, BillTotals.forall_mem_push.mpr ⟨h.lines, hcents⟩,
    BillTotals.billed_push (matchedLine a l c) h.billed, ?_⟩
  · rw [matchedIds_append_of_some hfind.matchedId_eq]
    refine (Table.mem_update_of_mem hrow hrowid).mpr ?_
    by_cases hsame : c'.id = c.id
    · refine Or.inr ?_
      rw [Table.eq_of_key_eq hc' hc₀ (hsame.trans hid.symm), bill_billedBy]
      exact if_pos (List.mem_append_right _ (List.mem_singleton.mpr hid))
    · rw [billedBy_append_of_ne hsame]
      exact Or.inl ⟨h.rows c' hc', fun hkey => hsame ((id_billedBy _ c').symm.trans hkey)⟩
  · refine (Table.forall_mem_update hrow hrowid).mpr ⟨fun s hs _ => h.added s hs, Or.inl ?_⟩
    exact ⟨c₀, hc₀, ((CostLine.bill_keepsKey.key_eq _).trans (id_billedBy _ c₀)).symm⟩
  · refine (Table.forall_mem_update hrow hrowid).mpr ⟨fun s hs _ => h.cents s hs, fun _ => ?_⟩
    rw [bill_sameAmount]
    exact h.cents _ hrow hrowshipment
  · rw [billedCost_update hrow hrowshipment hrowid, h.cost, amount_billedBy,
      newlyBilled_append_of_mem hc₀ hshipment (hid ▸ hfind.matchedId_eq),
      billedAdditional_append_of_some hfind.matchedId_eq]
    ring

theorem LoopBilled.bill_added (hcents : WholeCents l.billedAmount)
    (h : LoopBilled a db pre acc t)
    (hfind : Finds a (costLinesMap (shipmentCostLines a db)) t.costLines l (some c))
    (hnew : ∀ c₀ ∈ db.costLines, c₀.id ≠ c.id) (hc : c ∈ t.costLines)
    (hcounted : isBilled c = true) :
    LoopBilled a db (pre ++ [l]) (acc.push (matchedLine a l c))
      { t with costLines := t.costLines.update c.id CostLine.bill CostLine.bill_keepsKey } := by
  have hsame : t.costLines.update c.id CostLine.bill CostLine.bill_keepsKey = t.costLines := by
    refine Table.update_eq_self fun r hr hk => ?_
    rw [Table.eq_of_key_eq hr hc hk]
    exact bill_of_isBilled hcounted
  refine ⟨fun c' hc' => ?_, ?_, ?_, BillTotals.forall_mem_push.mpr ⟨h.lines, hcents⟩,
    BillTotals.billed_push (matchedLine a l c) h.billed, ?_⟩
  · rw [matchedIds_append_of_some hfind.matchedId_eq, hsame, billedBy_append_of_ne (hnew c' hc')]
    exact h.rows c' hc'
  · rw [hsame]
    exact h.added
  · rw [hsame]
    exact h.cents
  · rw [hsame, h.cost, newlyBilled_append_of_not_mem hnew hfind.matchedId_eq,
      billedAdditional_append_of_some hfind.matchedId_eq]

theorem LoopBilled.matched (hcents : WholeCents l.billedAmount) (h : LoopBilled a db pre acc t)
    (hfind : Finds a (costLinesMap (shipmentCostLines a db)) t.costLines l (some c)) :
    LoopBilled a db (pre ++ [l]) (acc.push (matchedLine a l c))
      { t with costLines := t.costLines.update c.id CostLine.bill CostLine.bill_keepsKey } := by
  rcases h.row hfind with ⟨c₀, hc₀, hid, hshipment, hrow⟩ | ⟨hnew, hc, hcounted⟩
  · exact h.bill_stored hcents hfind hc₀ hid hshipment hrow
  · exact h.bill_added hcents hfind hnew hc hcounted

theorem LoopBilled.additional (hcents : WholeCents l.billedAmount) (h : LoopBilled a db pre acc t)
    (hfind : Finds a (costLinesMap (shipmentCostLines a db)) t.costLines l none) :
    LoopBilled a db (pre ++ [l]) (acc.push (additionalLine a l t.costLines.freshKey))
      { t with costLines := t.costLines.insert (additionalCostLine caller a l) } := by
  have hnone : matchedId a db l = none := hfind.matchedId_eq_none
  have hamount : ∀ k, (additionalCostLine caller a l k).amount = l.billedAmount :=
    fun _ => column_of_wholeCents hcents
  refine ⟨fun c' hc' => ?_, ?_, ?_, BillTotals.forall_mem_push.mpr ⟨h.lines, hcents⟩,
    BillTotals.billed_push _ h.billed, ?_⟩
  · rw [matchedIds_append_of_none hnone]
    exact Table.mem_insert_of_mem (h.rows c' hc')
  · exact Table.forall_mem_insert.mpr ⟨h.added, Or.inr rfl⟩
  · refine Table.forall_mem_insert.mpr ⟨h.cents, fun _ => ?_⟩
    rw [hamount]
    exact hcents
  · have hcounted : (additionalCostLine caller a l t.costLines.freshKey).shipmentId = a.shipmentId ∧
        isBilled (additionalCostLine caller a l t.costLines.freshKey) = true := ⟨rfl, rfl⟩
    have hsum : billedCost a.shipmentId (t.costLines.insert (additionalCostLine caller a l)) =
        billedCost a.shipmentId t.costLines + l.billedAmount := by
      unfold billedCost
      rw [Table.sum_insert, if_pos (decide_eq_true hcounted), hamount]
    rw [hsum, h.cost, newlyBilled_append_of_none hnone, billedAdditional_append_of_none hnone]
    ring

/-- Lines of recorded payables, and the shipment's costs in whole cents. -/
structure CostsReady (shipmentId : Uuid) (db : Database) : Prop where
  line_of : ∀ l ∈ db.payableLines, ∃ p ∈ db.payables, p.id = l.payableId
  cents : ∀ c ∈ db.costLines, c.shipmentId = shipmentId → WholeCents c.amount

theorem BillLoop.loopBilled {totals : BillTotals} {billed : Database}
    (hdb : CostsReady a.shipmentId db) (hcents : ∀ l ∈ a.lines, WholeCents l.billedAmount)
    (h : BillLoop caller a db totals billed) : LoopBilled a db a.lines totals billed := by
  have hnew : newlyBilled a db [] = 0 := Table.sum_eq_zero fun c _ hc =>
    absurd (of_decide_eq_true hc).2.2 List.not_mem_nil
  have hstart : LoopBilled a db [] BillTotals.zero db :=
    { rows := fun c hc => by
        rw [List.filterMap_nil, billedBy, if_neg List.not_mem_nil]
        exact hc
      added := fun c hc => Or.inl ⟨c, hc, rfl⟩
      cents := hdb.cents
      lines := fun d hd => by cases hd
      billed := rfl
      cost := by
        rw [hnew, add_zero]
        exact (add_zero _).symm }
  refine run_foldlM_ok ?_ hstart h
  intro pre l post acc t acc' t' hlines hacc hrun
  have hl : l ∈ a.lines := by
    rw [hlines]
    exact List.mem_append_right _ List.mem_cons_self
  obtain ⟨-, ⟨c, hfind, rfl, rfl⟩ | ⟨hfind, rfl, rfl⟩⟩ := run_recordBillLine_ok hrun
  · exact hacc.matched (hcents l hl) hfind
  · exact hacc.additional (hcents l hl) hfind

/-- What a bill comes to, matched lines and additional ones. -/
theorem billed_eq (a : RecordPayable) (db : Database) (lines : List BillLine) :
    (lines.map (·.billedAmount)).sum =
      billedOnMatched a db lines + billedAdditional a db lines := by
  unfold billedOnMatched billedAdditional
  induction lines with
  | nil => exact (add_zero 0).symm
  | cons l lines ih =>
    rw [List.map_cons, List.sum_cons, ih]
    cases h : matchedId a db l with
    | some id =>
      rw [List.filter_cons_of_pos (by rw [h]; rfl),
        List.filter_cons_of_neg (by rw [h]; exact Bool.false_ne_true), List.map_cons, List.sum_cons,
        add_assoc]
    | none =>
      rw [List.filter_cons_of_neg (by rw [h]; exact Bool.false_ne_true),
        List.filter_cons_of_pos (by rw [h]; rfl), List.map_cons, List.sum_cons]
      ring

end Loop

section Calls
variable {orders : LedgerOrders} {shipmentId : Uuid} {db db' : Database}

theorem CostsReady.actualCost_eq (h : CostsReady shipmentId db) :
    (profitabilityOf orders shipmentId db).actualCost = billedCost shipmentId db.costLines := by
  rw [Payables.actualCost_eq]
  refine cents_of_wholeCents (Table.sum_induction WholeCents OnGrid.zero
    (fun _ _ hx hy => hx.add hy) fun c hc hp => ?_)
  exact h.cents c hc (of_decide_eq_true hp).1

variable [Text] {caller : Caller} {i : Caller × CostRequest}

theorem CostsReady.recordPayable {a : RecordPayable} {d : PayableDetail}
    (hdb : CostsReady a.shipmentId db) (hcents : ∀ l ∈ a.lines, WholeCents l.billedAmount)
    (h : (recordPayable caller a).run db = .ok d db') : CostsReady a.shipmentId db' ∧
      ∀ orders, CostIsBilled orders a.shipmentId db → (CostIsBilled orders a.shipmentId db' ↔
        billedOnMatched a db a.lines = newlyBilled a db a.lines) := by
  obtain ⟨_, _, totals, billed, hloop, rfl⟩ := run_recordPayable_ok h
  have hbilled := hloop.loopBilled hdb hcents
  have hready : CostsReady a.shipmentId (billTables caller a totals billed db) :=
    ⟨line_of_addPayableLines hdb.line_of, hbilled.cents⟩
  refine ⟨hready, fun orders hbefore => ?_⟩
  have htotal : totalBilled (billTables caller a totals billed db) a.shipmentId =
      totalBilled db a.shipmentId + if a.shipmentId = a.shipmentId then totals.subtotal else 0 :=
    totalBilled_billTables hdb.line_of hbilled.lines hbilled.billed a.shipmentId
  rw [if_pos rfl, hloop.subtotal, billed_eq a db] at htotal
  unfold CostIsBilled at hbefore ⊢
  rw [hdb.actualCost_eq] at hbefore
  rw [hready.actualCost_eq, htotal, ← hbefore]
  change billedCost a.shipmentId billed.costLines = _ ↔ _
  rw [hbilled.cost]
  constructor
  · intro heq
    linarith
  · intro heq
    linarith

/-- An expected cost counts for nothing until it is billed. -/
theorem CostsReady.addCostLine {a : AddCostLine} {line : CostLine} (hdb : CostsReady shipmentId db)
    (hcents : WholeCents a.amount)
    (hstatus : upper (strip a.status) = "ESTIMATED" ∨ upper (strip a.status) = "ACCRUED")
    (h : (addCostLine caller a).run db = .ok line db') : CostsReady shipmentId db' ∧
      ∀ orders, CostIsBilled orders shipmentId db → CostIsBilled orders shipmentId db' := by
  obtain ⟨status, haccepted, _, o, _, rfl⟩ := run_addCostLine_iff.mp h
  have hopen : isBilled (storedCostLine caller a status db.costLines.freshKey) = false := by
    have hparse := haccepted.status
    rcases hstatus with hs | hs
    · rw [hs] at hparse
      cases hparse
      rfl
    · rw [hs] at hparse
      cases hparse
      rfl
  have hready : CostsReady shipmentId { withStoredCostLine caller a status db with
      shipmentExceptions := synced caller a.shipmentId
        (profitabilityOf .stored a.shipmentId (withCostLine caller a status db))
        db.shipmentExceptions o } := by
    refine ⟨hdb.line_of, Table.forall_mem_insert.mpr ⟨hdb.cents, fun _ => ?_⟩⟩
    change WholeCents (column 4 a.amount)
    rw [column_of_wholeCents hcents]
    exact hcents
  refine ⟨hready, fun orders hbefore => ?_⟩
  unfold CostIsBilled at hbefore ⊢
  rw [hdb.actualCost_eq] at hbefore
  rw [hready.actualCost_eq]
  refine Eq.trans ?_ hbefore
  unfold billedCost withStoredCostLine
  rw [Table.sum_insert, decide_eq_false fun hc => Bool.false_ne_true (hopen.symm.trans hc.2),
    if_neg Bool.false_ne_true, add_zero]

theorem costsReady_step (hi : CostCall shipmentId i) (hdb : CostsReady shipmentId db) :
    CostsReady shipmentId (costStep db i) := by
  obtain ⟨caller, a | request⟩ := i
  · obtain ⟨-, hcents, hstatus⟩ := hi
    exact commit_keeps (I := CostsReady shipmentId) hdb fun _ _ h =>
      (hdb.addCostLine hcents hstatus h).1
  · cases request with
    | recordPayable a =>
      obtain ⟨rfl, hcents⟩ := hi
      exact commit_keeps (I := CostsReady a.shipmentId) hdb fun _ _ h =>
        (hdb.recordPayable hcents h).1
    | verifyPayable a => exact absurd hi id
    | approvePayable a => exact absurd hi id
    | recordPayment a => exact absurd hi id

theorem costIsBilled_step_iff (hi : CostCall shipmentId i) (hdb : CostsReady shipmentId db)
    (h : CostIsBilled orders shipmentId db) :
    CostIsBilled orders shipmentId (costStep db i) ↔ BillsExpected db i := by
  obtain ⟨caller, a | request⟩ := i
  · obtain ⟨-, hcents, hstatus⟩ := hi
    have hexpected : BillsExpected db (caller, .addCostLine a) := fun _ hbill => by cases hbill
    refine iff_of_true ?_ hexpected
    exact commit_keeps (I := CostIsBilled orders shipmentId) h fun _ _ hrun =>
      (hdb.addCostLine hcents hstatus hrun).2 orders h
  · cases request with
    | recordPayable a =>
      obtain ⟨rfl, hcents⟩ := hi
      have hasked : BillsExpected db (caller, .payable (.recordPayable a)) ↔
          (Succeeds (recordPayable caller a) db →
            billedOnMatched a db a.lines = newlyBilled a db a.lines) := by
        constructor
        · exact fun hexpected => hexpected a rfl
        · intro hexpected b hb
          cases hb
          exact hexpected
      rw [hasked]
      by_cases hsucceeds : Succeeds (recordPayable caller a) db
      · obtain ⟨d, t, hrun⟩ := hsucceeds
        have hstep : costStep db (caller, .payable (.recordPayable a)) = t := commit_of_ok hrun
        rw [hstep, (hdb.recordPayable hcents hrun).2 orders h]
        exact ⟨fun heq _ => heq, fun heq => heq ⟨d, t, hrun⟩⟩
      · have hstep : costStep db (caller, .payable (.recordPayable a)) = db := by
          rcases commit_cases (recordPayable caller a) db with hsame | ⟨d, hrun⟩
          · exact hsame
          · exact absurd ⟨d, _, hrun⟩ hsucceeds
        rw [hstep]
        exact iff_of_true h fun hok => absurd hok hsucceeds
    | verifyPayable a => exact absurd hi id
    | approvePayable a => exact absurd hi id
    | recordPayment a => exact absurd hi id

/-- The actual cost is what was billed throughout a sequence of calls if and only if every bill
comes, on the lines it matches, to what they were expected to cost. -/
theorem actual_cost_is_billed_iff (orders : LedgerOrders) {is : List (Caller × CostRequest)}
    (his : ∀ i ∈ is, CostCall shipmentId i) (hdb : CostsReady shipmentId db)
    (h : CostIsBilled orders shipmentId db) :
    (∀ made, made <+: is → CostIsBilled orders shipmentId (made.foldl costStep db)) ↔
      Meets costStep BillsExpected db is :=
  forall_prefix_iff_meets_of_invariant (CostsReady shipmentId)
    (fun _ i hi hready => costsReady_step (his i hi) hready)
    (fun _ i hi hready hbilled => costIsBilled_step_iff (his i hi) hready hbilled) hdb h

end Calls

section Runs
open Verbatim

def expectFreight : Caller × CostRequest :=
  (clerk, .addCostLine ⟨1, "OFR", 100, "USD", none, none, false, none, 1, none, none, "ACCRUED"⟩)

def bill (billNumber chargeCode : String) (amount : Money) : Caller × CostRequest :=
  (clerk, .payable (.recordPayable (billOf billNumber chargeCode amount)))

theorem costsReady_shipped : CostsReady 1 shipped :=
  ⟨fun l hl => absurd hl (Table.not_mem_empty l), fun c hc => absurd hc (Table.not_mem_empty c)⟩

/-- Freight is billed as expected, and handling is an additional charge. -/
def billedAsExpected : List (Caller × CostRequest) :=
  [expectFreight, bill "B-1" "OFR" 100, bill "B-2" "THC" 50]

theorem actual_cost_billedAsExpected :
    (profitabilityOf .stored 1 (billedAsExpected.foldl costStep shipped)).actualCost = 150 ∧
      ((∀ made, made <+: billedAsExpected → CostIsBilled .stored 1 (made.foldl costStep shipped)) ↔
        Meets costStep BillsExpected shipped billedAsExpected) :=
  ⟨by decide +kernel,
    actual_cost_is_billed_iff .stored (by decide +kernel) costsReady_shipped (by decide +kernel)⟩

/-- Freight of 100 that is billed at 120 still costs 100, and a second bill costs nothing. -/
theorem over_billed_at_expected_cost :
    (∀ i ∈ [expectFreight, bill "B-1" "OFR" 120, bill "B-2" "OFR" 30], CostCall 1 i) ∧
      CostIsBilled .stored 1 shipped ∧
      ([expectFreight, bill "B-1" "OFR" 120].foldl costStep shipped |> fun t =>
        ((profitabilityOf .stored 1 t).actualCost, totalBilled t 1)) = (100, 120) ∧
      ([expectFreight, bill "B-1" "OFR" 120, bill "B-2" "OFR" 30].foldl costStep shipped |> fun t =>
        ((profitabilityOf .stored 1 t).actualCost, totalBilled t 1)) = (100, 150) ∧
      ¬ CostIsBilled .stored 1 ([expectFreight, bill "B-1" "OFR" 120].foldl costStep shipped) := by
  decide +kernel

end Runs

end Friet.Payables
