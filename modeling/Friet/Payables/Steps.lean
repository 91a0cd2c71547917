import Friet.Payables.Service
import Friet.Lib.Run

/-!
# What each payable operation does

One lemma per operation says everything a normal return implies: the guards it
passed and the tables it left. The invariants below use these and never unfold
an operation.
-/

set_option autoImplicit false

namespace Friet.Payables

open Session

variable [Text] {caller : Caller} {db db' : Database}

theorem run_findPayable_ok {payableId tenantId : Uuid} {p : Payable} :
    (findPayable payableId tenantId).run db = .ok p db' ↔
      (p ∈ db.payables ∧ p.id = payableId ∧ p.tenantId = tenantId) ∧ db = db' := by
  unfold findPayable
  simp only [run_get_bind_ok, run_orFail_ok, Table.findWhere_eq_some_iff, decide_eq_true_eq]
  exact Iff.rfl

theorem run_findPayable_bind_ok {β : Type} {payableId tenantId : Uuid} {f : Payable → Service β}
    {b : β} :
    (findPayable payableId tenantId >>= f).run db = .ok b db' ↔
      ∃ p, (p ∈ db.payables ∧ p.id = payableId ∧ p.tenantId = tenantId) ∧
        (f p).run db = .ok b db' :=
  run_reads_bind_ok fun _ _ => run_findPayable_ok

theorem run_getPayable_ok {payableId tenantId : Uuid} {d : PayableDetail}
    (h : (getPayable payableId tenantId).run db = .ok d db') : db' = db := by
  unfold getPayable at h
  simp only [run_findPayable_bind_ok, run_get_bind_ok, run_pure_ok] at h
  obtain ⟨_, _, _, rfl⟩ := h
  rfl

section Bill
variable {a : RecordPayable} {costLines : String → Option CostLine} {l : BillLine}

/-- The cost line found for a bill line: by the given id within the shipment, else by code. -/
def Finds (a : RecordPayable) (costLines : String → Option CostLine) (t : Table CostLine)
    (l : BillLine) (o : Option CostLine) : Prop :=
  match l.costLineId with
  | some id => ∃ c, t.findWhere id (·.shipmentId = a.shipmentId) = some c ∧ o = some c
  | none => o = costLines (billCode l)

theorem run_matchCostLine_ok {o : Option CostLine} :
    (matchCostLine a costLines l).run db = .ok o db' ↔
      Finds a costLines db.costLines l o ∧ db = db' := by
  unfold matchCostLine Finds
  cases l.costLineId with
  | none =>
    simp only [run_pure_ok]
    exact and_congr_left fun _ => eq_comm
  | some id =>
    simp only [run_get_bind_ok, run_orFail_bind_ok, run_pure_ok]
    constructor
    · rintro ⟨c, hc, rfl, rfl⟩
      exact ⟨⟨c, hc, rfl⟩, rfl⟩
    · rintro ⟨⟨c, hc, rfl⟩, rfl⟩
      exact ⟨c, hc, rfl, rfl⟩

theorem run_matchCostLine_bind_ok {β : Type} {f : Option CostLine → Service β} {b : β} :
    (matchCostLine a costLines l >>= f).run db = .ok b db' ↔
      ∃ o, Finds a costLines db.costLines l o ∧ (f o).run db = .ok b db' :=
  run_reads_bind_ok fun _ _ => run_matchCostLine_ok

/-- One pass: a matched cost line is billed, or an additional one is added. -/
theorem run_recordBillLine_ok {acc acc' : BillTotals}
    (h : (recordBillLine caller a costLines acc l).run db = .ok acc' db') :
    0 < l.billedAmount ∧
      ((∃ c, Finds a costLines db.costLines l (some c) ∧ acc' = acc.push (matchedLine a l c) ∧
          db' = { db with costLines := db.costLines.update c.id CostLine.bill CostLine.bill_keepsKey }) ∨
        (Finds a costLines db.costLines l none ∧
          acc' = acc.push (additionalLine a l db.costLines.freshKey) ∧
          db' = { db with costLines := db.costLines.insert (additionalCostLine caller a l) })) := by
  unfold recordBillLine addCostLineRow at h
  simp only [run_failIf_bind_ok, run_matchCostLine_bind_ok] at h
  obtain ⟨hpos, o, hfind, h⟩ := h
  refine ⟨not_le.mp hpos, ?_⟩
  cases o with
  | some c =>
    simp only [run_modify_bind_ok, run_pure_ok] at h
    obtain ⟨rfl, rfl⟩ := h
    exact Or.inl ⟨c, hfind, rfl, rfl⟩
  | none =>
    simp only [run_modifyGet_bind_ok, run_pure_ok] at h
    obtain ⟨rfl, rfl⟩ := h
    exact Or.inr ⟨hfind, rfl, rfl⟩

/-- The loop over the bill lines, from the state `recordPayable` starts it in. -/
def BillLoop (caller : Caller) (a : RecordPayable) (db : Database) (totals : BillTotals)
    (billed : Database) : Prop :=
  (a.lines.foldlM (recordBillLine caller a (costLinesMap (shipmentCostLines a db)))
    BillTotals.zero).run db = .ok totals billed

theorem BillLoop.frame {totals : BillTotals} {billed : Database}
    (h : BillLoop caller a db totals billed) :
    billed = { db with costLines := billed.costLines } := by
  have hstep : ∀ (pre : List BillLine) l acc t acc' t', t = { db with costLines := t.costLines } →
      (recordBillLine caller a (costLinesMap (shipmentCostLines a db)) acc l).run t = .ok acc' t' →
      t' = { db with costLines := t'.costLines } := by
    intro _ l acc t acc' t' ht hrun
    rcases (run_recordBillLine_ok hrun).2 with ⟨_, _, _, rfl⟩ | ⟨_, _, rfl⟩ <;> rw [ht]
  exact run_foldlM_ok (fun pre l _ acc t acc' t' _ => hstep pre l acc t acc' t') rfl h

theorem BillLoop.subtotal {totals : BillTotals} {billed : Database}
    (h : BillLoop caller a db totals billed) :
    totals.subtotal = (a.lines.map (·.billedAmount)).sum := by
  have hstep : ∀ (pre : List BillLine) l acc t acc' t',
      acc.subtotal = (pre.map (·.billedAmount)).sum →
      (recordBillLine caller a (costLinesMap (shipmentCostLines a db)) acc l).run t = .ok acc' t' →
      acc'.subtotal = ((pre ++ [l]).map (·.billedAmount)).sum := by
    intro pre l acc t acc' t' hacc hrun
    rw [List.map_append, List.sum_append, ← hacc]
    rcases (run_recordBillLine_ok hrun).2 with ⟨_, _, rfl, _⟩ | ⟨_, rfl, _⟩ <;>
      simp [BillTotals.push, matchedLine, additionalLine]
  exact run_foldlM_ok (fun pre l _ acc t acc' t' _ => hstep pre l acc t acc' t') rfl h

omit [Text] in
theorem mem_addPayableLines {tenantId payableId : Uuid} {ds : List PayableLineData}
    {t : Table PayableLine} {l : PayableLine} (h : l ∈ addPayableLines tenantId payableId ds t) :
    l ∈ t ∨ ∃ d ∈ ds, ∃ k, l = payableLineRow tenantId payableId d k :=
  Table.mem_foldl_insert h

omit [Text] in
theorem mem_addPayableLines_of_mem {tenantId payableId : Uuid} {ds : List PayableLineData}
    {t : Table PayableLine} {l : PayableLine} (h : l ∈ t) :
    l ∈ addPayableLines tenantId payableId ds t :=
  Table.mem_foldl_insert_of_mem h

omit [Text] in
theorem exists_mem_addPayableLines {tenantId payableId : Uuid} {ds : List PayableLineData}
    {t : Table PayableLine} {d : PayableLineData} (h : d ∈ ds) :
    ∃ k, payableLineRow tenantId payableId d k ∈ addPayableLines tenantId payableId ds t :=
  Table.exists_mem_foldl_insert h

omit [Text] in
/-- Lines of recorded payables stay so, and the new ones belong to the new payable. -/
theorem line_of_addPayableLines {tenantId : Uuid} {ds : List PayableLineData}
    {payables : Table Payable} {lines : Table PayableLine} {mk : Uuid → Payable}
    {hmk : TakesKey mk} (h : ∀ l ∈ lines, ∃ p ∈ payables, p.id = l.payableId) :
    ∀ l ∈ addPayableLines tenantId payables.freshKey ds lines,
      ∃ p ∈ payables.insert mk hmk, p.id = l.payableId := by
  intro l hl
  rcases mem_addPayableLines hl with hl | ⟨_, _, _, rfl⟩
  · obtain ⟨p, hp, hid⟩ := h l hl
    exact ⟨p, Table.mem_insert_of_mem hp, hid⟩
  · exact ⟨_, Table.mem_insert_self, hmk.key_eq _⟩

omit [Text] in
theorem sum_addPayableLines {tenantId payableId : Uuid} {ds : List PayableLineData}
    {t : Table PayableLine} {p : PayableLine → Bool} {f : PayableLine → Money} {b : Bool}
    {g : PayableLineData → Money}
    (hp : ∀ d ∈ ds, ∀ k, p (payableLineRow tenantId payableId d k) = b)
    (hf : ∀ d ∈ ds, ∀ k, f (payableLineRow tenantId payableId d k) = g d) :
    (addPayableLines tenantId payableId ds t).sum p f =
      t.sum p f + if b then (ds.map g).sum else 0 := by
  unfold addPayableLines
  induction ds generalizing t with
  | nil => simp
  | cons d ds ih =>
    rw [List.foldl_cons, ih (fun d' hd' => hp d' (List.mem_cons_of_mem d hd'))
      (fun d' hd' => hf d' (List.mem_cons_of_mem d hd')), Table.sum_insert,
      hp d List.mem_cons_self, hf d List.mem_cons_self, List.map_cons, List.sum_cons]
    cases b
    · simp
    · simp [add_assoc]

theorem Finds.mem {db₀ : Database} {t : Table CostLine} {c : CostLine}
    (h : Finds a (costLinesMap (shipmentCostLines a db₀)) t l (some c)) :
    c ∈ t ∨ c ∈ db₀.costLines := by
  unfold Finds at h
  split at h
  · obtain ⟨c', hc', heq⟩ := h
    rw [Option.some.inj heq]
    exact Or.inl (Table.findWhere_eq_some_iff.mp hc').1
  · have hc := List.mem_of_find?_eq_some h.symm
    rw [List.mem_reverse, shipmentCostLines, RowOrder.mem_arrange] at hc
    exact Or.inr (List.mem_filter.mp hc).1

theorem takesKey_newPayable (caller : Caller) (a : RecordPayable) (totals : BillTotals) :
    TakesKey (newPayable caller a totals) :=
  ⟨fun _ => rfl⟩

def billTables (caller : Caller) (a : RecordPayable) (totals : BillTotals) (billed db : Database) :
    Database :=
  { db with
    costLines := billed.costLines
    payables := db.payables.insert (newPayable caller a totals) (takesKey_newPayable caller a totals)
    payableLines := addPayableLines caller.tenantId db.payables.freshKey totals.payableLinesToAdd
      db.payableLines }

theorem run_recordPayable_ok {d : PayableDetail}
    (h : (recordPayable caller a).run db = .ok d db') :
    a.lines ≠ [] ∧
      (∀ p ∈ db.payables, p.tenantId = caller.tenantId → p.billNumber ≠ Text.strip a.billNumber) ∧
      ∃ totals billed, BillLoop caller a db totals billed ∧
        db' = billTables caller a totals billed db := by
  unfold recordPayable addPayable at h
  simp only [run_getTenantShipment_bind_ok, run_get_bind_ok, run_checkGiven_bind_ok,
    run_scalarOneOrNone_bind_ok, run_failIf_bind_ok] at h
  obtain ⟨_, _, _, _, o, hdup, hnone, hlines, h⟩ := h
  rw [run_bind_ok] at h
  simp only [run_modifyGet_bind_ok, run_modify_bind_ok] at h
  obtain ⟨totals, billed, hloop, hget⟩ := h
  refine ⟨hlines, ?_, totals, billed, hloop, ?_⟩
  · intro p hp htenant hbill
    have ho : o = none := by simpa using hnone
    subst ho
    have hmem : p ∈ db.payables.rows.filter fun p =>
        decide (p.tenantId = caller.tenantId ∧ p.billNumber = Text.strip a.billNumber) :=
      List.mem_filter.mpr ⟨hp, by simp [htenant, hbill]⟩
    rw [hdup] at hmem
    cases hmem
  · rw [run_getPayable_ok hget, BillLoop.frame hloop]
    rfl

end Bill

omit [Text] in
theorem keepsKey_verified :
    KeepsKey fun l : PayableLine => { l with status := .verified } :=
  ⟨fun _ => rfl⟩

def verifiedRows (a : VerifyPayable) (t : Table PayableLine) : Table PayableLine :=
  t.updateWhere (·.payableId = a.payableId) (fun l => { l with status := .verified })
    keepsKey_verified

theorem run_verifyPayable_ok {a : VerifyPayable} {d : PayableDetail}
    (h : (verifyPayable caller a).run db = .ok d db') :
    ∃ p ∈ db.payables, p.id = a.payableId ∧ p.tenantId = caller.tenantId ∧
      p.status ≠ .approved ∧ p.status ≠ .paid ∧
      ¬ (isMaterial p.totalAmount |p.varianceAmount| ∧ a.allowMaterialVariance = false) ∧
      db' = { db with
        payables := db.payables.update p.id (Payable.verify caller a)
        payableLines := verifiedRows a db.payableLines
        costLines := advanceCostLines .billed .verified (linesOf a.payableId db) db.costLines
        shipmentExceptions :=
          if |p.varianceAmount| > 0 then db.shipmentExceptions.insert (varianceException caller p)
          else db.shipmentExceptions } := by
  unfold verifyPayable addShipmentException at h
  simp only [run_findPayable_bind_ok, run_failIf_bind_ok] at h
  obtain ⟨p, ⟨hp, hid, htenant⟩, hs, h⟩ := h
  push Not at hs
  refine ⟨p, hp, hid, htenant, hs.1, hs.2, ?_⟩
  split_ifs at h with hvar hmat hmat
  · simp only [run_bind_ok, run_throw_ok, false_and, exists_false, and_false] at h
  · simp only [run_modifyGet_bind_ok, run_modify_bind_ok] at h
    refine ⟨hmat, ?_⟩
    rw [run_getPayable_ok h, if_pos hvar]
    rfl
  · simp only [run_bind_ok, run_throw_ok, false_and, exists_false, and_false] at h
  · simp only [run_modify_bind_ok] at h
    refine ⟨hmat, ?_⟩
    rw [run_getPayable_ok h, if_neg hvar]
    rfl

theorem verifyPayable_succeeds {a : VerifyPayable} {p : Payable} (hp : p ∈ db.payables)
    (hid : p.id = a.payableId) (htenant : p.tenantId = caller.tenantId)
    (hstatus : p.status ≠ .approved ∧ p.status ≠ .paid)
    (hmaterial : ¬ (isMaterial p.totalAmount |p.varianceAmount| ∧ a.allowMaterialVariance = false)) :
    Succeeds (verifyPayable caller a) db := by
  have hget : ∀ t : Database, t.payables = db.payables.update p.id (Payable.verify caller a) →
      ∃ d t', (getPayable p.id caller.tenantId).run t = .ok d t' := by
    intro t ht
    have hmem : Payable.verify caller a p ∈ t.payables := by
      rw [ht]
      exact (Table.mem_update_of_mem hp).mpr (Or.inr rfl)
    unfold getPayable
    simp only [run_findPayable_bind_ok, run_get_bind_ok, run_pure_ok]
    exact ⟨_, _, _, ⟨hmem, rfl, htenant⟩, rfl, rfl⟩
  unfold Succeeds verifyPayable addShipmentException
  simp only [run_findPayable_bind_ok, run_failIf_bind_ok]
  by_cases hvar : |p.varianceAmount| > 0
  · obtain ⟨d, t, h⟩ := hget
      { db with
        payables := db.payables.update p.id (Payable.verify caller a)
        payableLines := verifiedRows a db.payableLines
        costLines := advanceCostLines .billed .verified (linesOf a.payableId db) db.costLines
        shipmentExceptions := db.shipmentExceptions.insert (varianceException caller p) } rfl
    refine ⟨d, t, p, ⟨hp, hid, htenant⟩, not_or.mpr hstatus, ?_⟩
    rw [if_pos hvar, if_neg hmaterial]
    simp only [run_modifyGet_bind_ok, run_modify_bind_ok]
    exact h
  · obtain ⟨d, t, h⟩ := hget
      { db with
        payables := db.payables.update p.id (Payable.verify caller a)
        payableLines := verifiedRows a db.payableLines
        costLines := advanceCostLines .billed .verified (linesOf a.payableId db) db.costLines } rfl
    refine ⟨d, t, p, ⟨hp, hid, htenant⟩, not_or.mpr hstatus, ?_⟩
    rw [if_neg hvar, if_neg hmaterial]
    simp only [run_modify_bind_ok]
    exact h

/-- The approved row, with the ledger entry that recognises the bill. -/
def Payable.approveWith (caller : Caller) (a : ApprovePayable) (entryId : Uuid) (p : Payable) :
    Payable :=
  { Payable.approve caller a p with financialEntryId := some entryId }

theorem run_approvePayable_ok {a : ApprovePayable} {d : PayableDetail}
    (h : (approvePayable caller a).run db = .ok d db') :
    ∃ p ∈ db.payables, p.id = a.payableId ∧ p.tenantId = caller.tenantId ∧
      p.approvalStatus ≠ .approved ∧ p.verificationStatus = .verified ∧
      db' = { db with
        payables := db.payables.update p.id
          (Payable.approveWith caller a db.financialEntries.freshKey)
        costLines := advanceCostLines .verified .approved (linesOf a.payableId db) db.costLines
        financialEntries := db.financialEntries.insert (apBillEntry caller p) } := by
  unfold approvePayable addFinancialEntry at h
  simp only [run_findPayable_bind_ok, run_failIf_bind_ok, run_modify_bind_ok,
    run_modifyGet_bind_ok] at h
  obtain ⟨p, ⟨hp, hid, htenant⟩, happ, hver, hget⟩ := h
  refine ⟨p, hp, hid, htenant, happ, not_not.mp hver, ?_⟩
  rw [run_getPayable_ok hget]
  simp only [Table.update_update]
  rfl

section Payment
variable {a : RecordPayment} {r : PaymentRead}

/-- What the read phase of a payment has checked. -/
structure Payable.Accepts (caller : Caller) (a : RecordPayment) (db : Database) (r : PaymentRead) :
    Prop where
  mem : r.payable ∈ db.payables
  id : r.payable.id = a.payableId
  tenant : r.payable.tenantId = caller.tenantId
  status : r.payable.status = .approved ∨ r.payable.status = .partiallyPaid
  existing : r.existingPaid = existingPaid db a.payableId caller.tenantId
  amount_pos : 0 < a.amount
  remaining_pos : 0 < remainingBalance r
  amount_le : a.amount ≤ remainingBalance r

theorem run_recordPaymentRead_ok :
    (recordPaymentRead caller a).run db = .ok r db' ↔
      Payable.Accepts caller a db r ∧ db = db' := by
  unfold recordPaymentRead
  simp only [run_failIf_bind_ok, run_findPayable_bind_ok, run_get_bind_ok, run_pure_ok]
  constructor
  · rintro ⟨hpos, p, ⟨hp, hid, htenant⟩, hs, hrem, hle, rfl, rfl⟩
    refine ⟨⟨hp, hid, htenant, ?_, rfl, not_le.mp hpos, not_le.mp hrem, not_lt.mp hle⟩, rfl⟩
    tauto
  · rintro ⟨⟨hp, hid, htenant, hs, hex, hpos, hrem, hle⟩, rfl⟩
    obtain ⟨p, e⟩ := r
    simp only at hp hid htenant hs hex hrem hle
    subst hex
    exact ⟨not_le.mpr hpos, p, ⟨hp, hid, htenant⟩, by tauto, not_le.mpr hrem, not_lt.mpr hle, rfl,
      rfl⟩

theorem takesKey_apPaymentEntry (caller : Caller) (a : RecordPayment) (r : PaymentRead) :
    TakesKey (apPaymentEntry caller a r.payable) :=
  ⟨fun _ => rfl⟩

theorem takesKey_paymentRow (caller : Caller) (a : RecordPayment) (r : PaymentRead)
    (db : Database) : TakesKey (paymentRow caller a r.payable db.financialEntries.freshKey) :=
  ⟨fun _ => rfl⟩

omit [Text] in
theorem keepsKey_pay (a : RecordPayment) (r : PaymentRead) : KeepsKey (Payable.pay a r) :=
  ⟨fun _ => rfl⟩

/-- The tables the write phase of a payment leaves. -/
def payTables (caller : Caller) (a : RecordPayment) (r : PaymentRead) (db : Database) : Database :=
  { db with
    financialEntries := db.financialEntries.insert (apPaymentEntry caller a r.payable)
      (takesKey_apPaymentEntry caller a r)
    payablePayments :=
      db.payablePayments.insert (paymentRow caller a r.payable db.financialEntries.freshKey)
        (takesKey_paymentRow caller a r db)
    payables := db.payables.update r.payable.id (Payable.pay a r) (keepsKey_pay a r)
    costLines :=
      if newStatus a r = .paid then
        advanceCostLines .approved .paid (linesOf a.payableId db) db.costLines
      else db.costLines }

theorem run_recordPaymentWrite_ok {d : PayableDetail}
    (h : (recordPaymentWrite caller a r).run db = .ok d db') : db' = payTables caller a r db := by
  unfold recordPaymentWrite addFinancialEntry addPayment at h
  simp only [run_modifyGet_bind_ok, run_modify_bind_ok] at h
  rw [run_getPayable_ok h]
  rfl

theorem run_recordPayment_ok {d : PayableDetail}
    (h : (recordPayment caller a).run db = .ok d db') :
    ∃ r, Payable.Accepts caller a db r ∧ db' = payTables caller a r db := by
  unfold recordPayment at h
  simp only [run_bind_ok, run_recordPaymentRead_ok] at h
  obtain ⟨r, _, ⟨hr, rfl⟩, h⟩ := h
  exact ⟨r, hr, run_recordPaymentWrite_ok h⟩

omit [Text] in
theorem Payable.pay_status : (Payable.pay a r r.payable).status = newStatus a r := by
  simp [Payable.pay]

omit [Text] in
theorem Payable.pay_paidAmount :
    (Payable.pay a r r.payable).paidAmount = column 4 (newTotalPaid a r) := by
  simp [Payable.pay]

theorem recordPayment_succeeds (h : Payable.Accepts caller a db r) :
    Succeeds (recordPayment caller a) db := by
  have hmem : Payable.pay a r r.payable ∈ (payTables caller a r db).payables := by
    simp only [payTables, Table.mem_update]
    exact Or.inr ⟨r.payable, h.mem, rfl, rfl⟩
  have hget : ∃ d t, (getPayable r.payable.id caller.tenantId).run (payTables caller a r db) =
      .ok d t := by
    unfold getPayable
    simp only [run_findPayable_bind_ok, run_get_bind_ok, run_pure_ok]
    exact ⟨_, _, _, ⟨hmem, rfl, h.tenant⟩, rfl, rfl⟩
  obtain ⟨d, t, hget⟩ := hget
  refine ⟨d, t, ?_⟩
  unfold recordPayment recordPaymentWrite addFinancialEntry addPayment
  rw [run_bind_ok]
  simp only [run_recordPaymentRead_ok, run_modifyGet_bind_ok, run_modify_bind_ok]
  exact ⟨r, _, ⟨h, rfl⟩, hget⟩

end Payment

section CostLines
variable {lines : List PayableLine} {t : Table CostLine} {old new : CostLineStatus}

/-- Some line of the list is linked to the cost line. -/
def Linked (lines : List PayableLine) (c : CostLine) : Prop :=
  ∃ l ∈ lines, l.costLineId = some c.id

omit [Text] in
/-- Linked cost lines are advanced, the others stay. -/
theorem follows_advanceCostLines : t.Follows
    (fun c c' => (Linked lines c ∧ c' = CostLine.advance old new c) ∨ (¬ Linked lines c ∧ c' = c))
    (advanceCostLines old new lines t) := by
  have hidem : ∀ c : CostLine, CostLine.advance old new (CostLine.advance old new c) =
      CostLine.advance old new c := by
    intro c
    unfold CostLine.advance
    split_ifs <;> simp_all
  have hlinked : ∀ c : CostLine, (decide (key c ∈ lines.filterMap (·.costLineId)) = true) ↔
      Linked lines c := by
    intro c
    simp only [decide_eq_true_eq, List.mem_filterMap]
    exact Iff.rfl
  intro c hc
  rw [advanceCostLines, Table.foldl_update hidem]
  by_cases hl : Linked lines c
  · refine ⟨CostLine.advance old new c, Table.mem_updateWhere.mpr ⟨c, hc, ?_⟩,
      (CostLine.advance_keepsKey old new).key_eq c, Or.inl ⟨hl, rfl⟩⟩
    rw [if_pos ((hlinked c).mpr hl)]
  · refine ⟨c, Table.mem_updateWhere.mpr ⟨c, hc, ?_⟩, rfl, Or.inr ⟨hl, rfl⟩⟩
    rw [if_neg (mt (hlinked c).mp hl)]

end CostLines

inductive Request where
  | recordPayable (a : RecordPayable)
  | verifyPayable (a : VerifyPayable)
  | approvePayable (a : ApprovePayable)
  | recordPayment (a : RecordPayment)

def Request.run (caller : Caller) : Request → Service PayableDetail
  | .recordPayable a => Payables.recordPayable caller a
  | .verifyPayable a => Payables.verifyPayable caller a
  | .approvePayable a => Payables.approvePayable caller a
  | .recordPayment a => Payables.recordPayment caller a

def step (db : Database) (i : Caller × Request) : Database := commit (i.2.run i.1) db

def NoBills (db : Database) : Prop := (∀ p, p ∉ db.payables) ∧ ∀ l, l ∉ db.payableLines

/-- One-line bills and plain payments, for runs on concrete inputs. -/
def billOf (billNumber chargeCode : String) (amount : Money) : RecordPayable where
  shipmentId := 1
  billNumber := billNumber
  lines := [⟨chargeCode, amount, none, none, 1, none⟩]
  vendorId := none
  carrierId := none
  billDate := none
  dueDate := none
  currencyCode := "USD"
  taxAmount := 0
  supportingDocumentUrl := none
  notes := none
  costLineOrder := .stored

def paymentOf (payableId : Uuid) (amount : Money) (currencyCode : Option String) : RecordPayment :=
  { payableId, amount, paymentReference := "WIRE", paymentDate := none, currencyCode
    paymentMethod := "WIRE_TRANSFER", notes := none }

end Friet.Payables
