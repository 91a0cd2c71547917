import Friet.Exceptions.Margin
import Friet.Payables.Variance

/-!
# The negative-margin alarm

Each new ledger line restores the alarm, whatever it was before, though by the
amount as the request gives it and not as it is stored. A bill writes the cost
ledger as well, by the charges that no cost line matches, and leaves the alarm
alone. In whole cents floats are exact, and storing an amount does not change it.
-/

set_option autoImplicit false

namespace Friet.Exceptions

open Session Financial Payables Rounding Exact

def grossProfit (s : Shipment) (db : Database) : Money :=
  (profitabilityOf .stored s.id db).grossProfit

/-- There is an alarm exactly at a loss, one only, and it states the loss. -/
structure AlarmExact (s : Shipment) (db : Database) : Prop where
  raised : (∃ e ∈ db.shipmentExceptions, ActiveLoss s.id s.tenantId e) ↔ grossProfit s db < 0
  once : ∀ e ∈ db.shipmentExceptions, ∀ e' ∈ db.shipmentExceptions,
    ActiveLoss s.id s.tenantId e → ActiveLoss s.id s.tenantId e' → e = e'
  impact : ∀ e ∈ db.shipmentExceptions, ActiveLoss s.id s.tenantId e →
    e.financialImpactEstimated = |grossProfit s db|

structure Untouched (s : Shipment) (db : Database) : Prop where
  exceptions : ∀ e ∈ db.shipmentExceptions, e.shipmentId ≠ s.id
  revenueLines : ∀ r ∈ db.revenueLines, r.shipmentId ≠ s.id
  costLines : ∀ c ∈ db.costLines, c.shipmentId ≠ s.id

theorem Untouched.alarmExact {s : Shipment} {db : Database} (h : Untouched s db) :
    AlarmExact s db := by
  have hnone : ∀ e ∈ db.shipmentExceptions, ¬ ActiveLoss s.id s.tenantId e :=
    fun e he hloss => h.exceptions e he hloss.shipment
  have hrevenue : revenueOf s.id db (fun _ => true) = 0 :=
    Table.sum_eq_zero fun r hr hsel => absurd (of_decide_eq_true hsel).1 (h.revenueLines r hr)
  have hcost : costOf s.id db (fun _ => true) = 0 :=
    Table.sum_eq_zero fun c hc hsel => absurd (of_decide_eq_true hsel).1 (h.costLines c hc)
  have hprofit : grossProfit s db = 0 := by
    rw [grossProfit, grossProfit_exact, hrevenue, hcost, sub_zero, cents_zero]
  refine ⟨?_, fun e he _ _ hloss => absurd hloss (hnone e he), fun e he hloss =>
    absurd hloss (hnone e he)⟩
  rw [hprofit]
  exact iff_of_false (fun ⟨e, he, hloss⟩ => hnone e he hloss) (lt_irrefl 0)

section Alarm
variable {s : Shipment} {db db' : Database}

/-- The same alarms are exact for another margin if it is the same loss, or no loss either. -/
theorem AlarmExact.congr (h : AlarmExact s db)
    (hsame : ∀ e, (e ∈ db'.shipmentExceptions ∧ ActiveLoss s.id s.tenantId e) ↔
      (e ∈ db.shipmentExceptions ∧ ActiveLoss s.id s.tenantId e)) :
    AlarmExact s db' ↔ grossProfit s db' = grossProfit s db ∨
      (0 ≤ grossProfit s db ∧ 0 ≤ grossProfit s db') := by
  constructor
  · intro h'
    rcases lt_or_ge (grossProfit s db) 0 with hneg | hpos
    · obtain ⟨e, he, hloss⟩ := h.raised.mpr hneg
      have hkept := (hsame e).mpr ⟨he, hloss⟩
      have hneg' := h'.raised.mp ⟨e, hkept⟩
      have habs := (h'.impact e hkept.1 hloss).symm.trans (h.impact e he hloss)
      rw [abs_of_neg hneg', abs_of_neg hneg] at habs
      exact Or.inl (neg_inj.mp habs)
    · refine Or.inr ⟨hpos, not_lt.mp fun hneg' => ?_⟩
      obtain ⟨e, he, hloss⟩ := h'.raised.mpr hneg'
      exact absurd (h.raised.mp ⟨e, (hsame e).mp ⟨he, hloss⟩⟩) (not_lt.mpr hpos)
  · intro hmargin
    have honce : ∀ e ∈ db'.shipmentExceptions, ∀ e' ∈ db'.shipmentExceptions,
        ActiveLoss s.id s.tenantId e → ActiveLoss s.id s.tenantId e' → e = e' :=
      fun e he e' he' hloss hloss' => h.once e ((hsame e).mp ⟨he, hloss⟩).1 e'
        ((hsame e').mp ⟨he', hloss'⟩).1 hloss hloss'
    have hraised : (∃ e ∈ db'.shipmentExceptions, ActiveLoss s.id s.tenantId e) ↔
        grossProfit s db < 0 := by
      rw [← h.raised]
      exact exists_congr hsame
    rcases hmargin with heq | ⟨hpos, hpos'⟩
    · refine ⟨heq ▸ hraised, honce, fun e he hloss => ?_⟩
      rw [heq]
      exact h.impact e ((hsame e).mp ⟨he, hloss⟩).1 hloss
    · have hnone : ¬ ∃ e ∈ db'.shipmentExceptions, ActiveLoss s.id s.tenantId e :=
        fun hex => absurd (hraised.mp hex) (not_lt.mpr hpos)
      exact ⟨iff_of_false hnone (not_lt.mpr hpos'), honce,
        fun e he hloss => absurd ⟨e, he, hloss⟩ hnone⟩

end Alarm

section Synced
variable [Text] {s : Shipment} {caller : Caller} {t : Table ShipmentException}
  {o : Option ShipmentException} {p : Profitability}

/-- Without an alarm before, a loss raises one and nothing else does. -/
theorem alarm_raised (htenant : caller.tenantId = s.tenantId)
    (hnone : ∀ e ∈ t, ¬ ActiveLoss s.id s.tenantId e) (e : ShipmentException) :
    (e ∈ synced caller s.id p t none ∧ ActiveLoss s.id s.tenantId e) ↔
      (p.grossProfit < 0 ∧ e = lossException caller s.id p t.freshKey) := by
  unfold synced
  dsimp only
  split_ifs with hneg
  · rw [Table.mem_insert]
    constructor
    · rintro ⟨he | he, hloss⟩
      · exact absurd hloss (hnone e he)
      · exact ⟨hneg, he⟩
    · rintro ⟨-, rfl⟩
      exact ⟨Or.inr rfl, rfl, htenant, rfl, Or.inl rfl⟩
  · exact iff_of_false (fun h => hnone e h.1 h.2) fun h => hneg h.1

theorem alarm_restated {e₀ : ShipmentException} (he₀ : e₀ ∈ t)
    (hloss₀ : ActiveLoss s.id s.tenantId e₀)
    (honly : ∀ e ∈ t, ActiveLoss s.id s.tenantId e → e = e₀) (e : ShipmentException) :
    (e ∈ synced caller s.id p t (some e₀) ∧ ActiveLoss s.id s.tenantId e) ↔
      (p.grossProfit < 0 ∧
        e = ShipmentException.restate (lossDescription s.id p) |p.grossProfit| e₀) := by
  unfold synced
  dsimp only
  split_ifs with hneg
  · rw [Table.mem_update_and_iff he₀ honly]
    constructor
    · exact fun h => ⟨hneg, h.1⟩
    · rintro ⟨-, rfl⟩
      exact ⟨rfl, hloss₀.shipment, hloss₀.tenant, hloss₀.loss, hloss₀.active⟩
  · rw [Table.mem_update_and_iff he₀ honly]
    refine iff_of_false ?_ fun h => hneg h.1
    rintro ⟨rfl, hloss⟩
    exact not_active_recover caller.now hloss.active

/-- After the synchronisation the only alarm, if any, is the one it wrote. -/
theorem alarm_synced (htenant : caller.tenantId = s.tenantId) (hprofit : WholeCents p.grossProfit)
    (ho : t.rows.filter (openLoss caller s.id) = o.toList) :
    ∃ x : ShipmentException, x.financialImpactEstimated = |p.grossProfit| ∧
      ∀ e, (e ∈ synced caller s.id p t o ∧ ActiveLoss s.id s.tenantId e) ↔
        (p.grossProfit < 0 ∧ e = x) := by
  have hfound : ∀ e, (e ∈ t ∧ ActiveLoss s.id s.tenantId e) ↔ o = some e := by
    intro e
    rw [← Option.mem_toList, ← ho, List.mem_filter, openLoss_iff, htenant]
    exact Iff.rfl
  have hcolumn : column 2 |p.grossProfit| = |p.grossProfit| :=
    roundTo_of_onGrid nearestAway_nearest hprofit.abs
  cases o with
  | none =>
    have hnone : ∀ e ∈ t, ¬ ActiveLoss s.id s.tenantId e := fun e he hloss =>
      absurd ((hfound e).mp ⟨he, hloss⟩) (by simp)
    exact ⟨lossException caller s.id p t.freshKey, hcolumn, alarm_raised htenant hnone⟩
  | some e₀ =>
    obtain ⟨he₀, hloss₀⟩ := (hfound e₀).mpr rfl
    have honly : ∀ e ∈ t, ActiveLoss s.id s.tenantId e → e = e₀ := fun e he hloss =>
      (Option.some.inj ((hfound e).mp ⟨he, hloss⟩)).symm
    exact ⟨ShipmentException.restate (lossDescription s.id p) |p.grossProfit| e₀, hcolumn,
      alarm_restated he₀ hloss₀ honly⟩

theorem alarm_synced_other {shipmentId : Uuid} (hne : shipmentId ≠ s.id)
    (ho : t.rows.filter (openLoss caller shipmentId) = o.toList) (e : ShipmentException) :
    (e ∈ synced caller shipmentId p t o ∧ ActiveLoss s.id s.tenantId e) ↔
      (e ∈ t ∧ ActiveLoss s.id s.tenantId e) := by
  refine and_congr_left fun hloss => ?_
  cases o with
  | none =>
    unfold synced
    dsimp only
    split_ifs
    · rw [Table.mem_insert, or_iff_left]
      rintro rfl
      exact hne hloss.shipment
    · exact Iff.rfl
  | some e₀ =>
    have he₀ : e₀ ∈ t.rows.filter (openLoss caller shipmentId) := by simp [ho]
    obtain ⟨hmem, hopen⟩ := List.mem_filter.mp he₀
    have hother : e₀.shipmentId ≠ s.id := by
      rw [(openLoss_iff.mp hopen).shipment]
      exact hne
    have hupdate : ∀ (f : ShipmentException → ShipmentException) (hf : KeepsKey f),
        (f e₀).shipmentId = e₀.shipmentId → (e ∈ t.update e₀.id f hf ↔ e ∈ t) :=
      fun f hf hfe => Table.mem_update_of_not hmem (P := fun e => e.shipmentId = s.id) hother
        (fun h => hother (hfe.symm.trans h)) hloss.shipment
    unfold synced
    dsimp only
    split_ifs
    · exact hupdate _ _ rfl
    · exact hupdate _ _ rfl

end Synced

section Line
variable [Text] {s : Shipment} {caller : Caller} {db db' : Database} {l : AddLine} {u : Unit}

theorem AddLine.Valid.shipment (h : l.Valid caller db) :
    ∃ s ∈ db.shipments, s.id = l.shipmentId ∧ s.tenantId = caller.tenantId := by
  cases l with
  | revenue a => exact h.choose_spec.shipment
  | cost a => exact h.choose_spec.shipment

theorem AddLine.written_shipments : (l.written caller db).shipments = db.shipments := by
  cases l with
  | revenue a =>
    simp only [AddLine.written]
    cases RevenueLineStatus.parse (upper (Text.strip a.status)) <;> rfl
  | cost a =>
    simp only [AddLine.written]
    cases CostLineStatus.parse (upper (Text.strip a.status)) <;> rfl

theorem AddLine.grossProfit_written (hne : l.shipmentId ≠ s.id) :
    grossProfit s (l.written caller db) = grossProfit s db := by
  unfold grossProfit
  rw [grossProfit_exact, grossProfit_exact]
  cases l with
  | revenue a =>
    simp only [AddLine.written]
    cases RevenueLineStatus.parse (upper (Text.strip a.status)) with
    | none => rfl
    | some status =>
      have hsum : revenueOf s.id (withStoredRevenueLine caller a status db) (fun _ => true) =
          revenueOf s.id db fun _ => true := by
        unfold revenueOf withStoredRevenueLine
        rw [Table.sum_insert, if_neg (by simpa [storedRevenueLine, RevenueLine.stored,
          revenueLineRow, AddLine.shipmentId] using hne), add_zero]
      rw [hsum]
      rfl
  | cost a =>
    simp only [AddLine.written]
    cases CostLineStatus.parse (upper (Text.strip a.status)) with
    | none => rfl
    | some status =>
      have hsum : costOf s.id (withStoredCostLine caller a status db) (fun _ => true) =
          costOf s.id db fun _ => true := by
        unfold costOf withStoredCostLine
        rw [Table.sum_insert, if_neg (by simpa [storedCostLine, CostLine.stored, costLineRow,
          AddLine.shipmentId] using hne), add_zero]
      rw [hsum]
      rfl

/-- The synchronisation goes by the margin that is read later, as storing the amount does not
change it. -/
theorem AddLine.grossProfit_given (hamount : WholeCents l.amount) :
    (profitabilityOf .stored s.id (l.given caller db)).grossProfit =
      grossProfit s (l.written caller db) := by
  unfold grossProfit
  rw [grossProfit_exact, grossProfit_exact]
  have hcolumn := column_of_wholeCents hamount
  cases l with
  | revenue a =>
    simp only [AddLine.given, AddLine.written]
    cases RevenueLineStatus.parse (upper (Text.strip a.status)) with
    | none => rfl
    | some status =>
      have hsum : revenueOf s.id (withRevenueLine caller a status db) (fun _ => true) =
          revenueOf s.id (withStoredRevenueLine caller a status db) fun _ => true := by
        unfold revenueOf withRevenueLine withStoredRevenueLine
        rw [Table.sum_insert, Table.sum_insert]
        change _ + (if _ then a.amount else 0) = _ + (if _ then column 4 a.amount else 0)
        rw [show column 4 a.amount = a.amount from hcolumn]
        rfl
      rw [hsum]
      rfl
  | cost a =>
    simp only [AddLine.given, AddLine.written]
    cases CostLineStatus.parse (upper (Text.strip a.status)) with
    | none => rfl
    | some status =>
      have hsum : costOf s.id (withCostLine caller a status db) (fun _ => true) =
          costOf s.id (withStoredCostLine caller a status db) fun _ => true := by
        unfold costOf withCostLine withStoredCostLine
        rw [Table.sum_insert, Table.sum_insert]
        change _ + (if _ then a.amount else 0) = _ + (if _ then column 4 a.amount else 0)
        rw [show column 4 a.amount = a.amount from hcolumn]
        rfl
      rw [hsum]
      rfl

/-- A line of the shipment makes the alarm exact, whatever it was. -/
theorem alarmExact_of_line (hs : s ∈ db.shipments) (hid : l.shipmentId = s.id)
    (hamount : WholeCents l.amount) (h : (l.run caller).run db = .ok u db') :
    AlarmExact s db' := by
  obtain ⟨hvalid, o, ho, rfl⟩ := AddLine.run_ok.mp h
  obtain ⟨s', hs', hid', htenant⟩ := hvalid.shipment
  rw [Table.eq_of_key_eq hs' hs (hid'.trans hid)] at htenant
  rw [hid] at ho
  have hprofit : WholeCents (l.profitability caller db).grossProfit := cents_wholeCents _
  obtain ⟨x, himpact, hx⟩ := alarm_synced (p := l.profitability caller db) htenant.symm hprofit ho
  have hloss : ∀ e, (e ∈ synced caller l.shipmentId (l.profitability caller db)
      db.shipmentExceptions o ∧ ActiveLoss s.id s.tenantId e) ↔
        ((l.profitability caller db).grossProfit < 0 ∧ e = x) := by
    rw [hid]
    exact hx
  have hsame : ∀ t, grossProfit s { l.written caller db with shipmentExceptions := t } =
      (l.profitability caller db).grossProfit := by
    intro t
    rw [AddLine.profitability, hid, AddLine.grossProfit_given hamount]
    rfl
  constructor
  · rw [hsame]
    constructor
    · rintro ⟨e, he⟩
      exact ((hloss e).mp he).1
    · exact fun hneg => ⟨x, (hloss x).mpr ⟨hneg, rfl⟩⟩
  · intro e he e' he' hactive hactive'
    exact ((hloss e).mp ⟨he, hactive⟩).2.trans ((hloss e').mp ⟨he', hactive'⟩).2.symm
  · intro e he hactive
    rw [hsame, ((hloss e).mp ⟨he, hactive⟩).2]
    exact himpact

/-- A line of another shipment leaves the margin and the alarm as they are. -/
theorem AlarmExact.line_other (hdb : AlarmExact s db) (hne : l.shipmentId ≠ s.id)
    (h : (l.run caller).run db = .ok u db') : AlarmExact s db' := by
  obtain ⟨_, o, ho, rfl⟩ := AddLine.run_ok.mp h
  exact (hdb.congr (alarm_synced_other hne ho)).mpr (Or.inl (AddLine.grossProfit_written hne))

end Line

section Bill
variable [Text] {s : Shipment} {caller : Caller} {a : RecordPayable} {db db' : Database}

/-- The lines of the bill that no cost line matches. -/
def additional (a : RecordPayable) (db : Database) (l : BillLine) : Bool :=
  (matchedId a db l).isNone

def additionalCharges (a : RecordPayable) (db : Database) : Money :=
  ((a.lines.filter (additional a db)).map fun l => column 4 l.billedAmount).sum

theorem matchedId_of_finds_none {t : Table CostLine} {l : BillLine}
    (h : Finds a (costLinesMap (shipmentCostLines a db)) t l none) : matchedId a db l = none := by
  unfold Finds at h
  unfold matchedId
  cases hl : l.costLineId with
  | some id =>
    simp only [hl] at h
    obtain ⟨c, _, heq⟩ := h
    cases heq
  | none =>
    simp only [hl] at h
    simp [← h]

omit [Text] in
theorem costOf_matched (shipmentId id : Uuid) (t : Database) :
    costOf shipmentId
      { t with costLines := t.costLines.update id CostLine.bill CostLine.bill_keepsKey }
      (fun _ => true) = costOf shipmentId t fun _ => true := by
  have hshipment : ∀ c : CostLine, (CostLine.bill c).shipmentId = c.shipmentId := by
    intro c
    unfold CostLine.bill
    split <;> rfl
  exact Table.sum_update_of_eq (fun c _ _ => by simp only [hshipment]) fun c _ _ =>
    bill_sameAmount c

theorem costOf_additional (shipmentId : Uuid) (l : BillLine) (t : Database) :
    costOf shipmentId { t with costLines := t.costLines.insert (additionalCostLine caller a l) }
      (fun _ => true) = costOf shipmentId t (fun _ => true) +
        if a.shipmentId = shipmentId then column 4 l.billedAmount else 0 := by
  unfold costOf
  rw [Table.sum_insert]
  simp [additionalCostLine]

theorem costOf_billLoop {totals : BillTotals} {billed : Database} (shipmentId : Uuid)
    (h : BillLoop caller a db totals billed) :
    costOf shipmentId billed (fun _ => true) = costOf shipmentId db (fun _ => true) +
      if a.shipmentId = shipmentId then additionalCharges a db else 0 := by
  have hstep : ∀ (pre : List BillLine) l acc t acc' t',
      costOf shipmentId t (fun _ => true) = costOf shipmentId db (fun _ => true) +
        (if a.shipmentId = shipmentId then
          ((pre.filter (additional a db)).map fun l => column 4 l.billedAmount).sum else 0) →
      (recordBillLine caller a (costLinesMap (shipmentCostLines a db)) acc l).run t = .ok acc' t' →
      costOf shipmentId t' (fun _ => true) =
        costOf shipmentId db (fun _ => true) + (if a.shipmentId = shipmentId then
          (((pre ++ [l]).filter (additional a db)).map fun l => column 4 l.billedAmount).sum
          else 0) := by
    intro pre l acc t acc' t' hacc hrun
    rw [List.filter_append, List.map_append, List.sum_append]
    rcases (run_recordBillLine_ok hrun).2 with ⟨c, hfinds, _, rfl⟩ | ⟨hfinds, _, rfl⟩
    · have hmatched : additional a db l = false := by
        simp [additional, Finds.matchedId_eq hfinds]
      rw [costOf_matched, hacc]
      simp [hmatched]
    · have hunmatched : additional a db l = true := by
        simp [additional, matchedId_of_finds_none hfinds]
      rw [costOf_additional, hacc, add_assoc]
      congr 1
      split_ifs <;> simp [hunmatched]
  exact run_foldlM_ok (fun pre l _ acc t acc' t' _ => hstep pre l acc t acc' t') (by simp) h

/-- The gross profit once the bill's additional charges are in the cost ledger. -/
def profitAfter (s : Shipment) (a : RecordPayable) (db : Database) : Money :=
  cents (revenueOf s.id db (fun _ => true) -
    (costOf s.id db (fun _ => true) + if a.shipmentId = s.id then additionalCharges a db else 0))

theorem grossProfit_bill {d : PayableDetail} (h : (recordPayable caller a).run db = .ok d db') :
    grossProfit s db' = profitAfter s a db := by
  obtain ⟨_, _, totals, billed, hloop, rfl⟩ := run_recordPayable_ok h
  have hcost : costOf s.id (billTables caller a totals billed db) (fun _ => true) =
      costOf s.id billed fun _ => true := rfl
  have hrevenue : revenueOf s.id (billTables caller a totals billed db) (fun _ => true) =
      revenueOf s.id db fun _ => true := rfl
  rw [grossProfit, grossProfit_exact, profitAfter, hcost, hrevenue, costOf_billLoop s.id hloop]

end Bill

inductive LedgerWrite where
  | addLine (l : AddLine)
  | recordPayable (a : RecordPayable)

def LedgerWrite.run [Text] (caller : Caller) : LedgerWrite → Service Unit
  | .addLine l => l.run caller
  | .recordPayable a => do let _ ← Payables.recordPayable caller a

def writeStep [Text] (db : Database) (i : Caller × LedgerWrite) : Database :=
  commit (i.2.run i.1) db

/-- The amounts that the operation would put into the ledgers are in whole cents. -/
def InCents : LedgerWrite → Prop
  | .addLine l => WholeCents l.amount
  | .recordPayable a => ∀ l ∈ a.lines, WholeCents l.billedAmount

instance : ∀ w, Decidable (InCents w)
  | .addLine l => inferInstanceAs (Decidable (WholeCents l.amount))
  | .recordPayable a => inferInstanceAs (Decidable (∀ l ∈ a.lines, WholeCents l.billedAmount))

/-- A bill that is recorded leaves the margin as it is, or at no loss. -/
def LeavesMargin [Text] (s : Shipment) (db : Database) : Caller × LedgerWrite → Prop
  | (_, .addLine _) => True
  | (caller, .recordPayable a) => Succeeds (Payables.recordPayable caller a) db →
      profitAfter s a db = grossProfit s db ∨
        (0 ≤ grossProfit s db ∧ 0 ≤ profitAfter s a db)

instance [Text] (s : Shipment) (db : Database) : ∀ i, Decidable (LeavesMargin s db i)
  | (_, .addLine _) => inferInstanceAs (Decidable True)
  | (_, .recordPayable _) => inferInstanceAs (Decidable (_ → _ ∨ _))

def LedgersInCents (s : Shipment) (db : Database) : Prop :=
  (∀ r ∈ db.revenueLines, r.shipmentId = s.id → WholeCents r.amount) ∧
    ∀ c ∈ db.costLines, c.shipmentId = s.id → WholeCents c.amount

instance (s : Shipment) (db : Database) : Decidable (LedgersInCents s db) :=
  inferInstanceAs (Decidable (_ ∧ _))

/-- All amounts are in whole cents, those there are and those to come. -/
def Quiet [Text] (s : Shipment) (db : Database) (i : Caller × LedgerWrite) : Prop :=
  LedgersInCents s db ∧ InCents i.2 ∧ LeavesMargin s db i

instance [Text] (s : Shipment) (db : Database) (i : Caller × LedgerWrite) :
    Decidable (Quiet s db i) := inferInstanceAs (Decidable (_ ∧ _ ∧ _))

section Runs
variable [Text] {s : Shipment} {db : Database}

theorem LedgerWrite.run_recordPayable_ok {caller : Caller} {a : RecordPayable} {u : Unit}
    {db' : Database} :
    ((LedgerWrite.recordPayable a).run caller).run db = .ok u db' ↔
      ∃ d, (Payables.recordPayable caller a).run db = .ok d db' := by
  simp only [LedgerWrite.run, run_bind_ok, run_pure_ok]
  constructor
  · rintro ⟨d, _, h, _, rfl⟩
    exact ⟨d, h⟩
  · rintro ⟨d, h⟩
    exact ⟨d, db', h, trivial, rfl⟩

theorem LedgerWrite.shipments {caller : Caller} {w : LedgerWrite} {u : Unit} {db' : Database}
    (h : (w.run caller).run db = .ok u db') : db'.shipments = db.shipments := by
  cases w with
  | addLine l =>
    obtain ⟨_, o, _, rfl⟩ := AddLine.run_ok.mp h
    exact AddLine.written_shipments
  | recordPayable a =>
    obtain ⟨d, hrun⟩ := LedgerWrite.run_recordPayable_ok.mp h
    obtain ⟨_, _, totals, billed, _, rfl⟩ := Payables.run_recordPayable_ok hrun
    rfl

theorem writeStep_shipments (i : Caller × LedgerWrite) :
    (writeStep db i).shipments = db.shipments := by
  rcases commit_cases (i.2.run i.1) db with heq | ⟨u, h⟩
  · rw [writeStep, heq]
  · exact LedgerWrite.shipments h

/-- From an exact alarm, a step in whole cents keeps it exact just when it leaves the margin. -/
theorem writeStep_alarmExact_iff (hs : s ∈ db.shipments) (hdb : AlarmExact s db)
    (i : Caller × LedgerWrite) (hcents : InCents i.2) :
    AlarmExact s (writeStep db i) ↔ LeavesMargin s db i := by
  obtain ⟨caller, w⟩ := i
  cases w with
  | addLine l =>
    refine iff_of_true ?_ trivial
    rcases commit_cases (l.run caller) db with heq | ⟨u, h⟩
    · have hsame : writeStep db (caller, .addLine l) = db := heq
      rw [hsame]
      exact hdb
    · by_cases hid : l.shipmentId = s.id
      · exact alarmExact_of_line hs hid hcents h
      · exact hdb.line_other hid h
  | recordPayable a =>
    by_cases hsucceeds : Succeeds (recordPayable caller a) db
    · obtain ⟨d, db', h⟩ := hsucceeds
      have hafter : writeStep db (caller, .recordPayable a) = db' :=
        commit_of_ok (a := ()) (LedgerWrite.run_recordPayable_ok.mpr ⟨d, h⟩)
      have hexceptions : db'.shipmentExceptions = db.shipmentExceptions := by
        obtain ⟨_, _, totals, billed, _, rfl⟩ := run_recordPayable_ok h
        rfl
      have hmargin : AlarmExact s db' ↔ _ := hdb.congr fun e => by rw [hexceptions]
      rw [hafter, hmargin, grossProfit_bill h]
      exact ⟨fun hquiet _ => hquiet, fun hquiet => hquiet ⟨d, db', h⟩⟩
    · have hsame : writeStep db (caller, .recordPayable a) = db := by
        rcases commit_cases ((LedgerWrite.recordPayable a).run caller) db with heq | ⟨u, h⟩
        · exact heq
        · obtain ⟨d, hrun⟩ := LedgerWrite.run_recordPayable_ok.mp h
          exact absurd ⟨d, _, hrun⟩ hsucceeds
      rw [hsame]
      exact iff_of_true hdb fun h => absurd h hsucceeds

/-- The alarm stays exact along quiet runs. -/
theorem alarm_exact {t : Database} (hs : s ∈ db.shipments) (hdb : AlarmExact s db)
    (h : Reaches writeStep (Quiet s) db t) : AlarmExact s t := by
  have hinv := h.invariant (fun u => s ∈ u.shipments ∧ AlarmExact s u)
    (fun u i hu hquiet => ⟨by rw [writeStep_shipments]; exact hu.1,
      (writeStep_alarmExact_iff hu.1 hu.2 i hquiet.2.1).mpr hquiet.2.2⟩) ⟨hs, hdb⟩
  exact hinv.2

end Runs

section Verbatim
open Friet.Verbatim

def shipment : Shipment := ⟨1, 1, 1, none, 1, "SEA", "BOOKED", none⟩

/-- A loss is raised and recovered, and a bill matches the cost it was expected to. -/
def matchedBill : List (Caller × LedgerWrite) :=
  [(clerk, .addLine (.cost (freightCost 60))), (clerk, .addLine (.revenue (freightRevenue 100))),
   (clerk, .recordPayable (billOf "B-1" "FREIGHT" 60))]

theorem alarm_exact_matchedBill : AlarmExact shipment (matchedBill.foldl writeStep shipped) :=
  alarm_exact (show shipment ∈ shipped.shipments from List.mem_cons_self)
    (Untouched.alarmExact ⟨fun _ he => absurd he (Table.not_mem_empty _),
      fun _ hr => absurd hr (Table.not_mem_empty _), fun _ hc => absurd hc (Table.not_mem_empty _)⟩)
    (show Meets writeStep (Quiet shipment) shipped matchedBill by decide +kernel).reaches

def unexpectedCharge : List (Caller × LedgerWrite) :=
  matchedBill ++ [(clerk, .recordPayable (billOf "B-2" "DEMURRAGE" 200))]

/-- An unexpected charge turns the margin negative, and no alarm is raised. -/
theorem unexpected_charge_unnoticed :
    ¬ AlarmExact shipment (unexpectedCharge.foldl writeStep shipped) := by
  intro h
  have hloss : grossProfit shipment (unexpectedCharge.foldl writeStep shipped) < 0 := by
    decide +kernel
  have hsilent : ¬ ∃ e ∈ (unexpectedCharge.foldl writeStep shipped).shipmentExceptions,
      ActiveLoss shipment.id shipment.tenantId e := by
    decide +kernel
  exact hsilent (h.raised.mpr hloss)

end Verbatim

end Friet.Exceptions
