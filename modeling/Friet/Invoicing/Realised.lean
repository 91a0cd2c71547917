import Friet.Financial.Steps
import Friet.Invoicing.Steps

/-!
# What invoicing does to the profitability

Marking a line `INVOICED` moves its amount into the actual revenue, unless it was counted
there already. It moves the amount of an additional line that was `ESTIMATED` into the
quoted revenue as well.
-/

set_option autoImplicit false

namespace Friet.Invoicing

open Session Rounding Financial Doubles

/-- The amounts of the lines that an invoice would take up. -/
def amountInvoiced (a : GenerateInvoice) (db : Database) : Money :=
  ((revenueLinesFor a db).map (·.amount)).sum

/-- Between a report before and one after, only the actual revenue changes, by the amounts
invoiced. -/
def RealisesOnly (before after : LedgerOrders) (a : GenerateInvoice) (db db' : Database) : Prop :=
  profitabilityOf after a.shipmentId db' = { profitabilityOf before a.shipmentId db with
    actualRevenue := (profitabilityOf before a.shipmentId db).actualRevenue + amountInvoiced a db }

/-- A line as the invoice leaves it. -/
def markLine (a : GenerateInvoice) (r : RevenueLine) : RevenueLine :=
  if eligible a r then { r with status := .invoiced } else r

/-- The lines of the shipment that the later report reads. -/
def linesInvoiced (orders : LedgerOrders) (a : GenerateInvoice) (db : Database) :
    List RevenueLine :=
  orders.revenue.arrange ((db.revenueLines.rows.filter (·.shipmentId = a.shipmentId)).map (markLine a))

/-- The sums of all revenue and of the costs look the same in the order of the later report. -/
structure SameTotals (p q : Profitability) : Prop where
  grossRevenue : q.grossRevenue = p.grossRevenue
  directCost : q.directCost = p.directCost
  grossProfit : q.grossProfit = p.grossProfit
  grossMarginPercent : q.grossMarginPercent = p.grossMarginPercent
  quotedCost : q.quotedCost = p.quotedCost
  actualCost : q.actualCost = p.actualCost

/-- Counting the eligible lines as `INVOICED` leaves the quoted revenue as it is displayed, and
adds their amounts to the actual revenue. -/
structure Realisable (before after : LedgerOrders) (a : GenerateInvoice) (db : Database) :
    Prop where
  quoted : cents (revenueTotal (linesInvoiced after a db) isQuoted) =
    cents (revenueTotal (revenueLinesOf before a.shipmentId db) isQuoted)
  actual : cents (revenueTotal (linesInvoiced after a db) isActual) =
    cents (revenueTotal (revenueLinesOf before a.shipmentId db) isActual) + amountInvoiced a db
  reread : SameTotals (profitabilityOf before a.shipmentId db)
    (profitabilityFrom (linesInvoiced after a db) (costLinesOf after a.shipmentId db))

/-- The eligible amounts that a figure does not count yet. -/
def uncounted (a : GenerateInvoice) (counts : RevenueLine → Bool) (db : Database) : Money :=
  db.revenueLines.sum (fun r => eligible a r && !counts r) (·.amount)

structure SameOrder (before after : LedgerOrders) (a : GenerateInvoice) (db : Database) : Prop where
  revenue : linesInvoiced after a db = (revenueLinesOf before a.shipmentId db).map (markLine a)
  cost : costLinesOf after a.shipmentId db = costLinesOf before a.shipmentId db

/-- Amounts that no rounding touches: whole cents, not negative, neither many nor large, and read
twice in one order. -/
structure ReadInCents (before after : LedgerOrders) (a : GenerateInvoice) (db : Database) :
    Prop where
  order : SameOrder before after a db
  whole : ∀ r ∈ db.revenueLines, r.shipmentId = a.shipmentId → WholeCents r.amount
  nonneg : ∀ r ∈ db.revenueLines, 0 ≤ r.amount
  moderate : Moderate ((revenueLinesOf before a.shipmentId db).map (·.amount))

/-- A line with an amount is quoted, and not actual yet. -/
def OnlyQuoted (a : GenerateInvoice) (db : Database) : Prop :=
  ∀ r ∈ revenueLinesFor a db, r.amount ≠ 0 → isQuoted r = true ∧ isActual r = false

instance (a : GenerateInvoice) (db : Database) : Decidable (OnlyQuoted a db) :=
  inferInstanceAs (Decidable (∀ r ∈ _, _ → _ ∧ _))

section Lines
variable {a : GenerateInvoice} {db : Database} {r : RevenueLine}

theorem eligible_shipment (h : eligible a r = true) : r.shipmentId = a.shipmentId := by
  unfold eligible at h
  exact of_decide_eq_true ((Bool.and_eq_true _ _).mp h).1

theorem amountInvoiced_eq (a : GenerateInvoice) (db : Database) :
    amountInvoiced a db = db.revenueLines.sum (eligible a) (·.amount) :=
  ((a.lineOrder.perm _).map _).sum_eq

theorem mem_revenueLinesFor :
    r ∈ revenueLinesFor a db ↔ r ∈ db.revenueLines ∧ eligible a r = true := by
  unfold revenueLinesFor
  rw [RowOrder.mem_arrange, List.mem_filter]
  exact Iff.rfl

theorem decide_mem_revenueLinesFor (hr : r ∈ db.revenueLines) :
    decide (r.id ∈ (revenueLinesFor a db).map (·.id)) = eligible a r := by
  rw [Bool.eq_iff_iff, decide_eq_true_iff]
  constructor
  · intro h
    obtain ⟨s, hs, hid⟩ := List.mem_map.mp h
    obtain ⟨hmem, heligible⟩ := mem_revenueLinesFor.mp hs
    rw [← Table.eq_of_key_eq hmem hr hid]
    exact heligible
  · intro h
    exact List.mem_map_of_mem (mem_revenueLinesFor.mpr ⟨hr, h⟩)

/-- A sum over the shipment's lines once they are marked, where every marked line counts. -/
theorem sum_markInvoiced {counts : RevenueLine → Bool}
    (hcounts : ∀ r : RevenueLine, counts { r with status := .invoiced } = true) :
    (markInvoiced (revenueLinesFor a db) db.revenueLines).sum
        (fun r => r.shipmentId = a.shipmentId ∧ counts r) (·.amount) =
      revenueOf a.shipmentId db counts + uncounted a counts db := by
  have hmarked : (markInvoiced (revenueLinesFor a db) db.revenueLines).sum
      (fun r => r.shipmentId = a.shipmentId ∧ counts r) (·.amount) =
        db.revenueLines.sum
          (fun r => decide (r.shipmentId = a.shipmentId ∧ counts r) || eligible a r)
          (·.amount) := by
    unfold markInvoiced
    rw [Table.sum_updateWhere]
    refine Table.sum_congr (fun r hr => ?_) fun r hr _ => ?_
    · rw [decide_mem_revenueLinesFor hr]
      cases h : eligible a r with
      | true =>
        have hshipment : r.shipmentId = a.shipmentId := eligible_shipment h
        rw [Bool.or_true]
        exact decide_eq_true ⟨hshipment, hcounts r⟩
      | false => rw [Bool.or_false, if_neg Bool.false_ne_true]
    · split_ifs <;> rfl
  rw [hmarked, Table.sum_or]
  refine congrArg (revenueOf a.shipmentId db counts + ·)
    (Table.sum_congr (fun r _ => ?_) fun _ _ _ => rfl)
  cases h : eligible a r with
  | true => simp [eligible_shipment h]
  | false => rfl

/-- The eligible amounts, those counted already and those not. -/
theorem amountInvoiced_split (a : GenerateInvoice) (counts : RevenueLine → Bool) (db : Database) :
    amountInvoiced a db = uncounted a counts db +
      db.revenueLines.sum (fun r => eligible a r && counts r) (·.amount) := by
  have hor := Table.sum_or db.revenueLines (fun r => eligible a r && !counts r)
    (fun r => eligible a r && counts r) (·.amount)
  have hall : ∀ r : RevenueLine,
      (eligible a r && !counts r || eligible a r && counts r) = eligible a r := by
    intro r
    rw [← Bool.and_or_distrib_left, Bool.not_or_self, Bool.and_true]
  have hrest : ∀ r : RevenueLine, (eligible a r && counts r && !(eligible a r && !counts r)) =
      (eligible a r && counts r) := by
    intro r
    cases eligible a r <;> cases counts r <;> rfl
  simp only [hall, hrest] at hor
  rw [amountInvoiced_eq, hor]
  rfl

/-- Amounts that are not negative come to nothing only if each of them does. -/
theorem sum_amount_eq_zero_iff {p : RevenueLine → Bool} (h : ∀ r ∈ db.revenueLines, 0 ≤ r.amount) :
    db.revenueLines.sum p (·.amount) = 0 ↔ ∀ r ∈ db.revenueLines, p r = true → r.amount = 0 := by
  constructor
  · intro hsum r hr hp
    refine List.all_zero_of_le_zero_le_of_sum_eq_zero (List.forall_mem_map.mpr fun s hs => ?_) hsum
      (List.mem_map_of_mem (List.mem_filter.mpr ⟨hr, hp⟩))
    exact h s (List.mem_filter.mp hs).1
  · exact Table.sum_eq_zero

@[simp] theorem markLine_amount (a : GenerateInvoice) (r : RevenueLine) :
    (markLine a r).amount = r.amount := by
  unfold markLine
  split_ifs <;> rfl

@[simp] theorem markLine_shipmentId (a : GenerateInvoice) (r : RevenueLine) :
    (markLine a r).shipmentId = r.shipmentId := by
  unfold markLine
  split_ifs <;> rfl

/-- What the later report reads, of any database with the marked lines. -/
theorem revenueLinesOf_marked {orders : LedgerOrders} (db' : Database)
    (h : db'.revenueLines = markInvoiced (revenueLinesFor a db) db.revenueLines) :
    revenueLinesOf orders a.shipmentId db' = linesInvoiced orders a db := by
  have hrows : db'.revenueLines.rows = db.revenueLines.rows.map (markLine a) := by
    rw [h, markInvoiced, Table.rows_updateWhere]
    apply List.map_congr_left
    intro r hr
    rw [decide_mem_revenueLinesFor hr]
    rfl
  unfold revenueLinesOf linesInvoiced
  rw [hrows, List.filter_map]
  congr 3
  funext r
  simp

section WholeCents
variable {before after : LedgerOrders}

theorem cents_linesInvoiced {counts : RevenueLine → Bool}
    (hcounts : ∀ r : RevenueLine, counts { r with status := .invoiced } = true)
    (hsame : SameOrder before after a db)
    (hwhole : ∀ r ∈ db.revenueLines, r.shipmentId = a.shipmentId → WholeCents r.amount)
    (hmoderate : Moderate ((revenueLinesOf before a.shipmentId db).map (·.amount))) :
    cents (revenueTotal (linesInvoiced after a db) counts) =
      revenueOf a.shipmentId db counts + uncounted a counts db := by
  have hsum : (((linesInvoiced after a db).filter counts).map (·.amount)).sum =
      revenueOf a.shipmentId db counts + uncounted a counts db := by
    rw [← sum_markInvoiced hcounts]
    exact (congrArg (fun rows : List RevenueLine => ((rows.filter counts).map (·.amount)).sum)
      (revenueLinesOf_marked { db with
        revenueLines := markInvoiced (revenueLinesFor a db) db.revenueLines } rfl)).symm.trans
          (sum_revenueLinesOf counts)
  have hamounts : (linesInvoiced after a db).map (·.amount) =
      (revenueLinesOf before a.shipmentId db).map (·.amount) := by
    rw [hsame.revenue, List.map_map]
    simp [Function.comp_def]
  have hgrid : WholeCents (revenueOf a.shipmentId db counts + uncounted a counts db) := by
    refine OnGrid.add ?_ ?_
    · exact Table.sum_induction WholeCents OnGrid.zero (fun _ _ hx hy => hx.add hy) fun r hr hp =>
        hwhole r hr (of_decide_eq_true hp).1
    · exact Table.sum_induction WholeCents OnGrid.zero (fun _ _ hx hy => hx.add hy) fun r hr hp =>
        hwhole r hr (eligible_shipment ((Bool.and_eq_true _ _).mp hp).1)
  have htotal : revenueTotal (linesInvoiced after a db) counts =
      total ((((linesInvoiced after a db).filter counts).map (·.amount)).map double) := by
    rw [List.map_map]
    rfl
  rw [htotal, ← hsum]
  apply roundTo_total_double (by rw [hsum]; exact hgrid)
  rw [← hamounts] at hmoderate
  exact hmoderate.sublist (List.filter_sublist.map _)

theorem cents_linesBefore (counts : RevenueLine → Bool)
    (hwhole : ∀ r ∈ db.revenueLines, r.shipmentId = a.shipmentId → WholeCents r.amount)
    (hmoderate : Moderate ((revenueLinesOf before a.shipmentId db).map (·.amount))) :
    cents (revenueTotal (revenueLinesOf before a.shipmentId db) counts) =
      revenueOf a.shipmentId db counts := by
  have htotal : revenueTotal (revenueLinesOf before a.shipmentId db) counts =
      total ((((revenueLinesOf before a.shipmentId db).filter counts).map (·.amount)).map double) := by
    rw [List.map_map]
    rfl
  have hgrid : WholeCents (revenueOf a.shipmentId db counts) :=
    Table.sum_induction WholeCents OnGrid.zero (fun _ _ hx hy => hx.add hy) fun r hr hp =>
      hwhole r hr (of_decide_eq_true hp).1
  rw [htotal, ← sum_revenueLinesOf]
  apply roundTo_total_double (by rw [sum_revenueLinesOf]; exact hgrid)
  exact hmoderate.sublist (List.filter_sublist.map _)

/-- In one order every total that does not look at a status stays as it is. -/
theorem SameOrder.sameTotals (h : SameOrder before after a db) :
    SameTotals (profitabilityOf before a.shipmentId db)
      (profitabilityFrom (linesInvoiced after a db) (costLinesOf after a.shipmentId db)) := by
  have htotal : revenueTotal (linesInvoiced after a db) (fun _ => true) =
      revenueTotal (revenueLinesOf before a.shipmentId db) fun _ => true := by
    unfold revenueTotal
    rw [h.revenue, List.filter_true, List.filter_true, List.map_map]
    simp [Function.comp_def]
  unfold profitabilityOf profitabilityFrom
  rw [h.cost, htotal]
  exact ⟨rfl, rfl, rfl, rfl, rfl, rfl⟩

/-- In whole cents, the eligible amounts have all been quoted and none of them is actual. -/
theorem realisable_iff_sums (h : ReadInCents before after a db) :
    Realisable before after a db ↔ uncounted a isQuoted db = 0 ∧
      db.revenueLines.sum (fun r => eligible a r && isActual r) (·.amount) = 0 := by
  have hquotedAfter := @cents_linesInvoiced a db before after isQuoted
    (fun r => by simp [isQuoted]) h.order h.whole h.moderate
  have hactualAfter := @cents_linesInvoiced a db before after isActual
    (fun _ => rfl) h.order h.whole h.moderate
  have hquoted := cents_linesBefore isQuoted h.whole h.moderate
  have hactual := cents_linesBefore isActual h.whole h.moderate
  have hsplit := amountInvoiced_split a isActual db
  constructor
  · rintro ⟨hq, ha, -⟩
    rw [hquotedAfter, hquoted] at hq
    rw [hactualAfter, hactual] at ha
    exact ⟨by linarith, by linarith⟩
  · rintro ⟨hq, ha⟩
    refine ⟨?_, ?_, h.order.sameTotals⟩
    · rw [hquotedAfter, hquoted, hq, add_zero]
    · rw [hactualAfter, hactual]
      linarith

/-- In whole cents rounding hides nothing. -/
theorem realisable_iff_onlyQuoted (h : ReadInCents before after a db) :
    Realisable before after a db ↔ OnlyQuoted a db := by
  rw [realisable_iff_sums h, uncounted, sum_amount_eq_zero_iff h.nonneg,
    sum_amount_eq_zero_iff h.nonneg]
  constructor
  · rintro ⟨hq, ha⟩ r hr hne
    obtain ⟨hr, heligible⟩ := mem_revenueLinesFor.mp hr
    constructor
    · by_contra hc
      exact hne (hq r hr (by rw [heligible, Bool.eq_false_of_not_eq_true hc]; rfl))
    · by_contra hc
      exact hne (ha r hr (by rw [heligible, Bool.eq_true_of_not_eq_false hc]; rfl))
  · intro hlines
    constructor
    · intro r hr hp
      obtain ⟨heligible, hnot⟩ := (Bool.and_eq_true _ _).mp hp
      by_contra hne
      rw [(hlines r (mem_revenueLinesFor.mpr ⟨hr, heligible⟩) hne).1] at hnot
      cases hnot
    · intro r hr hp
      obtain ⟨heligible, hactual⟩ := (Bool.and_eq_true _ _).mp hp
      by_contra hne
      rw [(hlines r (mem_revenueLinesFor.mpr ⟨hr, heligible⟩) hne).2] at hactual
      cases hactual

end WholeCents

end Lines

section Invoice
variable [Text] {settings : Settings} {caller : Caller} {a : GenerateInvoice} {db db' : Database}
  {d : InvoiceDetail} {before after : LedgerOrders}

theorem profitabilityOf_invoiced
    (h : (generateInvoice settings caller a).run db = .ok d db') :
    profitabilityOf after a.shipmentId db' =
      profitabilityFrom (linesInvoiced after a db) (costLinesOf after a.shipmentId db) := by
  obtain ⟨draft, number, hdraft, -, rfl⟩ := run_generateInvoice_ok h
  unfold profitabilityOf
  rw [revenueLinesOf_marked _ (by rw [← hdraft.revenueLines]; rfl)]
  rfl

theorem realisesOnly_iff_realisable (before after : LedgerOrders)
    (h : (generateInvoice settings caller a).run db = .ok d db') :
    RealisesOnly before after a db db' ↔ Realisable before after a db := by
  unfold RealisesOnly
  rw [profitabilityOf_invoiced h]
  constructor
  · intro heq
    have hq := congrArg Profitability.quotedRevenue heq
    have ha := congrArg Profitability.actualRevenue heq
    refine ⟨hq, ha, ?_⟩
    rw [heq]
    exact ⟨rfl, rfl, rfl, rfl, rfl, rfl⟩
  · rintro ⟨hq, ha, hgross, hdirect, hprofit, hmargin, hquotedCost, hactualCost⟩
    exact Profitability.ext hgross hdirect hprofit hmargin hq ha hquotedCost hactualCost

/-- Invoicing only realises revenue if and only if what it marks was quoted and not actual yet,
up to what rounding hides; and it hides nothing in whole cents. -/
theorem realises_only_iff (before after : LedgerOrders)
    (h : (generateInvoice settings caller a).run db = .ok d db') :
    (RealisesOnly before after a db db' ↔ Realisable before after a db) ∧
      (ReadInCents before after a db →
        (RealisesOnly before after a db db' ↔ OnlyQuoted a db)) := by
  have hiff := realisesOnly_iff_realisable before after h
  exact ⟨hiff, fun hcents => hiff.trans (realisable_iff_onlyQuoted hcents)⟩

end Invoice

section Runs
open Verbatim

def ledgerLine (id : Uuid) (amount : Money) (isAdditional : Bool) : RevenueLine where
  id := id
  shipmentId := 1
  chargeCode := "OFR"
  description := none
  quantity := 1
  unitRate := none
  amount := amount
  currencyCode := some "USD"
  status := .estimated
  isAdditional := isAdditional
  quotationLineId := none
  createdBy := none

def quotedOnly : Database :=
  { shipped with revenueLines := ⟨[ledgerLine 1 1000 false], List.nodup_singleton _⟩ }

def withAdditional : Database :=
  { shipped with
    revenueLines := ⟨[ledgerLine 1 1000 false, ledgerLine 2 100 true], by decide⟩ }

theorem realises_quotedOnly : ∃ d db',
    (generateInvoice ⟨5000⟩ clerk (generateFor none .stored)).run quotedOnly = .ok d db' ∧
      RealisesOnly .stored .stored (generateFor none .stored) quotedOnly db' := by
  have hissued : (outcome (generateInvoice ⟨5000⟩ clerk (generateFor none .stored))
      quotedOnly).isSome := by decide +kernel
  obtain ⟨⟨d, db'⟩, houtcome⟩ := Option.isSome_iff_exists.mp hissued
  have hrun := outcome_eq_some.mp houtcome
  have hcents : ReadInCents .stored .stored (generateFor none .stored) quotedOnly :=
    ⟨⟨rfl, rfl⟩, by decide +kernel, by decide +kernel, by decide +kernel⟩
  exact ⟨d, db', hrun, ((realises_only_iff .stored .stored hrun).2 hcents).mpr (by decide +kernel)⟩

/-- Invoicing an additional charge of 100 raises the quoted revenue by it. -/
theorem additional_becomes_quoted :
    (outcome (generateInvoice ⟨5000⟩ clerk (generateFor none .stored)) withAdditional).map
        (fun p => ((profitabilityOf .stored 1 withAdditional).quotedRevenue,
          (profitabilityOf .stored 1 p.2).quotedRevenue)) = some (1000, 1100) ∧
      ∃ d db', (generateInvoice ⟨5000⟩ clerk (generateFor none .stored)).run withAdditional =
          .ok d db' ∧ ¬ RealisesOnly .stored .stored (generateFor none .stored) withAdditional db' := by
  have hfigures : (outcome (generateInvoice ⟨5000⟩ clerk (generateFor none .stored))
      withAdditional).map (fun p => ((profitabilityOf .stored 1 withAdditional).quotedRevenue,
        (profitabilityOf .stored 1 p.2).quotedRevenue)) = some (1000, 1100) := by decide +kernel
  obtain ⟨⟨d, db'⟩, houtcome, hvalues⟩ := Option.map_eq_some_iff.mp hfigures
  refine ⟨hfigures, d, db', outcome_eq_some.mp houtcome, fun honly => ?_⟩
  have hsame : (profitabilityOf .stored 1 db').quotedRevenue =
      (profitabilityOf .stored 1 withAdditional).quotedRevenue := by
    unfold RealisesOnly at honly
    exact honly ▸ rfl
  obtain ⟨hbefore, hafter⟩ := Prod.mk.inj hvalues
  rw [hsame, hbefore] at hafter
  revert hafter
  decide +kernel

end Runs

end Friet.Invoicing
