import Friet.Analytics.Revenue
import Friet.Lib.Groups
import Mathlib.Tactic.Linarith

/-!
# What the revenue report adds up to

The join repeats an option for every role of the user that its quotation is ascribed to.
The totals are those of the options when what this adds and what rounding adds cancel out.
-/

set_option autoImplicit false

namespace Friet.Analytics

open Accumulate Joins Rounding Doubles

section Spec
variable [Text] (f : RevenueFilter) (db : RevenueTables)

/-- The quotation is won, in the period, and for an RFQ that is asked for. -/
def Won (q : Quotation) : Bool := f.wants q && (db.rfqs.find? q.rfqId).all f.wantsRfq

def wonQuotations : List Quotation := db.quotations.rows.filter (Won f db)

/-- The sum of `total_sell` over the options of won quotations. -/
def wonRevenue : Money :=
  ((db.options.rows.filter fun o =>
    (wonQuotations f db).any (o.quotationId = Quotation.id ·)).map (·.totalSell)).sum

omit [Text] in
def sellOf (q : Quotation) : Money :=
  ((db.options.rows.filter (·.quotationId = q.id)).map (·.totalSell)).sum

omit [Text] in
/-- The roles of the user that the quotation is ascribed to. -/
def rolesOf (q : Quotation) (r : Rfq) : List UserBranchRole :=
  db.userBranchRoles.rows.filter (some ·.userId = effectiveUserId q r)

def wonPairs : List (Quotation × Rfq) :=
  (wonQuotations f db).filterMap fun q => (db.rfqs.find? q.rfqId).map (q, ·)

def addedByRoles : Money :=
  ((wonPairs f db).map fun w => ((rolesOf db w.1 w.2).length - 1 : ℕ) * sellOf db w.1).sum

omit [Text] in
/-- The branches of the user, one for each role, or none. -/
def branchesOf (q : Quotation) (r : Rfq) : List (Option Branch) :=
  match rolesOf db q r with
  | [] => [none]
  | roles => roles.map fun role => db.branches.find? role.branchId

/-- Each won quotation as often as it is ascribed to a branch. -/
def ascribed : List (RevenueKey × Money) :=
  (wonPairs f db).flatMap fun w =>
    (branchesOf db w.1 w.2).map fun branch => (revenueKey w.2 branch, sellOf db w.1)

/-- What is ascribed under one label of a breakdown. -/
def ascribedTo (label : RevenueKey → String) (l : String) : Money :=
  (((ascribed f db).filter (label ·.1 = l)).map (·.2)).sum

/-- What a loop over the groups adds up under one label, to cents. -/
def displayed (order : RowOrder RevenueRow) (label : RevenueKey → String) (l : String) : Money :=
  cents (addUp (((revenueRows order f db).filter (label ·.toRevenueKey = l)).map (·.rev)))

/-- What floats and cents add to the entries of a breakdown. -/
def addedByRounding (order : RowOrder RevenueRow) (label : RevenueKey → String) : Money :=
  ((((ascribed f db).map (label ·.1)).eraseDups).map fun l =>
    displayed f db order label l - ascribedTo f db label l).sum

end Spec

section Join
variable {db : RevenueTables} {q : Quotation} {r : Rfq}

theorem map_outer_roles : ((outer (some ·.userId = effectiveUserId q r)
    db.userBranchRoles.rows).map fun role =>
      role.bind fun role => db.branches.find? role.branchId) = branchesOf db q r := by
  unfold outer branchesOf rolesOf
  split
  · rename_i h
    rw [h]
    rfl
  · rw [List.map_map]
    split
    · rename_i hne _ h
      exact absurd h hne
    · rfl

theorem length_branchesOf : (branchesOf db q r).length = max 1 (rolesOf db q r).length := by
  rw [← map_outer_roles, List.length_map]
  exact length_outer

theorem joinedRows_eq : joinedRows db q r =
    (outer (·.quotationId = q.id) db.options.rows).flatMap fun option =>
      (branchesOf db q r).map fun branch => ⟨q, r, option, branch⟩ := by
  unfold joinedRows
  simp only [← map_outer_roles, List.map_map]
  rfl

theorem of_mem_joinedRows {j : JoinedRow} (hj : j ∈ joinedRows db q r) :
    j.quotation = q ∧ j.rfq = r := by
  obtain ⟨option, -, hj⟩ := List.mem_flatMap.mp hj
  obtain ⟨role, -, rfl⟩ := List.mem_map.mp hj
  exact ⟨rfl, rfl⟩

theorem sum_sell_outer :
    ((outer (·.quotationId = q.id) db.options.rows).map fun option =>
      JoinedRow.sell ⟨q, r, option, none⟩).sum = sellOf db q := sum_outer rfl

/-- The rows of a quotation under some of the keys: one of its options for each branch. -/
theorem sum_joinedRows (p : RevenueKey → Bool) :
    (((joinedRows db q r).filter (p ·.key)).map (·.sell)).sum =
      ((((branchesOf db q r).map fun branch => (revenueKey r branch, sellOf db q)).filter
        (p ·.1)).map (·.2)).sum := by
  have hpicked : ∀ option, (((branchesOf db q r).map fun branch =>
      (⟨q, r, option, branch⟩ : JoinedRow)).filter (p ·.key)).map (·.sell) =
        ((branchesOf db q r).filter (p <| revenueKey r ·)).map fun _ =>
          JoinedRow.sell ⟨q, r, option, none⟩ := by
    intro option
    rw [List.filter_map, List.map_map]
    rfl
  rw [joinedRows_eq, List.filter_flatMap, List.map_flatMap]
  simp only [hpicked]
  rw [sum_pairs, sum_sell_outer, List.filter_map, List.map_map]
  change _ = (((branchesOf db q r).filter (p <| revenueKey r ·)).map fun _ => sellOf db q).sum
  rw [List.map_const', List.sum_replicate]

theorem mem_map_key_joinedRows {k : RevenueKey} : k ∈ (joinedRows db q r).map (·.key) ↔
    k ∈ (branchesOf db q r).map (revenueKey r) := by
  rw [joinedRows_eq, List.map_flatMap, List.mem_flatMap]
  simp only [List.map_map]
  have hne : outer (fun o : QuotationOption => o.quotationId = q.id) db.options.rows ≠ [] :=
    outer_ne_nil
  obtain ⟨option, hoption⟩ := List.exists_mem_of_ne_nil _ hne
  constructor
  · rintro ⟨_, -, hk⟩
    exact hk
  · intro hk
    exact ⟨option, hoption, hk⟩

end Join

section Select
variable [Text] {f : RevenueFilter} {db : RevenueTables}

omit [Text] in
theorem find?_rfq {q : Quotation} (hq : q ∈ db.quotations.rows) :
    ∃ r, db.rfqs.find? q.rfqId = some r := by
  obtain ⟨r, hr, hid⟩ := db.rfq_found q hq
  exact ⟨r, Table.find?_eq_some_iff.mpr ⟨hr, hid⟩⟩

omit [Text] in
/-- A test of quotation and RFQ leaves all the rows of an outer join, or none. -/
theorem filter_joinedRows {p : JoinedRow → Bool} {q : Quotation} {r : Rfq} {c : Bool}
    (hp : ∀ option branch, p ⟨q, r, option, branch⟩ = c) :
    (joinedRows db q r).filter p = if c then joinedRows db q r else [] := by
  have hall : ∀ j ∈ joinedRows db q r, p j = c := by
    intro j hj
    obtain ⟨rfl, rfl⟩ := of_mem_joinedRows hj
    exact hp j.option j.branch
  cases c with
  | true => exact List.filter_eq_self.mpr hall
  | false => exact List.filter_eq_nil_iff.mpr fun j hj => Bool.eq_false_iff.mp (hall j hj)

/-- The conditions are on quotation and RFQ only, so they can be checked before the outer joins. -/
theorem selectedRows_eq (hbranch : f.branchId = none) :
    selectedRows f db = (wonPairs f db).flatMap fun w => joinedRows db w.1 w.2 := by
  have hany : ∀ branch, f.wantsBranch branch = true := by
    intro branch
    unfold RevenueFilter.wantsBranch
    rw [hbranch]
    rfl
  unfold selectedRows wonPairs wonQuotations
  have hfound : ∀ q ∈ db.quotations.rows, ∃ r, db.rfqs.find? q.rfqId = some r :=
    fun q hq => find?_rfq hq
  generalize db.quotations.rows = qs at hfound
  induction qs with
  | nil => rfl
  | cons q qs ih =>
    obtain ⟨⟨r, hr⟩, hfound⟩ := List.forall_mem_cons.mp hfound
    have hwon : Won f db q = (f.wants q && f.wantsRfq r) := by
      unfold Won
      rw [hr]
      rfl
    have htest : ∀ branch, (f.wants q && f.wantsRfq r && f.wantsBranch branch) =
        (f.wants q && f.wantsRfq r) := by
      intro branch
      rw [hany, Bool.and_true]
    rw [List.flatMap_cons, List.filter_append, ih hfound, List.filter_cons, hwon, hr]
    dsimp only
    rw [filter_joinedRows fun _ branch => htest branch]
    cases f.wants q && f.wantsRfq r with
    | true =>
      rw [if_pos rfl, if_pos rfl, List.filterMap_cons, hr]
      rfl
    | false => rfl

theorem sum_selectedRows (hbranch : f.branchId = none) (p : RevenueKey → Bool) :
    (((selectedRows f db).filter (p ·.key)).map (·.sell)).sum =
      (((ascribed f db).filter (p ·.1)).map (·.2)).sum := by
  unfold ascribed
  rw [selectedRows_eq hbranch, List.filter_flatMap, List.filter_flatMap, sum_flatMap, sum_flatMap]
  simp only [sum_joinedRows]

theorem mem_map_key_selectedRows (hbranch : f.branchId = none) {k : RevenueKey} :
    k ∈ (selectedRows f db).map (·.key) ↔ k ∈ (ascribed f db).map (·.1) := by
  unfold ascribed
  rw [selectedRows_eq hbranch, List.map_flatMap, List.map_flatMap, List.mem_flatMap,
    List.mem_flatMap]
  simp only [mem_map_key_joinedRows, List.map_map]
  exact Iff.rfl

omit [Text] in
theorem totalRevenue_revenueRow (g : RevenueKey × List JoinedRow) :
    (revenueRow g).totalRevenue.getD 0 = (g.2.map (·.sell)).sum := by
  have hsum : ∀ js : List JoinedRow,
      (js.filterMap fun j => j.option.map (·.totalSell)).sum = (js.map (·.sell)).sum := by
    intro js
    induction js with
    | nil => rfl
    | cons j js ih =>
      unfold JoinedRow.sell at ih ⊢
      rw [List.map_cons, List.sum_cons, ← ih, List.filterMap_cons]
      cases j.option with
      | none => exact (zero_add _).symm
      | some option => exact List.sum_cons
  rw [← hsum]
  unfold revenueRow
  dsimp only
  split
  · rename_i h
    rw [List.isEmpty_iff.mp h]
    rfl
  · rfl

variable {order : RowOrder RevenueRow}

/-- The sums of the groups as the database has them. -/
theorem sum_revenueRows (order : RowOrder RevenueRow) (hbranch : f.branchId = none)
    (p : RevenueKey → Bool) :
    (((revenueRows order f db).filter (p ·.toRevenueKey)).map (·.totalRevenue.getD 0)).sum =
      (((ascribed f db).filter (p ·.1)).map (·.2)).sum := by
  unfold revenueRows
  have hrow : ∀ g, ((fun row : RevenueRow => row.totalRevenue.getD 0) ∘ revenueRow) g =
      (g.2.map JoinedRow.sell).sum := totalRevenue_revenueRow
  rw [(((order.perm _).filter _).map _).sum_eq, List.filter_map, List.map_map,
    List.map_congr_left fun g _ => hrow g, ← sum_selectedRows hbranch]
  exact sum_filter_groupBy p

theorem mem_map_label_revenueRows (hbranch : f.branchId = none) (label : RevenueKey → String)
    (l : String) : l ∈ (revenueRows order f db).map (fun row => label row.toRevenueKey) ↔
      l ∈ (ascribed f db).map (label ·.1) := by
  have hgroups : ((groupBy JoinedRow.key (selectedRows f db)).map revenueRow).map
      (fun row => label row.toRevenueKey) =
        ((groupBy JoinedRow.key (selectedRows f db)).map Prod.fst).map label := by
    rw [List.map_map, List.map_map]
    rfl
  have hascribed : (ascribed f db).map (label ·.1) = ((ascribed f db).map (·.1)).map label := by
    rw [List.map_map]
    rfl
  unfold revenueRows
  rw [((order.perm _).map _).mem_iff, hgroups, hascribed, List.mem_map, List.mem_map]
  simp only [mem_map_fst_groupBy, mem_map_key_selectedRows hbranch]

end Select

section Totals
variable [Text] {f : RevenueFilter} {db : RevenueTables}

theorem map_fst_wonPairs : (wonPairs f db).map (·.1) = wonQuotations f db := by
  unfold wonPairs
  have hfound : ∀ q ∈ wonQuotations f db, ∃ r, db.rfqs.find? q.rfqId = some r :=
    fun q hq => find?_rfq (List.mem_filter.mp hq).1
  generalize wonQuotations f db = qs at hfound
  induction qs with
  | nil => rfl
  | cons q qs ih =>
    obtain ⟨⟨r, hr⟩, hfound⟩ := List.forall_mem_cons.mp hfound
    rw [List.filterMap_cons, hr]
    exact congrArg _ (ih hfound)

theorem sum_sellOf : ((wonPairs f db).map fun w => sellOf db w.1).sum = wonRevenue f db := by
  have hnodup : ((wonQuotations f db).map (·.id)).Nodup :=
    db.quotations.nodup.sublist (List.filter_sublist.map _)
  have hpairs : ((wonPairs f db).map fun w => sellOf db w.1) =
      (wonQuotations f db).map (sellOf db) := by
    rw [← map_fst_wonPairs, List.map_map]
    rfl
  rw [hpairs]
  exact (sum_semijoin hnodup).symm

theorem sum_ascribed :
    ((ascribed f db).map (·.2)).sum = wonRevenue f db + addedByRoles f db := by
  have hrepeated : ∀ w : Quotation × Rfq, (((branchesOf db w.1 w.2).map fun branch =>
      (revenueKey w.2 branch, sellOf db w.1)).map (·.2)).sum =
        sellOf db w.1 + ((rolesOf db w.1 w.2).length - 1 : ℕ) * sellOf db w.1 := by
    intro w
    rw [List.map_map]
    change ((branchesOf db w.1 w.2).map fun _ => sellOf db w.1).sum = _
    have hcount : max 1 (rolesOf db w.1 w.2).length = 1 + ((rolesOf db w.1 w.2).length - 1) := by
      omega
    rw [List.map_const', List.sum_replicate, length_branchesOf, hcount, nsmul_eq_mul,
      Nat.cast_add, Nat.cast_one, one_add_mul]
  unfold ascribed addedByRoles
  rw [sum_flatMap, ← sum_sellOf, ← List.sum_map_add]
  simp only [hrepeated]

theorem sum_ascribedTo (label : RevenueKey → String) :
    ((((ascribed f db).map (label ·.1)).eraseDups).map (ascribedTo f db label)).sum =
      wonRevenue f db + addedByRoles f db :=
  (sum_parts_of_keys (Groups.nodup_eraseDups _) fun _ => List.mem_eraseDups).trans sum_ascribed

variable {order : RowOrder RevenueRow} {β : Type} {label : RevenueKey → String}
  {new : RevenueRow → β} {add : β → RevenueRow → β} {shown : β → Money}

/-- The entries of a breakdown come to what is ascribed, and what floats and cents add. -/
theorem sum_cents_accumulate (hbranch : f.branchId = none) (hnew : ∀ row, shown (new row) = 0)
    (hadd : ∀ b row, shown (add b row) = fl (shown b + row.rev)) :
    ((accumulate (fun row => label row.toRevenueKey) new add (revenueRows order f db)).map
        fun e => cents (shown e.2)).sum =
      wonRevenue f db + (addedByRoles f db + addedByRounding f db order label) := by
  have hshown : ∀ l b, (l, b) ∈ accumulate (fun row => label row.toRevenueKey) new add
      (revenueRows order f db) → cents (shown b) = displayed f db order label l := by
    intro l b hb
    have hloop : shown b = (((revenueRows order f db).filter (label ·.toRevenueKey = l))).foldl
        (fun m row => fl (m + row.rev)) 0 :=
      part_of_entry (g := shown) hnew hadd (mem_accumulate_iff.mp hb)
    rw [hloop, displayed, addUp, List.foldl_map]
  have hkeys := Groups.nodup_eraseDups ((ascribed f db).map (label ·.1))
  have hmem : ∀ l, l ∈ ((ascribed f db).map (label ·.1)).eraseDups ↔
      l ∈ (revenueRows order f db).map (fun row => label row.toRevenueKey) := by
    intro l
    rw [List.mem_eraseDups, mem_map_label_revenueRows hbranch]
  rw [sum_map_accumulate hshown hkeys hmem, ← add_assoc, ← sum_ascribedTo label]
  unfold addedByRounding
  rw [← List.sum_map_add]
  simp only [add_sub_cancel]

end Totals

/-- The grand total and the entries of every breakdown come to the revenue. -/
structure RevenueReport.CountsOnce (r : RevenueReport) (revenue : Money) : Prop where
  grand : r.grandTotalRevenue = revenue
  byCustomer : (r.byCustomer.map (·.totalRevenue)).sum = revenue
  byMode : (r.byMode.map (·.totalRevenue)).sum = revenue
  byLane : (r.byLane.map (·.totalRevenue)).sum = revenue
  byBranch : (r.byBranch.map (·.totalRevenue)).sum = revenue

def RevenueFilter.anyBranch (f : RevenueFilter) : RevenueFilter := { f with branchId := none }

section Once
variable [Text] {f : RevenueFilter} {db : RevenueTables} {order : RowOrder RevenueRow}

/-- What the further roles of users add is made up for by rounding, wherever it is added up. -/
structure EvensOut (order : RowOrder RevenueRow) (f : RevenueFilter) (db : RevenueTables) :
    Prop where
  grand : addedByRoles f db + (cents (addUp ((revenueRows order f db).map (·.rev))) -
    (wonRevenue f db + addedByRoles f db)) = 0
  byCustomer : addedByRoles f db + addedByRounding f db order (·.cust) = 0
  byMode : addedByRoles f db + addedByRounding f db order (·.modeKey) = 0
  byLane : addedByRoles f db + addedByRounding f db order (·.laneKey) = 0
  byBranch : addedByRoles f db + addedByRounding f db order (·.brIdStr) = 0

theorem grandTotal_foldl (rows : List RevenueRow) :
    (rows.foldl RevenueSums.addRow .none).grandTotal = addUp (rows.map (·.rev)) := by
  unfold addUp
  rw [List.foldl_map]
  exact (List.foldl_hom RevenueSums.grandTotal fun _ _ => rfl).symm

theorem grandTotalRevenue_eq : (revenueAnalytics order f db).grandTotalRevenue =
    cents (addUp ((revenueRows order f db).map (·.rev))) := by
  rw [← grandTotal_foldl]
  rfl

/-- Every breakdown is filled as by a loop of its own. -/
theorem sum_breakdown {β : Type} {label : RevenueKey → String} {new : RevenueRow → β}
    {add : β → RevenueRow → β} {shown : β → Money} {part : RevenueSums → List (String × β)}
    (hstep : ∀ acc row, part (acc.addRow row) =
      upsert (label row.toRevenueKey) (new row) (add · row) (part acc))
    (hnone : part .none = []) (hbranch : f.branchId = none) (hnew : ∀ row, shown (new row) = 0)
    (hadd : ∀ b row, shown (add b row) = fl (shown b + row.rev)) :
    ((part ((revenueRows order f db).foldl RevenueSums.addRow .none)).map
        fun e => cents (shown e.2)).sum =
      wonRevenue f db + (addedByRoles f db + addedByRounding f db order label) := by
  rw [← @sum_cents_accumulate _ f db order β label new add shown hbranch hnew hadd]
  congr 2
  exact foldl_eq_accumulate hstep hnone _

theorem sum_share {label : RevenueKey → String} {part : RevenueSums → List (String × Share)}
    (hstep : ∀ acc row, part (acc.addRow row) =
      upsert (label row.toRevenueKey) ⟨label row.toRevenueKey, 0⟩ (·.add row) (part acc))
    (hnone : part .none = []) (hbranch : f.branchId = none) :
    (((part ((revenueRows order f db).foldl RevenueSums.addRow .none)).map
        (·.2.rounded)).map (·.totalRevenue)).sum =
      wonRevenue f db + (addedByRoles f db + addedByRounding f db order label) := by
  rw [List.map_map]
  exact sum_breakdown hstep hnone hbranch (fun _ => rfl) fun _ _ => rfl

theorem sum_byBranch (hbranch : f.branchId = none) :
    ((revenueAnalytics order f db).byBranch.map (·.totalRevenue)).sum =
      wonRevenue f db + (addedByRoles f db + addedByRounding f db order (·.brIdStr)) := by
  rw [← @sum_breakdown _ f db order BranchShare _ RevenueRow.branchShare BranchShare.add
    (·.totalRevenue) RevenueSums.byBranch (fun _ _ => rfl) rfl hbranch (fun _ => rfl)
    fun _ _ => rfl]
  unfold revenueAnalytics RevenueSums.report
  rw [List.map_map]
  rfl

theorem countsOnce_iff (hbranch : f.branchId = none) :
    (revenueAnalytics order f db).CountsOnce (wonRevenue f db) ↔ EvensOut order f db := by
  have hgrand := @grandTotalRevenue_eq _ f db order
  have hcustomer : ((revenueAnalytics order f db).byCustomer.map (·.totalRevenue)).sum = _ :=
    sum_share (fun _ _ => rfl) rfl hbranch
  have hmode : ((revenueAnalytics order f db).byMode.map (·.totalRevenue)).sum = _ :=
    sum_share (fun _ _ => rfl) rfl hbranch
  have hlane : ((revenueAnalytics order f db).byLane.map (·.totalRevenue)).sum = _ :=
    sum_share (fun _ _ => rfl) rfl hbranch
  have hbranches := @sum_byBranch _ f db order hbranch
  constructor
  · rintro ⟨h, hc, hm, hl, hb⟩
    constructor
    · rw [hgrand] at h
      linarith
    · exact add_eq_left.mp (hcustomer.symm.trans hc)
    · exact add_eq_left.mp (hmode.symm.trans hm)
    · exact add_eq_left.mp (hlane.symm.trans hl)
    · exact add_eq_left.mp (hbranches.symm.trans hb)
  · rintro ⟨h, hc, hm, hl, hb⟩
    constructor
    · rw [hgrand]
      linarith
    · rw [hcustomer, hc, add_zero]
    · rw [hmode, hm, add_zero]
    · rw [hlane, hl, add_zero]
    · rw [hbranches, hb, add_zero]

omit [Text] in
theorem wholeCents_sum {α : Type} {xs : List α} {g : α → Money} (h : ∀ x ∈ xs, WholeCents (g x)) :
    WholeCents (xs.map g).sum := by
  apply OnGrid.sum
  intro y hy
  obtain ⟨x, hx, rfl⟩ := List.mem_map.mp hy
  exact h x hx

/-- The sums of the groups, as the database has them. -/
def groupTotals (order : RowOrder RevenueRow) (f : RevenueFilter) (db : RevenueTables) :
    List Money := (revenueRows order f db).map (·.totalRevenue.getD 0)

section Cents
variable (hcents : ∀ o ∈ db.options.rows, WholeCents o.totalSell)
include hcents

theorem ascribed_wholeCents {a : RevenueKey × Money} (ha : a ∈ ascribed f db) : WholeCents a.2 := by
  obtain ⟨w, -, ha⟩ := List.mem_flatMap.mp ha
  obtain ⟨branch, -, rfl⟩ := List.mem_map.mp ha
  exact wholeCents_sum fun o ho => hcents o (List.mem_filter.mp ho).1

variable (hbranch : f.branchId = none) (hmoderate : Moderate (groupTotals order f db))
include hbranch hmoderate

/-- What a loop over some of the groups adds up, to cents, is exact. -/
theorem cents_addUp_rows (p : RevenueKey → Bool) :
    cents (addUp (((revenueRows order f db).filter (p ·.toRevenueKey)).map (·.rev))) =
      (((ascribed f db).filter (p ·.1)).map (·.2)).sum := by
  have hrev : (((revenueRows order f db).filter (p ·.toRevenueKey)).map (·.rev)) =
      ((((revenueRows order f db).filter (p ·.toRevenueKey)).map
        (·.totalRevenue.getD 0)).map double) := by
    rw [List.map_map]
    rfl
  have hwhole : WholeCents (((ascribed f db).filter (p ·.1)).map (·.2)).sum :=
    wholeCents_sum fun a ha => ascribed_wholeCents hcents (List.mem_filter.mp ha).1
  rw [← sum_revenueRows order hbranch p] at hwhole ⊢
  rw [hrev]
  exact roundTo_addUp_double hwhole (hmoderate.sublist (List.filter_sublist.map _))

theorem addedByRounding_eq_zero (label : RevenueKey → String) :
    addedByRounding f db order label = 0 := by
  apply List.sum_eq_zero
  intro x hx
  obtain ⟨l, -, rfl⟩ := List.mem_map.mp hx
  exact sub_eq_zero.mpr (cents_addUp_rows hcents hbranch hmoderate fun k => label k = l)

theorem evensOut_iff_of_wholeCents : EvensOut order f db ↔ addedByRoles f db = 0 := by
  have htotal : cents (addUp ((revenueRows order f db).map (·.rev))) =
      wonRevenue f db + addedByRoles f db := by
    have hall := cents_addUp_rows hcents hbranch hmoderate fun _ => true
    rwa [List.filter_true, List.filter_true, sum_ascribed] at hall
  constructor
  · intro h
    have hgrand := h.grand
    rwa [htotal, sub_self, add_zero] at hgrand
  · intro h
    have hlabel := addedByRounding_eq_zero hcents hbranch hmoderate
    constructor
    · rw [htotal, sub_self, add_zero, h]
    · rw [hlabel, add_zero, h]
    · rw [hlabel, add_zero, h]
    · rw [hlabel, add_zero, h]
    · rw [hlabel, add_zero, h]

end Cents

section Positive
variable (hpos : ∀ o ∈ db.options.rows, 0 < o.totalSell)
include hpos

omit [Text] in
theorem sellOf_nonneg (q : Quotation) : 0 ≤ sellOf db q := by
  apply List.sum_nonneg
  intro x hx
  obtain ⟨o, ho, rfl⟩ := List.mem_map.mp hx
  exact (hpos o (List.mem_filter.mp ho).1).le

omit [Text] in
theorem sellOf_eq_zero_iff (q : Quotation) :
    sellOf db q = 0 ↔ ¬ ∃ o ∈ db.options.rows, o.quotationId = q.id := by
  constructor
  · rintro hzero ⟨o, ho, hid⟩
    have hsum : 0 < sellOf db q := by
      apply List.sum_pos
      · intro x hx
        obtain ⟨o, ho, rfl⟩ := List.mem_map.mp hx
        exact hpos o (List.mem_filter.mp ho).1
      · exact List.ne_nil_of_mem (List.mem_map_of_mem
          (List.mem_filter.mpr ⟨ho, decide_eq_true hid⟩))
    exact hsum.ne' hzero
  · intro h
    have hnone : db.options.rows.filter (·.quotationId = q.id) = [] := by
      apply List.filter_eq_nil_iff.mpr
      intro o ho hid
      exact h ⟨o, ho, of_decide_eq_true hid⟩
    unfold sellOf
    rw [hnone]
    rfl

theorem addedByRoles_eq_zero_iff : addedByRoles f db = 0 ↔ ∀ w ∈ wonPairs f db,
    (∃ o ∈ db.options.rows, o.quotationId = w.1.id) → (rolesOf db w.1 w.2).length ≤ 1 := by
  have hterm : ∀ w : Quotation × Rfq,
      (((rolesOf db w.1 w.2).length - 1 : ℕ) : Money) * sellOf db w.1 = 0 ↔
        ((∃ o ∈ db.options.rows, o.quotationId = w.1.id) → (rolesOf db w.1 w.2).length ≤ 1) := by
    intro w
    rw [mul_eq_zero, Nat.cast_eq_zero, Nat.sub_eq_zero_iff_le, sellOf_eq_zero_iff hpos,
      or_comm, imp_iff_not_or]
  have hsum : addedByRoles f db = 0 ↔ ∀ w ∈ wonPairs f db,
      (((rolesOf db w.1 w.2).length - 1 : ℕ) : Money) * sellOf db w.1 = 0 := by
    constructor
    · intro hzero w hw
      apply List.all_zero_of_le_zero_le_of_sum_eq_zero ?_ hzero (List.mem_map_of_mem hw)
      intro x hx
      obtain ⟨w, -, rfl⟩ := List.mem_map.mp hx
      exact mul_nonneg (Nat.cast_nonneg _) (sellOf_nonneg hpos w.1)
    · intro h
      apply List.sum_eq_zero
      intro x hx
      obtain ⟨w, hw, rfl⟩ := List.mem_map.mp hx
      exact h w hw
  rw [hsum]
  exact forall₂_congr fun w _ => hterm w

end Positive

/-- The report counts revenue once just when further roles and rounding even out; for positive
amounts in whole cents, in groups neither many nor large, when no user has further roles. -/
theorem revenue_countsOnce_iff (order : RowOrder RevenueRow) (f : RevenueFilter)
    (db : RevenueTables) :
    ((revenueAnalytics order f.anyBranch db).CountsOnce (wonRevenue f.anyBranch db) ↔
        EvensOut order f.anyBranch db) ∧
      ((∀ o ∈ db.options.rows, WholeCents o.totalSell ∧ 0 < o.totalSell) →
        Moderate (groupTotals order f.anyBranch db) →
        ((revenueAnalytics order f.anyBranch db).CountsOnce (wonRevenue f.anyBranch db) ↔
          ∀ w ∈ wonPairs f.anyBranch db, (∃ o ∈ db.options.rows, o.quotationId = w.1.id) →
            (rolesOf db w.1 w.2).length ≤ 1)) := by
  have hexact : (revenueAnalytics order f.anyBranch db).CountsOnce (wonRevenue f.anyBranch db) ↔
      EvensOut order f.anyBranch db := countsOnce_iff rfl
  refine ⟨hexact, ?_⟩
  intro hamounts hmoderate
  rw [hexact, evensOut_iff_of_wholeCents (fun o ho => (hamounts o ho).1) rfl hmoderate,
    addedByRoles_eq_zero_iff fun o ho => (hamounts o ho).2]

end Once

def allRevenue : RevenueFilter := ⟨1, none, none, none, none, none, none, none⟩

def twoRoles : RevenueTables where
  quotations := ⟨[⟨11, 1, 12, "WON", some 7, ⟨⟨2026, 1, 1⟩, 0⟩⟩], by decide⟩
  rfqs := ⟨[⟨12, 5, "AIR", some 31, some 32, none, none⟩], by decide⟩
  options := ⟨[⟨13, 11, 100⟩], by decide⟩
  userBranchRoles := ⟨[⟨21, 7, 41⟩, ⟨22, 7, 42⟩], by decide⟩
  branches := ⟨[⟨41, "Dubai", "DXB"⟩, ⟨42, "London", "LHR"⟩], by decide⟩
  rfq_found := by
    intro q hq
    obtain rfl := List.mem_singleton.mp hq
    exact ⟨_, List.mem_singleton_self _, rfl⟩

section
open Verbatim

/-- Its hundred is counted as two hundred. -/
theorem revenue_twice : ¬ (revenueAnalytics .stored allRevenue.anyBranch twoRoles).CountsOnce
    (wonRevenue allRevenue.anyBranch twoRoles) := by
  intro h
  exact absurd h.grand (by decide +kernel)

end

end Friet.Analytics
