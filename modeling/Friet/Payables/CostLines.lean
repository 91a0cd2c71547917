import Friet.Payables.Lifecycle
import Friet.Financial.Steps

/-!
# Cost lines follow their bills

A cost line moves on only from the exact status before, whoever of the payables
it is linked to moves it. It still is never behind any of them: `reached p` is
how far a payable must have pushed its lines, and no linked line is below it.
-/

set_option autoImplicit false

namespace Friet

/-- Bills do not tell `ESTIMATED` from `ACCRUED`. -/
def CostLineStatus.rank : CostLineStatus → ℕ
  | .estimated | .accrued => 0
  | .billed => 1
  | .verified => 2
  | .approved => 3
  | .paid => 4

namespace Payables

open Session Rounding Financial

def reached (p : Payable) : ℕ :=
  if p.status = .paid then 4
  else if p.approvalStatus = .approved then 3
  else if p.verificationStatus = .verified then 2
  else 1

/-- Only the two that bills do not tell apart are of one rank. -/
theorem eq_of_rank_eq {status old : CostLineStatus} (hpos : 0 < old.rank)
    (h : status.rank = old.rank) : status = old := by
  cases status <;> cases old <;> first | rfl | simp [CostLineStatus.rank] at hpos h

theorem one_le_reached (p : Payable) : 1 ≤ reached p := by
  unfold reached
  split_ifs <;> decide

theorem reached_of_paid {p : Payable} (h : p.status = .paid) : reached p = 4 := if_pos h

theorem reached_of_approved {p : Payable} (hpaid : p.status ≠ .paid)
    (h : p.approvalStatus = .approved) : reached p = 3 := by
  unfold reached
  rw [if_neg hpaid, if_pos h]

theorem reached_of_verified {p : Payable} (hpaid : p.status ≠ .paid)
    (happ : p.approvalStatus ≠ .approved) (h : p.verificationStatus = .verified) :
    reached p = 2 := by
  unfold reached
  rw [if_neg hpaid, if_neg happ, if_pos h]

theorem three_le_reached {p : Payable} (h : p.approvalStatus = .approved) : 3 ≤ reached p := by
  by_cases hpaid : p.status = .paid
  · rw [reached_of_paid hpaid]
    decide
  · rw [reached_of_approved hpaid h]

theorem three_le_rank_iff {status : CostLineStatus} :
    3 ≤ status.rank ↔ status = .approved ∨ status = .paid := by
  cases status <;> decide

theorem four_le_rank_iff {status : CostLineStatus} : 4 ≤ status.rank ↔ status = .paid := by
  cases status <;> decide

def NotBack (c c' : CostLine) : Prop := c.status.rank ≤ c'.status.rank

theorem NotBack.refl (c : CostLine) : NotBack c c := le_refl _

theorem NotBack.trans (c c' c'' : CostLine) (h : NotBack c c') (h' : NotBack c' c'') :
    NotBack c c'' := le_trans h h'

theorem notBack_bill (c : CostLine) : NotBack c (CostLine.bill c) ∧
    1 ≤ (CostLine.bill c).status.rank := by
  unfold NotBack CostLine.bill
  cases h : c.status <;> simp [h, CostLineStatus.rank]

theorem notBack_advance {old new : CostLineStatus} (h : old.rank ≤ new.rank) (c : CostLine) :
    NotBack c (CostLine.advance old new c) := by
  unfold NotBack CostLine.advance
  split_ifs with hc
  · rw [hc]; exact h
  · exact le_refl _

theorem rank_advance (old new : CostLineStatus) (hpos : 0 < old.rank)
    (hnext : new.rank = old.rank + 1) {c : CostLine} (hc : old.rank ≤ c.status.rank) :
    new.rank ≤ (CostLine.advance old new c).status.rank := by
  unfold CostLine.advance
  split_ifs with hstatus
  · exact le_refl _
  · have hne : c.status.rank ≠ old.rank := fun hrank => hstatus (eq_of_rank_eq hpos hrank)
    omega

theorem notBack_advanceCostLines {old new : CostLineStatus} (h : old.rank ≤ new.rank)
    (lines : List PayableLine) (t : Table CostLine) :
    t.Follows NotBack (advanceCostLines old new lines t) := by
  refine follows_advanceCostLines.mono ?_
  rintro c c' (⟨_, rfl⟩ | ⟨_, rfl⟩)
  · exact notBack_advance h c
  · exact NotBack.refl c'

/-- No cost line is behind a payable that one of its lines is linked to. -/
structure Coupled (db : Database) : Prop where
  approved : ∀ p ∈ db.payables, AfterApproval p.status → p.approvalStatus = .approved
  line_of : ∀ l ∈ db.payableLines, ∃ p ∈ db.payables, p.id = l.payableId
  line_cost : ∀ l ∈ db.payableLines, ∀ id, l.costLineId = some id → ∃ c ∈ db.costLines, c.id = id
  ahead : ∀ l ∈ db.payableLines, ∀ p ∈ db.payables, p.id = l.payableId →
    ∀ c ∈ db.costLines, l.costLineId = some c.id → reached p ≤ c.status.rank

theorem Coupled.move {db db' : Database} (hdb : Coupled db) {p : Payable} (hp : p ∈ db.payables)
    {f : Payable → Payable} {hf : KeepsKey f} (hpayables : db'.payables = db.payables.update p.id f hf)
    (hlines : ∀ l' ∈ db'.payableLines, ∃ l ∈ db.payableLines,
      l'.payableId = l.payableId ∧ l'.costLineId = l.costLineId)
    (hcost : db.costLines.Follows (fun c c' => NotBack c c' ∧
      (Linked (linesOf p.id db) c → reached p ≤ c.status.rank → reached (f p) ≤ c'.status.rank))
      db'.costLines)
    (happroved : AfterApproval (f p).status → (f p).approvalStatus = .approved) : Coupled db' := by
  have hkeep : db.payables.Follows (fun _ _ => True) db'.payables := by
    rw [hpayables]
    exact Table.follows_update (fun _ => trivial) hp trivial
  refine ⟨?_, ?_, ?_, ?_⟩
  · rw [hpayables]
    exact (Table.forall_mem_update hp).mpr ⟨fun q hq _ => hdb.approved q hq, happroved⟩
  · intro l' hl'
    obtain ⟨l, hl, hid, _⟩ := hlines l' hl'
    obtain ⟨q, hq, hql⟩ := hdb.line_of l hl
    obtain ⟨q', hq', hk, _⟩ := hkeep q hq
    exact ⟨q', hq', hk.trans (hql.trans hid.symm)⟩
  · intro l' hl' id hcl
    obtain ⟨l, hl, _, hc⟩ := hlines l' hl'
    obtain ⟨c, hcmem, hcid⟩ := hdb.line_cost l hl id (hc.symm.trans hcl)
    obtain ⟨c', hc', hk, _⟩ := hcost c hcmem
    exact ⟨c', hc', hk.trans hcid⟩
  · intro l' hl' q' hq' hql c' hc' hlink
    obtain ⟨l, hl, hid, hcl⟩ := hlines l' hl'
    obtain ⟨c, hc, hcid⟩ := hdb.line_cost l hl c'.id (hcl.symm.trans hlink)
    obtain ⟨hback, hmoved⟩ := hcost.of_mem hc hc' hcid.symm
    have hlink' : l.costLineId = some c.id := by rw [hcid, ← hcl, hlink]
    rw [hpayables] at hq'
    rcases (Table.mem_update_of_mem hp).mp hq' with ⟨hq, _⟩ | rfl
    · exact (hdb.ahead l hl q' hq (hql.trans hid) c hc hlink').trans hback
    · have hof : p.id = l.payableId := (hf.key_eq p).symm.trans (hql.trans hid)
      refine hmoved ⟨l, ?_, hlink'⟩ (hdb.ahead l hl p hp hof c hc hlink')
      exact List.mem_filter.mpr ⟨hl, by simp [hof]⟩

/-- Advancing the payable's own lines, and no others, is enough. -/
theorem follows_advance_own {db : Database} {p p' : Payable} {old new : CostLineStatus}
    (h : old.rank ≤ new.rank)
    (hmoved : ∀ c : CostLine, reached p ≤ c.status.rank →
      reached p' ≤ (CostLine.advance old new c).status.rank) :
    db.costLines.Follows (fun c c' => NotBack c c' ∧
      (Linked (linesOf p.id db) c → reached p ≤ c.status.rank → reached p' ≤ c'.status.rank))
      (advanceCostLines old new (linesOf p.id db) db.costLines) := by
  refine follows_advanceCostLines.mono ?_
  rintro c c' (⟨_, rfl⟩ | ⟨hl, rfl⟩)
  · exact ⟨notBack_advance h c, fun _ hc => hmoved c hc⟩
  · exact ⟨NotBack.refl _, fun hc => absurd hc hl⟩

section Requests
variable [Text] {caller : Caller} {db db' : Database} {d : PayableDetail}

theorem Coupled.verifyPayable {a : VerifyPayable} (hdb : Coupled db)
    (h : (verifyPayable caller a).run db = .ok d db') :
    Coupled db' ∧ db.costLines.Follows NotBack db'.costLines := by
  obtain ⟨p, hp, hid, _, _, hne, _, rfl⟩ := run_verifyPayable_ok h
  refine ⟨hdb.move hp rfl ?_ ?_ ?_, notBack_advanceCostLines (by decide) _ _⟩
  · intro l' hl'
    obtain ⟨l, hl, rfl⟩ := Table.mem_updateWhere.mp hl'
    refine ⟨l, hl, ?_⟩
    split <;> exact ⟨rfl, rfl⟩
  · rw [← hid]
    refine follows_advance_own (by decide) ?_
    intro c hc
    have hpaid : (Payable.verify caller a p).status ≠ .paid := by
      intro hstatus
      cases hstatus
    by_cases happ : p.approvalStatus = .approved
    · rw [reached_of_approved hpaid happ]
      exact ((three_le_reached happ).trans hc).trans (notBack_advance (by decide) c)
    · rw [reached_of_verified hpaid happ rfl]
      exact rank_advance .billed .verified (by decide) rfl ((one_le_reached p).trans hc)
  · simp [Payable.verify, AfterApproval]

theorem Coupled.approvePayable {a : ApprovePayable} (hdb : Coupled db)
    (h : (approvePayable caller a).run db = .ok d db') :
    Coupled db' ∧ db.costLines.Follows NotBack db'.costLines := by
  obtain ⟨p, hp, hid, _, happ, hver, rfl⟩ := run_approvePayable_ok h
  have hne : p.status ≠ .paid := fun hs => happ (hdb.approved p hp (Or.inr (Or.inr hs)))
  refine ⟨hdb.move hp rfl (fun l hl => ⟨l, hl, rfl, rfl⟩) ?_ ?_,
    notBack_advanceCostLines (by decide) _ _⟩
  · rw [← hid]
    refine follows_advance_own (by decide) ?_
    intro c hc
    have hpaid : (Payable.approveWith caller a db.financialEntries.freshKey p).status ≠ .paid := by
      intro hstatus
      cases hstatus
    rw [reached_of_verified hne happ hver] at hc
    rw [reached_of_approved hpaid rfl]
    exact rank_advance .verified .approved (by decide) rfl hc
  · exact fun _ => rfl

theorem Coupled.recordPayment {a : RecordPayment} (hdb : Coupled db)
    (h : (recordPayment caller a).run db = .ok d db') :
    Coupled db' ∧ db.costLines.Follows NotBack db'.costLines := by
  obtain ⟨r, hr, rfl⟩ := run_recordPayment_ok h
  have happ : r.payable.approvalStatus = .approved :=
    hdb.approved r.payable hr.mem (hr.status.imp_right Or.inl)
  have hne : r.payable.status ≠ .paid := by
    rcases hr.status with hs | hs <;> simp [hs]
  have hcost : db.costLines.Follows (fun c c' => NotBack c c' ∧
      (Linked (linesOf r.payable.id db) c → reached r.payable ≤ c.status.rank →
        reached (Payable.pay a r r.payable) ≤ c'.status.rank))
      (payTables caller a r db).costLines := by
    unfold payTables
    rw [← hr.id]
    by_cases hpaid : newStatus a r = .paid
    · simp only [if_pos hpaid]
      refine follows_advance_own (by decide) ?_
      intro c hc
      rw [reached_of_approved hne happ] at hc
      rw [reached_of_paid (Payable.pay_status.trans hpaid)]
      exact rank_advance .approved .paid (by decide) rfl hc
    · simp only [if_neg hpaid]
      refine .refl (fun c => ⟨NotBack.refl c, fun _ hc => ?_⟩) _
      have hsame : reached (Payable.pay a r r.payable) = reached r.payable := by
        unfold reached
        rw [Payable.pay_status, if_neg hpaid, if_neg hne]
        rfl
      rw [hsame]
      exact hc
  refine ⟨hdb.move hr.mem rfl (fun l hl => ⟨l, hl, rfl, rfl⟩) hcost
    fun _ => happ, hcost.mono fun _ _ h => h.1⟩

theorem BillLoop.billed {a : RecordPayable} {totals : BillTotals} {billed : Database}
    (h : BillLoop caller a db totals billed) :
    db.costLines.Follows NotBack billed.costLines ∧
      ∀ l ∈ totals.payableLinesToAdd, ∃ c ∈ billed.costLines,
        c.id = l.costLineId ∧ 1 ≤ c.status.rank := by
  have hstep : ∀ (pre : List BillLine) l acc (t : Database) acc' (t' : Database),
      (db.costLines.Follows NotBack t.costLines ∧ ∀ l ∈ acc.payableLinesToAdd,
        ∃ c ∈ t.costLines, c.id = l.costLineId ∧ 1 ≤ c.status.rank) →
      (recordBillLine caller a (costLinesMap (shipmentCostLines a db)) acc l).run t =
        .ok acc' t' →
      db.costLines.Follows NotBack t'.costLines ∧ ∀ l ∈ acc'.payableLinesToAdd,
        ∃ c ∈ t'.costLines, c.id = l.costLineId ∧ 1 ≤ c.status.rank := by
    rintro _ l acc t acc' t' ⟨hfollows, hlinked⟩ hrun
    rcases (run_recordBillLine_ok hrun).2 with ⟨c, hfind, rfl, rfl⟩ | ⟨_, rfl, rfl⟩
    · obtain ⟨c₀, hc₀, hk⟩ : ∃ c₀ ∈ t.costLines, c₀.id = c.id := by
        rcases hfind.mem with hc | hc
        · exact ⟨c, hc, rfl⟩
        · obtain ⟨c', hc', hk, _⟩ := hfollows c hc
          exact ⟨c', hc', hk⟩
      have hbill : t.costLines.Follows NotBack
          (t.costLines.update c.id CostLine.bill CostLine.bill_keepsKey) :=
        Table.follows_update NotBack.refl hc₀ (notBack_bill c₀).1 hk
      refine ⟨hfollows.trans NotBack.trans hbill, BillTotals.forall_mem_push.mpr ⟨?_, ?_⟩⟩
      · intro d hd
        obtain ⟨c', hc', hid, hrank⟩ := hlinked d hd
        obtain ⟨c'', hc'', hid', hback⟩ := hbill c' hc'
        exact ⟨c'', hc'', hid'.trans hid, hrank.trans hback⟩
      · exact ⟨CostLine.bill c₀, (Table.mem_update_of_mem hc₀ hk).mpr (Or.inr rfl),
          (CostLine.bill_keepsKey.key_eq c₀).trans hk, (notBack_bill c₀).2⟩
    · refine ⟨hfollows.trans NotBack.trans (Table.follows_insert NotBack.refl),
        BillTotals.forall_mem_push.mpr ⟨?_, ?_⟩⟩
      · intro d hd
        obtain ⟨c', hc', hid, hrank⟩ := hlinked d hd
        exact ⟨c', Table.mem_insert_of_mem hc', hid, hrank⟩
      · exact ⟨_, Table.mem_insert_self, rfl, le_refl _⟩
  exact run_foldlM_ok (fun pre l _ acc t acc' t' _ => hstep pre l acc t acc' t')
    ⟨.refl NotBack.refl _, fun l hl => by cases hl⟩ h

theorem Coupled.recordPayable {a : RecordPayable} (hdb : Coupled db)
    (h : (recordPayable caller a).run db = .ok d db') :
    Coupled db' ∧ db.costLines.Follows NotBack db'.costLines := by
  obtain ⟨_, _, totals, billed, hloop, rfl⟩ := run_recordPayable_ok h
  obtain ⟨hfollows, hlinked⟩ := hloop.billed
  refine ⟨⟨?_, line_of_addPayableLines hdb.line_of, ?_, ?_⟩, hfollows⟩
  · refine Table.forall_mem_insert.mpr ⟨hdb.approved, ?_⟩
    simp [newPayable, AfterApproval]
  · intro l hl id hcl
    rcases mem_addPayableLines hl with hl | ⟨dl, hdl, _, rfl⟩
    · obtain ⟨c, hc, hid⟩ := hdb.line_cost l hl id hcl
      obtain ⟨c', hc', hk, _⟩ := hfollows c hc
      exact ⟨c', hc', hk.trans hid⟩
    · obtain ⟨c, hc, hid, _⟩ := hlinked dl hdl
      exact ⟨c, hc, hid.trans (Option.some.inj hcl)⟩
  · intro l hl p hp hpl c hc hlink
    rcases mem_addPayableLines hl with hl | ⟨dl, hdl, _, rfl⟩
    · -- An old line belongs to an old payable: the new one has a key of its own.
      obtain ⟨q, hq, hql⟩ := hdb.line_of l hl
      obtain ⟨c₀, hc₀, hcid⟩ := hdb.line_cost l hl c.id hlink
      have hback := hfollows.of_mem hc₀ hc hcid.symm
      rcases Table.mem_insert.mp hp with hp | rfl
      · exact (hdb.ahead l hl p hp hpl c₀ hc₀ (by rw [hlink, hcid])).trans hback
      · have hlt : q.id < db.payables.freshKey := Table.key_lt_freshKey hq
        rw [hql, ← hpl] at hlt
        exact absurd hlt (lt_irrefl _)
    · obtain ⟨c₀, hc₀, hid, hrank⟩ := hlinked dl hdl
      have heq : c₀ = c := Table.eq_of_key_eq hc₀ hc (hid.trans (Option.some.inj hlink))
      rcases Table.mem_insert.mp hp with hp | rfl
      · have hlt : p.id < db.payables.freshKey := Table.key_lt_freshKey hp
        rw [hpl] at hlt
        exact absurd hlt (lt_irrefl _)
      · rw [← heq]
        exact hrank

section Runs
variable [Arithmetic]

theorem Coupled.addCostLine {a : AddCostLine} {line : CostLine} (hdb : Coupled db)
    (h : (addCostLine caller a).run db = .ok line db') :
    Coupled db' ∧ db.costLines.Follows NotBack db'.costLines := by
  obtain ⟨status, heq⟩ := run_addCostLine_ok h
  rw [heq]
  have hfollows : db.costLines.Follows NotBack (db.costLines.insert (storedCostLine caller a status)
      (takesKey_storedCostLine caller a status)) := Table.follows_insert NotBack.refl
  refine ⟨⟨hdb.approved, hdb.line_of, ?_, ?_⟩, hfollows⟩
  · intro l hl id hcl
    obtain ⟨c, hc, hid⟩ := hdb.line_cost l hl id hcl
    exact ⟨c, Table.mem_insert_of_mem hc, hid⟩
  · intro l hl p hp hpl c hc hlink
    obtain ⟨c₀, hc₀, hcid⟩ := hdb.line_cost l hl c.id hlink
    have hahead := hdb.ahead l hl p hp hpl c₀ hc₀ (by rw [hlink, hcid])
    exact hahead.trans (hfollows.of_mem hc₀ hc hcid.symm)

inductive CostRequest where
  | addCostLine (a : AddCostLine)
  | payable (request : Request)

def costStep (db : Database) : Caller × CostRequest → Database
  | (caller, .addCostLine a) => commit (Financial.addCostLine caller a) db
  | (caller, .payable request) => step db (caller, request)

theorem costStep_coupled {i : Caller × CostRequest} (hdb : Coupled db) :
    Coupled (costStep db i) ∧ db.costLines.Follows NotBack (costStep db i).costLines := by
  obtain ⟨caller, request⟩ := i
  cases request with
  | addCostLine a =>
    rcases commit_cases (Financial.addCostLine caller a) db with heq | ⟨line, h⟩
    · rw [costStep, heq]
      exact ⟨hdb, .refl NotBack.refl _⟩
    · exact hdb.addCostLine h
  | payable request =>
    rcases commit_cases (request.run caller) db with heq | ⟨d, h⟩
    · rw [costStep, step, heq]
      exact ⟨hdb, .refl NotBack.refl _⟩
    · cases request with
      | recordPayable a => exact hdb.recordPayable h
      | verifyPayable a => exact hdb.verifyPayable h
      | approvePayable a => exact hdb.approvePayable h
      | recordPayment a => exact hdb.recordPayment h

end Runs

end Requests

theorem NoBills.coupled {db : Database} (h : NoBills db) : Coupled db where
  approved p hp := absurd hp (h.1 p)
  line_of l hl := absurd hl (h.2 l)
  line_cost l hl := absurd hl (h.2 l)
  ahead l hl := absurd hl (h.2 l)

/-- Cost lines never go back, and none is behind an approved or paid bill it is linked to. -/
theorem cost_lines_follow_bills [Text] [Arithmetic] {db s t : Database} (hdb : NoBills db)
    (hs : Reaches costStep Always db s) (ht : Reaches costStep Always s t) :
    s.costLines.Follows (fun c c' => c.status.rank ≤ c'.status.rank) t.costLines ∧
      ∀ l ∈ t.payableLines, ∀ p ∈ t.payables, p.id = l.payableId →
        ∀ c ∈ t.costLines, l.costLineId = some c.id →
          (p.approvalStatus = .approved → c.status = .approved ∨ c.status = .paid) ∧
            (p.status = .paid → c.status = .paid) := by
  have hstep : ∀ (u : Database) i, Coupled u → Always u i → Coupled (costStep u i) :=
    fun u i hu _ => (costStep_coupled hu).1
  have hcoupled : Coupled s := hs.invariant Coupled hstep hdb.coupled
  refine ⟨?_, ?_⟩
  · refine ht.preorder (fun u v => u.costLines.Follows NotBack v.costLines) Coupled
      (fun _ => .refl NotBack.refl _) (fun _ _ _ h h' => h.trans NotBack.trans h') hstep ?_ hcoupled
    exact fun u i hu _ => (costStep_coupled hu).2
  · intro l hl p hp hpl c hc hlink
    have hahead := (ht.invariant Coupled hstep hcoupled).ahead l hl p hp hpl c hc hlink
    constructor
    · intro happ
      exact three_le_rank_iff.mp ((three_le_reached happ).trans hahead)
    · intro hpaid
      rw [reached_of_paid hpaid] at hahead
      exact four_le_rank_iff.mp hahead

section Example
open Verbatim Doubles

/-- Two bills that share a cost line, the first of them paid before the second is verified. -/
def sharedLine : List (Caller × CostRequest) :=
  [(clerk, .addCostLine ⟨1, "OFR", 100, "USD", none, none, false, none, 1, none, none, "ACCRUED"⟩),
    (clerk, .payable (.recordPayable (billOf "B-1" "OFR" 100))),
    (clerk, .payable (.recordPayable (billOf "B-2" "OFR" 100))),
    (clerk, .payable (.verifyPayable ⟨0, false, none⟩)),
    (clerk, .payable (.approvePayable ⟨0, none⟩)),
    (clerk, .payable (.recordPayment (paymentOf 0 100 none))),
    (clerk, .payable (.verifyPayable ⟨1, false, none⟩))]

theorem cost_lines_follow_bills_sharedLine :
    shipped.costLines.Follows (fun c c' => c.status.rank ≤ c'.status.rank)
        (sharedLine.foldl costStep shipped).costLines ∧
      ∀ l ∈ (sharedLine.foldl costStep shipped).payableLines,
        ∀ p ∈ (sharedLine.foldl costStep shipped).payables, p.id = l.payableId →
        ∀ c ∈ (sharedLine.foldl costStep shipped).costLines, l.costLineId = some c.id →
          (p.approvalStatus = .approved → c.status = .approved ∨ c.status = .paid) ∧
            (p.status = .paid → c.status = .paid) :=
  cost_lines_follow_bills ⟨fun _ => Table.not_mem_empty _, fun _ => Table.not_mem_empty _⟩ .refl
    (reaches_foldl costStep shipped sharedLine)

example : (sharedLine.foldl costStep shipped).costLines.rows.map (·.status) = [.paid] ∧
    (sharedLine.foldl costStep shipped).payables.rows.map (·.status) = [.paid, .verified] := by
  decide +kernel

end Example

end Payables

end Friet
