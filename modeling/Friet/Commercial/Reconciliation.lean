import Friet.Commercial.Settlements
import Friet.Commercial.Steps

/-!
# Settlements, ledger and cost lines agree

What is settled and what is debited always agree. The cost lines agree with them as long as
nothing but dollars is settled, with agents that have a vendor.
-/

set_option autoImplicit false

namespace Friet.Commercial

open Session Rounding

/-- The settlements recorded for a shipment in a currency. -/
def settledTotal (db : SettlementDatabase) (shipmentId : Uuid) (currencyCode : String) : Money :=
  db.agentSettlements.sum
    (fun x => x.shipmentId = some shipmentId ∧ x.currencyCode = currencyCode) (·.settlementAmount)

/-- The ledger's debits of type `AGENT_SETTLEMENT`. -/
def debitedTotal (db : SettlementDatabase) (shipmentId : Uuid) (currencyCode : String) : Money :=
  db.financialEntries.sum
    (fun e => e.entryType = .agentSettlement ∧
      e.shipmentId = some shipmentId ∧ e.currencyCode = currencyCode) (·.debitAmount)

def costedTotal (db : SettlementDatabase) (shipmentId : Uuid) (currencyCode : String) : Money :=
  db.costLines.sum
    (fun c => c.shipmentId = shipmentId ∧ c.currencyCode = some currencyCode) (·.amount)

/-- Since the start as much has been settled as debited, and as the cost lines tell. -/
structure Reconciles (start db : SettlementDatabase) : Prop where
  debited : ∀ shipmentId currencyCode,
    settledTotal db shipmentId currencyCode - settledTotal start shipmentId currencyCode =
      debitedTotal db shipmentId currencyCode - debitedTotal start shipmentId currencyCode
  costed : ∀ shipmentId currencyCode,
    settledTotal db shipmentId currencyCode - settledTotal start shipmentId currencyCode =
      costedTotal db shipmentId currencyCode - costedTotal start shipmentId currencyCode

section Settled
variable [Text] {caller : Caller} {a : CalculateAgentSettlement} {agent : Agent}
  {start db db' : SettlementDatabase} {shipmentId : Uuid} {currencyCode : String}

/-- The agent is the tenant's, and the shipment is there if one is named. -/
structure Settles (caller : Caller) (a : CalculateAgentSettlement) (agent : Agent)
    (db : SettlementDatabase) : Prop where
  mem : agent ∈ db.agents
  id : parsed (some a.agentId) = some agent.id
  tenant : agent.tenantId = caller.tenantId
  shipment : shipmentKnown (parsed a.shipmentId) db

theorem run_calculateAgentSettlement_ok {d : SettlementDetail} :
    (calculateAgentSettlement caller a).run db = .ok d db' ↔
      ∃ agent, Settles caller a agent db ∧
        settlementDetail a agent.id (parsed a.shipmentId) (settlementTerms a agent.id db)
          db.financialEntries.freshKey db.agentSettlements.freshKey = d ∧
        settledTables caller a agent db = db' := by
  unfold calculateAgentSettlement
  simp only [run_orFail_bind_ok, run_get_bind_ok, run_failIf_bind_ok, run_modify_bind_ok,
    run_pure_ok, Table.findWhere_eq_some_iff, decide_eq_true_eq, not_not]
  constructor
  · rintro ⟨agentId, hparsed, agent, ⟨hmem, hid, htenant⟩, hshipment, hd, hdb⟩
    have hid : agent.id = agentId := hid
    exact ⟨agent, ⟨hmem, hid ▸ hparsed, htenant, hshipment⟩, hd, hdb⟩
  · rintro ⟨agent, h, hd, hdb⟩
    exact ⟨agent.id, h.id, agent, ⟨h.mem, rfl, h.tenant⟩, h.shipment, hd, hdb⟩

def settle (db : SettlementDatabase) (i : Caller × CalculateAgentSettlement) :
    SettlementDatabase := commit (calculateAgentSettlement i.1 i.2) db

def recorded (a : CalculateAgentSettlement) (agent : Agent) (db : SettlementDatabase) : Money :=
  column 4 (settlementAmount a.baseAmount (settlementTerms a agent.id db).rateApplied)

theorem settledTotal_settled : settledTotal (settledTables caller a agent db) shipmentId currencyCode =
    settledTotal db shipmentId currencyCode +
      if parsed a.shipmentId = some shipmentId ∧ a.currencyCode = currencyCode then
        recorded a agent db
      else 0 := by
  refine (Table.sum_insert _ _ _ _ _).trans (congrArg _ ?_)
  exact if_congr decide_eq_true_iff rfl rfl

theorem debitedTotal_settled : debitedTotal (settledTables caller a agent db) shipmentId currencyCode =
    debitedTotal db shipmentId currencyCode +
      if parsed a.shipmentId = some shipmentId ∧ a.currencyCode = currencyCode then
        recorded a agent db
      else 0 := by
  refine (Table.sum_insert _ _ _ _ _).trans (congrArg _ ?_)
  exact if_congr (decide_eq_true_iff.trans (and_iff_right rfl)) rfl rfl

theorem costedTotal_settled : costedTotal (settledTables caller a agent db) shipmentId currencyCode =
    costedTotal db shipmentId currencyCode +
      if parsed a.shipmentId = some shipmentId ∧ agent.vendorId ≠ none ∧ "USD" = currencyCode then
        recorded a agent db
      else 0 := by
  have hinsert : ∀ s v : Uuid, ((db.costLines.insert (settlementCostLine a s v
      (settlementTerms a agent.id db))).sum
        (fun c => c.shipmentId = shipmentId ∧ c.currencyCode = some currencyCode) (·.amount)) =
      costedTotal db shipmentId currencyCode +
        if s = shipmentId ∧ "USD" = currencyCode then recorded a agent db else 0 := by
    intro s v
    refine (Table.sum_insert _ _ _ _ _).trans (congrArg _ ?_)
    refine if_congr (decide_eq_true_iff.trans ?_) rfl rfl
    exact and_congr_right fun _ => Option.some_inj
  have hsettled : (settledTables caller a agent db).costLines = withCostLine a (parsed a.shipmentId)
    agent.vendorId (settlementTerms a agent.id db) db.costLines := rfl
  unfold costedTotal
  rw [hsettled]
  cases hshipment : parsed a.shipmentId with
  | none =>
    rw [if_neg fun h => Option.some_ne_none _ h.1.symm, add_zero]
    rfl
  | some s =>
    cases hvendor : agent.vendorId with
    | none =>
      rw [if_neg fun h => h.2.1 rfl, add_zero]
      rfl
    | some v =>
      refine (hinsert s v).trans (congrArg _ (if_congr ?_ rfl rfl))
      rw [Option.some_inj, and_iff_right (Option.some_ne_none v)]

omit [Text] in
theorem recorded_eq_zero_iff : recorded a agent db = 0 ↔
    |double (double a.baseAmount * (settlementTerms a agent.id db).rateApplied)| ≤ 1 / 20000 := by
  have hgrid : recorded a agent db =
      settlementAmount a.baseAmount (settlementTerms a agent.id db).rateApplied :=
    roundTo_of_onGrid nearestAway_nearest (roundTo_onGrid _ _ _)
  have hunit : (1 / 20000 : ℚ) = 1 / 2 / 10 ^ 4 := by norm_num
  rw [hgrid, hunit]
  exact roundTo_nearestEven_eq_zero_iff

/-- The call settles no shipment, or in dollars with a vendor, or nothing. -/
def KeepsBooks (db : SettlementDatabase) (i : Caller × CalculateAgentSettlement) : Prop :=
  ∀ agent, Settles i.1 i.2 agent db → parsed i.2.shipmentId = none ∨
    (agent.vendorId ≠ none ∧ i.2.currencyCode = "USD") ∨
      |double (double i.2.baseAmount * (settlementTerms i.2 agent.id db).rateApplied)| ≤ 1 / 20000

theorem reconciles_settled_iff (h : Reconciles start db) :
    Reconciles start (settledTables caller a agent db) ↔ parsed a.shipmentId = none ∨
      (agent.vendorId ≠ none ∧ a.currencyCode = "USD") ∨ recorded a agent db = 0 := by
  constructor
  · intro hafter
    cases hshipment : parsed a.shipmentId with
    | none => exact Or.inl rfl
    | some s =>
      -- Look at the shipment and the currency that the call has settled.
      have hbefore := h.costed s a.currencyCode
      have hcosted := hafter.costed s a.currencyCode
      rw [settledTotal_settled, costedTotal_settled, if_pos ⟨hshipment, rfl⟩] at hcosted
      by_cases hbooked : agent.vendorId ≠ none ∧ "USD" = a.currencyCode
      · exact Or.inr (Or.inl ⟨hbooked.1, hbooked.2.symm⟩)
      · rw [if_neg fun hall => hbooked hall.2] at hcosted
        exact Or.inr (Or.inr (by linarith))
  · intro hkept
    constructor
    · intro s c
      have hbefore := h.debited s c
      rw [settledTotal_settled, debitedTotal_settled]
      linarith
    · intro s c
      have hbefore := h.costed s c
      have hsame : (if parsed a.shipmentId = some s ∧ a.currencyCode = c then
          recorded a agent db else 0) = if parsed a.shipmentId = some s ∧ agent.vendorId ≠ none ∧
            "USD" = c then recorded a agent db else 0 := by
        rcases hkept with hnone | ⟨hvendor, hdollars⟩ | hzero
        · rw [hnone, if_neg (by simp), if_neg (by simp)]
        · rw [hdollars]
          exact if_congr (and_congr_right fun _ => (and_iff_right hvendor).symm) rfl rfl
        · rw [hzero, ite_self, ite_self]
      rw [settledTotal_settled, costedTotal_settled, hsame]
      linarith

theorem reconciles_settle_iff {i : Caller × CalculateAgentSettlement} (h : Reconciles start db) :
    Reconciles start (settle db i) ↔ KeepsBooks db i := by
  by_cases hsettles : ∃ agent, Settles i.1 i.2 agent db
  · obtain ⟨agent, hsettles⟩ := hsettles
    have hdb : settle db i = settledTables i.1 i.2 agent db :=
      commit_of_ok (run_calculateAgentSettlement_ok.mpr ⟨agent, hsettles, rfl, rfl⟩)
    rw [hdb, reconciles_settled_iff h, recorded_eq_zero_iff]
    constructor
    · intro hkept agent' hsettles'
      have hid : agent'.id = agent.id := Option.some.inj (hsettles'.id.symm.trans hsettles.id)
      rwa [Table.eq_of_key_eq hsettles'.mem hsettles.mem hid]
    · exact fun hkept => hkept agent hsettles
  · have hsame : settle db i = db := by
      rcases commit_cases (calculateAgentSettlement i.1 i.2) db with hsame | ⟨d, hok⟩
      · exact hsame
      · obtain ⟨agent, hok, -⟩ := run_calculateAgentSettlement_ok.mp hok
        exact absurd ⟨agent, hok⟩ hsettles
    rw [hsame]
    exact iff_of_true h fun agent hok => absurd ⟨agent, hok⟩ hsettles

/-- Settlements, debits and cost lines agree throughout a sequence of calls if and only if each
call keeps the books. -/
theorem reconciled_iff {is : List (Caller × CalculateAgentSettlement)} :
    (∀ made, made <+: is → Reconciles start (made.foldl settle start)) ↔
      Meets settle KeepsBooks start is := by
  refine forall_prefix_iff_meets (fun _ _ h => reconciles_settle_iff h) ⟨?_, ?_⟩
  · exact fun _ _ => by rw [sub_self, sub_self]
  · exact fun _ _ => by rw [sub_self, sub_self]

end Settled

section Verbatim
open Friet.Verbatim Verbatim

/-- An agent with a vendor, and an agreement on a rate of two for the year. -/
def agreed : SettlementDatabase where
  toCommercialDatabase := { lane (freight 2) with shipments := Friet.Verbatim.shipped.shipments }
  agents := ⟨[⟨1, 1, some 1⟩], by decide⟩
  agentRateAgreements := ⟨[⟨1, 1, 1, ⟨2026, 1, 1⟩, ⟨2026, 12, 31⟩⟩], by decide⟩
  agentSettlements := .empty

def settlementIn (currencyCode : String) : Caller × CalculateAgentSettlement :=
  (clerk, {
    agentId := "1", shipmentId := some "1", baseAmount := 100, currencyCode
    settlementDate := ⟨2026, 1, 15⟩, calculatedBy := none, notes := none
    agreementOrder := .stored, versionOrder := .stored, lineOrder := .stored })

/-- Two hundred euros are settled and debited, and two hundred dollars are a cost. -/
theorem euros_cost_dollars :
    settledTotal (settle agreed (settlementIn "EUR")) 1 "EUR" = 200 ∧
    debitedTotal (settle agreed (settlementIn "EUR")) 1 "EUR" = 200 ∧
    costedTotal (settle agreed (settlementIn "EUR")) 1 "EUR" = 0 ∧
    costedTotal (settle agreed (settlementIn "EUR")) 1 "USD" = 200 ∧
    (∀ g ∈ agreed.agents, g.vendorId ≠ none) ∧
    ¬ (∀ made, made <+: [settlementIn "EUR"] → Reconciles agreed (made.foldl settle agreed)) := by
  have hsettled : settledTotal (settle agreed (settlementIn "EUR")) 1 "EUR" -
      settledTotal agreed 1 "EUR" = 200 := by decide +kernel
  have hcosted : costedTotal (settle agreed (settlementIn "EUR")) 1 "EUR" -
      costedTotal agreed 1 "EUR" = 0 := by decide +kernel
  refine ⟨by decide +kernel, by decide +kernel, by decide +kernel, by decide +kernel,
    by decide, fun h => ?_⟩
  have hequal := (h [settlementIn "EUR"] List.prefix_rfl).costed 1 "EUR"
  rw [List.foldl_cons, List.foldl_nil, hsettled, hcosted] at hequal
  exact absurd hequal (by decide)

end Verbatim

end Friet.Commercial
