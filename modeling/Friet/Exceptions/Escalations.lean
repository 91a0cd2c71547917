import Friet.Exceptions.Service

/-!
# Escalations of an exception: `evaluate_exception_escalations`

Five rules, each by itself. The first three wait for time to pass since the exception
was opened, and only those publish an event.
-/

set_option autoImplicit false

namespace Friet.Exceptions

/-- How a reason writes hours and amounts. -/
class EscalationText where
  hoursStr : ℚ → String
  amountStr : ℚ → String

export EscalationText (hoursStr amountStr)

/-- `ExceptionTypeConfig.resolution_sla_hours`. -/
def resolutionSlaHours : String → Option ℚ
  | "SHIPMENT_DELAY" => some 12
  | "VESSEL_ROLL" => some 8
  | "CARGO_HOLD" => some 12
  | "CUSTOMS_HOLD" => some 6
  | "MISSING_DOCUMENT" => some 8
  | "DGR_ISSUE" => some 4
  | "CARGO_DAMAGE" => some 12
  | "CARGO_LOSS" => some 8
  | "SHORT_SHIPMENT" => some 12
  | "WRONG_DELIVERY" => some 4
  | "RETURNED_TO_SHIPPER" => some 24
  | "SECURITY_HOLD" => some 6
  | "WEATHER_DELAY" => some 24
  | "EQUIPMENT_FAILURE" => some 4
  | _ => none

/-- An exception, as the rules are given it. -/
structure EscalatedException where
  exceptionType : String
  severity : Severity
  status : ExceptionStatus
  ownerId : Option Uuid
  financialImpactEstimated : ℚ
  openedAt : Timestamp
  acknowledgedAt : Option Timestamp

structure Escalation where
  ruleId : String
  escalationTarget : String
  reason : String
  outboxEvent : Option String
  severity : Severity
  deriving DecidableEq

/-- `now - opened_at` in hours; the clock counts microseconds. -/
def EscalatedException.elapsed (e : EscalatedException) (now : Timestamp) : ℚ :=
  ((now : ℚ) - e.openedAt) / 3600000000

def EscalatedException.isOpen (e : EscalatedException) : Bool :=
  e.status ≠ .resolved ∧ e.status ≠ .closed

def EscalatedException.slaHours (e : EscalatedException) : ℚ :=
  (resolutionSlaHours e.exceptionType).getD 24

section Rules
variable [Text] [EscalationText] (e : EscalatedException) (now : Timestamp)

def unacknowledged : Option Escalation :=
  if e.isOpen = true ∧ e.acknowledgedAt = none ∧ 1 < e.elapsed now then
    some
      { ruleId := "RULE_1_UNACKNOWLEDGED_1H"
        escalationTarget := "TEAM_LEAD"
        reason := s!"Exception not acknowledged within 1 hour (elapsed: {hoursStr (e.elapsed now)}h)"
        outboxEvent := some "sla.breach"
        severity := .warning }
  else none

def unassigned : Option Escalation :=
  if e.isOpen = true ∧ e.ownerId = none ∧ 2 < e.elapsed now then
    some
      { ruleId := "RULE_2_UNASSIGNED_2H"
        escalationTarget := "DEPARTMENT_MANAGER"
        reason := s!"Exception unassigned after 2 hours (elapsed: {hoursStr (e.elapsed now)}h)"
        outboxEvent := none
        severity := .warning }
  else none

def slaBreached : Option Escalation :=
  if e.isOpen = true ∧ e.slaHours < e.elapsed now then
    some
      { ruleId := "RULE_3_SLA_BREACHED"
        escalationTarget := "OPERATIONS_MANAGER"
        reason := s!"Resolution SLA of {floatStr e.slaHours}h breached (elapsed: {hoursStr (e.elapsed now)}h)"
        outboxEvent := some "customer.notification"
        severity := .critical }
  else none

def criticalUnresolved : Option Escalation :=
  if e.isOpen = true ∧ e.severity = .critical then
    some
      { ruleId := "RULE_4_CRITICAL_UNRESOLVED"
        escalationTarget := "BRANCH_HEAD"
        reason := "Critical severity exception requires executive attention from Branch Head"
        outboxEvent := none
        severity := .critical }
  else none

def highFinancialImpact (financialThreshold : ℚ) : Option Escalation :=
  if financialThreshold < e.financialImpactEstimated then
    some
      { ruleId := "RULE_5_HIGH_FINANCIAL_IMPACT"
        escalationTarget := "FINANCE_CONTROLLER"
        reason := s!"Estimated financial impact (${amountStr e.financialImpactEstimated}) exceeds notification threshold (${amountStr financialThreshold})"
        outboxEvent := none
        severity := if e.financialImpactEstimated < 25000 then .warning else .critical }
  else none

def evaluateExceptionEscalations (financialThreshold : ℚ := 5000) : List Escalation :=
  [unacknowledged e now, unassigned e now, slaBreached e now, criticalUnresolved e,
    highFinancialImpact e financialThreshold].filterMap id

end Rules

theorem slaHours_pos (e : EscalatedException) : 0 < e.slaHours := by
  unfold EscalatedException.slaHours resolutionSlaHours
  split <;> norm_num

theorem outboxEvent_of_opened [Text] [EscalationText] {e : EscalatedException} {threshold : ℚ}
    {x : Escalation} (h : x ∈ evaluateExceptionEscalations e e.openedAt threshold) :
    x.outboxEvent = none := by
  have helapsed : e.elapsed e.openedAt = 0 := by
    unfold EscalatedException.elapsed
    rw [sub_self, zero_div]
  have hfirst : unacknowledged e e.openedAt = none :=
    if_neg fun h => absurd h.2.2 (by rw [helapsed]; norm_num)
  have hsecond : unassigned e e.openedAt = none :=
    if_neg fun h => absurd h.2.2 (by rw [helapsed]; norm_num)
  have hthird : slaBreached e e.openedAt = none :=
    if_neg fun h => absurd h.2 (by rw [helapsed]; exact (slaHours_pos e).le.not_gt)
  obtain ⟨o, ho, hx⟩ := List.mem_filterMap.mp h
  simp only [hfirst, hsecond, hthird, List.mem_cons, List.not_mem_nil, or_false] at ho
  rcases ho with rfl | rfl | rfl | rfl | rfl
  · cases hx
  · cases hx
  · cases hx
  · obtain ⟨-, heq⟩ := Option.ite_none_right_eq_some.mp hx
    cases heq
    rfl
  · obtain ⟨-, heq⟩ := Option.ite_none_right_eq_some.mp hx
    cases heq
    rfl

end Friet.Exceptions

namespace Friet.Verbatim

/-- Enough for runs whose reasons nobody reads. -/
scoped instance escalationText : Exceptions.EscalationText where
  hoursStr _ := ""
  amountStr _ := ""

end Friet.Verbatim
