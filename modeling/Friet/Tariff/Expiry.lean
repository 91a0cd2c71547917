import Friet.Calendar
import Friet.Lib.Run
import Friet.Lib.Tally
import Friet.Tariff.Entities

/-!
# The daily check of expiry: `RateExpiryService`

The check goes once over the rates that are active, takes those of the past out of use,
and raises at most one alert for each.
-/

set_option autoImplicit false

namespace Friet.Tariff

inductive AlertLevel where
  | sevenDayWarning
  | threeDayEscalation
  | expired
  deriving DecidableEq

structure RateExpiryAlert where
  rateId : Uuid
  rateNumber : String
  carrierId : String
  originId : String
  destinationId : String
  expiryDate : Date
  daysUntilExpiry : ℤ
  alertLevel : AlertLevel
  message : String
  deriving DecidableEq

structure RateExpiryCheckReport where
  referenceDate : Date
  totalActiveChecked : ℕ
  warning7DayCount : ℕ
  escalation3DayCount : ℕ
  expiredCount : ℕ
  alerts : List RateExpiryAlert
  autoExpiredRateIds : List Uuid
  deriving DecidableEq

/-- The payload of `rate.expiry_check_completed`. -/
structure ExpiryCheckCompleted where
  referenceDate : Date
  totalAlerts : ℕ
  autoExpiredCount : ℕ
  deriving DecidableEq

/-- The repository, and what the loop has gathered. -/
structure ExpiryProgress where
  rates : Table Rate
  alerts : List RateExpiryAlert
  autoExpiredIds : List Uuid
  warn7Count : ℕ
  esc3Count : ℕ
  expiredCount : ℕ

def expiryProgress (rates : Table Rate) : ExpiryProgress := ⟨rates, [], [], 0, 0, 0⟩

def Rate.expire (r : Rate) : Rate := { r with status := .expired }

theorem expire_expire (r : Rate) : r.expire.expire = r.expire := rfl

theorem keepsKey_expire : KeepsKey Rate.expire := ⟨fun _ => rfl⟩

section Check
variable [Text]

def Rate.expiryAlert (referenceDate : Date) (alertLevel : AlertLevel) (message : String)
    (r : Rate) : RateExpiryAlert where
  rateId := r.id
  rateNumber := r.rateNumber
  carrierId := r.carrierVendorId
  originId := r.originLocationId
  destinationId := r.destinationLocationId
  expiryDate := r.expiryDate
  daysUntilExpiry := r.expiryDate.daysSince referenceDate
  alertLevel := alertLevel
  message := message

def expiredAlert (referenceDate : Date) (r : Rate) : RateExpiryAlert :=
  r.expiryAlert referenceDate .expired
    s!"Rate {r.rateNumber} expired on {dateStr r.expiryDate} and was auto-transitioned to EXPIRED"

def escalationAlert (referenceDate : Date) (r : Rate) : RateExpiryAlert :=
  r.expiryAlert referenceDate .threeDayEscalation
    s!"ESCALATION: Rate {r.rateNumber} expires in {r.expiryDate.daysSince referenceDate} days ({dateStr r.expiryDate})"

def warningAlert (referenceDate : Date) (r : Rate) : RateExpiryAlert :=
  r.expiryAlert referenceDate .sevenDayWarning
    s!"WARNING: Rate {r.rateNumber} expires in {r.expiryDate.daysSince referenceDate} days ({dateStr r.expiryDate})"

/-- The body of the loop; the object that is changed is the one that is stored. -/
def checkRate (referenceDate : Date) (p : ExpiryProgress) (rate : Rate) : ExpiryProgress :=
  let daysLeft := rate.expiryDate.daysSince referenceDate
  if daysLeft < 0 then
    { p with
      rates := p.rates.update rate.id Rate.expire keepsKey_expire
      autoExpiredIds := p.autoExpiredIds ++ [rate.id]
      expiredCount := p.expiredCount + 1
      alerts := p.alerts ++ [expiredAlert referenceDate rate] }
  else if daysLeft ≤ 3 then
    { p with
      esc3Count := p.esc3Count + 1
      alerts := p.alerts ++ [escalationAlert referenceDate rate] }
  else if daysLeft ≤ 7 then
    { p with
      warn7Count := p.warn7Count + 1
      alerts := p.alerts ++ [warningAlert referenceDate rate] }
  else p

def activeRates (rates : Table Rate) : List Rate := rates.rows.filter (·.status = .active)

/-- What a run reports, what it publishes, and the rates that it leaves. -/
structure ExpiryRun where
  report : RateExpiryCheckReport
  published : Option ExpiryCheckCompleted
  rates : Table Rate

def runDailyExpiryCheck (hasPublisher : Bool) (referenceDate : Date) (rates : Table Rate) :
    ExpiryRun :=
  let active := activeRates rates
  let p := active.foldl (checkRate referenceDate) (expiryProgress rates)
  { report := {
      referenceDate := referenceDate
      totalActiveChecked := active.length
      warning7DayCount := p.warn7Count
      escalation3DayCount := p.esc3Count
      expiredCount := p.expiredCount
      alerts := p.alerts
      autoExpiredRateIds := p.autoExpiredIds }
    published :=
      if hasPublisher ∧ (p.alerts ≠ [] ∨ p.autoExpiredIds ≠ []) then
        some ⟨referenceDate, p.alerts.length, p.autoExpiredIds.length⟩
      else none
    rates := p.rates }

end Check

def Overdue (referenceDate : Date) (r : Rate) : Prop := r.expiryDate.daysSince referenceDate < 0

instance (referenceDate : Date) (r : Rate) : Decidable (Overdue referenceDate r) :=
  inferInstanceAs (Decidable (_ < _))

def overdueIds (referenceDate : Date) (l : List Rate) : List Uuid :=
  (l.filter (Overdue referenceDate ·)).map Rate.id

def alertsOf (level : AlertLevel) (alerts : List RateExpiryAlert) : List RateExpiryAlert :=
  alerts.filter (·.alertLevel = level)

theorem count_append {alerts : List RateExpiryAlert} {level : AlertLevel} {count : ℕ}
    (h : count = (alertsOf level alerts).length) (alert : RateExpiryAlert) :
    count + (if alert.alertLevel = level then 1 else 0) =
      (alertsOf level (alerts ++ [alert])).length := by
  unfold alertsOf at h ⊢
  rw [List.filter_append, List.length_append, ← h, List.filter_singleton]
  by_cases hlevel : alert.alertLevel = level <;> simp [hlevel]

section Loop
variable [Text] {referenceDate : Date} {rates : Table Rate} {r : Rate} {alert : RateExpiryAlert}

def Rate.dueAlert (referenceDate : Date) (r : Rate) : Option RateExpiryAlert :=
  let daysLeft := r.expiryDate.daysSince referenceDate
  if daysLeft < 0 then some (expiredAlert referenceDate r)
  else if daysLeft ≤ 3 then some (escalationAlert referenceDate r)
  else if daysLeft ≤ 7 then some (warningAlert referenceDate r)
  else none

/-- What an alert says of its rate; the levels divide the days up to the seventh. -/
structure AlertsTo (referenceDate : Date) (r : Rate) (alert : RateExpiryAlert) : Prop where
  rate : alert.rateId = r.id
  days : alert.daysUntilExpiry = r.expiryDate.daysSince referenceDate
  expired : alert.alertLevel = .expired ↔ alert.daysUntilExpiry < 0
  escalation : alert.alertLevel = .threeDayEscalation ↔
    0 ≤ alert.daysUntilExpiry ∧ alert.daysUntilExpiry ≤ 3
  warning : alert.alertLevel = .sevenDayWarning ↔
    4 ≤ alert.daysUntilExpiry ∧ alert.daysUntilExpiry ≤ 7

theorem alertsTo_of_dueAlert (h : r.dueAlert referenceDate = some alert) :
    AlertsTo referenceDate r alert := by
  unfold Rate.dueAlert at h
  dsimp only at h
  split_ifs at h with hexpired hescalation hwarning <;> obtain rfl := Option.some.inj h
  · refine ⟨rfl, rfl, ?_, ?_, ?_⟩ <;> simp [expiredAlert, Rate.expiryAlert] <;> omega
  · refine ⟨rfl, rfl, ?_, ?_, ?_⟩ <;> simp [escalationAlert, Rate.expiryAlert] <;> omega
  · refine ⟨rfl, rfl, ?_, ?_, ?_⟩ <;> simp [warningAlert, Rate.expiryAlert] <;> omega

theorem dueAlert_isSome_iff :
    (r.dueAlert referenceDate).isSome ↔ r.expiryDate.daysSince referenceDate ≤ 7 := by
  unfold Rate.dueAlert
  dsimp only
  split_ifs <;> simp <;> omega

/-- Counters, lists and repository are in step. -/
structure InStep (referenceDate : Date) (rates : Table Rate) (checked : List Rate)
    (p : ExpiryProgress) : Prop where
  rates : p.rates = (overdueIds referenceDate checked).foldl
    (fun t id => t.update id Rate.expire keepsKey_expire) rates
  alerts : p.alerts = checked.filterMap (Rate.dueAlert referenceDate)
  autoExpiredIds : p.autoExpiredIds = overdueIds referenceDate checked
  warn7Count : p.warn7Count = (alertsOf .sevenDayWarning p.alerts).length
  esc3Count : p.esc3Count = (alertsOf .threeDayEscalation p.alerts).length
  expiredCount : p.expiredCount = (alertsOf .expired p.alerts).length

theorem inStep_nil : InStep referenceDate rates [] (expiryProgress rates) :=
  ⟨rfl, rfl, rfl, rfl, rfl, rfl⟩

omit [Text] in
theorem overdueIds_append_of_overdue {checked : List Rate} (h : Overdue referenceDate r) :
    overdueIds referenceDate (checked ++ [r]) = overdueIds referenceDate checked ++ [r.id] := by
  have hr : [r].filter (Overdue referenceDate ·) = [r] :=
    List.filter_cons_of_pos (decide_eq_true h)
  unfold overdueIds
  rw [List.filter_append, List.map_append, hr, List.map_singleton]

omit [Text] in
theorem overdueIds_append_of_not {checked : List Rate} (h : ¬ Overdue referenceDate r) :
    overdueIds referenceDate (checked ++ [r]) = overdueIds referenceDate checked := by
  have hr : [r].filter (Overdue referenceDate ·) = [] :=
    List.filter_cons_of_neg (by simpa using h)
  unfold overdueIds
  rw [List.filter_append, hr, List.append_nil]

theorem dueAlerts_append {checked : List Rate} (h : r.dueAlert referenceDate = some alert) :
    (checked ++ [r]).filterMap (Rate.dueAlert referenceDate) =
      checked.filterMap (Rate.dueAlert referenceDate) ++ [alert] := by
  rw [List.filterMap_append, List.filterMap_cons_some h, List.filterMap_nil]

section Step
variable {checked : List Rate} {p : ExpiryProgress}

theorem InStep.overdue (h : InStep referenceDate rates checked p) (hr : Overdue referenceDate r) :
    InStep referenceDate rates (checked ++ [r]) { p with
      rates := p.rates.update r.id Rate.expire keepsKey_expire
      autoExpiredIds := p.autoExpiredIds ++ [r.id]
      expiredCount := p.expiredCount + 1
      alerts := p.alerts ++ [expiredAlert referenceDate r] } where
  rates := by
    rw [overdueIds_append_of_overdue hr, List.foldl_append, ← h.rates]
    rfl
  alerts := by rw [dueAlerts_append (if_pos hr), ← h.alerts]
  autoExpiredIds := by rw [overdueIds_append_of_overdue hr, ← h.autoExpiredIds]
  warn7Count := count_append h.warn7Count (expiredAlert referenceDate r)
  esc3Count := count_append h.esc3Count (expiredAlert referenceDate r)
  expiredCount := count_append h.expiredCount (expiredAlert referenceDate r)

/-- The rate stays in use, and its alert counts for its own level. -/
theorem InStep.alerted (h : InStep referenceDate rates checked p)
    (hr : ¬ Overdue referenceDate r) (halert : r.dueAlert referenceDate = some alert) :
    InStep referenceDate rates (checked ++ [r]) { p with
      warn7Count := p.warn7Count + if alert.alertLevel = .sevenDayWarning then 1 else 0
      esc3Count := p.esc3Count + if alert.alertLevel = .threeDayEscalation then 1 else 0
      alerts := p.alerts ++ [alert] } where
  rates := by rw [overdueIds_append_of_not hr, ← h.rates]
  alerts := by rw [dueAlerts_append halert, ← h.alerts]
  autoExpiredIds := by rw [overdueIds_append_of_not hr, ← h.autoExpiredIds]
  warn7Count := count_append h.warn7Count alert
  esc3Count := count_append h.esc3Count alert
  expiredCount := by
    have hto := alertsTo_of_dueAlert halert
    have hlevel : alert.alertLevel ≠ .expired := by
      rw [Ne, hto.expired, hto.days]
      exact hr
    have hcount := count_append h.expiredCount alert
    rwa [if_neg hlevel] at hcount

theorem InStep.passed (h : InStep referenceDate rates checked p)
    (hr : ¬ Overdue referenceDate r) (halert : r.dueAlert referenceDate = none) :
    InStep referenceDate rates (checked ++ [r]) p where
  rates := by rw [overdueIds_append_of_not hr, ← h.rates]
  alerts := by
    rw [List.filterMap_append, List.filterMap_cons_none halert, List.filterMap_nil,
      List.append_nil, ← h.alerts]
  autoExpiredIds := by rw [overdueIds_append_of_not hr, ← h.autoExpiredIds]
  warn7Count := h.warn7Count
  esc3Count := h.esc3Count
  expiredCount := h.expiredCount

theorem inStep_checkRate (h : InStep referenceDate rates checked p) (r : Rate) :
    InStep referenceDate rates (checked ++ [r]) (checkRate referenceDate p r) := by
  unfold checkRate
  dsimp only
  split_ifs with hexpired hescalation hwarning
  · exact h.overdue hexpired
  · exact h.alerted hexpired ((if_neg hexpired).trans (if_pos hescalation))
  · apply h.alerted hexpired
    exact (if_neg hexpired).trans ((if_neg hescalation).trans (if_pos hwarning))
  · apply h.passed hexpired
    exact (if_neg hexpired).trans ((if_neg hescalation).trans (if_neg hwarning))

end Step

theorem inStep_foldl (checked : List Rate) : InStep referenceDate rates checked
    (checked.foldl (checkRate referenceDate) (expiryProgress rates)) :=
  foldl_passed (InStep referenceDate rates) (fun _ _ r h => inStep_checkRate h r) inStep_nil

end Loop

section Run
variable [Text] {hasPublisher : Bool} {referenceDate : Date} {rates : Table Rate} {r : Rate}

/-- A rate in use raises one alert from its seventh day on, and no other rate raises one. -/
structure AlertsOnce (referenceDate : Date) (rates : Table Rate)
    (alerts : List RateExpiryAlert) : Prop where
  due : ∀ r ∈ rates, r.status = .active → r.expiryDate.daysSince referenceDate ≤ 7 →
    ∃ alert, alerts.filter (·.rateId = r.id) = [alert] ∧ AlertsTo referenceDate r alert
  silent : ∀ r ∈ rates, ¬ (r.status = .active ∧ r.expiryDate.daysSince referenceDate ≤ 7) →
    alerts.filter (·.rateId = r.id) = []
  known : ∀ alert ∈ alerts, ∃ r ∈ rates, alert.rateId = r.id

structure ExpiryChecked (referenceDate : Date) (rates : Table Rate) (run : ExpiryRun) : Prop where
  noneOverdue : ∀ r ∈ run.rates, r.status = .active → referenceDate ≤ r.expiryDate
  onlyOverdue : run.rates.rows = rates.rows.map fun r =>
    if r.status = .active ∧ ¬ referenceDate ≤ r.expiryDate then r.expire else r
  alerts : AlertsOnce referenceDate rates run.report.alerts
  checked : run.report.totalActiveChecked = (activeRates rates).length
  warnings : run.report.warning7DayCount = (alertsOf .sevenDayWarning run.report.alerts).length
  escalations :
    run.report.escalation3DayCount = (alertsOf .threeDayEscalation run.report.alerts).length
  expirations : run.report.expiredCount = (alertsOf .expired run.report.alerts).length
  expiredIds : run.report.autoExpiredRateIds = (alertsOf .expired run.report.alerts).map (·.rateId)

structure OnlyRepeats (run again : ExpiryRun) : Prop where
  rates : again.rates = run.rates
  expiredCount : again.report.expiredCount = 0
  expiredIds : again.report.autoExpiredRateIds = []
  alerts : again.report.alerts = run.report.alerts.filter (·.alertLevel ≠ .expired)

theorem inStep_runDailyExpiryCheck : InStep referenceDate rates (activeRates rates)
    ((activeRates rates).foldl (checkRate referenceDate) (expiryProgress rates)) :=
  inStep_foldl (activeRates rates)

theorem alerts_runDailyExpiryCheck :
    (runDailyExpiryCheck hasPublisher referenceDate rates).report.alerts =
      (activeRates rates).filterMap (Rate.dueAlert referenceDate) :=
  inStep_runDailyExpiryCheck.alerts

theorem rates_runDailyExpiryCheck :
    (runDailyExpiryCheck hasPublisher referenceDate rates).rates =
      rates.updateWhere (fun r => key r ∈ overdueIds referenceDate (activeRates rates)) Rate.expire
        keepsKey_expire :=
  inStep_runDailyExpiryCheck.rates.trans (Table.foldl_update expire_expire _)

omit [Text] in
theorem mem_activeRates : r ∈ activeRates rates ↔ r ∈ rates ∧ r.status = .active := by
  unfold activeRates
  rw [List.mem_filter, decide_eq_true_eq]
  rfl

omit [Text] in
theorem mem_overdueIds (hr : r ∈ rates) :
    key r ∈ overdueIds referenceDate (activeRates rates) ↔
      r.status = .active ∧ Overdue referenceDate r := by
  unfold overdueIds
  simp only [List.mem_map, List.mem_filter, mem_activeRates, decide_eq_true_eq]
  constructor
  · rintro ⟨s, ⟨⟨hs, hactive⟩, hover⟩, hkey⟩
    obtain rfl := Table.eq_of_key_eq hs hr hkey
    exact ⟨hactive, hover⟩
  · rintro ⟨hactive, hover⟩
    exact ⟨r, ⟨⟨hr, hactive⟩, hover⟩, rfl⟩

theorem rows_runDailyExpiryCheck :
    (runDailyExpiryCheck hasPublisher referenceDate rates).rates.rows = rates.rows.map fun r =>
      if r.status = .active ∧ Overdue referenceDate r then r.expire else r := by
  rw [rates_runDailyExpiryCheck, Table.rows_updateWhere]
  refine List.map_congr_left fun r hr => ?_
  simp only [decide_eq_true_eq, mem_overdueIds hr]

theorem alerts_filter_rateId (hr : r ∈ rates) :
    (runDailyExpiryCheck hasPublisher referenceDate rates).report.alerts.filter
        (·.rateId = r.id) =
      if r.status = .active then (r.dueAlert referenceDate).toList else [] := by
  have hrate : ∀ s alert, Rate.dueAlert referenceDate s = some alert →
      decide (alert.rateId = r.id) = decide (s.id = r.id) := by
    intro s alert halert
    rw [(alertsTo_of_dueAlert halert).rate]
  rw [alerts_runDailyExpiryCheck, Tally.filter_filterMap_of_forall hrate]
  unfold activeRates
  rw [List.filter_filter]
  split_ifs with hactive
  · have hone : (rates.rows.filter fun s => decide (s.id = r.id) && decide (s.status = .active)) =
        [r] := by
      apply Table.filter_eq_singleton hr (by simp [hactive])
      intro s hs hkey
      simp only [Bool.and_eq_true, decide_eq_true_eq] at hkey
      exact Table.eq_of_key_eq hs hr hkey.1
    rw [hone]
    cases h : r.dueAlert referenceDate <;> simp [h]
  · have hnone : (rates.rows.filter fun s => decide (s.id = r.id) && decide (s.status = .active)) =
        [] := by
      rw [List.filter_eq_nil_iff]
      intro s hs hkey
      simp only [Bool.and_eq_true, decide_eq_true_eq] at hkey
      obtain rfl := Table.eq_of_key_eq hs hr hkey.1
      exact hactive hkey.2
    rw [hnone, List.filterMap_nil]

theorem alertsOnce_runDailyExpiryCheck : AlertsOnce referenceDate rates
    (runDailyExpiryCheck hasPublisher referenceDate rates).report.alerts where
  due r hr hactive hdays := by
    obtain ⟨alert, halert⟩ := Option.isSome_iff_exists.mp (dueAlert_isSome_iff.mpr hdays)
    refine ⟨alert, ?_, alertsTo_of_dueAlert halert⟩
    rw [alerts_filter_rateId hr, if_pos hactive, halert, Option.toList_some]
  silent r hr hnot := by
    rw [alerts_filter_rateId hr]
    split_ifs with hactive
    · have hnone : r.dueAlert referenceDate = none := by
        rw [← Option.not_isSome_iff_eq_none, dueAlert_isSome_iff]
        exact fun hdays => hnot ⟨hactive, hdays⟩
      rw [hnone, Option.toList_none]
    · rfl
  known alert halert := by
    rw [alerts_runDailyExpiryCheck, List.mem_filterMap] at halert
    obtain ⟨r, hr, halert⟩ := halert
    exact ⟨r, (mem_activeRates.mp hr).1, (alertsTo_of_dueAlert halert).rate⟩

theorem alertsOf_expired (l : List Rate) :
    alertsOf .expired (l.filterMap (Rate.dueAlert referenceDate)) =
      (l.filter (Overdue referenceDate ·)).map (expiredAlert referenceDate) := by
  have hlevel : ∀ r alert, Rate.dueAlert referenceDate r = some alert →
      decide (alert.alertLevel = .expired) = decide (Overdue referenceDate r) := by
    intro r alert halert
    have hto := alertsTo_of_dueAlert halert
    rw [decide_eq_decide, hto.expired, hto.days]
    rfl
  unfold alertsOf
  rw [Tally.filter_filterMap_of_forall hlevel, ← List.filterMap_eq_map]
  apply List.filterMap_congr
  intro r hr
  exact if_pos (of_decide_eq_true (List.mem_filter.mp hr).2)

theorem alertsOf_not_expired (l : List Rate) :
    (l.filterMap (Rate.dueAlert referenceDate)).filter (·.alertLevel ≠ .expired) =
      (l.filter (¬ Overdue referenceDate ·)).filterMap (Rate.dueAlert referenceDate) := by
  apply Tally.filter_filterMap_of_forall
  intro r alert halert
  have hto := alertsTo_of_dueAlert halert
  rw [decide_eq_decide, Ne, hto.expired, hto.days]
  rfl

theorem expiryChecked_runDailyExpiryCheck (hdate : referenceDate.OfCalendar)
    (hrates : ∀ r ∈ rates, r.expiryDate.OfCalendar) :
    ExpiryChecked referenceDate rates (runDailyExpiryCheck hasPublisher referenceDate rates) := by
  have hrows : (runDailyExpiryCheck hasPublisher referenceDate rates).rates.rows =
      rates.rows.map fun r =>
        if r.status = .active ∧ ¬ referenceDate ≤ r.expiryDate then r.expire else r := by
    rw [rows_runDailyExpiryCheck]
    refine List.map_congr_left fun r hr => ?_
    simp only [Overdue, daysSince_neg_iff (hrates r hr) hdate]
  refine ⟨?_, hrows, alertsOnce_runDailyExpiryCheck, rfl, ?_, ?_, ?_, ?_⟩
  · intro r hr hactive
    rw [Table.mem_iff, hrows, List.mem_map] at hr
    obtain ⟨s, hs, rfl⟩ := hr
    split_ifs at hactive ⊢ with hover
    · cases hactive
    · by_contra hdate
      exact hover ⟨hactive, hdate⟩
  · exact inStep_runDailyExpiryCheck.warn7Count
  · exact inStep_runDailyExpiryCheck.esc3Count
  · exact inStep_runDailyExpiryCheck.expiredCount
  · rw [alerts_runDailyExpiryCheck, alertsOf_expired, List.map_map]
    exact inStep_runDailyExpiryCheck.autoExpiredIds

theorem activeRates_runDailyExpiryCheck :
    activeRates (runDailyExpiryCheck hasPublisher referenceDate rates).rates =
      (activeRates rates).filter (¬ Overdue referenceDate ·) := by
  unfold activeRates
  rw [rows_runDailyExpiryCheck]
  induction rates.rows with
  | nil => rfl
  | cons r l ih =>
    rw [List.map_cons]
    by_cases hactive : r.status = .active
    · by_cases hover : Overdue referenceDate r
      · simpa [hactive, hover, Rate.expire] using ih
      · simpa [hactive, hover] using ih
    · simpa [hactive] using ih

omit [Text] in
theorem overdueIds_filter_not (l : List Rate) :
    overdueIds referenceDate (l.filter (¬ Overdue referenceDate ·)) = [] := by
  unfold overdueIds
  rw [List.filter_filter, List.map_eq_nil_iff, List.filter_eq_nil_iff]
  intro r _ h
  simp at h

theorem onlyRepeats_runDailyExpiryCheck :
    OnlyRepeats (runDailyExpiryCheck hasPublisher referenceDate rates)
      (runDailyExpiryCheck hasPublisher referenceDate
        (runDailyExpiryCheck hasPublisher referenceDate rates).rates) := by
  have hids : overdueIds referenceDate
      (activeRates (runDailyExpiryCheck hasPublisher referenceDate rates).rates) = [] := by
    rw [activeRates_runDailyExpiryCheck]
    exact overdueIds_filter_not _
  refine ⟨?_, ?_, ?_, ?_⟩
  · refine rates_runDailyExpiryCheck.trans (Table.updateWhere_eq_self fun r _ hr => ?_)
    rw [hids] at hr
    simp at hr
  · refine inStep_runDailyExpiryCheck.expiredCount.trans ?_
    rw [inStep_runDailyExpiryCheck.alerts, alertsOf_expired, List.length_map]
    exact (List.length_map _).symm.trans (congrArg List.length hids)
  · exact inStep_runDailyExpiryCheck.autoExpiredIds.trans hids
  · rw [alerts_runDailyExpiryCheck, alerts_runDailyExpiryCheck, activeRates_runDailyExpiryCheck,
      alertsOf_not_expired]

/-- The check is exact, and another run on its day has nothing left to do. -/
theorem runDailyExpiryCheck_exact (hdate : referenceDate.OfCalendar)
    (hrates : ∀ r ∈ rates, r.expiryDate.OfCalendar) :
    ExpiryChecked referenceDate rates (runDailyExpiryCheck hasPublisher referenceDate rates) ∧
      OnlyRepeats (runDailyExpiryCheck hasPublisher referenceDate rates)
        (runDailyExpiryCheck hasPublisher referenceDate
          (runDailyExpiryCheck hasPublisher referenceDate rates).rates) :=
  ⟨expiryChecked_runDailyExpiryCheck hdate hrates, onlyRepeats_runDailyExpiryCheck⟩

end Run

/-- A rate that is good until a day. -/
def rateUntil (expiryDate : Date) (id : Uuid) : Rate where
  id := id
  rateNumber := "RATE-1"
  rateType := "BASE"
  rateCategory := .fak
  carrierVendorId := "MSC"
  serviceName := "Direct"
  originLocationId := "PKKHI"
  destinationLocationId := "AEJEA"
  effectiveDate := ⟨2026, 7, 1⟩
  expiryDate := expiryDate
  currencyCode := "USD"
  status := .active
  commodityId := none
  customerId := none
  versions := []

def ratesUntil : Table Rate :=
  ((Table.empty.insert (rateUntil ⟨2026, 7, 31⟩)).insert (rateUntil ⟨2026, 8, 4⟩)).insert
    (rateUntil ⟨2026, 8, 8⟩)

open Verbatim in
theorem runDailyExpiryCheck_august :
    let run := runDailyExpiryCheck true ⟨2026, 8, 1⟩ ratesUntil
    run.report.alerts.map (fun x => (x.rateId, x.alertLevel)) =
        [(0, .expired), (1, .threeDayEscalation), (2, .sevenDayWarning)] ∧
      ExpiryChecked ⟨2026, 8, 1⟩ ratesUntil run ∧
      OnlyRepeats run (runDailyExpiryCheck true ⟨2026, 8, 1⟩ run.rates) := by
  intro run
  have hrates : ∀ r ∈ ratesUntil.rows, r.expiryDate.OfCalendar := by decide +kernel
  exact ⟨by decide +kernel, runDailyExpiryCheck_exact (by decide) hrates⟩

end Friet.Tariff
