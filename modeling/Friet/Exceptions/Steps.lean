import Friet.Exceptions.Service

/-!
# What a request about an exception does
-/

set_option autoImplicit false

namespace Friet.Exceptions

open Session

section Create
variable [Text] {caller : Caller} {a : CreateException} {config : ExceptionTypeConfig}
  {severity : Severity} {e : ShipmentException} {db db' : Database}

/-- The type, the severity and the domain of the request are known. -/
structure Recognised (a : CreateException) (config : ExceptionTypeConfig) (severity : Severity) :
    Prop where
  type : resolveExceptionType a.exceptionType = some config
  severity : finalSeverity a config = .ok severity
  domain : finalDomain a config ∈ validDomains

omit [Text] in
theorem takesKey_exceptionRow {domain : String} :
    TakesKey (exceptionRow caller a config severity domain) := ⟨fun _ => rfl⟩

theorem takesKey_raised :
    TakesKey (exceptionRow caller a config severity (finalDomain a config)) :=
  takesKey_exceptionRow

def raisedTables (caller : Caller) (a : CreateException) (config : ExceptionTypeConfig)
    (severity : Severity) (db : Database) : Database :=
  { db with
    shipmentExceptions := db.shipmentExceptions.insert
      (exceptionRow caller a config severity (finalDomain a config)) takesKey_raised }

theorem run_createException_ok : (createException caller a).run db = .ok e db' ↔
    ∃ config severity, Recognised a config severity ∧
      (∃ s ∈ db.shipments, s.id = a.shipmentId) ∧
      exceptionRow caller a config severity (finalDomain a config)
        db.shipmentExceptions.freshKey = e ∧ raisedTables caller a config severity db = db' := by
  unfold createException addShipmentException
  simp only [run_orFail_bind_ok]
  constructor
  · rintro ⟨config, htype, hrun⟩
    cases hseverity : finalSeverity a config with
    | error name =>
      rw [hseverity] at hrun
      obtain ⟨_, _, hthrow, -⟩ := run_bind_ok.mp hrun
      exact absurd hthrow run_throw_ok
    | ok severity =>
      rw [hseverity] at hrun
      simp only [pure_bind, run_failIf_bind_ok, run_get_bind_ok, run_orFail_bind_ok,
        run_modifyGet_bind_ok, run_pure_ok, not_not, Table.find?_eq_some_iff] at hrun
      obtain ⟨hdomain, s, ⟨hs, hid⟩, he, hdb⟩ := hrun
      exact ⟨config, severity, ⟨htype, hseverity, hdomain⟩, ⟨s, hs, hid⟩, he, hdb⟩
  · rintro ⟨config, severity, h, ⟨s, hs, hid⟩, he, hdb⟩
    refine ⟨config, h.type, ?_⟩
    rw [h.severity]
    simp only [pure_bind, run_failIf_bind_ok, run_get_bind_ok, run_orFail_bind_ok,
      run_modifyGet_bind_ok, run_pure_ok, not_not, Table.find?_eq_some_iff]
    exact ⟨h.domain, s, ⟨hs, hid⟩, he, hdb⟩

end Create

section Update
variable [Text] {caller : Caller} {a : UpdateException} {status : Option ExceptionStatus}
  {e x : ShipmentException} {db db' : Database}

omit [Text] in
@[simp] theorem updateRow_id {now : Timestamp} : (updateRow now a status e).id = e.id :=
  (keepsKey_updateRow now a status).key_eq e

/-- The exception is the caller's, and the status that is asked for is known. -/
structure Updatable (caller : Caller) (a : UpdateException) (e : ShipmentException)
    (status : Option ExceptionStatus) (db : Database) : Prop where
  mem : e ∈ db.shipmentExceptions
  id : e.id = a.exceptionId
  tenant : e.tenantId = caller.tenantId
  status : newStatus a = .ok status

omit [Text] in
theorem keepsKey_updated (caller : Caller) (a : UpdateException)
    (status : Option ExceptionStatus) : KeepsKey (updateRow caller.now a status) :=
  keepsKey_updateRow ..

def updatedTables (caller : Caller) (a : UpdateException) (status : Option ExceptionStatus)
    (db : Database) : Database :=
  { db with
    shipmentExceptions := db.shipmentExceptions.update a.exceptionId
      (updateRow caller.now a status) (keepsKey_updated caller a status) }

theorem run_updateException_ok : (updateException caller a).run db = .ok x db' ↔
    ∃ e status, Updatable caller a e status db ∧
      { updateRow caller.now a status e with
        financialImpactEstimated :=
          a.financialImpactEstimated.getD e.financialImpactEstimated } = x ∧
      updatedTables caller a status db = db' := by
  unfold updateException
  simp only [run_get_bind_ok, run_orFail_bind_ok, run_orRaise_bind_ok, run_modify_bind_ok,
    run_pure_ok, Table.findWhere_eq_some_iff, decide_eq_true_eq]
  constructor
  · rintro ⟨e, ⟨he, hid, htenant⟩, status, hstatus, hx, hdb⟩
    have hid : e.id = a.exceptionId := hid
    rw [hid] at hdb
    exact ⟨e, status, ⟨he, hid, htenant, hstatus⟩, hx, hdb⟩
  · rintro ⟨e, status, ⟨he, hid, htenant, hstatus⟩, hx, hdb⟩
    refine ⟨e, ⟨he, hid, htenant⟩, status, hstatus, hx, ?_⟩
    rw [hid]
    exact hdb

end Update

end Friet.Exceptions
