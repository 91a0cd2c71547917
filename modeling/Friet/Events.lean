import Friet.Core
import Friet.Lib.Table

/-!
# The audit trail and the outbox

Services add a row to each in the transaction of the change they record. What a row
carries differs from service to service.
-/

set_option autoImplicit false

namespace Friet

universe u

structure AuditLog (ν : Type u) where
  id : Uuid
  tenantId : Option Uuid
  userId : Option Uuid
  entityType : String
  entityId : String
  action : String
  previousValue : Option ν
  newValue : Option ν

structure OutboxEvent (π : Type u) where
  id : Uuid
  eventType : String
  tenantId : Uuid
  aggregateType : String
  aggregateId : Uuid
  payload : π
  correlationId : Option String
  occurredAt : Timestamp
  publicationStatus : String

instance {ν : Type u} : Keyed (AuditLog ν) := ⟨AuditLog.id⟩
instance {π : Type u} : Keyed (OutboxEvent π) := ⟨OutboxEvent.id⟩

/-- `AuditService.record`. -/
def AuditService.record {ν : Type u} (tenantId userId : Option Uuid) (entityType entityId action : String)
    (previousValue newValue : Option ν) (t : Table (AuditLog ν)) : Table (AuditLog ν) :=
  t.insert fun id =>
    { id, tenantId, userId, entityType, entityId, action, previousValue, newValue }

/-- `OutboxService.enqueue`. -/
def OutboxService.enqueue {π : Type u} (eventType : String) (tenantId : Uuid)
    (aggregateType : String) (aggregateId : Uuid) (payload : π) (now : Timestamp)
    (t : Table (OutboxEvent π)) (correlationId : Option String := none) : Table (OutboxEvent π) :=
  t.insert fun id =>
    { id, eventType, tenantId, aggregateType, aggregateId, payload, correlationId, occurredAt := now
      publicationStatus := "PENDING" }

end Friet
