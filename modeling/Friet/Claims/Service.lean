import Friet.Core
import Friet.Lib.Session
import Friet.Lib.Table

/-!
# Cargo claims: `ClaimsService`, `ClaimsRepository`

An update names the fields that it sets, and each of them is written to the stored claim.
The service names the notes in every update, given or not.
-/

set_option autoImplicit false

namespace Friet.Claims

open Session

inductive ClaimStatus where
  | reported
  | underReview
  | approved
  | denied
  | closed
  deriving DecidableEq

/-- `str` of the enumeration, which a formatted text takes. -/
def ClaimStatus.str : ClaimStatus → String
  | .reported => "ClaimStatus.REPORTED"
  | .underReview => "ClaimStatus.UNDER_REVIEW"
  | .approved => "ClaimStatus.APPROVED"
  | .denied => "ClaimStatus.DENIED"
  | .closed => "ClaimStatus.CLOSED"

structure Claim where
  id : Uuid
  shipmentId : String
  carrierId : String
  claimAmount : Money
  description : String
  status : ClaimStatus
  approvedAmount : Option Money
  settlementAmount : Option Money
  netLoss : Option Money
  reportedAt : Timestamp
  closedAt : Option Timestamp
  notes : Option String
  deriving DecidableEq

instance : Keyed Claim := ⟨Claim.id⟩

inductive ClaimError where
  | valueError (message : String)
  deriving DecidableEq

abbrev ClaimsM := EStateM ClaimError (Table Claim)

structure ClaimCreate where
  shipmentId : String
  carrierId : String
  claimAmount : Money
  description : String

def newClaim (now : Timestamp) (a : ClaimCreate) (id : Uuid) : Claim where
  id := id
  shipmentId := a.shipmentId
  carrierId := a.carrierId
  claimAmount := a.claimAmount
  description := a.description
  status := .reported
  approvedAmount := none
  settlementAmount := none
  netLoss := none
  reportedAt := now
  closedAt := none
  notes := none

def createClaim (now : Timestamp) (a : ClaimCreate) : ClaimsM Claim :=
  modifyGet fun claims => (newClaim now a claims.freshKey, claims.insert (newClaim now a))

/-- A field that is not set is `none`; a field that is set may be set to `None`. -/
structure ClaimUpdate where
  status : Option ClaimStatus
  approvedAmount : Option (Option Money)
  settlementAmount : Option (Option Money)
  netLoss : Option (Option Money)
  closedAt : Option (Option Timestamp)
  notes : Option (Option String)

/-- `dict(exclude_unset=True)`, set field by field. -/
def applyUpdate (u : ClaimUpdate) (c : Claim) : Claim :=
  { c with
    status := u.status.getD c.status
    approvedAmount := u.approvedAmount.getD c.approvedAmount
    settlementAmount := u.settlementAmount.getD c.settlementAmount
    netLoss := u.netLoss.getD c.netLoss
    closedAt := u.closedAt.getD c.closedAt
    notes := u.notes.getD c.notes }

theorem keepsKey_applyUpdate (u : ClaimUpdate) : KeepsKey (applyUpdate u) := ⟨fun _ => rfl⟩

/-- `valid_transitions`. -/
def validTransitions : ClaimStatus → List ClaimStatus
  | .reported => [.underReview, .denied, .closed]
  | .underReview => [.approved, .denied]
  | .approved => [.closed]
  | .denied => [.closed]
  | .closed => []

structure ProcessClaimStatus where
  claimId : Uuid
  status : ClaimStatus
  approvedAmount : Option Money
  settlementAmount : Option Money
  notes : Option String

def closes (a : ProcessClaimStatus) (c : Claim) : Prop := a.status = .closed ∧ c.status ≠ .closed

instance (a : ProcessClaimStatus) (c : Claim) : Decidable (closes a c) :=
  inferInstanceAs (Decidable (_ ∧ _))

/-- An amount that the call gives, else the claim's, else zero. -/
def amountOf (new old : Option Money) : Money := (new.or old).getD 0

def updateData (now : Timestamp) (a : ProcessClaimStatus) (c : Claim) : ClaimUpdate where
  status := some a.status
  approvedAmount := a.approvedAmount.map some
  settlementAmount := a.settlementAmount.map some
  netLoss :=
    if closes a c then
      some (some (amountOf a.approvedAmount c.approvedAmount -
        amountOf a.settlementAmount c.settlementAmount))
    else none
  closedAt := if closes a c then some (some now) else none
  notes := some a.notes

def processClaimStatus (now : Timestamp) (a : ProcessClaimStatus) : ClaimsM Claim := do
  let claims ← get
  let c ← orFail (claims.find? a.claimId) (.valueError "Claim not found")
  failIf (a.status ∉ validTransitions c.status ∧ a.status ≠ c.status)
    (.valueError s!"Invalid state transition from {c.status.str} to {a.status.str}")
  modify fun claims =>
    claims.update a.claimId (applyUpdate (updateData now a c)) (keepsKey_applyUpdate _)
  pure (applyUpdate (updateData now a c) c)

inductive Request where
  | createClaim (a : ClaimCreate)
  | processClaimStatus (a : ProcessClaimStatus)

def Request.run (now : Timestamp) : Request → ClaimsM Claim
  | .createClaim a => Claims.createClaim now a
  | .processClaimStatus a => Claims.processClaimStatus now a

/-- What the repository holds after a call, returning or raising. -/
def step (claims : Table Claim) (i : Timestamp × Request) : Table Claim :=
  after (i.2.run i.1) claims

end Friet.Claims
