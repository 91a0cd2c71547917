import Friet.Core
import Friet.Lib.Ends

/-!
# Dangerous goods: `DGRRuleService`, `DGRComplianceEngine`, `DGRDocumentService`

The services work on a repository whose code is not part of the sources. It is a
parameter here, known by what it stores (`Repository.Lawful`). Nothing is rolled
back: what a call saved before it raised stays saved.
-/

set_option autoImplicit false

namespace Friet.Dgr

open Session

inductive ConditionValue where
  | null
  | bool (b : Bool)
  | number (q : ℚ)
  | text (s : String)
  | list (items : List ConditionValue)
  | object (items : List (String × ConditionValue))

structure DgrItemCapture where
  unNumber : String
  classDivision : String
  netQuantity : ℚ
  unNumber_length : unNumber.length ≤ 4
  netQuantity_pos : 0 < netQuantity

structure DgrItem where
  id : Uuid
  tenantId : Uuid
  shipmentId : Uuid
  unNumber : String
  classDivision : String
  netQuantity : ℚ
  createdAt : Timestamp
  createdBy : Option Uuid

structure DgrRuleCreate where
  ruleType : String
  effectiveDate : Timestamp
  expiryDate : Option Timestamp
  conditions : List (String × ConditionValue)

structure DgrRule where
  id : Uuid
  tenantId : Uuid
  ruleType : String
  effectiveDate : Timestamp
  expiryDate : Option Timestamp
  conditions : List (String × ConditionValue)
  version : ℕ
  isActive : Bool
  createdAt : Timestamp
  createdBy : Option Uuid

inductive Verdict where
  | pass
  | fail
  deriving DecidableEq

structure DgrValidationCheck where
  ruleId : Option Uuid
  ruleVersion : Option ℕ
  category : String
  result : Verdict
  reason : String
  observedValue : Option String
  timestamp : Timestamp
  deriving DecidableEq

inductive ExceptionStatus where
  | open
  | approved
  deriving DecidableEq

structure DgrException where
  id : Uuid
  tenantId : Uuid
  itemId : Uuid
  shipmentId : Uuid
  ruleId : Uuid
  status : ExceptionStatus
  reason : String
  createdAt : Timestamp
  deriving DecidableEq

structure DgrValidationSnapshot where
  id : Uuid
  tenantId : Uuid
  itemId : Uuid
  shipmentId : Uuid
  status : Verdict
  checks : List DgrValidationCheck
  createdAt : Timestamp

structure DgrValidationResponse where
  itemId : Uuid
  shipmentId : Uuid
  status : Verdict
  checks : List DgrValidationCheck
  snapshotId : Uuid

structure DgrApproval where
  id : Uuid
  tenantId : Uuid
  itemId : Uuid
  approvedBy : Option Uuid
  reason : String
  timestamp : Timestamp
  snapshotId : Uuid

structure DgrDocument where
  id : Uuid
  tenantId : Uuid
  shipmentId : Uuid
  docType : String
  version : ℕ
  fileUrl : String
  checksum : String
  createdAt : Timestamp
  createdBy : Option Uuid

structure DgrApprovalRequest where
  reason : String
  reason_length : 10 ≤ reason.length

/-- What is stored, in the order it was saved. -/
structure Tables where
  rules : List DgrRule
  items : List DgrItem
  exceptions : List DgrException
  snapshots : List DgrValidationSnapshot
  approvals : List DgrApproval
  documents : List DgrDocument

def Tables.empty : Tables := ⟨[], [], [], [], [], []⟩

structure Repository (σ : Type) where
  saveRule : DgrRule → σ → σ
  saveItem : DgrItem → σ → σ
  saveException : DgrException → σ → σ
  updateException : DgrException → σ → σ
  saveSnapshot : DgrValidationSnapshot → σ → σ
  saveApproval : DgrApproval → σ → σ
  saveDocument : DgrDocument → σ → σ
  getItem : Uuid → σ → Option DgrItem
  getItemsByShipment : Uuid → σ → List DgrItem
  getActiveRules : Uuid → Timestamp → σ → List DgrRule
  getRule : Uuid → σ → Option DgrRule
  getOpenExceptions : Uuid → σ → List DgrException
  getLatestDocumentVersion : Uuid → String → σ → ℕ

/-- The methods do what their names say to the tables that `view` shows. -/
structure Repository.Lawful {σ : Type} (R : Repository σ) (view : σ → Tables) : Prop where
  saveRule : ∀ r s, view (R.saveRule r s) = { view s with rules := (view s).rules ++ [r] }
  saveItem : ∀ i s, view (R.saveItem i s) = { view s with items := (view s).items ++ [i] }
  saveException : ∀ e s,
    view (R.saveException e s) = { view s with exceptions := (view s).exceptions ++ [e] }
  updateException : ∀ e s, view (R.updateException e s) =
    { view s with exceptions := (view s).exceptions.map fun x => if x.id = e.id then e else x }
  saveSnapshot : ∀ n s,
    view (R.saveSnapshot n s) = { view s with snapshots := (view s).snapshots ++ [n] }
  saveApproval : ∀ a s,
    view (R.saveApproval a s) = { view s with approvals := (view s).approvals ++ [a] }
  saveDocument : ∀ d s,
    view (R.saveDocument d s) = { view s with documents := (view s).documents ++ [d] }
  getItemsByShipment : ∀ shipmentId s i,
    i ∈ R.getItemsByShipment shipmentId s ↔ i ∈ (view s).items ∧ i.shipmentId = shipmentId
  getOpenExceptions : ∀ itemId s e, e ∈ R.getOpenExceptions itemId s ↔
    e ∈ (view s).exceptions ∧ e.itemId = itemId ∧ e.status = .open

/-- The repository, and the UUIDs drawn so far. -/
structure World (σ : Type) where
  repo : σ
  drawn : Uuid

inductive DgrError where
  | http (statusCode : ℕ) (detail : String)
  | typeError
  | response
  deriving DecidableEq

abbrev Service (σ : Type) := EStateM DgrError (World σ)

/-- `str.isdigit` and the digest of `hashlib`. -/
class Library where
  isdigit : String → Bool
  sha256Hex : String → String

export Library (isdigit sha256Hex)

structure Caller where
  tenantId : Uuid
  userId : Option Uuid
  now : Timestamp

section Service
variable {σ : Type}

def uuid4 : Service σ Uuid := modifyGet fun w => (w.drawn, { w with drawn := w.drawn + 1 })

def write (f : σ → σ) : Service σ PUnit := modify fun w => { w with repo := f w.repo }

def read {α : Type} (f : σ → α) : Service σ α := do
  let w ← get
  pure (f w.repo)

end Service

def ConditionValue.truthy : ConditionValue → Bool
  | null => false
  | bool b => b
  | number q => q ≠ 0
  | text s => s ≠ ""
  | list items => !items.isEmpty
  | object items => !items.isEmpty

section Text
variable [Text]

def ConditionValue.str : ConditionValue → String
  | bool true => "True"
  | bool false => "False"
  | number q => decimalStr q
  | _ => ""

/-- Why a limit on the quantity is not met; a limit that is no number cannot be compared. -/
def exceedsLimit (netQuantity : ℚ) (limit : ConditionValue) : Except DgrError (Option String) :=
  match limit with
  | .number q =>
    pure (if q ≠ 0 ∧ q < netQuantity then some s!"Exceeds max qty {limit.str}" else none)
  | .bool b =>
    pure (if b = true ∧ 1 < netQuantity then some s!"Exceeds max qty {limit.str}" else none)
  | other => if other.truthy then throw .typeError else pure none

def ConditionValue.isText (s : String) : ConditionValue → Bool
  | .text t => t = s
  | _ => false

/-- `classDivision in forbidden`. -/
def forbidsClass (classDivision : String) : ConditionValue → Except DgrError Bool
  | .list items => pure (items.any (·.isText classDivision))
  | .text s => pure (decide (classDivision.toList <:+: s.toList))
  | .object items => pure (items.any (·.1 = classDivision))
  | _ => throw .typeError

/-- Why the rule fails for the item, if it does. -/
def DgrRule.failure (rule : DgrRule) (item : DgrItem) : Except DgrError (Option String) :=
  if rule.ruleType = "QUANTITY_LIMIT" then
    match rule.conditions.lookup "max_net_quantity_kg" with
    | some limit => exceedsLimit item.netQuantity limit
    | none => pure none
  else if rule.ruleType = "CARRIER_RESTRICTION" then do
    let forbidden := (rule.conditions.lookup "forbidden_classes").getD (.list [])
    pure (if ← forbidsClass item.classDivision forbidden then
      some s!"Class {item.classDivision} forbidden by carrier" else none)
  else pure none

def DgrRule.nonOverridable (rule : DgrRule) : Bool :=
  ((rule.conditions.lookup "non_overridable").getD (.bool false)).truthy

end Text

section Calls
variable [Text] [Library] {σ : Type} (R : Repository σ)

def createRule (caller : Caller) (p : DgrRuleCreate) : Service σ DgrRule := do
  let rule : DgrRule :=
    { id := ← uuid4
      tenantId := caller.tenantId
      ruleType := p.ruleType
      effectiveDate := p.effectiveDate
      expiryDate := p.expiryDate
      conditions := p.conditions
      version := 1
      isActive := true
      createdAt := caller.now
      createdBy := caller.userId }
  write (R.saveRule rule)
  pure rule

def captureItem (caller : Caller) (shipmentId : Uuid) (p : DgrItemCapture) : Service σ DgrItem := do
  let item : DgrItem :=
    { id := ← uuid4
      tenantId := caller.tenantId
      shipmentId := shipmentId
      unNumber := p.unNumber
      classDivision := p.classDivision
      netQuantity := p.netQuantity
      createdAt := caller.now
      createdBy := caller.userId }
  write (R.saveItem item)
  pure item

def DgrItem.unValid (item : DgrItem) : Bool := item.unNumber.length = 4 && isdigit item.unNumber

def unCheck (item : DgrItem) (asOf : Timestamp) : DgrValidationCheck where
  ruleId := none
  ruleVersion := none
  category := "UN_LOOKUP"
  result := if item.unValid then .pass else .fail
  reason := if item.unValid then "UN number is valid" else "Invalid UN format"
  observedValue := some item.unNumber
  timestamp := asOf

def ruleCheck (rule : DgrRule) (failure : Option String) (asOf : Timestamp) :
    DgrValidationCheck where
  ruleId := some rule.id
  ruleVersion := some rule.version
  category := rule.ruleType
  result := if failure.isSome then .fail else .pass
  reason := failure.getD "Condition met"
  observedValue := none
  timestamp := asOf

/-- The loop over the rules: every failed check saves an open exception. -/
def checkRules (caller : Caller) (item : DgrItem) :
    List DgrRule → List DgrValidationCheck → Verdict → Service σ (List DgrValidationCheck × Verdict)
  | [], checks, status => pure (checks, status)
  | rule :: rules, checks, status => do
    let failure ← orRaise (rule.failure item)
    match failure with
    | none => checkRules caller item rules (checks ++ [ruleCheck rule none caller.now]) status
    | some reason => do
      let id ← uuid4
      write (R.saveException ⟨id, caller.tenantId, item.id, item.shipmentId, rule.id, .open, reason,
        caller.now⟩)
      checkRules caller item rules (checks ++ [ruleCheck rule (some reason) caller.now]) .fail

def validateItem (caller : Caller) (shipmentId : Uuid) (rules : List DgrRule) (item : DgrItem) :
    Service σ DgrValidationResponse := do
  let (checks, status) ← checkRules R caller item rules [unCheck item caller.now]
    (if item.unValid then .pass else .fail)
  let id ← uuid4
  write (R.saveSnapshot ⟨id, caller.tenantId, item.id, shipmentId, status, checks, caller.now⟩)
  pure ⟨item.id, shipmentId, status, checks, id⟩

def validateItems (caller : Caller) (shipmentId : Uuid) :
    Service σ (List DgrValidationResponse) := do
  let items ← read (R.getItemsByShipment shipmentId)
  failIf (items = []) (.http 400 "No DGR items found for shipment")
  let rules ← read (R.getActiveRules caller.tenantId caller.now)
  items.mapM (validateItem R caller shipmentId rules)

/-- An exception to a rule that cannot be overridden is not approved. -/
def checkOverridable (exc : DgrException) : Service σ PUnit := do
  let rule ← read (R.getRule exc.ruleId)
  match rule with
  | some rule =>
    failIf (rule.nonOverridable = true) (.http 403 s!"Rule {uuidStr rule.id} is non-overridable")
  | none => pure ()

def closeException (exc : DgrException) : Service σ PUnit :=
  write (R.updateException { exc with status := .approved })

def approveException (caller : Caller) (itemId : Uuid) (p : DgrApprovalRequest) :
    Service σ DgrApproval := do
  let item ← read (R.getItem itemId)
  let item ← orFail item (.http 404 "DGR item not found")
  failIf (item.tenantId ≠ caller.tenantId) (.http 404 "DGR item not found")
  let openExceptions ← read (R.getOpenExceptions itemId)
  failIf (openExceptions = []) (.http 400 "No open exceptions to approve")
  openExceptions.forM (checkOverridable R)
  let approval : DgrApproval :=
    { id := ← uuid4
      tenantId := caller.tenantId
      itemId := itemId
      approvedBy := caller.userId
      reason := p.reason
      timestamp := caller.now
      snapshotId := ← uuid4 }
  write (R.saveApproval approval)
  openExceptions.forM (closeException R)
  failIf (approval.approvedBy = none) .response
  pure approval

def checkClosed (item : DgrItem) : Service σ PUnit := do
  let openExceptions ← read (R.getOpenExceptions item.id)
  failIf (openExceptions ≠ []) (.http 403 "Cannot generate document with open DGR exceptions")

def generateDgd (caller : Caller) (shipmentId : Uuid) (docType : String) :
    Service σ DgrDocument := do
  let items ← read (R.getItemsByShipment shipmentId)
  failIf (items = []) (.http 400 "No DGR items for documentation")
  items.forM (checkClosed R)
  let latest ← read (R.getLatestDocumentVersion shipmentId docType)
  let version := latest + 1
  let id ← uuid4
  let document : DgrDocument :=
    { id := id
      tenantId := caller.tenantId
      shipmentId := shipmentId
      docType := docType
      version := version
      fileUrl := s!"s3://freightcore/docs/{uuidStr shipmentId}_{docType}_v{version}.pdf"
      checksum := sha256Hex s!"{docType} Data for {uuidStr shipmentId}"
      createdAt := caller.now
      createdBy := caller.userId }
  write (R.saveDocument document)
  pure document

inductive Call where
  | createRule (p : DgrRuleCreate)
  | captureItem (shipmentId : Uuid) (p : DgrItemCapture)
  | validateItems (shipmentId : Uuid)
  | approveException (itemId : Uuid) (p : DgrApprovalRequest)
  | generateDgd (shipmentId : Uuid) (docType : String)

def step (w : World σ) (c : Caller × Call) : World σ :=
  match c.2 with
  | .createRule p => endState (createRule R c.1 p) w
  | .captureItem shipmentId p => endState (captureItem R c.1 shipmentId p) w
  | .validateItems shipmentId => endState (validateItems R c.1 shipmentId) w
  | .approveException itemId p => endState (approveException R c.1 itemId p) w
  | .generateDgd shipmentId docType => endState (generateDgd R c.1 shipmentId docType) w

end Calls

end Friet.Dgr
