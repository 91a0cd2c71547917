import Friet.Core
import Friet.Lib.Session
import Mathlib.Data.List.AList

/-!
# Air waybills: `AWBService`, `AWBRepositoryFake`

The repository is a dict of dicts that are written in place. Nothing is rolled
back: what a call wrote before it raised stays. An amendment may put any value
into any field, the ones that the repository itself relies on included.
-/

set_option autoImplicit false

namespace Friet.Awb

open Session

/-- What can be a key of a dict; a Boolean is a number. -/
inductive Scalar where
  | none
  | number (q : ℚ)
  | str (s : String)
  | uuid (u : Uuid)
  deriving DecidableEq

inductive PyValue where
  | scalar (s : Scalar)
  | list (items : List PyValue)
  | dict (items : List (String × PyValue))

namespace PyValue

def scalar? : PyValue → Option Scalar
  | scalar s => some s
  | _ => Option.none

abbrev str (s : String) : PyValue := scalar (.str s)
abbrev uuid (u : Uuid) : PyValue := scalar (.uuid u)
abbrev number (q : ℚ) : PyValue := scalar (.number q)
abbrev null : PyValue := scalar .none

def ofOption {α : Type} (f : α → PyValue) : Option α → PyValue
  | some a => f a
  | Option.none => null

end PyValue

abbrev Fields := String → Option PyValue

namespace Fields

def ofPairs (pairs : List (String × PyValue)) : Fields := fun field => pairs.lookup field

def set (d : Fields) (field : String) (value : PyValue) : Fields :=
  Function.update d field (some value)

def update (d : Fields) (changes : List (String × PyValue)) : Fields :=
  changes.foldl (fun d c => d.set c.1 c.2) d

def scalar (d : Fields) (field : String) : Option Scalar := (d field).bind PyValue.scalar?

end Fields

inductive AwbType where
  | hawb
  | mawb
  deriving DecidableEq

def AwbType.str : AwbType → String
  | .hawb => "HAWB"
  | .mawb => "MAWB"

structure AwbCreateRequest where
  shipmentId : Uuid
  awbType : AwbType
  parentMawbId : Option Uuid
  airlineName : String
  airlinePrefix : String
  serialNumber : Option String
  fullAwbNumber : Option String
  shipper : String
  consignee : String
  originAirport : String
  destinationAirport : String
  routing : String
  pieces : ℤ
  grossWeight : ℚ
  chargeableWeight : ℚ
  commodity : String
  specialHandlingCodes : List String
  airlinePrefix_length : airlinePrefix.length = 3
  originAirport_length : originAirport.length = 3
  destinationAirport_length : destinationAirport.length = 3

def AwbCreateRequest.modelDump (p : AwbCreateRequest) : Fields := .ofPairs
  [("shipment_id", .uuid p.shipmentId), ("awb_type", .str p.awbType.str),
    ("parent_mawb_id", .ofOption .uuid p.parentMawbId), ("airline_name", .str p.airlineName),
    ("airline_prefix", .str p.airlinePrefix), ("serial_number", .ofOption .str p.serialNumber),
    ("full_awb_number", .ofOption .str p.fullAwbNumber), ("shipper", .str p.shipper),
    ("consignee", .str p.consignee), ("origin_airport", .str p.originAirport),
    ("destination_airport", .str p.destinationAirport), ("routing", .str p.routing),
    ("pieces", .number p.pieces), ("gross_weight", .number p.grossWeight),
    ("chargeable_weight", .number p.chargeableWeight), ("commodity", .str p.commodity),
    ("special_handling_codes", .list (p.specialHandlingCodes.map .str))]

structure AwbAmendmentRequest where
  reason : String
  fieldsChanged : List (String × PyValue)
  carrierConfirmationRef : Option String

structure AwbCancellationRequest where
  reason : String
  replacementAwbId : Option Uuid

/-- `_awbs` maps keys to dicts, which are known by reference; `_sequences` is per prefix. -/
structure Repo where
  awbs : AList fun _ : Scalar => ℕ
  objects : ℕ → Fields
  allocated : ℕ
  sequences : String → Option ℕ

def Repo.empty : Repo := ⟨∅, fun _ _ => none, 0, fun _ => none⟩

inductive AwbError where
  | validation (message : String)
  | notFound (message : String)
  | conflict (message : String)
  | attributeError
  | typeError
  | response
  deriving DecidableEq

/-- `AWBResponse(**awb)`, which raises for fields that do not fit. -/
class ResponseModel where
  accepts : Fields → Bool

/-- Who calls, and when. -/
structure Caller where
  tenantId : Uuid
  actorId : Uuid
  timestamp : String

abbrev Service := EStateM AwbError Repo

def firstSequence : ℕ := 1000000

def Repo.sequence (s : Repo) (airlinePrefix : String) : ℕ :=
  (s.sequences airlinePrefix).getD firstSequence

def serialOf (current : ℕ) : String := toString current ++ toString (current % 7)

def getNextSequence (airlinePrefix : String) : Service String :=
  modifyGet fun s =>
    (serialOf (s.sequence airlinePrefix),
      { s with sequences :=
          Function.update s.sequences airlinePrefix (some (s.sequence airlinePrefix + 1)) })

def Repo.setObject (s : Repo) (ref : ℕ) (d : Fields) : Repo :=
  { s with objects := Function.update s.objects ref d }

/-- `_awbs[awb["id"]] = awb`; a list or a dict is no key. -/
def save (ref : ℕ) : Service Unit := do
  let s ← get
  let key ← orFail ((s.objects ref).scalar "id") .typeError
  set { s with awbs := s.awbs.insert key ref }

def respond [ResponseModel] (ref : ℕ) : Service Fields := do
  let s ← get
  failIf (ResponseModel.accepts (s.objects ref) = false) .response
  pure (s.objects ref)

/-- `get_by_mawb` finds something: an AWB that is not cancelled and names this one. -/
def Repo.HasChildren (s : Repo) (mawbId : Uuid) : Prop :=
  ∃ e ∈ s.awbs.entries, (s.objects e.2).scalar "parent_mawb_id" = some (.uuid mawbId) ∧
    (s.objects e.2).scalar "status" ≠ some (.str "CANCELLED")

instance (s : Repo) (mawbId : Uuid) : Decidable (s.HasChildren mawbId) :=
  inferInstanceAs (Decidable (∃ e ∈ s.awbs.entries, _))

def Repo.find? (s : Repo) (awbId tenantId : Uuid) : Option ℕ :=
  (s.awbs.lookup (.uuid awbId)).filter fun ref =>
    (s.objects ref).scalar "tenant_id" = some (.uuid tenantId)

def Scalar.uuidOrZero : Scalar → ℕ
  | .uuid u => u
  | _ => 0

/-- `uuid4`: none of the keys. -/
def Repo.freshId (s : Repo) : Uuid := (s.awbs.keys.map Scalar.uuidOrZero).foldr max 0 + 1

/-- `awb["history"].append(entry)`. -/
def appendHistory (ref : ℕ) (entry : PyValue) : Service Unit := do
  let s ← get
  match s.objects ref "history" with
  | some (.list items) =>
    set (s.setObject ref ((s.objects ref).set "history" (.list (items ++ [entry]))))
  | _ => throw .attributeError

/-- `awb["version"] += 1`. -/
def bumpVersion (ref : ℕ) : Service Unit := do
  let s ← get
  match s.objects ref "version" with
  | some (.scalar (.number q)) =>
    set (s.setObject ref ((s.objects ref).set "version" (.number (q + 1))))
  | _ => throw .typeError

/-- A HAWB needs a MAWB of its tenant. -/
def checkParent (caller : Caller) (p : AwbCreateRequest) : Service Unit :=
  match p.awbType with
  | .mawb => pure ()
  | .hawb => do
    let parentId ← orFail p.parentMawbId (.validation "HAWB requires a parent MAWB ID")
    let s ← get
    let parent ← orFail (s.awbs.lookup (.uuid parentId)) (.notFound "Parent MAWB not found")
    failIf ((s.objects parent).scalar "tenant_id" ≠ some (.uuid caller.tenantId))
      (.conflict "Parent MAWB belongs to a different tenant")
    failIf ((s.objects parent).scalar "awb_type" ≠ some (.str "MAWB"))
      (.validation "Parent must be a MAWB")

/-- The new dict, with the fields that the service sets itself. -/
def newAwb (caller : Caller) (p : AwbCreateRequest) (id : Uuid) (serial : String) : Fields :=
  p.modelDump.update
    [("id", .uuid id), ("tenant_id", .uuid caller.tenantId), ("status", .str "DRAFT"),
      ("version", .number 1), ("serial_number", .str serial),
      ("full_awb_number", .str s!"{p.airlinePrefix}-{serial}"), ("issuing_user", .uuid caller.actorId),
      ("issue_date", .null), ("history", .list [])]

def allocate (d : Fields) : Service ℕ :=
  modifyGet fun s =>
    (s.allocated, { s.setObject s.allocated d with allocated := s.allocated + 1 })

section Service
variable [ResponseModel]

def createAwb (caller : Caller) (p : AwbCreateRequest) : Service Fields := do
  checkParent caller p
  let serial ←
    match given p.serialNumber with
    | some serial => pure serial
    | none => getNextSequence p.airlinePrefix
  let s ← get
  let ref ← allocate (newAwb caller p s.freshId serial)
  save ref
  respond ref

def amendAwb (awbId : Uuid) (caller : Caller) (p : AwbAmendmentRequest) : Service Fields := do
  let s ← get
  let ref ← orFail (s.find? awbId caller.tenantId) (.notFound "AWB not found")
  let awb := s.objects ref
  failIf (awb.scalar "status" = some (.str "CANCELLED")) (.validation "Cannot amend a cancelled AWB")
  appendHistory ref (.dict
    [("version", (awb "version").getD .null), ("timestamp", .str caller.timestamp),
      ("reason", .str p.reason), ("requested_by", .uuid caller.actorId),
      ("carrier_confirmation", .ofOption .str p.carrierConfirmationRef)])
  bumpVersion ref
  modify fun s => s.setObject ref ((s.objects ref).update p.fieldsChanged)
  save ref
  respond ref

def cancelAwb (awbId : Uuid) (caller : Caller) (p : AwbCancellationRequest) : Service Fields := do
  let s ← get
  let ref ← orFail (s.find? awbId caller.tenantId) (.notFound "AWB not found")
  let awb := s.objects ref
  failIf (awb.scalar "awb_type" = some (.str "MAWB") ∧ s.HasChildren awbId)
    (.conflict "Cannot cancel MAWB with active HAWB children")
  modify fun s => s.setObject ref ((s.objects ref).set "status" (.str "CANCELLED"))
  appendHistory ref (.dict
    [("version", (awb "version").getD .null), ("timestamp", .str caller.timestamp),
      ("cancellation_reason", .str p.reason), ("requested_by", .uuid caller.actorId),
      ("replacement", .ofOption .uuid p.replacementAwbId)])
  save ref
  respond ref

inductive Request where
  | createAwb (p : AwbCreateRequest)
  | amendAwb (awbId : Uuid) (p : AwbAmendmentRequest)
  | cancelAwb (awbId : Uuid) (p : AwbCancellationRequest)

def serve (caller : Caller) : Request → Service Fields
  | .createAwb p => createAwb caller p
  | .amendAwb awbId p => amendAwb awbId caller p
  | .cancelAwb awbId p => cancelAwb awbId caller p

/-- What a call leaves, whether it returns or raises. -/
def left {α : Type} (x : Service α) (s : Repo) : Repo :=
  match x.run s with
  | .ok _ s' => s'
  | .error _ s' => s'

def step (s : Repo) (r : Caller × Request) : Repo := left (serve r.1 r.2) s

end Service

end Friet.Awb
