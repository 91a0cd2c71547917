import Friet.Analytics.WinLoss
import Friet.Lib.Joins
import Friet.Lib.Table

/-!
# The revenue report: `revenue_analytics`

Won quotations are joined with their RFQ, their options and the branches of the user they
are ascribed to, grouped by the database, and added up over the groups. A user has as many
branches as roles.
-/

set_option autoImplicit false

namespace Friet.Analytics

open Accumulate Joins Rounding Doubles

/-- A point in time, by its date and the microseconds of the day. -/
structure DateTime where
  date : Date
  micros : ℕ
  deriving DecidableEq

instance : LE DateTime := ⟨fun a b => a.date.ordinal < b.date.ordinal ∨
  a.date.ordinal = b.date.ordinal ∧ a.micros ≤ b.micros⟩

instance (a b : DateTime) : Decidable (a ≤ b) := inferInstanceAs (Decidable (_ ∨ _))

/-- `datetime.combine(d, datetime.min.time())`. -/
def startOf (d : Date) : DateTime := ⟨d, 0⟩

/-- `datetime.combine(d, datetime.max.time())`. -/
def endOf (d : Date) : DateTime := ⟨d, 86399999999⟩

structure Quotation where
  id : Uuid
  tenantId : Uuid
  rfqId : Uuid
  status : String
  createdBy : Option Uuid
  createdAt : DateTime

structure Rfq where
  id : Uuid
  customerId : Uuid
  mode : String
  originLocationId : Option Uuid
  destinationLocationId : Option Uuid
  assignedTo : Option Uuid
  createdBy : Option Uuid

structure QuotationOption where
  id : Uuid
  quotationId : Uuid
  totalSell : Money

structure UserBranchRole where
  id : Uuid
  userId : Uuid
  branchId : Uuid

structure Branch where
  id : Uuid
  name : String
  code : String

instance : Keyed Quotation := ⟨Quotation.id⟩

instance : Keyed Rfq := ⟨Rfq.id⟩

instance : Keyed QuotationOption := ⟨QuotationOption.id⟩

instance : Keyed UserBranchRole := ⟨UserBranchRole.id⟩

instance : Keyed Branch := ⟨Branch.id⟩

structure RevenueTables where
  quotations : Table Quotation
  rfqs : Table Rfq
  options : Table QuotationOption
  userBranchRoles : Table UserBranchRole
  branches : Table Branch
  /-- The foreign key of a quotation. -/
  rfq_found : ∀ q ∈ quotations, ∃ r ∈ rfqs, r.id = q.rfqId

structure RevenueFilter where
  tenantId : Uuid
  dateFrom : Option Date
  dateTo : Option Date
  customerId : Option String
  mode : Option String
  originLocationId : Option String
  destinationLocationId : Option String
  branchId : Option String

/-- `_parse_uuid`. -/
def parseUuidOf [Text] (val : Option String) : Option Uuid := (given val).bind parseUuid

namespace RevenueFilter

/-- The conditions on the quotation: the tenant's, won, and in the period. -/
def wants (f : RevenueFilter) (q : Quotation) : Bool :=
  q.tenantId = f.tenantId && winStatuses.contains q.status &&
    f.dateFrom.all (startOf · ≤ q.createdAt) && f.dateTo.all (q.createdAt ≤ endOf ·)

def wantsRfq [Text] (f : RevenueFilter) (r : Rfq) : Bool :=
  (parseUuidOf f.customerId).all (r.customerId = ·) && (given f.mode).all (r.mode = upper ·) &&
    (parseUuidOf f.originLocationId).all (r.originLocationId = some ·) &&
    (parseUuidOf f.destinationLocationId).all (r.destinationLocationId = some ·)

def wantsBranch [Text] (f : RevenueFilter) (branch : Option Branch) : Bool :=
  (parseUuidOf f.branchId).all (branch.map (·.id) = some ·)

end RevenueFilter

/-- `func.coalesce(RFQ.assigned_to, Quotation.created_by, RFQ.created_by)`. -/
def effectiveUserId (q : Quotation) (r : Rfq) : Option Uuid :=
  r.assignedTo <|> q.createdBy <|> r.createdBy

structure JoinedRow where
  quotation : Quotation
  rfq : Rfq
  option : Option QuotationOption
  branch : Option Branch

/-- The outer joins of a quotation with its options, with the roles of its user, and of each role
with its branch. -/
def joinedRows (db : RevenueTables) (q : Quotation) (r : Rfq) : List JoinedRow :=
  (outer (·.quotationId = q.id) db.options.rows).flatMap fun option =>
    (outer (some ·.userId = effectiveUserId q r) db.userBranchRoles.rows).map fun role =>
      ⟨q, r, option, role.bind fun role => db.branches.find? role.branchId⟩

def selectedRows [Text] (f : RevenueFilter) (db : RevenueTables) : List JoinedRow :=
  (db.quotations.rows.flatMap fun q =>
    match db.rfqs.find? q.rfqId with
    | some r => joinedRows db q r
    | none => []).filter fun j =>
      f.wants j.quotation && f.wantsRfq j.rfq && f.wantsBranch j.branch

/-- What the rows are grouped by. -/
structure RevenueKey where
  customerId : Option Uuid
  mode : Option String
  originLocationId : Option Uuid
  destinationLocationId : Option Uuid
  branchId : Option Uuid
  branchName : Option String
  branchCode : Option String
  deriving DecidableEq

def revenueKey (r : Rfq) (branch : Option Branch) : RevenueKey :=
  ⟨some r.customerId, some r.mode, r.originLocationId, r.destinationLocationId, branch.map (·.id),
    branch.map (·.name), branch.map (·.code)⟩

def JoinedRow.key (j : JoinedRow) : RevenueKey := revenueKey j.rfq j.branch

def JoinedRow.sell (j : JoinedRow) : Money := (j.option.map (·.totalSell)).getD 0

structure RevenueRow extends RevenueKey where
  quoteCount : ℕ
  totalRevenue : Option Money
  avgRevenue : Option Money
  minRevenue : Option Money
  maxRevenue : Option Money

/-- The aggregates of a group; only options that are there count for the amounts. -/
def revenueRow (g : RevenueKey × List JoinedRow) : RevenueRow :=
  let sells := g.2.filterMap fun j => j.option.map (·.totalSell)
  { g.1 with
    quoteCount := g.2.length
    totalRevenue := if sells.isEmpty then none else some sells.sum
    avgRevenue := if sells.isEmpty then none else some (sells.sum / sells.length)
    minRevenue := sells.min?
    maxRevenue := sells.max? }

/-- The groups, in the order in which the database happens to return them. -/
def revenueRows [Text] (order : RowOrder RevenueRow) (f : RevenueFilter) (db : RevenueTables) :
    List RevenueRow :=
  order.arrange ((groupBy JoinedRow.key (selectedRows f db)).map revenueRow)

namespace RevenueKey
variable [Text] (k : RevenueKey)

def cust : String := (k.customerId.map uuidStr).getD "unknown"

def modeKey : String := (given k.mode).getD "UNKNOWN"

def oId : Option String := k.originLocationId.map uuidStr

def dId : Option String := k.destinationLocationId.map uuidStr

def laneKey : String :=
  match given k.oId, given k.dId with
  | some o, some d => s!"{o}→{d}"
  | _, _ => "unknown"

def brIdStr : String := (k.branchId.map uuidStr).getD "unassigned"

def brNameStr : String :=
  (given k.branchName).getD (if k.branchId.isSome then "Branch" else "Unassigned Branch")

def brCodeStr : String := (given k.branchCode).getD "N/A"

end RevenueKey

/-- `float(row.total_revenue or 0.0)` -/
def RevenueRow.rev (row : RevenueRow) : Money := fl (row.totalRevenue.getD 0)

structure RevenueEntry where
  customerId : String
  mode : String
  originLocationId : Option String
  destinationLocationId : Option String
  branchId : String
  branchName : String
  quoteCount : ℕ
  totalRevenue : Money
  avgRevenue : Money
  minRevenue : Money
  maxRevenue : Money

/-- An entry of `by_customer`, `by_mode` or `by_lane`. -/
structure Share where
  label : String
  totalRevenue : Money

/-- An entry of `by_branch`. -/
structure BranchShare where
  branchId : String
  branchName : String
  branchCode : String
  totalRevenue : Money
  quoteCount : ℕ

def Share.add (s : Share) (row : RevenueRow) : Share :=
  { s with totalRevenue := fl (s.totalRevenue + row.rev) }

def BranchShare.add (s : BranchShare) (row : RevenueRow) : BranchShare :=
  { s with
    totalRevenue := fl (s.totalRevenue + row.rev)
    quoteCount := s.quoteCount + row.quoteCount }

structure RevenueSums where
  grandTotal : Money
  byCustomer : List (String × Share)
  byMode : List (String × Share)
  byLane : List (String × Share)
  byBranch : List (String × BranchShare)
  entries : List RevenueEntry

def RevenueSums.none : RevenueSums := ⟨0, [], [], [], [], []⟩

structure RevenueReport where
  grandTotalRevenue : Money
  entryCount : ℕ
  byCustomer : List Share
  byMode : List Share
  byLane : List Share
  byBranch : List BranchShare
  entries : List RevenueEntry

def Share.rounded (s : Share) : Share := { s with totalRevenue := cents s.totalRevenue }

def BranchShare.rounded (s : BranchShare) : BranchShare :=
  { s with totalRevenue := cents s.totalRevenue }

def RevenueSums.report (acc : RevenueSums) : RevenueReport where
  grandTotalRevenue := cents acc.grandTotal
  entryCount := acc.entries.length
  byCustomer := acc.byCustomer.map (·.2.rounded)
  byMode := acc.byMode.map (·.2.rounded)
  byLane := acc.byLane.map (·.2.rounded)
  byBranch := acc.byBranch.map (·.2.rounded)
  entries := acc.entries

section Loop
variable [Text]

def RevenueRow.entry (row : RevenueRow) : RevenueEntry where
  customerId := row.cust
  mode := row.modeKey
  originLocationId := row.oId
  destinationLocationId := row.dId
  branchId := row.brIdStr
  branchName := row.brNameStr
  quoteCount := row.quoteCount
  totalRevenue := cents row.rev
  avgRevenue := cents (fl (row.avgRevenue.getD 0))
  minRevenue := cents (fl (row.minRevenue.getD 0))
  maxRevenue := cents (fl (row.maxRevenue.getD 0))

def RevenueRow.branchShare (row : RevenueRow) : BranchShare :=
  ⟨row.brIdStr, row.brNameStr, row.brCodeStr, 0, 0⟩

def RevenueSums.addRow (acc : RevenueSums) (row : RevenueRow) : RevenueSums where
  grandTotal := fl (acc.grandTotal + row.rev)
  byCustomer := upsert row.cust ⟨row.cust, 0⟩ (·.add row) acc.byCustomer
  byMode := upsert row.modeKey ⟨row.modeKey, 0⟩ (·.add row) acc.byMode
  byLane := upsert row.laneKey ⟨row.laneKey, 0⟩ (·.add row) acc.byLane
  byBranch := upsert row.brIdStr row.branchShare (·.add row) acc.byBranch
  entries := acc.entries ++ [row.entry]

def revenueAnalytics (order : RowOrder RevenueRow) (f : RevenueFilter) (db : RevenueTables) :
    RevenueReport :=
  ((revenueRows order f db).foldl RevenueSums.addRow .none).report

end Loop

end Friet.Analytics
