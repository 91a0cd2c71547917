import Friet.Exceptions.Service
import Friet.Financial.Steps

/-!
# What the margin synchronisation does to exceptions

The synchronisation takes the one active `CARGO_LOSS` exception of the shipment
for its own. Users open exceptions of that type as well: theirs are rewritten or
resolved with the margin, and two of them stop every ledger line.
-/

set_option autoImplicit false

namespace Friet.Exceptions

open Session Financial Rounding

deriving instance DecidableEq for ShipmentException

inductive AddLine where
  | revenue (a : AddRevenueLine)
  | cost (a : AddCostLine)

def AddLine.shipmentId : AddLine → Uuid
  | .revenue a => a.shipmentId
  | .cost a => a.shipmentId

def AddLine.amount : AddLine → Money
  | .revenue a => a.amount
  | .cost a => a.amount

def AddLine.run [Text] [Arithmetic] (caller : Caller) : AddLine → Service Unit
  | .revenue a => do let _ ← addRevenueLine caller a
  | .cost a => do let _ ← addCostLine caller a

def AddLine.Valid [Text] (caller : Caller) (db : Database) : AddLine → Prop
  | .revenue a => ∃ status, a.Accepted caller db status
  | .cost a => ∃ status, a.Accepted caller db status

/-- The ledgers with the line as the request gives it, which the synchronisation goes by. -/
def AddLine.given [Text] [Arithmetic] (caller : Caller) (db : Database) : AddLine → Database
  | .revenue a =>
    match RevenueLineStatus.parse (upper (strip a.status)) with
    | some status => withRevenueLine caller a status db
    | none => db
  | .cost a =>
    match CostLineStatus.parse (upper (strip a.status)) with
    | some status => withCostLine caller a status db
    | none => db

/-- The ledgers with the line as it is stored, and the exceptions as they were. -/
def AddLine.written [Text] [Arithmetic] (caller : Caller) (db : Database) : AddLine → Database
  | .revenue a =>
    match RevenueLineStatus.parse (upper (strip a.status)) with
    | some status => withStoredRevenueLine caller a status db
    | none => db
  | .cost a =>
    match CostLineStatus.parse (upper (strip a.status)) with
    | some status => withStoredCostLine caller a status db
    | none => db

/-- The profitability that the synchronisation is given. -/
def AddLine.profitability [Text] [Arithmetic] (caller : Caller) (db : Database) (l : AddLine) :
    Profitability :=
  profitabilityOf .stored l.shipmentId (l.given caller db)

/-- `OPEN`, `ACKNOWLEDGED` or `UNDER_INVESTIGATION`. -/
def Active (e : ShipmentException) : Prop :=
  e.status = .opened ∨ e.status = .acknowledged ∨ e.status = .underInvestigation

structure ActiveLoss (shipmentId tenantId : Uuid) (e : ShipmentException) : Prop where
  shipment : e.shipmentId = shipmentId
  tenant : e.tenantId = tenantId
  loss : e.exceptionType = "CARGO_LOSS"
  active : Active e

theorem openLoss_iff {caller : Caller} {shipmentId : Uuid} {e : ShipmentException} :
    openLoss caller shipmentId e = true ↔ ActiveLoss shipmentId caller.tenantId e := by
  simp only [openLoss, Bool.and_eq_true, Bool.or_eq_true, decide_eq_true_eq]
  constructor
  · rintro ⟨⟨⟨hshipment, htenant⟩, hloss⟩, hactive⟩
    exact ⟨hshipment, htenant, hloss, or_assoc.mp hactive⟩
  · rintro ⟨hshipment, htenant, hloss, hactive⟩
    exact ⟨⟨⟨hshipment, htenant⟩, hloss⟩, or_assoc.mpr hactive⟩

instance (shipmentId tenantId : Uuid) (e : ShipmentException) :
    Decidable (ActiveLoss shipmentId tenantId e) :=
  decidable_of_iff (openLoss ⟨tenantId, 0, ⟨0, 0, 0⟩, 0⟩ shipmentId e = true) openLoss_iff

def activeLosses (caller : Caller) (shipmentId : Uuid) (db : Database) : List ShipmentException :=
  db.shipmentExceptions.rows.filter (openLoss caller shipmentId)

theorem mem_activeLosses {caller : Caller} {shipmentId : Uuid} {db : Database}
    {e : ShipmentException} : e ∈ activeLosses caller shipmentId db ↔
      e ∈ db.shipmentExceptions ∧ ActiveLoss shipmentId caller.tenantId e := by
  rw [activeLosses, List.mem_filter, openLoss_iff]
  exact Iff.rfl

section Calls
variable [Text] [Arithmetic] {caller : Caller} {db db' : Database} {l : AddLine}

theorem AddLine.run_ok {u : Unit} :
    (l.run caller).run db = .ok u db' ↔ l.Valid caller db ∧
      ∃ o, activeLosses caller l.shipmentId db = o.toList ∧
        db' = { l.written caller db with
          shipmentExceptions := synced caller l.shipmentId (l.profitability caller db)
            db.shipmentExceptions o } := by
  cases l with
  | revenue a =>
    unfold AddLine.run
    simp only [run_bind_ok, run_pure_ok, run_addRevenueLine_iff]
    constructor
    · rintro ⟨_, _, ⟨status, hvalid, rfl, o, ho, rfl⟩, _, rfl⟩
      refine ⟨⟨status, hvalid⟩, o, ho, ?_⟩
      simp only [AddLine.profitability, AddLine.given, AddLine.written, AddLine.shipmentId,
        hvalid.status]
    · rintro ⟨⟨status, hvalid⟩, o, ho, rfl⟩
      refine ⟨_, _, ⟨status, hvalid, rfl, o, ho, rfl⟩, trivial, ?_⟩
      simp only [AddLine.profitability, AddLine.given, AddLine.written, AddLine.shipmentId,
        hvalid.status]
  | cost a =>
    unfold AddLine.run
    simp only [run_bind_ok, run_pure_ok, run_addCostLine_iff]
    constructor
    · rintro ⟨_, _, ⟨status, hvalid, rfl, o, ho, rfl⟩, _, rfl⟩
      refine ⟨⟨status, hvalid⟩, o, ho, ?_⟩
      simp only [AddLine.profitability, AddLine.given, AddLine.written, AddLine.shipmentId,
        hvalid.status]
    · rintro ⟨⟨status, hvalid⟩, o, ho, rfl⟩
      refine ⟨_, _, ⟨status, hvalid, rfl, o, ho, rfl⟩, trivial, ?_⟩
      simp only [AddLine.profitability, AddLine.given, AddLine.written, AddLine.shipmentId,
        hvalid.status]

/-- A valid call goes through as long as there are no two active exceptions to choose from. -/
theorem AddLine.succeeds_iff (hvalid : l.Valid caller db) :
    Succeeds (l.run caller) db ↔ (activeLosses caller l.shipmentId db).length ≤ 1 := by
  constructor
  · rintro ⟨u, t, h⟩
    obtain ⟨_, o, ho, _⟩ := AddLine.run_ok.mp h
    rw [ho]
    cases o <;> simp
  · intro hlength
    have ho : ∃ o : Option ShipmentException, activeLosses caller l.shipmentId db = o.toList := by
      match h : activeLosses caller l.shipmentId db with
      | [] => exact ⟨none, rfl⟩
      | [e] => exact ⟨some e, rfl⟩
      | e :: e' :: es => simp [h] at hlength
    obtain ⟨o, ho⟩ := ho
    exact ⟨(), _, AddLine.run_ok.mpr ⟨hvalid, o, ho, rfl⟩⟩

end Calls

section Frame
variable [Text] {caller : Caller} {shipmentId : Uuid} {p : Profitability}
  {t : Table ShipmentException} {e : ShipmentException}

/-- The exception reads exactly as the synchronisation would write it. -/
def ReadsAsLoss (shipmentId : Uuid) (p : Profitability) (e : ShipmentException) : Prop :=
  p.grossProfit < 0 ∧
    ShipmentException.restate (lossDescription shipmentId p) |p.grossProfit| e = e

omit [Text] in
theorem not_active_recover (now : Timestamp) : ¬ Active (ShipmentException.recover now e) := by
  rintro (h | h | h) <;> cases h

theorem mem_synced_of_ne {r : ShipmentException} {o : Option ShipmentException} (hr : r ∈ t)
    (hne : ∀ e ∈ o, r.id ≠ e.id) : r ∈ synced caller shipmentId p t o := by
  unfold synced
  cases o with
  | some e =>
    have hkeep : ∀ (f : ShipmentException → ShipmentException) (hf : KeepsKey f),
        r ∈ t.update e.id f hf := fun f hf =>
      Table.mem_update.mpr (Or.inl ⟨hr, hne e rfl⟩)
    dsimp only
    split
    · exact hkeep _ _
    · exact hkeep _ _
  | none =>
    dsimp only
    split
    · exact Table.mem_insert_of_mem hr
    · exact hr

/-- The exception that is taken for the synchronisation's own stays only if it reads like it. -/
theorem mem_synced_self (he : e ∈ t) (hactive : Active e) :
    e ∈ synced caller shipmentId p t (some e) ↔ ReadsAsLoss shipmentId p e := by
  have hupdate : ∀ (f : ShipmentException → ShipmentException) (hf : KeepsKey f),
      e ∈ t.update e.id f hf ↔ f e = e := by
    intro f hf
    rw [Table.mem_update_of_mem he, or_iff_right fun h => h.2 rfl]
    exact eq_comm
  unfold synced ReadsAsLoss
  dsimp only
  split_ifs with hneg
  · rw [hupdate]
    exact ⟨fun h => ⟨hneg, h⟩, fun h => h.2⟩
  · rw [hupdate]
    refine iff_of_false (fun h => not_active_recover (e := e) caller.now ?_) fun h => hneg h.1
    rw [h]
    exact hactive

/-- The call goes through, and exceptions other than the synchronisation's own stay as they are. -/
def KeepsOthers (own : Uuid → Prop) (x : Service Unit) (db : Database) : Prop :=
  Succeeds x db ∧
    ∀ e ∈ db.shipmentExceptions, ¬ own e.id → e ∈ (commit x db).shipmentExceptions

/-- There is at most one active exception, and it is the synchronisation's own or looks like it. -/
def Undisputed [Arithmetic] (own : Uuid → Prop) (caller : Caller) (l : AddLine) (db : Database) : Prop :=
  (activeLosses caller l.shipmentId db).length ≤ 1 ∧
    ∀ e ∈ activeLosses caller l.shipmentId db,
      own e.id ∨ ReadsAsLoss l.shipmentId (l.profitability caller db) e

end Frame

section Verbatim
open Friet.Verbatim Doubles

/-- Freight charges in dollars, billed to the customer or by a carrier. -/
def freightRevenue (amount : Money) : AddRevenueLine where
  shipmentId := 1
  chargeCode := "FREIGHT"
  amount := amount
  currencyCode := "USD"
  isAdditional := false
  description := none
  quantity := 1
  unitRate := none
  quotationLineId := none
  status := "ESTIMATED"

def freightCost (amount : Money) : AddCostLine where
  shipmentId := 1
  chargeCode := "FREIGHT"
  amount := amount
  currencyCode := "USD"
  vendorId := none
  carrierId := none
  isAdditional := false
  description := none
  quantity := 1
  unitRate := none
  quotationLineId := none
  status := "ESTIMATED"

def lossReport (description : String) : CreateException where
  shipmentId := 1
  exceptionType := "LOSS"
  description := description
  severity := none
  domain := none
  financialImpactEstimated := 0
  ownerId := none

def atLoss : Database := commit (addCostLine clerk (freightCost 50)) shipped

def reported : Database := commit (createException clerk (lossReport "Two pallets missing")) shipped

def reportedTwice : Database :=
  commit (createException clerk (lossReport "A third pallet missing")) reported

end Verbatim

end Friet.Exceptions
