import Friet.Database
import Mathlib.Data.List.Sort

/-!
# The timeline of a shipment: `TrackingService.get_timeline`
-/

set_option autoImplicit false

namespace Friet.Tracking

inductive EventCategory where
  | booking
  | cargo
  | transport
  | customs
  | delivery
  | exception
  deriving DecidableEq

def EventCategory.value : EventCategory → String
  | .booking => "BOOKING"
  | .cargo => "CARGO"
  | .transport => "TRANSPORT"
  | .customs => "CUSTOMS"
  | .delivery => "DELIVERY"
  | .exception => "EXCEPTION"

/-- The event types that `EVENT_TAXONOMY` puts in the category. -/
def EventCategory.eventTypes : EventCategory → List String
  | .booking =>
    ["BOOKING_REQUESTED", "BOOKING_CONFIRMED", "BOOKING_AMENDED", "BOOKING_CANCELLED",
      "BOOKING_ROLLED", "CONTAINER_ORDERED", "CONTAINER_RELEASED", "SPACE_CONFIRMED",
      "SI_SUBMITTED", "BOOKING_REJECTED"]
  | .cargo =>
    ["CARGO_READY", "CARGO_PICKED_UP", "CARGO_RECEIVED_ORIGIN", "CARGO_RECEIVED_CY",
      "CARGO_STUFFED", "CARGO_SCREENED", "CARGO_WAREHOUSE_IN", "CARGO_BUILT_UP",
      "CARGO_ACCEPTED_AIRLINE", "CARGO_STRIPPED", "CARGO_STORED", "CARGO_BREAKDOWN"]
  | .transport =>
    ["GATE_IN", "VGM_SUBMITTED", "LOADED_ON_VESSEL", "LOADED_ON_AIRCRAFT", "DEPARTED",
      "IN_TRANSIT", "TRANSSHIPPED", "ARRIVED", "DISCHARGED", "GATE_OUT_EMPTY", "GATE_OUT_LADEN",
      "RETURNED_TO_DEPOT", "FEEDER_DEPARTED", "FEEDER_ARRIVED", "MBL_ISSUED", "HBL_ISSUED",
      "MAWB_ISSUED", "HAWB_ISSUED"]
  | .customs =>
    ["DECLARATION_FILED", "CUSTOMS_UNDER_EXAMINATION", "CUSTOMS_ASSESSED", "DUTY_PAID",
      "CUSTOMS_CLEARED", "CUSTOMS_HELD", "CUSTOMS_RELEASED", "SANCTIONS_CHECK_PASSED",
      "SANCTIONS_HELD", "INSPECTION_COMPLETED"]
  | .delivery =>
    ["DO_ISSUED", "OUT_FOR_DELIVERY", "ATTEMPTED_DELIVERY", "DELIVERED", "POD_RECEIVED",
      "POD_CONFIRMED", "EMPTY_RETURNED", "DELIVERY_RESCHEDULED", "FINANCIALLY_SETTLED",
      "SHIPMENT_CLOSED"]
  | .exception =>
    ["SHIPMENT_DELAY", "VESSEL_ROLL", "CARGO_HOLD", "MISSING_DOCUMENT", "DGR_ISSUE",
      "CARGO_DAMAGE", "CARGO_LOSS", "SHORT_SHIPMENT", "WRONG_DELIVERY", "RETURNED_TO_SHIPPER",
      "SECURITY_HOLD", "WEATHER_DELAY", "EQUIPMENT_FAILURE"]

def eventCategories : List EventCategory :=
  [.booking, .cargo, .transport, .customs, .delivery, .exception]

/-- `validate_event_type`: the normalized type and its category. -/
def validateEventType [Text] (eventType : String) : Option (String × EventCategory) :=
  let normalized := upper (strip eventType)
  (eventCategories.find? fun c => normalized ∈ c.eventTypes).map fun c => (normalized, c)

/-- The category of a known type, and `TRANSPORT` for any other. -/
def getCategoryForEvent [Text] (eventType : String) : String :=
  ((validateEventType eventType).elim EventCategory.transport Prod.snd).value

structure TrackingEvent where
  id : Uuid
  shipmentId : Uuid
  eventType : String
  category : String
  location : Option String
  eventTimeOriginal : Option String
  eventTimeUtc : Timestamp
  description : Option String
  source : String
  createdBy : Option Uuid
  createdAt : Timestamp
  deriving DecidableEq

instance : Keyed TrackingEvent := ⟨TrackingEvent.id⟩

structure TimelineEntry where
  id : Uuid
  shipmentId : Uuid
  eventType : String
  category : String
  location : Option String
  eventTimeOriginal : Option String
  eventTimeUtc : Timestamp
  description : Option String
  source : String
  createdBy : Option Uuid
  deriving DecidableEq

structure GetTimeline where
  shipmentId : Uuid
  category : Option String
  limit : ℤ

/-- `order_by(desc(event_time_utc), desc(created_at))`. -/
def latestFirst (e f : TrackingEvent) : Prop :=
  f.eventTimeUtc < e.eventTimeUtc ∨ (f.eventTimeUtc = e.eventTimeUtc ∧ f.createdAt ≤ e.createdAt)

instance : DecidableRel latestFirst := fun _ _ => inferInstanceAs (Decidable (_ ∨ _))

section Timeline
variable [Text]

/-- The shipment's events, of the category if one is given. -/
def GetTimeline.selects (a : GetTimeline) (e : TrackingEvent) : Prop :=
  e.shipmentId = a.shipmentId ∧ ∀ c ∈ given a.category, e.category = upper c

instance (a : GetTimeline) : DecidablePred a.selects :=
  fun e => inferInstanceAs (Decidable (_ ∧ ∀ c ∈ given a.category, e.category = upper c))

def TrackingEvent.entry (e : TrackingEvent) : TimelineEntry where
  id := e.id
  shipmentId := e.shipmentId
  eventType := e.eventType
  category := if e.category = "" then getCategoryForEvent e.eventType else e.category
  location := e.location
  eventTimeOriginal := e.eventTimeOriginal
  eventTimeUtc := e.eventTimeUtc
  description := e.description
  source := e.source
  createdBy := e.createdBy

/-- The database refuses a negative limit; `order` is how it returns events of the same times. -/
def getTimeline (order : RowOrder TrackingEvent) (a : GetTimeline) (events : Table TrackingEvent) :
    Except AppError (List TimelineEntry) :=
  if a.limit < 0 then throw (.unhandled "DBAPIError")
  else
    let selected := (order.arrange (events.rows.filter (a.selects ·))).insertionSort latestFirst
    pure ((selected.take a.limit.toNat).map TrackingEvent.entry)

end Timeline

end Friet.Tracking
