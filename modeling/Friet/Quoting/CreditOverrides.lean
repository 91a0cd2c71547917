import Friet.Lib.Run
import Friet.Quoting.Service

/-!
# Credit overrides: `MasterDataService.grant_credit_override`

An override is saved with the master data. The credit check of a booking reads the
exposure and the limit of the customer.
-/

set_option autoImplicit false

namespace Friet.Quoting

structure CustomerCreditOverride where
  id : Uuid
  customerId : Uuid
  reason : String
  approvedBy : String
  validFrom : Date
  validTo : Date
  deriving DecidableEq

/-- `id` is the identifier drawn for the override. -/
structure GrantCreditOverride where
  id : Uuid
  customerId : Uuid
  reason : String
  approvedBy : String
  validFrom : Date
  validTo : Date

/-- The repositories of both services; a master repository without `save_credit_override`
keeps no overrides. -/
structure CreditDesk where
  repositories : Repositories
  creditOverrides : Option (List CustomerCreditOverride)

def newOverride (a : GrantCreditOverride) : CustomerCreditOverride where
  id := a.id
  customerId := a.customerId
  reason := a.reason
  approvedBy := a.approvedBy
  validFrom := a.validFrom
  validTo := a.validTo

def grantCreditOverride (d : CreditDesk) (a : GrantCreditOverride) : CreditDesk :=
  { d with creditOverrides := d.creditOverrides.map (· ++ [newOverride a]) }

/-- The override is for the customer, and the day lies in its period. -/
structure GrantCreditOverride.Covers (a : GrantCreditOverride) (customerId : Uuid) (today : Date) :
    Prop where
  customer : a.customerId = customerId
  started : a.validFrom ≤ today
  lasts : today ≤ a.validTo

def Exceeds (s : Repositories) (o : QuotationOption) (c : Customer) : Prop :=
  c.creditLimitAmount < getCustomerExposure c.id s + o.totalSell

def ReportsCreditLimit (errors : List String) : Prop :=
  ∃ e ∈ errors, "Credit limit exceeded".toList <+: e.toList

/-- The pre-booking validation, with the exposure that the customer repository gives. -/
def validateAt [Text] (s : Repositories) (q : Quotation) (o : QuotationOption) (rfq : Rfq)
    (c : Customer) (today : Date) : PreBookingValidationResult :=
  validatePreBooking (getCustomerExposure c.id s) q o rfq c today

section Check
variable [Text] {s : Repositories} {q : Quotation} {o : QuotationOption} {rfq : Rfq} {c : Customer}
  {today : Date}

omit [Text] in
theorem prefix_creditLimitText (rest : String) :
    "Credit limit exceeded".toList <+:
      ("Credit limit exceeded: total exposure $" ++ rest).toList := by
  rw [String.toList_append]
  exact List.IsPrefix.trans (by decide) (List.prefix_append _ _)

omit [Text] in
theorem not_prefix_expiredText (rest : String) :
    ¬ "Credit limit exceeded".toList <+: ("Quotation expired on " ++ rest).toList := by
  rw [String.toList_append]
  simp

theorem reportsCreditLimit_iff : ReportsCreditLimit (validateAt s q o rfq c today).errors ↔
    Exceeds s o c := by
  unfold ReportsCreditLimit validateAt validatePreBooking creditErrors Exceeds
  simp only [List.mem_append]
  constructor
  · rintro ⟨e, (he | he) | he, hprefix⟩
    · by_contra hno
      rw [if_neg hno] at he
      cases he
    · split_ifs at he
      · rw [List.mem_singleton.mp he] at hprefix
        exact absurd hprefix (by decide)
      · cases he
    · split_ifs at he
      · cases he
      · rw [List.mem_singleton.mp he, String.append_assoc] at hprefix
        exact absurd hprefix (not_prefix_expiredText _)
  · intro h
    refine ⟨_, Or.inl (Or.inl (by rw [if_pos h]; exact List.mem_cons_self)), ?_⟩
    rw [String.append_assoc, String.append_assoc]
    exact prefix_creditLimitText _

/-- The error is there when the limit is exceeded and no override granted lifts it. -/
def HonoursOverrides (grants : List GrantCreditOverride) (d : CreditDesk) (q : Quotation)
    (o : QuotationOption) (rfq : Rfq) (c : Customer) (today : Date) : Prop :=
  let s := (grants.foldl grantCreditOverride d).repositories
  ReportsCreditLimit (validateAt s q o rfq c today).errors ↔
    Exceeds s o c ∧ ¬ ∃ a ∈ grants, a.Covers c.id today

omit [Text] in
theorem repositories_grants (grants : List GrantCreditOverride) (d : CreditDesk) :
    (grants.foldl grantCreditOverride d).repositories = d.repositories :=
  foldl_invariant (fun t : CreditDesk => t.repositories = d.repositories) (fun _ _ _ h => h) rfl

end Check

def shipper : Customer := ⟨7, 1000, .a⟩

def seaQuotation : Quotation :=
  ⟨1, "QT-1-260110", 1, ⟨2026, 1, 24⟩, .approved, none, none,
    [⟨"Option A", [⟨"OFT", 1500, 2000⟩], "USD", false⟩], []⟩

def financeOverride : GrantCreditOverride :=
  ⟨1, 7, "Peak season", "CFO", ⟨2026, 1, 1⟩, ⟨2026, 1, 31⟩⟩

end Friet.Quoting
