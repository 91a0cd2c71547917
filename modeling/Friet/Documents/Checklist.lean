import Friet.Core
import Friet.Lib.Cascade
import Mathlib.Data.List.Nodup

/-!
# The checklist rules: `DocumentChecklistEngine`

A rule asks for a type of document when its predicate holds of the shipment's
context. The first rule that asks for a type decides how it is asked for; a
predicate that raises asks for nothing.
-/

set_option autoImplicit false

namespace Friet.Documents

open Cascade

/-- A value of the context; of one that is no text only its truth matters. -/
inductive ContextValue where
  | none
  | bool (b : Bool)
  | str (s : String)
  | other (truthy : Bool)

def ContextValue.truthy : ContextValue → Bool
  | .none => false
  | .bool b => b
  | .str s => s ≠ ""
  | .other truthy => truthy

/-- `ctx.get`. -/
abbrev Context := String → Option ContextValue

def isSet (ctx : Context) (key : String) : Bool := (ctx key).any (·.truthy)

/-- `ctx.get(key, "").upper()`, which only a text has. -/
def upperOf [Text] (ctx : Context) (key : String) : Except String String :=
  match ctx key with
  | none => pure (upper "")
  | some (.str s) => pure (upper s)
  | some _ => throw "AttributeError"

structure ChecklistRule where
  ruleId : String
  docTypeCode : String
  docName : String
  approvalRole : String
  isMandatory : Bool
  stage : String
  predicate : Context → Except String Bool
  description : String

section Predicates
variable [Text]

def always (_ : Context) : Except String Bool := pure true

def textIs (key value : String) (ctx : Context) : Except String Bool := do
  pure ((← upperOf ctx key) = value)

def textIn (key : String) (values : List String) (ctx : Context) : Except String Bool := do
  pure ((← upperOf ctx key) ∈ values)

def anySet (keys : List String) (ctx : Context) : Except String Bool := pure (keys.any (isSet ctx))

/-- `and`: the second condition is looked at when the first holds. -/
def both (first second : Context → Except String Bool) (ctx : Context) : Except String Bool := do
  if ← first ctx then second ctx else pure false

/-- `or`: the second condition is looked at when the first does not hold. -/
def either (first second : Context → Except String Bool) (ctx : Context) : Except String Bool := do
  if ← first ctx then pure true else second ctx

end Predicates

/-- `DEFAULT_CHECKLIST_RULES`. -/
def defaultChecklistRules [Text] : List ChecklistRule := [
  { ruleId := "SEA_BASE_BL", docTypeCode := "BILL_OF_LADING"
    docName := "Bill of Lading (Original / Seaway)", approvalRole := "OPERATIONS"
    isMandatory := true, stage := "DEPARTURE", predicate := textIs "mode" "SEA"
    description := "Mandatory transport contract for all sea freight shipments" },
  { ruleId := "SEA_FCL_VGM", docTypeCode := "VGM_CERTIFICATE"
    docName := "Verified Gross Mass (VGM) Certificate", approvalRole := "OPERATIONS"
    isMandatory := true, stage := "DEPARTURE"
    predicate := both (textIs "mode" "SEA") (textIs "service_type" "FCL")
    description := "SOLAS mandatory container weight verification" },
  { ruleId := "AIR_BASE_AWB", docTypeCode := "AIR_WAYBILL"
    docName := "Air Waybill (MAWB / HAWB)", approvalRole := "OPERATIONS"
    isMandatory := true, stage := "DEPARTURE", predicate := textIs "mode" "AIR"
    description := "Mandatory transport contract for all air freight shipments" },
  { ruleId := "AIR_SCREENING_CERT", docTypeCode := "SECURITY_SCREENING_CERT"
    docName := "Aviation Security Screening Certificate", approvalRole := "OPERATIONS"
    isMandatory := true, stage := "DEPARTURE", predicate := textIs "mode" "AIR"
    description := "Mandatory cargo screening declaration" },
  { ruleId := "COMMERCIAL_INVOICE", docTypeCode := "COMMERCIAL_INVOICE"
    docName := "Commercial Invoice", approvalRole := "CUSTOMS"
    isMandatory := true, stage := "BOOKING", predicate := always
    description := "Standard commercial invoice for customs and valuation" },
  { ruleId := "PACKING_LIST", docTypeCode := "PACKING_LIST"
    docName := "Packing List", approvalRole := "OPERATIONS"
    isMandatory := true, stage := "BOOKING", predicate := always
    description := "Detailed itemized packing specification" },
  { ruleId := "DGR_SHIPPER_DECLARATION", docTypeCode := "DGR_DECLARATION"
    docName := "Shipper's Declaration for Dangerous Goods", approvalRole := "COMPLIANCE"
    isMandatory := true, stage := "BOOKING"
    predicate := either (anySet ["is_dgr"])
      (textIn "commodity" ["DGR", "HAZARDOUS", "DANGEROUS"])
    description :=
      "Mandatory IMO/IATA DGR declaration requiring Compliance Officer approval" },
  { ruleId := "DGR_EMERGENCY_RESPONSE", docTypeCode := "DGR_EMERGENCY_RESPONSE"
    docName := "Material Safety Data Sheet (MSDS) & Emergency Procedures"
    approvalRole := "COMPLIANCE", isMandatory := true, stage := "BOOKING"
    predicate := either (anySet ["is_dgr"])
      (textIn "commodity" ["DGR", "HAZARDOUS", "DANGEROUS"])
    description := "Safety sheet and handling protocols for hazardous materials" },
  { ruleId := "PERISHABLE_PHYTOSANITARY", docTypeCode := "PHYTOSANITARY_CERT"
    docName := "Phytosanitary / Health Certificate", approvalRole := "CUSTOMS"
    isMandatory := true, stage := "DEPARTURE"
    predicate := either (anySet ["is_perishable"])
      (textIn "commodity" ["PERISHABLE", "FOOD", "AGRICULTURE", "FRUITS", "MEAT"])
    description := "Agricultural and health quarantine certificate" },
  { ruleId := "PERISHABLE_TEMP_LOG", docTypeCode := "TEMPERATURE_DATA_LOG"
    docName := "Reefer / Cold-Chain Temperature Log", approvalRole := "OPERATIONS"
    isMandatory := false, stage := "ARRIVAL"
    predicate := anySet ["is_perishable", "temperature_controlled"]
    description := "Continuous cold-chain temperature verification" },
  { ruleId := "LC_CERT_ORIGIN", docTypeCode := "CERTIFICATE_OF_ORIGIN"
    docName := "Chamber of Commerce Certificate of Origin", approvalRole := "CUSTOMS"
    isMandatory := true, stage := "DEPARTURE"
    predicate := anySet ["has_letter_of_credit", "lc_number"]
    description := "Country of origin certification required under LC terms" },
  { ruleId := "LC_INSPECTION_CERT", docTypeCode := "INSPECTION_CERTIFICATE"
    docName := "Pre-Shipment Inspection Certificate", approvalRole := "COMPLIANCE"
    isMandatory := true, stage := "DEPARTURE"
    predicate := anySet ["has_letter_of_credit", "lc_number"]
    description := "Third-party quality and quantity inspection report" },
  { ruleId := "LC_INSURANCE_CERT", docTypeCode := "MARINE_INSURANCE_CERT"
    docName := "Marine Cargo Insurance Policy / Certificate", approvalRole := "OPERATIONS"
    isMandatory := true, stage := "BOOKING"
    predicate := either (anySet ["has_letter_of_credit", "lc_number"])
      (textIn "incoterm" ["CIF", "CIP"])
    description := "Mandatory cargo insurance coverage certificate" },
  { ruleId := "DEST_SAUDI_SABER", docTypeCode := "SABER_SASO_CERTIFICATE"
    docName := "SABER Conformity Certificate (SASO)", approvalRole := "CUSTOMS"
    isMandatory := true, stage := "CUSTOMS"
    predicate := textIn "destination_country" ["SA", "SAU", "SAUDI ARABIA"]
    description := "Saudi Customs mandatory product conformity registration" },
  { ruleId := "DEST_US_ISF", docTypeCode := "US_ISF_10_2"
    docName := "US Customs Importer Security Filing (ISF 10+2)", approvalRole := "CUSTOMS"
    isMandatory := true, stage := "DEPARTURE"
    predicate := textIn "destination_country" ["US", "USA", "UNITED STATES"]
    description := "Mandatory 24-hour advance filing before loading on vessel" },
  { ruleId := "DELIVERY_POD", docTypeCode := "PROOF_OF_DELIVERY"
    docName := "Proof of Delivery (Signed POD / Delivery Order)", approvalRole := "OPERATIONS"
    isMandatory := true, stage := "DELIVERY", predicate := always
    description := "Consignee signature confirming receipt of cargo" }]

structure ChecklistEntry where
  ruleId : String
  docTypeCode : String
  docName : String
  approvalRole : String
  isMandatory : Bool
  stage : String
  status : String
  description : String
  deriving DecidableEq

def ChecklistRule.entry (r : ChecklistRule) : ChecklistEntry where
  ruleId := r.ruleId
  docTypeCode := r.docTypeCode
  docName := r.docName
  approvalRole := r.approvalRole
  isMandatory := r.isMandatory
  stage := r.stage
  status := "REQUIRED"
  description := r.description

def ChecklistRule.applies (ctx : Context) (r : ChecklistRule) : Bool :=
  match r.predicate ctx with
  | .ok b => b
  | .error _ => false

/-- The loop over the rules, with the codes seen so far. -/
def entriesFrom (ctx : Context) : List ChecklistRule → List String → List ChecklistEntry
  | [], _ => []
  | r :: rules, seenCodes =>
    if r.applies ctx = true ∧ r.docTypeCode ∉ seenCodes then
      r.entry :: entriesFrom ctx rules (r.docTypeCode :: seenCodes)
    else entriesFrom ctx rules seenCodes

def DocumentChecklistEngine.generateChecklist (rules : List ChecklistRule) (ctx : Context) : List ChecklistEntry :=
  entriesFrom ctx rules []

theorem nodup_entriesFrom (ctx : Context) (rules : List ChecklistRule) (seenCodes : List String) :
    ((entriesFrom ctx rules seenCodes).map (·.docTypeCode)).Nodup ∧
      ∀ e ∈ entriesFrom ctx rules seenCodes, e.docTypeCode ∉ seenCodes := by
  induction rules generalizing seenCodes with
  | nil => exact ⟨List.nodup_nil, fun e he => by cases he⟩
  | cons r rules ih =>
    unfold entriesFrom
    split_ifs with h
    · obtain ⟨hnodup, hunseen⟩ := ih (r.docTypeCode :: seenCodes)
      constructor
      · rw [List.map_cons, List.nodup_cons]
        refine ⟨fun hmem => ?_, hnodup⟩
        obtain ⟨e, he, heq⟩ := List.mem_map.mp hmem
        refine hunseen e he ?_
        rw [heq]
        exact List.mem_cons_self
      · intro e he
        rcases List.mem_cons.mp he with rfl | he
        · exact h.2
        · exact fun hseen => hunseen e he (List.mem_cons_of_mem _ hseen)
    · exact ih seenCodes

theorem nodup_generateChecklist (rules : List ChecklistRule) (ctx : Context) :
    ((DocumentChecklistEngine.generateChecklist rules ctx).map (·.docTypeCode)).Nodup :=
  (nodup_entriesFrom ctx rules []).1

def DocumentChecklistEngine.addRule (rule : ChecklistRule) (rules : List ChecklistRule) :
    List ChecklistRule := rules ++ [rule]

/-- The first rule that applies and asks for the type of document. -/
def FirstFor (ctx : Context) (docTypeCode : String) : List ChecklistRule → ChecklistRule → Prop :=
  First fun r => r.applies ctx = true ∧ r.docTypeCode = docTypeCode

section Decides
variable {ctx : Context} {rules : List ChecklistRule} {e : ChecklistEntry}

theorem firstFor_cons_iff_of_pos {code : String} {r s : ChecklistRule}
    (h : r.applies ctx = true ∧ r.docTypeCode = code) :
    FirstFor ctx code (r :: rules) s ↔ s = r := first_cons_iff_of_pos h

theorem firstFor_cons_iff_of_neg {code : String} {r s : ChecklistRule}
    (h : ¬ (r.applies ctx = true ∧ r.docTypeCode = code)) :
    FirstFor ctx code (r :: rules) s ↔ FirstFor ctx code rules s := first_cons_iff_of_neg h

theorem mem_entriesFrom_iff {seenCodes : List String} : e ∈ entriesFrom ctx rules seenCodes ↔
    e.docTypeCode ∉ seenCodes ∧ ∃ r, FirstFor ctx e.docTypeCode rules r ∧ e = r.entry := by
  induction rules generalizing seenCodes with
  | nil =>
    constructor
    · intro he
      cases he
    · rintro ⟨-, r, hr, -⟩
      cases hr
  | cons r rules ih =>
    unfold entriesFrom
    split_ifs with h
    · rw [List.mem_cons, ih]
      by_cases hcode : r.docTypeCode = e.docTypeCode
      · simp only [firstFor_cons_iff_of_pos ⟨h.1, hcode⟩, exists_eq_left]
        constructor
        · rintro (rfl | ⟨hunseen, -⟩)
          · exact ⟨h.2, rfl⟩
          · exact absurd (hcode ▸ List.mem_cons_self) hunseen
        · rintro ⟨-, he⟩
          exact Or.inl he
      · have hne : e ≠ r.entry := fun he => hcode (congrArg ChecklistEntry.docTypeCode he).symm
        simp only [firstFor_cons_iff_of_neg fun hr => hcode hr.2, List.mem_cons, not_or,
          or_iff_right hne, and_iff_right (Ne.symm hcode)]
    · rw [ih]
      refine and_congr_right fun hunseen => exists_congr fun s => and_congr_left fun _ => ?_
      have hr : ¬ (r.applies ctx = true ∧ r.docTypeCode = e.docTypeCode) := by
        rintro ⟨happlies, hcode⟩
        exact h ⟨happlies, hcode ▸ hunseen⟩
      exact (firstFor_cons_iff_of_neg hr).symm

theorem mem_generateChecklist_iff : e ∈ DocumentChecklistEngine.generateChecklist rules ctx ↔
    ∃ r, FirstFor ctx e.docTypeCode rules r ∧ e = r.entry :=
  mem_entriesFrom_iff.trans (and_iff_right List.not_mem_nil)

theorem mem_codes_generateChecklist_iff {docTypeCode : String} :
    docTypeCode ∈ (DocumentChecklistEngine.generateChecklist rules ctx).map (·.docTypeCode) ↔
      ∃ r ∈ rules, r.applies ctx = true ∧ r.docTypeCode = docTypeCode := by
  rw [List.mem_map]
  constructor
  · rintro ⟨e, he, rfl⟩
    obtain ⟨r, hr, -⟩ := mem_generateChecklist_iff.mp he
    exact ⟨r, hr.mem, hr.holds⟩
  · intro h
    obtain ⟨r, hr⟩ := exists_first h
    have hcode : r.entry.docTypeCode = docTypeCode := hr.holds.2
    refine ⟨r.entry, mem_generateChecklist_iff.mpr ⟨r, ?_, rfl⟩, hcode⟩
    rwa [hcode]

theorem isMandatory_iff (he : e ∈ DocumentChecklistEngine.generateChecklist rules ctx) :
    e.isMandatory = true ↔ ∃ r, FirstFor ctx e.docTypeCode rules r ∧ r.isMandatory = true := by
  obtain ⟨r, hr, hentry⟩ := mem_generateChecklist_iff.mp he
  have hsame : e.isMandatory = r.isMandatory := congrArg ChecklistEntry.isMandatory hentry
  rw [hsame]
  constructor
  · intro hmandatory
    exact ⟨r, hr, hmandatory⟩
  · rintro ⟨s, hs, hmandatory⟩
    rwa [hr.unique hs]

/-- A type of document is listed once if a rule asks for it, as the first of those rules says. -/
theorem generateChecklist_exact :
    ((DocumentChecklistEngine.generateChecklist rules ctx).map (·.docTypeCode)).Nodup ∧
      (∀ docTypeCode,
        docTypeCode ∈ (DocumentChecklistEngine.generateChecklist rules ctx).map (·.docTypeCode) ↔
          ∃ r ∈ rules, r.applies ctx = true ∧ r.docTypeCode = docTypeCode) ∧
      ∀ e ∈ DocumentChecklistEngine.generateChecklist rules ctx,
        (e.isMandatory = true ↔
          ∃ r, FirstFor ctx e.docTypeCode rules r ∧ r.isMandatory = true) :=
  ⟨nodup_generateChecklist rules ctx, fun _ => mem_codes_generateChecklist_iff,
    fun _ he => isMandatory_iff he⟩

end Decides

/-- The log that the default rules leave optional. -/
def strictTemperatureLog : ChecklistRule where
  ruleId := "STRICT_TEMP_LOG"
  docTypeCode := "TEMPERATURE_DATA_LOG"
  docName := "Reefer / Cold-Chain Temperature Log"
  approvalRole := "OPERATIONS"
  isMandatory := true
  stage := "ARRIVAL"
  predicate := anySet ["is_perishable"]
  description := "Cold chain of a perishable cargo"

open Verbatim in
theorem earlier_rule_keeps_it_optional :
    let rules := DocumentChecklistEngine.addRule strictTemperatureLog defaultChecklistRules
    let ctx : Context := fun key => if key = "is_perishable" then some (.bool true) else none
    ¬ ∀ e ∈ DocumentChecklistEngine.generateChecklist rules ctx,
      (e.isMandatory = true ↔ ∃ r ∈ rules, r.applies ctx = true ∧
        r.docTypeCode = e.docTypeCode ∧ r.isMandatory = true) := by
  intro rules ctx hall
  have hlisted : ∃ e ∈ DocumentChecklistEngine.generateChecklist rules ctx,
      e.docTypeCode = "TEMPERATURE_DATA_LOG" ∧ e.isMandatory = false := by decide +kernel
  obtain ⟨e, he, hcode, hoptional⟩ := hlisted
  have hadded : strictTemperatureLog ∈ rules := List.mem_append_right _ List.mem_cons_self
  have hmandatory : e.isMandatory = true :=
    (hall e he).mpr ⟨strictTemperatureLog, hadded, by decide +kernel, hcode.symm, rfl⟩
  rw [hoptional] at hmandatory
  cases hmandatory

end Friet.Documents
