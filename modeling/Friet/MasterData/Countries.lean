import Friet.Core
import Friet.Lib.Dict

/-!
# Countries of the master data: `add_country`, `is_country_sanctioned`

A country is filed under its ISO code in capitals and under its identifier as it is; what is
asked for is put in capitals before it is looked up.
-/

set_option autoImplicit false

namespace Friet.MasterData

structure Country where
  isoCode : String
  name : String
  region : String
  tradeZone : String
  isSanctioned : Bool
  requiresPermit : Bool
  id : String
  deriving DecidableEq

/-- `_countries` of `InMemoryMasterDataRepository`. -/
abbrev Countries := String → Option Country

section Service
variable [Text]

def addCountry (countries : Countries) (country : Country) : Countries :=
  let countries := Function.update countries (upper country.isoCode) (some country)
  Function.update countries country.id (some country)

def getCountry (countries : Countries) (isoCode : String) : Option Country :=
  countries (upper isoCode)

def isCountrySanctioned (countries : Countries) (isoCode : String) : Bool :=
  match getCountry countries isoCode with
  | some country => country.isSanctioned
  | none => false

/-- What a sequence of calls leaves in a new repository. -/
def registered (countries : List Country) : Countries := countries.foldl addCountry fun _ => none

end Service

/-- What is relied on of `str.upper` for texts with ASCII letters: each of them becomes its capital,
whatever else the text holds. -/
class Letters extends Capitals where
  upper_ascii : ∀ s : String, (∀ c ∈ s.toList, c.toNat < 128) →
    (upper s).toList = s.toList.map Char.toUpper
  upper_congr : ∀ s t : String, s.toList.map Char.toLower = t.toList.map Char.toLower →
    upper s = upper t

export Letters (upper_ascii upper_congr)

/-- The same text but for the case of its letters. -/
def SameLetters (s t : String) : Prop := s.toList.map Char.toLower = t.toList.map Char.toLower

instance (s t : String) : Decidable (SameLetters s t) :=
  inferInstanceAs (Decidable (s.toList.map Char.toLower = t.toList.map Char.toLower))

def hexDigits : List Char :=
  ['0', '1', '2', '3', '4', '5', '6', '7', '8', '9', 'a', 'b', 'c', 'd', 'e', 'f']

/-- As `str(uuid.uuid4())` writes it, in lower case. -/
def IsUuidText (s : String) : Prop :=
  s.toList.length = 36 ∧
    ∀ p ∈ s.toList.zipIdx, if p.2 ∈ [8, 13, 18, 23] then p.1 = '-' else p.1 ∈ hexDigits

instance (s : String) : Decidable (IsUuidText s) := inferInstanceAs (Decidable (_ ∧ _))

def HasNoLetter (s : String) : Prop := ∀ c ∈ s.toList, c.isAlpha = false

instance (s : String) : Decidable (HasNoLetter s) := List.decidableBAll _ s.toList

/-- Two letters, as in ISO 3166. -/
def IsIsoCode (s : String) : Prop := s.toList.length = 2 ∧ ∀ c ∈ s.toList, c.isAlpha = true

instance (s : String) : Decidable (IsIsoCode s) :=
  @instDecidableAnd _ _ _ (List.decidableBAll _ s.toList)

theorem IsUuidText.mem_chars {s : String} (h : IsUuidText s) {c : Char} (hc : c ∈ s.toList) :
    c ∈ '-' :: hexDigits := by
  obtain ⟨i, hi⟩ := List.mem_iff_getElem?.mp hc
  have hp := h.2 (c, i) (List.mem_zipIdx_iff_getElem?.mpr hi)
  by_cases hhyphen : i ∈ [8, 13, 18, 23]
  · rw [if_pos hhyphen] at hp
    exact List.mem_cons.mpr (Or.inl hp)
  · rw [if_neg hhyphen] at hp
    exact List.mem_cons_of_mem _ hp

theorem chars_ascii : ∀ c ∈ '-' :: hexDigits, c.toNat < 128 := by simp [hexDigits]

theorem toUpper_mem_chars_iff :
    ∀ c ∈ '-' :: hexDigits, c.toUpper ∈ '-' :: hexDigits ↔ c.isAlpha = false := by
  simp [hexDigits]

theorem toUpper_eq_of_not_isAlpha :
    ∀ c ∈ '-' :: hexDigits, c.isAlpha = false → c.toUpper = c := by
  simp [hexDigits]

theorem toUpper_inj_chars :
    ∀ c ∈ '-' :: hexDigits, ∀ d ∈ '-' :: hexDigits, c.toUpper = d.toUpper → c = d := by
  simp [hexDigits]

theorem toNat_lt_of_isAlpha {c : Char} (h : c.isAlpha = true) : c.toNat < 128 := by
  rcases (Bool.or_eq_true _ _).mp h with hupper | hlower
  · have hz : c.val ≤ 'Z'.val := (of_decide_eq_true hupper).2
    exact Nat.lt_of_le_of_lt (UInt32.le_iff_toNat_le.mp hz) (by decide)
  · have hz : c.val ≤ 'z'.val := of_decide_eq_true ((Bool.and_eq_true _ _).mp hlower).2
    exact Nat.lt_of_le_of_lt (UInt32.le_iff_toNat_le.mp hz) (by decide)

section Identifiers
variable [Letters] {s t : String}

theorem toList_upper (h : IsUuidText s) : (upper s).toList = s.toList.map Char.toUpper :=
  upper_ascii s fun _ hc => chars_ascii _ (h.mem_chars hc)

theorem length_upper (h : IsUuidText s) : (upper s).toList.length = 36 := by
  rw [toList_upper h, List.length_map, h.1]

theorem upper_of_hasNoLetter (h : IsUuidText s) (hs : HasNoLetter s) : upper s = s := by
  have hsame : ∀ c ∈ s.toList, c.toUpper = id c := by
    intro c hc
    exact toUpper_eq_of_not_isAlpha c (h.mem_chars hc) (hs c hc)
  apply String.toList_inj.mp
  rw [toList_upper h, List.map_congr_left hsame, List.map_id]

theorem hasNoLetter_of_upper_eq (hs : IsUuidText s) (ht : IsUuidText t) (h : t = upper s) :
    HasNoLetter s := by
  intro c hc
  have hmem : c.toUpper ∈ t.toList := by
    rw [h, toList_upper hs]
    exact List.mem_map_of_mem hc
  exact (toUpper_mem_chars_iff c (hs.mem_chars hc)).mp (ht.mem_chars hmem)

theorem upper_inj (hs : IsUuidText s) (ht : IsUuidText t) (h : upper s = upper t) : s = t := by
  have hlists := congrArg String.toList h
  rw [toList_upper hs, toList_upper ht] at hlists
  apply String.toList_inj.mp
  have hlength : s.toList.length = t.toList.length := by rw [hs.1, ht.1]
  apply List.ext_getElem hlength
  intro i hi hj
  apply toUpper_inj_chars _ (hs.mem_chars (List.getElem_mem hi)) _
    (ht.mem_chars (List.getElem_mem hj))
  have hi' := List.getElem_of_eq hlists (by simpa using hi)
  simpa using hi'

theorem length_upper_isoCode (h : IsIsoCode s) : (upper s).toList.length = 2 := by
  rw [upper_ascii s fun c hc => toNat_lt_of_isAlpha (h.2 c hc), List.length_map, h.1]

end Identifiers

/-- Registered countries have distinct ISO codes, and distinct identifiers as they are generated. -/
structure Registered (cs : List Country) : Prop where
  isoCodes : (cs.map Country.isoCode).Nodup
  ids : (cs.map Country.id).Nodup
  generated : ∀ c ∈ cs, IsUuidText c.id

section Lookups
variable [Letters] {cs : List Country}

def filedAs (c : Country) : List String := [upper c.isoCode, c.id]

/-- What is looked up for a country: its ISO code and its identifier, both in capitals. -/
def askedAs (c : Country) : List String := [upper c.isoCode, upper c.id]

/-- Every country is answered for by its own status, by its identifier and by its ISO code
in any letter case. -/
structure SanctionsFound (cs : List Country) : Prop where
  byId : ∀ c ∈ cs, isCountrySanctioned (registered cs) c.id = c.isSanctioned
  byIsoCode : ∀ c ∈ cs, ∀ code, SameLetters code c.isoCode →
    isCountrySanctioned (registered cs) code = c.isSanctioned

structure Findable (cs : List Country) : Prop where
  alike : ∀ c ∈ cs, ∀ d ∈ cs, ∀ code ∈ askedAs c, code ∈ askedAs d →
    c.isSanctioned = d.isSanctioned
  filed : ∀ c ∈ cs, c.isSanctioned = true →
    HasNoLetter c.id ∨ ∃ d ∈ cs, upper d.isoCode = upper c.id

theorem registered_eq (cs : List Country) : registered cs = Dict.filed filedAs cs := rfl

theorem isCountrySanctioned_registered (code : String) :
    isCountrySanctioned (registered cs) code =
      (Dict.filed filedAs cs (upper code)).any Country.isSanctioned := by
  rw [isCountrySanctioned, getCountry, registered_eq]
  cases Dict.filed filedAs cs (upper code) <;> rfl

theorem sanctionsFound_iff_answered : SanctionsFound cs ↔ ∀ c ∈ cs, ∀ code ∈ askedAs c,
    (Dict.filed filedAs cs code).any Country.isSanctioned = c.isSanctioned := by
  constructor
  · intro h c hc code hcode
    rcases List.mem_pair.mp hcode with rfl | rfl
    · rw [← isCountrySanctioned_registered]
      exact h.byIsoCode c hc c.isoCode rfl
    · rw [← isCountrySanctioned_registered]
      exact h.byId c hc
  · intro h
    constructor
    · intro c hc
      rw [isCountrySanctioned_registered]
      exact h c hc (upper c.id) (by simp [askedAs])
    · intro c hc code hcode
      rw [isCountrySanctioned_registered, upper_congr _ _ hcode]
      exact h c hc (upper c.isoCode) (by simp [askedAs])

/-- Whatever lies under a code that is looked up is looked up there itself. -/
theorem mem_askedAs_of_mem_filedAs {c d : Country} {code : String} (hasked : code ∈ askedAs c)
    (hfiled : code ∈ filedAs d) : code ∈ askedAs d := by
  have hcapitals : upper code = code := by
    rcases List.mem_pair.mp hasked with rfl | rfl <;> exact upper_upper _
  rcases List.mem_pair.mp hfiled with hcode | hcode
  · exact List.mem_pair.mpr (Or.inl hcode)
  · apply List.mem_pair.mpr
    rw [← hcode, hcapitals]
    exact Or.inr rfl

theorem filed_iff (hcs : ∀ c ∈ cs, IsUuidText c.id) {c : Country} (hc : c ∈ cs) :
    (∀ code ∈ askedAs c, ∃ d ∈ cs, code ∈ filedAs d) ↔
      HasNoLetter c.id ∨ ∃ d ∈ cs, upper d.isoCode = upper c.id := by
  constructor
  · intro h
    obtain ⟨d, hd, hcode⟩ := h (upper c.id) (by simp [askedAs])
    rcases List.mem_pair.mp hcode with hcode | hcode
    · exact Or.inr ⟨d, hd, hcode.symm⟩
    · exact Or.inl (hasNoLetter_of_upper_eq (hcs c hc) (hcs d hd) hcode.symm)
  · intro h code hcode
    rcases List.mem_pair.mp hcode with rfl | rfl
    · exact ⟨c, hc, by simp [filedAs]⟩
    · rcases h with hletter | ⟨d, hd, hcode⟩
      · refine ⟨c, hc, ?_⟩
        rw [upper_of_hasNoLetter (hcs c hc) hletter]
        simp [filedAs]
      · refine ⟨d, hd, ?_⟩
        rw [← hcode]
        simp [filedAs]

theorem sanctionsFound_iff_findable (hcs : ∀ c ∈ cs, IsUuidText c.id) :
    SanctionsFound cs ↔ Findable cs := by
  rw [sanctionsFound_iff_answered,
    Dict.answered_iff fun c _ d _ code hasked hfiled => mem_askedAs_of_mem_filedAs hasked hfiled]
  constructor
  · intro h
    obtain ⟨halike, hfiled⟩ := h
    exact ⟨halike, fun c hc hflag => (filed_iff hcs hc).mp (hfiled c hc hflag)⟩
  · intro h
    exact ⟨h.alike, fun c hc hflag => (filed_iff hcs hc).mpr (h.filed c hc hflag)⟩

theorem upper_isoCode_ne_upper_id {c d : Country} (hc : IsIsoCode c.isoCode)
    (hd : IsUuidText d.id) : upper c.isoCode ≠ upper d.id := by
  intro heq
  have htwo := length_upper_isoCode hc
  rw [heq, length_upper hd] at htwo
  omega

theorem eq_of_mem_askedAs (hcs : Registered cs) (hiso : ∀ c ∈ cs, IsIsoCode c.isoCode)
    (hdistinct : (cs.map fun c => upper c.isoCode).Nodup) {c d : Country} (hc : c ∈ cs)
    (hd : d ∈ cs) {code : String} (hcode : code ∈ askedAs c) (hcode' : code ∈ askedAs d) :
    c = d := by
  rcases List.mem_pair.mp hcode with hc' | hc' <;> rcases List.mem_pair.mp hcode' with hd' | hd'
  · exact List.inj_on_of_nodup_map hdistinct hc hd (hc'.symm.trans hd')
  · exact absurd (hc'.symm.trans hd')
      (upper_isoCode_ne_upper_id (hiso c hc) (hcs.generated d hd))
  · exact absurd (hd'.symm.trans hc')
      (upper_isoCode_ne_upper_id (hiso d hd) (hcs.generated c hc))
  · apply List.inj_on_of_nodup_map hcs.ids hc hd
    exact upper_inj (hcs.generated c hc) (hcs.generated d hd) (hc'.symm.trans hd')

theorem findable_iff_of_isoCodes (hcs : Registered cs) (hiso : ∀ c ∈ cs, IsIsoCode c.isoCode)
    (hdistinct : (cs.map fun c => upper c.isoCode).Nodup) :
    Findable cs ↔ ∀ c ∈ cs, c.isSanctioned = true → HasNoLetter c.id := by
  constructor
  · intro h c hc hflag
    rcases h.filed c hc hflag with hletter | ⟨d, hd, hcode⟩
    · exact hletter
    · exact absurd hcode (upper_isoCode_ne_upper_id (hiso d hd) (hcs.generated c hc))
  · intro h
    constructor
    · intro c hc d hd code hcode hcode'
      rw [eq_of_mem_askedAs hcs hiso hdistinct hc hd hcode hcode']
    · intro c hc hflag
      exact Or.inl (h c hc hflag)

/-- Under two-letter codes, each given to one country whatever its case, just the sanctioned
countries with a letter in their identifiers are missed. -/
theorem sanctions_found_iff (hcs : Registered cs) : (SanctionsFound cs ↔ Findable cs) ∧
    ((∀ c ∈ cs, IsIsoCode c.isoCode) → (cs.map fun c => upper c.isoCode).Nodup →
      (SanctionsFound cs ↔ ∀ c ∈ cs, c.isSanctioned = true → HasNoLetter c.id)) := by
  have hfound := sanctionsFound_iff_findable hcs.generated
  refine ⟨hfound, ?_⟩
  intro hiso hdistinct
  rw [hfound]
  exact findable_iff_of_isoCodes hcs hiso hdistinct

end Lookups

namespace Ascii

/-- `str.upper` on texts of ASCII characters. -/
def capitals (s : String) : String := String.ofList (s.toList.map Char.toUpper)

theorem forall_char (P : Char → Prop) (hascii : ∀ n < 128, P (Char.ofNat n))
    (hrest : ∀ c : Char, c.toUpper = c → c.toLower = c → P c) (c : Char) : P c := by
  by_cases h : c.toNat < 128
  · have hc := hascii c.toNat h
    rwa [Char.ofNat_toNat] at hc
  · have hval : ¬ c.val.toNat < 128 := h
    apply hrest c
    · refine dif_neg ?_
      simp [UInt32.le_iff_toNat_le]
      omega
    · refine dif_neg ?_
      simp [UInt32.le_iff_toNat_le]
      omega

theorem toUpper_toUpper (c : Char) : c.toUpper.toUpper = c.toUpper := by
  refine forall_char (fun c => c.toUpper.toUpper = c.toUpper) (by decide) ?_ c
  intro c hupper _
  rw [hupper, hupper]

theorem toUpper_toLower (c : Char) : c.toLower.toUpper = c.toUpper := by
  refine forall_char (fun c => c.toLower.toUpper = c.toUpper) (by decide) ?_ c
  intro c _ hlower
  rw [hlower]

theorem toUpper_of_isUpper (c : Char) : c.isUpper = true → c.toUpper = c := by
  refine forall_char (fun c => c.isUpper = true → c.toUpper = c) (by decide) ?_ c
  intro c hupper _ _
  exact hupper

theorem toList_capitals (s : String) : (capitals s).toList = s.toList.map Char.toUpper :=
  String.toList_ofList

theorem capitals_capitals (s : String) : capitals (capitals s) = capitals s := by
  apply String.toList_inj.mp
  rw [toList_capitals, toList_capitals, List.map_map]
  exact List.map_congr_left fun c _ => toUpper_toUpper c

theorem capitals_of_isUpper {s : String} (hs : s.toList.all Char.isUpper = true) :
    capitals s = s := by
  have hsame : ∀ c ∈ s.toList, c.toUpper = id c := by
    intro c hc
    exact toUpper_of_isUpper c (List.all_eq_true.mp hs c hc)
  apply String.toList_inj.mp
  rw [toList_capitals, List.map_congr_left hsame, List.map_id]

theorem capitals_congr {s t : String}
    (h : s.toList.map Char.toLower = t.toList.map Char.toLower) : capitals s = capitals t := by
  have hlists := congrArg (List.map Char.toUpper) h
  simp only [List.map_map, Function.comp_def, toUpper_toLower] at hlists
  apply String.toList_inj.mp
  rw [toList_capitals, toList_capitals]
  exact hlists

/-- Enough for runs on ASCII texts that are trimmed. -/
scoped instance letters : Letters where
  toText := { Verbatim.text with upper := capitals }
  upper_upper := capitals_capitals
  upper_of_capitals _ := capitals_of_isUpper
  upper_ascii s _ := toList_capitals s
  upper_congr _ _ := capitals_congr

end Ascii

section Iran
open scoped Ascii

def iran : Country where
  isoCode := "IR"
  name := "Iran"
  region := "Middle East"
  tradeZone := ""
  isSanctioned := true
  requiresPermit := false
  id := "7c9e6679-7425-40de-944b-e07fc1f90ae7"

def pakistan : Country where
  isoCode := "PK"
  name := "Pakistan"
  region := "South Asia"
  tradeZone := "SAARC"
  isSanctioned := false
  requiresPermit := false
  id := "f47ac10b-58cc-4372-a567-0e02b2c3d479"

theorem registered_pakistan_iran : Registered [pakistan, iran] where
  isoCodes := by decide
  ids := by decide
  generated := by decide

theorem iran_missed : Registered [pakistan, iran] ∧ ¬ SanctionsFound [pakistan, iran] := by
  refine ⟨registered_pakistan_iran, ?_⟩
  intro h
  have hiran := h.byId iran (by decide)
  exact absurd hiran (by decide)

def northKorea : Country where
  isoCode := "kp"
  name := "North Korea"
  region := "East Asia"
  tradeZone := ""
  isSanctioned := true
  requiresPermit := false
  id := "90182734-5061-4728-8394-050617283940"

theorem sanctions_found_by_digits : SanctionsFound [pakistan, northKorea] := by
  have hregistered : Registered [pakistan, northKorea] :=
    ⟨by decide, by decide, by decide⟩
  exact ((sanctions_found_iff hregistered).2 (by decide) (by decide)).mpr (by decide)

end Iran

end Friet.MasterData
