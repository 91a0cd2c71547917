import Friet.Lib.Accumulate
import Friet.Lib.Json
import Friet.Lib.JsonElements
import Friet.Lib.JsonStrings

/-!
# JSON texts, as `json.loads` reads them

The scanner calls itself for what stands in brackets, and the interpreter lets it do so a limited
number of times. It returns a value just where the text is a document of that value, and runs out
of levels just where a bracket opens inside as many others, whatever comes after it.
-/

set_option autoImplicit false

namespace JsonText

open Unicode

inductive Scalar where
  | null
  | bool (b : Bool)
  | number (n : Number)
  | str (s : Str)
  deriving DecidableEq

abbrev Value := Json Str Scalar

def constants : List (List Char × Scalar) :=
  [(['n', 'u', 'l', 'l'], .null), (['t', 'r', 'u', 'e'], .bool true),
    (['f', 'a', 'l', 's', 'e'], .bool false),
    (['N', 'a', 'N'], .number (.float ['N', 'a', 'N'])),
    (['I', 'n', 'f', 'i', 'n', 'i', 't', 'y'],
      .number (.float ['I', 'n', 'f', 'i', 'n', 'i', 't', 'y'])),
    (['-', 'I', 'n', 'f', 'i', 'n', 'i', 't', 'y'],
      .number (.float ['-', 'I', 'n', 'f', 'i', 'n', 'i', 't', 'y']))]

def scanConstant (t : List Char) : Option (Scalar × List Char) :=
  constants.findSome? fun e => (e.1.isPrefixOf? t).map fun rest => (e.2, rest)

def scanScalar (t : List Char) : Option (Scalar × List Char) :=
  if t.head? = some '"' then (scanString t.tail).map fun r => (.str (join r.1), r.2)
  else (scanConstant t).or ((scanNumber t).map fun r => (.number r.1, r.2))

inductive ScalarText : List Char → Scalar → List Char → Prop where
  | string {t : List Char} {s : Str} {rest : List Char} (h : StringText t s rest) :
    ScalarText ('"' :: t) (.str (join s)) rest
  | constant {name : List Char} {v : Scalar} (rest : List Char) (h : (name, v) ∈ constants) :
    ScalarText (name ++ rest) v rest
  | number {t : List Char} {n : Number} {rest : List Char} (h : NumberText t n rest) :
    ScalarText t (.number n) rest

section Scalars
variable {t rest : List Char} {v : Scalar}

theorem scanScalar_sound (h : scanScalar t = some (v, rest)) : ScalarText t v rest := by
  unfold scanScalar at h
  by_cases hquote : t.head? = some '"'
  · rw [if_pos hquote] at h
    obtain ⟨⟨s, rest⟩, hs, heq⟩ := Option.map_eq_some_iff.mp h
    cases heq
    obtain ⟨t, rfl⟩ := List.head?_eq_some_iff.mp hquote
    exact .string (scanString_eq_some_iff.mp hs)
  · rw [if_neg hquote, Option.or_eq_some_iff] at h
    rcases h with h | ⟨-, h⟩
    · obtain ⟨e, he, hprefix⟩ := List.exists_of_findSome?_eq_some h
      obtain ⟨rest, hrest, heq⟩ := Option.map_eq_some_iff.mp hprefix
      cases heq
      rw [← List.isPrefixOf?_eq_some_iff_append_eq.mp hrest]
      exact .constant rest he
    · obtain ⟨⟨n, rest⟩, hn, heq⟩ := Option.map_eq_some_iff.mp h
      cases heq
      exact .number (scanNumber_sound hn)

theorem scanScalar_constant {name : List Char} (h : (name, v) ∈ constants) :
    scanScalar (name ++ rest) = some (v, rest) := by
  simp only [constants, List.mem_cons, Prod.mk.injEq, List.not_mem_nil, or_false] at h
  rcases h with ⟨rfl, rfl⟩ | ⟨rfl, rfl⟩ | ⟨rfl, rfl⟩ | ⟨rfl, rfl⟩ | ⟨rfl, rfl⟩ | ⟨rfl, rfl⟩ <;>
    rfl

theorem NumberText.head {n : Number} (h : NumberText t n rest) :
    ∃ sign d t', t = sign ++ d :: t' ∧ SignText sign ∧ d.isDigit = true := by
  cases h with
  | @intro sign digits fraction exponent n rest hsign hdigits hfraction hexponent hn =>
    obtain ⟨d, ds, rfl, hd⟩ := hdigits.head (ne_nil_of_numberOf hn)
    exact ⟨sign, d, _, rfl, hsign, hd⟩

theorem scanScalar_number {n : Number} (h : NumberText t n rest) (hrest : HeadNot goesOn rest) :
    scanScalar t = some (.number n, rest) := by
  have hscan := scanNumber_complete h hrest
  obtain ⟨sign, d, t', rfl, hsign, hd⟩ := h.head
  have hne : ∀ c : Char, c.isDigit = false → (c == d) = false := by
    intro c hc
    rw [beq_eq_false_iff_ne]
    rintro rfl
    rw [hd] at hc
    cases hc
  have hconstant : scanConstant (sign ++ d :: t') = none := by
    cases hsign with
    | none =>
      simp [scanConstant, constants, List.isPrefixOf?, hne 'n' rfl, hne 't' rfl, hne 'f' rfl,
        hne 'N' rfl, hne 'I' rfl, hne '-' rfl]
    | minus => simp [scanConstant, constants, List.isPrefixOf?, hne 'I' rfl]
  have hquote : (sign ++ d :: t').head? ≠ some '"' := by
    cases hsign with
    | none =>
      have hd' := hne '"' rfl
      simpa using Ne.symm (beq_eq_false_iff_ne.mp hd')
    | minus => simp
  rw [scanScalar, if_neg hquote, hconstant, hscan]
  rfl

theorem scanScalar_complete (h : ScalarText t v rest) (hrest : HeadNot goesOn rest) :
    scanScalar t = some (v, rest) := by
  cases h with
  | string h =>
    rw [scanScalar, if_pos List.head?_cons, List.tail_cons, scanString_eq_some_iff.mpr h]
    rfl
  | constant rest h => exact scanScalar_constant h
  | number h => exact scanScalar_number h hrest

theorem ScalarText.head?_ne (h : ScalarText t v rest) {c : Char} (hc : c = '[' ∨ c = '{') :
    t.head? ≠ some c := by
  cases h with
  | string h => rcases hc with rfl | rfl <;> simp
  | @constant name v rest h =>
    simp only [constants, List.mem_cons, Prod.mk.injEq, List.not_mem_nil, or_false] at h
    rcases h with ⟨rfl, -⟩ | ⟨rfl, -⟩ | ⟨rfl, -⟩ | ⟨rfl, -⟩ | ⟨rfl, -⟩ | ⟨rfl, -⟩ <;>
      rcases hc with rfl | rfl <;> simp
  | number h =>
    obtain ⟨sign, d, t', rfl, hsign, hd⟩ := h.head
    cases hsign with
    | none =>
      rw [List.nil_append, List.head?_cons, ne_eq, Option.some.injEq]
      rintro rfl
      rcases hc with rfl | rfl <;> exact absurd hd (by decide)
    | minus => rcases hc with rfl | rfl <;> simp

theorem ScalarText.length_le (h : ScalarText t v rest) : rest.length ≤ t.length := by
  cases h with
  | string h =>
    have hle := h.length_le
    rw [List.length_cons]
    omega
  | constant rest h => simp
  | number h =>
    cases h with
    | intro rest hsign hdigits hfraction hexponent hn =>
      simp only [List.length_append]
      omega

end Scalars

/-- A name and its value, as they stand in an object. -/
def scanMember (scan : Scan Value) (t : List Char) : Except ScanError ((Str × Value) × List Char) :=
  if t.head? = some '"' then
    match scanString t.tail with
    | none => .error .invalid
    | some (key, t) =>
      if (skipSpace t).head? = some ':' then do
        let v ← scan (skipSpace (skipSpace t).tail)
        pure ((join key, v.1), v.2)
      else .error .invalid
  else .error .invalid

/-- `dict(pairs)`: the last value of a name stands in the place of the first. -/
def dictOf (members : List (Str × Value)) : List (Str × Value) :=
  Accumulate.accumulate Prod.fst Prod.snd (fun _ m => m.2) members

def scanValue (t : List Char) : Except ScanError (Value × List Char) :=
  match scanScalar t with
  | some r => .ok (.scalar r.1, r.2)
  | none => .error .invalid

/-- `scan_once`, with the levels that the interpreter has left. -/
def scanOnce : ℕ → Scan Value
  | 0, t => if t.head? = some '[' ∨ t.head? = some '{' then .error .tooDeep else scanValue t
  | levels + 1, t =>
    if t.head? = some '[' then do
      let items ← scanElements (scanOnce levels) ']' t.tail
      pure (.list items.1, items.2)
    else if t.head? = some '{' then do
      let members ← scanElements (scanMember (scanOnce levels)) '}' t.tail
      pure (.dict (dictOf members.1), members.2)
    else scanValue t

/-- `json.loads`. -/
def loads (levels : ℕ) (t : List Char) : Except ScanError Value := do
  let v ← scanOnce levels (skipSpace t)
  if skipSpace v.2 = [] then pure v.1 else .error .invalid

inductive MemberText (Item : List Char → Value → List Char → Prop) :
    List Char → Str × Value → List Char → Prop where
  | intro {t t₁ t₂ rest : List Char} {key : Str} {v : Value} (hkey : StringText t key t₁)
    (hcolon : skipSpace t₁ = ':' :: t₂) (hvalue : Item (skipSpace t₂) v rest) :
    MemberText Item ('"' :: t) (join key, v) rest

inductive MemberDeep (Deep : List Char → Prop) : List Char → Prop where
  | intro {t t₁ t₂ : List Char} {key : Str} (hkey : StringText t key t₁)
    (hcolon : skipSpace t₁ = ':' :: t₂) (h : Deep (skipSpace t₂)) : MemberDeep Deep ('"' :: t)

/-- The text begins with a value, in which at most so many brackets are open at once. -/
def ValueText : ℕ → List Char → Value → List Char → Prop
  | 0, t, v, rest => ∃ s, v = .scalar s ∧ ScalarText t s rest
  | levels + 1, t, v, rest =>
    (∃ s, v = .scalar s ∧ ScalarText t s rest) ∨
    (∃ t₁ items, t = '[' :: t₁ ∧ v = .list items ∧
      Elements (ValueText levels) ']' t₁ items rest) ∨
    ∃ t₁ members, t = '{' :: t₁ ∧ v = .dict (dictOf members) ∧
      Elements (MemberText (ValueText levels)) '}' t₁ members rest

/-- After what stands well formed before it, a bracket opens inside so many others. -/
def TooDeep : ℕ → List Char → Prop
  | 0, t => t.head? = some '[' ∨ t.head? = some '{'
  | levels + 1, t =>
    (∃ t₁, t = '[' :: t₁ ∧ ElementsDeep (ValueText levels) (TooDeep levels) ']' t₁) ∨
    ∃ t₁, t = '{' :: t₁ ∧
      ElementsDeep (MemberText (ValueText levels)) (MemberDeep (TooDeep levels)) '}' t₁

/-- The whole text is a value, with spaces around it. -/
def Document (levels : ℕ) (t : List Char) (v : Value) : Prop :=
  ∃ rest, ValueText levels (skipSpace t) v rest ∧ skipSpace rest = []

section Values
variable {levels : ℕ} {t rest : List Char} {v : Value}

theorem scanValue_sound (h : scanValue t = .ok (v, rest)) :
    ∃ s, v = .scalar s ∧ ScalarText t s rest := by
  unfold scanValue at h
  cases hscan : scanScalar t with
  | none =>
    rw [hscan] at h
    cases h
  | some r =>
    rw [hscan] at h
    cases h
    exact ⟨r.1, rfl, scanScalar_sound hscan⟩

theorem scanValue_complete {s : Scalar} (h : ScalarText t s rest) (hrest : HeadNot goesOn rest) :
    scanValue t = .ok (.scalar s, rest) := by
  rw [scanValue, scanScalar_complete h hrest]

theorem scanValue_ne_tooDeep : scanValue t ≠ .error .tooDeep := by
  unfold scanValue
  cases scanScalar t <;> simp

theorem scanMember_eq {scan : Scan Value} {t t₁ t₂ : List Char} {key : Str}
    (hkey : StringText t key t₁) (hcolon : skipSpace t₁ = ':' :: t₂) :
    scanMember scan ('"' :: t) = (do
      let v ← scan (skipSpace t₂)
      pure ((join key, v.1), v.2)) := by
  rw [scanMember, if_pos List.head?_cons, List.tail_cons, scanString_eq_some_iff.mpr hkey]
  simp only
  rw [hcolon, if_pos List.head?_cons, List.tail_cons]

theorem scanMember_cases (scan : Scan Value) (t : List Char) :
    scanMember scan t = .error .invalid ∨ ∃ t' t₁ t₂ key, t = '"' :: t' ∧
      StringText t' key t₁ ∧ skipSpace t₁ = ':' :: t₂ := by
  by_cases hquote : t.head? = some '"'
  · obtain ⟨t, rfl⟩ := List.head?_eq_some_iff.mp hquote
    cases hkey : scanString t with
    | none =>
      rw [scanMember, if_pos hquote, List.tail_cons, hkey]
      exact Or.inl rfl
    | some r =>
      by_cases hcolon : (skipSpace r.2).head? = some ':'
      · obtain ⟨t₂, ht₂⟩ := List.head?_eq_some_iff.mp hcolon
        exact Or.inr ⟨t, r.2, t₂, r.1, rfl, scanString_eq_some_iff.mp hkey, ht₂⟩
      · rw [scanMember, if_pos hquote, List.tail_cons, hkey]
        exact Or.inl (if_neg hcolon)
  · exact Or.inl (if_neg hquote)

theorem reads_scanMember {scan : Scan Value} {Item : List Char → Value → List Char → Prop}
    {Deep : List Char → Prop} (hscan : Reads scan Item Deep) :
    Reads (scanMember scan) (MemberText Item) (MemberDeep Deep) where
  sound := by
    intro t m rest h
    rcases scanMember_cases scan t with hinvalid | ⟨t, t₁, t₂, key, rfl, hkey, hcolon⟩
    · rw [hinvalid] at h
      cases h
    · rw [scanMember_eq hkey hcolon, Session.bind_ok] at h
      obtain ⟨⟨v, rest⟩, hv, heq⟩ := h
      cases heq
      exact .intro hkey hcolon (hscan.sound hv)
  complete := by
    intro t m rest h hrest
    cases h with
    | intro hkey hcolon hvalue =>
      rw [scanMember_eq hkey hcolon, hscan.complete hvalue hrest]
      rfl
  deep_iff := by
    intro t
    constructor
    · intro h
      rcases scanMember_cases scan t with hinvalid | ⟨t, t₁, t₂, key, rfl, hkey, hcolon⟩
      · rw [hinvalid] at h
        cases h
      · rw [scanMember_eq hkey hcolon, Session.bind_error] at h
        rcases h with hv | ⟨v, -, hpure⟩
        · exact .intro hkey hcolon (hscan.deep_iff.mp hv)
        · cases hpure
    · intro h
      cases h with
      | intro hkey hcolon h =>
        rw [scanMember_eq hkey hcolon, hscan.deep_iff.mpr h]
        rfl
  length_le := by
    intro t m rest h
    cases h with
    | intro hkey hcolon hvalue =>
      have hlt := hscan.length_lt hcolon hvalue
      have hle := hkey.length_le
      rw [List.length_cons]
      omega

theorem scanOnce_list (t : List Char) : scanOnce (levels + 1) ('[' :: t) = (do
    let items ← scanElements (scanOnce levels) ']' t
    pure (.list items.1, items.2)) := if_pos List.head?_cons

theorem scanOnce_dict (t : List Char) : scanOnce (levels + 1) ('{' :: t) = (do
    let members ← scanElements (scanMember (scanOnce levels)) '}' t
    pure (.dict (dictOf members.1), members.2)) := by
  rw [scanOnce, if_neg (by simp), if_pos List.head?_cons, List.tail_cons]

theorem scanOnce_scalar (hlist : t.head? ≠ some '[') (hdict : t.head? ≠ some '{') :
    scanOnce levels t = scanValue t := by
  cases levels with
  | zero => exact if_neg (not_or.mpr ⟨hlist, hdict⟩)
  | succ levels => rw [scanOnce, if_neg hlist, if_neg hdict]

theorem scanOnce_of_scalarText {s : Scalar} (h : ScalarText t s rest)
    (hrest : HeadNot goesOn rest) : scanOnce levels t = .ok (.scalar s, rest) := by
  rw [scanOnce_scalar (h.head?_ne (Or.inl rfl)) (h.head?_ne (Or.inr rfl)),
    scanValue_complete h hrest]

/-- What is no list and no object is read as a scalar. -/
theorem scanOnce_cases (levels : ℕ) (t : List Char) :
    (∃ t', t = '[' :: t') ∨ (∃ t', t = '{' :: t') ∨ scanOnce levels t = scanValue t := by
  by_cases hlist : t.head? = some '['
  · exact Or.inl (List.head?_eq_some_iff.mp hlist)
  · by_cases hdict : t.head? = some '{'
    · exact Or.inr (Or.inl (List.head?_eq_some_iff.mp hdict))
    · exact Or.inr (Or.inr (scanOnce_scalar hlist hdict))

theorem reads_scanOnce_zero : Reads (scanOnce 0) (ValueText 0) (TooDeep 0) where
  sound := by
    intro t v rest h
    unfold scanOnce at h
    split at h
    · cases h
    · exact scanValue_sound h
  complete := by
    rintro t v rest ⟨s, rfl, h⟩ hrest
    exact scanOnce_of_scalarText h hrest
  deep_iff := by
    intro t
    unfold scanOnce TooDeep
    split
    · rename_i hopen
      exact iff_of_true rfl hopen
    · rename_i hopen
      exact iff_of_false scanValue_ne_tooDeep hopen
  length_le := by
    rintro t v rest ⟨s, rfl, h⟩
    exact h.length_le

section Level
variable (hscan : Reads (scanOnce levels) (ValueText levels) (TooDeep levels))
include hscan

theorem reads_items : Reads (scanElements (scanOnce levels) ']')
    (Elements (ValueText levels) ']') (ElementsDeep (ValueText levels) (TooDeep levels) ']') :=
  reads_scanElements hscan (by decide) (by decide)

theorem reads_members : Reads (scanElements (scanMember (scanOnce levels)) '}')
    (Elements (MemberText (ValueText levels)) '}')
    (ElementsDeep (MemberText (ValueText levels)) (MemberDeep (TooDeep levels)) '}') :=
  reads_scanElements (reads_scanMember hscan) (by decide) (by decide)

theorem scanOnce_succ_sound (h : scanOnce (levels + 1) t = .ok (v, rest)) :
    ValueText (levels + 1) t v rest := by
  rcases scanOnce_cases (levels + 1) t with ⟨t, rfl⟩ | ⟨t, rfl⟩ | heq
  · rw [scanOnce_list, Session.bind_ok] at h
    obtain ⟨⟨items, rest⟩, hitems, heq⟩ := h
    cases heq
    exact Or.inr (Or.inl ⟨t, items, rfl, rfl, (reads_items hscan).sound hitems⟩)
  · rw [scanOnce_dict, Session.bind_ok] at h
    obtain ⟨⟨members, rest⟩, hmembers, heq⟩ := h
    cases heq
    exact Or.inr (Or.inr ⟨t, members, rfl, rfl, (reads_members hscan).sound hmembers⟩)
  · rw [heq] at h
    exact Or.inl (scanValue_sound h)

theorem scanOnce_succ_complete (h : ValueText (levels + 1) t v rest)
    (hrest : HeadNot goesOn rest) : scanOnce (levels + 1) t = .ok (v, rest) := by
  rcases h with ⟨s, rfl, h⟩ | ⟨t, items, rfl, rfl, h⟩ | ⟨t, members, rfl, rfl, h⟩
  · exact scanOnce_of_scalarText h hrest
  · rw [scanOnce_list, (reads_items hscan).complete h hrest]
    rfl
  · rw [scanOnce_dict, (reads_members hscan).complete h hrest]
    rfl

theorem scanOnce_succ_deep_iff :
    scanOnce (levels + 1) t = .error .tooDeep ↔ TooDeep (levels + 1) t := by
  constructor
  · intro h
    rcases scanOnce_cases (levels + 1) t with ⟨t, rfl⟩ | ⟨t, rfl⟩ | heq
    · rw [scanOnce_list, Session.bind_error] at h
      rcases h with h | ⟨items, -, hpure⟩
      · exact Or.inl ⟨t, rfl, (reads_items hscan).deep_iff.mp h⟩
      · cases hpure
    · rw [scanOnce_dict, Session.bind_error] at h
      rcases h with h | ⟨members, -, hpure⟩
      · exact Or.inr ⟨t, rfl, (reads_members hscan).deep_iff.mp h⟩
      · cases hpure
    · rw [heq] at h
      exact absurd h scanValue_ne_tooDeep
  · intro h
    rcases h with ⟨t, rfl, h⟩ | ⟨t, rfl, h⟩
    · rw [scanOnce_list, (reads_items hscan).deep_iff.mpr h]
      rfl
    · rw [scanOnce_dict, (reads_members hscan).deep_iff.mpr h]
      rfl

theorem length_le_of_valueText_succ (h : ValueText (levels + 1) t v rest) :
    rest.length ≤ t.length := by
  rcases h with ⟨s, rfl, h⟩ | ⟨t, items, rfl, rfl, h⟩ | ⟨t, members, rfl, rfl, h⟩
  · exact h.length_le
  · exact Nat.le_succ_of_le ((reads_items hscan).length_le h)
  · exact Nat.le_succ_of_le ((reads_members hscan).length_le h)

end Level

theorem reads_scanOnce (levels : ℕ) :
    Reads (scanOnce levels) (ValueText levels) (TooDeep levels) := by
  induction levels with
  | zero => exact reads_scanOnce_zero
  | succ levels ih =>
    exact ⟨scanOnce_succ_sound ih, scanOnce_succ_complete ih, scanOnce_succ_deep_iff ih,
      length_le_of_valueText_succ ih⟩

theorem loads_eq_ok_iff : loads levels t = .ok v ↔ Document levels t v := by
  have hscan := reads_scanOnce levels
  unfold loads Document
  rw [Session.bind_ok]
  constructor
  · intro h
    obtain ⟨⟨w, rest⟩, hw, h⟩ := h
    by_cases hrest : skipSpace rest = []
    · rw [if_pos hrest] at h
      cases h
      exact ⟨rest, hscan.sound hw, hrest⟩
    · rw [if_neg hrest] at h
      cases h
  · intro h
    obtain ⟨rest, hvalue, hrest⟩ := h
    have hends : HeadNot goesOn rest := by
      apply headNot_of_skipSpace
      rw [hrest]
      exact headNot_nil
    exact ⟨(v, rest), hscan.complete hvalue hends, if_pos hrest⟩

theorem loads_eq_tooDeep_iff : loads levels t = .error .tooDeep ↔ TooDeep levels (skipSpace t) := by
  unfold loads
  rw [Session.bind_error, (reads_scanOnce levels).deep_iff, or_iff_left]
  intro h
  obtain ⟨w, -, h⟩ := h
  split at h <;> cases h

end Values

def dumpsMember (e : Str × Str) : List Char :=
  encodeBasestringAscii e.1 ++ ':' :: ' ' :: encodeBasestringAscii e.2

/-- `json.dumps`, of a `dict[str, str]`. -/
def dumps : List (Str × Str) → List Char
  | [] => ['{', '}']
  | e :: es =>
    '{' :: (dumpsMember e ++ ((es.flatMap fun e => ',' :: ' ' :: dumpsMember e) ++ ['}']))

/-- What is read of them: pairs of surrogates are joined. -/
def joined (e : Str × Str) : Str × Value := (join e.1, .scalar (.str (join e.2)))

theorem valueText_encodeBasestringAscii (levels : ℕ) (s : Str) (rest : List Char) :
    ValueText levels (encodeBasestringAscii s ++ rest) (.scalar (.str (join s))) rest := by
  have hscalar : ScalarText (encodeBasestringAscii s ++ rest) (.str (join s)) rest := by
    have h := stringText_encodeBasestringAscii s rest
    rw [← join_flatMap_units, encodeBasestringAscii, List.cons_append, List.append_assoc]
    exact .string h
  cases levels with
  | zero => exact ⟨_, rfl, hscalar⟩
  | succ levels => exact Or.inl ⟨_, rfl, hscalar⟩

theorem memberText_dumpsMember (levels : ℕ) (e : Str × Str) (rest : List Char) :
    MemberText (ValueText levels) (dumpsMember e ++ rest) (joined e) rest := by
  have hkey := stringText_encodeBasestringAscii e.1
    (':' :: ' ' :: (encodeBasestringAscii e.2 ++ rest))
  have hvalue := valueText_encodeBasestringAscii levels e.2 rest
  have htext : dumpsMember e ++ rest = '"' :: (e.1.flatMap escapeChar ++
      '"' :: ':' :: ' ' :: (encodeBasestringAscii e.2 ++ rest)) := by
    simp [dumpsMember, encodeBasestringAscii]
  rw [htext, joined, ← join_flatMap_units e.1]
  exact .intro hkey rfl hvalue

theorem more_dumps (levels : ℕ) (es : List (Str × Str)) :
    More (MemberText (ValueText levels)) '}'
      ((es.flatMap fun e => ',' :: ' ' :: dumpsMember e) ++ ['}']) (es.map joined) [] := by
  induction es with
  | nil => exact .last rfl
  | cons e es ih =>
    rw [List.flatMap_cons, List.append_assoc, List.map_cons]
    exact .next rfl (memberText_dumpsMember levels e _) ih

/-- What is written of strings is read again, with the pairs of surrogates joined. -/
theorem loads_dumps (levels : ℕ) (es : List (Str × Str)) :
    loads (levels + 1) (dumps es) = .ok (.dict (dictOf (es.map joined))) := by
  rw [loads_eq_ok_iff]
  refine ⟨[], Or.inr (Or.inr ?_), rfl⟩
  cases es with
  | nil => exact ⟨_, [], rfl, rfl, .none rfl⟩
  | cons e es =>
    refine ⟨_, (e :: es).map joined, rfl, rfl, ?_⟩
    refine .some ?_ (memberText_dumpsMember levels e _) (more_dumps levels es)
    intro h
    cases h

end JsonText
