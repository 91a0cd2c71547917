import Friet.Lib.Unicode

/-!
# Strings of JSON texts, as Python's `json` writes and reads them

A string is written in ASCII, and read up to its closing quote. What is read is a relation between
a text, what it begins with and what is left of it; a scanner computes it.
-/

set_option autoImplicit false

namespace JsonText

open Unicode

def hexDigit (d : ℕ) : Char := if d < 10 then Char.ofNat (48 + d) else Char.ofNat (87 + d)

def hexValue? (c : Char) : Option ℕ :=
  if '0' ≤ c ∧ c ≤ '9' then some (c.toNat - 48)
  else if 'a' ≤ c ∧ c ≤ 'f' then some (c.toNat - 87)
  else if 'A' ≤ c ∧ c ≤ 'F' then some (c.toNat - 55)
  else none

/-- `\uXXXX`, for a unit of 16 bits. -/
def unicodeEscape (u : CodePoint) : List Char :=
  ['\\', 'u', hexDigit (u.val / 4096 % 16), hexDigit (u.val / 256 % 16),
    hexDigit (u.val / 16 % 16), hexDigit (u.val % 16)]

def unitOf (a b c d : Char) : Option CodePoint := do
  let a ← hexValue? a
  let b ← hexValue? b
  let c ← hexValue? c
  let d ← hexValue? d
  pure (codePoint (a * 4096 + b * 256 + c * 16 + d))

/-- `ESCAPE_DCT` of the encoder. -/
def escapeDct : List (Char × Char) :=
  [('\\', '\\'), ('"', '"'), (Char.ofNat 8, 'b'), (Char.ofNat 12, 'f'), ('\n', 'n'), ('\r', 'r'),
    ('\t', 't')]

/-- `BACKSLASH` of the decoder. -/
def backslash : List (Char × Char) :=
  [('"', '"'), ('\\', '\\'), ('/', '/'), ('b', Char.ofNat 8), ('f', Char.ofNat 12), ('n', '\n'),
    ('r', '\r'), ('t', '\t')]

def escapeChar (c : CodePoint) : List Char :=
  match escapeDct.find? fun e => ofChar e.1 = c with
  | some e => ['\\', e.2]
  | none =>
    if 32 ≤ c.val ∧ c.val ≤ 126 then [Char.ofNat c.val] else (units c).flatMap unicodeEscape

/-- `py_encode_basestring_ascii`. -/
def encodeBasestringAscii (s : Str) : List Char := '"' :: (s.flatMap escapeChar ++ ['"'])

/-- `_decode_uXXXX`. -/
def decodeXXXX : List Char → Option (CodePoint × List Char)
  | a :: b :: c :: d :: t => (unitOf a b c d).map fun u => (u, t)
  | _ => none

def scanEscape : List Char → Option (CodePoint × List Char)
  | [] => none
  | e :: t => if e = 'u' then decodeXXXX t else (backslash.lookup e).map fun c => (ofChar c, t)

/-- One unit of a string; neither a quote nor a control character is one. -/
def scanUnit : List Char → Option (CodePoint × List Char)
  | [] => none
  | c :: t =>
    if c = '\\' then scanEscape t
    else if c = '"' ∨ c.toNat < 32 then none
    else some (ofChar c, t)

inductive UnitText : List Char → CodePoint → List Char → Prop where
  | plain {c : Char} (t : List Char) (hescape : c ≠ '\\') (hquote : c ≠ '"')
      (hcontrol : 32 ≤ c.toNat) : UnitText (c :: t) (ofChar c) t
  | escape {e c : Char} (t : List Char) (hletter : backslash.lookup e = some c) :
      UnitText ('\\' :: e :: t) (ofChar c) t
  | unicode {a b c d : Char} {u : CodePoint} (t : List Char)
      (hunit : unitOf a b c d = some u) : UnitText ('\\' :: 'u' :: a :: b :: c :: d :: t) u t

theorem UnitText.length_lt {t t' : List Char} {u : CodePoint} (h : UnitText t u t') :
    t'.length < t.length := by
  cases h <;> simp only [List.length_cons] <;> omega

theorem decodeXXXX_eq_some {t t' : List Char} {u : CodePoint} (h : decodeXXXX t = some (u, t')) :
    ∃ a b c d, t = a :: b :: c :: d :: t' ∧ unitOf a b c d = some u := by
  match t, h with
  | a :: b :: c :: d :: t, h =>
    obtain ⟨v, hv, heq⟩ := Option.map_eq_some_iff.mp h
    cases heq
    exact ⟨a, b, c, d, rfl, hv⟩

theorem scanUnit_eq_some_iff {t t' : List Char} {u : CodePoint} :
    scanUnit t = some (u, t') ↔ UnitText t u t' := by
  constructor
  · intro h
    cases t with
    | nil => cases h
    | cons c t =>
      by_cases hescape : c = '\\'
      · subst c
        rw [scanUnit, if_pos rfl] at h
        cases t with
        | nil => cases h
        | cons e t =>
          by_cases he : e = 'u'
          · subst e
            rw [scanEscape, if_pos rfl] at h
            obtain ⟨a, b, c, d, rfl, hunit⟩ := decodeXXXX_eq_some h
            exact .unicode t' hunit
          · rw [scanEscape, if_neg he] at h
            obtain ⟨c, hc, heq⟩ := Option.map_eq_some_iff.mp h
            cases heq
            exact .escape t' hc
      · rw [scanUnit, if_neg hescape] at h
        by_cases hc : c = '"' ∨ c.toNat < 32
        · rw [if_pos hc] at h
          cases h
        · rw [if_neg hc] at h
          cases h
          rw [not_or, Nat.not_lt] at hc
          exact .plain _ hescape hc.1 hc.2
  · intro h
    cases h with
    | plain t hescape hquote hcontrol =>
      rw [scanUnit, if_neg hescape, if_neg (not_or.mpr ⟨hquote, Nat.not_lt.mpr hcontrol⟩)]
    | @escape e c t hletter =>
      have he : e ≠ 'u' := by
        rintro rfl
        cases hletter
      rw [scanUnit, if_pos rfl, scanEscape, if_neg he, hletter]
      rfl
    | unicode t hunit =>
      rw [scanUnit, if_pos rfl, scanEscape, if_pos rfl, decodeXXXX, hunit]
      rfl

/-- After the opening quote: the units up to the closing one, and what follows it. -/
def scanString (t : List Char) : Option (Str × List Char) :=
  if t.head? = some '"' then some ([], t.tail)
  else match _h : scanUnit t with
    | none => none
    | some (u, t') => (scanString t').map fun r => (u :: r.1, r.2)
termination_by t.length
decreasing_by exact (scanUnit_eq_some_iff.mp _h).length_lt

/-- The text begins with the rest of a string of these units. -/
inductive StringText : List Char → Str → List Char → Prop where
  | close (rest : List Char) : StringText ('"' :: rest) [] rest
  | cons {t t' : List Char} {u : CodePoint} {s : Str} {rest : List Char} (hunit : UnitText t u t')
      (h : StringText t' s rest) : StringText t (u :: s) rest

theorem UnitText.head?_ne {t t' : List Char} {u : CodePoint} (h : UnitText t u t') :
    t.head? ≠ some '"' := by
  cases h with
  | plain t hescape hquote hcontrol => simpa using hquote
  | escape t hletter => simp
  | unicode t hunit => simp

theorem scanString_of_unitText {t t' : List Char} {u : CodePoint} (h : UnitText t u t') :
    scanString t = (scanString t').map fun r => (u :: r.1, r.2) := by
  rw [scanString, if_neg h.head?_ne]
  split
  · rename_i hnone
    rw [scanUnit_eq_some_iff.mpr h] at hnone
    cases hnone
  · rename_i hsome
    rw [scanUnit_eq_some_iff.mpr h] at hsome
    cases hsome
    rfl

theorem scanString_eq_some_iff {t : List Char} {s : Str} {rest : List Char} :
    scanString t = some (s, rest) ↔ StringText t s rest := by
  constructor
  · intro h
    fun_induction scanString t generalizing s rest with
    | case1 t hhead =>
      cases h
      obtain ⟨rest, rfl⟩ := List.head?_eq_some_iff.mp hhead
      exact .close rest
    | case2 t hhead hnone => cases h
    | case3 t hhead u t' hunit ih =>
      obtain ⟨r, hr, heq⟩ := Option.map_eq_some_iff.mp h
      cases heq
      exact .cons (scanUnit_eq_some_iff.mp hunit) (ih hr)
  · intro h
    induction h with
    | close rest =>
      rw [scanString]
      rfl
    | cons hunit _ ih =>
      rw [scanString_of_unitText hunit, ih]
      rfl

theorem StringText.length_le {t rest : List Char} {s : Str} (h : StringText t s rest) :
    rest.length ≤ t.length := by
  induction h with
  | close rest => simp
  | cons hunit _ ih =>
    have hlt := hunit.length_lt
    omega

theorem hexValue?_hexDigit : ∀ d < 16, hexValue? (hexDigit d) = some d := by decide

theorem unitOf_hexDigits {u : CodePoint} (h : u.val < 0x10000) :
    unitOf (hexDigit (u.val / 4096 % 16)) (hexDigit (u.val / 256 % 16))
      (hexDigit (u.val / 16 % 16)) (hexDigit (u.val % 16)) = some u := by
  unfold unitOf
  rw [hexValue?_hexDigit _ (Nat.mod_lt _ (by decide)),
    hexValue?_hexDigit _ (Nat.mod_lt _ (by decide)),
    hexValue?_hexDigit _ (Nat.mod_lt _ (by decide)),
    hexValue?_hexDigit _ (Nat.mod_lt _ (by decide))]
  refine congrArg some (Fin.ext ?_)
  simp only [codePoint_val]
  omega

theorem toNat_ofNat_ascii : ∀ n < 128, (Char.ofNat n).toNat = n := by decide

theorem lookup_backslash :
    ∀ e ∈ escapeDct, backslash.lookup e.2 = some e.1 ∧ e.1.toNat < 0x10000 := by decide

section Written
variable {s : Str} {t rest : List Char}

theorem StringText.unicodeEscapes {us : Str} (hus : ∀ u ∈ us, u.val < 0x10000)
    (h : StringText t s rest) :
    StringText (us.flatMap unicodeEscape ++ t) (us ++ s) rest := by
  induction us with
  | nil => exact h
  | cons u us ih =>
    rw [List.flatMap_cons, List.append_assoc]
    apply StringText.cons (.unicode _ (unitOf_hexDigits (hus u List.mem_cons_self)))
    exact ih fun v hv => hus v (List.mem_cons_of_mem u hv)

theorem StringText.escapeChar (h : StringText t s rest) (c : CodePoint) :
    StringText (JsonText.escapeChar c ++ t) (units c ++ s) rest := by
  unfold JsonText.escapeChar
  cases hfound : escapeDct.find? fun e => ofChar e.1 = c with
  | some e =>
    have hc := List.find?_some hfound
    rw [decide_eq_true_eq] at hc
    subst hc
    obtain ⟨hletter, hlt⟩ := lookup_backslash e (List.mem_of_find?_eq_some hfound)
    rw [units_of_lt hlt]
    exact .cons (.escape t hletter) h
  | none =>
    by_cases hprintable : 32 ≤ c.val ∧ c.val ≤ 126
    · have hval := toNat_ofNat_ascii c.val (by omega)
      have hc : ofChar (Char.ofNat c.val) = c := Fin.ext hval
      have hne : ∀ e ∈ escapeDct, Char.ofNat c.val ≠ e.1 := by
        intro e he heq
        have hnot := List.find?_eq_none.mp hfound e he
        rw [← heq, hc] at hnot
        simp at hnot
      simp only [if_pos hprintable]
      rw [units_of_lt (by omega)]
      refine .cons ?_ h
      have hunit := UnitText.plain (c := Char.ofNat c.val) t (hne ('\\', '\\') (by decide))
        (hne ('"', '"') (by decide)) (by omega)
      rwa [hc] at hunit
    · simp only [if_neg hprintable]
      exact h.unicodeEscapes fun u hu => lt_of_mem_units hu

/-- Up to the pairs of surrogates, which are not told from a long code point. -/
theorem stringText_encodeBasestringAscii (s : Str) (rest : List Char) :
    StringText (s.flatMap escapeChar ++ '"' :: rest) (s.flatMap units) rest := by
  induction s with
  | nil => exact .close rest
  | cons c s ih =>
    rw [List.flatMap_cons, List.flatMap_cons, List.append_assoc]
    exact ih.escapeChar c

end Written

end JsonText
