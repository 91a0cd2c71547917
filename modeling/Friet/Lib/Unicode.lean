import Mathlib.Data.List.Chain
import Mathlib.Data.Nat.Notation

/-!
# Strings of code points

A string is a list of code points, and a surrogate may stand in it alone; as UTF-8 only strings
without surrogates can be written. In UTF-16 a code point is one or two units, and a high
surrogate directly before a low one is read as one code point.
-/

set_option autoImplicit false

namespace Unicode

abbrev CodePoint := Fin 0x110000

abbrev Str := List CodePoint

def codePoint (n : ℕ) : CodePoint := Fin.ofNat _ n

theorem codePoint_val (n : ℕ) : (codePoint n).val = n % 0x110000 := rfl

abbrev IsHigh (c : CodePoint) : Prop := 0xD800 ≤ c.val ∧ c.val ≤ 0xDBFF

abbrev IsLow (c : CodePoint) : Prop := 0xDC00 ≤ c.val ∧ c.val ≤ 0xDFFF

theorem toNat_lt (c : Char) : c.toNat < 0x110000 := by
  have hvalid : c.toNat.isValidChar := c.valid
  unfold Nat.isValidChar at hvalid
  omega

def ofChar (c : Char) : CodePoint := ⟨c.toNat, toNat_lt c⟩

def char? (c : CodePoint) : Option Char :=
  if h : c.val.isValidChar then some (Char.ofNatAux c.val h) else none

def ofChars (cs : List Char) : Str := cs.map ofChar

/-- `str.encode`; `none` is UnicodeEncodeError. -/
def encode (s : Str) : Option (List UInt8) :=
  (s.mapM char?).map (List.flatMap String.utf8EncodeChar)

/-- `bytes.decode`; `none` is UnicodeDecodeError. -/
def decode (bs : List UInt8) : Option (List Char) :=
  (ByteArray.mk bs.toArray).utf8Decode?.map Array.toList

theorem char?_eq_some_iff {c : CodePoint} {d : Char} : char? c = some d ↔ c = ofChar d := by
  unfold char?
  constructor
  · intro h
    by_cases hvalid : c.val.isValidChar
    · rw [dif_pos hvalid, Option.some.injEq] at h
      rw [← h]
      rfl
    · rw [dif_neg hvalid] at h
      cases h
  · rintro rfl
    have hvalid : (ofChar d).val.isValidChar := d.valid
    rw [dif_pos hvalid]
    rfl

theorem mapM_char?_eq_some_iff {s : Str} {cs : List Char} :
    s.mapM char? = some cs ↔ s = ofChars cs := by
  induction s generalizing cs with
  | nil => cases cs <;> simp [ofChars]
  | cons c s ih =>
    rw [List.mapM_cons]
    simp only [Option.bind_eq_bind, Option.bind_eq_some_iff, char?_eq_some_iff, ih]
    cases cs with
    | nil => simp [ofChars]
    | cons d cs => simp [ofChars]

theorem encode_eq_some_iff {s : Str} {bs : List UInt8} :
    encode s = some bs ↔ ∃ cs, s = ofChars cs ∧ bs = cs.flatMap String.utf8EncodeChar := by
  simp only [encode, Option.map_eq_some_iff, mapM_char?_eq_some_iff, eq_comm]

theorem decode_eq_some_iff {bs : List UInt8} {cs : List Char} :
    decode bs = some cs ↔ bs = cs.flatMap String.utf8EncodeChar := by
  have hencode : cs.utf8Encode = ByteArray.mk (cs.flatMap String.utf8EncodeChar).toArray := by
    rw [List.utf8Encode]
    apply ByteArray.ext
    simp
  unfold decode
  constructor
  · intro h
    obtain ⟨chars, hchars, rfl⟩ := Option.map_eq_some_iff.mp h
    have hsome : (ByteArray.mk bs.toArray).utf8Decode?.isSome := by
      rw [hchars]
      rfl
    have hbytes := ByteArray.utf8Encode_get_utf8Decode? (h := hsome)
    simp only [hchars, Option.get_some] at hbytes
    rw [hencode] at hbytes
    simpa using hbytes.symm
  · intro h
    rw [h, ← hencode, List.utf8Decode?_utf8Encode]
    rfl

theorem utf8EncodeChar_ascii :
    ∀ n < 128, String.utf8EncodeChar (Char.ofNat n) = [UInt8.ofNat n] := by decide

theorem exists_decode_of_ascii {bs : List UInt8} (h : ∀ b ∈ bs, b < 128) :
    ∃ cs, decode bs = some cs := by
  induction bs with
  | nil => exact ⟨[], decode_eq_some_iff.mpr rfl⟩
  | cons b bs ih =>
    obtain ⟨cs, hcs⟩ := ih fun c hc => h c (List.mem_cons_of_mem b hc)
    have hb : b.toNat < 128 := h b List.mem_cons_self
    refine ⟨Char.ofNat b.toNat :: cs, decode_eq_some_iff.mpr ?_⟩
    rw [List.flatMap_cons, utf8EncodeChar_ascii _ hb, UInt8.ofNat_toNat,
      ← decode_eq_some_iff.mp hcs]
    rfl

def combine (high low : CodePoint) : CodePoint :=
  codePoint (0x10000 + (high.val - 0xD800) * 0x400 + (low.val - 0xDC00))

def join : Str → Str
  | high :: low :: s =>
    if IsHigh high ∧ IsLow low then combine high low :: join s else high :: join (low :: s)
  | s => s

def units (c : CodePoint) : Str :=
  if c.val < 0x10000 then [c]
  else [codePoint (0xD800 + (c.val - 0x10000) / 0x400),
    codePoint (0xDC00 + (c.val - 0x10000) % 0x400)]

/-- No high surrogate stands directly before a low one. -/
def Whole (s : Str) : Prop := s.IsChain fun c d => ¬ (IsHigh c ∧ IsLow d)

instance (s : Str) : Decidable (Whole s) := inferInstanceAs (Decidable (s.IsChain _))

theorem combine_val {high low : CodePoint} (h : IsHigh high) (h' : IsLow low) :
    (combine high low).val = 0x10000 + (high.val - 0xD800) * 0x400 + (low.val - 0xDC00) := by
  simp only [combine, codePoint_val]
  omega

theorem units_of_lt {c : CodePoint} (h : c.val < 0x10000) : units c = [c] := if_pos h

theorem units_of_le {c : CodePoint} (h : 0x10000 ≤ c.val) :
    ∃ high low, units c = [high, low] ∧ IsHigh high ∧ IsLow low ∧ combine high low = c := by
  have hc := c.isLt
  refine ⟨_, _, if_neg (Nat.not_lt.mpr h), ?_, ?_, ?_⟩
  · simp only [IsHigh, codePoint_val]
    omega
  · simp only [IsLow, codePoint_val]
    omega
  · apply Fin.ext
    simp only [combine, codePoint_val]
    omega

theorem lt_of_mem_units {c u : CodePoint} (h : u ∈ units c) : u.val < 0x10000 := by
  by_cases hc : c.val < 0x10000
  · rw [units_of_lt hc, List.mem_singleton] at h
    rwa [h]
  · obtain ⟨high, low, hunits, hhigh, hlow, -⟩ := units_of_le (Nat.not_lt.mp hc)
    rw [hunits] at h
    simp only [IsHigh, IsLow] at hhigh hlow
    rcases List.mem_pair.mp h with rfl | rfl <;> omega

theorem join_pair {high low : CodePoint} (h : IsHigh high) (h' : IsLow low) (s : Str) :
    join (high :: low :: s) = combine high low :: join s := if_pos ⟨h, h'⟩

theorem join_cons_cons {c d : CodePoint} (h : ¬ (IsHigh c ∧ IsLow d)) (s : Str) :
    join (c :: d :: s) = c :: join (d :: s) := if_neg h

/-- The two units of a long code point are joined again, whatever follows. -/
theorem join_units_append {c : CodePoint} (h : 0x10000 ≤ c.val) (s : Str) :
    join (units c ++ s) = c :: join s := by
  obtain ⟨high, low, hunits, hhigh, hlow, hcombine⟩ := units_of_le h
  rw [hunits, List.cons_append, List.cons_append, List.nil_append, join_pair hhigh hlow, hcombine]

/-- A long code point is no part of a pair, nor is its first unit a low surrogate. -/
theorem not_pair_units {c d : CodePoint} (h : ¬ (IsHigh c ∧ IsLow d)) :
    ∃ e t, units d = e :: t ∧ ¬ (IsHigh c ∧ IsLow e) := by
  by_cases hd : d.val < 0x10000
  · exact ⟨d, [], units_of_lt hd, h⟩
  · obtain ⟨high, low, hunits, hhigh, -, -⟩ := units_of_le (Nat.not_lt.mp hd)
    refine ⟨high, [low], hunits, ?_⟩
    intro hpair
    have hlow := hpair.2
    simp only [IsHigh, IsLow] at hhigh hlow
    omega

theorem join_flatMap_units (s : Str) : join (s.flatMap units) = join s := by
  induction s using join.induct with
  | case1 high low s hpair ih =>
    have hhigh : high.val < 0x10000 := by
      have h := hpair.1
      simp only [IsHigh] at h
      omega
    have hlow : low.val < 0x10000 := by
      have h := hpair.2
      simp only [IsLow] at h
      omega
    rw [List.flatMap_cons, List.flatMap_cons, units_of_lt hhigh, units_of_lt hlow,
      List.cons_append, List.cons_append, List.nil_append, List.nil_append,
      join_pair hpair.1 hpair.2, join_pair hpair.1 hpair.2, ih]
  | case2 c d s hpair ih =>
    rw [join_cons_cons hpair, ← ih, List.flatMap_cons]
    by_cases hc : c.val < 0x10000
    · obtain ⟨e, t, hunits, hpair'⟩ := not_pair_units hpair
      rw [List.flatMap_cons, units_of_lt hc, hunits, List.cons_append, List.cons_append,
        List.nil_append, join_cons_cons hpair']
    · rw [join_units_append (Nat.not_lt.mp hc)]
  | case3 s hs =>
    cases s with
    | nil => rfl
    | cons c s =>
      cases s with
      | cons d s => exact absurd rfl (hs c d s)
      | nil =>
        rw [List.flatMap_cons, List.flatMap_nil]
        by_cases hc : c.val < 0x10000
        · rw [units_of_lt hc]
          rfl
        · rw [join_units_append (Nat.not_lt.mp hc)]
          rfl

theorem join_eq_self_iff {s : Str} : join s = s ↔ Whole s := by
  unfold Whole
  induction s using join.induct with
  | case1 high low s hpair ih =>
    rw [join_pair hpair.1 hpair.2, List.isChain_cons_cons]
    constructor
    · intro h
      have hhigh := hpair.1
      have hval := combine_val hpair.1 hpair.2
      rw [(List.cons.inj h).1] at hval
      simp only [IsHigh] at hhigh
      omega
    · intro h
      exact absurd hpair h.1
  | case2 c d s hpair ih =>
    rw [join_cons_cons hpair, List.isChain_cons_cons, List.cons.injEq, ih]
    simp [hpair]
  | case3 s hs =>
    cases s with
    | nil => simp [join]
    | cons c s =>
      cases s with
      | cons d s => exact absurd rfl (hs c d s)
      | nil => simp [join]

end Unicode
