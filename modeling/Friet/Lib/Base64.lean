import Mathlib.Data.Nat.Notation

/-!
# Base64, as `base64.urlsafe_b64encode` and `base64.urlsafe_b64decode` do it

Three bytes are four digits, and what is missing from the last four is filled up with `=`. The
decoder is lenient: bytes that are no digits are passed over, and it stops where the padding
makes a group complete.
-/

set_option autoImplicit false

namespace Base64

abbrev Bytes := List UInt8

/-- The padding `=`. -/
def pad : UInt8 := 61

/-- The digit of a value below 64: `A` to `Z`, `a` to `z`, `0` to `9`, `+` and `/`. -/
def digit (d : ℕ) : UInt8 :=
  if d < 26 then UInt8.ofNat (65 + d)
  else if d < 52 then UInt8.ofNat (71 + d)
  else if d < 62 then UInt8.ofNat (d - 4)
  else if d = 62 then 43
  else 47

def value? (b : UInt8) : Option ℕ :=
  if 65 ≤ b ∧ b ≤ 90 then some (b.toNat - 65)
  else if 97 ≤ b ∧ b ≤ 122 then some (b.toNat - 71)
  else if 48 ≤ b ∧ b ≤ 57 then some (b.toNat + 4)
  else if b = 43 then some 62
  else if b = 47 then some 63
  else none

def b2aBase64 : Bytes → Bytes
  | [] => []
  | [a] => [digit (a.toNat / 4), digit (a.toNat % 4 * 16), pad, pad]
  | [a, b] =>
    [digit (a.toNat / 4), digit (a.toNat % 4 * 16 + b.toNat / 16), digit (b.toNat % 16 * 4), pad]
  | a :: b :: c :: bs =>
    digit (a.toNat / 4) :: digit (a.toNat % 4 * 16 + b.toNat / 16) ::
      digit (b.toNat % 16 * 4 + c.toNat / 64) :: digit (c.toNat % 64) :: b2aBase64 bs

/-- The digits of a group that have been read, by the bits that are left over of them; the
padding counts from the second digit on. -/
inductive Group where
  | empty
  | one (left : ℕ)
  | two (left : ℕ) (pads : ℕ)
  | three (left : ℕ)

/-- The padding that follows a group, if it is not complete yet. -/
def Group.padded : Group → Option Group
  | .empty => some .empty
  | .one left => some (.one left)
  | .two left pads => if 4 ≤ 2 + (pads + 1) then none else some (.two left (pads + 1))
  | .three _ => none

/-- What a digit makes of a group, with the byte that it completes. -/
def Group.next (d : ℕ) : Group → Option UInt8 × Group
  | .empty => (none, .one d)
  | .one left => (some (UInt8.ofNat (left * 4 + d / 16)), .two (d % 16) 0)
  | .two left _ => (some (UInt8.ofNat (left * 16 + d / 4)), .three (d % 4))
  | .three left => (some (UInt8.ofNat (left * 64 + d)), .empty)

/-- Not in strict mode; `none` is `binascii.Error`. -/
def a2bBase64 : Group → Bytes → Option Bytes
  | .empty, [] => some []
  | _, [] => none
  | group, b :: bs =>
    if b = pad then
      match group.padded with
      | none => some []
      | some group => a2bBase64 group bs
    else match value? b with
      | none => a2bBase64 group bs
      | some d => (a2bBase64 (group.next d).2 bs).map ((group.next d).1.toList ++ ·)

/-- `+` and `/` are written `-` and `_`. -/
def urlsafeEncodeTranslation (b : UInt8) : UInt8 :=
  if b = 43 then 45 else if b = 47 then 95 else b

def urlsafeDecodeTranslation (b : UInt8) : UInt8 :=
  if b = 45 then 43 else if b = 95 then 47 else b

def urlsafeB64encode (bs : Bytes) : Bytes := (b2aBase64 bs).map urlsafeEncodeTranslation

def urlsafeB64decode (bs : Bytes) : Option Bytes :=
  a2bBase64 .empty (bs.map urlsafeDecodeTranslation)

theorem digit_table : ∀ d < 64, value? (digit d) = some d ∧ digit d ≠ pad ∧ digit d < 128 ∧
    urlsafeDecodeTranslation (urlsafeEncodeTranslation (digit d)) = digit d ∧
    urlsafeEncodeTranslation (digit d) < 128 := by
  decide

theorem mem_b2aBase64 {x : UInt8} {bs : Bytes} (h : x ∈ b2aBase64 bs) :
    x = pad ∨ ∃ d < 64, x = digit d := by
  have hlt : ∀ b : UInt8, b.toNat < 256 := UInt8.toNat_lt
  induction bs using b2aBase64.induct with
  | case1 => cases h
  | case2 a =>
    have ha := hlt a
    simp only [b2aBase64, List.mem_cons, List.not_mem_nil, or_false] at h
    rcases h with rfl | rfl | rfl | rfl
    · exact Or.inr ⟨_, by omega, rfl⟩
    · exact Or.inr ⟨_, by omega, rfl⟩
    · exact Or.inl rfl
    · exact Or.inl rfl
  | case3 a b =>
    have ha := hlt a
    have hb := hlt b
    simp only [b2aBase64, List.mem_cons, List.not_mem_nil, or_false] at h
    rcases h with rfl | rfl | rfl | rfl
    · exact Or.inr ⟨_, by omega, rfl⟩
    · exact Or.inr ⟨_, by omega, rfl⟩
    · exact Or.inr ⟨_, by omega, rfl⟩
    · exact Or.inl rfl
  | case4 a b c bs ih =>
    have ha := hlt a
    have hb := hlt b
    have hc := hlt c
    simp only [b2aBase64, List.mem_cons] at h
    rcases h with rfl | rfl | rfl | rfl | h
    · exact Or.inr ⟨_, by omega, rfl⟩
    · exact Or.inr ⟨_, by omega, rfl⟩
    · exact Or.inr ⟨_, by omega, rfl⟩
    · exact Or.inr ⟨_, by omega, rfl⟩
    · exact ih h

theorem lt_of_mem_urlsafeB64encode {x : UInt8} {bs : Bytes} (h : x ∈ urlsafeB64encode bs) :
    x < 128 := by
  obtain ⟨y, hy, rfl⟩ := List.mem_map.mp h
  rcases mem_b2aBase64 hy with rfl | ⟨d, hd, rfl⟩
  · decide
  · exact (digit_table d hd).2.2.2.2

theorem map_translations (bs : Bytes) :
    (urlsafeB64encode bs).map urlsafeDecodeTranslation = b2aBase64 bs := by
  have hsame : ∀ x ∈ b2aBase64 bs,
      (urlsafeDecodeTranslation ∘ urlsafeEncodeTranslation) x = id x := by
    intro x hx
    rcases mem_b2aBase64 hx with rfl | ⟨d, hd, rfl⟩
    · decide
    · exact (digit_table d hd).2.2.2.1
  unfold urlsafeB64encode
  rw [List.map_map, List.map_congr_left hsame, List.map_id]

theorem a2bBase64_digit (group : Group) {d : ℕ} (hd : d < 64) (bs : Bytes) :
    a2bBase64 group (digit d :: bs) =
      (a2bBase64 (group.next d).2 bs).map ((group.next d).1.toList ++ ·) := by
  obtain ⟨hvalue, hpad, -⟩ := digit_table d hd
  cases group <;> simp [a2bBase64, hpad, hvalue]

theorem ofNat_eq_of_toNat {n : ℕ} {b : UInt8} (h : n = b.toNat) : UInt8.ofNat n = b := by
  rw [h, UInt8.ofNat_toNat]

theorem a2bBase64_b2aBase64 (bs : Bytes) : a2bBase64 .empty (b2aBase64 bs) = some bs := by
  have hlt : ∀ b : UInt8, b.toNat < 256 := UInt8.toNat_lt
  induction bs using b2aBase64.induct with
  | case1 => rfl
  | case2 a =>
    have ha := hlt a
    have hfirst : UInt8.ofNat (a.toNat / 4 * 4 + a.toNat % 4 * 16 / 16) = a :=
      ofNat_eq_of_toNat (by omega)
    rw [b2aBase64, a2bBase64_digit _ (by omega), a2bBase64_digit _ (by omega)]
    simp only [Group.next, hfirst]
    rfl
  | case3 a b =>
    have ha := hlt a
    have hb := hlt b
    have hfirst : UInt8.ofNat (a.toNat / 4 * 4 + (a.toNat % 4 * 16 + b.toNat / 16) / 16) = a :=
      ofNat_eq_of_toNat (by omega)
    have hsecond : UInt8.ofNat ((a.toNat % 4 * 16 + b.toNat / 16) % 16 * 16 +
        b.toNat % 16 * 4 / 4) = b := ofNat_eq_of_toNat (by omega)
    rw [b2aBase64, a2bBase64_digit _ (by omega), a2bBase64_digit _ (by omega),
      a2bBase64_digit _ (by omega)]
    simp only [Group.next, hfirst, hsecond]
    rfl
  | case4 a b c bs ih =>
    have ha := hlt a
    have hb := hlt b
    have hc := hlt c
    have hfirst : UInt8.ofNat (a.toNat / 4 * 4 + (a.toNat % 4 * 16 + b.toNat / 16) / 16) = a :=
      ofNat_eq_of_toNat (by omega)
    have hsecond : UInt8.ofNat ((a.toNat % 4 * 16 + b.toNat / 16) % 16 * 16 +
        (b.toNat % 16 * 4 + c.toNat / 64) / 4) = b := ofNat_eq_of_toNat (by omega)
    have hthird : UInt8.ofNat ((b.toNat % 16 * 4 + c.toNat / 64) % 4 * 64 + c.toNat % 64) = c :=
      ofNat_eq_of_toNat (by omega)
    rw [b2aBase64, a2bBase64_digit _ (by omega), a2bBase64_digit _ (by omega),
      a2bBase64_digit _ (by omega), a2bBase64_digit _ (by omega)]
    simp only [Group.next, hfirst, hsecond, hthird, ih]
    rfl

theorem urlsafeB64decode_urlsafeB64encode (bs : Bytes) :
    urlsafeB64decode (urlsafeB64encode bs) = some bs := by
  unfold urlsafeB64decode
  rw [map_translations, a2bBase64_b2aBase64]

end Base64
