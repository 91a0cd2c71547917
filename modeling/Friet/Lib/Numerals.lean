import Mathlib.Algebra.Group.Nat.Defs

/-!
# Numerals in texts

A numeral in base ten is read back from its digits, and ends where a separator
that is no digit stands.
-/

set_option autoImplicit false

namespace Numerals

theorem toDigits_inj {m n : ℕ} : Nat.toDigits 10 m = Nat.toDigits 10 n ↔ m = n := by
  constructor
  · intro h
    rw [← Nat.ofDigitChars_toDigits (n := m) (b := 10) (by decide) (by decide), h,
      Nat.ofDigitChars_toDigits (by decide) (by decide)]
  · rintro rfl
    rfl

theorem not_mem_toDigits {c : Char} (hc : c.isDigit = false) (n : ℕ) : c ∉ Nat.toDigits 10 n := by
  intro h
  rw [Nat.isDigit_of_mem_toDigits (by decide) (by decide) h] at hc
  cases hc

theorem length_toDigits_eq_iff {n k : ℕ} (hk : 0 < k) :
    (Nat.toDigits 10 n).length = k + 1 ↔ 10 ^ k ≤ n ∧ n < 10 ^ (k + 1) := by
  have hle := Nat.length_toDigits_le_iff (n := n) (b := 10) (by decide) hk
  have hle' := Nat.length_toDigits_le_iff (n := n) (b := 10) (by decide) (Nat.succ_pos k)
  omega

theorem toList_toString (n : ℕ) : (toString n).toList = Nat.toDigits 10 n := by
  rw [Nat.toString_eq_repr]
  simp [Nat.repr]

/-- Zeros, or anything else, that a numeral is filled up with. -/
theorem toList_pushn (s : String) (c : Char) (n : ℕ) :
    (s.pushn c n).toList = s.toList ++ List.replicate n c := by
  rw [String.pushn_eq_repeat_push]
  induction n with
  | zero => simp [Nat.repeat]
  | succ n ih => rw [Nat.repeat, String.toList_push, ih, List.replicate_succ', List.append_assoc]

/-- What stands before the last separator, and after it. -/
theorem eq_of_append_cons_eq {α : Type} {a b x y : List α} {c : α} (hx : c ∉ x) (hy : c ∉ y)
    (h : a ++ c :: x = b ++ c :: y) : a = b ∧ x = y := by
  have hnot : ∀ {l m n : List α}, c ∉ m → m = l ++ c :: n → False := by
    rintro l m n hm rfl
    exact hm (by simp)
  rcases List.append_eq_append_iff.mp h with ⟨l, rfl, hl⟩ | ⟨l, rfl, hl⟩
  · cases l with
    | nil => exact ⟨(List.append_nil a).symm, (List.cons.inj hl).2⟩
    | cons d l => exact (hnot hx (List.cons.inj hl).2).elim
  · cases l with
    | nil => exact ⟨List.append_nil b, (List.cons.inj hl).2.symm⟩
    | cons d l => exact (hnot hy (List.cons.inj hl).2).elim

end Numerals
