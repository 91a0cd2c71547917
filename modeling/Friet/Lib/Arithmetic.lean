import Friet.Lib.Rounding
import Mathlib.Data.Int.Log
import Mathlib.Data.Rat.Floor

/-!
# Arithmetic that rounds every result

A number is kept to so many significant digits in some base: 53 binary digits
for a double, 28 decimal ones for Python's `Decimal`. What an operation yields is
its exact result, rounded so; `Arithmetic` says how, and exact arithmetic is one
instance among three. Sizes and exponents are not limited.
-/

set_option autoImplicit false

namespace Rounding

/-- `x` to `p` significant digits in base `b`, ties to even. -/
def keep (b p : ℕ) (x : ℚ) : ℚ :=
  let unit := (b : ℚ) ^ (Int.log b |x| - (p - 1))
  nearestEven (x / unit) * unit

/-- At most `p` significant digits in base `b`. -/
def Fits (b p : ℕ) (x : ℚ) : Prop := ∃ k e : ℤ, x = k * (b : ℚ) ^ e ∧ |k| < (b : ℤ) ^ p

theorem Nearest.intCast {r : ℚ → ℤ} (hr : Nearest r) (k : ℤ) : r k = k := by
  apply hr.eq_of_near
  rw [sub_self, abs_zero]
  norm_num

section Digits
variable {b p : ℕ} {x y : ℚ}

@[simp] theorem keep_zero : keep b p 0 = 0 := by
  have hzero : (nearestEven (0 : ℚ)) = 0 := by exact_mod_cast nearestEven_nearest.intCast 0
  simp [keep, hzero]

theorem Fits.zero (hb : 1 < b) : Fits b p 0 := ⟨0, 0, by simp, by simpa using pow_pos (by omega) p⟩

theorem Fits.neg (h : Fits b p x) : Fits b p (-x) := by
  obtain ⟨k, e, rfl, hk⟩ := h
  exact ⟨-k, e, by push_cast; ring, by rwa [abs_neg]⟩

theorem Fits.intCast {k : ℤ} (h : |k| < (b : ℤ) ^ p) : Fits b p k := ⟨k, 0, by simp, h⟩

/-- Few enough units of `10⁻ⁿ` are kept to the last. -/
theorem Fits.of_onGrid {n : ℕ} (hx : OnGrid n x) (h : |x| < 10 ^ p / 10 ^ n) : Fits 10 p x := by
  obtain ⟨k, rfl⟩ := hx
  refine ⟨k, -n, ?_, ?_⟩
  · rw [zpow_neg, zpow_natCast, div_eq_mul_inv]
    norm_num
  · have hpos := pow_ten_pos (K := ℚ) n
    rw [abs_div, abs_of_pos hpos, div_lt_div_iff_of_pos_right hpos] at h
    exact_mod_cast h

theorem keep_of_fits (hb : 1 < b) (h : Fits b p x) : keep b p x = x := by
  obtain ⟨k, e, hx, hk⟩ := h
  have hb0 : (b : ℚ) ≠ 0 := by positivity
  have hbpos : (0 : ℚ) < b := by positivity
  rcases eq_or_ne x 0 with hzero | hne
  · rw [hzero, keep_zero]
  set m := Int.log b |x| with hm
  have hle : m - (p - 1) ≤ e := by
    by_contra hlt
    have hk' : |(k : ℚ)| < (b : ℚ) ^ (p : ℤ) := by
      rw [zpow_natCast]
      exact_mod_cast hk
    have hsmall : |x| < (b : ℚ) ^ m :=
      calc |x| = |(k : ℚ)| * (b : ℚ) ^ e := by rw [hx, abs_mul, abs_of_pos (zpow_pos hbpos e)]
        _ < (b : ℚ) ^ (p : ℤ) * (b : ℚ) ^ e := mul_lt_mul_of_pos_right hk' (zpow_pos hbpos e)
        _ = (b : ℚ) ^ (p + e) := (zpow_add₀ hb0 _ _).symm
        _ ≤ (b : ℚ) ^ m := zpow_le_zpow_right₀ (by exact_mod_cast hb.le) (by omega)
    exact absurd (Int.zpow_log_le_self hb (abs_pos.mpr hne)) (not_le.mpr hsmall)
  obtain ⟨d, hd⟩ := Int.eq_ofNat_of_zero_le (sub_nonneg.mpr hle)
  have hunit : (b : ℚ) ^ (m - (p - 1)) ≠ 0 := zpow_ne_zero _ hb0
  have hscaled : x / (b : ℚ) ^ (m - (p - 1)) = ((k * b ^ d : ℤ) : ℚ) := by
    rw [div_eq_iff hunit, hx]
    push_cast
    rw [← zpow_natCast, mul_assoc, ← zpow_add₀ hb0]
    congr 2
    omega
  change (nearestEven (x / (b : ℚ) ^ (m - (p - 1))) : ℚ) * (b : ℚ) ^ (m - (p - 1)) = x
  rw [hscaled, nearestEven_nearest.intCast, ← hscaled, div_mul_cancel₀ _ hunit]

theorem keep_mul_zpow (hb : 1 < b) (x : ℚ) (n : ℤ) :
    keep b p (x * (b : ℚ) ^ n) = keep b p x * (b : ℚ) ^ n := by
  have hb0 : (b : ℚ) ≠ 0 := by positivity
  have hbpos : (0 : ℚ) < b := by positivity
  rcases eq_or_ne x 0 with rfl | hne
  · simp
  have hpos : 0 < |x| := abs_pos.mpr hne
  have hlog : Int.log b |x * (b : ℚ) ^ n| = Int.log b |x| + n := by
    rw [abs_mul, abs_of_pos (zpow_pos hbpos n)]
    apply le_antisymm
    · have hupper : |x| * (b : ℚ) ^ n < (b : ℚ) ^ (Int.log b |x| + n + 1) := by
        rw [add_right_comm, zpow_add₀ hb0]
        exact mul_lt_mul_of_pos_right (Int.lt_zpow_succ_log_self hb |x|) (zpow_pos hbpos n)
      exact Int.lt_add_one_iff.mp
        ((Int.lt_zpow_iff_log_lt hb (mul_pos hpos (zpow_pos hbpos n))).mp hupper)
    · rw [← Int.zpow_le_iff_le_log hb (mul_pos hpos (zpow_pos hbpos n)), zpow_add₀ hb0]
      exact mul_le_mul_of_nonneg_right (Int.zpow_log_le_self hb hpos) (zpow_pos hbpos n).le
  have hsplit : (b : ℚ) ^ (Int.log b |x| + n - (p - 1)) =
      (b : ℚ) ^ (Int.log b |x| - (p - 1)) * (b : ℚ) ^ n := by
    rw [← zpow_add₀ hb0]
    congr 1
    omega
  unfold keep
  dsimp only
  rw [hlog, hsplit, mul_div_mul_right _ _ (zpow_ne_zero n hb0), mul_assoc]

theorem abs_sub_keep_le_unit (hb : 1 < b) (x : ℚ) :
    |x - keep b p x| ≤ 1 / 2 * (b : ℚ) ^ (Int.log b |x| - (p - 1)) := by
  have hbpos : (0 : ℚ) < b := by positivity
  set unit := (b : ℚ) ^ (Int.log b |x| - (p - 1)) with hunit
  have hpos : 0 < unit := zpow_pos hbpos _
  have hsplit : x - keep b p x = (x / unit - nearestEven (x / unit)) * unit := by
    change x - nearestEven (x / unit) * unit = _
    rw [sub_mul, div_mul_cancel₀ _ hpos.ne']
  rw [hsplit, abs_mul, abs_of_pos hpos]
  exact mul_le_mul_of_nonneg_right (nearestEven_nearest _) hpos.le

theorem abs_sub_keep_le (hb : 1 < b) (x : ℚ) :
    |x - keep b p x| ≤ 1 / 2 * (b : ℚ) ^ (1 - p : ℤ) * |x| := by
  have hb0 : (b : ℚ) ≠ 0 := by positivity
  have hbpos : (0 : ℚ) < b := by positivity
  rcases eq_or_ne x 0 with rfl | hne
  · simp
  refine (abs_sub_keep_le_unit hb x).trans ?_
  have hexp : Int.log b |x| - (p - 1) = (1 - p) + Int.log b |x| := by ring
  rw [hexp, zpow_add₀ hb0, ← mul_assoc]
  exact mul_le_mul_of_nonneg_left (Int.zpow_log_le_self hb (abs_pos.mpr hne))
    (mul_nonneg (by norm_num) (zpow_pos hbpos _).le)

theorem fits_keep (hb : 1 < b) (hp : 0 < p) (x : ℚ) : Fits b p (keep b p x) := by
  have hb0 : (b : ℚ) ≠ 0 := by positivity
  have hbpos : (0 : ℚ) < b := by positivity
  rcases eq_or_ne x 0 with rfl | hne
  · rw [keep_zero]
    exact Fits.zero hb
  set unit := (b : ℚ) ^ (Int.log b |x| - (p - 1)) with hunit
  have hpos : 0 < unit := zpow_pos hbpos _
  have hscaled : |x / unit| < (b : ℚ) ^ p := by
    rw [abs_div, abs_of_pos hpos, div_lt_iff₀ hpos, hunit, ← zpow_natCast, ← zpow_add₀ hb0]
    refine (Int.lt_zpow_succ_log_self hb |x|).trans_eq ?_
    congr 1
    ring
  have hle : |nearestEven (x / unit)| ≤ (b : ℤ) ^ p := by
    obtain ⟨hlo, hhi⟩ := abs_lt.mp hscaled
    have hcast : (((b : ℤ) ^ p : ℤ) : ℚ) = (b : ℚ) ^ p := by push_cast; rfl
    have hneg : (((-(b : ℤ) ^ p : ℤ)) : ℚ) = -(b : ℚ) ^ p := by push_cast; rfl
    refine abs_le.mpr ⟨?_, ?_⟩
    · rw [← nearestEven_nearest.intCast (-(b : ℤ) ^ p), hneg]
      exact nearestEven_nearest.mono hlo.le
    · rw [← nearestEven_nearest.intCast ((b : ℤ) ^ p), hcast]
      exact nearestEven_nearest.mono hhi.le
  rcases hle.lt_or_eq with hlt | heq
  · exact ⟨nearestEven (x / unit), Int.log b |x| - (p - 1), rfl, hlt⟩
  · have hone : (1 : ℤ) < (b : ℤ) ^ p := one_lt_pow₀ (by exact_mod_cast hb) hp.ne'
    have hpower : Fits b p ((b : ℚ) ^ p * unit) := by
      refine ⟨1, p + (Int.log b |x| - (p - 1)), ?_, by simpa using hone⟩
      rw [zpow_add₀ hb0, zpow_natCast, Int.cast_one, one_mul]
    have hkeep : keep b p x = nearestEven (x / unit) * unit := rfl
    rcases (abs_eq (by positivity)).mp heq with h | h
    · rw [hkeep, h]
      push_cast
      exact hpower
    · rw [hkeep, h]
      push_cast
      rw [neg_mul]
      exact hpower.neg

end Digits

/-- What the exact result of an operation is rounded to. -/
class Arithmetic where
  fl : ℚ → ℚ

export Arithmetic (fl)

namespace Exact

scoped instance arithmetic : Arithmetic := ⟨id⟩

@[simp] theorem fl_eq (x : ℚ) : fl x = x := rfl

end Exact

def double (x : ℚ) : ℚ := keep 2 53 x

namespace Doubles

scoped instance arithmetic : Arithmetic := ⟨double⟩

end Doubles

def decimal (x : ℚ) : ℚ := keep 10 28 x

namespace Decimals

scoped instance arithmetic : Arithmetic := ⟨decimal⟩

end Decimals

section Sums
variable [Arithmetic]

/-- A loop of `+=`. -/
def addUp (xs : List ℚ) : ℚ := xs.foldl (fun s x => fl (s + x)) 0

theorem addUp_concat (xs : List ℚ) (x : ℚ) : addUp (xs ++ [x]) = fl (addUp xs + x) := by
  simp [addUp]

def Lossless (xs : List ℚ) : Prop := ∀ ys : List ℚ, ys.Sublist xs → fl ys.sum = ys.sum

theorem Lossless.addUp_eq {xs ys : List ℚ} (h : Lossless xs) (hsub : ys.Sublist xs) :
    addUp ys = ys.sum := by
  induction ys using List.reverseRecOn with
  | nil => rfl
  | append_singleton ys y ih =>
    have hsum : (ys ++ [y]).sum = ys.sum + y := by simp
    rw [addUp_concat, ih ((List.sublist_append_left ys [y]).trans hsub), ← hsum, h _ hsub]

/-- One step of the compensated sum: the sum so far, and what rounding has lost of it. -/
def compensate (s : ℚ × ℚ) (x : ℚ) : ℚ × ℚ :=
  let t := fl (s.1 + x)
  (t, fl (s.2 + if |x| ≤ |s.1| then fl (fl (s.1 - t) + x) else fl (fl (x - t) + s.1)))

/-- `sum` of floats. -/
def total (xs : List ℚ) : ℚ :=
  let s := xs.foldl compensate (0, 0)
  fl (s.1 + s.2)

end Sums

section Exact
open Exact

@[simp] theorem addUp_exact (xs : List ℚ) : addUp xs = xs.sum := (List.sum_eq_foldl).symm

theorem foldl_compensate_exact (xs : List ℚ) (s : ℚ) :
    xs.foldl compensate (s, 0) = (s + xs.sum, 0) := by
  induction xs generalizing s with
  | nil => simp
  | cons x xs ih =>
    have hnone : compensate (s, 0) x = (s + x, 0) := by
      simp [compensate]
    rw [List.foldl_cons, hnone, ih, List.sum_cons, add_assoc]

/-- Without rounding nothing is lost. -/
@[simp] theorem total_exact (xs : List ℚ) : total xs = xs.sum := by
  simp [total, foldl_compensate_exact]

end Exact

def size (xs : List ℚ) : ℚ := (xs.map abs).sum

theorem size_nonneg (xs : List ℚ) : 0 ≤ size xs :=
  List.sum_nonneg fun _ h => by
    obtain ⟨x, -, rfl⟩ := List.mem_map.mp h
    exact abs_nonneg x

theorem abs_sum_le_size (xs : List ℚ) : |xs.sum| ≤ size xs := by
  induction xs with
  | nil => simp [size]
  | cons x xs ih =>
    simp only [size, List.map_cons, List.sum_cons] at ih ⊢
    exact (abs_add_le x xs.sum).trans (by linarith)

@[simp] theorem size_concat (xs : List ℚ) (x : ℚ) : size (xs ++ [x]) = size xs + |x| := by
  simp [size]

section Error
variable [Arithmetic] {u : ℚ}

/-- The relative error of an operation is at most `u`. -/
def Within (u : ℚ) : Prop := 0 ≤ u ∧ ∀ x : ℚ, |fl x - x| ≤ u * |x|

theorem Within.abs_le (h : Within u) (x : ℚ) : |fl x| ≤ |x| + u * |x| := by
  have hsplit : fl x = x + (fl x - x) := by ring
  calc |fl x| = |x + (fl x - x)| := by rw [← hsplit]
    _ ≤ |x| + |fl x - x| := abs_add_le _ _
    _ ≤ |x| + u * |x| := by linarith [h.2 x]

/-- Each addition loses at most `u` of what has been added up, which is at most twice the sizes. -/
theorem abs_addUp_sub_le (h : Within u) (xs : List ℚ) (hn : xs.length * (2 * u) ≤ 1) :
    |addUp xs - xs.sum| ≤ xs.length * (2 * u) * size xs := by
  induction xs using List.reverseRecOn with
  | nil => simp [addUp]
  | append_singleton xs x ih =>
    obtain ⟨hu, hfl⟩ := h
    have hlength : ((xs ++ [x]).length : ℚ) = xs.length + 1 := by simp
    rw [hlength] at hn ⊢
    have hn' : xs.length * (2 * u) ≤ 1 := by linarith
    have hprev := ih hn'
    have hA := size_nonneg xs
    have hsum := abs_sum_le_size (xs ++ [x])
    rw [size_concat] at hsum ⊢
    have hstep := addUp_concat xs x
    have hsumEq : (xs ++ [x]).sum = xs.sum + x := by simp
    rw [hsumEq] at hsum ⊢
    rw [hstep]
    have hadded : |addUp xs + x| ≤ 2 * (size xs + |x|) := by
      calc |addUp xs + x| = |(xs.sum + x) + (addUp xs - xs.sum)| := by ring_nf
        _ ≤ |xs.sum + x| + |addUp xs - xs.sum| := abs_add_le _ _
        _ ≤ (size xs + |x|) + 1 * size xs := by
            have := mul_le_mul_of_nonneg_right hn' hA
            linarith
        _ ≤ 2 * (size xs + |x|) := by linarith [abs_nonneg x]
    calc |fl (addUp xs + x) - (xs.sum + x)|
        = |(fl (addUp xs + x) - (addUp xs + x)) + (addUp xs - xs.sum)| := by ring_nf
      _ ≤ |fl (addUp xs + x) - (addUp xs + x)| + |addUp xs - xs.sum| := abs_add_le _ _
      _ ≤ u * (2 * (size xs + |x|)) + xs.length * (2 * u) * size xs :=
          add_le_add ((hfl _).trans (mul_le_mul_of_nonneg_left hadded hu)) hprev
      _ ≤ (xs.length + 1) * (2 * u) * (size xs + |x|) := by
          have : 0 ≤ xs.length * (2 * u) * |x| := by positivity
          linarith

/-- What one step loses is at most a few `u` of the sizes so far. -/
theorem Within.abs_lost_le (h : Within u) (hu : u ≤ 1 / 16) {s x B : ℚ} (hs : |s| ≤ 2 * B)
    (hx : |x| ≤ B) (hsx : |s + x| ≤ 2 * B) :
    |if |x| ≤ |s| then fl (fl (s - fl (s + x)) + x) else fl (fl (x - fl (s + x)) + s)| ≤
      5 * u * B := by
  have hB : 0 ≤ B := (abs_nonneg x).trans hx
  obtain ⟨hu0, hfl⟩ := h
  have he : |fl (s + x) - (s + x)| ≤ u * (2 * B) :=
    (hfl _).trans (mul_le_mul_of_nonneg_left hsx hu0)
  -- `y` is the larger of the two, `z` the smaller
  have hgen : ∀ y z : ℚ, y + z = s + x → |z| ≤ 2 * B →
      |fl (fl (y - fl (s + x)) + z)| ≤ 5 * u * B := by
    intro y z hyz hz
    have hrest : |y - fl (s + x)| ≤ 2 * B + u * (2 * B) := by
      calc |y - fl (s + x)| = |-z - (fl (s + x) - (s + x))| := by rw [← hyz]; ring_nf
        _ ≤ |-z| + |fl (s + x) - (s + x)| := abs_sub _ _
        _ ≤ 2 * B + u * (2 * B) := by rw [abs_neg]; exact add_le_add hz he
    have hrounded : |fl (y - fl (s + x)) + z| ≤ u * (2 * B) + u * (2 * B + u * (2 * B)) := by
      calc |fl (y - fl (s + x)) + z|
          = |(fl (y - fl (s + x)) - (y - fl (s + x))) - (fl (s + x) - (s + x))| := by
            rw [← hyz]
            ring_nf
        _ ≤ |fl (y - fl (s + x)) - (y - fl (s + x))| + |fl (s + x) - (s + x)| := abs_sub _ _
        _ ≤ u * (2 * B + u * (2 * B)) + u * (2 * B) :=
            add_le_add ((hfl _).trans (mul_le_mul_of_nonneg_left hrest hu0)) he
        _ = u * (2 * B) + u * (2 * B + u * (2 * B)) := add_comm _ _
    have hfour : |fl (y - fl (s + x)) + z| ≤ (33 / 8) * (u * B) := by
      have huu : u * (u * B) ≤ 1 / 16 * (u * B) :=
        mul_le_mul_of_nonneg_right hu (mul_nonneg hu0 hB)
      linarith
    have huB : 0 ≤ u * B := mul_nonneg hu0 hB
    have hlast : u * |fl (y - fl (s + x)) + z| ≤ 1 / 16 * ((33 / 8) * (u * B)) :=
      mul_le_mul hu hfour (abs_nonneg _) (by norm_num)
    have := Within.abs_le ⟨hu0, hfl⟩ (fl (y - fl (s + x)) + z)
    linarith
  split_ifs
  · exact hgen s x rfl (by linarith)
  · exact hgen x s (add_comm x s) hs

theorem foldl_compensate_fst (xs : List ℚ) (s : ℚ × ℚ) :
    (xs.foldl compensate s).1 = xs.foldl (fun s x => fl (s + x)) s.1 := by
  induction xs generalizing s with
  | nil => rfl
  | cons x xs ih => exact ih (compensate s x)

theorem abs_foldl_compensate_snd_le (h : Within u) (hu : u ≤ 1 / 16) {xs : List ℚ}
    (hn : xs.length * (10 * u) ≤ 1) :
    |(xs.foldl compensate (0, 0)).2| ≤ xs.length * (10 * u) * size xs := by
  induction xs using List.reverseRecOn with
  | nil => simp
  | append_singleton xs x ih =>
    have hu0 := h.1
    have hlength : ((xs ++ [x]).length : ℚ) = xs.length + 1 := by simp
    rw [hlength] at hn ⊢
    have hn' : xs.length * (10 * u) ≤ 1 := by linarith
    have hprev := ih hn'
    have hA := size_nonneg xs
    have hx := abs_nonneg x
    have hxs := abs_sum_le_size xs
    have hlen : (0 : ℚ) ≤ xs.length := by positivity
    have hnu : 0 ≤ xs.length * u := mul_nonneg hlen hu0
    have haddUp : |addUp xs - xs.sum| ≤ 1 * size xs :=
      (abs_addUp_sub_le h xs (by linarith)).trans (mul_le_mul_of_nonneg_right (by linarith) hA)
    have hs : |addUp xs| ≤ 2 * size xs := by
      calc |addUp xs| = |xs.sum + (addUp xs - xs.sum)| := by ring_nf
        _ ≤ |xs.sum| + |addUp xs - xs.sum| := abs_add_le _ _
        _ ≤ 2 * size xs := by linarith
    have hsx : |addUp xs + x| ≤ 2 * (size xs + |x|) := (abs_add_le _ _).trans (by linarith)
    have hfst : (xs.foldl compensate (0, 0)).1 = addUp xs := foldl_compensate_fst xs (0, 0)
    have hlost := h.abs_lost_le hu (show |addUp xs| ≤ 2 * (size xs + |x|) by linarith)
      (show |x| ≤ size xs + |x| by linarith) hsx
    rw [size_concat]
    set B := size xs + |x| with hB
    set c := (xs.foldl compensate (0, 0)).2 with hc
    set lost := if |x| ≤ |addUp xs| then fl (fl (addUp xs - fl (addUp xs + x)) + x) else
      fl (fl (x - fl (addUp xs + x)) + addUp xs) with hlostEq
    have hstep : ((xs ++ [x]).foldl compensate (0, 0)).2 = fl (c + lost) := by
      rw [List.foldl_append, hlostEq, ← hfst]
      rfl
    rw [hstep]
    have hcB : |c| ≤ xs.length * (10 * u) * B := by
      refine hprev.trans (mul_le_mul_of_nonneg_left (by linarith) (by linarith))
    have hcsmall : |c| ≤ 1 * B := hcB.trans (mul_le_mul_of_nonneg_right hn' (by linarith))
    have huB : 0 ≤ u * B := mul_nonneg hu0 (by linarith)
    have hsum := (abs_add_le c lost).trans (add_le_add hcB hlost)
    have hsumB := (abs_add_le c lost).trans (add_le_add hcsmall hlost)
    have huu : u * (5 * u * B) ≤ 5 / 16 * (u * B) := by
      have := mul_le_mul_of_nonneg_right hu huB
      linarith
    refine (h.abs_le _).trans ?_
    have hlast := mul_le_mul_of_nonneg_left hsumB hu0
    linarith

/-- Compensated or not, a sum loses little more than a few `u` of the sizes for each summand. -/
theorem abs_total_sub_le (h : Within u) (hu : u ≤ 1 / 16) (xs : List ℚ)
    (hn : xs.length * (10 * u) ≤ 1) :
    |total xs - xs.sum| ≤ xs.length * (16 * u) * size xs := by
  have hu0 := h.1
  have hA := size_nonneg xs
  rcases eq_or_ne xs [] with rfl | hne
  · have hzero : fl (0 : ℚ) = 0 := by
      have := h.2 0
      simpa using this
    simp [total, hzero]
  have hone : (1 : ℚ) ≤ xs.length := by exact_mod_cast List.length_pos_iff.mpr hne
  have hlen : (0 : ℚ) ≤ xs.length := by linarith
  have hnu : 0 ≤ xs.length * u := mul_nonneg hlen hu0
  have hfst : (xs.foldl compensate (0, 0)).1 = addUp xs := foldl_compensate_fst xs (0, 0)
  have haddUp := abs_addUp_sub_le h xs (by linarith)
  have hlost := abs_foldl_compensate_snd_le h hu hn
  have hsum := abs_sum_le_size xs
  set c := (xs.foldl compensate (0, 0)).2 with hc
  have htotal : total xs = fl (addUp xs + c) := by
    rw [← hfst]
    rfl
  have huA : u * size xs ≤ xs.length * u * size xs := by
    have := mul_le_mul_of_nonneg_right hone (mul_nonneg hu0 hA)
    linarith
  have hbefore : |addUp xs + c - xs.sum| ≤ xs.length * (12 * u) * size xs := by
    calc |addUp xs + c - xs.sum| = |(addUp xs - xs.sum) + c| := by ring_nf
      _ ≤ |addUp xs - xs.sum| + |c| := abs_add_le _ _
      _ ≤ xs.length * (12 * u) * size xs := by linarith
  have hnA : xs.length * (10 * u) * size xs ≤ 1 * size xs := mul_le_mul_of_nonneg_right hn hA
  have hsize : |addUp xs + c| ≤ 3 * size xs := by
    calc |addUp xs + c| = |xs.sum + (addUp xs + c - xs.sum)| := by ring_nf
      _ ≤ |xs.sum| + |addUp xs + c - xs.sum| := abs_add_le _ _
      _ ≤ 3 * size xs := by linarith
  rw [htotal]
  calc |fl (addUp xs + c) - xs.sum|
      = |(fl (addUp xs + c) - (addUp xs + c)) + (addUp xs + c - xs.sum)| := by ring_nf
    _ ≤ |fl (addUp xs + c) - (addUp xs + c)| + |addUp xs + c - xs.sum| := abs_add_le _ _
    _ ≤ u * (3 * size xs) + xs.length * (12 * u) * size xs :=
        add_le_add ((h.2 _).trans (mul_le_mul_of_nonneg_left hsize hu0)) hbefore
    _ ≤ xs.length * (16 * u) * size xs := by
        have := mul_nonneg hnu hA
        linarith

end Error

section Decimal
variable {n : ℕ} {x y z : ℚ}

/-- Few enough units of `10⁻ⁿ` for the digits of the context. -/
def InDigits (n : ℕ) (x : ℚ) : Prop := OnGrid n x ∧ |x| < 10 ^ 28 / 10 ^ n

theorem decimal_of_inDigits (h : InDigits n x) : decimal x = x :=
  keep_of_fits (by norm_num) (Fits.of_onGrid h.1 h.2)

theorem InDigits.zero : InDigits n 0 := ⟨OnGrid.zero, by rw [abs_zero]; positivity⟩

theorem InDigits.between (hx : InDigits n x) (hy : InDigits n y) (hz : OnGrid n z) (hxz : x ≤ z)
    (hzy : z ≤ y) : InDigits n z :=
  ⟨hz, abs_lt.mpr ⟨(abs_lt.mp hx.2).1.trans_le hxz, hzy.trans_lt (abs_lt.mp hy.2).2⟩⟩

open Decimals

theorem lossless_of_inDigits {xs : List ℚ} (hgrid : ∀ x ∈ xs, OnGrid n x) (hnonneg : ∀ x ∈ xs, 0 ≤ x)
    (hsum : InDigits n xs.sum) : Lossless xs := by
  intro ys hsub
  have hys : OnGrid n ys.sum := OnGrid.sum fun y hy => hgrid y (hsub.subset hy)
  have hys0 : 0 ≤ ys.sum := List.sum_nonneg fun y hy => hnonneg y (hsub.subset hy)
  have hle : ys.sum ≤ xs.sum := hsub.sum_le_sum hnonneg
  exact decimal_of_inDigits (InDigits.zero.between hsum hys hys0 hle)

end Decimal

section Double
open Doubles

@[simp] theorem double_double (x : ℚ) : double (double x) = double x :=
  keep_of_fits (by norm_num) (fits_keep (by norm_num) (by norm_num) x)

theorem double_mul_zpow (x : ℚ) (n : ℤ) : double (x * 2 ^ n) = double x * 2 ^ n :=
  keep_mul_zpow (b := 2) (by norm_num) x n

@[simp] theorem double_one : double 1 = 1 := by
  have hone : Fits 2 53 ((1 : ℤ) : ℚ) := Fits.intCast (by norm_num)
  exact_mod_cast keep_of_fits (by norm_num) hone

theorem double_two_pow (m : ℕ) : double (2 ^ m) = 2 ^ m := by
  have hscaled := double_mul_zpow 1 m
  rwa [zpow_natCast, one_mul, double_one, one_mul] at hscaled

theorem within_double : Within (1 / 2 ^ 53) := by
  refine ⟨by positivity, fun x => ?_⟩
  rw [abs_sub_comm]
  refine (abs_sub_keep_le (by norm_num) x).trans_eq ?_
  norm_num [zpow_neg]

theorem size_map_double_le (xs : List ℚ) : size (xs.map double) ≤ (1 + 1 / 2 ^ 53) * size xs := by
  induction xs with
  | nil => simp [size]
  | cons x xs ih =>
    have hx := within_double.abs_le x
    change |double x| ≤ _ at hx
    simp only [size, List.map_cons, List.sum_cons] at ih ⊢
    linarith

theorem abs_sum_map_double_sub_le (xs : List ℚ) :
    |(xs.map double).sum - xs.sum| ≤ 1 / 2 ^ 53 * size xs := by
  induction xs with
  | nil => simp [size]
  | cons x xs ih =>
    have hx := within_double.2 x
    change |double x - x| ≤ _ at hx
    simp only [size, List.map_cons, List.sum_cons] at ih ⊢
    calc |double x + (xs.map double).sum - (x + xs.sum)|
        = |(double x - x) + ((xs.map double).sum - xs.sum)| := by ring_nf
      _ ≤ |double x - x| + |(xs.map double).sum - xs.sum| := abs_add_le _ _
      _ ≤ _ := by linarith

/-- Few enough numbers, and not too large. -/
def Moderate (xs : List ℚ) : Prop := xs.length * (size xs + 1) ≤ 10 ^ 12

instance (xs : List ℚ) : Decidable (Moderate xs) := inferInstanceAs (Decidable (_ ≤ _))

theorem near_of_units {xs : List ℚ} {s : ℚ} (hxs : Moderate xs)
    (h : |s - (xs.map double).sum| ≤ xs.length * (16 * (1 / 2 ^ 53)) * size (xs.map double)) :
    |s - xs.sum| ≤ 1 / 500 := by
  have hA := size_nonneg xs
  rcases eq_or_ne xs [] with rfl | hne
  · have hs : s = 0 := by simpa [size] using h
    norm_num [hs]
  have hone : (1 : ℚ) ≤ xs.length := by exact_mod_cast List.length_pos_iff.mpr hne
  have hlen : (0 : ℚ) ≤ xs.length := by linarith
  have hnA : xs.length * size xs ≤ 10 ^ 12 := by
    unfold Moderate at hxs
    linarith
  have hAle : size xs ≤ xs.length * size xs := by
    have := mul_le_mul_of_nonneg_right hone hA
    linarith
  have hfirst : |s - (xs.map double).sum| ≤ 17 / 2 ^ 53 * (xs.length * size xs) := by
    have hmap := mul_le_mul_of_nonneg_left (size_map_double_le xs) hlen
    have hnn : 0 ≤ xs.length * size xs := mul_nonneg hlen hA
    refine h.trans ?_
    norm_num at hmap ⊢
    linarith
  have hsecond := abs_sum_map_double_sub_le xs
  calc |s - xs.sum| = |(s - (xs.map double).sum) + ((xs.map double).sum - xs.sum)| := by ring_nf
    _ ≤ |s - (xs.map double).sum| + |(xs.map double).sum - xs.sum| := abs_add_le _ _
    _ ≤ 18 / 2 ^ 53 * (xs.length * size xs) := by norm_num at hsecond ⊢; linarith
    _ ≤ 18 / 2 ^ 53 * 10 ^ 12 := mul_le_mul_of_nonneg_left hnA (by norm_num)
    _ ≤ 1 / 500 := by norm_num

theorem Moderate.length_le {xs : List ℚ} (h : Moderate xs) : (xs.length : ℚ) ≤ 10 ^ 12 := by
  have := mul_nonneg (Nat.cast_nonneg (α := ℚ) xs.length) (size_nonneg xs)
  unfold Moderate at h
  linarith

theorem Moderate.size_le {xs : List ℚ} (h : Moderate xs) : size xs ≤ 10 ^ 12 := by
  have hA := size_nonneg xs
  rcases eq_or_ne xs [] with rfl | hne
  · norm_num [size]
  have hone : (1 : ℚ) ≤ xs.length := by exact_mod_cast List.length_pos_iff.mpr hne
  have := mul_le_mul_of_nonneg_right hone (show 0 ≤ size xs + 1 by linarith)
  unfold Moderate at h
  linarith

theorem Moderate.sublist {xs ys : List ℚ} (h : Moderate ys) (hsub : xs.Sublist ys) :
    Moderate xs := by
  have hlength : (xs.length : ℚ) ≤ ys.length := by exact_mod_cast hsub.length_le
  have hsize : size xs ≤ size ys := (hsub.map abs).sum_le_sum fun _ hx => by
    obtain ⟨x, -, rfl⟩ := List.mem_map.mp hx
    exact abs_nonneg x
  have hxs := size_nonneg xs
  exact (mul_le_mul hlength (by linarith) (by linarith) (Nat.cast_nonneg _)).trans h

theorem total_double_near {xs : List ℚ} (hxs : Moderate xs) :
    |total (xs.map double) - xs.sum| ≤ 1 / 500 := by
  have hlength := hxs.length_le
  have hbound := abs_total_sub_le within_double (by norm_num) (xs.map double)
    (by rw [List.length_map]; linarith)
  rw [List.length_map] at hbound
  exact near_of_units hxs hbound

theorem addUp_double_near {xs : List ℚ} (hxs : Moderate xs) :
    |addUp (xs.map double) - xs.sum| ≤ 1 / 500 := by
  have hlength := hxs.length_le
  have hbound := abs_addUp_sub_le within_double (xs.map double)
    (by rw [List.length_map]; linarith)
  rw [List.length_map] at hbound
  refine near_of_units hxs (hbound.trans ?_)
  exact mul_le_mul_of_nonneg_right (by norm_num; linarith [Nat.cast_nonneg (α := ℚ) xs.length])
    (size_nonneg _)

/-- What is near a number of that size is so when it is rounded once more. -/
theorem abs_double_sub_lt {x y : ℚ} (hxy : |x - y| ≤ 1 / 250) (hy : |y| ≤ 2 * 10 ^ 12) :
    |double x - y| < 1 / 2 / 10 ^ 2 := by
  have hx : |x| ≤ 3 * 10 ^ 12 := by
    calc |x| = |y + (x - y)| := by ring_nf
      _ ≤ |y| + |x - y| := abs_add_le _ _
      _ ≤ 3 * 10 ^ 12 := by linarith
  have hrounded := within_double.2 x
  change |double x - x| ≤ _ at hrounded
  calc |double x - y| = |(double x - x) + (x - y)| := by ring_nf
    _ ≤ |double x - x| + |x - y| := abs_add_le _ _
    _ < 1 / 2 / 10 ^ 2 := by linarith

theorem abs_double_sub_near {xs ys : List ℚ} (hxs : Moderate xs) (hys : Moderate ys) :
    |double (total (xs.map double) - total (ys.map double)) - (xs.sum - ys.sum)| <
      1 / 2 / 10 ^ 2 := by
  have hx := total_double_near hxs
  have hy := total_double_near hys
  have hX := (abs_sum_le_size xs).trans hxs.size_le
  have hY := (abs_sum_le_size ys).trans hys.size_le
  apply abs_double_sub_lt
  · calc |total (xs.map double) - total (ys.map double) - (xs.sum - ys.sum)|
        = |(total (xs.map double) - xs.sum) - (total (ys.map double) - ys.sum)| := by ring_nf
      _ ≤ |total (xs.map double) - xs.sum| + |total (ys.map double) - ys.sum| := abs_sub _ _
      _ ≤ 1 / 250 := by linarith
  · exact (abs_sub _ _).trans (by linarith)

/-- So is what they come to together. -/
theorem abs_double_add_near {xs ys : List ℚ} (hxs : Moderate xs) (hys : Moderate ys) :
    |double (total (xs.map double) + total (ys.map double)) - (xs.sum + ys.sum)| <
      1 / 2 / 10 ^ 2 := by
  have hx := total_double_near hxs
  have hy := total_double_near hys
  have hX := (abs_sum_le_size xs).trans hxs.size_le
  have hY := (abs_sum_le_size ys).trans hys.size_le
  apply abs_double_sub_lt
  · calc |total (xs.map double) + total (ys.map double) - (xs.sum + ys.sum)|
        = |(total (xs.map double) - xs.sum) + (total (ys.map double) - ys.sum)| := by ring_nf
      _ ≤ |total (xs.map double) - xs.sum| + |total (ys.map double) - ys.sum| := abs_add_le _ _
      _ ≤ 1 / 250 := by linarith
  · exact (abs_add_le _ _).trans (by linarith)

/-- `round(sum(float(x) for x in xs), 2)` of sums in cents is exact. -/
theorem roundTo_total_double {xs : List ℚ} (hgrid : OnGrid 2 xs.sum) (hxs : Moderate xs) :
    roundTo nearestEven 2 (total (xs.map double)) = xs.sum :=
  roundTo_eq_of_near nearestEven_nearest hgrid ((total_double_near hxs).trans_lt (by norm_num))

theorem roundTo_addUp_double {xs : List ℚ} (hgrid : OnGrid 2 xs.sum) (hxs : Moderate xs) :
    roundTo nearestEven 2 (addUp (xs.map double)) = xs.sum :=
  roundTo_eq_of_near nearestEven_nearest hgrid ((addUp_double_near hxs).trans_lt (by norm_num))

end Double

end Rounding
