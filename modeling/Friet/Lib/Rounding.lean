import Mathlib.Algebra.BigOperators.Group.List.Basic
import Mathlib.Algebra.Order.Archimedean.Basic
import Mathlib.Algebra.Order.Round
import Mathlib.Algebra.Order.Field.Basic
import Mathlib.Tactic.Linarith
import Mathlib.Tactic.Positivity
import Mathlib.Tactic.FieldSimp
import Mathlib.Tactic.Ring
import Mathlib.Tactic.NormNum

/-!
# Rounding to decimal places

`roundTo r n` rounds to `n` decimal places with a nearest-integer function `r`.
What the two modes share is `Nearest r`: the result is at most one half away.
Everything about grids, error bounds and monotonicity follows from that; only
the behaviour on ties is particular to a mode.
-/

set_option autoImplicit false

namespace Rounding

universe u

section Grid
variable {K : Type u} [Field K] {n : ℕ} {x y : K}

def roundTo (r : K → ℤ) (n : ℕ) (x : K) : K := r (x * 10 ^ n) / 10 ^ n

/-- Multiples of `10⁻ⁿ`. -/
def OnGrid (n : ℕ) (x : K) : Prop := ∃ k : ℤ, x = k / 10 ^ n

theorem roundTo_onGrid (r : K → ℤ) (n : ℕ) (x : K) : OnGrid n (roundTo r n x) := ⟨_, rfl⟩

theorem OnGrid.zero : OnGrid n (0 : K) := ⟨0, by simp⟩

theorem OnGrid.natCast [CharZero K] (m : ℕ) : OnGrid n (m : K) := by
  have hn : (10 : K) ^ n ≠ 0 := pow_ne_zero _ (by norm_num)
  exact ⟨m * 10 ^ n, by push_cast; field_simp⟩

theorem OnGrid.add (hx : OnGrid n x) (hy : OnGrid n y) : OnGrid n (x + y) := by
  obtain ⟨k, rfl⟩ := hx
  obtain ⟨l, rfl⟩ := hy
  exact ⟨k + l, by push_cast; ring⟩

theorem OnGrid.neg (hx : OnGrid n x) : OnGrid n (-x) := by
  obtain ⟨k, rfl⟩ := hx
  exact ⟨-k, by push_cast; ring⟩

theorem OnGrid.sub (hx : OnGrid n x) (hy : OnGrid n y) : OnGrid n (x - y) := by
  rw [sub_eq_add_neg]
  exact hx.add hy.neg

theorem OnGrid.sum {xs : List K} (h : ∀ x ∈ xs, OnGrid n x) : OnGrid n xs.sum := by
  induction xs with
  | nil => exact OnGrid.zero
  | cons x xs ih =>
    rw [List.sum_cons]
    exact (h x List.mem_cons_self).add (ih fun y hy => h y (List.mem_cons_of_mem x hy))

theorem OnGrid.abs [LinearOrder K] (hx : OnGrid n x) : OnGrid n |x| := by
  rcases abs_choice x with h | h <;> rw [h]
  · exact hx
  · exact hx.neg

theorem OnGrid.of_le [CharZero K] {m : ℕ} (hx : OnGrid n x) (h : n ≤ m) : OnGrid m x := by
  obtain ⟨k, rfl⟩ := hx
  obtain ⟨d, rfl⟩ := Nat.exists_eq_add_of_le h
  have hn : (10 : K) ^ n ≠ 0 := pow_ne_zero _ (by norm_num)
  have hd : (10 : K) ^ d ≠ 0 := pow_ne_zero _ (by norm_num)
  refine ⟨k * 10 ^ d, ?_⟩
  push_cast
  rw [pow_add]
  field_simp

end Grid

variable {K : Type u} [Field K] [LinearOrder K] [IsStrictOrderedRing K]

theorem pow_ten_pos (n : ℕ) : (0 : K) < 10 ^ n := by positivity

theorem abs_sub_scaled (n : ℕ) (x : K) (k : ℤ) :
    |x * 10 ^ n - k| = |x - k / 10 ^ n| * 10 ^ n := by
  have hpos := pow_ten_pos (K := K) n
  have hsplit : x * 10 ^ n - k = (x - k / 10 ^ n) * 10 ^ n := by field_simp
  rw [hsplit, abs_mul, abs_of_pos hpos]

/-- A positive multiple of `10⁻ⁿ` is at least `10⁻ⁿ`. -/
theorem OnGrid.unit_le {n : ℕ} {x : K} (hx : OnGrid n x) (hpos : 0 < x) : 1 / 10 ^ n ≤ x := by
  obtain ⟨k, rfl⟩ := hx
  have hk : (0 : K) < k := by
    by_contra hc
    exact absurd hpos (not_lt.mpr (div_nonpos_of_nonpos_of_nonneg (not_lt.mp hc) (pow_ten_pos n).le))
  have hk' : (1 : ℤ) ≤ k := by exact_mod_cast hk
  have hk'' : (1 : K) ≤ k := by exact_mod_cast hk'
  gcongr

/-- A nearest-integer function; the choice on ties is left open. -/
def Nearest (r : K → ℤ) : Prop := ∀ x, |x - r x| ≤ 1 / 2

variable [FloorRing K]

def nearestEven (x : K) : ℤ :=
  if x - ⌊x⌋ < 1 / 2 then ⌊x⌋
  else if 1 / 2 < x - ⌊x⌋ then ⌊x⌋ + 1
  else if ⌊x⌋ % 2 = 0 then ⌊x⌋ else ⌊x⌋ + 1

def nearestAway (x : K) : ℤ :=
  if 0 ≤ x then ⌊x + 1 / 2⌋ else -⌊-x + 1 / 2⌋

theorem nearestEven_nearest : Nearest (nearestEven : K → ℤ) := by
  intro x
  have hlo := Int.floor_le x
  have hhi := Int.lt_floor_add_one x
  unfold nearestEven
  split_ifs with h₁ h₂ h₃
  · rw [abs_le]; constructor <;> linarith
  · push_cast; rw [abs_le]; constructor <;> linarith
  · rw [abs_le]; constructor <;> linarith
  · push_cast; rw [abs_le]; constructor <;> linarith

theorem nearestAway_nearest : Nearest (nearestAway : K → ℤ) := by
  intro x
  unfold nearestAway
  split_ifs
  · have hlo := Int.floor_le (x + 1 / 2)
    have hhi := Int.lt_floor_add_one (x + 1 / 2)
    rw [abs_le]; constructor <;> linarith
  · have hlo := Int.floor_le (-x + 1 / 2)
    have hhi := Int.lt_floor_add_one (-x + 1 / 2)
    push_cast; rw [abs_le]; constructor <;> linarith

section Nearest
variable {r : K → ℤ} (hr : Nearest r)
include hr

theorem Nearest.eq_of_near {x : K} {k : ℤ} (h : |x - k| < 1 / 2) : r x = k := by
  obtain ⟨h₁, h₂⟩ := abs_le.mp (hr x)
  obtain ⟨h₃, h₄⟩ := abs_lt.mp h
  have hlt : (r x : K) < k + 1 := by linarith
  have hgt : (k : K) < r x + 1 := by linarith
  have hlt' : r x < k + 1 := by exact_mod_cast hlt
  have hgt' : k < r x + 1 := by exact_mod_cast hgt
  omega

theorem Nearest.mono {x y : K} (h : x ≤ y) : r x ≤ r y := by
  rcases h.eq_or_lt with rfl | hlt
  · exact le_refl _
  · by_contra hc
    have hstep : r y + 1 ≤ r x := by omega
    have hstep' : (r y : K) + 1 ≤ r x := by exact_mod_cast hstep
    have h₁ := (abs_le.mp (hr x)).1
    have h₂ := (abs_le.mp (hr y)).2
    linarith

end Nearest

section RoundTo
variable {r : K → ℤ} (hr : Nearest r) {n : ℕ} {x y g : K}
include hr

omit [FloorRing K] in
theorem abs_sub_roundTo_le (n : ℕ) (x : K) : |x - roundTo r n x| ≤ 1 / 2 / 10 ^ n := by
  have hpos := pow_ten_pos (K := K) n
  have heq : x - roundTo r n x = (x * 10 ^ n - r (x * 10 ^ n)) / 10 ^ n := by
    unfold roundTo
    field_simp
  rw [heq, abs_div, abs_of_pos hpos]
  gcongr
  exact hr _

theorem roundTo_eq_of_near (hg : OnGrid n g) (h : |x - g| < 1 / 2 / 10 ^ n) :
    roundTo r n x = g := by
  obtain ⟨k, rfl⟩ := hg
  have hpos := pow_ten_pos (K := K) n
  have hk : r (x * 10 ^ n) = k := by
    apply hr.eq_of_near
    rw [abs_sub_scaled]
    exact (lt_div_iff₀ hpos).mp h
  rw [roundTo, hk]

theorem roundTo_of_onGrid (hx : OnGrid n x) : roundTo r n x = x :=
  roundTo_eq_of_near hr hx (by simp)

theorem roundTo_mono (h : x ≤ y) : roundTo r n x ≤ roundTo r n y := by
  have hk : r (x * 10 ^ n) ≤ r (y * 10 ^ n) :=
    hr.mono (mul_le_mul_of_nonneg_right h (pow_ten_pos n).le)
  unfold roundTo
  gcongr

theorem sub_half_le_of_le_roundTo (h : g ≤ roundTo r n x) : g - 1 / 2 / 10 ^ n ≤ x := by
  have := (abs_le.mp (abs_sub_roundTo_le hr n x)).1
  linarith

theorem roundTo_pos (h : 1 / 2 / 10 ^ n < x) : 0 < roundTo r n x := by
  have hnear := (abs_le.mp (abs_sub_roundTo_le hr n x)).2
  linarith

theorem eq_of_roundTo_two_pow_mul_eq
    (h : ∀ m : ℕ, roundTo r n (2 ^ m * x) = roundTo r n (2 ^ m * y)) : x = y := by
  by_contra hne
  have hpos : 0 < |x - y| := abs_pos.mpr (sub_ne_zero.mpr hne)
  obtain ⟨m, hm⟩ := pow_unbounded_of_one_lt (1 / 10 ^ n / |x - y|) (one_lt_two (α := K))
  have hfar : 1 / 10 ^ n < |2 ^ m * x - 2 ^ m * y| := by
    rw [← mul_sub, abs_mul, abs_of_pos (pow_pos two_pos m)]
    exact (div_lt_iff₀ hpos).mp hm
  have hx := abs_sub_roundTo_le hr n (2 ^ m * x)
  have hy := abs_sub_roundTo_le hr n (2 ^ m * y)
  rw [h m] at hx
  have hnear : |2 ^ m * x - 2 ^ m * y| ≤ 1 / 10 ^ n :=
    calc |2 ^ m * x - 2 ^ m * y|
        ≤ |2 ^ m * x - roundTo r n (2 ^ m * y)| + |roundTo r n (2 ^ m * y) - 2 ^ m * y| :=
          abs_sub_le _ _ _
      _ ≤ 1 / 2 / 10 ^ n + 1 / 2 / 10 ^ n := add_le_add hx (by rwa [abs_sub_comm])
      _ = 1 / 10 ^ n := by ring
  exact absurd hfar (not_lt.mpr hnear)

/-- A sum and its rounded summands round alike, to the sum itself, if and only if what rounding
does to the summands cancels out. -/
theorem sum_roundTo_iff {xs : List K} :
    (roundTo r n xs.sum = (xs.map (roundTo r n)).sum ∧ roundTo r n xs.sum = xs.sum) ↔
      (xs.map fun x => roundTo r n x - x).sum = 0 := by
  have hsplit : (xs.map (roundTo r n)).sum = (xs.map fun x => roundTo r n x - x).sum + xs.sum :=
    calc (xs.map (roundTo r n)).sum = (xs.map fun x => roundTo r n x - x + x).sum := by
          simp only [sub_add_cancel]
      _ = (xs.map fun x => roundTo r n x - x).sum + xs.sum := by
          rw [List.sum_map_add, List.map_id']
  rw [← add_eq_right, ← hsplit]
  constructor
  · rintro ⟨hrounded, hexact⟩
    exact hrounded.symm.trans hexact
  · intro hsum
    have hgrid : OnGrid n xs.sum := hsum ▸ OnGrid.sum fun y hy => by
      obtain ⟨x, -, rfl⟩ := List.mem_map.mp hy
      exact roundTo_onGrid r n x
    have hexact : roundTo r n xs.sum = xs.sum := roundTo_of_onGrid hr hgrid
    exact ⟨hexact.trans hsum.symm, hexact⟩

end RoundTo

/-- Half a unit itself is a tie with zero, and zero is even. -/
theorem roundTo_nearestEven_nonpos {n : ℕ} {x : K} (h : x ≤ 1 / 2 / 10 ^ n) :
    roundTo nearestEven n x ≤ 0 := by
  have hpos := pow_ten_pos (K := K) n
  have htie : (nearestEven (1 / 2 : K)) = 0 := by
    have hfloor : ⌊(1 / 2 : K)⌋ = 0 := Int.floor_eq_zero_iff.mpr ⟨by norm_num, by norm_num⟩
    rw [nearestEven, hfloor]
    norm_num
  have hscaled : x * 10 ^ n ≤ 1 / 2 := (le_div_iff₀ hpos).mp h
  have hle := nearestEven_nearest.mono hscaled
  rw [htie] at hle
  have hle' : ((nearestEven (x * 10 ^ n) : ℤ) : K) ≤ 0 := by exact_mod_cast hle
  exact div_nonpos_of_nonpos_of_nonneg hle' hpos.le

/-- So is minus one half of a unit. -/
theorem roundTo_nearestEven_nonneg {n : ℕ} {x : K} (h : -(1 / 2 / 10 ^ n) ≤ x) :
    0 ≤ roundTo nearestEven n x := by
  have hpos := pow_ten_pos (K := K) n
  have htie : (nearestEven (-(1 / 2) : K)) = 0 := by
    have hfloor : ⌊(-(1 / 2) : K)⌋ = -1 := Int.floor_eq_iff.mpr ⟨by norm_num, by norm_num⟩
    rw [nearestEven, hfloor]
    norm_num
  have hscaled : -(1 / 2) ≤ x * 10 ^ n := by
    rw [← neg_div] at h
    exact (div_le_iff₀ hpos).mp h
  have hle := nearestEven_nearest.mono hscaled
  rw [htie] at hle
  have hle' : (0 : K) ≤ ((nearestEven (x * 10 ^ n) : ℤ) : K) := by exact_mod_cast hle
  exact div_nonneg hle' hpos.le

theorem roundTo_nearestEven_eq_zero_iff {n : ℕ} {x : K} :
    roundTo nearestEven n x = 0 ↔ |x| ≤ 1 / 2 / 10 ^ n := by
  constructor
  · intro h
    have hnear := abs_sub_roundTo_le nearestEven_nearest n x
    rwa [h, sub_zero] at hnear
  · intro h
    obtain ⟨hlo, hhi⟩ := abs_le.mp h
    exact le_antisymm (roundTo_nearestEven_nonpos hhi) (roundTo_nearestEven_nonneg hlo)

theorem abs_roundTo_lt_unit_iff {n : ℕ} {x : K} :
    |roundTo nearestEven n x| < 1 / 10 ^ n ↔ |x| ≤ 1 / 2 / 10 ^ n := by
  rw [← roundTo_nearestEven_eq_zero_iff]
  constructor
  · intro h
    by_contra hne
    have hunit := (roundTo_onGrid nearestEven n x).abs.unit_le (abs_pos.mpr hne)
    exact absurd h (not_lt.mpr hunit)
  · intro h
    rw [h, abs_zero]
    exact one_div_pos.mpr (pow_ten_pos n)

/-- A tie goes to the even neighbour, whichever side it is on. -/
theorem nearestEven_of_tie {y : K} {k : ℤ} (h : |y - k| = 1 / 2) :
    nearestEven y = k ↔ k % 2 = 0 := by
  rcases (abs_eq (by norm_num)).mp h with hy | hy
  · have hfloor : ⌊y⌋ = k := Int.floor_eq_iff.mpr ⟨by linarith, by linarith⟩
    rw [nearestEven, hfloor, if_neg (by linarith), if_neg (by linarith)]
    split_ifs with heven
    · exact iff_of_true rfl heven
    · exact iff_of_false (by omega) heven
  · have hfloor : ⌊y⌋ = k - 1 := by
      refine Int.floor_eq_iff.mpr ⟨?_, ?_⟩
      · push_cast
        linarith
      · push_cast
        linarith
    have hgap : y - ((k - 1 : ℤ) : K) = 1 / 2 := by
      push_cast
      linarith
    rw [nearestEven, hfloor, hgap, if_neg (lt_irrefl _), if_neg (lt_irrefl _)]
    split_ifs with heven
    · omega
    · omega

theorem onGrid_half_iff {n : ℕ} {k : ℤ} : OnGrid n ((k : K) / 10 ^ n / 2) ↔ k % 2 = 0 := by
  have hpos := pow_ten_pos (K := K) n
  constructor
  · rintro ⟨j, hj⟩
    have hk : (k : K) = 2 * j := by
      field_simp at hj
      linarith
    have hk' : k = 2 * j := by exact_mod_cast hk
    omega
  · intro heven
    refine ⟨k / 2, ?_⟩
    have hk : (k : K) = 2 * ((k / 2 : ℤ) : K) := by
      have hk' : k = 2 * (k / 2) := by omega
      exact_mod_cast hk'
    rw [hk]
    simp [div_right_comm]

/-- Rounding gives a grid point that is less than half a unit away, and one that is half a unit
away if it is even. -/
theorem roundTo_nearestEven_eq_iff {n : ℕ} {x g : K} (hg : OnGrid n g) :
    roundTo nearestEven n x = g ↔
      |x - g| < 1 / 2 / 10 ^ n ∨ |x - g| = 1 / 2 / 10 ^ n ∧ OnGrid n (g / 2) := by
  constructor
  · intro h
    rcases (abs_sub_roundTo_le nearestEven_nearest n x).lt_or_eq with hlt | heq
    · exact Or.inl (h ▸ hlt)
    · rw [h] at heq
      obtain ⟨k, rfl⟩ := hg
      have hpos := pow_ten_pos (K := K) n
      have hscaled : |x * 10 ^ n - k| = 1 / 2 := by
        rw [abs_sub_scaled, heq, div_mul_cancel₀ _ hpos.ne']
      refine Or.inr ⟨heq, onGrid_half_iff.mpr ((nearestEven_of_tie hscaled).mp ?_)⟩
      unfold roundTo at h
      have hcast := (div_left_inj' hpos.ne').mp h
      exact_mod_cast hcast
  · rintro (hlt | ⟨heq, heven⟩)
    · exact roundTo_eq_of_near nearestEven_nearest hg hlt
    · obtain ⟨k, rfl⟩ := hg
      have hpos := pow_ten_pos (K := K) n
      have hscaled : |x * 10 ^ n - k| = 1 / 2 := by
        rw [abs_sub_scaled, heq, div_mul_cancel₀ _ hpos.ne']
      rw [roundTo, (nearestEven_of_tie hscaled).mpr (onGrid_half_iff.mp heven)]

theorem onGrid_iff {n : ℕ} {x : K} : OnGrid n x ↔ roundTo nearestEven n x = x :=
  ⟨roundTo_of_onGrid nearestEven_nearest, fun h => h ▸ roundTo_onGrid _ _ _⟩

instance (n : ℕ) (x : K) : Decidable (OnGrid n x) := decidable_of_iff _ onGrid_iff.symm

end Rounding
