import Mathlib
import Evidence.Proofs.Words

namespace Evidence.Binary64

theorem roundEven_bounds {x : ℚ} (hx : 0 ≤ x) :
    2 * roundEven x ≤ 2 * x + 1 ∧ 2 * x ≤ 2 * roundEven x + 1 := by
  have hfloor : (⌊x⌋₊ : ℚ) ≤ x := Nat.floor_le hx
  have hceil : x < ⌊x⌋₊ + 1 := Nat.lt_floor_add_one x
  simp only [roundEven]
  split_ifs with hlow hhigh
  · constructor <;> linarith
  · push_cast
    constructor <;> linarith
  · -- a half, which goes to one of the two neighbours
    have hhalf : x - ⌊x⌋₊ = 1 / 2 := le_antisymm (not_lt.1 hhigh) (not_lt.1 hlow)
    have hparity : ((⌊x⌋₊ % 2 : ℕ) : ℚ) ≤ 1 := by
      exact_mod_cast Nat.le_of_lt_succ (Nat.mod_lt _ two_pos)
    have hnonneg : (0 : ℚ) ≤ ((⌊x⌋₊ % 2 : ℕ) : ℚ) := Nat.cast_nonneg _
    rw [Nat.cast_add]
    constructor <;> linarith

theorem roundEven_mono {x y : ℚ} (hx : 0 ≤ x) (hxy : x ≤ y) : roundEven x ≤ roundEven y := by
  rcases hxy.eq_or_lt with rfl | hlt
  · exact le_rfl
  · by_contra hgt
    have hstep : (roundEven y + 1 : ℚ) ≤ roundEven x := by exact_mod_cast not_le.1 hgt
    have hlow := (roundEven_bounds hx).1
    have hhigh := (roundEven_bounds (hx.trans hxy)).2
    linarith

theorem roundEven_div (m : ℕ) {d : ℕ} (hd : 0 < d) : roundEven (m / d) =
    if 2 * (m % d) < d then m / d else if d < 2 * (m % d) then m / d + 1
    else m / d + m / d % 2 := by
  have hpos : (0 : ℚ) < d := by exact_mod_cast hd
  have hsplit : (m : ℚ) / d - (m / d : ℕ) = (m % d : ℕ) / d := by
    rw [div_sub' hpos.ne', div_left_inj' hpos.ne', sub_eq_iff_eq_add']
    exact_mod_cast (Nat.div_add_mod m d).symm
  have hlow : (m % d : ℕ) / (d : ℚ) < 1 / 2 ↔ 2 * (m % d) < d := by
    rw [div_lt_div_iff₀ hpos two_pos, one_mul, mul_comm]
    exact_mod_cast Iff.rfl
  have hhigh : 1 / 2 < (m % d : ℕ) / (d : ℚ) ↔ d < 2 * (m % d) := by
    rw [div_lt_div_iff₀ two_pos hpos, one_mul, mul_comm]
    exact_mod_cast Iff.rfl
  simp only [roundEven, Nat.floor_div_eq_div, hsplit, hlow, hhigh]

/-- The multiple of the unit around a number that is nearest to it, where binary64 had exponents
without end. -/
def toNearest (x : ℚ) : ℚ := roundEven (x / 2 ^ exponentOf x) * 2 ^ exponentOf x

theorem toNearest_nonneg (x : ℚ) : 0 ≤ toNearest x := by
  unfold toNearest
  positivity

theorem toNearest_zero : toNearest 0 = 0 := by
  simp [toNearest, roundEven]

section Round

variable {x : ℚ} (hx : 0 < x)
include hx

theorem lt_of_exponentOf : x < 2 ^ (53 + exponentOf x) := by
  have hlog := Int.lt_zpow_succ_log_self one_lt_two x
  rw [exponentOf, abs_of_pos hx]
  refine lt_of_lt_of_le (by exact_mod_cast hlog) (zpow_le_zpow_right₀ one_le_two ?_)
  omega

theorem toNearest_le : toNearest x ≤ 2 ^ (53 + exponentOf x) := by
  have hscale : (0 : ℚ) < 2 ^ exponentOf x := zpow_pos two_pos _
  have hbelow : x / 2 ^ exponentOf x ≤ (2 ^ 53 : ℕ) := by
    rw [div_le_iff₀ hscale]
    have hlt := lt_of_exponentOf hx
    rw [zpow_add₀ two_ne_zero] at hlt
    exact_mod_cast hlt.le
  have hround := roundEven_mono (div_nonneg hx.le hscale.le) hbelow
  rw [roundEven_natCast] at hround
  rw [toNearest, zpow_add₀ two_ne_zero]
  exact mul_le_mul_of_nonneg_right (by exact_mod_cast hround) hscale.le

theorem le_toNearest (hleast : -1074 < exponentOf x) : 2 ^ (52 + exponentOf x) ≤ toNearest x := by
  have hscale : (0 : ℚ) < 2 ^ exponentOf x := zpow_pos two_pos _
  have hexp : 52 + exponentOf x = Int.log 2 x := by
    rw [exponentOf, abs_of_pos hx] at hleast ⊢
    omega
  have habove : (2 ^ 52 : ℕ) ≤ x / 2 ^ exponentOf x := by
    rw [le_div_iff₀ hscale]
    have hle : ((2 : ℕ) : ℚ) ^ Int.log 2 x ≤ x := Int.zpow_log_le_self one_lt_two hx
    rw [← hexp, zpow_add₀ (by norm_num)] at hle
    exact_mod_cast hle
  have hround := roundEven_mono (Nat.cast_nonneg _) habove
  rw [roundEven_natCast] at hround
  rw [toNearest, zpow_add₀ two_ne_zero]
  exact mul_le_mul_of_nonneg_right (by exact_mod_cast hround) hscale.le

theorem exponentOf_mono {y : ℚ} (hxy : x ≤ y) : exponentOf x ≤ exponentOf y := by
  have hlog := Int.log_mono_right (b := 2) hx hxy
  rw [exponentOf, exponentOf, abs_of_pos hx, abs_of_pos (hx.trans_le hxy)]
  omega

end Round

/-- Rounding keeps the order, also where the unit changes. -/
theorem toNearest_mono {x y : ℚ} (hx : 0 ≤ x) (hxy : x ≤ y) : toNearest x ≤ toNearest y := by
  rcases hx.eq_or_lt with rfl | hpos
  · rw [toNearest_zero]
    exact toNearest_nonneg y
  rcases (exponentOf_mono hpos hxy).eq_or_lt with heq | hlt
  · have hscale : (0 : ℚ) < 2 ^ exponentOf y := zpow_pos two_pos _
    rw [toNearest, toNearest, heq]
    refine mul_le_mul_of_nonneg_right ?_ hscale.le
    have hquotients := (div_le_div_iff_of_pos_right hscale).2 hxy
    exact_mod_cast roundEven_mono (div_nonneg hx hscale.le) hquotients
  · have hleast : -1074 ≤ exponentOf x := le_max_right _ _
    calc toNearest x ≤ 2 ^ (53 + exponentOf x) := toNearest_le hpos
      _ ≤ 2 ^ (52 + exponentOf y) := zpow_le_zpow_right₀ one_le_two (by omega)
      _ ≤ toNearest y := le_toNearest (hpos.trans_le hxy) (by omega)

end Evidence.Binary64
