import Mathlib
import Evidence.Fusion.Tolerances

namespace Evidence

namespace Binary64

def roundEven (x : ℚ) : ℕ :=
  let k := ⌊x⌋₊
  if x - k < 1 / 2 then k else if 1 / 2 < x - k then k + 1 else k + k % 2

def exponentOf (x : ℚ) : ℤ := max (Int.log 2 |x| - 52) (-1074)

def nearest (x : ℚ) : Binary64 :=
  let significand := roundEven (|x| / 2 ^ exponentOf x)
  if 2 ^ 1024 ≤ (significand : ℚ) * 2 ^ exponentOf x then .infinite (x < 0)
  else .finite (x < 0) significand (exponentOf x)

def amount : Binary64 → Quantity ℚ
  | .finite negative significand exponent =>
      .finite ((if negative then -1 else 1) * significand * 2 ^ exponent)
  | .infinite negative => .infinite negative
  | .nan => .nan

end Binary64

instance : Scalar ℚ where
  decidableLE := inferInstance
  decidableLT := inferInstance
  toNat? x := if x.den = 1 ∧ 0 ≤ x.num then some x.num.toNat else none
  bits x := (Binary64.nearest x).toBits
  ofBits word := (Binary64.ofBits word).amount

theorem toNat?_natCast (n : ℕ) : Scalar.toNat? (n : ℚ) = some n := by
  change (if (n : ℚ).den = 1 ∧ 0 ≤ (n : ℚ).num then some (n : ℚ).num.toNat else none) = some n
  simp

theorem eq_natCast_of_toNat? {x : ℚ} {n : ℕ} (h : Scalar.toNat? x = some n) : x = n := by
  change (if x.den = 1 ∧ 0 ≤ x.num then some x.num.toNat else none) = some n at h
  split_ifs at h with hx
  obtain rfl := Option.some.inj h
  have hnum : ((x.num.toNat : ℤ) : ℚ) = x.num := by rw [Int.toNat_of_nonneg hx.2]
  rw [← Int.cast_natCast, hnum, Rat.coe_int_num_of_den_eq_one hx.1]

theorem defaultEpsilon_eq : (defaultEpsilon : ℚ) = 1 / 1000000 := by norm_num [defaultEpsilon]

theorem defaultHardDriftThreshold_eq : (defaultHardDriftThreshold : ℚ) = 1 / 1000 := by
  norm_num [defaultHardDriftThreshold]

theorem distance_eq (a b : ℚ) : distance a b = |a - b| := by
  unfold distance
  split_ifs with h
  · rw [abs_of_neg (by linarith), neg_sub]
  · rw [abs_of_nonneg (by linarith)]

theorem lesser_eq (a b : ℚ) : lesser a b = min a b := by
  unfold lesser
  split_ifs with h
  · rw [min_eq_right h.le]
  · rw [min_eq_left (not_lt.1 h)]

theorem foldl_add_eq (xs : List ℚ) (a : ℚ) : xs.foldl (· + ·) a = a + xs.sum := by
  induction xs generalizing a with
  | nil => simp
  | cons x xs ih => rw [List.foldl_cons, ih, List.sum_cons, add_assoc]

theorem sum_eq (xs : List ℚ) : sum xs = xs.sum := by
  rw [← zero_add xs.sum, ← foldl_add_eq]
  rfl

end Evidence
