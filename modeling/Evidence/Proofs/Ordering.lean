import Mathlib
import Evidence.Proofs.Rounding
import Evidence.Policy

namespace Evidence

class Scalar.Ordered (α : Type) [Scalar α] : Prop extends Scalar.Lawful α where
  le_zero : (0 : α) ≤ 0
  lt_of_lt_of_le {a b c : α} : a < b → b ≤ c → a < c
  not_lt_of_le {a b : α} : a ≤ b → ¬ b < a
  le_of_not_lt {a b : α} : 0 ≤ a → 0 ≤ b → ¬ a < b → b ≤ a
  add_nonneg {a b : α} : 0 ≤ a → 0 ≤ b → 0 ≤ a + b
  mul_nonneg {a b : α} : 0 ≤ a → 0 < b → b ≤ 1 → 0 ≤ a * b
  tenfold {ε : α} : 0 < ε → ε < 0.1 → ε < ((10 : Nat) : α) * ε ∧ ((10 : Nat) : α) * ε < 1
  defaultEpsilon_pos : (0 : α) < defaultEpsilon
  defaultEpsilon_lt : (defaultEpsilon : α) < 0.1
  defaultHardDriftThreshold_pos : (0 : α) < defaultHardDriftThreshold
  defaultHardDriftThreshold_lt : (defaultHardDriftThreshold : α) < 1
  defaultConflictThreshold_pos : (0 : α) < defaultConflictThreshold

instance : Scalar.Ordered ℚ where
  le_zero := le_rfl
  lt_of_lt_of_le := lt_of_lt_of_le
  not_lt_of_le := not_lt_of_ge
  le_of_not_lt _ _ h := not_lt.1 h
  add_nonneg := add_nonneg
  mul_nonneg ha hb _ := mul_nonneg ha hb.le
  tenfold h0 h1 := by
    push_cast
    constructor <;> linarith
  defaultEpsilon_pos := by norm_num [defaultEpsilon_eq]
  defaultEpsilon_lt := by norm_num [defaultEpsilon_eq]
  defaultHardDriftThreshold_pos := by norm_num [defaultHardDriftThreshold_eq]
  defaultHardDriftThreshold_lt := by norm_num [defaultHardDriftThreshold_eq]
  defaultConflictThreshold_pos := by norm_num [defaultConflictThreshold]

namespace Floating

open Float.Model Float.Model.UnpackedFloat

/-- Where a number stands among all: by its class first, which is the greater the farther above zero
it lies, then by its exponent and its significand. -/
def rank : UnpackedFloat → ℤ ×ₗ ℤ ×ₗ ℤ
  | .infinity .negative => toLex (-2, toLex (0, 0))
  | .finite .negative m e _ => toLex (-1, toLex (-e, -m))
  | .finite .positive m e _ => toLex (1, toLex (e, m))
  | .infinity .positive => toLex (2, toLex (0, 0))
  | .zero _ | .notANumber => toLex (0, toLex (0, 0))

theorem lt_iff_rank {u v : UnpackedFloat} (hu : sign? u ≠ none) (hv : sign? v ≠ none) :
    u.lt v = true ↔ rank u < rank v := by
  cases u with
  | notANumber => exact absurd rfl hu
  | infinity s | zero s =>
      cases v with
      | notANumber => exact absurd rfl hv
      | infinity t | zero t => cases s <;> cases t <;> decide
      | finite t n d hn =>
          cases s <;> cases t <;>
            simp [UnpackedFloat.lt, UnpackedFloat.compare, rank, Prod.Lex.toLex_lt_toLex]
  | finite s m e hm =>
      cases v with
      | notANumber => exact absurd rfl hv
      | infinity t | zero t =>
          cases s <;> cases t <;>
            simp [UnpackedFloat.lt, UnpackedFloat.compare, rank, Prod.Lex.toLex_lt_toLex]
      | finite t n d hn =>
          cases s <;> cases t <;>
            simp [UnpackedFloat.lt, UnpackedFloat.compare, rank, Prod.Lex.toLex_lt_toLex,
              Ordering.then_eq_lt, Ordering.then_eq_gt, Int.compare_eq_lt, Int.compare_eq_gt,
              Nat.compare_eq_lt, Nat.compare_eq_gt]

theorem le_iff_rank {u v : UnpackedFloat} (hu : sign? u ≠ none) (hv : sign? v ≠ none) :
    u.le v = true ↔ rank u ≤ rank v := by
  obtain ⟨o, huv, hvu⟩ := compare_swap hu hv
  rw [← not_lt, ← lt_iff_rank hv hu, UnpackedFloat.le, huv, UnpackedFloat.lt, hvu]
  cases o <;> decide

theorem lt_of_lt_of_le {u v w : UnpackedFloat} (huv : u.lt v = true) (hvw : v.le w = true) :
    u.lt w = true := by
  obtain ⟨hu, hv⟩ := sign?_ne_of_le (le_of_lt huv)
  have hw := (sign?_ne_of_le hvw).2
  rw [lt_iff_rank hu hv] at huv
  rw [le_iff_rank hv hw] at hvw
  exact (lt_iff_rank hu hw).2 (huv.trans_le hvw)

theorem le_trans {u v w : UnpackedFloat} (huv : u.le v = true) (hvw : v.le w = true) :
    u.le w = true := by
  obtain ⟨hu, hv⟩ := sign?_ne_of_le huv
  have hw := (sign?_ne_of_le hvw).2
  rw [le_iff_rank hu hv] at huv
  rw [le_iff_rank hv hw] at hvw
  exact (le_iff_rank hu hw).2 (huv.trans hvw)

theorem not_lt_of_le {u v : UnpackedFloat} (h : u.le v = true) : ¬ v.lt u = true := by
  obtain ⟨hu, hv⟩ := sign?_ne_of_le h
  rw [lt_iff_rank hv hu, not_lt]
  exact (le_iff_rank hu hv).1 h

theorem zero_le_of_sign? {u : UnpackedFloat} (h : sign? u = some .positive) :
    (zero .positive).le u = true := by
  cases u with
  | notANumber => cases h
  | infinity s | zero s | finite s m e hm => cases h; rfl

theorem zero_le_add {u v : UnpackedFloat} (hu : (zero .positive).le u = true)
    (hv : (zero .positive).le v = true) :
    (zero .positive).le (UnpackedFloat.add Format.binary64 u v) = true := by
  rcases sign?_of_zero_le hu with hu | rfl
  · exact zero_le_of_sign? (sign?_add _ hu hv)
  · cases v with
    | notANumber => cases hv
    | infinity s | finite s m e hm => exact hv
    | zero s => cases s <;> rfl

theorem zero_le_mul {u : UnpackedFloat} (hu : (zero .positive).le u = true) {m : Nat} {e : Int}
    (hm : 0 < m) : (zero .positive).le
      (UnpackedFloat.mul Format.binary64 u (.finite .positive m e hm)) = true := by
  rcases sign?_of_zero_le hu with hs | rfl
  · cases u with
    | notANumber => cases hs
    | infinity s | zero s => cases hs; rfl
    | finite s n d hn => cases hs; exact zero_le_of_sign? (sign?_roundWithAccuracy ..)
  · rfl

/-- Neither a sum nor a product of numbers that are not below zero turns into one when it is put
into a word, even if it is a negative zero. -/
theorem zero_le_unpack_pack {u : UnpackedFloat} (h : (zero .positive).le u = true) :
    (zero .positive).le (UnpackedFloat.unpack Format.binary64
      (UnpackedFloat.pack Format.binary64 u)) = true := by
  rcases sign?_of_zero_le h with hu | rfl
  · exact zero_le_of_sign? ((sign?_unpack_pack _ u).trans hu)
  · rfl

end Floating

open Floating in
instance : Scalar.Ordered Float where
  le_zero := by decide
  lt_of_lt_of_le {a b c} hab hbc :=
    (lt_iff a c).2 (lt_of_lt_of_le ((lt_iff a b).1 hab) ((le_iff b c).1 hbc))
  not_lt_of_le {a b} h hlt := not_lt_of_le ((le_iff a b).1 h) ((lt_iff b a).1 hlt)
  le_of_not_lt {a b} ha hb h := by
    have ha := (sign?_ne_of_le ((le_iff 0 a).1 ha)).2
    have hb := (sign?_ne_of_le ((le_iff 0 b).1 hb)).2
    rw [lt_iff] at h
    exact (le_iff b a).2 (le_of_not_lt ha hb h)
  add_nonneg {a b} ha hb :=
    (le_iff 0 (a + b)).2 (zero_le_unpack_pack (zero_le_add ((le_iff 0 a).1 ha) ((le_iff 0 b).1 hb)))
  mul_nonneg {a b} ha h0 h1 := by
    rw [le_iff] at h1
    obtain ⟨m, e, hm, hb⟩ := exists_unpacked h0 fun hinf => by rw [hinf] at h1; cases h1
    have hmul := zero_le_unpack_pack (zero_le_mul ((le_iff 0 a).1 ha) (e := e) hm)
    rw [← hb] at hmul
    exact (le_iff 0 (a * b)).2 hmul
  tenfold := tenfold
  defaultEpsilon_pos := by decide
  defaultEpsilon_lt := by decide
  defaultHardDriftThreshold_pos := by decide
  defaultHardDriftThreshold_lt := by decide
  defaultConflictThreshold_pos := by decide

end Evidence
