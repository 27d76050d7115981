import Mathlib
import Evidence.Proofs.Rational

namespace Evidence

class Scalar.Lawful (α : Type) [Scalar α] : Prop where
  zero_lt_one : (0 : α) < 1
  one_le_one : (1 : α) ≤ 1
  distance_sum_one : distance (sum [(1 : α)]) 1 = 0
  le_of_lt {a b : α} : a < b → a ≤ b
  pos_of_not_le {a : α} : 0 ≤ a → ¬ a ≤ 0 → 0 < a
  sum_add_nothing {xs : List α} (h : ∀ x ∈ xs, 0 ≤ x) {y : α} : 0 ≤ y → y ≤ 0 → sum xs + y = sum xs
  distance_le {xs : List α} (h : ∀ x ∈ xs, 0 ≤ x) {ε : α} :
    0 < ε → ¬ ε < distance (sum xs) 1 → distance (sum xs) 1 ≤ ε

instance : Scalar.Lawful ℚ where
  zero_lt_one := zero_lt_one
  one_le_one := le_rfl
  distance_sum_one := by rw [distance_eq, sum_eq]; norm_num
  le_of_lt := le_of_lt
  pos_of_not_le _ h := not_le.1 h
  sum_add_nothing _ y h0 h := by rw [le_antisymm h h0, add_zero]
  distance_le _ _ _ h := not_lt.1 h

namespace Floating

open Float.Model Float.Model.UnpackedFloat

def sign? : UnpackedFloat → Option Sign
  | .infinity s | .zero s | .finite s .. => some s
  | .notANumber => none

theorem sign?_unpack_packComponents (spec : Format) (s : Sign) {e : BitVec spec.exponentBits}
    {m : BitVec spec.mantissaBitsWithoutImplicit} (h : e = -1#_ → m = 0#_) :
    sign? (UnpackedFloat.unpack spec (packComponents spec s e m)) = some s := by
  unfold UnpackedFloat.unpack
  simp only [unpackExponent_packComponents, unpackMantissa_packComponents,
    unpackSign_packComponents, Sign.ofBitVec_toBitVec]
  split_ifs with he hm
  · rfl
  · exact absurd (h he) hm
  · rfl
  · rfl
  · rfl

theorem sign?_unpack_pack (spec : Format) (u : UnpackedFloat) :
    sign? (UnpackedFloat.unpack spec (UnpackedFloat.pack spec u)) = sign? u := by
  fun_cases UnpackedFloat.pack spec u with
  | case1 => rw [unpack_packedNaN]
  | case2 s => exact sign?_unpack_packComponents spec s fun _ => rfl
  | case3 s => exact sign?_unpack_packComponents spec s fun _ => rfl
  | case4 s m e hm biased hbig => exact sign?_unpack_packComponents spec s fun _ => rfl
  | case5 s m e hm bits biased hsmall hnormal =>
      apply sign?_unpack_packComponents
      intro he
      have hn := congrArg BitVec.toNat he
      rw [BitVec.neg_one_eq_allOnes, BitVec.toNat_allOnes, BitVec.toNat_ofNat,
        Nat.mod_eq_of_lt (by omega)] at hn
      omega
  | case6 s m e hm bits biased hsmall hnormal =>
      apply sign?_unpack_packComponents
      intro he
      have hpos := spec.he
      rw [BitVec.zero_eq_neg_one_iff] at he
      omega

theorem sign?_roundWithAccuracy (spec : Format) (s : Sign) (m : Nat) (e : Int) (a : Accuracy) :
    sign? (roundWithAccuracy spec s m e a) = some s := by
  simp only [roundWithAccuracy]
  split_ifs <;> rfl

theorem sign?_round (spec : Format) (s : Sign) (m : Nat) (e : Int) :
    sign? (UnpackedFloat.round spec s m e) = some s := sign?_roundWithAccuracy ..

theorem sign?_normalize (spec : Format) (m e : Int) :
    sign? (UnpackedFloat.normalize spec m e .positive) =
      some (if m < 0 then .negative else .positive) := by
  unfold UnpackedFloat.normalize
  split
  · next h => rw [sign?_round, if_pos (Int.compare_eq_lt.1 h)]
  · next h =>
    have hm := Int.compare_eq_eq.1 h
    rw [if_neg (by omega)]
    rfl
  · next h =>
    have hm := Int.compare_eq_gt.1 h
    rw [sign?_round, if_neg (by omega)]

theorem sign?_of_zero_le {v : UnpackedFloat} (h : (zero .positive).le v = true) :
    sign? v = some .positive ∨ v = zero .negative := by
  cases v with
  | notANumber => cases h
  | infinity s | finite s m e hm =>
      cases s with
      | negative => cases h
      | positive => exact .inl rfl
  | zero s =>
      cases s with
      | negative => exact .inr rfl
      | positive => exact .inl rfl

theorem eq_zero_of_le {v : UnpackedFloat} (h0 : (zero .positive).le v = true)
    (h : v.le (zero .positive) = true) : ∃ s, v = zero s := by
  rcases sign?_of_zero_le h0 with hs | rfl
  · cases v with
    | notANumber => cases hs
    | infinity s | finite s m e hm => cases hs; cases h
    | zero s => exact ⟨s, rfl⟩
  · exact ⟨_, rfl⟩

theorem add_zero_of_positive (spec : Format) {u : UnpackedFloat} (hu : sign? u = some .positive)
    (s : Sign) : UnpackedFloat.add spec u (zero s) = u := by
  cases u with
  | notANumber => cases hu
  | infinity t | finite t m e hm => rfl
  | zero t =>
      cases hu
      cases s <;> rfl

/-- Sums of what is not below zero never turn negative, not even to a negative zero. -/
theorem sign?_add (spec : Format) {u v : UnpackedFloat} (hu : sign? u = some .positive)
    (hv : (zero .positive).le v = true) :
    sign? (UnpackedFloat.add spec u v) = some .positive := by
  rcases sign?_of_zero_le hv with hv | rfl
  · cases u with
    | notANumber => cases hu
    | infinity s =>
        cases hu
        cases v <;> cases hv <;> rfl
    | zero s =>
        cases hu
        cases v <;> cases hv <;> rfl
    | finite s m e hm =>
        cases hu
        cases v with
        | notANumber => cases hv
        | infinity t | zero t => cases hv; rfl
        | finite t m' e' hm' =>
            cases hv
            rw [UnpackedFloat.add]
            simp only [Sign.apply, sign?_normalize]
            rw [if_neg (by omega)]
  · rwa [add_zero_of_positive spec hu]

theorem sign?_sub_ne (spec : Format) {u v : UnpackedFloat} (hu : sign? u ≠ none)
    (hv : sign? v ≠ none) (h : ∀ s t, ¬ (u = .infinity s ∧ v = .infinity t)) :
    sign? (UnpackedFloat.sub spec u v) ≠ none := by
  cases u with
  | notANumber => exact absurd rfl hu
  | infinity s =>
      cases v with
      | notANumber => exact absurd rfl hv
      | infinity t => exact absurd ⟨rfl, rfl⟩ (h s t)
      | zero t | finite t m e hm => simp [UnpackedFloat.sub, sign?]
  | zero s =>
      cases v with
      | notANumber => exact absurd rfl hv
      | infinity t | finite t m e hm => simp [UnpackedFloat.sub, sign?]
      | zero t => cases s <;> cases t <;> exact Option.some_ne_none _
  | finite s m e hm =>
      cases v with
      | notANumber => exact absurd rfl hv
      | infinity t | zero t => simp [UnpackedFloat.sub, sign?]
      | finite t m' e' hm' => simp [UnpackedFloat.sub, sign?_normalize]

theorem compare_swap {u v : UnpackedFloat} (hu : sign? u ≠ none) (hv : sign? v ≠ none) :
    ∃ o : Ordering, u.compare v = some o ∧ v.compare u = some o.swap := by
  have hlex (e e' : Int) (m m' : Nat) : (compare e' e).then (compare m' m) =
      ((compare e e').then (compare m m')).swap := by
    rw [Ordering.swap_then, Int.compare_swap, Nat.compare_swap]
  cases u with
  | notANumber => exact absurd rfl hu
  | infinity s =>
      cases v with
      | notANumber => exact absurd rfl hv
      | infinity t => cases s <;> cases t <;> exact ⟨_, rfl, rfl⟩
      | zero t | finite t m e hm => cases s <;> cases t <;> exact ⟨_, rfl, rfl⟩
  | zero s =>
      cases v with
      | notANumber => exact absurd rfl hv
      | infinity t | zero t | finite t m e hm => cases s <;> cases t <;> exact ⟨_, rfl, rfl⟩
  | finite s m e hm =>
      cases v with
      | notANumber => exact absurd rfl hv
      | infinity t | zero t => cases s <;> cases t <;> exact ⟨_, rfl, rfl⟩
      | finite t m' e' hm' =>
          cases s with
          | negative =>
              cases t with
              | negative => exact ⟨_, rfl, congrArg (fun o : Ordering => some o.swap) (hlex e e' m m')⟩
              | positive => exact ⟨_, rfl, rfl⟩
          | positive =>
              cases t with
              | negative => exact ⟨_, rfl, rfl⟩
              | positive => exact ⟨_, rfl, congrArg some (hlex e e' m m')⟩

theorem le_of_not_lt {u v : UnpackedFloat} (hu : sign? u ≠ none) (hv : sign? v ≠ none)
    (h : ¬ u.lt v = true) : v.le u = true := by
  obtain ⟨o, huv, hvu⟩ := compare_swap hu hv
  rw [UnpackedFloat.lt, huv] at h
  rw [UnpackedFloat.le, hvu]
  cases o with
  | lt => exact absurd rfl h
  | eq | gt => rfl

theorem le_of_lt {u v : UnpackedFloat} (h : u.lt v = true) : u.le v = true := by
  rw [UnpackedFloat.lt, beq_iff_eq] at h
  rw [UnpackedFloat.le, h]
  rfl

theorem sign?_ne_of_le {u v : UnpackedFloat} (h : u.le v = true) :
    sign? u ≠ none ∧ sign? v ≠ none := by
  constructor
  · rintro hu
    cases u <;> cases hu
    cases h
  · rintro hv
    cases v <;> cases hv
    cases u with
    | infinity s | finite s m e hm => cases s <;> cases h
    | zero s | notANumber => cases h

abbrev unpacked (x : Float) : UnpackedFloat := x.toModel.unpack

theorem le_iff (x y : Float) : x ≤ y ↔ (unpacked x).le (unpacked y) = true :=
  decide_eq_true_iff

theorem lt_iff (x y : Float) : x < y ↔ (unpacked x).lt (unpacked y) = true :=
  decide_eq_true_iff

theorem sign?_unpacked_add (x y : Float) : sign? (unpacked (x + y)) =
    sign? (UnpackedFloat.add Format.binary64 (unpacked x) (unpacked y)) :=
  sign?_unpack_pack _ _

theorem sign?_unpacked_sub (x y : Float) : sign? (unpacked (x - y)) =
    sign? (UnpackedFloat.sub Format.binary64 (unpacked x) (unpacked y)) :=
  sign?_unpack_pack _ _

theorem sign?_foldl_add {xs : List Float} (h : ∀ x ∈ xs, 0 ≤ x) {a : Float}
    (ha : sign? (unpacked a) = some .positive) :
    sign? (unpacked (xs.foldl (· + ·) a)) = some .positive := by
  induction xs generalizing a with
  | nil => exact ha
  | cons x xs ih =>
      obtain ⟨hx, hxs⟩ := List.forall_mem_cons.1 h
      rw [List.foldl_cons]
      apply ih hxs
      rw [sign?_unpacked_add]
      exact sign?_add _ ha ((le_iff 0 x).1 hx)

theorem sign?_sum {xs : List Float} (h : ∀ x ∈ xs, 0 ≤ x) :
    sign? (unpacked (sum xs)) = some .positive := sign?_foldl_add h rfl

theorem add_of_unpacked_zero {x y : Float} (hx : sign? (unpacked x) = some .positive) {s : Sign}
    (hy : unpacked y = zero s) : x + y = x := by
  have hadd : (x + y).toModel = .pack (unpacked x) := by
    change Float.Model.pack (UnpackedFloat.add Format.binary64 (unpacked x) (unpacked y)) = _
    rw [hy, add_zero_of_positive _ hx]
  apply Float.toBits_inj.1
  change (x + y).toModel.toBits = x.toModel.toBits
  rw [hadd]
  exact UInt64.toBitVec_inj.1 (pack_unpack_of_valid x.toModel.valid)

theorem distance_one_ne {x : Float} (hx : sign? (unpacked x) ≠ none) :
    sign? (unpacked (distance x 1)) ≠ none := by
  have hone : sign? (unpacked 1) ≠ none := Option.some_ne_none _
  have hfinite (s : Sign) : unpacked 1 ≠ .infinity s := UnpackedFloat.noConfusion
  unfold distance
  split_ifs
  · rw [sign?_unpacked_sub]
    exact sign?_sub_ne _ hone hx fun s t h => hfinite s h.1
  · rw [sign?_unpacked_sub]
    exact sign?_sub_ne _ hx hone fun s t h => hfinite t h.2

end Floating

open Floating in
instance : Scalar.Lawful Float where
  zero_lt_one := by decide
  one_le_one := by decide
  distance_sum_one := rfl
  le_of_lt {a b} h := (le_iff a b).2 (le_of_lt ((lt_iff a b).1 h))
  pos_of_not_le {a} h0 h := by
    have ha := (sign?_ne_of_le ((le_iff 0 a).1 h0)).2
    by_contra hlt
    rw [lt_iff] at hlt
    exact h ((le_iff a 0).2 (le_of_not_lt (Option.some_ne_none _) ha hlt))
  sum_add_nothing {xs} h y h0 h1 := by
    obtain ⟨s, hs⟩ := eq_zero_of_le ((le_iff 0 y).1 h0) ((le_iff y 0).1 h1)
    exact add_of_unpacked_zero (sign?_sum h) hs
  distance_le {xs} h ε h0 hlt := by
    have hsum : sign? (unpacked (sum xs)) ≠ none := by
      rw [sign?_sum h]
      exact Option.some_ne_none _
    have hε := (sign?_ne_of_le (le_of_lt ((lt_iff 0 ε).1 h0))).2
    rw [lt_iff] at hlt
    rw [le_iff]
    exact le_of_not_lt hε (distance_one_ne hsum) hlt

end Evidence
