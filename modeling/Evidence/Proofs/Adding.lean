import Mathlib
import Evidence.Proofs.Nearest
import Evidence.Proofs.Ordering

namespace Evidence

/-- The addition of numbers that are not below zero, however it is rounded: it keeps their order in
each argument, and no sum is below either of its numbers. -/
class Scalar.Accumulating (α : Type) [Scalar α] : Prop where
  le_zero : (0 : α) ≤ 0
  le_of_lt {a b : α} : a < b → a ≤ b
  le_trans {a b c : α} : a ≤ b → b ≤ c → a ≤ c
  add_le_add_right {a b c : α} : 0 ≤ a → a ≤ b → 0 ≤ c → a + c ≤ b + c
  add_le_add_left {a b c : α} : 0 ≤ a → 0 ≤ b → b ≤ c → a + b ≤ a + c
  le_add_right {a b : α} : 0 ≤ a → 0 ≤ b → a ≤ a + b
  le_add_left {a b : α} : 0 ≤ a → 0 ≤ b → b ≤ a + b

instance : Scalar.Accumulating ℚ where
  le_zero := le_rfl
  le_of_lt := le_of_lt
  le_trans := le_trans
  add_le_add_right _ hab _ := by gcongr
  add_le_add_left _ _ hbc := by gcongr
  le_add_right _ hb := le_add_of_nonneg_right hb
  le_add_left ha _ := le_add_of_nonneg_left ha

namespace Floating

open Float.Model Float.Model.UnpackedFloat

theorem worth_pos {m : Nat} (hm : 0 < m) (e : Int) : 0 < worth m e := by
  unfold worth
  positivity

theorem exponentOf_worth {m : Nat} (hm : 0 < m) (e : Int) :
    Binary64.exponentOf (worth m e) = max (m.log2 + e - 52) (-1074) := by
  rw [Binary64.exponentOf, abs_of_pos (worth_pos hm e), worth, Binary64.log_mul_zpow hm.ne']

/-- A number whose significand is wide enough is rounded to the nearest one. -/
theorem exists_round_nearest {m : Nat} {e : Int} (hm : 0 < m) (hleast : -1074 ≤ e)
    (hfilled : 2 ^ 52 ≤ m ∨ e = -1074) (s : Sign) :
    ∃ n d hn, UnpackedFloat.round Format.binary64 s m e = .finite s n d hn ∧ Canonical n d ∧
      worth n d = Binary64.toNearest (worth m e) := by
  have hlog : 2 ^ 52 ≤ m → 52 ≤ m.log2 := fun h => (Nat.le_log2 hm.ne').2 h
  have hself := Nat.log2_self_le hm.ne'
  obtain ⟨k, hk, hunit⟩ : ∃ k : Nat, max (m.log2 + e - 52) (-1074) = e + k ∧ 2 ^ k ≤ m := by
    by_cases hfull : 2 ^ 52 ≤ m
    · have := hlog hfull
      exact ⟨m.log2 - 52, by omega, (Nat.pow_le_pow_right two_pos (Nat.sub_le _ _)).trans hself⟩
    · have := (Nat.log2_lt hm.ne').2 (not_le.1 hfull)
      exact ⟨0, by omega, hm⟩
  have htarget := (targetExponent_eq m e).trans hk
  have hexponent := (exponentOf_worth hm e).trans hk
  obtain ⟨n, d, hn, hround, hcanonical, hworth⟩ := exists_round htarget s hunit
  refine ⟨n, d, hn, ?_, hcanonical, ?_⟩
  · have hshift : decreaseExponent m e (e + k) = (m, e) := by
      have hnone : (e - (e + k)).toNat = 0 := by omega
      rw [decreaseExponent, hnone, Nat.shiftLeft_zero, Nat.cast_zero, sub_zero]
    rw [UnpackedFloat.round, htarget, hshift]
    exact hround
  · have hquotient : worth m e / 2 ^ (e + k) = m / (2 ^ k : Nat) := by
      rw [worth, zpow_add₀ two_ne_zero, mul_comm (m : ℚ), mul_div_mul_left _ _ (by positivity),
        zpow_natCast, Nat.cast_pow, Nat.cast_two]
    rw [hworth, Binary64.toNearest, hexponent, hquotient, ← rounded_eq, worth]

theorem decreaseExponent_worth (m : Nat) {e d : Int} (h : d ≤ e) :
    worth (decreaseExponent m e d).1 d = worth m e := by
  obtain ⟨k, rfl⟩ := Int.le.dest h
  rw [worth_add, decreaseExponent, Nat.shiftLeft_eq]
  simp

theorem le_decreaseExponent (m : Nat) (e d : Int) : m ≤ (decreaseExponent m e d).1 := by
  rw [decreaseExponent, Nat.shiftLeft_eq]
  exact Nat.le_mul_of_pos_right m (Nat.two_pow_pos _)

/-- The sum of two numbers is the exact one, rounded to the nearest number. -/
theorem exists_add {m n : Nat} {d e : Int} (hm : 0 < m) (hn : 0 < n) (hd : Canonical m d)
    (he : Canonical n e) : ∃ r c hr,
      UnpackedFloat.add Format.binary64 (.finite .positive m d hm) (.finite .positive n e hn) =
        .finite .positive r c hr ∧ Canonical r c ∧
        worth r c = Binary64.toNearest (worth m d + worth n e) := by
  have hm' := decreaseExponent_worth m (min_le_left d e)
  have hn' := decreaseExponent_worth n (min_le_right d e)
  have hmi := le_decreaseExponent m d (min d e)
  have hnj := le_decreaseExponent n e (min d e)
  have hadd : UnpackedFloat.add Format.binary64 (.finite .positive m d hm)
      (.finite .positive n e hn) = normalize Format.binary64
        ((decreaseExponent m d (min d e)).1 + (decreaseExponent n e (min d e)).1 : Int)
        (min d e) .positive := rfl
  generalize (decreaseExponent m d (min d e)).1 = i at *
  generalize (decreaseExponent n e (min d e)).1 = j at *
  have hfilled : 2 ^ 52 ≤ i + j ∨ min d e = -1074 := by
    rcases min_choice d e with hmin | hmin
    · rw [hmin]
      exact hd.filled.imp_left fun h => by omega
    · rw [hmin]
      exact he.filled.imp_left fun h => by omega
  obtain ⟨r, c, hr, hround, hcanonical, hworth⟩ := exists_round_nearest (by omega : 0 < i + j)
    (le_min hd.least he.least) hfilled .positive
  refine ⟨r, c, hr, ?_, hcanonical, ?_⟩
  · have hpos : compare (i + j : Int) 0 = .gt := Int.compare_eq_gt.2 (by omega)
    rw [hadd, UnpackedFloat.normalize, hpos, ← hround]
    rfl
  · rw [hworth, ← hm', ← hn', worth, worth, worth, Nat.cast_add, add_mul]

theorem Canonical.log2_eq {m : Nat} {e : Int} (h : Canonical m e) (hm : 0 < m) :
    max (m.log2 + e - 52) (-1074) = e := by
  have hleast := h.least
  rcases h.filled with hfull | rfl
  · rw [Binary64.log2_of_normal h.below hfull]
    omega
  · have hlog := (Nat.log2_lt hm.ne').2 h.below
    omega

theorem Canonical.toNearest_worth {m : Nat} {e : Int} (h : Canonical m e) (hm : 0 < m) :
    Binary64.toNearest (worth m e) = worth m e := by
  have hscale : (0 : ℚ) < 2 ^ e := zpow_pos two_pos e
  rw [Binary64.toNearest, exponentOf_worth hm, h.log2_eq hm, worth,
    mul_div_cancel_right₀ _ hscale.ne', Binary64.roundEven_natCast]

theorem worth_top : worth (2 ^ 52) 972 = 2 ^ 1024 := by
  rw [← unit_eq]
  exact zpow_natCast 2 1024

theorem top_pos : (0 : ℚ) < 2 ^ 1024 := by positivity

theorem canonical_top : Canonical (2 ^ 52) 972 := ⟨by decide, by decide, .inl le_rfl⟩

theorem toNearest_top : Binary64.toNearest (2 ^ 1024) = 2 ^ 1024 := by
  rw [← worth_top, canonical_top.toNearest_worth (by decide)]

theorem Canonical.lt_top {m : Nat} {e : Int} (h : Canonical m e) (hle : e ≤ 971) :
    worth m e < 2 ^ 1024 := by
  rw [← worth_top]
  exact h.worth_lt canonical_top (.inl (by omega))

theorem Canonical.top_le {m : Nat} {e : Int} (h : Canonical m e) (hlt : 971 < e) :
    2 ^ 1024 ≤ worth m e := by
  rw [← worth_top, ← not_lt]
  intro hless
  rcases h.precedes canonical_top hless with hexp | ⟨rfl, hsig⟩
  · omega
  · have := h.filled
    omega

inductive Plain : UnpackedFloat → Prop
  | zero (s : Sign) : Plain (.zero s)
  | finite {m : Nat} {e : Int} (hm : 0 < m) (h : Canonical m e) (hle : e ≤ 971) :
      Plain (.finite .positive m e hm)
  | infinity : Plain (.infinity .positive)

/-- What a number counts. Infinity counts what the next exponent would begin with. -/
def count : UnpackedFloat → ℚ
  | .infinity _ => 2 ^ 1024
  | .finite _ m e _ => worth m e
  | _ => 0

theorem Plain.le_iff {u v : UnpackedFloat} (hu : Plain u) (hv : Plain v) :
    u.le v = true ↔ count u ≤ count v := by
  cases hu with
  | zero s =>
      cases hv with
      | zero t => exact iff_of_true rfl le_rfl
      | finite hm h hle => exact iff_of_true rfl (worth_pos hm _).le
      | infinity => exact iff_of_true rfl top_pos.le
  | @finite m e hm h hle =>
      cases hv with
      | zero t => exact iff_of_false Bool.false_ne_true (not_le.2 (worth_pos hm _))
      | @finite n d hn h' hle' =>
          have hlt : (UnpackedFloat.finite .positive n d hn).lt (.finite .positive m e hm) = true ↔
              worth n d < worth m e :=
            compare_finite.trans ⟨h'.worth_lt h, h'.precedes h⟩
          refine Iff.trans ⟨not_lt_of_le, le_of_not_lt (Option.some_ne_none _)
            (Option.some_ne_none _)⟩ (hlt.not.trans not_lt)
      | infinity => exact iff_of_true rfl (h.lt_top hle).le
  | infinity =>
      cases hv with
      | zero t => exact iff_of_false Bool.false_ne_true (not_le.2 top_pos)
      | finite hm h hle => exact iff_of_false Bool.false_ne_true (not_le.2 (h.lt_top hle))
      | infinity => exact iff_of_true rfl le_rfl

theorem count_unpack_pack {m : Nat} {e : Int} (hm : 0 < m) (h : Canonical m e) :
    count (UnpackedFloat.unpack Format.binary64
      (UnpackedFloat.pack Format.binary64 (.finite .positive m e hm))) =
        min (worth m e) (2 ^ 1024) := by
  rcases le_or_gt e 971 with hle | hlt
  · rw [unpack_pack_finite _ hm h hle, min_eq_left (h.lt_top hle).le]
    rfl
  · rw [unpack_pack_great _ hm hlt, min_eq_right (h.top_le hlt)]
    rfl

namespace Plain

variable {u v : UnpackedFloat}

theorem count_nonneg (hu : Plain u) : 0 ≤ count u := by
  cases hu with
  | zero s => exact le_rfl
  | finite hm h hle => exact (worth_pos hm _).le
  | infinity => exact top_pos.le

theorem toNearest_count (hu : Plain u) : Binary64.toNearest (count u) = count u := by
  cases hu with
  | zero s => exact Binary64.toNearest_zero
  | finite hm h hle => exact h.toNearest_worth hm
  | infinity => exact toNearest_top

theorem count_le (hu : Plain u) : count u ≤ 2 ^ 1024 := by
  cases hu with
  | zero s => exact top_pos.le
  | finite hm h hle => exact (h.lt_top hle).le
  | infinity => exact le_rfl

theorem unpack_pack (hu : Plain u) :
    UnpackedFloat.unpack Format.binary64 (UnpackedFloat.pack Format.binary64 u) = u := by
  cases hu with
  | zero s => cases s <;> rfl
  | finite hm h hle => exact unpack_pack_finite _ hm h hle
  | infinity => rfl

/-- A sum counts what its numbers count together, rounded to the nearest number that there is. -/
theorem count_add (hu : Plain u) (hv : Plain v) :
    count (UnpackedFloat.unpack Format.binary64 (UnpackedFloat.pack Format.binary64
      (UnpackedFloat.add Format.binary64 u v))) =
        min (Binary64.toNearest (count u + count v)) (2 ^ 1024) := by
  have hself {w : UnpackedFloat} (hw : Plain w) : count (UnpackedFloat.unpack Format.binary64
      (UnpackedFloat.pack Format.binary64 w)) = min (Binary64.toNearest (count w)) (2 ^ 1024) := by
    rw [hw.unpack_pack, hw.toNearest_count, min_eq_left hw.count_le]
  have hinfinite {x : ℚ} (hx : 0 ≤ x) :
      min (Binary64.toNearest (2 ^ 1024 + x)) (2 ^ 1024) = 2 ^ 1024 := by
    have hle : (2 : ℚ) ^ 1024 ≤ 2 ^ 1024 + x := le_add_of_nonneg_right hx
    have hround := Binary64.toNearest_mono top_pos.le hle
    rw [toNearest_top] at hround
    exact min_eq_right hround
  cases hu with
  | zero s =>
      rw [show count (.zero s) = 0 from rfl, zero_add]
      cases hv with
      | zero t => cases s <;> cases t <;> exact hself (.zero _)
      | finite hm h hle => exact hself (.finite hm h hle)
      | infinity => exact hself .infinity
  | @finite m e hm h hle =>
      cases hv with
      | zero t =>
          rw [show count (.zero t) = 0 from rfl, add_zero]
          exact hself (.finite hm h hle)
      | @finite n d hn h' hle' =>
          obtain ⟨r, c, hr, hadd, hcanonical, hworth⟩ := exists_add hm hn h h'
          rw [hadd, count_unpack_pack hr hcanonical, hworth]
          rfl
      | infinity =>
          rw [add_comm]
          exact (congrArg count infinity.unpack_pack).trans (hinfinite (worth_pos hm e).le).symm
  | infinity =>
      have hadd : UnpackedFloat.add Format.binary64 (.infinity .positive) v =
          .infinity .positive := by
        cases hv <;> rfl
      rw [hadd, infinity.unpack_pack]
      exact (hinfinite hv.count_nonneg).symm

end Plain

theorem plain_unpacked {x : Float} (h : 0 ≤ x) : Plain (unpacked x) := by
  rw [Floating.le_iff] at h
  change (UnpackedFloat.zero .positive).le (unpacked x) = true at h
  cases hx : unpacked x with
  | notANumber => rw [hx] at h; cases h
  | zero s => exact .zero s
  | infinity s =>
      cases s with
      | negative => rw [hx] at h; cases h
      | positive => exact .infinity
  | finite s m e hm =>
      cases s with
      | negative => rw [hx] at h; cases h
      | positive => exact .finite hm (canonical_unpack hx) (exponent_le_of_unpack hx)

theorem le_iff_count {x y : Float} (hx : 0 ≤ x) (hy : 0 ≤ y) :
    x ≤ y ↔ count (unpacked x) ≤ count (unpacked y) :=
  (Floating.le_iff x y).trans ((plain_unpacked hx).le_iff (plain_unpacked hy))

theorem count_unpacked_add {x y : Float} (hx : 0 ≤ x) (hy : 0 ≤ y) : count (unpacked (x + y)) =
    min (Binary64.toNearest (count (unpacked x) + count (unpacked y))) (2 ^ 1024) :=
  (plain_unpacked hx).count_add (plain_unpacked hy)

theorem count_le_count_add {x y : Float} (hx : 0 ≤ x) (hy : 0 ≤ y) :
    count (unpacked x) ≤ count (unpacked (x + y)) := by
  have hmore : count (unpacked x) ≤ count (unpacked x) + count (unpacked y) :=
    le_add_of_nonneg_right (plain_unpacked hy).count_nonneg
  have hround := Binary64.toNearest_mono (plain_unpacked hx).count_nonneg hmore
  rw [(plain_unpacked hx).toNearest_count] at hround
  rw [count_unpacked_add hx hy]
  exact le_min hround (plain_unpacked hx).count_le

theorem count_add_le_count_add {x y z : Float} (hx : 0 ≤ x) (hy : 0 ≤ y) (hz : 0 ≤ z)
    (hxy : count (unpacked x) ≤ count (unpacked y)) :
    count (unpacked (x + z)) ≤ count (unpacked (y + z)) := by
  have hnonneg := add_nonneg (plain_unpacked hx).count_nonneg (plain_unpacked hz).count_nonneg
  rw [count_unpacked_add hx hz, count_unpacked_add hy hz]
  exact min_le_min_right _ (Binary64.toNearest_mono hnonneg (add_le_add_left hxy _))

theorem count_unpacked_add_comm {x y : Float} (hx : 0 ≤ x) (hy : 0 ≤ y) :
    count (unpacked (x + y)) = count (unpacked (y + x)) := by
  rw [count_unpacked_add hx hy, count_unpacked_add hy hx, add_comm]

end Floating

open Floating in
instance : Scalar.Accumulating Float where
  le_zero := Scalar.Ordered.le_zero
  le_of_lt := Scalar.Lawful.le_of_lt
  le_trans {a b c} hab hbc :=
    (le_iff a c).2 (le_trans ((le_iff a b).1 hab) ((le_iff b c).1 hbc))
  add_le_add_right {a b c} ha hab hc := by
    have hb : 0 ≤ b := (le_iff 0 b).2 (le_trans ((le_iff 0 a).1 ha) ((le_iff a b).1 hab))
    rw [le_iff_count (Scalar.Ordered.add_nonneg ha hc) (Scalar.Ordered.add_nonneg hb hc)]
    exact count_add_le_count_add ha hb hc ((le_iff_count ha hb).1 hab)
  add_le_add_left {a b c} ha hb hbc := by
    have hc : 0 ≤ c := (le_iff 0 c).2 (le_trans ((le_iff 0 b).1 hb) ((le_iff b c).1 hbc))
    rw [le_iff_count (Scalar.Ordered.add_nonneg ha hb) (Scalar.Ordered.add_nonneg ha hc),
      count_unpacked_add_comm ha hb, count_unpacked_add_comm ha hc]
    exact count_add_le_count_add hb hc ha ((le_iff_count hb hc).1 hbc)
  le_add_right {a b} ha hb := by
    rw [le_iff_count ha (Scalar.Ordered.add_nonneg ha hb)]
    exact count_le_count_add ha hb
  le_add_left {a b} ha hb := by
    rw [le_iff_count hb (Scalar.Ordered.add_nonneg ha hb), count_unpacked_add_comm ha hb]
    exact count_le_count_add hb ha

end Evidence
