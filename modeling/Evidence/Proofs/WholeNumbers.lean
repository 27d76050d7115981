import Mathlib
import Evidence.Proofs.Adding
import Evidence.Proofs.Words

namespace Evidence

/-- The numbers that hypotheses can be are read as they were written. -/
class Scalar.Counting (α : Type) [Scalar α] : Prop where
  toNat?_natCast {n : Nat} : n ≤ Hypothesis.greatest → Scalar.toNat? (n : α) = some n

instance : Scalar.Counting ℚ where
  toNat?_natCast _ := toNat?_natCast _

namespace Floating

open Float.Model Float.Model.UnpackedFloat

section Fields

variable (b : BitVec Format.binary64.numBits)

theorem toNat_unpackMantissa : (unpackMantissa b).toNat = b.toNat % 2 ^ 52 := by
  unfold unpackMantissa
  rw [BitVec.toNat_cast, BitVec.extractLsb_toNat]
  rfl

theorem toNat_unpackExponent : (unpackExponent b).toNat = b.toNat / 2 ^ 52 % 2048 := by
  unfold unpackExponent
  rw [BitVec.toNat_cast, BitVec.extractLsb_toNat, Nat.shiftRight_eq_div_pow]
  rfl

theorem toNat_unpackSign : (unpackSign b).toNat = b.toNat / 2 ^ 63 % 2 := by
  unfold unpackSign
  rw [BitVec.toNat_cast, BitVec.extractLsb_toNat, Nat.shiftRight_eq_div_pow]
  rfl

end Fields

theorem ofBits_toBits {x : Float} {m : Nat} {e : Int} {hm : 0 < m}
    (h : unpacked x = .finite .positive m e hm) : Binary64.ofBits x.toBits = .finite false m e := by
  let b : BitVec Format.binary64.numBits := x.toBits.toBitVec
  change UnpackedFloat.unpack Format.binary64 b = _ at h
  have hmantissa := toNat_unpackMantissa b
  have hexponent := toNat_unpackExponent b
  have hsign := toNat_unpackSign b
  have hword : x.toBits.toNat = b.toNat := rfl
  have hlt : b.toNat < 2 ^ 64 := b.isLt
  have hpositive (hs : Sign.ofBitVec (unpackSign b) = .positive) : ¬ 2 ^ 63 ≤ b.toNat := by
    have hzero : unpackSign b = 0#1 := by
      by_contra hne
      cases (if_neg hne).symm.trans hs
    rw [hzero] at hsign
    change 0 = _ at hsign
    omega
  have hlast : unpackExponent b = -1#11 ↔ b.toNat / 2 ^ 52 % 2048 = 2047 := by
    rw [← hexponent, ← BitVec.toNat_inj]
    rfl
  have hfirst : unpackExponent b = 0#11 ↔ b.toNat / 2 ^ 52 % 2048 = 0 := by
    rw [← hexponent, ← BitVec.toNat_inj]
    rfl
  unfold UnpackedFloat.unpack at h
  dsimp only at h
  rw [Binary64.ofBits_eq, hword]
  split_ifs at h with hinf hnan hzero hnull
  · obtain ⟨hs, rfl, rfl⟩ := UnpackedFloat.finite.inj h
    rw [if_neg (mt hlast.2 hinf), if_pos (hfirst.1 hzero), decide_eq_false (hpositive hs), hmantissa,
      hzero]
    rfl
  · obtain ⟨hs, rfl, rfl⟩ := UnpackedFloat.finite.inj h
    have hnormal := mt hfirst.2 hzero
    rw [if_neg (mt hlast.2 hinf), if_neg hnormal, decide_eq_false (hpositive hs), append_one,
      hmantissa, hexponent]
    congr 1
    change _ = (_ : Int) - (1023 + 52)
    omega

theorem log2_mul_two_pow {m : Nat} (hm : 0 < m) (k : Nat) : (m * 2 ^ k).log2 = m.log2 + k := by
  rw [Nat.log2_eq_iff (Nat.mul_pos hm (Nat.two_pow_pos k)).ne', add_right_comm, pow_add, pow_add]
  have hpos := Nat.two_pow_pos k
  exact ⟨Nat.mul_le_mul_right _ (Nat.log2_self_le hm.ne'),
    (Nat.mul_lt_mul_right hpos).2 Nat.lt_log2_self⟩

theorem rounded_mul_two_pow (m k : Nat) : rounded (m * 2 ^ k) k = m := by
  have hpow : ((2 ^ k : Nat) : ℚ) ≠ 0 := by positivity
  have hround := rounded_eq (m * 2 ^ k) k
  rw [Nat.cast_mul, mul_div_cancel_right₀ _ hpow, Binary64.roundEven_natCast] at hround
  exact_mod_cast hround

/-- Nothing is lost where no bits are set beyond a canonical number. -/
theorem exists_round_exact {m : Nat} {d e : Int} {k : Nat} (hm : 0 < m) (h : Canonical m d)
    (hd : d = e + k) : ∃ n c hn,
      roundWithAccuracy Format.binary64 .positive (m * 2 ^ k) e .exact =
        .finite .positive n c hn ∧ Canonical n c ∧ worth n c = worth m d := by
  have htarget : Format.binary64.targetExponent (totalExponent (m * 2 ^ k) e) = e + k := by
    rw [targetExponent_eq, log2_mul_two_pow hm, ← hd]
    have hlog := h.log2_eq hm
    push_cast
    omega
  obtain ⟨n, c, hn, hround, hcanonical, hworth⟩ :=
    exists_round htarget .positive (Nat.le_mul_of_pos_left (2 ^ k) hm)
  rw [rounded_mul_two_pow, ← hd] at hworth
  exact ⟨n, c, hn, hround, hcanonical, hworth⟩

theorem canonical_whole {n k : Nat} (h0 : 0 < n) (hk : n.log2 + k = 52) :
    Canonical (n * 2 ^ k) (-k) := by
  have hpos := Nat.two_pow_pos k
  refine ⟨?_, by omega, .inl ?_⟩
  · calc n * 2 ^ k
        < 2 ^ (n.log2 + 1) * 2 ^ k := (Nat.mul_lt_mul_right hpos).2 Nat.lt_log2_self
      _ = 2 ^ 53 := by rw [← pow_add, add_right_comm, hk]
  · calc 2 ^ 52
        = 2 ^ n.log2 * 2 ^ k := by rw [← pow_add, hk]
      _ ≤ n * 2 ^ k := Nat.mul_le_mul_right _ (Nat.log2_self_le h0.ne')

theorem exists_ofNat {n : Nat} (h0 : 0 < n) (h : n < 2 ^ 53) : ∃ m e hm,
    UnpackedFloat.ofNat Format.binary64 n = .finite .positive m e hm ∧ Canonical m e ∧
      worth m e = n := by
  have hlog : n.log2 < 53 := (Nat.log2_lt h0.ne').2 h
  obtain ⟨k, hk⟩ : ∃ k, n.log2 + k = 52 := ⟨52 - n.log2, by omega⟩
  have hpos : compare (n : Int) 0 = .gt := Int.compare_eq_gt.2 (by omega)
  have htarget : Format.binary64.targetExponent (totalExponent n 0) = -k := by
    rw [targetExponent_eq]
    omega
  have hshift : decreaseExponent n 0 (-k) = (n * 2 ^ k, (-k : Int)) := by
    rw [decreaseExponent, zero_sub, neg_neg, Int.toNat_natCast, Nat.shiftLeft_eq, zero_sub]
  have hunit : (-k : Int) = -k + (0 : Nat) := by rw [Nat.cast_zero, add_zero]
  obtain ⟨m, e, hm, hround, hcanonical, hworth⟩ :=
    exists_round_exact (Nat.mul_pos h0 (Nat.two_pow_pos k)) (canonical_whole h0 hk) hunit
  refine ⟨m, e, hm, ?_, hcanonical, ?_⟩
  · rw [pow_zero, mul_one] at hround
    rw [UnpackedFloat.ofNat, UnpackedFloat.ofInt, UnpackedFloat.normalize, hpos, ← hround]
    change UnpackedFloat.round Format.binary64 .positive n 0 = _
    rw [UnpackedFloat.round, htarget, hshift]
  · rw [hworth, ← worth_add, neg_add_cancel, worth, zpow_zero, mul_one]

theorem exists_mul_one {m : Nat} {e : Int} (hm : 0 < m) (h : Canonical m e) : ∃ n d hn,
    UnpackedFloat.mul Format.binary64 (.finite .positive m e hm)
      (.finite .positive (2 ^ 52) (-52) (by decide)) = .finite .positive n d hn ∧
      Canonical n d ∧ worth n d = worth m e :=
  exists_round_exact hm h (by omega)

theorem toNat?_of_worth {m n : Nat} {e : Int} (hm : 0 < m) (h : worth m e = n) :
    Binary64.toNat? (.finite false m e) = some n := by
  change (if m = 0 then some 0 else if false = true then none
    else if 0 ≤ e then some (m <<< e.toNat)
    else if m % (1 <<< (-e).toNat) = 0 then some (m / (1 <<< (-e).toNat)) else none) = some n
  rw [if_neg hm.ne', if_neg Bool.false_ne_true]
  by_cases he : 0 ≤ e
  · obtain ⟨k, rfl⟩ := Int.eq_ofNat_of_zero_le he
    rw [worth, zpow_natCast] at h
    rw [if_pos he, Int.toNat_natCast, Nat.shiftLeft_eq]
    exact congrArg some (by exact_mod_cast h)
  · obtain ⟨k, rfl⟩ : ∃ k : Nat, e = -k := ⟨(-e).toNat, by omega⟩
    have hscale : m = n * 2 ^ k := by
      rw [worth, zpow_neg, zpow_natCast, ← div_eq_mul_inv, div_eq_iff (by positivity)] at h
      exact_mod_cast h
    have hpos := Nat.two_pow_pos k
    rw [if_neg he, neg_neg, Int.toNat_natCast, Nat.one_shiftLeft, hscale, Nat.mul_mod_left,
      Nat.mul_div_cancel _ hpos, if_pos rfl]

theorem exponent_le_of_worth {m n : Nat} {e : Int} (hcanonical : Canonical m e)
    (h : worth m e = n) (hn : n < 2 ^ 53) : e ≤ 971 := by
  by_contra hgreat
  have htop := hcanonical.top_le (not_le.1 hgreat)
  have hpow : (n : ℚ) < 2 ^ 53 := by exact_mod_cast hn
  have hle : (2 : ℚ) ^ 53 ≤ 2 ^ 1024 := pow_le_pow_right₀ one_le_two (by decide)
  rw [h] at htop
  exact absurd (hpow.trans_le hle) (not_lt.2 htop)

/-- The float of a whole number is rounded twice, as it is converted and then multiplied by one. -/
theorem exists_unpacked_ofNat {n : Nat} (h0 : 0 < n) (h : n < 2 ^ 53) : ∃ m e hm,
    unpacked (Float.ofNat n) = .finite .positive m e hm ∧ worth m e = n := by
  have hproduct : Float.ofNat n = n.toUInt64.toFloat * 1 := by
    change Float.ofScientific n false 0 = _
    rw [Float.ofScientific, dif_pos ⟨h, by decide⟩]
    rfl
  have hword : n.toUInt64.toNat = n := by
    rw [Nat.toUInt64_eq, UInt64.toNat_ofNat', Nat.mod_eq_of_lt (by omega)]
  obtain ⟨m, e, hm, hnat, hcanonical, hworth⟩ := exists_ofNat h0 h
  have hfloat : unpacked n.toUInt64.toFloat = .finite .positive m e hm := by
    change UnpackedFloat.unpack Format.binary64 (UnpackedFloat.pack Format.binary64
      (UnpackedFloat.ofNat Format.binary64 n.toUInt64.toNat)) = _
    rw [hword, hnat]
    exact unpack_pack_finite _ hm hcanonical (exponent_le_of_worth hcanonical hworth h)
  obtain ⟨m', e', hm', hmul, hcanonical', hworth'⟩ := exists_mul_one hm hcanonical
  rw [hworth] at hworth'
  have hunity : unpacked 1 = .finite .positive (2 ^ 52) (-52) (by decide) := rfl
  refine ⟨m', e', hm', ?_, hworth'⟩
  rw [hproduct]
  change UnpackedFloat.unpack Format.binary64 (UnpackedFloat.pack Format.binary64
    (UnpackedFloat.mul Format.binary64 (unpacked n.toUInt64.toFloat) (unpacked 1))) = _
  rw [hfloat, hunity, hmul]
  exact unpack_pack_finite _ hm' hcanonical' (exponent_le_of_worth hcanonical' hworth' h)

/-- Whole numbers that fit into a significand are floats. -/
theorem toNat?_ofNat {n : Nat} (h : n < 2 ^ 53) :
    (Binary64.ofBits (Float.ofNat n).toBits).toNat? = some n := by
  rcases Nat.eq_zero_or_pos n with rfl | h0
  · rfl
  · obtain ⟨m, e, hm, hunpacked, hworth⟩ := exists_unpacked_ofNat h0 h
    rw [ofBits_toBits hunpacked]
    exact toNat?_of_worth hm hworth

end Floating

instance : Scalar.Counting Float where
  toNat?_natCast h := Floating.toNat?_ofNat (Nat.lt_of_le_of_lt h (by decide))

end Evidence
