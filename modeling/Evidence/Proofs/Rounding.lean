import Mathlib
import Evidence.Proofs.Arithmetic
import Evidence.Proofs.Nearest

namespace Evidence.Floating

open Float.Model Float.Model.UnpackedFloat

/-- The one form that a positive number has in binary64: all bits of its significand are used unless
its exponent is the least one. -/
structure Canonical (m : Nat) (e : Int) : Prop where
  below : m < 2 ^ 53
  least : -1074 ≤ e
  filled : 2 ^ 52 ≤ m ∨ e = -1074

def worth (m : Nat) (e : Int) : ℚ := m * 2 ^ e

theorem worth_le_worth {m n : Nat} (h : m ≤ n) (e : Int) : worth m e ≤ worth n e := by
  unfold worth
  gcongr

theorem worth_add (m k : Nat) (e : Int) : worth m (e + k) = worth (m * 2 ^ k) e := by
  rw [worth, worth, zpow_add₀ two_ne_zero, zpow_natCast]
  push_cast
  ring

theorem unit_eq (e : Int) (k : Nat) : (2 : ℚ) ^ (e + k) = worth (2 ^ k) e := by
  rw [worth, zpow_add₀ two_ne_zero, zpow_natCast]
  push_cast
  ring

/-- Canonical numbers are ordered by their exponents first: a significand under a greater exponent
is full, and outweighs any other. -/
theorem Canonical.worth_lt {m n : Nat} {d e : Int} (hm : Canonical m d) (hn : Canonical n e)
    (h : d < e ∨ d = e ∧ m < n) : worth m d < worth n e := by
  have hscale : (0 : ℚ) < 2 ^ d := zpow_pos two_pos d
  rcases h with hlt | ⟨rfl, hlt⟩
  · have hfull : 2 ^ 52 ≤ n := hn.filled.resolve_right (by have := hm.least; omega)
    obtain ⟨k, rfl⟩ := Int.le.dest (Int.add_one_le_iff.2 hlt)
    have hstep : m < n * 2 ^ (k + 1) := calc
      m < 2 ^ 52 * 2 ^ 1 := hm.below
      _ ≤ n * 2 ^ (k + 1) := Nat.mul_le_mul hfull (Nat.pow_le_pow_right two_pos (by omega))
    rw [show d + 1 + (k : Int) = d + (k + 1 : Nat) by push_cast; ring, worth_add]
    exact mul_lt_mul_of_pos_right (by exact_mod_cast hstep) hscale
  · exact mul_lt_mul_of_pos_right (by exact_mod_cast hlt) hscale

theorem Canonical.precedes {m n : Nat} {d e : Int} (hm : Canonical m d) (hn : Canonical n e)
    (h : worth m d < worth n e) : d < e ∨ d = e ∧ m < n := by
  rcases lt_trichotomy d e with hlt | rfl | hgt
  · exact .inl hlt
  · refine .inr ⟨rfl, ?_⟩
    by_contra hle
    exact absurd (worth_le_worth (not_lt.1 hle) d) (not_le.2 h)
  · exact absurd (hn.worth_lt hm (.inl hgt)) h.not_gt

theorem append_one (m : BitVec 52) : (1#1 ++ m).toNat = 2 ^ 52 + m.toNat := by
  rw [BitVec.toNat_append, ← Nat.shiftLeft_add_eq_or_of_lt m.isLt]
  rfl

theorem canonical_unpack {b : BitVec Format.binary64.numBits} {s : Sign} {m : Nat} {e : Int}
    {hm : 0 < m} (h : UnpackedFloat.unpack Format.binary64 b = .finite s m e hm) :
    Canonical m e := by
  have hbits := (unpackMantissa b).isLt
  have hexp (v : BitVec 11) (hv : v ≠ 0#11) : 1 ≤ v.toNat := by
    rw [Nat.one_le_iff_ne_zero]
    exact fun h0 => hv (BitVec.eq_of_toNat_eq h0)
  unfold UnpackedFloat.unpack at h
  dsimp only at h
  split_ifs at h with hinf hnan hzero hnull
  · obtain ⟨rfl, rfl, rfl⟩ := UnpackedFloat.finite.inj h
    rw [hzero]
    exact ⟨hbits.trans (by decide), by decide, .inr rfl⟩
  · obtain ⟨rfl, rfl, rfl⟩ := UnpackedFloat.finite.inj h
    have hpos := hexp _ hzero
    rw [append_one]
    change (unpackMantissa b).toNat < 2 ^ 52 at hbits
    refine ⟨by omega, ?_, .inl (by omega)⟩
    change -1074 ≤ ((unpackExponent b).toNat : Int) - (1023 + 52)
    omega

theorem exponent_le_of_unpack {b : BitVec Format.binary64.numBits} {s : Sign} {m : Nat} {e : Int}
    {hm : 0 < m} (h : UnpackedFloat.unpack Format.binary64 b = .finite s m e hm) : e ≤ 971 := by
  have hexp (v : BitVec 11) (hv : v ≠ -1#11) : v.toNat ≤ 2046 := by
    have hne : v.toNat ≠ 2047 := fun h0 => hv (BitVec.eq_of_toNat_eq h0)
    have := v.isLt
    omega
  unfold UnpackedFloat.unpack at h
  dsimp only at h
  split_ifs at h with hinf hnan hzero hnull
  · obtain ⟨-, -, rfl⟩ := UnpackedFloat.finite.inj h
    rw [hzero]
    decide
  · obtain ⟨-, -, rfl⟩ := UnpackedFloat.finite.inj h
    have := hexp _ hinf
    change ((unpackExponent b).toNat : Int) - (1023 + 52) ≤ 971
    omega

theorem unpack_pack_finite (s : Sign) {m : Nat} {e : Int} (hm : 0 < m) (h : Canonical m e)
    (hle : e ≤ 971) : UnpackedFloat.unpack Format.binary64
      (UnpackedFloat.pack Format.binary64 (.finite s m e hm)) = .finite s m e hm := by
  obtain ⟨hbelow, hleast, hfilled⟩ := h
  obtain ⟨b, rfl⟩ : ∃ b : Nat, e = b - 1075 := ⟨(e + 1075).toNat, by omega⟩
  have hbiased : ((b - 1075 : Int) + Format.binary64.exponentBias +
      Format.binary64.mantissaBitsWithoutImplicit).toNat = b := by
    change ((b : Int) - 1075 + (1023 : Nat) + (52 : Nat)).toNat = b
    omega
  have hb : (BitVec.ofNat 11 b).toNat = b := by
    rw [BitVec.toNat_ofNat, Nat.mod_eq_of_lt (by omega)]
  have hinf : BitVec.ofNat 11 b ≠ -1#11 := by
    intro heq
    have := hb.symm.trans (congrArg BitVec.toNat heq)
    simp only [BitVec.neg_one_eq_allOnes, BitVec.toNat_allOnes] at this
    omega
  have hzero : BitVec.ofNat 11 b ≠ 0#11 := by
    intro heq
    have := hb.symm.trans (congrArg BitVec.toNat heq)
    simp only [BitVec.toNat_zero] at this
    omega
  have hsmall : ¬ 2 ^ Format.binary64.exponentBits ≤ b + 1 := by
    change ¬ 2 ^ 11 ≤ b + 1
    omega
  simp only [UnpackedFloat.pack, hbiased, if_neg hsmall]
  by_cases hfull : 2 ^ 52 ≤ m
  · have hlog : m.log2 + 1 = Format.binary64.mantissaBits := by
      rw [(Nat.log2_eq_iff hm.ne').2 ⟨hfull, hbelow⟩]
      rfl
    have hm' : (1#1 ++ BitVec.ofNat 52 m).toNat = m := by
      rw [append_one, BitVec.toNat_ofNat]
      omega
    rw [if_pos hlog]
    unfold UnpackedFloat.unpack
    simp only [unpackExponent_packComponents, unpackMantissa_packComponents,
      unpackSign_packComponents, Sign.ofBitVec_toBitVec, if_neg hinf, if_neg hzero, hm', hb]
    rfl
  · have hlog : m.log2 + 1 ≠ Format.binary64.mantissaBits := by
      change m.log2 + 1 ≠ 53
      have := (Nat.log2_lt hm.ne').2 (not_le.1 hfull)
      omega
    have hb' : b = 1 := by omega
    have hm' : (BitVec.ofNat 52 m).toNat = m := by
      rw [BitVec.toNat_ofNat, Nat.mod_eq_of_lt (not_le.1 hfull)]
    have hnull : BitVec.ofNat 52 m ≠ 0#52 := by
      intro heq
      have := hm'.symm.trans (congrArg BitVec.toNat heq)
      simp only [BitVec.toNat_zero] at this
      omega
    rw [if_neg hlog]
    unfold UnpackedFloat.unpack
    simp only [unpackExponent_packComponents, unpackMantissa_packComponents,
      unpackSign_packComponents, Sign.ofBitVec_toBitVec, hm', hnull, hb', if_true, dif_neg,
      not_false_eq_true]
    rfl

/-- A number that is too great for any word is put into that of infinity. -/
theorem unpack_pack_great (s : Sign) {m : Nat} {e : Int} (hm : 0 < m) (hlt : 971 < e) :
    UnpackedFloat.unpack Format.binary64
      (UnpackedFloat.pack Format.binary64 (.finite s m e hm)) = .infinity s := by
  have hgreat : 2 ^ Format.binary64.exponentBits ≤ (e + Format.binary64.exponentBias +
      Format.binary64.mantissaBitsWithoutImplicit).toNat + 1 := by
    change 2 ^ 11 ≤ (e + (1023 : Nat) + (52 : Nat)).toNat + 1
    omega
  rw [UnpackedFloat.pack, if_pos hgreat]
  cases s <;> rfl

def rounded (m k : Nat) : Nat := (ExtendedMantissa.mk m false false >>> k).roundedMantissa

/-- Shifting leaves the quotient, the first bit that was shifted away and whether any was set after
it. -/
theorem shift_eq (m k : Nat) : ExtendedMantissa.mk m false false >>> (k + 1) =
    ⟨m / 2 ^ (k + 1), m / 2 ^ k % 2 != 0, m % 2 ^ k != 0⟩ := by
  induction k with
  | zero =>
      rw [pow_zero, pow_one, Nat.mod_one, Nat.div_one]
      rfl
  | succ k ih =>
      change (ExtendedMantissa.mk m false false >>> (k + 1)).shiftRightOne = _
      rw [ih, ExtendedMantissa.shiftRightOne, Nat.div_div_eq_div_mul, ← pow_succ]
      congr 1
      have hpos := Nat.two_pow_pos k
      rw [Nat.mod_pow_succ, Bool.eq_iff_iff, Bool.or_eq_true, bne_iff_ne, bne_iff_ne, bne_iff_ne,
        Ne, Ne, Ne, Nat.add_eq_zero_iff, Nat.mul_eq_zero]
      omega

/-- The bits that were shifted away settle on which side of a half the rest of a quotient lies. -/
theorem rounded_eq (m k : Nat) : rounded m k = Binary64.roundEven (m / (2 ^ k : Nat)) := by
  cases k with
  | zero =>
      rw [pow_zero, Nat.cast_one, div_one, Binary64.roundEven_natCast]
      rfl
  | succ k =>
      have hrest := Nat.mod_pow_succ (x := m) (b := 2) (k := k)
      have hlt := Nat.mod_lt m (Nat.two_pow_pos k)
      have hpow : 2 ^ (k + 1) = 2 * 2 ^ k := pow_succ' 2 k
      rw [Binary64.roundEven_div m (Nat.two_pow_pos _), rounded, shift_eq]
      generalize m / 2 ^ (k + 1) = q
      rcases Nat.mod_two_eq_zero_or_one (m / 2 ^ k) with hbit | hbit
      · rw [hbit, mul_zero, add_zero] at hrest
        rw [hbit, if_pos (by omega)]
        cases m % 2 ^ k != 0 <;> rfl
      · rw [hbit, mul_one] at hrest
        rw [hbit, if_neg (by omega)]
        by_cases hsticky : m % 2 ^ k = 0
        · rw [hsticky, if_neg (by omega)]
          rfl
        · rw [if_pos (by omega), bne_iff_ne.2 hsticky]
          rfl

theorem rounded_bounds (m k : Nat) :
    m / 2 ^ k ≤ rounded m k ∧ 2 * (rounded m k * 2 ^ k) ≤ 2 * m + 2 ^ k := by
  have hsplit := Nat.div_add_mod m (2 ^ k)
  have hparity := Nat.mod_lt (m / 2 ^ k) two_pos
  rw [mul_comm] at hsplit
  have hround := (rounded_eq m k).trans (Binary64.roundEven_div m (Nat.two_pow_pos k))
  split_ifs at hround with hlow hhigh
  · rw [hround]
    omega
  · rw [hround, add_mul]
    omega
  · have hscaled := Nat.mul_le_mul_right (2 ^ k) (Nat.le_of_lt_succ hparity)
    rw [hround, add_mul]
    omega

theorem targetExponent_eq (m : Nat) (e : Int) :
    Format.binary64.targetExponent (totalExponent m e) = max (m.log2 + e - 52) (-1074) := by
  simp only [Format.targetExponent, totalExponent, Format.mantissaBits, Format.minExponent]
  norm_num
  omega

theorem shiftToTargetExponent_eq {m : Nat} {e : Int} {k : Nat}
    (hk : (Format.binary64.targetExponent (totalExponent m e) - e).toNat = k) :
    shiftToTargetExponent Format.binary64 m e .exact =
      (ExtendedMantissa.mk m false false >>> k, e + k) := by
  rw [← hk]
  rfl

section Round

variable {m : Nat} {e : Int} {k : Nat}
  (hk : Format.binary64.targetExponent (totalExponent m e) = e + k)
include hk

theorem rounded_le : rounded m k ≤ 2 ^ 53 := by
  rw [targetExponent_eq] at hk
  have hm : m < 2 ^ 53 * 2 ^ k := calc
    m < 2 ^ (m.log2 + 1) := Nat.lt_log2_self
    _ ≤ 2 ^ (53 + k) := Nat.pow_le_pow_right two_pos (by omega)
    _ = 2 ^ 53 * 2 ^ k := pow_add ..
  by_contra hgt
  have hscaled := Nat.mul_le_mul_right (2 ^ k) (not_le.1 hgt)
  have hbound := (rounded_bounds m k).2
  rw [Nat.succ_eq_add_one, add_mul] at hscaled
  omega

theorem rounded_filled (hm : m ≠ 0) : 2 ^ 52 ≤ rounded m k ∨ e + k = -1074 := by
  rw [targetExponent_eq] at hk
  refine or_iff_not_imp_right.2 fun hleast => le_trans ?_ (rounded_bounds m k).1
  rw [Nat.le_div_iff_mul_le (Nat.two_pow_pos k), ← pow_add]
  exact (Nat.pow_le_pow_right two_pos (by omega)).trans (Nat.log2_self_le hm)

/-- A number that is not too small for its unit is rounded to a canonical one. Where rounding fills
a bit more than there is, the exponent grows instead. -/
theorem exists_round (s : Sign) (hunit : 2 ^ k ≤ m) :
    ∃ n d hn, roundWithAccuracy Format.binary64 s m e .exact = .finite s n d hn ∧
      Canonical n d ∧ worth n d = worth (rounded m k) (e + k) := by
  have hm : m ≠ 0 := by have := Nat.two_pow_pos k; omega
  have hleast : -1074 ≤ e + k := hk ▸ (targetExponent_eq m e).symm ▸ le_max_right _ _
  have hpos : 0 < rounded m k :=
    ((Nat.one_le_div_iff (Nat.two_pow_pos k)).2 hunit).trans (rounded_bounds m k).1
  have hfirst := shiftToTargetExponent_eq (m := m) (e := e) (k := k) (by omega)
  have hround {em : ExtendedMantissa} {d : Int} (hn : 0 < em.mantissa)
      (hsecond : shiftToTargetExponent Format.binary64 (rounded m k) (e + k) .exact = (em, d)) :
      roundWithAccuracy Format.binary64 s m e .exact = .finite s em.mantissa d hn := by
    unfold rounded at hsecond
    simp only [roundWithAccuracy, hfirst, hsecond]
    exact dif_neg hn.ne'
  rcases (rounded_le hk).lt_or_eq with hlt | heq
  · have hlog := (Nat.log2_lt hpos.ne').2 hlt
    have hsecond := shiftToTargetExponent_eq (m := rounded m k) (e := e + k) (k := 0)
      (by rw [targetExponent_eq]; omega)
    refine ⟨rounded m k, e + k + (0 : Nat), hpos, hround hpos hsecond, ?_, ?_⟩
    · rw [Nat.cast_zero, add_zero]
      exact ⟨hlt, hleast, rounded_filled hk hm⟩
    · rw [Nat.cast_zero, add_zero]
  · have hsecond := shiftToTargetExponent_eq (m := rounded m k) (e := e + k) (k := 1)
      (by rw [heq, targetExponent_eq, Nat.log2_two_pow]; omega)
    have hhalf : (ExtendedMantissa.mk (rounded m k) false false >>> 1).mantissa = 2 ^ 52 := by
      rw [shift_eq, heq]
      rfl
    refine ⟨_, _, by rw [hhalf]; decide, hround _ hsecond, ?_, ?_⟩
    · rw [hhalf]
      exact ⟨by decide, by omega, .inl le_rfl⟩
    · rw [hhalf, heq, worth_add]
      rfl

end Round

/-- Rounding takes off less than a unit and adds at most half a unit. -/
theorem worth_rounded (m : Nat) (e : Int) (k : Nat) :
    worth m e < worth (rounded m k) (e + k) + 2 ^ (e + k) ∧
      2 * worth (rounded m k) (e + k) ≤ 2 * worth m e + 2 ^ (e + k) := by
  obtain ⟨hlow, hhigh⟩ := rounded_bounds m k
  have hpos : (0 : ℚ) < 2 ^ e := by positivity
  have hdiv := Nat.lt_div_mul_add (a := m) (Nat.two_pow_pos k)
  have hlow' : m < (rounded m k + 1) * 2 ^ k := calc
    m < m / 2 ^ k * 2 ^ k + 2 ^ k := hdiv
    _ = (m / 2 ^ k + 1) * 2 ^ k := by ring
    _ ≤ (rounded m k + 1) * 2 ^ k := Nat.mul_le_mul_right _ (Nat.succ_le_succ hlow)
  rw [worth_add, unit_eq]
  unfold worth
  constructor
  · rw [← add_mul]
    refine mul_lt_mul_of_pos_right ?_ hpos
    rw [add_mul, one_mul] at hlow'
    exact_mod_cast hlow'
  · rw [← mul_assoc, ← mul_assoc, ← add_mul]
    refine mul_le_mul_of_nonneg_right ?_ hpos.le
    exact_mod_cast hhigh

theorem compare_finite {m n : Nat} {d e : Int} {hm : 0 < m} {hn : 0 < n} :
    (UnpackedFloat.finite .positive m d hm).lt (.finite .positive n e hn) = true ↔
      d < e ∨ d = e ∧ m < n := by
  rw [UnpackedFloat.lt, beq_iff_eq]
  change some ((compare d e).then (compare m n)) = some .lt ↔ _
  rw [Option.some_inj, Ordering.then_eq_lt, Int.compare_eq_lt, Int.compare_eq_eq,
    Nat.compare_eq_lt]

theorem exists_unpacked {x : Float} (h0 : 0 < x) (hinf : unpacked x ≠ .infinity .positive) :
    ∃ m e hm, unpacked x = .finite .positive m e hm := by
  rw [lt_iff] at h0
  change (UnpackedFloat.zero .positive).lt (unpacked x) = true at h0
  cases hx : unpacked x with
  | notANumber | zero s => rw [hx] at h0; cases h0
  | infinity s =>
      rw [hx] at h0
      cases s with
      | negative => cases h0
      | positive => exact absurd hx hinf
  | finite s m e hm =>
      rw [hx] at h0
      cases s with
      | negative => cases h0
      | positive => exact ⟨m, e, hm, rfl⟩

/-- A number that a tolerance can be. It precedes the word of a tenth, whose exponent is -56. -/
theorem exists_unpacked_tolerance {x : Float} (h0 : 0 < x) (h1 : x < 0.1) :
    ∃ m e hm, unpacked x = .finite .positive m e hm ∧ Canonical m e ∧
      (e < -56 ∨ e = -56 ∧ m < 7205759403792794) := by
  have htenth : unpacked 0.1 = .finite .positive 7205759403792794 (-56) (by decide) := rfl
  rw [lt_iff, htenth] at h1
  obtain ⟨m, e, hm, hx⟩ := exists_unpacked h0 fun hinf => by rw [hinf] at h1; cases h1
  rw [hx, compare_finite] at h1
  exact ⟨m, e, hm, hx, canonical_unpack hx, h1⟩

def ten : Nat := 10 * 2 ^ 49

theorem worth_shift (m c : Nat) (e : Int) : worth (c * 2 ^ 49 * m) (-49 + e) = c * worth m e := by
  have hshift : worth m e = worth (m * 2 ^ 49) (-49 + e) := by
    rw [← worth_add]
    congr 1
    omega
  rw [hshift, worth, worth]
  push_cast
  ring

theorem worth_tenfold (m : Nat) (e : Int) : worth (ten * m) (-49 + e) = 10 * worth m e :=
  worth_shift m 10 e

theorem exists_unit_tenfold {m : Nat} {e : Int} (hm : 0 < m) (h : Canonical m e) :
    ∃ k : Nat,
      Format.binary64.targetExponent (totalExponent (ten * m) (-49 + e)) = -49 + e + k ∧
      2 ^ k ≤ 9 * 2 ^ 49 * m ∧ (worth (ten * m) (-49 + e) < 1 → -49 + e + k ≤ -53) := by
  have hpos : ten * m ≠ 0 := (Nat.mul_pos (by decide) hm).ne'
  have hlog : 52 ≤ (ten * m).log2 := by
    rw [Nat.le_log2 hpos, ten]
    omega
  have hself := Nat.log2_self_le hpos
  -- the second unit is the one of subnormal numbers, whose tenfold is exact
  refine ⟨((ten * m).log2 - 52) ⊔ (-1025 - e).toNat, ?_, ?_, ?_⟩
  · rw [targetExponent_eq]
    omega
  · rcases max_choice ((ten * m).log2 - 52) (-1025 - e).toNat with hk | hk
    · rw [hk]
      have hscaled : 2 ^ ((ten * m).log2 - 52) * 2 ^ 52 ≤ ten * m := by
        rwa [← pow_add, Nat.sub_add_cancel hlog]
      rw [ten] at hscaled ⊢
      omega
    · have hsmall : (2 : Nat) ^ (-1025 - e).toNat ≤ 2 ^ 49 :=
        Nat.pow_le_pow_right two_pos (by have := h.least; omega)
      rw [hk]
      omega
  · intro hlt
    have hpow : (2 : ℚ) ^ (-49 + e + (ten * m).log2) < 2 ^ (0 : Int) := calc
      (2 : ℚ) ^ (-49 + e + (ten * m).log2) = worth (2 ^ (ten * m).log2) (-49 + e) := unit_eq ..
      _ ≤ worth (ten * m) (-49 + e) := worth_le_worth hself _
      _ < 1 := hlt
    have hexp := (zpow_lt_zpow_iff_right₀ one_lt_two).1 hpow
    omega

theorem worth_tolerance {m : Nat} {e : Int} (h : Canonical m e)
    (hlt : e < -56 ∨ e = -56 ∧ m < 7205759403792794) :
    10 * worth m e ≤ 1 - 6 / 2 ^ 56 := by
  rcases hlt with hlt | ⟨rfl, hlt⟩
  · have hm : (m : ℚ) ≤ 2 ^ 53 := by exact_mod_cast h.below.le
    have hexp : (2 : ℚ) ^ e ≤ 2 ^ (-57 : Int) := zpow_le_zpow_right₀ one_le_two (by omega)
    have hworth : worth m e ≤ 2 ^ 53 * 2 ^ (-57 : Int) := by
      unfold worth
      gcongr
    norm_num at hworth ⊢
    linarith
  · have hm : (m : ℚ) ≤ 7205759403792793 := by exact_mod_cast Nat.le_of_lt_succ hlt
    unfold worth
    norm_num
    linarith

/-- The tenfold of a tolerance lies above it and below one, however it is rounded. -/
theorem tenfold {x : Float} (h0 : 0 < x) (h1 : x < 0.1) :
    x < ((10 : Nat) : Float) * x ∧ ((10 : Nat) : Float) * x < 1 := by
  obtain ⟨m, e, hm, hx, hcanonical, hlt⟩ := exists_unpacked_tolerance h0 h1
  obtain ⟨k, hk, hunit, hleast⟩ := exists_unit_tenfold hm hcanonical
  have hbound := worth_tolerance hcanonical hlt
  obtain ⟨n, d, hn, hround, hcanon, hworth⟩ := exists_round hk .positive (by rw [ten]; omega)
  obtain ⟨hlow, hhigh⟩ := worth_rounded (ten * m) (-49 + e) k
  rw [← hworth, worth_tenfold] at hlow hhigh
  have hsmall : worth n d < worth (2 ^ 52) (-52) := by
    have hexp : (2 : ℚ) ^ (-49 + e + k) ≤ 2 ^ (-53 : Int) :=
      zpow_le_zpow_right₀ one_le_two (hleast (by rw [worth_tenfold]; linarith))
    have hunity : worth (2 ^ 52) (-52) = 1 := by norm_num [worth]
    rw [hunity]
    norm_num at hexp hbound
    linarith
  have hgreat : worth m e < worth n d := by
    have hloss := worth_le_worth hunit (-49 + e)
    rw [← unit_eq, worth_shift] at hloss
    push_cast at hloss
    linarith
  have hone : Canonical (2 ^ 52) (-52) := ⟨by decide, by decide, .inl le_rfl⟩
  have hupper := hcanon.precedes hone hsmall
  have hten : unpacked ((10 : Nat) : Float) = .finite .positive ten (-49) (by decide) := rfl
  have hproduct : unpacked (((10 : Nat) : Float) * x) = .finite .positive n d hn := by
    change UnpackedFloat.unpack Format.binary64 (UnpackedFloat.pack Format.binary64
      (UnpackedFloat.mul Format.binary64 (unpacked ((10 : Nat) : Float)) (unpacked x))) = _
    rw [hten, hx]
    change UnpackedFloat.unpack Format.binary64 (UnpackedFloat.pack Format.binary64
      (roundWithAccuracy Format.binary64 .positive (ten * m) (-49 + e) .exact)) = _
    rw [hround, unpack_pack_finite _ hn hcanon (by omega)]
  have hunity : unpacked 1 = .finite .positive (2 ^ 52) (-52) (by decide) := rfl
  rw [lt_iff, lt_iff, hproduct, hx, hunity]
  exact ⟨compare_finite.2 (hcanonical.precedes hcanon hgreat), compare_finite.2 hupper⟩

end Evidence.Floating
