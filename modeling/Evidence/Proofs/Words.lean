import Mathlib
import Evidence.Proofs.Rational

namespace Evidence.Binary64

def Fits (s : ℕ) (e : ℤ) : Prop :=
  s < 2 ^ 53 ∧ -1074 ≤ e ∧ e ≤ 971 ∧ (e = -1074 ∨ 2 ^ 52 ≤ s)

theorem ofBits_eq (w : UInt64) : ofBits w =
    if w.toNat / 2 ^ 52 % 2048 = 2047 then
      if w.toNat % 2 ^ 52 = 0 then .infinite (2 ^ 63 ≤ w.toNat) else .nan
    else if w.toNat / 2 ^ 52 % 2048 = 0 then .finite (2 ^ 63 ≤ w.toNat) (w.toNat % 2 ^ 52) (-1074)
    else .finite (2 ^ 63 ≤ w.toNat) (2 ^ 52 + w.toNat % 2 ^ 52)
      (-1074 + ((w.toNat / 2 ^ 52 % 2048 : ℕ) - 1)) := rfl

theorem fits_of_ofBits {w : UInt64} {negative : Bool} {s : ℕ} {e : ℤ}
    (h : ofBits w = .finite negative s e) : Fits s e := by
  have hfraction : w.toNat % 2 ^ 52 < 2 ^ 52 := Nat.mod_lt _ (by norm_num)
  have hfield : w.toNat / 2 ^ 52 % 2048 < 2048 := Nat.mod_lt _ (by norm_num)
  rw [ofBits_eq] at h
  split_ifs at h with h₁ h₂ h₃
  · obtain ⟨-, rfl, rfl⟩ := Binary64.finite.inj h
    exact ⟨by omega, by omega, by omega, .inl rfl⟩
  · obtain ⟨-, rfl, rfl⟩ := Binary64.finite.inj h
    exact ⟨by omega, by omega, by omega, .inr (by omega)⟩

theorem ofBits_fields (negative : Bool) {field fraction : ℕ} (hfield : field < 2047)
    (hfraction : fraction < 2 ^ 52) :
    ofBits (UInt64.ofNat (signBit negative + field * hiddenBit + fraction)) =
      if field = 0 then .finite negative fraction (-1074)
      else .finite negative (2 ^ 52 + fraction) (-1074 + (field - 1)) := by
  have hsign : signBit negative = if negative then 2 ^ 63 else 0 := rfl
  have hhidden : hiddenBit = 2 ^ 52 := rfl
  have hword : (UInt64.ofNat (signBit negative + field * hiddenBit + fraction)).toNat =
      signBit negative + field * hiddenBit + fraction := by
    rw [UInt64.toNat_ofNat']
    apply Nat.mod_eq_of_lt
    rw [hsign, hhidden]
    split_ifs <;> omega
  have hnegative : decide (2 ^ 63 ≤ signBit negative + field * hiddenBit + fraction) = negative := by
    cases negative <;> simp [hsign, hhidden] <;> omega
  have hlow : (signBit negative + field * hiddenBit + fraction) % 2 ^ 52 = fraction := by
    rw [hsign, hhidden]
    split_ifs <;> omega
  have hhigh : (signBit negative + field * hiddenBit + fraction) / 2 ^ 52 % 2048 = field := by
    rw [hsign, hhidden]
    split_ifs <;> omega
  rw [ofBits_eq, hword, hnegative, hlow, hhigh, if_neg (by omega)]

theorem log2_of_normal {s : ℕ} (h : s < 2 ^ 53) (hn : 2 ^ 52 ≤ s) : s.log2 = 52 := by
  have hs : s ≠ 0 := by omega
  have hlow : 52 ≤ s.log2 := (Nat.le_log2 hs).2 hn
  have hhigh : s.log2 < 53 := (Nat.log2_lt hs).2 h
  omega

theorem toBits_finite (negative : Bool) (s : ℕ) (e : ℤ) : toBits (.finite negative s e) =
    if s = 0 then UInt64.ofNat (signBit negative)
    else if e - ((52 - s.log2 : ℕ) : ℤ) + 1075 ≤ 0 then
      UInt64.ofNat (signBit negative + s <<< (e + 1074).toNat)
    else UInt64.ofNat (signBit negative + (e - ((52 - s.log2 : ℕ) : ℤ) + 1075).toNat * hiddenBit +
      (s <<< (52 - s.log2) - hiddenBit)) := rfl

theorem ofBits_toBits {negative : Bool} {s : ℕ} {e : ℤ} (h : Fits s e) :
    ofBits (toBits (.finite negative s e)) = .finite negative s e := by
  obtain ⟨hs, hlow, hhigh, hnormal⟩ := h
  have hhidden : hiddenBit = 2 ^ 52 := rfl
  rw [toBits_finite]
  by_cases hn : 2 ^ 52 ≤ s
  · have hlog := log2_of_normal hs hn
    rw [if_neg (by omega), if_neg (by omega), hlog, Nat.sub_self, Nat.shiftLeft_zero,
      ofBits_fields _ (by omega) (by omega), if_neg (by omega)]
    have hsig : 2 ^ 52 + (s - hiddenBit) = s := by omega
    have hexp : (-1074 + (((e - ((0 : ℕ) : ℤ) + 1075).toNat : ℤ) - 1)) = e := by omega
    rw [hsig, hexp]
  · obtain rfl : e = -1074 := hnormal.resolve_right hn
    have hword := ofBits_fields negative (by omega : 0 < 2047) (by omega : s < 2 ^ 52)
    rw [if_pos rfl, Nat.zero_mul, Nat.add_zero] at hword
    by_cases hzero : s = 0
    · rw [if_pos hzero]
      rwa [hzero] at hword ⊢
    · have hlog : s.log2 < 52 := (Nat.log2_lt hzero).2 (by omega)
      rw [if_neg hzero, if_pos (by omega)]
      exact hword

theorem ofBits_toBits_ofBits (w : UInt64) : ofBits (toBits (ofBits w)) = ofBits w := by
  cases h : ofBits w with
  | finite negative s e => exact ofBits_toBits (fits_of_ofBits h)
  | infinite negative => cases negative <;> rfl
  | nan => rfl

theorem roundEven_natCast (n : ℕ) : roundEven (n : ℚ) = n := by
  simp [roundEven]

theorem log_mul_zpow {s : ℕ} (hs : s ≠ 0) (e : ℤ) : Int.log 2 (s * 2 ^ e : ℚ) = s.log2 + e := by
  have hscale : (0 : ℚ) < 2 ^ e := zpow_pos two_pos e
  have hpos : (0 : ℚ) < s * 2 ^ e := mul_pos (by exact_mod_cast Nat.pos_of_ne_zero hs) hscale
  have hlow : (2 ^ s.log2 : ℕ) ≤ s := Nat.log2_self_le hs
  have hhigh : s < (2 ^ (s.log2 + 1) : ℕ) := Nat.lt_log2_self
  have hle : (2 : ℚ) ^ (s.log2 + e) ≤ s * 2 ^ e := by
    rw [zpow_add₀ two_ne_zero, zpow_natCast]
    exact mul_le_mul_of_nonneg_right (by exact_mod_cast hlow) hscale.le
  have hlt : s * 2 ^ e < (2 : ℚ) ^ (s.log2 + e + 1) := by
    rw [add_right_comm, zpow_add₀ two_ne_zero]
    refine mul_lt_mul_of_pos_right ?_ hscale
    exact_mod_cast hhigh
  have h₁ := (Int.zpow_le_iff_le_log (by norm_num : 1 < 2) hpos).1 (by exact_mod_cast hle)
  have h₂ := (Int.lt_zpow_iff_log_lt (by norm_num : 1 < 2) hpos).1 (by exact_mod_cast hlt)
  omega

theorem exponentOf_eq {s : ℕ} {e : ℤ} (h : Fits s e) (hs : s ≠ 0) {x : ℚ}
    (hx : |x| = s * 2 ^ e) : exponentOf x = e := by
  obtain ⟨hlt, hlow, hhigh, hnormal⟩ := h
  rw [exponentOf, hx, log_mul_zpow hs]
  by_cases hn : 2 ^ 52 ≤ s
  · rw [log2_of_normal hlt hn]
    omega
  · have hsmall : s.log2 < 52 := (Nat.log2_lt hs).2 (by omega)
    have he := hnormal.resolve_right hn
    omega

theorem nearest_eq (negative : Bool) {s : ℕ} {e : ℤ} (h : Fits s e) (hs : s ≠ 0) :
    nearest ((if negative then -1 else 1) * s * 2 ^ e) = .finite negative s e := by
  have hscale : (0 : ℚ) < 2 ^ e := zpow_pos two_pos e
  have hpos : (0 : ℚ) < s * 2 ^ e := mul_pos (by exact_mod_cast Nat.pos_of_ne_zero hs) hscale
  have hsign : decide ((if negative then -1 else 1) * (s : ℚ) * 2 ^ e < 0) = negative := by
    cases negative with
    | false => simpa using hpos.le
    | true => simpa [neg_mul] using hpos
  have habs : |(if negative then -1 else 1) * (s : ℚ) * 2 ^ e| = s * 2 ^ e := by
    cases negative <;> simp [abs_of_pos hscale]
  have hround : roundEven (s * 2 ^ e / 2 ^ e : ℚ) = s := by
    rw [mul_div_cancel_right₀ _ hscale.ne', roundEven_natCast]
  have hfinite : ¬ (2 : ℚ) ^ 1024 ≤ s * 2 ^ e := by
    rw [not_le]
    calc (s : ℚ) * 2 ^ e < 2 ^ 53 * 2 ^ e :=
          mul_lt_mul_of_pos_right (by exact_mod_cast h.1) hscale
      _ ≤ 2 ^ (53 : ℤ) * 2 ^ (971 : ℤ) := by
          have hle : (2 : ℚ) ^ e ≤ 2 ^ (971 : ℤ) := zpow_le_zpow_right₀ one_le_two h.2.2.1
          exact mul_le_mul_of_nonneg_left hle (by positivity)
      _ = 2 ^ 1024 := by rw [← zpow_add₀ two_ne_zero]; norm_num
  simp only [nearest, habs, exponentOf_eq h hs habs, hround, hsign]
  rw [if_neg hfinite]

def Holds (x : ℚ) : Prop := ∃ w, (ofBits w).amount = .finite x

/-- The word nearest to a number that any word stands for stands for it. -/
theorem Holds.amount_nearest {x : ℚ} (h : Holds x) :
    (ofBits (nearest x).toBits).amount = .finite x := by
  obtain ⟨w, h⟩ := h
  cases hw : ofBits w with
  | infinite negative => rw [hw] at h; cases h
  | nan => rw [hw] at h; cases h
  | finite negative s e =>
      rw [hw] at h
      obtain rfl := Quantity.finite.inj h
      have hfits := fits_of_ofBits hw
      by_cases hs : s = 0
      · subst hs
        have hzero : Fits 0 (-1074) := ⟨by norm_num, by norm_num, by norm_num, .inl rfl⟩
        have hsmall : ¬ (2 : ℚ) ^ 1024 ≤ 0 := not_le.2 (by positivity)
        have hword : (nearest 0).toBits = toBits (.finite false 0 (-1074)) := by
          simp [nearest, roundEven, hsmall, toBits_finite]
        simp only [Nat.cast_zero, mul_zero, zero_mul]
        rw [hword, ofBits_toBits hzero]
        simp [amount]
      · rw [nearest_eq negative hfits hs, ofBits_toBits hfits]
        rfl

theorem Fits.holds {s : ℕ} {e : ℤ} (h : Fits s e) : Holds (s * 2 ^ e) :=
  ⟨toBits (.finite false s e), by rw [ofBits_toBits h]; simp [amount]⟩

theorem holds_natCast {n : ℕ} (h : n < 2 ^ 53) : Holds n := by
  by_cases hn : n = 0
  · exact ⟨0, by subst hn; simp [ofBits_eq, amount]⟩
  have hlog : n.log2 < 53 := (Nat.log2_lt hn).2 h
  have hlow : 2 ^ n.log2 ≤ n := Nat.log2_self_le hn
  have hhigh : n < 2 ^ (n.log2 + 1) := Nat.lt_log2_self
  have hfits : Fits (n * 2 ^ (52 - n.log2)) (n.log2 - 52) := by
    have hsplit : 2 ^ n.log2 * 2 ^ (52 - n.log2) = 2 ^ 52 := by
      rw [← pow_add]
      congr 1
      omega
    refine ⟨?_, by omega, by omega, .inr ?_⟩
    · calc n * 2 ^ (52 - n.log2) < 2 ^ (n.log2 + 1) * 2 ^ (52 - n.log2) :=
            Nat.mul_lt_mul_of_pos_right hhigh (by positivity)
        _ = 2 ^ 53 := by rw [pow_succ, mul_right_comm, hsplit, ← pow_succ]
    · exact hsplit ▸ Nat.mul_le_mul_right _ hlow
  have hcancel : (2 : ℚ) ^ (52 - n.log2) * 2 ^ ((n.log2 : ℤ) - 52) = 1 := by
    rw [← zpow_natCast, ← zpow_add₀ two_ne_zero]
    have hexp : ((52 - n.log2 : ℕ) : ℤ) + ((n.log2 : ℤ) - 52) = 0 := by omega
    rw [hexp, zpow_zero]
  have hholds := hfits.holds
  push_cast at hholds
  rwa [mul_assoc, hcancel, mul_one] at hholds

end Evidence.Binary64
