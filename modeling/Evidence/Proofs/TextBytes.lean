import Mathlib
import Evidence.Text.Units
import Evidence.Text.Utf8

namespace Evidence.Utf8

theorem toNat_ofNat {n : ℕ} (h : n < 256) : (UInt8.ofNat n).toNat = n := by
  rw [UInt8.toNat_ofNat']
  exact Nat.mod_eq_of_lt h

section Lead

variable {b : ℕ}

theorem lead_whole (h : b < 0x80) : lead b = .whole (Char.ofNat b) := if_pos h

theorem lead_pair (h : 0xC2 ≤ b) (h' : b < 0xE0) : lead b = .more ⟨b - 0xC0, 1, 0x80, 0xBF⟩ := by
  unfold lead
  rw [if_neg (by omega), if_neg (by omega), if_pos h']

theorem lead_triple (h : 0xE0 ≤ b) (h' : b < 0xF0) : lead b = .more ⟨b - 0xE0, 2,
    if b = 0xE0 then 0xA0 else 0x80, if b = 0xED then 0x9F else 0xBF⟩ := by
  unfold lead
  rw [if_neg (by omega), if_neg (by omega), if_neg (by omega), if_pos h']

theorem lead_quadruple (h : 0xF0 ≤ b) (h' : b < 0xF5) : lead b = .more ⟨b - 0xF0, 3,
    if b = 0xF0 then 0x90 else 0x80, if b = 0xF4 then 0x8F else 0xBF⟩ := by
  unfold lead
  rw [if_neg (by omega), if_neg (by omega), if_neg (by omega), if_neg (by omega), if_pos h']

end Lead

section Step

variable {b : UInt8} (bytes : List UInt8)

theorem decodeFrom_whole {c : Char} (h : lead b.toNat = .whole c) :
    decodeFrom none (b :: bytes) = c :: decodeFrom none bytes := by
  rw [decodeFrom, h]

theorem decodeFrom_more {p : Pending} (h : lead b.toNat = .more p) :
    decodeFrom none (b :: bytes) = decodeFrom (some p) bytes := by
  rw [decodeFrom, h]

variable {p : Pending} (h : p.low ≤ b.toNat ∧ b.toNat ≤ p.high)
include h

theorem decodeFrom_last (hlast : p.missing ≤ 1) : decodeFrom (some p) (b :: bytes) =
    Char.ofNat (p.bits * 64 + b.toNat % 64) :: decodeFrom none bytes := by
  rw [decodeFrom, if_pos h, if_pos hlast]

theorem decodeFrom_next (hnext : 1 < p.missing) : decodeFrom (some p) (b :: bytes) =
    decodeFrom (some ⟨p.bits * 64 + b.toNat % 64, p.missing - 1, 0x80, 0xBF⟩) bytes := by
  rw [decodeFrom, if_pos h, if_neg (by omega)]

end Step

theorem toNat_tail (n shift : ℕ) :
    (UInt8.ofNat (0x80 + n >>> shift % 64)).toNat = 0x80 + n / 2 ^ shift % 64 := by
  rw [Nat.shiftRight_eq_div_pow]
  exact toNat_ofNat (by omega)

theorem decodeFrom_encodeChar (c : Char) (bytes : List UInt8) :
    decodeFrom none (encodeChar c ++ bytes) = c :: decodeFrom none bytes := by
  have hvalid := Text.toNat_lt_or c
  have hchar {n : ℕ} (h : n = c.toNat) : Char.ofNat n = c := h ▸ Char.ofNat_toNat c
  have h₀ : _ = 0x80 + c.toNat / 1 % 64 := toNat_tail c.toNat 0
  have h₁ : _ = 0x80 + c.toNat / 64 % 64 := toNat_tail c.toNat 6
  have h₂ : _ = 0x80 + c.toNat / 4096 % 64 := toNat_tail c.toNat 12
  unfold encodeChar
  by_cases hone : c.toNat < 0x80
  · simp only [if_pos hone, List.cons_append, List.nil_append]
    have hb : (UInt8.ofNat c.toNat).toNat = c.toNat := toNat_ofNat (by omega)
    rw [decodeFrom_whole bytes (lead_whole (by omega)), hb, Char.ofNat_toNat]
  by_cases htwo : c.toNat < 0x800
  · simp only [if_neg hone, if_pos htwo, List.cons_append, List.nil_append]
    have hb : (UInt8.ofNat (0xC0 + c.toNat / 64)).toNat = 0xC0 + c.toNat / 64 :=
      toNat_ofNat (by omega)
    rw [decodeFrom_more _ (lead_pair (by omega) (by omega)),
      decodeFrom_last _ ⟨by dsimp only; omega, by dsimp only; omega⟩ le_rfl, hb, h₀]
    exact congrArg (· :: _) (hchar (by dsimp only; omega))
  by_cases hthree : c.toNat < 0x10000
  · simp only [if_neg hone, if_neg htwo, if_pos hthree, List.cons_append, List.nil_append]
    have hb : (UInt8.ofNat (0xE0 + c.toNat / 4096)).toNat = 0xE0 + c.toNat / 4096 :=
      toNat_ofNat (by omega)
    rw [decodeFrom_more _ (lead_triple (by omega) (by omega)), decodeFrom_next,
      decodeFrom_last _ ⟨by dsimp only; omega, by dsimp only; omega⟩ le_rfl, hb, h₀, h₁]
    · exact congrArg (· :: _) (hchar (by dsimp only; omega))
    · dsimp only
      constructor <;> split_ifs <;> omega
    · exact Nat.lt_of_sub_eq_succ rfl
  · simp only [if_neg hone, if_neg htwo, if_neg hthree, List.cons_append, List.nil_append]
    have hb : (UInt8.ofNat (0xF0 + c.toNat / 262144)).toNat = 0xF0 + c.toNat / 262144 :=
      toNat_ofNat (by omega)
    rw [decodeFrom_more _ (lead_quadruple (by omega) (by omega)), decodeFrom_next, decodeFrom_next,
      decodeFrom_last _ ⟨by dsimp only; omega, by dsimp only; omega⟩ le_rfl, hb, h₀, h₁, h₂]
    · exact congrArg (· :: _) (hchar (by dsimp only; omega))
    · exact ⟨by dsimp only; omega, by dsimp only; omega⟩
    · exact Nat.lt_of_sub_eq_succ rfl
    · dsimp only
      constructor <;> split_ifs <;> omega
    · exact Nat.lt_of_sub_eq_succ rfl

theorem decodeFrom_encode (cs : List Char) : decodeFrom none (cs.flatMap encodeChar) = cs := by
  induction cs with
  | nil => rfl
  | cons c cs ih => rw [List.flatMap_cons, decodeFrom_encodeChar, ih]

theorem decode_encode (s : String) : decode (encode s) = s := by
  rw [decode, encode, decodeFrom_encode, String.ofList_toList]

end Evidence.Utf8
