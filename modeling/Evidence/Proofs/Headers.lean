import Mathlib
import Evidence.Cbor.Encoding
import Evidence.Cbor.Value
import Evidence.Proofs.TextBytes
import Evidence.Proofs.Words
import Evidence.Proofs.Yielding

namespace Evidence.Cbor

theorem length_bigEndian (width n : ℕ) : (bigEndian width n).length = width := by
  induction width generalizing n with
  | zero => rfl
  | succ width ih => rw [bigEndian, List.length_append, ih, List.length_singleton]

theorem highFirst_bigEndian {width n : ℕ} (h : n < 256 ^ width) :
    highFirst (bigEndian width n) = n := by
  induction width generalizing n with
  | zero =>
      obtain rfl : n = 0 := by simpa using h
      rfl
  | succ width ih =>
      have hhigh : n / 256 < 256 ^ width := Nat.div_lt_of_lt_mul (by rwa [← pow_succ'])
      have hhead : (bigEndian width (n / 256)).foldl (fun n b => 256 * n + b.toNat) 0 = n / 256 :=
        ih hhigh
      rw [bigEndian, highFirst, List.foldl_append, hhead, List.foldl_cons, List.foldl_nil,
        UInt8.toNat_ofNat']
      omega

theorem toNat_opening {major info : ℕ} (hmajor : major < 8) (hinfo : info < 32) :
    (opening major info).toNat = 32 * major + info := Utf8.toNat_ofNat (by omega)

namespace Reader

theorem reads_word {width n : ℕ} (h : n < 256 ^ width) :
    Reads (word width) (bigEndian width n) n := by
  have htake := reads_take (bigEndian width n)
  rw [length_bigEndian] at htake
  refine htake.map ?_
  rintro _ _ rfl
  exact highFirst_bigEndian h

def Opens (bytes : List UInt8) (major : ℕ) (a : Argument) : Prop :=
  ∃ b rest, bytes = b :: rest ∧ b.toNat / 32 = major ∧ Reads (argument (b.toNat % 32)) rest a

section Headers

variable {major n : ℕ} (hmajor : major < 8)
include hmajor

theorem opens_small (h : n < 24) : Opens [opening major n] major (.given n 0) := by
  have hb := toNat_opening hmajor (by omega : n < 32)
  refine ⟨_, _, rfl, by omega, ?_⟩
  have hinfo : (opening major n).toNat % 32 = n := by omega
  rw [hinfo, argument, if_pos h]
  exact yields_pure fun _ => rfl

theorem opens_wide {info width : ℕ} (hlow : 24 ≤ info) (hhigh : info < 28)
    (hwidth : 1 <<< (info - 24) = width) (h : n < 256 ^ width) :
    Opens (opening major info :: bigEndian width n) major (.given n width) := by
  have hb := toNat_opening hmajor (by omega : info < 32)
  refine ⟨_, _, rfl, by omega, ?_⟩
  have hinfo : (opening major info).toNat % 32 = info := by omega
  rw [hinfo, argument, if_neg (by omega), if_pos hhigh, hwidth]
  refine (reads_word h).bind_pure ?_
  rintro _ _ rfl
  rfl

theorem opens_longHeader (h : n < 2 ^ 64) :
    ∃ width, Opens (longHeader major n) major (.given n width) ∧ (n < 2 ^ 32 → width ≠ 8) := by
  unfold longHeader
  split_ifs with htwo hfour
  · exact ⟨2, opens_wide hmajor (by norm_num) (by norm_num) rfl htwo, by norm_num⟩
  · exact ⟨4, opens_wide hmajor (by norm_num) (by norm_num) rfl hfour, by norm_num⟩
  · exact ⟨8, opens_wide hmajor (by norm_num) (by norm_num) rfl h, by omega⟩

theorem opens_header (h : n < 2 ^ 64) :
    ∃ width, Opens (header major n) major (.given n width) ∧ (n < 2 ^ 32 → width ≠ 8) := by
  unfold header
  split_ifs with hsmall hone
  · exact ⟨0, opens_small hmajor hsmall, by norm_num⟩
  · exact ⟨1, opens_wide hmajor (by norm_num) (by norm_num) rfl hone, by norm_num⟩
  · exact opens_longHeader hmajor h

end Headers

section Items

variable {depth : ℕ} {bytes bytes' : List UInt8} {major k : ℕ} {a : Argument}

theorem Opens.yields {content : UInt8 → Argument → Reader Datum} {P : Store → Datum → Prop}
    (h : Opens bytes major a)
    (hcontent : ∀ b, b.toNat / 32 = major → Yields (content b a) bytes' k P) :
    Yields (byte >>= fun b => argument (b.toNat % 32) >>= content b) (bytes ++ bytes') k P := by
  obtain ⟨b, rest, rfl, hmajor, harg⟩ := h
  exact (reads_byte b).bind (harg.bind (hcontent b hmajor))

theorem Opens.reads_natural {n width : ℕ} (h : Opens bytes 0 (.given n width)) :
    Reads (anyItem (depth + 1)) bytes (.ofNat width n) := by
  rw [anyItem, ← List.append_nil bytes]
  refine h.yields fun b hb => ?_
  simp only [hb]
  exact yields_pure fun _ => rfl

theorem Opens.reads_float {n : ℕ} (h : Opens bytes 7 (.given n 8)) :
    Reads (anyItem (depth + 1)) bytes (.float (Binary64.ofFields 11 52 n).toBits) := by
  rw [anyItem, ← List.append_nil bytes]
  refine h.yields fun b hb => ?_
  simp only [hb]
  exact yields_pure fun _ => rfl

/-- A text whose bytes do not begin with the mark that readers leave out. -/
def Unmarked (s : String) : Prop := ¬ byteOrderMark <+: Utf8.encode s

theorem textOf_encode {s : String} (h : Unmarked s) :
    textOf (Utf8.encode s).length (Utf8.encode s) = s := by
  unfold textOf
  split_ifs with hshort hmark
  · rw [Nat.sub_self, List.replicate_zero, List.append_nil, Utf8.decode_encode]
  · exact absurd (List.isPrefixOf_iff_prefix.1 hmark) h
  · exact Utf8.decode_encode s

theorem reads_text {s : String} (h : Unmarked s) :
    Reads (anyItem (depth + 1)) (encodeText s) (.text s) := by
  refine Yields.of_length fun hlength => ?_
  rw [encodeText, List.length_append] at hlength
  obtain ⟨width, hopens, -⟩ := opens_header (by norm_num : 3 < 8)
    (by omega : (Utf8.encode s).length < 2 ^ 64)
  have htext : Reads (text (Utf8.encode s).length) (Utf8.encode s) s := by
    refine (reads_take _).map ?_
    rintro _ _ rfl
    exact textOf_encode h
  rw [anyItem, encodeText]
  refine hopens.yields fun b hb => ?_
  simp only [hb]
  refine htext.map ?_
  rintro _ _ rfl
  rfl

end Items

end Reader

namespace Store

variable {α : Type} [Scalar α]

theorem toValue_of_plain (s : Store) (depth : ℕ) {d : Datum} (h : d.isObject = false) :
    (s.toValue depth d : Value α) = d.plainValue := by
  cases d with
  | object => cases h
  | _ => cases depth <;> rfl

end Store

namespace Reader

theorem plainValue_natural {n width : ℕ} (hwidth : width ≠ 8) :
    (Datum.ofNat width n).isObject = false ∧
      (Datum.ofNat width n).plainValue = (Value.finite (n : ℚ)) := by
  rw [Datum.ofNat, if_neg hwidth]
  refine ⟨rfl, ?_⟩
  simp [Datum.plainValue, Datum.quantityOf, Value.finite]

theorem exists_reads_quantity (depth : ℕ) {x : ℚ} (h : Binary64.Holds x) :
    ∃ d, Reads (anyItem (depth + 1)) (encodeQuantity (.finite x)) d ∧ d.isObject = false ∧
      d.plainValue = Value.finite x := by
  have hfloat : ∃ d, Reads (anyItem (depth + 1)) (encodeFloat (Scalar.bits x)) d ∧
      d.isObject = false ∧ d.plainValue = Value.finite x := by
    have hopens : Opens (encodeFloat (Scalar.bits x)) 7 (.given (Scalar.bits x).toNat 8) :=
      opens_wide (by norm_num) (by norm_num) (by norm_num) rfl (Scalar.bits x).toNat_lt
    refine ⟨_, hopens.reads_float, rfl, ?_⟩
    have hamount := h.amount_nearest
    rw [← Binary64.ofBits_toBits_ofBits] at hamount
    exact congrArg Value.number hamount
  simp only [encodeQuantity]
  cases hx : Scalar.toNat? x with
  | none => exact hfloat
  | some n =>
      dsimp only
      split_ifs with hn
      · obtain ⟨width, hopens, hwidth⟩ := opens_header (by norm_num : 0 < 8)
          (by omega : n < 2 ^ 64)
        rw [eq_natCast_of_toNat? hx]
        exact ⟨_, hopens.reads_natural, plainValue_natural (hwidth hn)⟩
      · exact hfloat

end Reader

end Evidence.Cbor
