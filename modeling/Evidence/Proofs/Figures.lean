import Mathlib
import Evidence.Number.Text

namespace Evidence

def isFigure (c : Char) : Bool := c.isAlphanum || c == '.' || c == '-' || c == '+'

namespace Decimal

theorem figures_toDigits (n : Nat) : ∀ c ∈ Nat.toDigits 10 n, isFigure c = true := by
  intro c hc
  have hdigit := Nat.isDigit_of_mem_toDigits (by norm_num) (by norm_num) hc
  simp [isFigure, Char.isAlphanum, hdigit]

theorem figures_zeros (n : Nat) : ∀ c ∈ zeros n, isFigure c = true := by
  intro c hc
  rw [List.eq_of_mem_replicate hc]
  rfl

theorem figures_pointed {cs : List Char} (h : ∀ c ∈ cs, isFigure c = true) (n : Nat) :
    ∀ c ∈ cs.take n ++ '.' :: cs.drop n, isFigure c = true := by
  rw [List.forall_mem_append, List.forall_mem_cons]
  exact ⟨fun c hc => h c (List.mem_of_mem_take hc), rfl, fun c hc => h c (List.mem_of_mem_drop hc)⟩

theorem figures_withExponent {digits : List Char} (h : ∀ c ∈ digits, isFigure c = true)
    (exponent : Int) : ∀ c ∈ withExponent digits exponent, isFigure c = true := by
  have hsign : ∀ c ∈ ['e', if exponent < 0 then '-' else '+'], isFigure c = true := by
    split_ifs
    · exact List.all_eq_true.1 rfl
    · exact List.all_eq_true.1 rfl
  unfold withExponent
  rw [List.forall_mem_append, List.forall_mem_append]
  refine ⟨⟨?_, hsign⟩, figures_toDigits _⟩
  split
  · obtain ⟨hd, hrest⟩ := List.forall_mem_cons.1 h
    exact List.forall_mem_cons.2 ⟨hd, List.forall_mem_cons.2 ⟨rfl, hrest⟩⟩
  · exact h

theorem figures_plain {d : Decimal} (h : ∀ c ∈ d.digits, isFigure c = true) :
    ∀ c ∈ d.plain, isFigure c = true := by
  unfold plain
  dsimp only
  split_ifs
  · exact List.forall_mem_append.2 ⟨h, figures_zeros _⟩
  · exact figures_pointed h _
  · rw [List.forall_mem_cons, List.forall_mem_cons, List.forall_mem_append]
    exact ⟨rfl, rfl, figures_zeros _, h⟩
  · exact figures_withExponent h _

theorem figures_fixed (places num den : Nat) : ∀ c ∈ fixed places num den, isFigure c = true :=
  figures_pointed (List.forall_mem_append.2 ⟨figures_zeros _, figures_toDigits _⟩) _

theorem figures_shortest (significand : Nat) (exponent : Int) :
    ∀ c ∈ (shortest significand exponent).digits, isFigure c = true := by
  unfold shortest
  dsimp only
  split
  · exact List.forall_mem_nil _
  · intro c hc
    have hdropped := (List.dropWhile_sublist _).subset (List.mem_reverse.1 hc)
    exact figures_toDigits _ c (List.mem_reverse.1 hdropped)

end Decimal

namespace Binary64

theorem figures_signed (negative : Bool) {digits : List Char} (h : ∀ c ∈ digits, isFigure c = true) :
    ∀ c ∈ (signed negative digits).toList, isFigure c = true := by
  rw [signed, String.toList_ofList]
  cases negative with
  | false => exact h
  | true => exact List.forall_mem_cons.2 ⟨rfl, h⟩

theorem figures_text (b : Binary64) : ∀ c ∈ b.text.toList, isFigure c = true := by
  cases b with
  | nan => exact List.all_eq_true.1 rfl
  | infinite negative =>
      cases negative with
      | false => exact List.all_eq_true.1 rfl
      | true => exact List.all_eq_true.1 rfl
  | finite negative significand exponent =>
      rw [text]
      split_ifs
      · exact List.all_eq_true.1 rfl
      · exact figures_signed _ (Decimal.figures_plain (Decimal.figures_shortest _ _))

theorem figures_fixed (places : Nat) (b : Binary64) :
    ∀ c ∈ (b.fixed places).toList, isFigure c = true := by
  cases b with
  | nan => exact figures_text _
  | infinite negative => exact figures_text _
  | finite negative significand exponent =>
      unfold fixed
      dsimp only
      split_ifs
      · exact figures_text _
      · exact figures_signed _ (Decimal.figures_fixed _ _ _)

end Binary64

end Evidence
