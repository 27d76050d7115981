import Mathlib
import Evidence.Proofs.Likeliest

namespace Evidence

namespace MassFunction

structure Near (t : ℚ) (m n : MassFunction ℚ) : Prop where
  frame : m.frame = n.frame
  mass : ∀ e, Event.Inside m.frame e →
    ∃ x y, m.mass (.event e) = .ok x ∧ n.mass (.event e) = .ok y ∧ |x - y| ≤ t

def focal (m n : MassFunction ℚ) : Finset Mask := (m.masses.keys ++ n.masses.keys).toFinset

theorem massOf_eq_zero_of_not_focal {m n : MassFunction ℚ} {A : Mask} (hA : A ∉ focal m n) :
    m.massOf A = 0 ∧ n.massOf A = 0 := by
  rw [focal, List.mem_toFinset, List.mem_append, not_or] at hA
  exact ⟨Tally.amount_eq_zero hA.1, Tally.amount_eq_zero hA.2⟩

section Tolerance

variable {s t : ℚ} {m n k : MassFunction ℚ}

theorem near_iff : Near t m n ↔
    m.frame = n.frame ∧ ∀ A, A.within m.frame.size = true → |m.massOf A - n.massOf A| ≤ t := by
  constructor
  · rintro ⟨hframe, hmass⟩
    refine ⟨hframe, fun A hA => ?_⟩
    obtain ⟨x, y, hx, hy, hxy⟩ := hmass ⟨m.frame, A⟩ ⟨rfl, hA⟩
    obtain rfl := Except.ok.inj ((mass_event rfl).symm.trans hx)
    obtain rfl := Except.ok.inj ((mass_event hframe).symm.trans hy)
    exact hxy
  · rintro ⟨hframe, hmass⟩
    refine ⟨hframe, fun e he => ?_⟩
    obtain ⟨A, rfl, hA⟩ := he.exists_mask
    exact ⟨_, _, mass_event rfl, mass_event hframe, hmass A hA⟩

theorem Near.symm (h : Near t m n) : Near t n m := by
  obtain ⟨hframe, hmass⟩ := near_iff.1 h
  refine near_iff.2 ⟨hframe.symm, fun A hA => ?_⟩
  rw [abs_sub_comm]
  exact hmass A (hframe ▸ hA)

theorem Near.trans (h : Near s m n) (h' : Near t n k) : Near (s + t) m k := by
  obtain ⟨hframe, hmass⟩ := near_iff.1 h
  obtain ⟨hframe', hmass'⟩ := near_iff.1 h'
  refine near_iff.2 ⟨hframe.trans hframe', fun A hA => ?_⟩
  calc |m.massOf A - k.massOf A|
      ≤ |m.massOf A - n.massOf A| + |n.massOf A - k.massOf A| := abs_sub_le _ _ _
    _ ≤ s + t := add_le_add (hmass A hA) (hmass' A (hframe ▸ hA))

theorem approximates_iff : m.approximates n (.finite t) = true ↔
    m.frame = n.frame ∧ ∀ A ∈ focal m n, |m.massOf A - n.massOf A| ≤ t := by
  have hbelow (A : Mask) :
      (!Quantity.below (.finite t) (.finite (distance (m.massOf A) (n.massOf A)))) = true ↔
        |m.massOf A - n.massOf A| ≤ t := by
    rw [distance_eq, Bool.not_eq_true', ← not_lt]
    exact decide_eq_false_iff_not
  rw [approximates, Bool.and_eq_true, decide_eq_true_iff, List.all_eq_true]
  simp only [hbelow, focal, List.mem_toFinset]

theorem resembles_finite :
    m.resembles n (.finite t) = .ok (m.approximates n (.finite t)) := by
  unfold resembles
  by_cases hframe : m.frame = n.frame
  · rw [if_pos hframe]
    rfl
  · rw [if_neg hframe]
    rfl

section Valid

variable (hm : m.Valid) (hn : n.Valid)
include hm hn

theorem Valid.resembles_eq_true (ht : 0 ≤ t) :
    m.resembles n (.finite t) = .ok true ↔ Near t m n := by
  rw [resembles_finite, Except.ok.injEq, approximates_iff, near_iff]
  refine and_congr_right fun hframe => ⟨fun h A _ => ?_, fun h A hA => h A ?_⟩
  · by_cases hA : A ∈ focal m n
    · exact h A hA
    · obtain ⟨hmA, hnA⟩ := massOf_eq_zero_of_not_focal hA
      rwa [hmA, hnA, sub_self, abs_zero]
  · rcases List.mem_append.1 (List.mem_toFinset.1 hA) with hA | hA
    · exact hm.within_of_mem hA
    · exact hframe ▸ hn.within_of_mem hA

theorem Valid.near_zero_iff :
    Near 0 m n ↔ m.frame = n.frame ∧ ∀ d : Designation ℚ, m.mass d = n.mass d := by
  constructor
  · intro h
    obtain ⟨hframe, hmass⟩ := near_iff.1 h
    have hsame : SameEvidence m n := hm.same_of_mass hn hframe.symm fun A hA =>
      sub_eq_zero.1 (abs_nonpos_iff.1 (hmass A hA))
    exact ⟨hframe, fun d => (hsame.answers hm hn d).1⟩
  · rintro ⟨hframe, hmass⟩
    refine ⟨hframe, fun e he => ?_⟩
    have hx := mass_event he.frame
    exact ⟨_, _, hx, (hmass _).symm.trans hx, by rw [sub_self, abs_zero]⟩

/-- Each of the events that carry mass adds no more than the tolerance. -/
theorem Valid.abs_beliefIn_sub_le (h : Near t m n) (S : Finset Hypothesis) :
    |m.beliefIn S - n.beliefIn S| ≤ (focal m n).card * t := by
  obtain ⟨hframe, hmass⟩ := near_iff.1 h
  let g (A : Mask) : ℚ := if (Event.mk m.frame A).members ⊆ S then 1 else 0
  have hkeys (A : Mask) : A ∈ focal m n ↔ A ∈ m.masses.keys ∨ A ∈ n.masses.keys := by
    rw [focal, List.mem_toFinset, List.mem_append]
  have hbm : m.beliefIn S = ∑ A ∈ focal m n, g A * m.massOf A :=
    (beliefIn_eq_integral m S).trans
      (Tally.integral_eq_sum hm.distinct (fun A hA => (hkeys A).2 (.inl hA)) g)
  have hbn : n.beliefIn S = ∑ A ∈ focal m n, g A * n.massOf A := by
    rw [beliefIn_eq_integral n S, ← hframe]
    exact Tally.integral_eq_sum hn.distinct (fun A hA => (hkeys A).2 (.inr hA)) g
  have hterm : ∀ A ∈ focal m n, |g A * m.massOf A - g A * n.massOf A| ≤ t := by
    intro A hA
    have hwithin : A.within m.frame.size = true :=
      ((hkeys A).1 hA).elim hm.within_of_mem fun hA => hframe ▸ hn.within_of_mem hA
    have hg : |g A| ≤ 1 := by
      dsimp only [g]
      split_ifs <;> simp
    calc |g A * m.massOf A - g A * n.massOf A|
        = |g A| * |m.massOf A - n.massOf A| := by rw [← mul_sub, abs_mul]
      _ ≤ 1 * t := mul_le_mul hg (hmass A hwithin) (abs_nonneg _) zero_le_one
      _ = t := one_mul t
  calc |m.beliefIn S - n.beliefIn S|
      = |∑ A ∈ focal m n, (g A * m.massOf A - g A * n.massOf A)| := by
        rw [hbm, hbn, Finset.sum_sub_distrib]
    _ ≤ ∑ A ∈ focal m n, |g A * m.massOf A - g A * n.massOf A| := Finset.abs_sum_le_sum_abs _ _
    _ ≤ (focal m n).card • t := Finset.sum_le_card_nsmul _ _ _ hterm
    _ = (focal m n).card * t := nsmul_eq_mul _ _

end Valid

/-- The check within a tolerance speaks for all events of the frame. So it is symmetric, tolerances
add up along a chain, none at all leaves only evidence of the same masses, in whatever order they
are stored, and beliefs differ by at most the tolerance for each event that carries mass. -/
theorem Valid.resembles_metric (hm : m.Valid) (hn : n.Valid) (ht : 0 ≤ t) :
    (∃ alike, m.resembles n (.finite t) = .ok alike ∧ (alike = true ↔ Near t m n)) ∧
      n.resembles m (.finite t) = m.resembles n (.finite t) ∧
      (∀ k s, k.Valid → 0 ≤ s → m.resembles n (.finite t) = .ok true →
        n.resembles k (.finite s) = .ok true → m.resembles k (.finite (t + s)) = .ok true) ∧
      (m.resembles n (.finite 0) = .ok true ↔
        m.frame = n.frame ∧ ∀ d : Designation ℚ, m.mass d = n.mass d) ∧
      (∀ k : MassFunction ℚ, m.frame = k.frame → m.masses.Perm k.masses →
        m.resembles k (.finite 0) = .ok true) ∧
      (m.resembles n (.finite t) = .ok true → ∀ (d : Designation ℚ) S, d.Names m.frame S →
        ∃ x y, m.belief d = .ok x ∧ n.belief d = .ok y ∧ |x - y| ≤ (focal m n).card * t) := by
  have hnear := hm.resembles_eq_true hn ht
  refine ⟨⟨_, resembles_finite, ?_⟩, ?_, fun k s hk hs hmn hnk => ?_, ?_, fun k hframe hperm => ?_,
    fun hmn d S hd => ?_⟩
  · rw [← hnear, resembles_finite, Except.ok.injEq]
  · have hback := hn.resembles_eq_true hm ht
    rw [resembles_finite, Except.ok.injEq] at hnear hback
    rw [resembles_finite, resembles_finite, Except.ok.injEq, Bool.eq_iff_iff, hnear, hback]
    exact ⟨Near.symm, Near.symm⟩
  · rw [hn.resembles_eq_true hk hs] at hnk
    rw [hm.resembles_eq_true hk (add_nonneg ht hs)]
    exact (hnear.1 hmn).trans hnk
  · rw [hm.resembles_eq_true hn le_rfl, hm.near_zero_iff hn]
  · exact (SameEvidence.of_perm hm hframe hperm).resembles_zero
  · have hframe := (hnear.1 hmn).frame
    exact ⟨_, _, (hm.answers hd).1, (hn.answers (hframe ▸ hd)).1,
      hm.abs_beliefIn_sub_le hn (hnear.1 hmn) S⟩

end Tolerance

def wavering : MassFunction ℚ :=
  ⟨.binary, [(.finite 2, 1 / 10), (.finite 1, 3 / 10), (.finite 3, 6 / 10)], defaultEpsilon⟩

theorem Valid.resembles_metric_leaning : leaning.Valid ∧ wavering.Valid ∧
    leaning.resembles wavering (.finite (1 / 10)) = .ok true ∧ Near (1 / 10) leaning wavering ∧
    wavering.resembles leaning (.finite (1 / 10)) = .ok true ∧
    ∃ x y, leaning.belief (.single (.ofNat 1)) = .ok x ∧
      wavering.belief (.single (.ofNat 1)) = .ok y ∧ |x - y| ≤ 3 * (1 / 10) := by
  have hleaning : leaning.Valid :=
    valid_simple (by decide) (by decide) (by decide) (by norm_num) (by norm_num)
  have hwavering : wavering.Valid :=
    ⟨by decide, by decide, by decide +kernel, by decide +kernel, by decide +kernel⟩
  have hchecked : leaning.approximates wavering (.finite (1 / 10)) = true := by decide +kernel
  have halike : leaning.resembles wavering (.finite (1 / 10)) = .ok true :=
    resembles_finite.trans (congrArg Except.ok hchecked)
  have hfocal : ((focal leaning wavering).card : ℚ) = 3 := by
    have hcard : (focal leaning wavering).card = 3 := by decide +kernel
    rw [hcard]
    rfl
  obtain ⟨⟨alike, hresembles, hnear⟩, hsymm, -, -, -, hbelief⟩ :=
    hleaning.resembles_metric hwavering (t := 1 / 10) (by norm_num)
  obtain rfl := Except.ok.inj (hresembles.symm.trans halike)
  refine ⟨hleaning, hwavering, halike, hnear.1 rfl, hsymm.trans halike, ?_⟩
  rw [← hfocal]
  exact hbelief halike _ {.number 1} ⟨.finite 2, rfl, by decide⟩

end MassFunction

end Evidence
