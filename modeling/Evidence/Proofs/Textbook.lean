import Mathlib
import Evidence.MassFunction.Belief
import Evidence.Proofs.Simple

namespace Evidence.Combination

def rawMass (r : Rule) (f : Frame) (sources : List (MassFunction ℚ)) (A : Mask) : ℚ :=
  if A = .empty then 0
  else match r with
    | .dempster => (weightWhere sources fun ms => Mask.meet ms = A) / (1 - conflictMass sources)
    | .yager => (weightWhere sources fun ms => Mask.meet ms = A) +
        if A = f.full then conflictMass sources else 0
    | .duboisPrade => (weightWhere sources fun ms => Mask.meet ms = A) +
        weightWhere sources fun ms => Mask.meet ms = .empty ∧ Mask.join ms = A

def rawTotal (r : Rule) (f : Frame) (sources : List (MassFunction ℚ)) : ℚ :=
  ∑ b ∈ Finset.range (2 ^ f.size), rawMass r f sources (.finite b)

section Shared

variable {f : Frame} {sources : List (MassFunction ℚ)} (h : SharedFrame f sources)
  (hne : sources ≠ []) {r : Rule} (hr : r = .dempster → conflictMass sources < 1)
include h hne hr

theorem amount_assigned (A : Mask) : (assigned r f sources).amount A = rawMass r f sources A := by
  have hsup := supported_assigned h hne hr
  unfold rawMass
  by_cases hA : A = .empty
  · rw [if_pos hA]
    apply Tally.amount_eq_zero
    intro hmem
    obtain ⟨e, he, rfl⟩ := List.mem_map.1 hmem
    exact (hsup.inside e he).1 hA
  · rw [if_neg hA, Tally.amount_eq_integral hsup.distinct, integral_assign h hne]
    cases r with
    | dempster =>
        dsimp only
        rw [min_eq_left (hr rfl).le, weightWhere, ← Choices.integral_div]
        apply Choices.integral_congr
        intro ms _
        by_cases hms : Mask.meet ms = .empty
        · simp [share, hms, Ne.symm hA]
        · simp [share, landing, hms, div_eq_mul_inv, mul_comm]
    | yager =>
        dsimp only
        have hfull : (if A = f.full then conflictMass sources else 0) =
            Choices.integral (sources.map (·.masses)) fun ms =>
              if Mask.meet ms = .empty ∧ A = f.full then 1 else 0 := by
          by_cases hf : A = f.full
          · simp [hf, conflictMass, weightWhere]
          · simp [hf, Choices.integral]
        rw [hfull, weightWhere, ← Choices.integral_plus]
        apply Choices.integral_congr
        intro ms _
        by_cases hms : Mask.meet ms = .empty
        · simp [share, landing, hms, Ne.symm hA, eq_comm]
        · simp [share, landing, hms]
    | duboisPrade =>
        dsimp only
        rw [weightWhere, weightWhere, ← Choices.integral_plus]
        apply Choices.integral_congr
        intro ms _
        by_cases hms : Mask.meet ms = .empty
        · simp [share, landing, hms, Ne.symm hA]
        · simp [share, landing, hms]

theorem total_assigned : (assigned r f sources).total = rawTotal r f sources := by
  have hsup := supported_assigned h hne hr
  have hkeys : ∀ k ∈ (assigned r f sources).keys,
      k ∈ (Finset.range (2 ^ f.size)).image Mask.finite := by
    intro k hk
    obtain ⟨e, he, rfl⟩ := List.mem_map.1 hk
    obtain ⟨b, hb, he⟩ := Mask.eq_finite_of_within (hsup.inside e he).2
    exact Finset.mem_image.2 ⟨b, Finset.mem_range.2 hb, he.symm⟩
  rw [Tally.total_eq_integral, Tally.integral_eq_sum hsup.distinct hkeys,
    Finset.sum_image fun _ _ _ _ heq => Mask.finite.inj heq, rawTotal]
  apply Finset.sum_congr rfl
  intro b _
  rw [one_mul, amount_assigned h hne hr]

end Shared

/-- A successful combination of two or more sources has the textbook masses, left as they are when
their total is within the tolerance and none exceeds one, and divided by their total otherwise. -/
theorem ofSources_textbook {f : Frame} {sources : List (MassFunction ℚ)} (h : SharedFrame f sources)
    (two : 2 ≤ sources.length) {r : Rule} {options : DriftOptions ℚ} {c : Combination ℚ}
    (hc : ofSources sources (.rule r) options = .ok c) :
    ∃ ε δ, options.resolve = .ok ⟨.finite ε, δ⟩ ∧ c.mass.frame = f ∧
      c.conflict = min (conflictMass sources) 1 ∧
      ∀ A, ((|rawTotal r f sources - 1| ≤ ε ∧ ∀ B, rawMass r f sources B ≤ 1) →
          c.mass.massOf A = rawMass r f sources A) ∧
        (¬ (|rawTotal r f sources - 1| ≤ ε ∧ ∀ B, rawMass r f sources B ≤ 1) →
          c.mass.massOf A = rawMass r f sources A / rawTotal r f sources) := by
  obtain ⟨ε, δ, ht, h0, -, hK, hnil, rfl⟩ := eq_of_ofSources_eq_ok h two hc
  have hne : sources ≠ [] := List.ne_nil_of_length_pos (by omega)
  have hr : r = .dempster → conflictMass sources < 1 := fun hd => (hK hd).trans (by linarith)
  have hsup := supported_assigned h hne hr
  have hset := supported_settled hsup ⟨.finite ε, δ⟩
  have hcond : ((⟨.finite ε, δ⟩ : Tolerances ℚ).ignores |(assigned r f sources).total - 1| = true ∧
      ∀ e ∈ assigned r f sources, e.2 ≤ 1) ↔
      |rawTotal r f sources - 1| ≤ ε ∧ ∀ B, rawMass r f sources B ≤ 1 := by
    rw [Tally.le_one_iff hsup.distinct, total_assigned h hne hr]
    simp only [amount_assigned h hne hr]
    exact and_congr_left' decide_eq_true_iff
  refine ⟨ε, δ, ht, rfl, rfl, fun A => ?_⟩
  have hA : (settled ⟨.finite ε, δ⟩ (assigned r f sources)).amount A = _ :=
    (Tally.amount_eq_integral hset.distinct A).trans (integral_settled _ _ _)
  rw [← Tally.amount_eq_integral hsup.distinct, amount_assigned h hne hr, total_assigned h hne hr]
    at hA
  rw [total_assigned h hne hr] at hcond
  constructor
  · intro hkept
    exact hA.trans (if_pos (hcond.2 hkept))
  · intro hscaled
    exact hA.trans (if_neg fun hkept => hscaled (hcond.1 hkept))

theorem textbook_opposed : ∃ c, ofSources (MassFunction.opposed (1 / 2) (1 / 2)) (.rule .dempster)
    (.fields .absent .absent) = .ok c ∧ c.mass.frame = .binary ∧ c.conflict = 1 / 4 := by
  obtain ⟨c, hc⟩ := MassFunction.exists_ofSources_opposed
  have hshared := MassFunction.shared_opposed (x := 1 / 2) (y := 1 / 2) (by norm_num) (by norm_num)
  obtain ⟨ε, δ, -, hframe, hconflict, -⟩ := ofSources_textbook hshared (by decide) hc
  have hK : min (conflictMass (MassFunction.opposed (1 / 2) (1 / 2))) 1 = 1 / 4 := by
    rw [conflictMass_opposed]
    norm_num
  exact ⟨c, hc, hframe, hconflict.trans hK⟩

end Evidence.Combination
