import Mathlib
import Evidence.Proofs.Conservation
import Evidence.Proofs.Dempster
import Evidence.Proofs.Naming

namespace Evidence

namespace MassFunction

def contains (A B : Mask) : ℚ := if A.diff B = .empty then 1 else 0

def commonality (m : MassFunction ℚ) (A : Mask) : ℚ :=
  m.masses.totalOf fun B => A.diff B == .empty

theorem commonality_eq_integral (m : MassFunction ℚ) (A : Mask) :
    m.commonality A = m.masses.integral (contains A) := by
  simp only [commonality, Tally.totalOf_eq_integral, beq_iff_eq]
  rfl

theorem contains_empty {A : Mask} (hA : A ≠ .empty) : contains A .empty = 0 := by
  refine if_neg fun hempty => hA ((Mask.eq_empty_iff A).2 fun i => ?_)
  have hnone := (Mask.diff_eq_empty_iff A .empty).1 hempty i
  simpa using hnone

theorem contains_full {f : Frame} {A : Mask} (hA : A.within f.size = true) :
    contains A f.full = 1 := by
  refine if_pos ((Mask.diff_eq_empty_iff A f.full).2 fun i hi => ?_)
  have hlt := (Mask.within_iff A f.size).1 hA i hi
  rw [Frame.full, Mask.has_full, decide_eq_true hlt]

theorem prod_contains (A : Mask) (ms : List Mask) :
    (ms.map (contains A)).prod = contains A (Mask.meet ms) := by
  by_cases hall : ∀ B ∈ ms, A.diff B = .empty
  · rw [contains, if_pos ((Mask.diff_meet_eq_empty_iff A ms).2 hall)]
    exact List.prod_eq_one (List.forall_mem_map.2 fun B hB => if_pos (hall B hB))
  · rw [contains, if_neg (mt (Mask.diff_meet_eq_empty_iff A ms).1 hall), List.prod_eq_zero_iff]
    simp only [not_forall] at hall
    obtain ⟨B, hB, hne⟩ := hall
    exact List.mem_map.2 ⟨B, hB, if_neg hne⟩

/-- The plausibility of a single hypothesis is its commonality: an event meets it when it contains
it. -/
theorem plausibilityOf_singleton (m : MassFunction ℚ) (i : Nat) :
    m.plausibilityOf (.singleton i) = m.commonality (.singleton i) := by
  rw [plausibilityOf, Tally.totalOf_eq_integral, commonality_eq_integral]
  refine Tally.integral_congr fun B _ => ?_
  have hmeets : B.inter (.singleton i) ≠ .empty ↔ (Mask.singleton i).diff B = .empty := by
    rw [Mask.ne_empty_iff, Mask.diff_eq_empty_iff]
    simp
  simp only [bne_iff_ne, hmeets, contains]

end MassFunction

namespace Combination

structure Multiplies (f : Frame) (sources : List (MassFunction ℚ)) (adjust : ℚ → ℚ)
    (m : MassFunction ℚ) : Prop where
  commonality : ∀ A, A ≠ .empty → A.within f.size = true →
    m.commonality A = adjust (sources.map fun n => n.commonality A).prod
  plausibility : ∀ k ∈ f.elements, ∃ qs,
    List.Forall₂ (fun n q => n.plausibility (.single k.toValue) = .ok q) sources qs ∧
      m.plausibility (.single k.toValue) = .ok (adjust qs.prod)

theorem multiplies_of_commonality {f : Frame} {sources : List (MassFunction ℚ)} {adjust : ℚ → ℚ}
    {m : MassFunction ℚ} (hf : ∀ n ∈ sources, n.frame = f) (hm : m.frame = f)
    (h : ∀ A, A ≠ .empty → A.within f.size = true →
      m.commonality A = adjust (sources.map fun n => n.commonality A).prod) :
    Multiplies f sources adjust m where
  commonality := h
  plausibility k hk := by
    have hanswer {n : MassFunction ℚ} (hn : n.frame = f) :
        n.plausibility (.single k.toValue) = .ok (n.commonality (.singleton (f.index k))) := by
      subst hn
      rw [← MassFunction.plausibilityOf_singleton]
      exact MassFunction.ask_single _ hk
    have hsingle : Mask.singleton (f.index k) ≠ .empty :=
      (Mask.ne_empty_iff _).2 ⟨f.index k, by simp⟩
    refine ⟨sources.map fun n => n.commonality (.singleton (f.index k)), ?_, ?_⟩
    · rw [List.forall₂_map_right_iff, List.forall₂_same]
      exact fun n hn => hanswer (hf n hn)
    · rw [hanswer hm, h _ hsingle (Mask.within_singleton (Frame.index_lt hk))]

section Exact

variable {f : Frame} {sources : List (MassFunction ℚ)} (h : ExactFrame f sources)

theorem integral_contains_meet (A : Mask) :
    (Choices.integral (sources.map (·.masses)) fun ms => MassFunction.contains A (Mask.meet ms)) =
      (sources.map fun n => n.commonality A).prod := by
  simp only [← MassFunction.prod_contains, MassFunction.commonality_eq_integral]
  rw [Choices.integral_prod, List.map_map]
  rfl

include h

theorem commonality_dempster (hne : sources ≠ []) (hK : conflictMass sources < 1) {A : Mask}
    (hA : A ≠ .empty) : (assigned .dempster f sources).integral (MassFunction.contains A) =
      (sources.map fun n => n.commonality A).prod / (1 - conflictMass sources) := by
  -- an event that is not empty is contained in no empty one, so contradictions count for nothing
  rw [eq_div_iff (sub_pos.2 hK).ne', mul_comm, integral_assigned h hne hK, agreeing,
    ← integral_contains_meet]
  refine Choices.integral_congr fun ms _ => ?_
  by_cases hms : Mask.meet ms = .empty
  · rw [hms, offEmpty_empty, MassFunction.contains_empty hA]
  · rw [offEmpty_of_ne _ hms]

theorem commonality_yager (hne : sources ≠ []) {A : Mask} (hA : A ≠ .empty)
    (hin : A.within f.size = true) :
    (assigned .yager f sources).integral (MassFunction.contains A) =
      (sources.map fun n => n.commonality A).prod + conflictMass sources := by
  rw [integral_assign h.toSharedFrame hne, ← integral_contains_meet, conflictMass, weightWhere,
    ← Choices.integral_plus]
  refine Choices.integral_congr fun ms _ => ?_
  rw [share, one_mul]
  by_cases hms : Mask.meet ms = .empty
  · have hlanding : landing .yager f ms = f.full := if_pos hms
    rw [hlanding, MassFunction.contains_full hin, hms, MassFunction.contains_empty hA]
    simp
  · have hlanding : landing .yager f ms = Mask.meet ms := if_neg hms
    rw [hlanding, if_neg hms, add_zero]

/-- Under Dempster's rule commonalities multiply and are divided by what is left of the conflict.
Yager's rule multiplies them and adds the conflict, and it never refuses such sources. -/
theorem ofSources_commonality (two : 2 ≤ sources.length) (options : DriftOptions ℚ) :
    (∀ c, ofSources sources (.rule .dempster) options = .ok c →
      c.conflict < 1 ∧ Multiplies f sources (· / (1 - c.conflict)) c.mass) ∧
    (∀ ε, options.Accepted ε → ∃ c, ofSources sources (.rule .yager) options = .ok c) ∧
    ∀ c, ofSources sources (.rule .yager) options = .ok c →
      Multiplies f sources (· + c.conflict) c.mass := by
  have hne : sources ≠ [] := List.ne_nil_of_length_pos (by omega)
  refine ⟨fun c hc => ?_, fun ε hε => ?_, fun c hc => ?_⟩
  · obtain ⟨hK, ε, rfl⟩ := eq_assigned_of_ok h two hc
    refine ⟨hK rfl, multiplies_of_commonality h.frame rfl fun A hA _ => ?_⟩
    rw [MassFunction.commonality_eq_integral]
    exact commonality_dempster h hne (hK rfl) hA
  · exact ⟨_, ofSources_exact h two hε fun hr => by cases hr⟩
  · obtain ⟨-, ε, rfl⟩ := eq_assigned_of_ok h two hc
    refine multiplies_of_commonality h.frame rfl fun A hA hin => ?_
    rw [MassFunction.commonality_eq_integral]
    exact commonality_yager h hne hA hin

end Exact

theorem commonality_opposed : ∃ c d,
    ofSources (MassFunction.opposed (1 / 2) (1 / 2)) (.rule .dempster) (.fields .absent .absent) =
      .ok c ∧
    ofSources (MassFunction.opposed (1 / 2) (1 / 2)) (.rule .yager)
      (.ofTolerances ⟨.finite (1 / 1000), .finite (1 / 10)⟩) = .ok d ∧
    c.mass.commonality (.finite 1) = 1 / 2 / (1 - c.conflict) ∧
    d.mass.commonality (.finite 1) = 1 / 2 + d.conflict := by
  have hshared := MassFunction.shared_opposed (x := 1 / 2) (y := 1 / 2) (by norm_num) (by norm_num)
  have hexact : ExactFrame .binary (MassFunction.opposed (1 / 2) (1 / 2)) :=
    ⟨hshared, MassFunction.total_opposed _ _⟩
  have haccepted : (DriftOptions.ofTolerances ⟨.finite (1 / 1000), .finite (1 / 10)⟩ :
      DriftOptions ℚ).Accepted (1 / 1000) :=
    DriftOptions.accepted_of_resolve (DriftOptions.resolve_finite (by norm_num) (by norm_num))
      (by norm_num) (by norm_num)
  have hprod : ((MassFunction.opposed (1 / 2) (1 / 2)).map fun n => n.commonality (.finite 1)).prod =
      1 / 2 := by decide +kernel
  obtain ⟨c, hc⟩ := MassFunction.exists_ofSources_opposed
  obtain ⟨hdempster, -⟩ := ofSources_commonality hexact (by decide) (.fields .absent .absent)
  obtain ⟨-, hexists, hyager⟩ := ofSources_commonality hexact (by decide)
    (.ofTolerances ⟨.finite (1 / 1000), .finite (1 / 10)⟩)
  obtain ⟨d, hd⟩ := hexists _ haccepted
  refine ⟨c, d, hc, hd, ?_, ?_⟩
  · rw [(hdempster c hc).2.commonality _ (by decide) (by decide), hprod]
  · rw [(hyager d hd).commonality _ (by decide) (by decide), hprod]

end Combination

end Evidence
