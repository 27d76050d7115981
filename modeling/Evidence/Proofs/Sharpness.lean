import Mathlib
import Evidence.Proofs.Conservation

namespace Evidence

namespace Mask

variable {m n : Mask} (h : m.diff n = empty)
include h

theorem diff_eq_empty_trans {k : Mask} (hk : n.diff k = empty) : m.diff k = empty := by
  rw [diff_eq_empty_iff] at h hk ⊢
  exact fun i hi => hk i (h i hi)

theorem inter_ne_empty_of_diff {k : Mask} (hk : m.inter k ≠ empty) : n.inter k ≠ empty := by
  rw [diff_eq_empty_iff] at h
  rw [ne_empty_iff] at hk ⊢
  obtain ⟨i, hi⟩ := hk
  rw [has_inter, Bool.and_eq_true] at hi
  exact ⟨i, by rw [has_inter, h i hi.1, hi.2, Bool.true_and]⟩

end Mask

namespace MassFunction

/-- Evidence that gives no event a wider interval of belief and plausibility than other evidence
does, in whichever way the event is named. -/
structure Sharpens (m n : MassFunction ℚ) : Prop where
  belief : ∀ A, n.beliefOf A ≤ m.beliefOf A
  plausibility : ∀ A, m.plausibilityOf A ≤ n.plausibilityOf A
  interval : ∀ d bel pl, n.interval d = .ok (bel, pl) →
    ∃ bel' pl', m.interval d = .ok (bel', pl') ∧ bel ≤ bel' ∧ pl' ≤ pl

theorem sharpens_of_bounds {m n : MassFunction ℚ} (hframe : m.frame = n.frame)
    (hbelief : ∀ A, n.beliefOf A ≤ m.beliefOf A)
    (hplausibility : ∀ A, m.plausibilityOf A ≤ n.plausibilityOf A) : m.Sharpens n where
  belief := hbelief
  plausibility := hplausibility
  interval d bel pl h := by
    obtain ⟨e, he, h⟩ := Outcome.map_eq_ok h
    obtain ⟨rfl, rfl⟩ := Prod.mk.inj h
    refine ⟨m.beliefOf e.mask, m.plausibilityOf e.mask, ?_, hbelief e.mask, hplausibility e.mask⟩
    rw [interval, ask, hframe, he]
    rfl

end MassFunction

namespace Combination

/-- Under the rule of Dubois and Prade a contradiction lands on a union, which lies inside the frame
and thus inside the event on which it lands under Yager's rule. -/
theorem landing_diff {f : Frame} {ms : List Mask} (hin : ∀ m ∈ ms, m.within f.size = true) :
    (landing .duboisPrade f ms).diff (landing .yager f ms) = .empty := by
  rw [Mask.diff_eq_empty_iff]
  intro i hi
  unfold landing at hi ⊢
  by_cases hms : Mask.meet ms = .empty
  · rw [if_pos hms] at hi ⊢
    have hlt := (Mask.within_iff _ _).1 (Mask.within_join hin) i hi
    rw [Frame.full, Mask.has_full, decide_eq_true hlt]
  · rwa [if_neg hms] at hi ⊢

section Shared

variable {f : Frame} {sources : List (MassFunction ℚ)} (h : SharedFrame f sources)
  (hne : sources ≠ [])
include h hne

theorem totalOf_assigned_le {r s : Rule} (hr : r ≠ .dempster) (hs : s ≠ .dempster)
    {p q : Mask → Bool} (hpq : ∀ ms : List Mask, (∀ m ∈ ms, m.within f.size = true) →
      p (landing r f ms) = true → q (landing s f ms) = true) :
    (assigned r f sources).totalOf p ≤ (assigned s f sources).totalOf q := by
  rw [Tally.totalOf_eq_integral, Tally.totalOf_eq_integral, integral_assign h hne,
    integral_assign h hne]
  refine Choices.integral_mono h.masses_pos fun ms hms => ?_
  have hlanding := hpq ms (Conjunction.choice_within hne h.key_within hms).2
  rw [share_kept hr, share_kept hs, one_mul, one_mul]
  exact Tally.count_le_count hlanding

theorem sharpens_assigned (ε ε' : ℚ) : MassFunction.Sharpens
    ⟨f, assigned .duboisPrade f sources, ε⟩ ⟨f, assigned .yager f sources, ε'⟩ := by
  have hyager : Rule.yager ≠ .dempster := by decide
  have hunion : Rule.duboisPrade ≠ .dempster := by decide
  refine MassFunction.sharpens_of_bounds rfl (fun A => ?_) fun A => ?_
  · refine totalOf_assigned_le h hne hyager hunion (p := fun B => B.diff A == .empty)
      (q := fun B => B.diff A == .empty) fun ms hin hp => ?_
    rw [beq_iff_eq] at hp ⊢
    exact Mask.diff_eq_empty_trans (landing_diff hin) hp
  · refine totalOf_assigned_le h hne hunion hyager (p := fun B => B.inter A != .empty)
      (q := fun B => B.inter A != .empty) fun ms hin hp => ?_
    rw [bne_iff_ne] at hp ⊢
    exact Mask.inter_ne_empty_of_diff (landing_diff hin) hp

/-- Yager's masses are Dempster's before the division, with the conflict on the whole frame. -/
theorem amount_assigned_yager (hK : conflictMass sources < 1) (A : Mask) :
    (assigned .yager f sources).amount A =
      (1 - conflictMass sources) * (assigned .dempster f sources).amount A +
        if A = f.full then conflictMass sources else 0 := by
  have hyager : Rule.yager = .dempster → conflictMass sources < 1 := fun _ => hK
  rw [amount_assigned h hne hyager, amount_assigned h hne fun _ => hK, rawMass, rawMass]
  by_cases hA : A = .empty
  · rw [if_pos hA, if_pos hA, if_neg (hA ▸ f.full_ne_empty.symm), mul_zero, add_zero]
  · rw [if_neg hA, if_neg hA, mul_div_cancel₀ _ (sub_pos.2 hK).ne']

end Shared

section Exact

variable {f : Frame} {sources : List (MassFunction ℚ)} (h : ExactFrame f sources)
include h

/-- Of sources with a total of exactly one, Yager's rule makes what Dempster's makes, scaled by what
the conflict leaves and with the conflict on the whole frame. It and the rule of Dubois and Prade
never refuse such sources, and the latter sharpens it, whether or not Dempster's rule succeeds. -/
theorem ofSources_rules (two : 2 ≤ sources.length) (options : DriftOptions ℚ) :
    (∀ c, ofSources sources (.rule .dempster) options = .ok c →
      ∃ y d, ofSources sources (.rule .yager) options = .ok y ∧
        ofSources sources (.rule .duboisPrade) options = .ok d ∧
        (∀ A, A ≠ f.full → y.mass.massOf A = (1 - c.conflict) * c.mass.massOf A) ∧
        y.mass.massOf f.full = (1 - c.conflict) * c.mass.massOf f.full + c.conflict) ∧
    (∀ ε, options.Accepted ε → ∃ y d, ofSources sources (.rule .yager) options = .ok y ∧
      ofSources sources (.rule .duboisPrade) options = .ok d) ∧
    ∀ y d, ofSources sources (.rule .yager) options = .ok y →
      ofSources sources (.rule .duboisPrade) options = .ok d → d.mass.Sharpens y.mass := by
  have hne : sources ≠ [] := List.ne_nil_of_length_pos (by omega)
  have hkept {ε : ℚ} (haccepted : options.Accepted ε) {r : Rule} (hr : r ≠ .dempster) :=
    ofSources_exact h two haccepted fun hd => absurd hd hr
  refine ⟨fun c hc => ?_, fun ε hε => ?_, fun y d hy hd => ?_⟩
  · have haccepted := accepted_of_ok h.toSharedFrame two hc
    obtain ⟨hK, ε, rfl⟩ := eq_assigned_of_ok h two hc
    have hamount := amount_assigned_yager h.toSharedFrame hne (hK rfl)
    refine ⟨_, _, hkept haccepted (by decide), hkept haccepted (by decide), fun A hA => ?_, ?_⟩
    · exact (hamount A).trans (by rw [if_neg hA, add_zero]; rfl)
    · exact (hamount f.full).trans (by rw [if_pos rfl]; rfl)
  · exact ⟨_, _, hkept hε (by decide), hkept hε (by decide)⟩
  · obtain ⟨-, ε, rfl⟩ := eq_assigned_of_ok h two hy
    obtain ⟨-, ε', rfl⟩ := eq_assigned_of_ok h two hd
    exact sharpens_assigned h.toSharedFrame hne ε' ε

end Exact

theorem rules_opposed : ∃ c y d,
    ofSources (MassFunction.opposed (1 / 2) (1 / 2)) (.rule .dempster) (.fields .absent .absent) =
      .ok c ∧
    ofSources (MassFunction.opposed (1 / 2) (1 / 2)) (.rule .yager) (.fields .absent .absent) =
      .ok y ∧
    ofSources (MassFunction.opposed (1 / 2) (1 / 2)) (.rule .duboisPrade)
      (.fields .absent .absent) = .ok d ∧
    y.mass.massOf (.finite 1) = (1 - c.conflict) * c.mass.massOf (.finite 1) ∧
    d.mass.Sharpens y.mass := by
  have hshared := MassFunction.shared_opposed (x := 1 / 2) (y := 1 / 2) (by norm_num) (by norm_num)
  have hexact : ExactFrame .binary (MassFunction.opposed (1 / 2) (1 / 2)) :=
    ⟨hshared, MassFunction.total_opposed _ _⟩
  obtain ⟨c, hc⟩ := MassFunction.exists_ofSources_opposed
  obtain ⟨hscaled, -, hsharp⟩ := ofSources_rules hexact (by decide) (.fields .absent .absent)
  obtain ⟨y, d, hy, hd, hmass, -⟩ := hscaled c hc
  exact ⟨c, y, d, hc, hy, hd, hmass _ (by decide), hsharp y d hy hd⟩

end Combination

end Evidence
