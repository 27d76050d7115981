import Mathlib
import Evidence.Proofs.Capacity
import Evidence.Proofs.Conservation
import Evidence.Proofs.Contradiction

namespace Evidence

namespace MassFunction

structure Certain (e : Event) (n : MassFunction ℚ) : Prop where
  valid : n.Valid
  frame : n.frame = e.frame
  masses : n.masses = [(e.mask, 1)]

theorem exists_certain {f : Frame} {e : Event} (he : Event.Inside f e) (hne : e.members.Nonempty) :
    ∃ n, Certain e n := by
  obtain ⟨B, rfl, hB⟩ := he.exists_mask
  have hempty : B ≠ .empty := fun h => hne.ne_empty ((Event.mask_eq_empty_iff hB).1 h)
  refine ⟨⟨f, [(B, 1)], defaultEpsilon⟩, ?_, rfl, rfl⟩
  exact valid_certain hempty hB (by norm_num) (by norm_num [defaultEpsilon_eq])
    (by norm_num [defaultEpsilon_eq])

end MassFunction

namespace Combination

structure Conditioned (m : MassFunction ℚ) (B : Finset Hypothesis) (c : Combination ℚ) : Prop where
  conflict : c.conflict = 1 - m.plausibilityIn B
  plausibility : ∀ (d : Designation ℚ) S, d.Names m.frame S →
    c.mass.plausibility d = .ok (m.plausibilityIn (S ∩ B) / m.plausibilityIn B)
  belief : ∀ (d : Designation ℚ) S, d.Names m.frame S →
    c.mass.belief d = .ok
      ((m.beliefIn (S ∪ (m.frame.elements.toFinset \ B)) -
        m.beliefIn (m.frame.elements.toFinset \ B)) /
          (1 - m.beliefIn (m.frame.elements.toFinset \ B)))

section Certain

variable {m n : MassFunction ℚ} (hm : m.Valid) {B : Mask} (hn : n.Certain ⟨m.frame, B⟩)
include hm hn

/-- Whatever meets the event is cut down to it, and the rest is lost. -/
theorem agreeing_certain (g : Mask → ℚ) : agreeing [m, n] g = m.masses.integral fun A =>
    if ((Event.mk m.frame A).members ∩ (Event.mk m.frame B).members).Nonempty then g (A.inter B)
    else 0 := by
  simp only [agreeing, List.map_cons, List.map_nil, Choices.integral_cons, Choices.integral_nil,
    Mask.meet_pair, hn.masses, Tally.integral_cons, Tally.integral_nil, mul_one, add_zero]
  refine Tally.integral_congr fun A hA => ?_
  have hleft : ¬ A.inter B = .empty ↔
      ((Event.mk m.frame A).members ∩ (Event.mk m.frame B).members).Nonempty := by
    rw [Event.mask_eq_empty_iff (Mask.within_inter (hm.within_of_mem hA) B), Event.members_inter,
      Finset.nonempty_iff_ne_empty]
  rw [offEmpty, ← ite_not]
  exact if_congr hleft rfl rfl

/-- What is left meets a set where the event it was cut from meets what the set has in common with
the one that is certain. -/
theorem agreeing_meets (S : Finset Hypothesis) :
    (agreeing [m, n] fun A => if ((Event.mk m.frame A).members ∩ S).Nonempty then 1 else 0) =
      m.plausibilityIn (S ∩ (Event.mk m.frame B).members) := by
  rw [agreeing_certain hm hn, MassFunction.plausibilityIn_eq_integral]
  refine Tally.integral_congr fun A _ => ?_
  simp only [Event.members_inter]
  have hset : (Event.mk m.frame A).members ∩ (Event.mk m.frame B).members ∩ S =
      (Event.mk m.frame A).members ∩ (S ∩ (Event.mk m.frame B).members) := by
    rw [Finset.inter_assoc, Finset.inter_comm S]
  rw [hset, ← ite_and]
  refine if_congr (and_iff_right_of_imp fun h => ?_) rfl rfl
  exact h.mono (Finset.inter_subset_inter_left Finset.inter_subset_right)

variable (htotal : m.total = 1)
include htotal

theorem exact_certain : ExactFrame m.frame [m, n] where
  toSharedFrame := .pair hm hn.valid hn.frame.symm
  total := by
    refine List.forall_mem_cons.2 ⟨htotal, List.forall_mem_singleton.2 ?_⟩
    rw [hn.masses]
    simp [Tally.total_eq_integral]

theorem conflictMass_certain :
    conflictMass [m, n] = 1 - m.plausibilityIn (Event.mk m.frame B).members := by
  have hone := agreeing_one (exact_certain hm hn htotal)
  rw [agreeing_certain hm hn, ← MassFunction.plausibilityIn_eq_integral] at hone
  linarith

section Combined

variable {sources : List (MassFunction ℚ)} (hperm : sources.Perm [m, n])
include hperm

section Fused

variable {p : MassFunction ℚ} (hp : Fused m.frame sources p)
  (hpos : 0 < m.plausibilityIn (Event.mk m.frame B).members)
include hp hpos

theorem Fused.plausibilityIn_certain (S : Finset Hypothesis) : p.plausibilityIn S =
    m.plausibilityIn (S ∩ (Event.mk m.frame B).members) /
      m.plausibilityIn (Event.mk m.frame B).members := by
  have hagree := hp.agrees fun A => if ((Event.mk m.frame A).members ∩ S).Nonempty then 1 else 0
  rw [agreeing_perm hperm, agreeing_meets hm hn, conflictMass_perm hperm,
    conflictMass_certain hm hn htotal, sub_sub_cancel] at hagree
  rw [eq_div_iff hpos.ne', ← hagree, mul_comm, p.plausibilityIn_eq_integral,
    hp.exact.frame p (List.mem_singleton_self p)]

theorem Fused.beliefIn_certain {S : Finset Hypothesis} (hS : S ⊆ m.frame.elements.toFinset) :
    p.beliefIn S =
      (m.beliefIn (S ∪ (m.frame.elements.toFinset \ (Event.mk m.frame B).members)) -
        m.beliefIn (m.frame.elements.toFinset \ (Event.mk m.frame B).members)) /
          (1 - m.beliefIn (m.frame.elements.toFinset \ (Event.mk m.frame B).members)) := by
  have hmem : p ∈ [p] := List.mem_singleton_self p
  have hone : p.total = 1 := hp.exact.total p hmem
  have houtside := hp.plausibilityIn_certain hm hn htotal hperm hpos (m.frame.elements.toFinset \ S)
  rw [p.plausibilityIn_eq, hp.exact.frame p hmem, Finset.sdiff_sdiff_eq_self hS, hone,
    m.plausibilityIn_eq, m.plausibilityIn_eq, Finset.sdiff_inter_distrib_right,
    Finset.sdiff_sdiff_eq_self hS, htotal] at houtside
  rw [m.plausibilityIn_eq, htotal] at hpos
  rw [eq_div_iff hpos.ne'] at houtside ⊢
  linarith

end Fused

variable {options : DriftOptions ℚ} {ε : ℚ} (haccepted : options.Accepted ε)
include haccepted

theorem refused_certain (hle : m.plausibilityIn (Event.mk m.frame B).members ≤ ε) :
    ofSources sources (.rule .dempster) options = .error (.fault (.totalConflict
      (.finite (1 - m.plausibilityIn (Event.mk m.frame B).members)))) := by
  have hexact : ExactFrame m.frame sources := (exact_certain hm hn htotal).perm hperm.symm
  have hK : conflictMass sources = 1 - m.plausibilityIn (Event.mk m.frame B).members := by
    rw [conflictMass_perm hperm, conflictMass_certain hm hn htotal]
  rw [ofSources_eq_totalConflict hexact.toSharedFrame hperm.length_eq.ge haccepted (by linarith),
    min_eq_left (conflictMass_le_one hexact), hK]

theorem exists_conditioned (hlt : ε < m.plausibilityIn (Event.mk m.frame B).members) :
    ∃ c, ofSources sources (.rule .dempster) options = .ok c ∧
      Conditioned m (Event.mk m.frame B).members c := by
  have hexact : ExactFrame m.frame sources := (exact_certain hm hn htotal).perm hperm.symm
  have hne : sources ≠ [] := List.ne_nil_of_length_pos (hperm.length_eq.symm ▸ two_pos)
  have hK : conflictMass sources = 1 - m.plausibilityIn (Event.mk m.frame B).members := by
    rw [conflictMass_perm hperm, conflictMass_certain hm hn htotal]
  obtain ⟨h0, h1⟩ := haccepted.bounds
  obtain ⟨δ, ht, -⟩ := haccepted
  obtain ⟨c, hc, hp, hconflict⟩ := exists_fused hexact hne ht h0 h1 (by linarith)
  have hvalid := hp.exact.valid c.mass (List.mem_singleton_self c.mass)
  have hframe := hp.exact.frame c.mass (List.mem_singleton_self c.mass)
  refine ⟨c, hc, hconflict.trans hK, fun d S hd => ?_, fun d S hd => ?_⟩
  · rw [(hvalid.answers (hframe ▸ hd)).2.1,
      hp.plausibilityIn_certain hm hn htotal hperm (h0.trans hlt)]
  · rw [(hvalid.answers (hframe ▸ hd)).1,
      hp.beliefIn_certain hm hn htotal hperm (h0.trans hlt) hd.subset]

end Combined

end Certain

/-- Beside a source that is certain of an event the conflict is what is not plausible of the event,
which is what is believed of its complement. Dempster's rule is refused just when no more than the
tolerance is plausible, and otherwise conditions on the event, whichever source comes first. -/
theorem ofSources_conditioned {m : MassFunction ℚ} (hm : m.Valid) (htotal : m.total = 1) {e : Event}
    (he : Event.Inside m.frame e) (hne : e.members.Nonempty) {options : DriftOptions ℚ} {ε : ℚ}
    (haccepted : options.Accepted ε) :
    (∀ (d : Designation ℚ) S, d.Names m.frame S →
      m.belief d = .ok (m.beliefIn S) ∧ m.plausibility d = .ok (m.plausibilityIn S)) ∧
    1 - m.plausibilityIn e.members = m.beliefIn (m.frame.elements.toFinset \ e.members) ∧
    (∃ n, MassFunction.Certain e n) ∧
    ∀ n, MassFunction.Certain e n →
      m.conflict n = .ok (1 - m.plausibilityIn e.members) ∧
      n.conflict m = .ok (1 - m.plausibilityIn e.members) ∧
      ∀ sources ∈ [[m, n], [n, m]],
        (ofSources sources (.rule .dempster) options =
            .error (.fault (.totalConflict (.finite (1 - m.plausibilityIn e.members)))) ↔
          m.plausibilityIn e.members ≤ ε) ∧
        (ε < m.plausibilityIn e.members →
          ∃ c, ofSources sources (.rule .dempster) options = .ok c ∧
            Conditioned m e.members c) := by
  have hcomplement :
      1 - m.plausibilityIn e.members = m.beliefIn (m.frame.elements.toFinset \ e.members) := by
    rw [m.plausibilityIn_eq, htotal, sub_sub_cancel]
  refine ⟨fun d S hd => ?_, hcomplement, MassFunction.exists_certain he hne, fun n hn => ?_⟩
  · obtain ⟨hbelief, hplausibility, -⟩ := hm.answers hd
    exact ⟨hbelief, hplausibility⟩
  · obtain ⟨B, rfl, -⟩ := he.exists_mask
    have hexact := exact_certain hm hn htotal
    have hK : contradiction [m, n] = 1 - m.plausibilityIn (Event.mk m.frame B).members := by
      rw [contradiction, min_eq_left (conflictMass_le_one hexact),
        conflictMass_certain hm hn htotal]
    refine ⟨hK ▸ conflict_pair hexact.toSharedFrame (.refl _),
      hK ▸ conflict_pair hexact.toSharedFrame (.swap n m []), fun sources hsources => ?_⟩
    have hperm : sources.Perm [m, n] := by
      rcases List.mem_cons.1 hsources with rfl | hsources
      · exact .refl _
      · obtain rfl := List.mem_singleton.1 hsources
        exact .swap m n []
    have hsuccess := exists_conditioned hm hn htotal hperm haccepted
    refine ⟨⟨fun hrefused => ?_, refused_certain hm hn htotal hperm haccepted⟩, hsuccess⟩
    by_contra hlt
    obtain ⟨c, hc, -⟩ := hsuccess (not_le.1 hlt)
    rw [hc] at hrefused
    cases hrefused

/-- Given the second of two hypotheses nothing is left of the first one, which was believed to three
tenths. -/
theorem conditioned_leaning : ∃ n c, MassFunction.Certain ⟨.binary, .finite 2⟩ n ∧
    MassFunction.leaning.conflict n = .ok (3 / 10) ∧
    ofSources [MassFunction.leaning, n] (.rule .dempster)
      (.ofTolerances ⟨.finite (1 / 1000), .finite (1 / 10)⟩) = .ok c ∧
    c.conflict = 3 / 10 ∧ c.mass.plausibility (.single (.ofNat 0)) = .ok 0 := by
  have hvalid : MassFunction.leaning.Valid :=
    MassFunction.valid_simple (by decide) (by decide) (by decide) (by norm_num) (by norm_num)
  have hsecond : Event.Inside .binary ⟨.binary, .finite 2⟩ := ⟨rfl, by decide⟩
  have hmembers : (Event.mk .binary (.finite 2)).members = {.number 1} := by decide
  have haccepted : (DriftOptions.ofTolerances ⟨.finite (1 / 1000), .finite (1 / 10)⟩ :
      DriftOptions ℚ).Accepted (1 / 1000) :=
    DriftOptions.accepted_finite (by norm_num) (by norm_num) (by norm_num)
  have hpl : MassFunction.leaning.plausibilityIn {.number 1} = 7 / 10 := by decide +kernel
  obtain ⟨-, -, ⟨n, hn⟩, hconditioned⟩ := ofSources_conditioned hvalid
    (MassFunction.total_simple ..) hsecond (hmembers ▸ Finset.singleton_nonempty _) haccepted
  obtain ⟨hconflict, -, hpair⟩ := hconditioned n hn
  obtain ⟨c, hc, hgiven⟩ := (hpair _ (List.mem_cons_self ..)).2 (by
    rw [hmembers, hpl]
    norm_num)
  rw [hmembers] at hconflict hgiven
  have hrest : (1 : ℚ) - MassFunction.leaning.plausibilityIn {.number 1} = 3 / 10 := by
    rw [hpl]
    norm_num
  refine ⟨n, c, hn, hrest ▸ hconflict, hc, hgiven.conflict.trans hrest, ?_⟩
  have hfirst : (Designation.single (.ofNat 0) : Designation ℚ).Names .binary {.number 0} :=
    ⟨.finite 1, rfl, by decide⟩
  have hnothing : ({.number 0} ∩ {.number 1} : Finset Hypothesis) = ∅ := by decide
  rw [hgiven.plausibility _ _ hfirst, hnothing, MassFunction.plausibilityIn_empty, zero_div]

end Combination

end Evidence
