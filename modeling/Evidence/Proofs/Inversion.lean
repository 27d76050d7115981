import Mathlib
import Evidence.Proofs.Capacity
import Evidence.Proofs.SourceOrder

namespace Evidence

section Signs

variable {ι : Type} [DecidableEq ι] {K S : Finset ι}

theorem sum_signs_above (hKS : K ⊆ S) :
    (∑ T ∈ S.powerset, (-1 : ℚ) ^ (S.card - T.card) * if K ⊆ T then 1 else 0) =
      if K = S then 1 else 0 := by
  have hsum : (∑ T ∈ S.powerset, (-1 : ℚ) ^ (S.card - T.card) * if K ⊆ T then 1 else 0) =
      ∑ U ∈ (S \ K).powerset, (-1 : ℚ) ^ U.card := by
    simp only [mul_ite, mul_one, mul_zero]
    rw [← Finset.sum_filter]
    -- a set above is told by what it leaves out
    refine Finset.sum_nbij' (S \ ·) (S \ ·) ?_ ?_ ?_ ?_ ?_
    · intro T hT
      obtain ⟨-, hKT⟩ := Finset.mem_filter.1 hT
      exact Finset.mem_powerset.2 (Finset.sdiff_subset_sdiff subset_rfl hKT)
    · intro U hU
      obtain ⟨hUS, hUK⟩ := Finset.subset_sdiff.1 (Finset.mem_powerset.1 hU)
      refine Finset.mem_filter.2 ⟨Finset.mem_powerset.2 Finset.sdiff_subset, ?_⟩
      exact Finset.subset_sdiff.2 ⟨hKS, hUK.symm⟩
    · intro T hT
      exact Finset.sdiff_sdiff_eq_self (Finset.mem_powerset.1 (Finset.mem_filter.1 hT).1)
    · intro U hU
      exact Finset.sdiff_sdiff_eq_self ((Finset.mem_powerset.1 hU).trans Finset.sdiff_subset)
    · intro T hT
      rw [Finset.card_sdiff_of_subset (Finset.mem_powerset.1 (Finset.mem_filter.1 hT).1)]
  have hcancel : (∑ U ∈ (S \ K).powerset, (-1 : ℚ) ^ U.card) = if S \ K = ∅ then 1 else 0 := by
    exact_mod_cast congrArg (Int.cast : ℤ → ℚ) (Finset.sum_powerset_neg_one_pow_card (x := S \ K))
  rw [hsum, hcancel]
  exact if_congr (Finset.sdiff_eq_empty_iff_subset.trans ⟨hKS.antisymm, fun h => h.ge⟩) rfl rfl

theorem sum_signs : (∑ T ∈ S.powerset, (-1 : ℚ) ^ (S.card - T.card) * if K ⊆ T then 1 else 0) =
    if K = S then 1 else 0 := by
  by_cases hKS : K ⊆ S
  · exact sum_signs_above hKS
  · rw [if_neg fun h => hKS h.subset]
    refine Finset.sum_eq_zero fun T hT => ?_
    rw [if_neg fun hKT => hKS (hKT.trans (Finset.mem_powerset.1 hT)), mul_zero]

end Signs

namespace MassFunction

variable {m : MassFunction ℚ} (h : m.Valid)
include h

/-- The mass of an event is the alternating sum of the beliefs in its subsets. -/
theorem Valid.massOf_eq_sum {A : Mask} (hA : A.within m.frame.size = true) :
    m.massOf A = ∑ T ∈ (Event.mk m.frame A).members.powerset,
      (-1) ^ ((Event.mk m.frame A).members.card - T.card) * m.beliefIn T := by
  generalize hS : (Event.mk m.frame A).members = S
  calc m.massOf A
      = m.masses.integral fun B => if B = A then 1 else 0 := Tally.amount_eq_integral h.distinct A
    _ = m.masses.integral fun B => if (Event.mk m.frame B).members = S then 1 else 0 := by
        refine Tally.integral_congr fun B hB => if_congr ?_ rfl rfl
        rw [← hS]
        exact Event.mask_eq_iff (h.within_of_mem hB) hA
    _ = m.masses.integral fun B => ∑ T ∈ S.powerset,
          (-1) ^ (S.card - T.card) * if (Event.mk m.frame B).members ⊆ T then 1 else 0 := by
        simp only [sum_signs]
    _ = ∑ T ∈ S.powerset, (-1) ^ (S.card - T.card) * m.beliefIn T := by
        simp only [Tally.integral_finset_sum, Tally.integral_mul_left, beliefIn_eq_integral]

theorem Valid.massOf_eq_zero {A : Mask} (hA : ¬ A.within m.frame.size = true) : m.massOf A = 0 :=
  Tally.amount_eq_zero fun hmem => hA (h.within_of_mem hmem)

theorem Valid.same_of_mass {n : MassFunction ℚ} (hn : n.Valid) (hframe : n.frame = m.frame)
    (hmass : ∀ A, A.within m.frame.size = true → m.massOf A = n.massOf A) : SameEvidence m n where
  frame := hframe.symm
  mass A := by
    by_cases hA : A.within m.frame.size = true
    · exact hmass A hA
    · rw [h.massOf_eq_zero hA, hn.massOf_eq_zero (hframe ▸ hA)]

theorem Valid.same_of_belief {n : MassFunction ℚ} (hn : n.Valid) (hframe : n.frame = m.frame)
    (hbelief : ∀ e, Event.Inside m.frame e → m.belief (.event e) = n.belief (.event e)) :
    SameEvidence m n := by
  have hsets : ∀ T ⊆ m.frame.elements.toFinset, m.beliefIn T = n.beliefIn T := by
    intro T hT
    obtain ⟨e, ⟨he, rfl⟩, -⟩ := Event.existsUnique_members hT
    have hm := (h.answers he.names).1
    have hn := (hn.answers (hframe ▸ he.names)).1
    exact Except.ok.inj (hm.symm.trans ((hbelief e he).trans hn))
  refine h.same_of_mass hn hframe fun A hA => ?_
  rw [h.massOf_eq_sum hA, hn.massOf_eq_sum (hframe ▸ hA), hframe]
  refine Finset.sum_congr rfl fun T hT => ?_
  rw [hsets T ((Finset.mem_powerset.1 hT).trans (Event.members_subset _))]

end MassFunction

section Same

variable {m n : MassFunction ℚ} (h : SameEvidence m n)
include h

theorem SameEvidence.answers (hm : m.Valid) (hn : n.Valid) (d : Designation ℚ) :
    m.mass d = n.mass d ∧ m.belief d = n.belief d ∧ m.plausibility d = n.plausibility d := by
  have hask {β : Type} {f g : Mask → β} (hfg : ∀ A, f A = g A) : m.ask d f = n.ask d g := by
    rw [MassFunction.ask, MassFunction.ask, h.frame, funext hfg]
  have hsum (p : Mask → Bool) : m.masses.totalOf p = n.masses.totalOf p := by
    rw [Tally.totalOf_eq_integral, Tally.totalOf_eq_integral]
    exact Tally.integral_eq_of_amounts hm.distinct hn.distinct h.mass _
  exact ⟨hask h.mass, hask fun _ => hsum _, hask fun _ => hsum _⟩

theorem SameEvidence.resembles_zero : m.resembles n (.finite 0) = .ok true := by
  have hnear : m.approximates n (.finite 0) = true := by
    rw [MassFunction.approximates, decide_eq_true h.frame, Bool.true_and, List.all_eq_true]
    intro A _
    rw [h.mass, distance_eq, sub_self, abs_zero]
    rfl
  rw [MassFunction.resembles, if_pos h.frame]
  exact congrArg Except.ok hnear

end Same

namespace MassFunction

/-- The mass of a set is the alternating sum of the beliefs in its subsets. Hence evidence over one
frame that believes every set alike has the same masses and the same plausibilities, and resembles
itself without any tolerance. -/
theorem Valid.mass_of_beliefs {m : MassFunction ℚ} (h : m.Valid) :
    (∀ (d : Designation ℚ) S, d.Names m.frame S → m.belief d = .ok (m.beliefIn S)) ∧
    (∀ e, Event.Inside m.frame e → ∀ d : Designation ℚ, d.find m.frame = .ok e →
      m.mass d = .ok (∑ T ∈ e.members.powerset,
        (-1) ^ (e.members.card - T.card) * m.beliefIn T)) ∧
    ∀ n : MassFunction ℚ, n.Valid → n.frame = m.frame →
      (∀ e, Event.Inside m.frame e → m.belief (.event e) = n.belief (.event e)) →
      (∀ d, m.mass d = n.mass d ∧ m.plausibility d = n.plausibility d) ∧
        m.resembles n (.finite 0) = .ok true := by
  refine ⟨fun d S hd => (h.answers hd).1, fun e he d hd => ?_, fun n hn hframe hbelief => ?_⟩
  · obtain ⟨A, rfl, hA⟩ := he.exists_mask
    rw [← h.massOf_eq_sum hA, mass, ask, hd]
    rfl
  · have hsame := h.same_of_belief hn hframe hbelief
    refine ⟨fun d => ?_, hsame.resembles_zero⟩
    obtain ⟨hmass, -, hplausibility⟩ := hsame.answers h hn d
    exact ⟨hmass, hplausibility⟩

/-- What is believed of both hypotheses together and of neither alone is the mass on just the two.
Written backwards, the evidence is not to be told apart. -/
theorem Valid.mass_of_beliefs_leaning : leaning.Valid ∧
    leaning.mass (.list [.ofNat 1, .ofNat 0]) =
      .ok (leaning.beliefIn {.number 0, .number 1} - leaning.beliefIn {.number 0} -
        leaning.beliefIn {.number 1} + leaning.beliefIn ∅) ∧
    leaning.resembles (Combination.backwards leaning) (.finite 0) = .ok true := by
  have hvalid : leaning.Valid :=
    valid_simple (by decide) (by decide) (by decide) (by norm_num) (by norm_num)
  have hperm : leaning.masses.Perm (Combination.backwards leaning).masses :=
    (List.reverse_perm _).symm
  have hbackwards : (Combination.backwards leaning).Valid :=
    hvalid.of_perm rfl hperm (by norm_num [Combination.backwards, leaning, simple,
      defaultEpsilon_eq]) (by norm_num [Combination.backwards])
  have hwritten : SameEvidence leaning (Combination.backwards leaning) := .of_perm hvalid rfl hperm
  have hinside : Event.Inside .binary ⟨.binary, .finite 3⟩ := ⟨rfl, by decide⟩
  have hmembers : (Event.mk .binary (.finite 3)).members = {.number 0, .number 1} := by decide
  have hsubsets : ({.number 0, .number 1} : Finset Hypothesis).powerset =
      {∅, {.number 0}, {.number 1}, {.number 0, .number 1}} := by decide
  obtain ⟨-, hmass, hsame⟩ := hvalid.mass_of_beliefs
  obtain ⟨-, hresembles⟩ := hsame _ hbackwards rfl fun e _ =>
    (hwritten.answers hvalid hbackwards _).2.1
  refine ⟨hvalid, (hmass _ hinside _ rfl).trans (congrArg Except.ok ?_), hresembles⟩
  rw [hmembers, hsubsets, Finset.sum_insert (by decide), Finset.sum_insert (by decide),
    Finset.sum_insert (by decide), Finset.sum_singleton]
  simp only [Finset.card_pair (by decide : Hypothesis.number 0 ≠ .number 1), Finset.card_empty,
    Finset.card_singleton]
  ring

end MassFunction

end Evidence
