import Mathlib
import Evidence.MassFunction.Belief
import Evidence.Proofs.Correspondence
import Evidence.Proofs.Obtainable
import Evidence.Proofs.PignisticSum
import Evidence.Proofs.Renaming

namespace Evidence

namespace MassFunction.Moved

variable {f g : Frame} {ρ : Renaming f g} {m n : MassFunction ℚ} (h : Moved f g ρ.image m n)
include h

theorem massOf_image {A : Mask} (hA : A.within f.size = true) :
    n.massOf (ρ.image A) = m.massOf A :=
  h.masses.amount h.first.distinct h.second.distinct
    fun _ hB => ρ.image_inj (h.first.key_within hB) hA

theorem beliefOf_image (A : Mask) : n.beliefOf (ρ.image A) = m.beliefOf A := by
  rw [beliefOf, beliefOf, Tally.totalOf_eq_integral, Tally.totalOf_eq_integral, h.masses]
  refine Tally.integral_congr fun B hB => ?_
  have hin : (B.diff A).within f.size = true := Mask.within_inter (h.first.key_within hB) _
  simp only [beq_iff_eq, ← ρ.image_diff, ρ.image_eq_empty_iff hin]

theorem plausibilityOf_image (A : Mask) : n.plausibilityOf (ρ.image A) = m.plausibilityOf A := by
  rw [plausibilityOf, plausibilityOf, Tally.totalOf_eq_integral, Tally.totalOf_eq_integral, h.masses]
  refine Tally.integral_congr fun B hB => ?_
  have hin : (B.inter A).within f.size = true := Mask.within_inter (h.first.key_within hB) _
  simp only [bne_iff_ne, ← ρ.image_inter, Ne, ρ.image_eq_empty_iff hin]

theorem betOf_rename {k : Hypothesis} (hk : k ∈ f.elements) : n.betOf (ρ k) = m.betOf k := by
  obtain ⟨rfl, rfl⟩ := h.frames
  rw [betOf, betOf, h.masses]
  refine Tally.integral_congr fun B hB => ?_
  rw [betShare, betShare, ρ.has_image B hk, ρ.card_image (h.first.key_within hB)]

theorem pignistic_perm : ((f.elements.map fun k => (k, m.betOf k)).map fun p => (ρ p.1, p.2)).Perm
    (g.elements.map fun k => (k, n.betOf k)) := by
  -- the new frame lists its hypotheses in an order of its own
  refine List.Perm.trans (.of_eq ?_) (ρ.elements_perm.map fun k => (k, n.betOf k))
  rw [List.map_map, List.map_map]
  exact List.map_congr_left fun k hk => congrArg (Prod.mk (ρ k)) (h.betOf_rename hk).symm

end MassFunction.Moved

namespace Renaming

variable {f g : Frame} (ρ : Renaming f g)

/-- Asked about any hypotheses under their old names, the first one answers as the second one does
under the new names. -/
def Agrees (ask : MassFunction ℚ → Designation ℚ → Except (Failure ℚ) ℚ) (m n : MassFunction ℚ) :
    Prop :=
  ∀ hs : List Hypothesis, hs ⊆ f.elements →
    ∃ x, ask m (.list (hs.map Hypothesis.toValue)) = .ok x ∧
      ask n (.list ((hs.map ρ).map Hypothesis.toValue)) = .ok x

structure Renamed (c d : Combination ℚ) : Prop where
  conflict : c.conflict = d.conflict
  epsilon : c.mass.epsilon = d.mass.epsilon
  mass : ρ.Agrees MassFunction.mass c.mass d.mass
  belief : ρ.Agrees MassFunction.belief c.mass d.mass
  plausibility : ρ.Agrees MassFunction.plausibility c.mass d.mass
  pignistic : ∃ ps qs, c.mass.pignistic = .ok ps ∧ d.mass.pignistic = .ok qs ∧
    (ps.map fun p => (ρ p.1, p.2)).Perm qs

theorem agrees_iff {m n : MassFunction ℚ} (hf : m.frame = f) (hg : n.frame = g)
    (answer : MassFunction ℚ → Mask → ℚ) :
    ρ.Agrees (fun m d => m.ask d (answer m)) m n ↔
      ∀ A, A.within f.size = true → answer n (ρ.image A) = answer m A := by
  subst hf hg
  have hanswers {hs : List Hypothesis} (hsub : hs ⊆ m.frame.elements) :
      m.ask (.list (hs.map Hypothesis.toValue)) (answer m) = .ok (answer m (m.frame.maskOf hs)) ∧
        n.ask (.list ((hs.map ρ).map Hypothesis.toValue)) (answer n) =
          .ok (answer n (ρ.image (m.frame.maskOf hs))) := by
    rw [MassFunction.ask_list _ hsub, MassFunction.ask_list _ (ρ.map_subset hsub), ρ.maskOf_map hsub]
    exact ⟨rfl, rfl⟩
  constructor
  · intro h A hA
    have hsub := elements_subset (f := m.frame) A
    have hmask : m.frame.maskOf (Event.mk m.frame A).elements = A :=
      Event.maskOf_elements (e := ⟨m.frame, A⟩) hA
    obtain ⟨x, hx, hy⟩ := h _ hsub
    rw [← hmask]
    exact Except.ok.inj ((hanswers hsub).2.symm.trans (hy.trans (hx.symm.trans (hanswers hsub).1)))
  · intro h hs hsub
    refine ⟨_, (hanswers hsub).1, ?_⟩
    rw [← h _ (Frame.within_maskOf hsub)]
    exact (hanswers hsub).2

theorem moved_of_agrees {m n : MassFunction ℚ} (hm : m.Valid) (hn : n.Valid) (hf : m.frame = f)
    (hg : n.frame = g) (h : ρ.Agrees MassFunction.mass m n) :
    MassFunction.Moved f g ρ.image m n := by
  have hfirst : m.masses.Supported f := hf ▸ hm.supported
  have hsecond : n.masses.Supported g := hg ▸ hn.supported
  refine ⟨⟨hf, hg⟩, hfirst, hsecond, fun G => ?_⟩
  -- both sums run over all masks inside the first frame, as the images are all there are in the other
  have hmass := (ρ.agrees_iff hf hg MassFunction.massOf).1 h
  have hold : ∀ A ∈ m.masses.keys, A ∈ f.masks := fun A hA =>
    Frame.mem_masks.2 (hfirst.key_within hA)
  have hnew : ∀ B ∈ n.masses.keys, B ∈ f.masks.image ρ.image := by
    intro B hB
    obtain ⟨A, hA, rfl⟩ := ρ.exists_image (hsecond.key_within hB)
    exact Finset.mem_image_of_mem _ (Frame.mem_masks.2 hA)
  have hinj : Set.InjOn ρ.image f.masks := fun A hA B hB =>
    ρ.image_inj (Frame.mem_masks.1 hA) (Frame.mem_masks.1 hB)
  rw [Tally.integral_eq_sum hn.distinct hnew, Tally.integral_eq_sum hm.distinct hold,
    Finset.sum_image hinj]
  refine Finset.sum_congr rfl fun A hA => congrArg (G (ρ.image A) * ·) ?_
  exact hmass A (Frame.mem_masks.1 hA)

theorem renamed_of_moved {c d : Combination ℚ} (h : Combination.Moved f g ρ.image c d)
    (hc : c.mass.Valid) (hd : d.mass.Valid) : ρ.Renamed c d := by
  obtain ⟨hmass, hε, hconflict⟩ := h
  obtain ⟨hf, hg⟩ := hmass.frames
  refine ⟨hconflict, hε, (ρ.agrees_iff hf hg MassFunction.massOf).2 fun A hA => hmass.massOf_image hA,
    (ρ.agrees_iff hf hg MassFunction.beliefOf).2 fun A _ => hmass.beliefOf_image A,
    (ρ.agrees_iff hf hg MassFunction.plausibilityOf).2 fun A _ => hmass.plausibilityOf_image A,
    _, _, hc.pignistic_eq, hd.pignistic_eq, ?_⟩
  rw [hf, hg]
  exact hmass.pignistic_perm

theorem agrees_simple {A : Mask} (hA : A.within f.size = true) (x : ℚ) :
    ρ.Agrees MassFunction.mass (.simple f A x) (.simple g (ρ.image A) x) := by
  refine (ρ.agrees_iff rfl rfl MassFunction.massOf).2 fun B hB => ?_
  have hfocal : ρ.image A = ρ.image B ↔ A = B := ⟨ρ.image_inj hA hB, congrArg ρ.image⟩
  have hfull : g.full = ρ.image B ↔ f.full = B := by
    rw [← ρ.image_full]
    exact ⟨ρ.image_inj (Mask.within_full _) hB, congrArg ρ.image⟩
  simp only [MassFunction.massOf, MassFunction.simple, Tally.amount_cons, Tally.amount_nil, hfocal,
    hfull]

end Renaming

namespace Combination

variable {f g : Frame} (ρ : Renaming f g)

section Choices

variable {ms : List Mask} (hne : ms ≠ []) (hin : ∀ A ∈ ms, A.within f.size = true)
include hne hin

theorem meet_image_eq_empty_iff : Mask.meet (ms.map ρ.image) = .empty ↔ Mask.meet ms = .empty := by
  rw [ρ.image_meet hne, ρ.image_eq_empty_iff (Mask.within_meet hin hne)]

theorem landing_image (r : Rule) :
    landing r g (ms.map ρ.image) = ρ.image (landing r f ms) := by
  unfold landing
  simp only [meet_image_eq_empty_iff ρ hne hin]
  split_ifs
  · cases r with
    | dempster => exact ρ.image_empty.symm
    | yager => exact ρ.image_full.symm
    | duboisPrade => exact ρ.image_join ms
  · exact ρ.image_meet hne

theorem share_image (r : Rule) (K : ℚ) : share r K (ms.map ρ.image) = share r K ms := by
  cases r with
  | dempster => simp only [share, meet_image_eq_empty_iff ρ hne hin]
  | yager | duboisPrade => rfl

end Choices

section Sources

variable {xs ys : List (MassFunction ℚ)} (hx : SharedFrame f xs) (hy : SharedFrame g ys)
  (h : List.Forall₂ (ρ.Agrees MassFunction.mass) xs ys)
include hx hy h

theorem carried_sources :
    List.Forall₂ (Tally.Carried ρ.image) (xs.map (·.masses)) (ys.map (·.masses)) :=
  MassFunction.carried_of_forall₂ h fun m hm n hn hmn => (ρ.moved_of_agrees (hx.valid m hm)
    (hy.valid n hn) (hx.frame m hm) (hy.frame n hn) hmn).masses

theorem conflictMass_renamed (hne : xs ≠ []) : conflictMass ys = conflictMass xs := by
  unfold conflictMass weightWhere
  rw [Choices.integral_forall₂ (carried_sources ρ hx hy h)]
  refine Choices.integral_congr fun ms hms => ?_
  obtain ⟨hms, hin⟩ := Conjunction.choice_within hne hx.key_within hms
  simp only [meet_image_eq_empty_iff ρ hms hin]

/-- Whatever rule assigns the masses of the renamed sources, it assigns the masses of the first ones,
moved. -/
theorem assigned_renamed (hxne : xs ≠ []) (hyne : ys ≠ []) (r : Rule) :
    Tally.Carried ρ.image (assigned r f xs) (assigned r g ys) := by
  intro G
  rw [integral_assign hx hxne, integral_assign hy hyne, conflictMass_renamed ρ hx hy h hxne,
    Choices.integral_forall₂ (carried_sources ρ hx hy h)]
  refine Choices.integral_congr fun ms hms => ?_
  obtain ⟨hms, hin⟩ := Conjunction.choice_within hxne hx.key_within hms
  rw [share_image ρ hms hin, landing_image ρ hms hin]

/-- Renamed sources fail as the first ones do, or else the combination is renamed. -/
theorem ofSources_renamed (two : 2 ≤ xs.length) (rule : RuleChoice ℚ) (options : DriftOptions ℚ) :
    Corresponds f g ρ.Renamed (ofSources xs rule options) (ofSources ys rule options) := by
  have twoy : 2 ≤ ys.length := h.length_eq ▸ two
  cases rule with
  | unknown got =>
      obtain ⟨e, hex, hey⟩ := ofSources_unknown_eq hx.frame hy.frame two twoy got options
      rw [hex, hey]
      exact .failure e
  | rule r =>
      have hxne : xs ≠ [] := List.ne_nil_of_length_pos (by omega)
      have hyne : ys ≠ [] := List.ne_nil_of_length_pos (by omega)
      have hmoved := ofSources_corresponds hx hy Iff.rfl (conflictMass_renamed ρ hx hy h hxne).symm
        (fun A B hA hB => ρ.image_inj hA hB) (assigned_renamed ρ hx hy h hxne hyne r) two twoy options
      exact hmoved.imp fun c d hc hd hcd => ρ.renamed_of_moved hcd
        (MassFunction.valid_of_ofSources hx.valid hc) (MassFunction.valid_of_ofSources hy.valid hd)

end Sources

def renamedFrame : Frame where
  elements := [.number 5, .number 7]
  sorted := by decide
  valid := by decide
  distinct := by decide
  nonempty := by decide

def crossed : Renaming .binary renamedFrame where
  rename h := if h = .number 0 then .number 7 else .number 5
  inj := by decide
  onto k := by simp [Frame.binary, renamedFrame, eq_comm, or_comm]

theorem renamed_opposed :
    ∃ c d, ofSources (MassFunction.opposed (1 / 2) (1 / 3)) (.rule .duboisPrade)
        (.fields .absent .absent) = .ok c ∧
      ofSources [.simple renamedFrame (.finite 2) (1 / 2), .simple renamedFrame (.finite 1) (1 / 3)]
        (.rule .duboisPrade) (.fields .absent .absent) = .ok d ∧ crossed.Renamed c d := by
  have hfirst : crossed.image (.finite 1) = .finite 2 := by decide
  have hsecond : crossed.image (.finite 2) = .finite 1 := by decide
  have hagrees := List.Forall₂.cons (crossed.agrees_simple (A := .finite 1) (by decide) (1 / 2))
    (.cons (crossed.agrees_simple (A := .finite 2) (by decide) (1 / 3)) .nil)
  rw [hfirst, hsecond] at hagrees
  have hvalid {A : Mask} (hA : A ≠ .empty) (hin : A.within renamedFrame.size = true)
      (hfull : A ≠ renamedFrame.full) {x : ℚ} (hx : 0 < x ∧ x < 1) :
      (MassFunction.simple renamedFrame A x).Valid :=
    MassFunction.valid_simple hA hin hfull hx.1 hx.2
  have hnew : SharedFrame renamedFrame
      [.simple renamedFrame (.finite 2) (1 / 2), .simple renamedFrame (.finite 1) (1 / 3)] :=
    .pair (hvalid (by decide) (by decide) (by decide) (by norm_num))
      (hvalid (by decide) (by decide) (by decide) (by norm_num)) rfl
  have hsame := ofSources_renamed crossed
    (MassFunction.shared_opposed (by norm_num) (by norm_num)) hnew hagrees (by decide)
    (.rule .duboisPrade) (.fields .absent .absent)
  obtain ⟨c, hc⟩ := Outcome.exists_of_toBool (x := ofSources (MassFunction.opposed (1 / 2) (1 / 3))
    (.rule .duboisPrade) (.fields .absent .absent)) (by decide +kernel)
  obtain ⟨d, hd, hcd⟩ := (hc ▸ hsame).exists_of_ok
  exact ⟨c, d, hc, hd, hcd⟩

end Combination

end Evidence
