import Mathlib
import Evidence.Proofs.EventAlgebra
import Evidence.Proofs.Simple

namespace Evidence

namespace Tally

variable {α : Type} [Scalar α] {t : Tally Mask α} {p q : Mask → Bool}

theorem totalOf_congr (h : ∀ A ∈ t.keys, p A = q A) : t.totalOf p = t.totalOf q := by
  rw [totalOf, List.filter_congr fun e he => h e.1 (List.mem_map_of_mem he)]
  rfl

theorem totalOf_eq_total (h : ∀ A ∈ t.keys, p A = true) : t.totalOf p = t.total := by
  rw [totalOf, List.filter_eq_self.2 fun e he => h e.1 (List.mem_map_of_mem he)]
  rfl

theorem totalOf_eq_zero (h : ∀ A ∈ t.keys, p A = false) : t.totalOf p = 0 := by
  rw [totalOf, List.filter_eq_nil_iff.2 fun e he => ?_]
  · rfl
  · rw [h e.1 (List.mem_map_of_mem he)]
    exact Bool.false_ne_true

end Tally

def Designation.Names {α : Type} [Scalar α] (f : Frame) (d : Designation α)
    (S : Finset Hypothesis) : Prop :=
  ∃ A, d.find f = .ok ⟨f, A⟩ ∧ (Event.mk f A).members = S

theorem Designation.Names.subset {α : Type} [Scalar α] {f : Frame} {d : Designation α}
    {S : Finset Hypothesis} (h : d.Names f S) : S ⊆ f.elements.toFinset := by
  obtain ⟨A, -, rfl⟩ := h
  exact Event.members_subset _

theorem Event.Inside.names {α : Type} [Scalar α] {f : Frame} {e : Event} (h : Inside f e) :
    (Designation.event e : Designation α).Names f e.members := by
  obtain ⟨A, rfl, -⟩ := h.exists_mask
  exact ⟨A, congrArg Failure.ofFault (if_pos rfl), rfl⟩

namespace MassFunction

section Sets

variable {α : Type} [Scalar α] (m : MassFunction α)

def beliefIn (S : Finset Hypothesis) : α :=
  m.masses.totalOf fun A => (Event.mk m.frame A).members ⊆ S

def plausibilityIn (S : Finset Hypothesis) : α :=
  m.masses.totalOf fun A => ((Event.mk m.frame A).members ∩ S).Nonempty

theorem beliefIn_frame : m.beliefIn m.frame.elements.toFinset = m.total :=
  Tally.totalOf_eq_total fun _ _ => decide_eq_true (Event.members_subset _)

theorem plausibilityIn_empty : m.plausibilityIn ∅ = 0 := by
  refine Tally.totalOf_eq_zero fun A _ => decide_eq_false ?_
  rw [Finset.inter_empty]
  exact Finset.not_nonempty_empty

variable {m} (h : m.Valid)
include h

theorem Valid.within_of_mem {A : Mask} (hA : A ∈ m.masses.keys) :
    A.within m.frame.size = true := by
  obtain ⟨e, he, rfl⟩ := List.mem_map.1 hA
  exact (h.inside e he).2

theorem Valid.members_nonempty {A : Mask} (hA : A ∈ m.masses.keys) :
    (Event.mk m.frame A).members.Nonempty := by
  have hwithin := h.within_of_mem hA
  obtain ⟨e, he, rfl⟩ := List.mem_map.1 hA
  rw [Finset.nonempty_iff_ne_empty, Ne, ← Event.mask_eq_empty_iff hwithin]
  exact (h.inside e he).1

theorem Valid.answers {d : Designation α} {S : Finset Hypothesis} (hd : d.Names m.frame S) :
    m.belief d = .ok (m.beliefIn S) ∧ m.plausibility d = .ok (m.plausibilityIn S) ∧
      m.interval d = .ok (m.beliefIn S, m.plausibilityIn S) := by
  obtain ⟨A, hfind, rfl⟩ := hd
  have hask {β : Type} (answer : Mask → β) : m.ask d answer = .ok (answer A) := by
    rw [ask, hfind]
    rfl
  have hbelief : m.beliefOf A = m.beliefIn (Event.mk m.frame A).members :=
    Tally.totalOf_congr fun k hk => Event.diff_beq_empty (h.within_of_mem hk)
  have hplausibility : m.plausibilityOf A = m.plausibilityIn (Event.mk m.frame A).members :=
    Tally.totalOf_congr fun k hk => Event.inter_bne_empty (h.within_of_mem hk)
  rw [← hbelief, ← hplausibility]
  exact ⟨hask _, hask _, hask _⟩

theorem Valid.plausibilityIn_frame : m.plausibilityIn m.frame.elements.toFinset = m.total := by
  refine Tally.totalOf_eq_total fun A hA => decide_eq_true ?_
  rw [Finset.inter_eq_left.2 (Event.members_subset _)]
  exact h.members_nonempty hA

theorem Valid.beliefIn_empty : m.beliefIn ∅ = 0 := by
  refine Tally.totalOf_eq_zero fun A hA => decide_eq_false ?_
  rw [Finset.subset_empty]
  exact (h.members_nonempty hA).ne_empty

end Sets

section Exact

variable (m : MassFunction ℚ)

theorem beliefIn_eq_integral (S : Finset Hypothesis) : m.beliefIn S =
    m.masses.integral fun A => if (Event.mk m.frame A).members ⊆ S then 1 else 0 := by
  simp only [beliefIn, Tally.totalOf_eq_integral, decide_eq_true_iff]

theorem plausibilityIn_eq_integral (S : Finset Hypothesis) : m.plausibilityIn S =
    m.masses.integral fun A => if ((Event.mk m.frame A).members ∩ S).Nonempty then 1 else 0 := by
  simp only [plausibilityIn, Tally.totalOf_eq_integral, decide_eq_true_iff]

theorem plausibilityIn_eq (S : Finset Hypothesis) :
    m.plausibilityIn S = m.total - m.beliefIn (m.frame.elements.toFinset \ S) := by
  have hmeet (A : Mask) : ((Event.mk m.frame A).members ∩ S).Nonempty ↔
      ¬ (Event.mk m.frame A).members ⊆ m.frame.elements.toFinset \ S := by
    rw [Finset.subset_sdiff, and_iff_right (Event.members_subset _),
      Finset.not_disjoint_iff_nonempty_inter]
  rw [eq_sub_iff_add_eq, plausibilityIn_eq_integral, beliefIn_eq_integral, total,
    Tally.total_eq_integral, ← Tally.integral_plus]
  refine Tally.integral_congr fun A _ => ?_
  simp only [hmeet]
  by_cases hA : (Event.mk m.frame A).members ⊆ m.frame.elements.toFinset \ S
  · rw [if_neg (not_not.2 hA), if_pos hA, zero_add]
  · rw [if_pos hA, if_neg hA, add_zero]

variable {m} (h : m.Valid)
include h

/-- An event inside two sets is inside their intersection, and one inside either of them is inside
their union. -/
theorem Valid.beliefIn_supermodular (S T : Finset Hypothesis) :
    m.beliefIn S + m.beliefIn T ≤ m.beliefIn (S ∪ T) + m.beliefIn (S ∩ T) := by
  have hpos : ∀ e ∈ m.masses, 0 ≤ e.2 := fun e he => (h.positive e he).1.le
  simp only [beliefIn_eq_integral, ← Tally.integral_plus]
  refine Tally.integral_mono hpos fun A _ => ?_
  generalize (Event.mk m.frame A).members = K
  by_cases hS : K ⊆ S
  · have hunion : K ⊆ S ∪ T := hS.trans Finset.subset_union_left
    simp [hS, hunion, Finset.subset_inter_iff]
  · by_cases hT : K ⊆ T
    · have hunion : K ⊆ S ∪ T := hT.trans Finset.subset_union_right
      simp [hS, hT, hunion, Finset.subset_inter_iff]
    · have hnonneg : (0 : ℚ) ≤ if K ⊆ S ∪ T then 1 else 0 := by positivity
      simpa [hS, hT, Finset.subset_inter_iff] using hnonneg

theorem Valid.plausibilityIn_submodular (S T : Finset Hypothesis) :
    m.plausibilityIn (S ∪ T) + m.plausibilityIn (S ∩ T) ≤
      m.plausibilityIn S + m.plausibilityIn T := by
  have hcomplements := h.beliefIn_supermodular (m.frame.elements.toFinset \ S)
    (m.frame.elements.toFinset \ T)
  rw [← Finset.sdiff_inter_distrib_right, ← Finset.sdiff_union_distrib] at hcomplements
  simp only [m.plausibilityIn_eq]
  linarith

/-- Every set of hypotheses of the frame is that of an event, and belief and plausibility depend on
nothing but the set that is asked about. The plausibility of a set is what belief in its complement
leaves of the total, everything is believed to this amount and nothing to none, belief is
supermodular and plausibility submodular. -/
theorem Valid.dual_capacities :
    (∀ S ⊆ m.frame.elements.toFinset, ∃ e, Event.Inside m.frame e ∧
      (Designation.event e : Designation ℚ).Names m.frame S) ∧
    (∀ (d : Designation ℚ) S, d.Names m.frame S → m.belief d = .ok (m.beliefIn S) ∧
      m.plausibility d = .ok (m.plausibilityIn S) ∧
      m.interval d = .ok (m.beliefIn S, m.plausibilityIn S)) ∧
    (∀ S, m.plausibilityIn S = m.total - m.beliefIn (m.frame.elements.toFinset \ S)) ∧
    m.beliefIn m.frame.elements.toFinset = m.total ∧
    m.plausibilityIn m.frame.elements.toFinset = m.total ∧
    m.beliefIn ∅ = 0 ∧ m.plausibilityIn ∅ = 0 ∧
    (∀ S T, m.beliefIn S + m.beliefIn T ≤ m.beliefIn (S ∪ T) + m.beliefIn (S ∩ T)) ∧
    ∀ S T, m.plausibilityIn (S ∪ T) + m.plausibilityIn (S ∩ T) ≤
      m.plausibilityIn S + m.plausibilityIn T := by
  refine ⟨fun S hS => ?_, fun d S hd => h.answers hd, m.plausibilityIn_eq, m.beliefIn_frame,
    h.plausibilityIn_frame, h.beliefIn_empty, m.plausibilityIn_empty, h.beliefIn_supermodular,
    h.plausibilityIn_submodular⟩
  obtain ⟨e, ⟨he, rfl⟩, -⟩ := Event.existsUnique_members hS
  exact ⟨e, he, he.names⟩

end Exact

def leaning : MassFunction ℚ := simple .binary (.finite 1) (3 / 10)

/-- The second hypothesis is plausible as far as the first one is not believed, and both together
are believed more than one by one. -/
theorem Valid.dual_capacities_leaning : leaning.Valid ∧
    leaning.plausibility (.single (.ofNat 1)) = .ok (7 / 10) ∧
    leaning.belief (.list [.ofNat 1, .ofNat 0]) = .ok 1 ∧
    leaning.beliefIn {.number 0} + leaning.beliefIn {.number 1} < leaning.total := by
  have hvalid : leaning.Valid :=
    valid_simple (by decide) (by decide) (by decide) (by norm_num) (by norm_num)
  have hfirst : (Event.mk .binary (.finite 1)).members = {.number 0} := by decide
  have hboth : (Event.mk .binary Frame.binary.full).members = {.number 0, .number 1} := by decide
  have hbelief : leaning.beliefIn {.number 0} = 3 / 10 := by
    have hne : ({.number 0, .number 1} : Finset Hypothesis) ≠ {.number 0} := by decide
    simp [beliefIn, leaning, simple, Tally.totalOf_eq_integral, hfirst, hboth, hne]
  have hnone : leaning.beliefIn {.number 1} = 0 := by
    have hne : ({.number 0, .number 1} : Finset Hypothesis) ≠ {.number 1} := by decide
    simp [beliefIn, leaning, simple, Tally.totalOf_eq_integral, hfirst, hboth, hne]
  have htotal : leaning.total = 1 := total_simple ..
  have hrest : leaning.frame.elements.toFinset \ {.number 1} = {.number 0} := by decide
  obtain ⟨-, hanswers, hdual, hwhole, -⟩ := hvalid.dual_capacities
  obtain ⟨-, hpl, -⟩ := hanswers (.single (.ofNat 1)) {.number 1} ⟨.finite 2, rfl, by decide⟩
  obtain ⟨hbelieved, -⟩ := hanswers (.list [.ofNat 1, .ofNat 0]) _ ⟨.finite 3, rfl, rfl⟩
  refine ⟨hvalid, ?_, hbelieved.trans (congrArg Except.ok (hwhole.trans htotal)), ?_⟩
  · rw [hpl, hdual, htotal, hrest, hbelief]
    norm_num
  · rw [hbelief, hnone, htotal]
    norm_num

end MassFunction

end Evidence
