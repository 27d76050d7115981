import Mathlib
import Evidence.Proofs.Averaging
import Evidence.Proofs.SourceOrder

namespace Evidence

theorem mean_perm {xs ys : List ℚ} (h : xs.Perm ys) : mean xs = mean ys := by
  rw [mean, mean, h.sum_eq, h.length_eq]

namespace MassFunction

/-- Any source can come first, among them one with the widest tolerance. -/
theorem exists_widest_first {xs : List (MassFunction ℚ)} (hne : xs ≠ []) :
    ∃ first rest, xs.Perm (first :: rest) ∧ ∀ m ∈ xs, m.epsilon ≤ first.epsilon := by
  have hsome : xs.argmax (·.epsilon) ≠ none := mt List.argmax_eq_none.1 hne
  obtain ⟨first, hfirst⟩ := Option.ne_none_iff_exists'.1 hsome
  obtain ⟨before, after, hxs⟩ := List.append_of_mem (List.argmax_mem hfirst)
  refine ⟨first, before ++ after, hxs ▸ List.perm_middle, fun m hm => ?_⟩
  exact List.le_of_mem_argmax hm hfirst

section Order

variable {f : Frame} {xs : List (MassFunction ℚ)} (h : SharedFrame f xs)
include h

theorem average_same {ys : List (MassFunction ℚ)} (hperm : xs.Perm ys) {a b : MassFunction ℚ}
    (ha : average xs = .ok a) (hb : average ys = .ok b) : SameEvidence a b := by
  have hy := h.perm hperm
  obtain ⟨hfa, hma⟩ := masses_of_average h ha
  obtain ⟨hfb, hmb⟩ := masses_of_average hy hb
  refine ⟨hfa.trans hfb.symm, fun A => ?_⟩
  rw [massOf, massOf, hma, hmb, amount_meanMasses h, amount_meanMasses hy]
  exact mean_perm (hperm.map _)

/-- Wherever the means of two orders exist they are the same evidence. An order has a mean just when
the total of it is within the tolerance of the source that comes first. Some order always has one,
and all have one just when every source allows the total, as sources of one tolerance do. -/
theorem average_order {ys : List (MassFunction ℚ)} (hperm : xs.Perm ys) (hne : ys ≠ []) :
    let gap := |mean (xs.map (·.total)) - 1|
    (∀ a b, average xs = .ok a → average ys = .ok b → SameEvidence a b) ∧
    ((∃ b, average ys = .ok b) ↔ gap ≤ (ys.head hne).epsilon) ∧
    (Outcome.FailsWith .unnormalizedMass (average ys) ↔ (ys.head hne).epsilon < gap) ∧
    (∃ zs, xs.Perm zs ∧ ∃ c, average zs = .ok c) ∧
    ((∀ zs, xs.Perm zs → ∃ c, average zs = .ok c) ↔ ∀ m ∈ xs, gap ≤ m.epsilon) ∧
    ((∀ m ∈ xs, ∀ n ∈ xs, m.epsilon = n.epsilon) → ∀ m ∈ xs, gap ≤ m.epsilon) := by
  intro gap
  have hxs : xs ≠ [] := fun hnil => hne (List.nil_perm.1 (hnil ▸ hperm))
  have hgap {zs : List (MassFunction ℚ)} (hzs : xs.Perm zs) :
      |mean (zs.map (·.total)) - 1| = gap := by rw [← mean_perm (hzs.map _)]
  have hexists {first rest} (hzs : xs.Perm (first :: rest)) :
      (∃ c, average (first :: rest) = .ok c) ↔ gap ≤ first.epsilon := by
    rw [exists_average_iff (h.perm hzs), hgap hzs]
  refine ⟨fun a b => average_same h hperm, ?_, ?_, ?_, ?_, fun hequal m hm => ?_⟩
  · obtain ⟨first, rest, rfl⟩ := List.exists_cons_of_ne_nil hne
    exact hexists hperm
  · obtain ⟨first, rest, rfl⟩ := List.exists_cons_of_ne_nil hne
    rw [average_unnormalized_iff (h.perm hperm), hgap hperm]
    rfl
  · obtain ⟨first, rest, hzs, hwidest⟩ := exists_widest_first hxs
    exact ⟨_, hzs, (hexists hzs).2 (mean_total_near h hxs hwidest)⟩
  · constructor
    · intro hall m hm
      obtain ⟨before, after, rfl⟩ := List.append_of_mem hm
      exact (hexists List.perm_middle).1 (hall _ List.perm_middle)
    · intro hall zs hzs
      cases zs with
      | nil => exact absurd (List.perm_nil.1 hzs) hxs
      | cons first rest =>
          exact (hexists hzs).2 (hall first (hzs.mem_iff.2 (List.mem_cons_self ..)))
  · exact mean_total_near h hxs fun n hn => (hequal n hn m hm).le

end Order

theorem average_order_opposed : ∃ a b, average (opposed (1 / 2) (1 / 3)) = .ok a ∧
    average (opposed (1 / 2) (1 / 3)).reverse = .ok b ∧ SameEvidence a b := by
  have hshared : SharedFrame .binary (opposed (1 / 2) (1 / 3)) :=
    shared_opposed (by norm_num) (by norm_num)
  obtain ⟨hsame, -, -, -, hall, hequal⟩ :=
    average_order hshared (List.reverse_perm _).symm (List.cons_ne_nil _ _)
  have hexists := hall.2 (hequal (by simp [opposed, simple]))
  obtain ⟨a, ha⟩ := hexists _ (List.Perm.refl _)
  obtain ⟨b, hb⟩ := hexists _ (List.reverse_perm _).symm
  exact ⟨a, b, ha, hb, hsame a b ha hb⟩

def lenient : MassFunction ℚ :=
  ⟨.binary, [(.finite 1, 1 / 2), (.finite 2, 101 / 200)], 1 / 100⟩

/-- The mean with a strict source can be had if the lenient one comes first, and not if the strict
one does. -/
theorem average_order_lenient :
    let strict : MassFunction ℚ := simple .binary (.finite 1) (1 / 2)
    lenient.Valid ∧ strict.Valid ∧ lenient.frame = strict.frame ∧
      (∃ a, average [lenient, strict] = .ok a) ∧
      Outcome.FailsWith .unnormalizedMass (average [strict, lenient]) := by
  intro strict
  have hlenient : lenient.Valid :=
    ⟨by decide, by decide, by decide +kernel, by decide +kernel, by decide +kernel⟩
  have hstrict : strict.Valid :=
    valid_simple (by decide) (by decide) (by decide) (by norm_num) (by norm_num)
  have htotal : lenient.total = 201 / 200 := by norm_num [lenient, total, Tally.total_eq_integral]
  have hone : strict.total = 1 := total_simple ..
  refine ⟨hlenient, hstrict, rfl, ?_, ?_⟩
  · rw [exists_average_iff (.pair hlenient hstrict rfl)]
    simp only [List.map_cons, List.map_nil, htotal, hone, mean]
    norm_num [lenient]
  · rw [average_unnormalized_iff (.pair hstrict hlenient rfl)]
    simp only [List.map_cons, List.map_nil, htotal, hone, mean]
    norm_num [strict, simple, defaultEpsilon_eq]

end MassFunction

end Evidence
