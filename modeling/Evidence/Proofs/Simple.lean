import Mathlib
import Evidence.Proofs.Combining

namespace Evidence

def Frame.binary : Frame where
  elements := [.number 0, .number 1]
  sorted := by decide
  valid := by decide
  distinct := by decide
  nonempty := by decide

namespace MassFunction

theorem total_certain (f : Frame) (A : Mask) (x ε : ℚ) :
    (⟨f, [(A, x)], ε⟩ : MassFunction ℚ).total = x := by
  simp [total, Tally.total_eq_integral]

theorem valid_certain {f : Frame} {A : Mask} (hA : A ≠ .empty) (hin : A.within f.size = true)
    {x ε : ℚ} (hx : 0 < x ∧ x ≤ 1) (hε : 0 < ε ∧ ε < 0.1) (hnormal : |x - 1| ≤ ε) :
    (⟨f, [(A, x)], ε⟩ : MassFunction ℚ).Valid where
  inside := List.forall_mem_singleton.2 ⟨hA, hin⟩
  distinct := List.nodup_singleton _
  positive := List.forall_mem_singleton.2 hx
  tolerance := hε
  normalized := by
    have htotal : Tally.total [(A, x)] = x := total_certain f A x ε
    rw [distance_eq, htotal]
    exact hnormal

def simple (f : Frame) (A : Mask) (x : ℚ) : MassFunction ℚ :=
  ⟨f, [(A, x), (f.full, 1 - x)], defaultEpsilon⟩

theorem total_simple (f : Frame) (A : Mask) (x : ℚ) : (simple f A x).masses.total = 1 := by
  simp [simple, Tally.total_eq_integral]

theorem valid_simple {f : Frame} {A : Mask} (hA : A ≠ .empty) (hin : A.within f.size = true)
    (hfull : A ≠ f.full) {x : ℚ} (h0 : 0 < x) (h1 : x < 1) : (simple f A x).Valid where
  inside e he := by
    rcases List.mem_cons.1 he with rfl | he
    · exact ⟨hA, hin⟩
    · obtain rfl := List.mem_singleton.1 he
      exact ⟨f.full_ne_empty, Mask.within_full _⟩
  distinct := by simpa [simple, Tally.keys] using hfull
  positive e he := by
    rcases List.mem_cons.1 he with rfl | he
    · exact ⟨h0, h1.le⟩
    · obtain rfl := List.mem_singleton.1 he
      exact ⟨sub_pos.2 h1, sub_le_self 1 h0.le⟩
  tolerance := by
    constructor
    · norm_num [simple, defaultEpsilon_eq]
    · norm_num [simple, defaultEpsilon_eq]
  normalized := by
    rw [distance_eq, total_simple]
    norm_num [simple, defaultEpsilon_eq]

def opposed (x y : ℚ) : List (MassFunction ℚ) :=
  [simple .binary (.finite 1) x, simple .binary (.finite 2) y]

section Opposed

variable {x y : ℚ}

theorem valid_opposed (hx : 0 < x ∧ x < 1) (hy : 0 < y ∧ y < 1) : ∀ m ∈ opposed x y, m.Valid := by
  refine List.forall_mem_cons.2 ⟨?_, List.forall_mem_singleton.2 ?_⟩
  · exact valid_simple (by decide) (by decide) (by decide) hx.1 hx.2
  · exact valid_simple (by decide) (by decide) (by decide) hy.1 hy.2

theorem shared_opposed (hx : 0 < x ∧ x < 1) (hy : 0 < y ∧ y < 1) :
    SharedFrame .binary (opposed x y) where
  valid := valid_opposed hx hy
  frame := List.forall_mem_cons.2 ⟨rfl, List.forall_mem_singleton.2 rfl⟩

theorem total_opposed (x y : ℚ) : ∀ m ∈ opposed x y, m.masses.total = 1 :=
  List.forall_mem_cons.2 ⟨total_simple _ _ x, List.forall_mem_singleton.2 (total_simple _ _ y)⟩

theorem exists_ofSources_opposed :
    ∃ c, Combination.ofSources (opposed (1 / 2) (1 / 2)) (.rule .dempster) (.fields .absent .absent) =
      .ok c := by
  have hok : (Combination.ofSources (opposed (1 / 2) (1 / 2)) (.rule .dempster)
      (.fields .absent .absent)).toBool = true := by decide +kernel
  cases hc : Combination.ofSources (opposed (1 / 2) (1 / 2)) (.rule .dempster)
      (.fields .absent .absent) with
  | ok c => exact ⟨c, rfl⟩
  | error e =>
      rw [hc] at hok
      cases hok

end Opposed

end MassFunction

theorem Combination.conflictMass_opposed (x y : ℚ) :
    conflictMass (MassFunction.opposed x y) = x * y := by
  have hboth : Mask.meet [.finite 1, .finite 2] = .empty := by decide
  have hfirst : ¬ Mask.meet [.finite 1, Frame.binary.full] = .empty := by decide
  have hsecond : ¬ Mask.meet [Frame.binary.full, .finite 2] = .empty := by decide
  have hneither : ¬ Mask.meet [Frame.binary.full, Frame.binary.full] = .empty := by decide
  simp [conflictMass, weightWhere, Choices.integral_cons, MassFunction.opposed, MassFunction.simple,
    hboth, hfirst, hsecond, hneither, mul_comm]

end Evidence
