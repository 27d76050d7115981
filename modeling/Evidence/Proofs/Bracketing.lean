import Mathlib
import Evidence.Proofs.Dempster

namespace Evidence

open Combination

inductive Bracketing where
  | leaf (m : MassFunction ℚ)
  | node (left right : Bracketing)

namespace Bracketing

def leaves : Bracketing → List (MassFunction ℚ)
  | leaf m => [m]
  | node l r => l.leaves ++ r.leaves

def fuse (options : DriftOptions ℚ) : Bracketing → Except (Failure ℚ) (MassFunction ℚ)
  | leaf m => .ok m
  | node l r => do
      let m ← l.fuse options
      let n ← r.fuse options
      let c ← ofSources [m, n] (.rule .dempster) options
      .ok c.mass

theorem leaves_ne_nil (b : Bracketing) : b.leaves ≠ [] := by
  induction b with
  | leaf m => exact List.cons_ne_nil m []
  | node l r ihl _ => exact List.append_ne_nil_of_left_ne_nil ihl _

end Bracketing

namespace Combination

section Split

variable {f : Frame} {xs ys : List (MassFunction ℚ)} (h : ExactFrame f (xs ++ ys))
  (hx : xs ≠ []) (hy : ys ≠ []) {options : DriftOptions ℚ} {ε : ℚ} {v : Value ℚ}
  (ht : options.resolve = .ok ⟨.finite ε, v⟩) (h0 : 0 < ε) (h1 : ε < 1 / 10)
  (hK : conflictMass (xs ++ ys) < 1 - ε)
include h hK

theorem conflictMass_lt_of_append : conflictMass xs < 1 - ε ∧ conflictMass ys < 1 - ε := by
  have hswap : conflictMass (ys ++ xs) = conflictMass (xs ++ ys) :=
    conflictMass_perm List.perm_append_comm
  have hexact : ExactFrame f (ys ++ xs) := ExactFrame.append_iff.2 (ExactFrame.append_iff.1 h).symm
  constructor
  · exact (conflictMass_le_append h).trans_lt hK
  · exact ((conflictMass_le_append hexact).trans_eq hswap).trans_lt hK

include ht h0 h1

theorem exists_fused_pair {m n : MassFunction ℚ} (hm : Fused f xs m) (hn : Fused f ys n) :
    ∃ c, ofSources [m, n] (.rule .dempster) options = .ok c ∧ Fused f (xs ++ ys) c.mass ∧
      1 - conflictMass (xs ++ ys) =
        (1 - conflictMass xs) * (1 - conflictMass ys) * (1 - c.conflict) := by
  obtain ⟨hxs, hys⟩ := ExactFrame.append_iff.1 h
  have hle := conflictMass_pair_le hxs hys hm hn
  obtain ⟨c, hc, hfused, hconflict⟩ :=
    exists_fused (hm.pair hn) (List.cons_ne_nil _ _) ht h0 h1 (hle.trans_lt hK)
  refine ⟨c, hc, hm.append hxs hys hn hfused, ?_⟩
  rw [hconflict]
  exact agreement_append hxs hys hm hn

end Split

/-- What any bracketing makes of exact sources stands for all of them. -/
theorem fused_fuse {f : Frame} {options : DriftOptions ℚ} {ε : ℚ} {v : Value ℚ}
    (ht : options.resolve = .ok ⟨.finite ε, v⟩) (h0 : 0 < ε) (h1 : ε < 1 / 10) (b : Bracketing)
    (h : ExactFrame f b.leaves) (hK : conflictMass b.leaves < 1 - ε) :
    ∃ m, b.fuse options = .ok m ∧ Fused f b.leaves m := by
  induction b with
  | leaf m => exact ⟨m, rfl, .singleton h⟩
  | node l r ihl ihr =>
      obtain ⟨hl, hr⟩ := ExactFrame.append_iff.1 h
      -- neither half contradicts itself more than all leaves do, so no step is refused
      obtain ⟨hKl, hKr⟩ := conflictMass_lt_of_append h hK
      obtain ⟨m, hm, hfm⟩ := ihl hl hKl
      obtain ⟨n, hn, hfn⟩ := ihr hr hKr
      obtain ⟨c, hc, hfc, -⟩ := exists_fused_pair h ht h0 h1 hK hfm hfn
      refine ⟨c.mass, ?_, hfc⟩
      change ((l.fuse options).bind fun m => (r.fuse options).bind fun n =>
        (ofSources [m, n] (.rule .dempster) options).bind fun c => .ok c.mass) = _
      rw [hm, hn]
      change (ofSources [m, n] (.rule .dempster) options).bind _ = _
      rw [hc]
      rfl

/-- Where Dempster's rule succeeds on exact sources, so does every split in two and every bracketing,
with the same masses; along a split the weights of agreement multiply. -/
theorem dempster_associative {f : Frame} {sources : List (MassFunction ℚ)}
    (h : ExactFrame f sources) {options : DriftOptions ℚ} {c : Combination ℚ}
    (hc : ofSources sources (.rule .dempster) options = .ok c) :
    (∀ xs ys, xs ++ ys = sources → xs ≠ [] → ys ≠ [] →
      ∃ cx cy d, ofSources xs (.rule .dempster) options = .ok cx ∧
        ofSources ys (.rule .dempster) options = .ok cy ∧
        ofSources [cx.mass, cy.mass] (.rule .dempster) options = .ok d ∧
        SameEvidence d.mass c.mass ∧
        1 - c.conflict = (1 - cx.conflict) * (1 - cy.conflict) * (1 - d.conflict)) ∧
    ∀ b : Bracketing, b.leaves = sources →
      ∃ m, b.fuse options = .ok m ∧ SameEvidence m c.mass := by
  constructor
  · rintro xs ys rfl hx hy
    have two : 2 ≤ (xs ++ ys).length := by
      have hxl := List.length_pos_iff.2 hx
      have hyl := List.length_pos_iff.2 hy
      rw [List.length_append]
      omega
    obtain ⟨ε, v, ht, h0, h1, hK, hfc, hconflict⟩ :=
      fused_of_ok h (List.append_ne_nil_of_left_ne_nil hx ys) two hc
    obtain ⟨hxs, hys⟩ := ExactFrame.append_iff.1 h
    obtain ⟨hKx, hKy⟩ := conflictMass_lt_of_append h hK
    obtain ⟨cx, hcx, hfx, hconflictx⟩ := exists_fused hxs hx ht h0 h1 hKx
    obtain ⟨cy, hcy, hfy, hconflicty⟩ := exists_fused hys hy ht h0 h1 hKy
    obtain ⟨d, hd, hfd, hprod⟩ := exists_fused_pair h ht h0 h1 hK hfx hfy
    refine ⟨cx, cy, d, hcx, hcy, hd, hfd.same hfc (by linarith), ?_⟩
    rw [hconflict, hconflictx, hconflicty, hprod]
  · rintro b rfl
    cases b with
    | leaf m =>
        obtain rfl : (⟨m, 0⟩ : Combination ℚ) = c := Except.ok.inj hc
        exact ⟨m, rfl, rfl, fun _ => rfl⟩
    | node l r =>
        have two : 2 ≤ (l.node r).leaves.length := by
          have hl := List.length_pos_iff.2 l.leaves_ne_nil
          have hr := List.length_pos_iff.2 r.leaves_ne_nil
          rw [Bracketing.leaves, List.length_append]
          omega
        obtain ⟨ε, v, ht, h0, h1, hK, hfc, -⟩ :=
          fused_of_ok h (Bracketing.leaves_ne_nil _) two hc
        obtain ⟨m, hm, hfm⟩ := fused_fuse ht h0 h1 (l.node r) h hK
        exact ⟨m, hm, hfm.same hfc (by linarith)⟩

theorem associative_opposed : ∃ c, ofSources (MassFunction.opposed (1 / 2) (1 / 2))
    (.rule .dempster) (.fields .absent .absent) = .ok c ∧
    ∀ b : Bracketing, b.leaves = MassFunction.opposed (1 / 2) (1 / 2) →
      ∃ m, b.fuse (.fields .absent .absent) = .ok m ∧ SameEvidence m c.mass := by
  obtain ⟨c, hc⟩ := MassFunction.exists_ofSources_opposed
  have hexact : ExactFrame .binary (MassFunction.opposed (1 / 2) (1 / 2)) :=
    ⟨MassFunction.shared_opposed (by norm_num) (by norm_num), MassFunction.total_opposed _ _⟩
  exact ⟨c, hc, (dempster_associative hexact hc).2⟩

end Combination

end Evidence
