import Mathlib
import Evidence.Fusion.Conjunction
import Evidence.Proofs.Choices
import Evidence.Proofs.MaskAlgebra

namespace Evidence.Conjunction

def step (withUnion : Bool) (key : Mask × Mask) (m : Mask) : Mask × Mask :=
  (key.1.inter m, if withUnion then key.2.union m else .empty)

theorem extend_eq_collect (w : Bool) (c : Conjunction ℚ) (s : Tally Mask ℚ) :
    extend w c s = Tally.collect (c.flatMap fun d => s.map fun e => (step w d.1 e.1, d.2 * e.2)) :=
  rfl

theorem integral_extend (w : Bool) (c : Conjunction ℚ) (s : Tally Mask ℚ) (g : Mask × Mask → ℚ) :
    Tally.integral (extend w c s) g = Tally.integral c fun key => s.integral fun m => g (step w key m) := by
  rw [extend_eq_collect, Tally.integral_collect, Tally.integral_flatMap]
  refine congrArg List.sum (List.map_congr_left fun d _ => ?_)
  rw [← Tally.integral_mul_right, Tally.integral, Tally.integral, List.map_map]
  refine congrArg List.sum (List.map_congr_left fun e _ => ?_)
  simp only [Function.comp_apply]
  ring

theorem mem_keys_extend {w : Bool} {c : Conjunction ℚ} {s : Tally Mask ℚ} {key : Mask × Mask}
    (h : key ∈ Tally.keys (extend w c s)) :
    ∃ k ∈ Tally.keys c, ∃ m ∈ s.keys, key = step w k m := by
  rw [extend_eq_collect] at h
  obtain ⟨p, hp, rfl⟩ := List.mem_map.1 (Tally.mem_keys_collect.1 h)
  obtain ⟨d, hd, hp⟩ := List.mem_flatMap.1 hp
  obtain ⟨e, he, rfl⟩ := List.mem_map.1 hp
  exact ⟨d.1, List.mem_map_of_mem hd, e.1, List.mem_map_of_mem he, rfl⟩

theorem pos_extend {w : Bool} {c : Conjunction ℚ} {s : Tally Mask ℚ} (hc : ∀ e ∈ c, 0 < e.2)
    (hs : ∀ e ∈ s, 0 < e.2) : ∀ e ∈ extend w c s, 0 < e.2 := by
  rw [extend_eq_collect]
  apply Tally.pos_collect
  intro p hp
  obtain ⟨d, hd, hp⟩ := List.mem_flatMap.1 hp
  obtain ⟨e, he, rfl⟩ := List.mem_map.1 hp
  exact mul_pos (hc d hd) (hs e he)

/-- Taking sources in one at a time sums over their choices. -/
theorem integral_foldl_extend (w : Bool) (ss : List (Tally Mask ℚ)) (c : Conjunction ℚ)
    (g : Mask × Mask → ℚ) :
    Tally.integral (ss.foldl (extend w) c) g =
      Tally.integral c fun key => Choices.integral ss fun ms => g (ms.foldl (step w) key) := by
  induction ss generalizing c with
  | nil => simp
  | cons s ss ih => simp only [List.foldl_cons, ih, integral_extend, Choices.integral_cons]

theorem mem_keys_foldl_extend {w : Bool} {ss : List (Tally Mask ℚ)} {c : Conjunction ℚ}
    {key : Mask × Mask} (h : key ∈ Tally.keys (ss.foldl (extend w) c)) :
    ∃ k ∈ Tally.keys c, ∃ ms, Choices.IsChoice ss ms ∧ key = ms.foldl (step w) k := by
  induction ss generalizing c with
  | nil => exact ⟨key, h, [], .nil, rfl⟩
  | cons s ss ih =>
      obtain ⟨k, hk, ms, hms, rfl⟩ := ih h
      obtain ⟨j, hj, m, hm, rfl⟩ := mem_keys_extend hk
      exact ⟨j, hj, m :: ms, .cons hm hms, rfl⟩

theorem pos_foldl_extend {w : Bool} {ss : List (Tally Mask ℚ)} {c : Conjunction ℚ}
    (hc : ∀ e ∈ c, 0 < e.2) (hs : ∀ s ∈ ss, ∀ e ∈ s, 0 < e.2) :
    ∀ e ∈ ss.foldl (extend w) c, 0 < e.2 := by
  induction ss generalizing c with
  | nil => exact hc
  | cons s ss ih =>
      obtain ⟨hs, hss⟩ := List.forall_mem_cons.1 hs
      exact ih (pos_extend hc hs) hss

theorem foldl_step (w : Bool) (ms : List Mask) (m : Mask) :
    ms.foldl (step w) (m, .empty) = (ms.foldl Mask.inter m, if w then Mask.join ms else .empty) := by
  have h (n : Mask) (hn : w = false → n = .empty) : ms.foldl (step w) (m, n) =
      (ms.foldl Mask.inter m, if w then ms.foldl Mask.union n else .empty) := by
    induction ms generalizing m n with
    | nil =>
        cases w with
        | false => rw [hn rfl]; rfl
        | true => rfl
    | cons k ms ih =>
        rw [List.foldl_cons, step, ih _ _ (by intro hw; rw [hw]; rfl)]
        cases w <;> rfl
  exact h .empty fun _ => rfl

theorem ofSources_eq_foldl (w : Bool) (f : Frame) (sources : List (MassFunction ℚ)) :
    ofSources w f sources = (sources.map (·.masses)).foldl (extend w) (start f) :=
  List.foldl_map.symm

section Sources

variable {f : Frame} {sources : List (MassFunction ℚ)} (hne : sources ≠ [])
  (inside : ∀ m ∈ sources, ∀ k ∈ m.masses.keys, k.within f.size = true)
include hne inside

theorem choice_within {ms : List Mask} (h : Choices.IsChoice (sources.map (·.masses)) ms) :
    ms ≠ [] ∧ ∀ m ∈ ms, m.within f.size = true := by
  refine ⟨h.ne_nil (by simpa using hne), fun m hm => ?_⟩
  obtain ⟨t, ht, hm⟩ := h.exists_mem hm
  obtain ⟨n, hn, rfl⟩ := List.mem_map.1 ht
  exact inside n hn m hm

theorem key_of_choice (w : Bool) {ms : List Mask}
    (h : Choices.IsChoice (sources.map (·.masses)) ms) :
    ms.foldl (step w) (f.full, .empty) = (Mask.meet ms, if w then Mask.join ms else .empty) := by
  obtain ⟨hms, hin⟩ := choice_within hne inside h
  rw [foldl_step, Frame.full, Mask.foldl_inter_full hin hms]

theorem integral_ofSources (w : Bool) (g : Mask × Mask → ℚ) :
    Tally.integral (ofSources w f sources) g = Choices.integral (sources.map (·.masses)) fun ms =>
      g (Mask.meet ms, if w then Mask.join ms else .empty) := by
  rw [ofSources_eq_foldl, integral_foldl_extend, start, Tally.integral_cons, Tally.integral_nil]
  change _ * 1 + 0 = _
  rw [mul_one, add_zero]
  exact Choices.integral_congr fun ms hms => congrArg g (key_of_choice hne inside w hms)

theorem mem_keys_ofSources {w : Bool} {key : Mask × Mask}
    (h : key ∈ Tally.keys (ofSources w f sources)) :
    ∃ ms, Choices.IsChoice (sources.map (·.masses)) ms ∧
      key = (Mask.meet ms, if w then Mask.join ms else .empty) := by
  rw [ofSources_eq_foldl] at h
  obtain ⟨k, hk, ms, hms, rfl⟩ := mem_keys_foldl_extend h
  obtain rfl : k = (f.full, .empty) := by simpa [start, Tally.keys] using hk
  exact ⟨ms, hms, key_of_choice hne inside w hms⟩

end Sources

theorem pos_ofSources {w : Bool} {f : Frame} {sources : List (MassFunction ℚ)}
    (pos : ∀ m ∈ sources, ∀ e ∈ m.masses, 0 < e.2) : ∀ e ∈ ofSources w f sources, 0 < e.2 := by
  rw [ofSources_eq_foldl]
  refine pos_foldl_extend (by simp only [start, List.forall_mem_singleton]; exact one_pos) ?_
  simpa using pos

end Evidence.Conjunction
