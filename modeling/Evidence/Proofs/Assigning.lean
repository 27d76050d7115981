import Mathlib
import Evidence.Proofs.ConjunctionSum
import Evidence.Proofs.Settling

namespace Evidence

namespace Tally

variable {κ κ' : Type}

theorem integral_map_keys (t : Tally κ ℚ) (φ : κ → κ') (g : κ' → ℚ) :
    integral (t.map fun e => (φ e.1, e.2)) g = integral t fun k => g (φ k) := by
  rw [integral, integral, List.map_map]
  rfl

theorem integral_filter (t : Tally κ ℚ) (p : κ → Prop) [DecidablePred p] (g : κ → ℚ) :
    integral (t.filter fun e => p e.1) g = integral t fun k => if p k then g k else 0 := by
  induction t with
  | nil => rfl
  | cons e t ih =>
      rw [integral_cons, ← ih]
      by_cases hp : p e.1
      · rw [List.filter_cons_of_pos (by simpa using hp), integral_cons, if_pos hp]
      · rw [List.filter_cons_of_neg (by simpa using hp), if_neg hp, zero_mul, zero_add]

end Tally

structure SharedFrame (f : Frame) (sources : List (MassFunction ℚ)) : Prop where
  valid : ∀ m ∈ sources, m.Valid
  frame : ∀ m ∈ sources, m.frame = f

namespace SharedFrame

theorem pair {m n : MassFunction ℚ} (hm : m.Valid) (hn : n.Valid) (hframe : m.frame = n.frame) :
    SharedFrame m.frame [m, n] where
  valid := List.forall_mem_cons.2 ⟨hm, List.forall_mem_singleton.2 hn⟩
  frame := List.forall_mem_cons.2 ⟨rfl, List.forall_mem_singleton.2 hframe.symm⟩

variable {f : Frame} {sources : List (MassFunction ℚ)} (h : SharedFrame f sources)
include h

theorem perm {ys : List (MassFunction ℚ)} (hperm : sources.Perm ys) : SharedFrame f ys where
  valid m hm := h.valid m (hperm.mem_iff.2 hm)
  frame m hm := h.frame m (hperm.mem_iff.2 hm)

theorem key_inside : ∀ m ∈ sources, ∀ k ∈ m.masses.keys, k ≠ .empty ∧ k.within f.size = true := by
  intro m hm k hk
  obtain ⟨e, he, rfl⟩ := List.mem_map.1 hk
  rw [← h.frame m hm]
  exact (h.valid m hm).inside e he

theorem key_within : ∀ m ∈ sources, ∀ k ∈ m.masses.keys, k.within f.size = true :=
  fun m hm k hk => (h.key_inside m hm k hk).2

theorem mass_pos : ∀ m ∈ sources, ∀ e ∈ m.masses, 0 < e.2 :=
  fun m hm e he => ((h.valid m hm).positive e he).1

theorem masses_pos : ∀ t ∈ sources.map (·.masses), ∀ e ∈ t, 0 < e.2 :=
  List.forall_mem_map.2 h.mass_pos

end SharedFrame

namespace Combination

theorem integral_one_eq_prod (sources : List (MassFunction ℚ)) :
    (Choices.integral (sources.map (·.masses)) fun _ => 1) = (sources.map (·.total)).prod := by
  rw [Choices.integral_one, List.map_map]
  rfl

/-- The sum of the products of those choices of one focal event per source that satisfy a
condition. -/
def weightWhere (sources : List (MassFunction ℚ)) (p : List Mask → Prop) [DecidablePred p] : ℚ :=
  Choices.integral (sources.map (·.masses)) fun ms => if p ms then 1 else 0

def conflictMass (sources : List (MassFunction ℚ)) : ℚ :=
  weightWhere sources fun ms => Mask.meet ms = .empty

def landing (r : Rule) (f : Frame) (ms : List Mask) : Mask :=
  if Mask.meet ms = .empty then
    match r with
    | .dempster => .empty
    | .yager => f.full
    | .duboisPrade => Mask.join ms
  else Mask.meet ms

def share (r : Rule) (conflict : ℚ) (ms : List Mask) : ℚ :=
  match r with
  | .dempster => if Mask.meet ms = .empty then 0 else 1 / (1 - conflict)
  | .yager | .duboisPrade => 1

section Assign

variable {f : Frame} {sources : List (MassFunction ℚ)} (h : SharedFrame f sources)
  (hne : sources ≠ [])
include h hne

theorem conflict_ofSources (w : Bool) :
    (Conjunction.ofSources w f sources).conflict = min (conflictMass sources) 1 := by
  rw [Conjunction.conflict, lesser_eq, Tally.totalOf_eq_integral,
    Conjunction.integral_ofSources hne h.key_within]
  simp only [beq_iff_eq, conflictMass, weightWhere]

theorem integral_assign (r : Rule) (g : Mask → ℚ) :
    (assign r f (Conjunction.ofSources (r = .duboisPrade) f sources)).integral g =
      Choices.integral (sources.map (·.masses)) fun ms =>
        share r (min (conflictMass sources) 1) ms * g (landing r f ms) := by
  have hsum := Conjunction.integral_ofSources hne h.key_within
  cases r with
  | dempster =>
      have hmap (K : ℚ) (c : Conjunction ℚ) :
          ((c.filter fun p => p.1.1 ≠ .empty).map fun p => (p.1.1, p.2 / (1 - K))) =
          ((c.filter fun p => p.1.1 ≠ .empty).map fun p => (p.1, p.2 / (1 - K))).map
            fun p => (p.1.1, p.2) := by
        rw [List.map_map]
        rfl
      change Tally.integral (Tally.collect (_ : List (Mask × ℚ))) g = _
      rw [Tally.integral_collect, hmap, Tally.integral_map_keys, Tally.integral_map_div,
        conflict_ofSources h hne,
        Tally.integral_filter (p := fun k : Mask × Mask => k.1 ≠ .empty), hsum, ← Choices.integral_div]
      apply Choices.integral_congr
      intro ms _
      by_cases hms : Mask.meet ms = .empty
      · simp [share, hms]
      · simp [share, landing, hms, div_eq_inv_mul]
  | yager =>
      change Tally.integral (Tally.collect (_ : List (Mask × ℚ))) g = _
      rw [Tally.integral_collect,
        Tally.integral_map_keys _ (fun k : Mask × Mask => if k.1 = .empty then f.full else k.1), hsum]
      exact Choices.integral_congr fun ms _ => by rw [share, one_mul, landing]
  | duboisPrade =>
      change Tally.integral (Tally.collect (_ : List (Mask × ℚ))) g = _
      rw [Tally.integral_collect,
        Tally.integral_map_keys _ (fun k : Mask × Mask => if k.1 = .empty then k.2 else k.1), hsum]
      exact Choices.integral_congr fun ms _ => by rw [share, one_mul, landing]; rfl

theorem landing_inside (r : Rule) {ms : List Mask}
    (hms : Choices.IsChoice (sources.map (·.masses)) ms) (hr : r = .dempster → Mask.meet ms ≠ .empty) :
    landing r f ms ≠ .empty ∧ (landing r f ms).within f.size = true := by
  obtain ⟨hnil, hin⟩ := Conjunction.choice_within hne h.key_within hms
  unfold landing
  split_ifs with hmeet
  · cases r with
    | dempster => exact absurd hmeet (hr rfl)
    | yager => exact ⟨f.full_ne_empty, Mask.within_full _⟩
    | duboisPrade =>
        refine ⟨Mask.join_ne_empty hnil fun k hk => ?_, Mask.within_join hin⟩
        obtain ⟨t, ht, hk⟩ := hms.exists_mem hk
        obtain ⟨m, hm, rfl⟩ := List.mem_map.1 ht
        exact (h.key_inside m hm k hk).1
  · exact ⟨hmeet, Mask.within_meet hin hnil⟩

theorem key_assign {r : Rule} {k : Mask}
    (hk : k ∈ (assign r f (Conjunction.ofSources (r = .duboisPrade) f sources)).keys) :
    ∃ ms, Choices.IsChoice (sources.map (·.masses)) ms ∧ k = landing r f ms ∧
      (r = .dempster → Mask.meet ms ≠ .empty) := by
  cases r with
  | dempster =>
      obtain ⟨q, hq, rfl⟩ := List.mem_map.1 (Tally.mem_keys_collect.1 hk)
      obtain ⟨p, hp, rfl⟩ := List.mem_map.1 hq
      obtain ⟨hp, hmeet⟩ := List.mem_filter.1 hp
      obtain ⟨ms, hms, hkey⟩ :=
        Conjunction.mem_keys_ofSources hne h.key_within (List.mem_map_of_mem hp)
      have hne' : Mask.meet ms ≠ .empty := by simpa [hkey] using hmeet
      exact ⟨ms, hms, by simp [landing, hne', hkey], fun _ => hne'⟩
  | yager | duboisPrade =>
      obtain ⟨q, hq, rfl⟩ := List.mem_map.1 (Tally.mem_keys_collect.1 hk)
      obtain ⟨p, hp, rfl⟩ := List.mem_map.1 hq
      obtain ⟨ms, hms, hkey⟩ :=
        Conjunction.mem_keys_ofSources hne h.key_within (List.mem_map_of_mem hp)
      exact ⟨ms, hms, by simp only [hkey]; rfl, fun hr => by cases hr⟩

theorem pos_assign {r : Rule} (hr : r = .dempster → min (conflictMass sources) 1 < 1) :
    ∀ e ∈ assign r f (Conjunction.ofSources (r = .duboisPrade) f sources), 0 < e.2 := by
  have hpos := Conjunction.pos_ofSources (w := r = .duboisPrade) (f := f) h.mass_pos
  cases r with
  | dempster =>
      refine Tally.pos_collect (List.forall_mem_map.2 fun p hp => ?_)
      change 0 < p.2 / (1 - Conjunction.conflict _)
      rw [conflict_ofSources h hne]
      exact div_pos (hpos p (List.mem_of_mem_filter hp)) (sub_pos.2 (hr rfl))
  | yager | duboisPrade => exact Tally.pos_collect (List.forall_mem_map.2 hpos)

theorem supported_assign {r : Rule} (hr : r = .dempster → min (conflictMass sources) 1 < 1) :
    (assign r f (Conjunction.ofSources (r = .duboisPrade) f sources)).Supported f where
  inside e he := by
    obtain ⟨ms, hms, hk, hmeet⟩ := key_assign h hne (List.mem_map_of_mem he)
    rw [hk]
    exact landing_inside h hne r hms hmeet
  distinct := by cases r <;> exact Tally.nodup_keys_collect _
  pos := pos_assign h hne hr

end Assign

end Combination

end Evidence
