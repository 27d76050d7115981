import Mathlib
import Evidence.Proofs.SourceOrder

namespace Evidence

structure ExactFrame (f : Frame) (sources : List (MassFunction ℚ)) : Prop
    extends SharedFrame f sources where
  total : ∀ m ∈ sources, m.masses.total = 1

namespace ExactFrame

theorem append_iff {f : Frame} {xs ys : List (MassFunction ℚ)} :
    ExactFrame f (xs ++ ys) ↔ ExactFrame f xs ∧ ExactFrame f ys := by
  constructor
  · rintro ⟨⟨hv, hf⟩, ht⟩
    rw [List.forall_mem_append] at hv hf ht
    exact ⟨⟨⟨hv.1, hf.1⟩, ht.1⟩, ⟨⟨hv.2, hf.2⟩, ht.2⟩⟩
  · rintro ⟨hx, hy⟩
    refine ⟨⟨?_, ?_⟩, ?_⟩
    · exact List.forall_mem_append.2 ⟨hx.valid, hy.valid⟩
    · exact List.forall_mem_append.2 ⟨hx.frame, hy.frame⟩
    · exact List.forall_mem_append.2 ⟨hx.total, hy.total⟩

theorem perm {f : Frame} {xs ys : List (MassFunction ℚ)} (h : ExactFrame f xs) (hperm : xs.Perm ys) :
    ExactFrame f ys where
  toSharedFrame := h.toSharedFrame.perm hperm
  total m hm := h.total m (hperm.mem_iff.2 hm)

theorem integral_one {f : Frame} {sources : List (MassFunction ℚ)} (h : ExactFrame f sources) :
    (Choices.integral (sources.map (·.masses)) fun _ => 1) = 1 := by
  rw [Combination.integral_one_eq_prod]
  exact List.prod_eq_one (List.forall_mem_map.2 h.total)

end ExactFrame

namespace Combination

def offEmpty (g : Mask → ℚ) (A : Mask) : ℚ := if A = .empty then 0 else g A

@[simp] theorem offEmpty_empty (g : Mask → ℚ) : offEmpty g .empty = 0 := if_pos rfl

theorem offEmpty_of_ne (g : Mask → ℚ) {A : Mask} (h : A ≠ .empty) : offEmpty g A = g A := if_neg h

/-- The sum of a function of the common event over the choices that have one. -/
def agreeing (sources : List (MassFunction ℚ)) (g : Mask → ℚ) : ℚ :=
  Choices.integral (sources.map (·.masses)) fun ms => offEmpty g (Mask.meet ms)

theorem agreeing_perm {xs ys : List (MassFunction ℚ)} (h : xs.Perm ys) (g : Mask → ℚ) :
    agreeing xs g = agreeing ys g := by
  unfold agreeing
  apply Choices.integral_perm (h.map _)
  intro ks ls hks
  simp only [Mask.meet_perm hks]

theorem conflictMass_nonneg {f : Frame} {sources : List (MassFunction ℚ)}
    (h : SharedFrame f sources) : 0 ≤ conflictMass sources :=
  Choices.integral_nonneg h.masses_pos fun ms _ => by split_ifs <;> norm_num

theorem agreeing_one {f : Frame} {sources : List (MassFunction ℚ)} (h : ExactFrame f sources) :
    (agreeing sources fun _ => 1) = 1 - conflictMass sources := by
  rw [eq_sub_iff_add_eq, agreeing, conflictMass, weightWhere, ← Choices.integral_plus]
  refine (Choices.integral_congr fun ms _ => ?_).trans h.integral_one
  by_cases hms : Mask.meet ms = .empty
  · rw [if_pos hms, hms, offEmpty_empty, zero_add]
  · rw [if_neg hms, offEmpty_of_ne _ hms, add_zero]

theorem conflictMass_le_one {f : Frame} {sources : List (MassFunction ℚ)}
    (h : ExactFrame f sources) : conflictMass sources ≤ 1 := by
  have hpos : 0 ≤ agreeing sources fun _ => 1 :=
    Choices.integral_nonneg h.masses_pos fun ms _ => by unfold offEmpty; split_ifs <;> norm_num
  rw [agreeing_one h] at hpos
  linarith

theorem conflictMass_le_append {f : Frame} {xs ys : List (MassFunction ℚ)}
    (h : ExactFrame f (xs ++ ys)) : conflictMass xs ≤ conflictMass (xs ++ ys) := by
  obtain ⟨hx, hy⟩ := ExactFrame.append_iff.1 h
  unfold conflictMass weightWhere
  rw [List.map_append, Choices.integral_append]
  apply Choices.integral_mono hx.masses_pos
  intro ks _
  by_cases hks : Mask.meet ks = .empty
  · have hall (ls : List Mask) : Mask.meet (ks ++ ls) = .empty := by
      rw [Mask.meet_append, hks, Mask.empty_inter]
    simp only [hall, hks, if_true]
    exact hy.integral_one.ge
  · rw [if_neg hks]
    exact Choices.integral_nonneg hy.masses_pos fun ls _ => by split_ifs <;> norm_num

structure Fused (f : Frame) (sources : List (MassFunction ℚ)) (m : MassFunction ℚ) : Prop where
  exact : ExactFrame f [m]
  agrees : ∀ g, (1 - conflictMass sources) * m.masses.integral g = agreeing sources g

theorem agreeing_singleton {f : Frame} {m : MassFunction ℚ} (h : SharedFrame f [m]) (g : Mask → ℚ) :
    agreeing [m] g = m.masses.integral g := by
  simp only [agreeing, List.map_cons, List.map_nil, Choices.integral_cons, Choices.integral_nil]
  apply Tally.integral_congr
  intro k hk
  have hne := (h.key_inside m (List.mem_singleton_self m) k hk).1
  rw [Mask.meet_singleton, offEmpty_of_ne _ hne]

theorem conflictMass_singleton {f : Frame} {m : MassFunction ℚ} (h : SharedFrame f [m]) :
    conflictMass [m] = 0 := by
  simp only [conflictMass, weightWhere, List.map_cons, List.map_nil, Choices.integral_cons,
    Choices.integral_nil]
  refine (Tally.integral_congr fun k hk => if_neg ?_).trans (Tally.integral_zero m.masses)
  rw [Mask.meet_singleton]
  exact (h.key_inside m (List.mem_singleton_self m) k hk).1

theorem Fused.singleton {f : Frame} {m : MassFunction ℚ} (h : ExactFrame f [m]) : Fused f [m] m where
  exact := h
  agrees g := by
    rw [conflictMass_singleton h.toSharedFrame, agreeing_singleton h.toSharedFrame, sub_zero, one_mul]

/-- A contradiction among the sources may be counted in by whatever gives it no weight. -/
theorem Fused.integral_meet {f : Frame} {sources : List (MassFunction ℚ)} {m : MassFunction ℚ}
    (hm : Fused f sources m) {g : Mask → ℚ} (hg : g .empty = 0) :
    (Choices.integral (sources.map (·.masses)) fun ms => g (Mask.meet ms)) =
      (1 - conflictMass sources) * m.masses.integral g := by
  rw [hm.agrees, agreeing]
  apply Choices.integral_congr
  intro ms _
  by_cases hms : Mask.meet ms = .empty
  · rw [hms, hg, offEmpty_empty]
  · rw [offEmpty_of_ne _ hms]

theorem agreeing_append {f : Frame} {xs ys : List (MassFunction ℚ)} {m n : MassFunction ℚ}
    (hm : Fused f xs m) (hn : Fused f ys n) (g : Mask → ℚ) :
    agreeing (xs ++ ys) g =
      (1 - conflictMass xs) * (1 - conflictMass ys) * agreeing [m, n] g := by
  have hsecond (a : Mask) : (Choices.integral (ys.map (·.masses)) fun ls =>
      offEmpty g (a.inter (Mask.meet ls))) =
      (1 - conflictMass ys) * n.masses.integral fun b => offEmpty g (a.inter b) := by
    refine hn.integral_meet (g := fun b => offEmpty g (a.inter b)) ?_
    rw [Mask.inter_comm, Mask.empty_inter, offEmpty_empty]
  have hfirst : (Choices.integral (xs.map (·.masses)) fun ks =>
      n.masses.integral fun b => offEmpty g ((Mask.meet ks).inter b)) =
      (1 - conflictMass xs) *
        m.masses.integral fun a => n.masses.integral fun b => offEmpty g (a.inter b) := by
    refine hm.integral_meet (g := fun a => n.masses.integral fun b => offEmpty g (a.inter b)) ?_
    simp only [Mask.empty_inter, offEmpty_empty, Tally.integral_zero]
  have hpair : agreeing [m, n] g =
      m.masses.integral fun a => n.masses.integral fun b => offEmpty g (a.inter b) := by
    simp only [agreeing, List.map_cons, List.map_nil, Choices.integral_cons, Choices.integral_nil,
      Mask.meet_pair]
  calc agreeing (xs ++ ys) g
      = Choices.integral (xs.map (·.masses)) fun ks =>
          Choices.integral (ys.map (·.masses)) fun ls =>
            offEmpty g ((Mask.meet ks).inter (Mask.meet ls)) := by
        simp only [agreeing, List.map_append, Choices.integral_append, Mask.meet_append]
    _ = (1 - conflictMass ys) * ((1 - conflictMass xs) *
          m.masses.integral fun a => n.masses.integral fun b => offEmpty g (a.inter b)) := by
        simp only [hsecond, Choices.integral_mul_left, hfirst]
    _ = (1 - conflictMass xs) * (1 - conflictMass ys) * agreeing [m, n] g := by
        rw [hpair]
        ring

theorem Fused.pair {f : Frame} {xs ys : List (MassFunction ℚ)} {m n : MassFunction ℚ}
    (hm : Fused f xs m) (hn : Fused f ys n) : ExactFrame f [m, n] :=
  ExactFrame.append_iff.2 ⟨hm.exact, hn.exact⟩

section Pair

variable {f : Frame} {xs ys : List (MassFunction ℚ)} {m n : MassFunction ℚ}
  (hx : ExactFrame f xs) (hy : ExactFrame f ys) (hm : Fused f xs m) (hn : Fused f ys n)
include hx hy hm hn

/-- The weight of agreement is a product along every split. -/
theorem agreement_append : 1 - conflictMass (xs ++ ys) =
    (1 - conflictMass xs) * (1 - conflictMass ys) * (1 - conflictMass [m, n]) := by
  rw [← agreeing_one (ExactFrame.append_iff.2 ⟨hx, hy⟩), ← agreeing_one (hm.pair hn)]
  exact agreeing_append hm hn _

theorem conflictMass_pair_le : conflictMass [m, n] ≤ conflictMass (xs ++ ys) := by
  have hprod := agreement_append hx hy hm hn
  have hpair := sub_nonneg.2 (conflictMass_le_one (hm.pair hn))
  have hfactor : (1 - conflictMass xs) * (1 - conflictMass ys) ≤ 1 := by
    refine mul_le_one₀ ?_ (sub_nonneg.2 (conflictMass_le_one hy)) ?_
    · linarith [conflictMass_nonneg hx.toSharedFrame]
    · linarith [conflictMass_nonneg hy.toSharedFrame]
  have hle := mul_le_of_le_one_left hpair hfactor
  linarith

theorem Fused.append {p : MassFunction ℚ} (hp : Fused f [m, n] p) : Fused f (xs ++ ys) p where
  exact := hp.exact
  agrees g := by
    rw [agreement_append hx hy hm hn, agreeing_append hm hn, mul_assoc, hp.agrees]

end Pair

section Success

variable {f : Frame} {sources : List (MassFunction ℚ)} (h : ExactFrame f sources)
  (hne : sources ≠ [])
include h hne

theorem integral_assigned (hK : conflictMass sources < 1) (g : Mask → ℚ) :
    (1 - conflictMass sources) * (assigned .dempster f sources).integral g = agreeing sources g := by
  rw [integral_assign h.toSharedFrame hne, min_eq_left hK.le, ← Choices.integral_mul_left, agreeing]
  apply Choices.integral_congr
  intro ms _
  by_cases hms : Mask.meet ms = .empty
  · rw [share, if_pos hms, hms, offEmpty_empty, zero_mul, mul_zero]
  · have hrest : 1 - conflictMass sources ≠ 0 := (sub_pos.2 hK).ne'
    rw [share, landing, if_neg hms, if_neg hms, offEmpty_of_ne _ hms]
    field_simp

theorem total_assigned_dempster (hK : conflictMass sources < 1) :
    (assigned .dempster f sources).total = 1 := by
  have hone := integral_assigned h hne hK fun _ => 1
  rw [agreeing_one h, ← Tally.total_eq_integral] at hone
  exact mul_left_cancel₀ (sub_pos.2 hK).ne' (hone.trans (mul_one _).symm)

theorem assigned_le_one (hK : conflictMass sources < 1) :
    ∀ e ∈ assigned .dempster f sources, e.2 ≤ 1 := by
  intro e he
  have hsup := supported_assigned h.toSharedFrame hne (r := .dempster) fun _ => hK
  rw [← total_assigned_dempster h hne hK]
  exact Tally.le_total (fun d hd => (hsup.pos d hd).le) he

theorem fused_assigned (hK : conflictMass sources < 1) {ε : ℚ} (h0 : 0 < ε) (h1 : ε < 1 / 10) :
    Fused f sources ⟨f, assigned .dempster f sources, ε⟩ := by
  have htotal := total_assigned_dempster h hne hK
  have hsup := supported_assigned h.toSharedFrame hne (r := .dempster) fun _ => hK
  refine ⟨⟨⟨?_, ?_⟩, ?_⟩, integral_assigned h hne hK⟩
  · refine List.forall_mem_singleton.2 ⟨hsup.inside, hsup.distinct, ?_, ?_, ?_⟩
    · exact fun e he => ⟨hsup.pos e he, assigned_le_one h hne hK e he⟩
    · exact ⟨h0, h1.trans_eq (by norm_num)⟩
    · rw [distance_eq, htotal, sub_self, abs_zero]
      exact h0.le
  · exact List.forall_mem_singleton.2 rfl
  · exact List.forall_mem_singleton.2 htotal

/-- Dempster's rule succeeds on exact sources whenever their conflict is not total. -/
theorem exists_fused {options : DriftOptions ℚ} {ε : ℚ} {v : Value ℚ}
    (ht : options.resolve = .ok ⟨.finite ε, v⟩) (h0 : 0 < ε) (h1 : ε < 1 / 10)
    (hK : conflictMass sources < 1 - ε) :
    ∃ c, ofSources sources (.rule .dempster) options = .ok c ∧ Fused f sources c.mass ∧
      c.conflict = conflictMass sources := by
  by_cases two : 2 ≤ sources.length
  · have hlt : conflictMass sources < 1 := by linarith
    have htotal : |(assigned .dempster f sources).total - 1| ≤ ε := by
      rw [total_assigned_dempster h hne hlt, sub_self, abs_zero]
      exact h0.le
    have hok := ofSources_eq_assigned h.toSharedFrame two
      (DriftOptions.accepted_of_resolve ht h0 h1) (fun _ => hK) htotal (assigned_le_one h hne hlt)
    rw [min_eq_left hlt.le] at hok
    exact ⟨_, hok, fused_assigned h hne hlt h0 h1, rfl⟩
  · obtain ⟨m, rfl⟩ : ∃ m, sources = [m] :=
      List.length_eq_one_iff.1 (by have := List.length_pos_iff.2 hne; omega)
    exact ⟨⟨m, 0⟩, rfl, .singleton h, (conflictMass_singleton h.toSharedFrame).symm⟩

theorem fused_of_ok (two : 2 ≤ sources.length) {options : DriftOptions ℚ} {c : Combination ℚ}
    (hc : ofSources sources (.rule .dempster) options = .ok c) :
    ∃ ε v, options.resolve = .ok ⟨.finite ε, v⟩ ∧ 0 < ε ∧ ε < 1 / 10 ∧
      conflictMass sources < 1 - ε ∧ Fused f sources c.mass ∧ c.conflict = conflictMass sources := by
  obtain ⟨ε, v, ht, h0, h1, hK, -⟩ := eq_of_ofSources_eq_ok h.toSharedFrame two hc
  obtain ⟨d, hd, hfused, hconflict⟩ := exists_fused h hne ht h0 h1 (hK rfl)
  obtain rfl := Except.ok.inj (hc.symm.trans hd)
  exact ⟨ε, v, ht, h0, h1, hK rfl, hfused, hconflict⟩

end Success

/-- Short of total conflict only one evidence stands for a list of sources. -/
theorem Fused.same {f : Frame} {sources : List (MassFunction ℚ)} {m n : MassFunction ℚ}
    (hm : Fused f sources m) (hn : Fused f sources n) (hK : conflictMass sources < 1) :
    SameEvidence m n := by
  have hmem (p : MassFunction ℚ) : p ∈ [p] := List.mem_singleton_self p
  refine ⟨(hm.exact.frame m (hmem m)).trans (hn.exact.frame n (hmem n)).symm, fun A => ?_⟩
  change m.masses.amount A = n.masses.amount A
  rw [Tally.amount_eq_integral (hm.exact.valid m (hmem m)).distinct,
    Tally.amount_eq_integral (hn.exact.valid n (hmem n)).distinct]
  have hagree := (hm.agrees fun j => if j = A then 1 else 0).trans (hn.agrees _).symm
  exact mul_left_cancel₀ (sub_pos.2 hK).ne' hagree

end Combination

end Evidence
