import Mathlib
import Evidence.Proofs.Dempster
import Evidence.Proofs.EventAlgebra
import Evidence.Proofs.Views

namespace Evidence

theorem DriftOptions.resolve_ne_fault (options : DriftOptions ℚ) (x : Fault ℚ) :
    options.resolve ≠ .error (.fault x) := by
  intro h
  cases options with
  | null => cases h
  | fields epsilon threshold =>
      rcases Outcome.bind_eq_error h with h | ⟨_, -, h⟩
      · obtain ⟨_, -, h⟩ := Outcome.mapError_eq_error h
        cases h
      · rcases Outcome.bind_eq_error h with h | ⟨_, -, h⟩
        · obtain ⟨_, -, h⟩ := Outcome.mapError_eq_error h
          cases h
        · split_ifs at h
          cases h

theorem MassFunction.checkEpsilon_ne_fault (v : Value ℚ) (x : Fault ℚ) :
    checkEpsilon v ≠ .error (.fault x) := by
  intro h
  unfold checkEpsilon at h
  split at h
  · split_ifs at h
    cases h
  · rcases Outcome.bind_eq_error h with h | ⟨_, -, h⟩
    · obtain ⟨_, -, h⟩ := Outcome.mapError_eq_error h
      cases h
    · cases h

theorem Event.meet_ne_empty_iff {f : Frame} {ms : List Mask} (hne : ms ≠ [])
    (hin : ∀ A ∈ ms, A.within f.size = true) :
    Mask.meet ms ≠ .empty ↔ ∃ k, ∀ A ∈ ms, k ∈ (Event.mk f A).members := by
  simp only [Mask.ne_empty_iff, Mask.has_meet, List.all_eq_true, mem_members]
  constructor
  · rintro ⟨i, hi⟩
    have hlt := (Mask.within_iff _ _).1 (Mask.within_meet hin hne) i (by simpa using hi)
    obtain ⟨k, hk, rfl⟩ := Frame.exists_index hlt
    exact ⟨k, fun A hA => ⟨hk, hi A hA⟩⟩
  · rintro ⟨k, hk⟩
    exact ⟨f.index k, fun A hA => (hk A hA).2⟩

namespace Combination

def Selected (sources : List (MassFunction ℚ)) (es : List Event) : Prop :=
  List.Forall₂ (fun m e => ∃ focal, m.focalEvents = .ok focal ∧ e ∈ focal) sources es

def contradiction (sources : List (MassFunction ℚ)) : ℚ := min (conflictMass sources) 1

/-- A number that is told as the conflict of sources, under whatever rule and options they are
combined, and of two sources in either order. -/
structure Told (sources : List (MassFunction ℚ)) (K : ℚ) : Prop where
  success : ∀ r options c, ofSources sources (.rule r) options = .ok c → c.conflict = K
  failure : ∀ r options x,
    ofSources sources (.rule r) options = .error (.fault (.totalConflict x)) →
      r = .dempster ∧ x = .finite K
  pair : ∀ m n, sources.Perm [m, n] → m.conflict n = .ok K

section Shared

variable {f : Frame} {sources : List (MassFunction ℚ)} (h : SharedFrame f sources)
include h

theorem selected_iff {es : List Event} : Selected sources es ↔
    ∃ ms, Choices.IsChoice (sources.map (·.masses)) ms ∧ es = ms.map (Event.mk f) := by
  unfold Selected Choices.IsChoice
  induction sources generalizing es with
  | nil => simp
  | cons m sources ih =>
      obtain ⟨hm, hvalid⟩ := List.forall_mem_cons.1 h.valid
      obtain ⟨rfl, hframe⟩ := List.forall_mem_cons.1 h.frame
      have hfocal (e : Event) : (∃ focal, m.focalEvents = .ok focal ∧ e ∈ focal) ↔
          ∃ A ∈ m.masses.keys, ⟨m.frame, A⟩ = e := by
        simp [hm.focalEvents_eq, Tally.keys]
      rw [List.forall₂_cons_left_iff]
      constructor
      · rintro ⟨e, es, he, hes, rfl⟩
        obtain ⟨A, hA, rfl⟩ := (hfocal e).1 he
        obtain ⟨ms, hms, rfl⟩ := (ih ⟨hvalid, hframe⟩).1 hes
        exact ⟨A :: ms, .cons hA hms, rfl⟩
      · rintro ⟨_, hms, rfl⟩
        obtain ⟨A, ms, hA, hrest, rfl⟩ := List.forall₂_cons_right_iff.1 hms
        exact ⟨_, _, (hfocal _).2 ⟨A, hA, rfl⟩, (ih ⟨hvalid, hframe⟩).2 ⟨ms, hrest, rfl⟩, rfl⟩

theorem conflictMass_eq_zero_iff : conflictMass sources = 0 ↔
    ∀ ms, Choices.IsChoice (sources.map (·.masses)) ms → Mask.meet ms ≠ .empty := by
  constructor
  · intro hzero ms hms hmeet
    have hpos : 0 < conflictMass sources := by
      refine Choices.integral_pos h.masses_pos (fun ks _ => ?_) hms ?_
      · split_ifs <;> norm_num
      · rw [if_pos hmeet]
        exact one_pos
    exact hpos.ne' hzero
  · intro hall
    refine (Choices.integral_congr fun ms hms => if_neg (hall ms hms)).trans ?_
    simp [Choices.integral]

theorem contradiction_eq_zero_iff (hne : sources ≠ []) : contradiction sources = 0 ↔
    ∀ es, Selected sources es → ∃ k, ∀ e ∈ es, e.contains k = true := by
  have hclamped : contradiction sources = 0 ↔ conflictMass sources = 0 := by
    unfold contradiction
    rcases min_choice (conflictMass sources) 1 with hmin | hmin
    · rw [hmin]
    · have hle : 1 ≤ conflictMass sources := min_eq_right_iff.1 hmin
      rw [hmin]
      exact iff_of_false one_ne_zero (by linarith)
  rw [hclamped, conflictMass_eq_zero_iff h]
  have hcommon {ms : List Mask} (hms : Choices.IsChoice (sources.map (·.masses)) ms) :
      Mask.meet ms ≠ .empty ↔ ∃ k, ∀ e ∈ ms.map (Event.mk f), e.contains k = true := by
    obtain ⟨hnil, hin⟩ := Conjunction.choice_within hne h.key_within hms
    simp only [Event.meet_ne_empty_iff hnil hin, List.forall_mem_map, Event.contains,
      List.contains_eq_mem, decide_eq_true_iff, Event.members, List.mem_toFinset]
  constructor
  · intro hall es hes
    obtain ⟨ms, hms, rfl⟩ := (selected_iff h).1 hes
    exact (hcommon hms).1 (hall ms hms)
  · intro hall ms hms
    exact (hcommon hms).2 (hall _ ((selected_iff h).2 ⟨ms, hms, rfl⟩))

theorem contradiction_nonneg : 0 ≤ contradiction sources :=
  le_min (conflictMass_nonneg h) zero_le_one

/-- Asked for alone, the conflict of two sources is told without the unions that a rule may keep. -/
theorem conflict_pair {m n : MassFunction ℚ} (hperm : sources.Perm [m, n]) :
    m.conflict n = .ok (contradiction sources) := by
  have hpair : SharedFrame f [m, n] := h.perm hperm
  obtain ⟨rfl, hn⟩ := List.forall_mem_cons.1 hpair.frame
  rw [MassFunction.conflict, commonFrame_eq_ok hn, contradiction, conflictMass_perm hperm,
    ← conflict_ofSources hpair (List.cons_ne_nil _ _) false]
  rfl

/-- No later check of a combination fails for total conflict. -/
theorem of_underRule_totalConflict (hne : sources ≠ []) {r : Rule} {t : Tolerances ℚ}
    (ht : (Value.finite 0).isBelow t.epsilon = true) {x : Quantity ℚ}
    (he : underRule r t f sources = .error (.fault (.totalConflict x))) :
    r = .dempster ∧ x = .finite (contradiction sources) := by
  rw [underRule_eq h hne r ht] at he
  by_cases htotal : r = .dempster ∧ t.isTotal (min (conflictMass sources) 1) = true
  · rw [if_pos htotal] at he
    cases he
    exact ⟨htotal.1, rfl⟩
  · rw [if_neg htotal] at he
    by_cases hdrift : t.refuses |(assigned r f sources).total - 1| = true
    · rw [if_pos hdrift] at he
      cases he
    · rw [if_neg hdrift] at he
      rcases Outcome.bind_eq_error he with he | ⟨ε, -, he⟩
      · exact absurd he (MassFunction.checkEpsilon_ne_fault _ _)
      · split_ifs at he
        cases he

theorem told_contradiction (two : 2 ≤ sources.length) : Told sources (contradiction sources) where
  success r options c hc := by
    obtain ⟨_, _, -, -, -, -, -, rfl⟩ := eq_of_ofSources_eq_ok h two hc
    rfl
  failure r options x he := by
    have hne : sources ≠ [] := List.ne_nil_of_length_pos (by omega)
    rw [ofSources_eq_bind h.frame two] at he
    rcases Outcome.bind_eq_error he with he | ⟨t, ht, he⟩
    · exact absurd he (options.resolve_ne_fault _)
    · exact of_underRule_totalConflict h hne (DriftOptions.below_of_resolve ht).1 he
  pair m n := conflict_pair h

/-- The conflict of sources is the same under all rules, in the failure for total conflict, and
between two sources in either order. It is at least zero and at most one, and zero just when
whichever focal events are selected have a hypothesis in common. With totals of exactly one it does
not fall when a source is added. -/
theorem ofSources_conflict (two : 2 ≤ sources.length) :
    Told sources (contradiction sources) ∧
    0 ≤ contradiction sources ∧ contradiction sources ≤ 1 ∧
    (contradiction sources = 0 ↔
      ∀ es, Selected sources es → ∃ k, ∀ e ∈ es, e.contains k = true) ∧
    ∀ n, ExactFrame f (sources ++ [n]) →
      Told (sources ++ [n]) (contradiction (sources ++ [n])) ∧
        contradiction sources ≤ contradiction (sources ++ [n]) := by
  refine ⟨told_contradiction h two, contradiction_nonneg h, min_le_right _ _,
    contradiction_eq_zero_iff h (List.ne_nil_of_length_pos (by omega)), fun n hn => ⟨?_, ?_⟩⟩
  · exact told_contradiction hn.toSharedFrame (by rw [List.length_append]; omega)
  · exact min_le_min_right 1 (conflictMass_le_append hn)

end Shared

theorem conflict_opposed : ∃ c,
    ofSources (MassFunction.opposed (1 / 2) (1 / 2)) (.rule .dempster) (.fields .absent .absent) =
      .ok c ∧ c.conflict = 1 / 4 ∧
    (MassFunction.simple .binary (.finite 2) (1 / 2)).conflict
      (.simple .binary (.finite 1) (1 / 2)) = .ok (1 / 4) ∧
    (∃ es, Selected (MassFunction.opposed (1 / 2) (1 / 2)) es ∧
      ∀ k, ∃ e ∈ es, e.contains k = false) ∧
    1 / 4 ≤ contradiction (MassFunction.opposed (1 / 2) (1 / 2) ++
      [.simple .binary (.finite 1) (1 / 3)]) := by
  have hshared := MassFunction.shared_opposed (x := 1 / 2) (y := 1 / 2) (by norm_num) (by norm_num)
  have hthird : MassFunction.Valid (.simple .binary (.finite 1) (1 / 3)) :=
    MassFunction.valid_simple (by decide) (by decide) (by decide) (by norm_num) (by norm_num)
  have hexact : ExactFrame .binary (MassFunction.opposed (1 / 2) (1 / 2) ++
      [.simple .binary (.finite 1) (1 / 3)]) := by
    refine ExactFrame.append_iff.2 ⟨⟨hshared, MassFunction.total_opposed _ _⟩, ⟨?_, ?_⟩, ?_⟩
    · exact List.forall_mem_singleton.2 hthird
    · exact List.forall_mem_singleton.2 rfl
    · exact List.forall_mem_singleton.2 (MassFunction.total_simple _ _ _)
  have hK : contradiction (MassFunction.opposed (1 / 2) (1 / 2)) = 1 / 4 := by
    rw [contradiction, conflictMass_opposed]
    norm_num
  obtain ⟨c, hc⟩ := MassFunction.exists_ofSources_opposed
  obtain ⟨htold, -, -, hzero, hadded⟩ := ofSources_conflict hshared (by decide)
  rw [hK] at htold hzero hadded
  refine ⟨c, hc, htold.success _ _ c hc, htold.pair _ _ (.swap _ _ []), ?_, (hadded _ hexact).2⟩
  have hnot := mt hzero.2 (by norm_num)
  simp only [not_forall, not_exists, Bool.not_eq_true, exists_prop] at hnot
  exact hnot

end Combination

end Evidence
