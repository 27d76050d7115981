import Mathlib
import Evidence.Proofs.Accepting
import Evidence.Proofs.Dempster
import Evidence.Proofs.NearTotal

namespace Evidence.Combination

theorem share_kept {r : Rule} (hr : r ≠ .dempster) (K : ℚ) (ms : List Mask) : share r K ms = 1 := by
  cases r with
  | dempster => exact absurd rfl hr
  | yager | duboisPrade => rfl

section Kept

variable {f : Frame} {sources : List (MassFunction ℚ)} (h : SharedFrame f sources)
  {r : Rule} (hr : r ≠ .dempster)
include h hr

theorem total_assigned_kept (hne : sources ≠ []) :
    (assigned r f sources).total = (sources.map (·.total)).prod := by
  rw [Tally.total_eq_integral, integral_assign h hne, ← integral_one_eq_prod]
  refine Choices.integral_congr fun ms _ => ?_
  rw [share_kept hr, one_mul]

theorem underRule_kept (hne : sources ≠ []) {t : Tolerances ℚ}
    (ht : (Value.finite 0).isBelow t.epsilon = true) :
    underRule r t f sources =
      if t.refuses |(sources.map (·.total)).prod - 1| then
        .error (.fault (.normalizationDrift (.finite (sources.map (·.total)).prod)
          t.hardDriftThreshold))
      else (MassFunction.checkEpsilon t.epsilon).bind fun ε =>
        .ok ⟨⟨f, settled t (assigned r f sources), ε⟩, min (conflictMass sources) 1⟩ := by
  have hpos : 0 < (sources.map (·.total)).prod :=
    List.prod_pos (List.forall_mem_map.2 fun m hm => (h.valid m hm).total_pos)
  have hnil : assigned r f sources ≠ [] := by
    intro hnil
    rw [← total_assigned_kept h hr hne, hnil] at hpos
    exact lt_irrefl 0 hpos
  rw [underRule_eq h hne r ht, if_neg fun hd => hr hd.1, total_assigned_kept h hr hne]
  simp only [if_neg hnil]

theorem exists_ofSources_kept (two : 2 ≤ sources.length) {ε δ : ℚ} (h0 : 0 < ε) (h1 : ε < 1 / 10)
    (hδ : ε < δ) :
    (∃ c, ofSources sources (.rule r) (.ofTolerances ⟨.finite ε, .finite δ⟩) = .ok c) ↔
      |(sources.map (·.total)).prod - 1| ≤ δ := by
  have hne : sources ≠ [] := List.ne_nil_of_length_pos (by omega)
  have hresolve := DriftOptions.resolve_finite h0 hδ
  rw [ofSources_eq_underRule h.frame two hresolve,
    underRule_kept h hr hne (DriftOptions.below_of_resolve hresolve).1,
    MassFunction.checkEpsilon_eq_ok_iff.2 ⟨rfl, h0, h1⟩]
  simp only [Tolerances.refuses_finite]
  split_ifs with hdrift
  · refine iff_of_false ?_ (not_le.2 hdrift)
    rintro ⟨c, hc⟩
    cases hc
  · exact iff_of_true ⟨_, rfl⟩ (not_lt.1 hdrift)

theorem map_conflict_kept (two : 2 ≤ sources.length) {s : Rule} (hs : s ≠ .dempster)
    (options : DriftOptions ℚ) :
    (ofSources sources (.rule r) options).map (·.conflict) =
      (ofSources sources (.rule s) options).map (·.conflict) := by
  have hne : sources ≠ [] := List.ne_nil_of_length_pos (by omega)
  cases ht : options.resolve with
  | error e => rw [ofSources_eq_error h.frame two ht, ofSources_eq_error h.frame two ht]
  | ok t =>
      have hbelow := (DriftOptions.below_of_resolve ht).1
      -- stated for any masses, as only the conflict is to be compared
      have hconflict (mass : ℚ → MassFunction ℚ) (K : ℚ) :
          ((MassFunction.checkEpsilon t.epsilon).bind fun ε => .ok (⟨mass ε, K⟩ : Combination ℚ)).map
            (·.conflict) = (MassFunction.checkEpsilon t.epsilon).map fun _ => K := by
        cases MassFunction.checkEpsilon t.epsilon <;> rfl
      rw [ofSources_eq_underRule h.frame two ht, ofSources_eq_underRule h.frame two ht,
        underRule_kept h hr hne hbelow, underRule_kept h hs hne hbelow]
      split_ifs with hdrift
      · rfl
      · rw [hconflict, hconflict]

end Kept

section Exact

variable {f : Frame} {sources : List (MassFunction ℚ)} (h : ExactFrame f sources) {r : Rule}
include h

/-- Sources with a total of exactly one leave a total of exactly one, under every rule. -/
theorem total_assigned_exact (hne : sources ≠ []) (hK : r = .dempster → conflictMass sources < 1) :
    (assigned r f sources).total = 1 := by
  by_cases hr : r = .dempster
  · subst hr
    exact total_assigned_dempster h hne (hK rfl)
  · rw [total_assigned_kept h.toSharedFrame hr hne]
    exact List.prod_eq_one (List.forall_mem_map.2 h.total)

theorem ofSources_exact (two : 2 ≤ sources.length) {options : DriftOptions ℚ} {ε : ℚ}
    (haccepted : options.Accepted ε) (hK : r = .dempster → conflictMass sources < 1 - ε) :
    ofSources sources (.rule r) options =
      .ok ⟨⟨f, assigned r f sources, ε⟩, conflictMass sources⟩ := by
  have hne : sources ≠ [] := List.ne_nil_of_length_pos (by omega)
  have h0 := haccepted.bounds.1
  have hlt : r = .dempster → conflictMass sources < 1 := fun hr => by linarith [hK hr]
  have hone := total_assigned_exact h hne hlt
  have hsup := supported_assigned h.toSharedFrame hne hlt
  have htotal : |(assigned r f sources).total - 1| ≤ ε := by
    rw [hone, sub_self, abs_zero]
    exact h0.le
  rw [ofSources_eq_assigned h.toSharedFrame two haccepted hK htotal fun e he =>
    hone ▸ Tally.le_total (fun d hd => (hsup.pos d hd).le) he, min_eq_left (conflictMass_le_one h)]

theorem eq_assigned_of_ok (two : 2 ≤ sources.length) {options : DriftOptions ℚ} {c : Combination ℚ}
    (hc : ofSources sources (.rule r) options = .ok c) :
    (r = .dempster → conflictMass sources < 1) ∧
      ∃ ε, c = ⟨⟨f, assigned r f sources, ε⟩, conflictMass sources⟩ := by
  have haccepted := accepted_of_ok h.toSharedFrame two hc
  obtain ⟨ε, δ, -, h0, -, hK, -, rfl⟩ := eq_of_ofSources_eq_ok h.toSharedFrame two hc
  have hok := ofSources_exact h two haccepted hK
  exact ⟨fun hr => by linarith [hK hr], ε, Except.ok.inj (hc.symm.trans hok)⟩

end Exact

/-- Under the tolerances of any policy the two rules that keep contradictory products assign the
product of the totals, succeed just when that is near enough to one, and so succeed together. -/
theorem ofSources_conserves {f : Frame} {sources : List (MassFunction ℚ)}
    (h : SharedFrame f sources) (two : 2 ≤ sources.length) {options : Value ℚ} {p : Policy ℚ}
    (hp : Policy.ofOptions options = .ok p) :
    (∀ r, r ≠ .dempster → (assigned r f sources).total = (sources.map (·.total)).prod) ∧
      (∃ δ, p.tolerances.hardDriftThreshold = .finite δ ∧ ∀ r, r ≠ .dempster →
        ((∃ c, ofSources sources (.rule r) (.ofTolerances p.tolerances) = .ok c) ↔
          |(sources.map (·.total)).prod - 1| ≤ δ)) ∧
      ((∃ c, ofSources sources (.rule .yager) (.ofTolerances p.tolerances) = .ok c) ↔
        ∃ c, ofSources sources (.rule .duboisPrade) (.ofTolerances p.tolerances) = .ok c) := by
  have hne : sources ≠ [] := List.ne_nil_of_length_pos (by omega)
  obtain ⟨ε, δ, ht, h0, h1, hδ, -⟩ := Policy.tolerances_of_ofOptions hp
  have hsuccess (r : Rule) (hr : r ≠ .dempster) := exists_ofSources_kept h hr two h0 h1 hδ
  rw [ht]
  refine ⟨fun r hr => total_assigned_kept h hr hne, ⟨δ, rfl, hsuccess⟩, ?_⟩
  exact (hsuccess .yager (by decide)).trans (hsuccess .duboisPrade (by decide)).symm

def contradictory : List (MassFunction ℚ) :=
  [⟨.binary, [(.finite 1, 1)], defaultEpsilon⟩, ⟨.binary, [(.finite 2, 1)], defaultEpsilon⟩]

theorem conserves_contradictory :
    conflictMass contradictory = 1 ∧
      (∃ c, ofSources contradictory (.rule .yager) (.ofTolerances Policy.usual.tolerances) = .ok c) ∧
      ∃ c, ofSources contradictory (.rule .duboisPrade) (.ofTolerances Policy.usual.tolerances) =
        .ok c := by
  have hvalid {A : Mask} (hA : A ≠ .empty) (hin : A.within Frame.binary.size = true) :
      (⟨.binary, [(A, 1)], defaultEpsilon⟩ : MassFunction ℚ).Valid :=
    MassFunction.valid_certain hA hin (by norm_num) (by norm_num [defaultEpsilon_eq])
      (by norm_num [defaultEpsilon_eq])
  have hshared : SharedFrame .binary contradictory :=
    .pair (hvalid (by decide) (by decide)) (hvalid (by decide) (by decide)) rfl
  have hp : Policy.ofOptions (.absent : Value ℚ) = .ok Policy.usual := Policy.ofOptions_none (.inl rfl)
  have htotals : (contradictory.map (·.total)).prod = 1 := by
    simp [contradictory, MassFunction.total_certain]
  obtain ⟨-, ⟨δ, hδ, hsuccess⟩, htogether⟩ := ofSources_conserves hshared (by decide) hp
  obtain rfl : defaultHardDriftThreshold = δ := Quantity.finite.inj (Value.number.inj hδ)
  have hyager := (hsuccess .yager (by decide)).2 (by
    rw [htotals, defaultHardDriftThreshold_eq]
    norm_num)
  refine ⟨?_, hyager, htogether.1 hyager⟩
  rw [contradictory, conflictMass_disjoint (by decide), MassFunction.total_certain,
    MassFunction.total_certain, one_mul]

end Evidence.Combination
