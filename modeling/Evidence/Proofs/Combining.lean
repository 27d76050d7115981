import Mathlib
import Evidence.Proofs.Assigning
import Evidence.Proofs.Outcome

namespace Evidence

theorem Value.isBelow_of_zero {v : Value ℚ} (h : (Value.finite 0).isBelow v = true) :
    (Quantity.finite 0).below v.amount = true := h

namespace Tolerances

theorem lt_one_of_not_isTotal {t : Tolerances ℚ} (ht : (Value.finite 0).isBelow t.epsilon = true)
    {k : ℚ} (h : ¬ t.isTotal k = true) : k < 1 := by
  have hbelow := Value.isBelow_of_zero ht
  unfold isTotal at h
  cases he : t.epsilon.amount with
  | finite ε =>
      rw [he] at h hbelow
      have h0 : 0 < ε := of_decide_eq_true hbelow
      have hk : ¬ 1 - ε ≤ k := fun hle => h (decide_eq_true hle)
      linarith
  | infinite negative =>
      rw [he] at h hbelow
      cases negative with
      | false => exact absurd rfl h
      | true => exact Bool.noConfusion hbelow
  | nan =>
      rw [he] at hbelow
      exact Bool.noConfusion hbelow

theorem isTotal_iff {ε : ℚ} (h0 : 0 < ε) (v : Value ℚ) (k : ℚ) :
    (⟨.finite ε, v⟩ : Tolerances ℚ).isTotal (min k 1) = true ↔ 1 - ε ≤ k := by
  refine decide_eq_true_iff.trans ?_
  change 1 - ε ≤ min k 1 ↔ _
  rw [le_min_iff]
  exact and_iff_left (by linarith)

theorem not_refuses_of_le {ε x : ℚ} (hx : x ≤ ε) {v : Value ℚ}
    (h : (Value.finite ε).isBelow v = true) :
    ¬ (⟨.finite ε, v⟩ : Tolerances ℚ).refuses x = true := by
  have hbelow : (Quantity.finite ε).below v.amount = true := h
  unfold refuses
  cases hv : v.amount with
  | finite δ =>
      rw [hv] at hbelow
      have hδ : ε < δ := of_decide_eq_true hbelow
      exact fun hlt => absurd (of_decide_eq_true hlt) (not_lt.2 (hx.trans hδ.le))
  | infinite negative =>
      rw [hv] at hbelow
      cases negative with
      | false => exact Bool.noConfusion
      | true => exact Bool.noConfusion hbelow
  | nan => exact Bool.noConfusion

end Tolerances

namespace DriftOptions

theorem below_of_resolve {options : DriftOptions ℚ} {t : Tolerances ℚ}
    (h : options.resolve = .ok t) :
    (Value.finite 0).isBelow t.epsilon = true ∧ t.epsilon.isBelow t.hardDriftThreshold = true := by
  cases options with
  | null => cases h
  | fields epsilon threshold =>
      simp only [resolve] at h
      cases he : (epsilon.orElse (.finite defaultEpsilon)).checkText with
      | error m => rw [he] at h; cases h
      | ok u =>
          cases ht : (threshold.orElse
              (.number (thresholdFor (epsilon.orElse (.finite defaultEpsilon)).amount))).checkText with
          | error m => rw [he, ht] at h; cases h
          | ok u =>
              rw [he, ht] at h
              change (if _ then _ else _) = _ at h
              split_ifs at h with hbelow
              obtain rfl := Except.ok.inj h
              exact hbelow

theorem resolve_eq {α : Type} [Scalar α] {epsilon threshold : Value α} {ε δ : α}
    (hε : epsilon.orElse (.finite defaultEpsilon) = .finite ε)
    (hδ : threshold.orElse (.number (thresholdFor (.finite ε))) = .finite δ) (h0 : 0 < ε)
    (h1 : ε < δ) : (fields epsilon threshold).resolve = .ok ⟨.finite ε, .finite δ⟩ := by
  have hthreshold : threshold.orElse
      (.number (thresholdFor (epsilon.orElse (.finite defaultEpsilon)).amount)) = .finite δ := by
    rw [hε]
    exact hδ
  simp only [resolve]
  rw [hthreshold, hε]
  exact if_pos ⟨decide_eq_true h0, decide_eq_true h1⟩

theorem resolve_finite {α : Type} [Scalar α] {ε δ : α} (h0 : 0 < ε) (h1 : ε < δ) :
    (ofTolerances ⟨.finite ε, .finite δ⟩).resolve =
      .ok (⟨.finite ε, .finite δ⟩ : Tolerances α) := resolve_eq rfl rfl h0 h1

def Accepted (options : DriftOptions ℚ) (ε : ℚ) : Prop :=
  ∃ δ, options.resolve = .ok ⟨.finite ε, δ⟩ ∧ MassFunction.checkEpsilon (.finite ε) = .ok ε

theorem accepted_of_resolve {options : DriftOptions ℚ} {ε : ℚ} {δ : Value ℚ}
    (h : options.resolve = .ok ⟨.finite ε, δ⟩) (h0 : 0 < ε) (h1 : ε < 1 / 10) :
    options.Accepted ε :=
  ⟨δ, h, MassFunction.checkEpsilon_eq_ok_iff.2 ⟨rfl, h0, h1⟩⟩

theorem accepted_finite {ε δ : ℚ} (h0 : 0 < ε) (h1 : ε < 1 / 10) (hδ : ε < δ) :
    (ofTolerances ⟨.finite ε, .finite δ⟩ : DriftOptions ℚ).Accepted ε :=
  accepted_of_resolve (resolve_finite h0 hδ) h0 h1

theorem Accepted.bounds {options : DriftOptions ℚ} {ε : ℚ} (h : options.Accepted ε) :
    0 < ε ∧ ε < 1 / 10 := by
  obtain ⟨δ, -, hε⟩ := h
  exact (MassFunction.checkEpsilon_eq_ok_iff.1 hε).2

end DriftOptions

namespace Combination

abbrev assigned (r : Rule) (f : Frame) (sources : List (MassFunction ℚ)) : Tally Mask ℚ :=
  assign r f (Conjunction.ofSources (r = .duboisPrade) f sources)

theorem supported_assigned {f : Frame} {sources : List (MassFunction ℚ)} (h : SharedFrame f sources)
    (hne : sources ≠ []) {r : Rule} (hr : r = .dempster → conflictMass sources < 1) :
    (assigned r f sources).Supported f :=
  supported_assign h hne fun hd => min_lt_of_left_lt (hr hd)

/-- A combination under a rule fails for total conflict, for drift, for its tolerance, or because
nothing is left of the masses, in this order. -/
theorem underRule_eq {f : Frame} {sources : List (MassFunction ℚ)} (h : SharedFrame f sources)
    (hne : sources ≠ []) (r : Rule) {t : Tolerances ℚ}
    (ht : (Value.finite 0).isBelow t.epsilon = true) :
    underRule r t f sources =
      if r = .dempster ∧ t.isTotal (min (conflictMass sources) 1) then
        .error (.fault (.totalConflict (.finite (min (conflictMass sources) 1))))
      else if t.refuses |(assigned r f sources).total - 1| then
        .error (.fault (.normalizationDrift (.finite (assigned r f sources).total)
          t.hardDriftThreshold))
      else (MassFunction.checkEpsilon t.epsilon).bind fun ε =>
        if assigned r f sources = [] then .error (.fault (.unnormalized 0 ε f))
        else .ok ⟨⟨f, settled t (assigned r f sources), ε⟩, min (conflictMass sources) 1⟩ := by
  have hconflict := conflict_ofSources h hne (decide (r = .duboisPrade))
  unfold underRule
  simp only [hconflict]
  by_cases htotal : r = .dempster ∧ t.isTotal (min (conflictMass sources) 1) = true
  · rw [if_pos htotal, if_pos htotal]
    rfl
  · rw [if_neg htotal, if_neg htotal]
    have hsup : (assigned r f sources).Supported f := by
      apply supported_assign h hne
      intro hr
      exact Tolerances.lt_one_of_not_isTotal ht fun hk => htotal ⟨hr, hk⟩
    change ((Failure.ofFault (settle t (assigned r f sources))).bind fun s =>
      (MassFunction.ofMasses f s t.epsilon).bind fun m => .ok (⟨m, _⟩ : Combination ℚ)) = _
    rw [settle_eq]
    by_cases hdrift : t.refuses |(assigned r f sources).total - 1| = true
    · rw [if_pos hdrift, if_pos hdrift]
      rfl
    · rw [if_neg hdrift, if_neg hdrift]
      change ((MassFunction.ofMasses f (settled t (assigned r f sources)) t.epsilon).bind _) = _
      rw [MassFunction.ofMasses_eq (supported_settled hsup t) (settled_le_one hsup.pos t)]
      cases hε : MassFunction.checkEpsilon t.epsilon with
      | error e => rfl
      | ok ε =>
          obtain ⟨hε, h0, h1⟩ := MassFunction.checkEpsilon_eq_ok_iff.1 hε
          change Except.bind (if ε < _ then _ else _) _ = if assigned r f sources = [] then _ else _
          -- with nothing assigned the total is zero, and no tolerance reaches from there to one
          by_cases hnil : assigned r f sources = []
          · have hgap : ε < |(0 : ℚ) - 1| := by rw [zero_sub, abs_neg, abs_one]; linarith
            have hzero : Tally.total ([] : Tally Mask ℚ) = 0 := rfl
            rw [if_pos hnil, hnil, settled_nil, hzero, if_pos hgap]
            rfl
          · rw [if_neg hnil, if_neg (not_lt.2 (total_settled hsup.pos t hnil hε h0))]
            rfl

theorem commonFrame_eq_ok {first : MassFunction ℚ} {rest : List (MassFunction ℚ)}
    (h : ∀ m ∈ rest, m.frame = first.frame) : commonFrame first rest = .ok first.frame := by
  have hfind : rest.zipIdx.find? (fun p => p.1.frame ≠ first.frame) = none := by
    rw [List.find?_eq_none]
    intro p hp
    simpa using h p.1 (List.fst_mem_of_mem_zipIdx hp)
  rw [commonFrame, hfind]

theorem commonFrame_eq_error {first : MassFunction ℚ} {rest : List (MassFunction ℚ)}
    (h : ¬ ∀ m ∈ rest, m.frame = first.frame) :
    ∃ f g i, commonFrame first rest = .error (.sourcesOfFrames f g (some i)) := by
  unfold commonFrame
  cases hfind : rest.zipIdx.find? (fun p => p.1.frame ≠ first.frame) with
  | some p => exact ⟨_, _, _, rfl⟩
  | none =>
      rw [List.find?_eq_none] at hfind
      refine absurd (fun m hm => ?_) h
      rw [← List.zipIdx_map_fst 0 rest] at hm
      obtain ⟨p, hp, rfl⟩ := List.mem_map.1 hm
      simpa using hfind p hp

theorem ofSources_eq_bind {f : Frame} {sources : List (MassFunction ℚ)}
    (frame : ∀ m ∈ sources, m.frame = f) (two : 2 ≤ sources.length) (rule : RuleChoice ℚ)
    (options : DriftOptions ℚ) :
    ofSources sources rule options = options.resolve.bind fun t =>
      match rule with
      | .rule r => underRule r t f sources
      | .unknown got => .error (.ofUnknownRule got) := by
  match sources, two with
  | first :: second :: rest, _ =>
      obtain ⟨rfl, hrest⟩ := List.forall_mem_cons.1 frame
      rw [ofSources, commonFrame_eq_ok hrest]
      · cases rule <;> rfl
      · intro hnil
        cases hnil

section Resolved

variable {f : Frame} {sources : List (MassFunction ℚ)} (frame : ∀ m ∈ sources, m.frame = f)
  (two : 2 ≤ sources.length) {options : DriftOptions ℚ}
include frame two

theorem ofSources_eq_error {e : Failure ℚ} (ht : options.resolve = .error e) {rule : RuleChoice ℚ} :
    ofSources sources rule options = .error e := by
  rw [ofSources_eq_bind frame two, ht]
  rfl

theorem ofSources_eq_underRule {t : Tolerances ℚ} (ht : options.resolve = .ok t) {r : Rule} :
    ofSources sources (.rule r) options = underRule r t f sources := by
  rw [ofSources_eq_bind frame two, ht]
  rfl

end Resolved

theorem ofSources_eq_mismatch {sources : List (MassFunction ℚ)} (two : 2 ≤ sources.length)
    (h : ¬ ∃ f, ∀ m ∈ sources, m.frame = f) (rule : RuleChoice ℚ) (options : DriftOptions ℚ) :
    ∃ f g i, ofSources sources rule options = .error (.fault (.sourcesOfFrames f g (some i))) := by
  match sources, two with
  | first :: second :: rest, _ =>
      have hrest : ¬ ∀ m ∈ second :: rest, m.frame = first.frame := by
        intro hall
        exact h ⟨first.frame, List.forall_mem_cons.2 ⟨rfl, hall⟩⟩
      obtain ⟨f, g, i, he⟩ := commonFrame_eq_error hrest
      refine ⟨f, g, i, ?_⟩
      rw [ofSources, he]
      · rfl
      · intro hnil
        cases hnil

theorem ofSources_eq_assigned {f : Frame} {sources : List (MassFunction ℚ)}
    (h : SharedFrame f sources) (two : 2 ≤ sources.length) {r : Rule} {options : DriftOptions ℚ}
    {ε : ℚ} (haccepted : options.Accepted ε) (hK : r = .dempster → conflictMass sources < 1 - ε)
    (htotal : |(assigned r f sources).total - 1| ≤ ε) (hone : ∀ e ∈ assigned r f sources, e.2 ≤ 1) :
    ofSources sources (.rule r) options =
      .ok ⟨⟨f, assigned r f sources, ε⟩, min (conflictMass sources) 1⟩ := by
  have hne : sources ≠ [] := List.ne_nil_of_length_pos (by omega)
  obtain ⟨h0, h1⟩ := haccepted.bounds
  obtain ⟨δ, ht, hε⟩ := haccepted
  obtain ⟨hlow, hbelow⟩ := DriftOptions.below_of_resolve ht
  have hpartial : ¬ (r = .dempster ∧
      (⟨.finite ε, δ⟩ : Tolerances ℚ).isTotal (min (conflictMass sources) 1) = true) := by
    rintro ⟨hr, hle⟩
    exact absurd (hK hr) (not_lt.2 ((Tolerances.isTotal_iff h0 δ _).1 hle))
  have hnil : assigned r f sources ≠ [] := by
    intro hnil
    have hzero : (0 : ℚ) - 1 = -1 := by norm_num
    rw [hnil, Tally.total_eq_integral, Tally.integral_nil, hzero, abs_neg, abs_one] at htotal
    linarith
  have hignores : (⟨.finite ε, δ⟩ : Tolerances ℚ).ignores |(assigned r f sources).total - 1| = true :=
    decide_eq_true htotal
  have hsettled : settled ⟨.finite ε, δ⟩ (assigned r f sources) = assigned r f sources :=
    if_pos ⟨hignores, hone⟩
  rw [ofSources_eq_underRule h.frame two ht, underRule_eq h hne r hlow, if_neg hpartial,
    if_neg (Tolerances.not_refuses_of_le htotal hbelow), hε, hsettled]
  exact if_neg hnil

theorem ofSources_eq_totalConflict {f : Frame} {sources : List (MassFunction ℚ)}
    (h : SharedFrame f sources) (two : 2 ≤ sources.length) {options : DriftOptions ℚ} {ε : ℚ}
    (haccepted : options.Accepted ε) (hK : 1 - ε ≤ conflictMass sources) :
    ofSources sources (.rule .dempster) options =
      .error (.fault (.totalConflict (.finite (min (conflictMass sources) 1)))) := by
  have hne : sources ≠ [] := List.ne_nil_of_length_pos (by omega)
  obtain ⟨h0, -⟩ := haccepted.bounds
  obtain ⟨δ, ht, -⟩ := haccepted
  rw [ofSources_eq_underRule h.frame two ht,
    underRule_eq h hne .dempster (DriftOptions.below_of_resolve ht).1]
  exact if_pos ⟨rfl, (Tolerances.isTotal_iff h0 δ _).2 hK⟩

theorem eq_of_ofSources_eq_ok {f : Frame} {sources : List (MassFunction ℚ)}
    (h : SharedFrame f sources) (two : 2 ≤ sources.length) {r : Rule} {options : DriftOptions ℚ}
    {c : Combination ℚ} (hc : ofSources sources (.rule r) options = .ok c) :
    ∃ ε δ, options.resolve = .ok ⟨.finite ε, δ⟩ ∧ 0 < ε ∧ ε < 1 / 10 ∧
      (r = .dempster → conflictMass sources < 1 - ε) ∧ assigned r f sources ≠ [] ∧
      c = ⟨⟨f, settled ⟨.finite ε, δ⟩ (assigned r f sources), ε⟩, min (conflictMass sources) 1⟩ := by
  have hne : sources ≠ [] := by
    rintro rfl
    exact absurd two (by decide)
  rw [ofSources_eq_bind h.frame two] at hc
  obtain ⟨t, ht, hc⟩ := Outcome.bind_eq_ok hc
  dsimp only at hc
  rw [underRule_eq h hne r (DriftOptions.below_of_resolve ht).1] at hc
  split_ifs at hc with htotal hdrift hnil
  · obtain ⟨_, _, hc⟩ := Outcome.bind_eq_ok hc
    cases hc
  · obtain ⟨ε, hε, hc⟩ := Outcome.bind_eq_ok hc
    obtain ⟨hε, h0, h1⟩ := MassFunction.checkEpsilon_eq_ok_iff.1 hε
    obtain ⟨e, δ⟩ := t
    obtain rfl : e = .finite ε := hε
    refine ⟨ε, δ, ht, h0, h1, fun hr => ?_, hnil, (Except.ok.inj hc).symm⟩
    rw [← not_le]
    exact fun hle => htotal ⟨hr, (Tolerances.isTotal_iff h0 δ _).2 hle⟩

/-- Under options that are not accepted every combination fails. -/
theorem accepted_of_ok {f : Frame} {sources : List (MassFunction ℚ)} (h : SharedFrame f sources)
    (two : 2 ≤ sources.length) {r : Rule} {options : DriftOptions ℚ} {c : Combination ℚ}
    (hc : ofSources sources (.rule r) options = .ok c) : options.Accepted c.mass.epsilon := by
  obtain ⟨ε, δ, ht, h0, h1, -, -, rfl⟩ := eq_of_ofSources_eq_ok h two hc
  exact DriftOptions.accepted_of_resolve ht h0 h1

end Combination

end Evidence
