import Mathlib
import Evidence.Policy
import Evidence.Proofs.Deciding

namespace Evidence

def Outcome.FailsWith {α β : Type} (code : Fault.Code) (r : Except (Failure α) β) : Prop :=
  ∃ x, r = .error (.fault x) ∧ x.code = code

namespace Policy

def usual : Policy ℚ where
  threshold := defaultConflictThreshold
  tolerances := ⟨.finite defaultEpsilon, .finite defaultHardDriftThreshold⟩
  logs := true
  listener := .absent

theorem ofOptions_none {options : Value ℚ} (h : options = .absent ∨ options = .object []) :
    ofOptions options = .ok usual := by
  have hchecked : ofOptions options = ofChecked (.object []) .absent := by
    rcases h with rfl | rfl
    · rfl
    · rfl
  have hε := defaultEpsilon_eq
  have hδ := defaultHardDriftThreshold_eq
  have hgreater : greater (defaultHardDriftThreshold : ℚ) ((10 : Nat) * defaultEpsilon) =
      defaultHardDriftThreshold := by
    rw [greater, if_neg]
    push_cast
    linarith
  have hthreshold : DriftOptions.thresholdFor (.finite (defaultEpsilon : ℚ)) =
      .finite defaultHardDriftThreshold := congrArg Quantity.finite hgreater
  have hresolve : (DriftOptions.ofValue (.object [])).resolve = .ok usual.tolerances :=
    DriftOptions.resolve_eq rfl (congrArg Value.number hthreshold) (by linarith) (by linarith)
  rw [hchecked, ofChecked, hresolve]
  rfl

theorem outcome_usual (sources : List (MassFunction ℚ)) (rule : RuleChoice ℚ) :
    (usual.combineAll sources rule).outcome =
      (Combination.ofSources sources rule (.ofTolerances usual.tolerances)).map fun c =>
        ⟨c.mass, c.conflict, rule, sources.length, usual.assess (.finite c.conflict) rule⟩ := by
  unfold combineAll
  cases Combination.ofSources sources rule (.ofTolerances usual.tolerances) with
  | error failure => rfl
  | ok c =>
      change Except.map _ (Reported.each usual.report (usual.assess _ rule)).outcome = _
      have hreported : (Reported.each usual.report (usual.assess (.finite c.conflict) rule)).outcome =
          .ok () := by
        unfold assess
        split_ifs
        · rfl
        · rfl
      rw [hreported]
      rfl

end Policy

namespace Combination

section Kind

variable {β : Type} (r : Except (Failure ℚ) (Combination ℚ)) (g : Combination ℚ → β)

theorem failsWith_map_iff (code : Fault.Code) :
    Outcome.FailsWith code (r.map g) ↔ kind r = .error (some code) := by
  unfold Outcome.FailsWith
  cases r with
  | ok c => simp [kind, Except.map]
  | error e => cases e <;> simp [kind, Except.map]

theorem exists_map_eq_ok_iff : (∃ x, r.map g = .ok x) ↔ kind r = .ok () := by
  cases r with
  | ok c => simp [kind, Except.map]
  | error e => cases e <;> simp [kind, Except.map]

end Kind

theorem rawTotal_dempster {f : Frame} {sources : List (MassFunction ℚ)} (h : SharedFrame f sources)
    (hne : sources ≠ []) (hK : conflictMass sources < 1) :
    rawTotal .dempster f sources =
      ((sources.map (·.total)).prod - conflictMass sources) / (1 - conflictMass sources) := by
  have hkept : (Choices.integral (sources.map (·.masses)) fun ms =>
      if Mask.meet ms = .empty then 0 else 1) =
      (sources.map (·.total)).prod - conflictMass sources := by
    rw [eq_sub_iff_add_eq, conflictMass, weightWhere, ← Choices.integral_plus,
      ← integral_one_eq_prod]
    refine Choices.integral_congr fun ms _ => ?_
    split_ifs <;> norm_num
  rw [← total_assigned h hne fun _ => hK, Tally.total_eq_integral, integral_assign h hne, ← hkept,
    min_eq_left hK.le, ← Choices.integral_div]
  apply Choices.integral_congr
  intro ms _
  by_cases hms : Mask.meet ms = .empty
  · simp [share, hms]
  · simp [share, hms]

def pairDecision (K T : ℚ) : Except (Option Fault.Code) Unit :=
  if 1 - defaultEpsilon ≤ K then .error (some .totalConflict)
  else if defaultHardDriftThreshold * (1 - K) < |T - 1| then .error (some .normalizationDrift)
  else .ok ()

section PairDecision

variable {K T : ℚ}

theorem pairDecision_totalConflict :
    pairDecision K T = .error (some .totalConflict) ↔ 1 - defaultEpsilon ≤ K := by
  unfold pairDecision
  split_ifs with hK hdrift <;> simp [hK]

theorem pairDecision_normalizationDrift : pairDecision K T = .error (some .normalizationDrift) ↔
    K < 1 - defaultEpsilon ∧ defaultHardDriftThreshold * (1 - K) < |T - 1| := by
  unfold pairDecision
  split_ifs with hK hdrift
  · simp [hK]
  · simp [not_le.1 hK, hdrift]
  · simp [hdrift]

theorem pairDecision_ok : pairDecision K T = .ok () ↔
    K < 1 - defaultEpsilon ∧ |T - 1| ≤ defaultHardDriftThreshold * (1 - K) := by
  unfold pairDecision
  split_ifs with hK hdrift
  · simp [hK]
  · simp [hdrift]
  · simp [not_le.1 hK, not_lt.1 hdrift]

end PairDecision

section Pair

variable {a b : MassFunction ℚ} (ha : a.Valid) (hb : b.Valid) (hframe : a.frame = b.frame)
include ha hb hframe

theorem kind_pair :
    kind (ofSources [a, b] (.rule .dempster) (.ofTolerances Policy.usual.tolerances)) =
      pairDecision (conflictMass [a, b]) (a.total * b.total) := by
  have hshared := SharedFrame.pair ha hb hframe
  have hne : [a, b] ≠ [] := List.cons_ne_nil _ _
  have hε : (0 : ℚ) < defaultEpsilon ∧ (defaultEpsilon : ℚ) < 1 / 10 := by
    rw [defaultEpsilon_eq]
    norm_num
  have hδ : (defaultEpsilon : ℚ) < defaultHardDriftThreshold ∧
      (defaultHardDriftThreshold : ℚ) < 1 := by
    rw [defaultEpsilon_eq, defaultHardDriftThreshold_eq]
    norm_num
  rw [ofSources_eq_bind hshared.frame (by simp), Policy.usual,
    DriftOptions.resolve_finite hε.1 hδ.1]
  refine (kind_underRule hshared hne .dempster hε.1 hε.2 hδ.2).trans ?_
  simp only [true_and, pairDecision]
  by_cases hK : 1 - defaultEpsilon ≤ conflictMass [a, b]
  · rw [if_pos hK, if_pos hK]
  · have hK1 : conflictMass [a, b] < 1 := by linarith
    have hrest : 0 < 1 - conflictMass [a, b] := sub_pos.2 hK1
    have hgap : |rawTotal .dempster a.frame [a, b] - 1| =
        |a.total * b.total - 1| / (1 - conflictMass [a, b]) := by
      rw [rawTotal_dempster hshared hne hK1, div_sub_one hrest.ne', abs_div, abs_of_pos hrest]
      simp
    rw [if_neg hK, if_neg hK, hgap]
    simp only [lt_div_iff₀ hrest]

omit ha hb hframe in
theorem conflictMass_disjoint
    (h : ∀ d ∈ a.masses, ∀ e ∈ b.masses, Mask.inter d.1 e.1 = .empty) :
    conflictMass [a, b] = a.total * b.total := by
  have hone : Choices.integral [a.masses, b.masses] (fun _ => 1) = a.total * b.total := by
    rw [Choices.integral_one]
    simp [MassFunction.total]
  rw [← hone]
  unfold conflictMass weightWhere
  apply Choices.integral_congr
  intro ms hms
  obtain ⟨k, ls, hk, hls, rfl⟩ := List.forall₂_cons_right_iff.1 hms
  obtain ⟨l, _, hl, hnil, rfl⟩ := List.forall₂_cons_right_iff.1 hls
  obtain rfl := List.forall₂_nil_right_iff.1 hnil
  obtain ⟨d, hd, rfl⟩ := List.mem_map.1 hk
  obtain ⟨e, he, rfl⟩ := List.mem_map.1 hl
  exact if_pos ((Mask.meet_pair d.1 e.1).trans (h d hd e he))

omit hframe in
theorem gap_pair (hεa : a.epsilon = defaultEpsilon) (hεb : b.epsilon = defaultEpsilon) :
    |a.total * b.total - 1| ≤ 3 / 1000000 := by
  have hε := defaultEpsilon_eq
  have hT := ha.total_near
  have hU := hb.total_near
  rw [hεa, hε, abs_le] at hT
  rw [hεb, hε, abs_le] at hU
  rw [abs_le]
  have hsplit : a.total * b.total - 1 =
      (a.total - 1) * b.total + (b.total - 1) := by ring
  constructor <;> nlinarith only [hT, hU, hsplit]

end Pair

end Combination

namespace Policy

/-- Dempster's rule between two sources of the default tolerance under the policy that comes without
options. Total conflict is the only failure just when the product of their totals is near enough to
one for what the conflict leaves. It is, unless the conflict comes close to one. Of two sources that
have nothing in common the product must itself reach the cut-off. -/
theorem combine_usual {options : Value ℚ} (ho : options = .absent ∨ options = .object [])
    {p : Policy ℚ} (hp : ofOptions options = .ok p) {a b : MassFunction ℚ} (ha : a.Valid)
    (hb : b.Valid) (hframe : a.frame = b.frame) (hεa : a.epsilon = defaultEpsilon)
    (hεb : b.epsilon = defaultEpsilon) :
    let outcome := (p.combine a b (.rule .dempster)).outcome
    let K := Combination.conflictMass [a, b]
    let T := a.total * b.total
    (Outcome.FailsWith .totalConflict outcome ↔ 1 - defaultEpsilon ≤ K) ∧
    (Outcome.FailsWith .normalizationDrift outcome ↔
      K < 1 - defaultEpsilon ∧ defaultHardDriftThreshold * (1 - K) < |T - 1|) ∧
    ((∃ r, outcome = .ok r) ↔
      K < 1 - defaultEpsilon ∧ |T - 1| ≤ defaultHardDriftThreshold * (1 - K)) ∧
    (K ≤ 0.997 → ∃ r, outcome = .ok r) ∧
    ((∀ d ∈ a.masses, ∀ e ∈ b.masses, Mask.inter d.1 e.1 = .empty) →
      (Outcome.FailsWith .totalConflict outcome ↔ 1 - defaultEpsilon ≤ T) ∧
      (Outcome.FailsWith .normalizationDrift outcome ↔ T < 1 - defaultEpsilon)) := by
  obtain rfl : usual = p := Except.ok.inj ((ofOptions_none ho).symm.trans hp)
  have hkind := Combination.kind_pair ha hb hframe
  have hgap := Combination.gap_pair ha hb hεa hεb
  have hε := defaultEpsilon_eq
  have hδ := defaultHardDriftThreshold_eq
  intro outcome K T
  have houtcome : outcome = _ := outcome_usual [a, b] (.rule .dempster)
  have htotal : Outcome.FailsWith .totalConflict outcome ↔ 1 - defaultEpsilon ≤ K := by
    rw [houtcome, Combination.failsWith_map_iff, hkind, Combination.pairDecision_totalConflict]
  have hdrifted : Outcome.FailsWith .normalizationDrift outcome ↔
      K < 1 - defaultEpsilon ∧ defaultHardDriftThreshold * (1 - K) < |T - 1| := by
    rw [houtcome, Combination.failsWith_map_iff, hkind,
      Combination.pairDecision_normalizationDrift]
  have hcombined : (∃ r, outcome = .ok r) ↔
      K < 1 - defaultEpsilon ∧ |T - 1| ≤ defaultHardDriftThreshold * (1 - K) := by
    rw [houtcome, Combination.exists_map_eq_ok_iff, hkind, Combination.pairDecision_ok]
  refine ⟨htotal, hdrifted, hcombined, fun hK => ?_, fun hdisjoint => ?_⟩
  · have hK : K ≤ 997 / 1000 := hK.trans_eq (by norm_num)
    have hgap : |T - 1| ≤ 3 / 1000000 := hgap
    rw [hcombined, hδ]
    constructor <;> linarith
  · have hKT : K = T := Combination.conflictMass_disjoint hdisjoint
    rw [htotal, hdrifted, hKT, hδ]
    refine ⟨Iff.rfl, fun h => h.1, fun hT => ⟨hT, ?_⟩⟩
    rw [abs_sub_comm, abs_of_pos (by linarith)]
    linarith

theorem combine_usual_opposed :
    ∃ r, (usual.combineAll (MassFunction.opposed (1 / 2) (1 / 3)) (.rule .dempster)).outcome =
      .ok r := by
  have hvalid := MassFunction.valid_opposed (x := 1 / 2) (y := 1 / 3) (by norm_num) (by norm_num)
  obtain ⟨ha, hb⟩ := List.forall_mem_cons.1 hvalid
  have hK : Combination.conflictMass (MassFunction.opposed (1 / 2) (1 / 3)) ≤ 0.997 := by
    rw [Combination.conflictMass_opposed]
    norm_num
  have hp : ofOptions (.absent : Value ℚ) = .ok usual := ofOptions_none (.inl rfl)
  exact (combine_usual (.inl rfl) hp ha (List.forall_mem_singleton.1 hb) rfl rfl rfl).2.2.2.1 hK

def nearlyCertain (A : Mask) : MassFunction ℚ :=
  ⟨.binary, [(A, 9999991 / 10000000)], defaultEpsilon⟩

theorem total_nearlyCertain (A : Mask) : (nearlyCertain A).total = 9999991 / 10000000 :=
  MassFunction.total_certain ..

theorem valid_nearlyCertain {A : Mask} (hA : A ≠ .empty) (hin : A.within 2 = true) :
    (nearlyCertain A).Valid :=
  MassFunction.valid_certain (f := .binary) hA hin (by norm_num) (by norm_num [defaultEpsilon_eq])
    (by norm_num [defaultEpsilon_eq, abs_of_neg])

/-- Two sources with nothing in common whose fusion fails for drift. -/
theorem drift_nearlyCertain :
    let a := nearlyCertain (.finite 1)
    let b := nearlyCertain (.finite 2)
    a.Valid ∧ b.Valid ∧ (∀ d ∈ a.masses, ∀ e ∈ b.masses, Mask.inter d.1 e.1 = .empty) ∧
      ¬ Outcome.FailsWith .totalConflict (usual.combine a b (.rule .dempster)).outcome ∧
      Outcome.FailsWith .normalizationDrift (usual.combine a b (.rule .dempster)).outcome := by
  have ha := valid_nearlyCertain (A := .finite 1) (by decide) (by decide)
  have hb := valid_nearlyCertain (A := .finite 2) (by decide) (by decide)
  intro a b
  have hkind := Combination.kind_pair ha hb rfl
  have houtcome : (usual.combine a b (.rule .dempster)).outcome = _ := outcome_usual [a, b] _
  have hdisjoint : ∀ d ∈ a.masses, ∀ e ∈ b.masses, Mask.inter d.1 e.1 = .empty := by decide
  have htotal : a.total * b.total = 9999991 ^ 2 / 10 ^ 14 := by
    rw [total_nearlyCertain, total_nearlyCertain]
    norm_num
  have hdecision : Combination.pairDecision (Combination.conflictMass [a, b]) (a.total * b.total) =
      .error (some .normalizationDrift) := by
    rw [Combination.pairDecision_normalizationDrift, Combination.conflictMass_disjoint hdisjoint,
      htotal, defaultEpsilon_eq, defaultHardDriftThreshold_eq]
    norm_num [abs_of_neg]
  rw [houtcome, Combination.failsWith_map_iff, Combination.failsWith_map_iff, hkind, hdecision]
  exact ⟨ha, hb, hdisjoint, by decide, rfl⟩

end Policy

end Evidence
