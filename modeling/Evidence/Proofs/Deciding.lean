import Mathlib
import Evidence.Proofs.Simple
import Evidence.Proofs.Textbook

namespace Evidence.Combination

def kind : Except (Failure ℚ) (Combination ℚ) → Except (Option Fault.Code) Unit
  | .ok _ => .ok ()
  | .error (.fault f) => .error (some f.code)
  | .error _ => .error none

def decision (r : Rule) (ε δ : ℚ) : List (MassFunction ℚ) → Except (Option Fault.Code) Unit
  | [] => .error (some .emptyEvidenceSet)
  | [_] => .ok ()
  | first :: second :: rest =>
      let sources := first :: second :: rest
      if ∃ m ∈ sources, ∃ n ∈ sources, m.frame ≠ n.frame then .error (some .frameMismatch)
      else if r = .dempster ∧ 1 - ε ≤ conflictMass sources then .error (some .totalConflict)
      else if δ < |rawTotal r first.frame sources - 1| then .error (some .normalizationDrift)
      else .ok ()

theorem frames_differ_iff {sources : List (MassFunction ℚ)} (hne : sources ≠ []) :
    (∃ m ∈ sources, ∃ n ∈ sources, m.frame ≠ n.frame) ↔ ¬ ∃ f, ∀ m ∈ sources, m.frame = f := by
  constructor
  · rintro ⟨m, hm, n, hn, hmn⟩ ⟨f, hf⟩
    exact hmn ((hf m hm).trans (hf n hn).symm)
  · intro h
    obtain ⟨m, hm⟩ := List.exists_mem_of_ne_nil sources hne
    by_contra hsame
    refine h ⟨m.frame, fun n hn => ?_⟩
    by_contra hnm
    exact hsame ⟨n, hn, m, hm, hnm⟩

/-- Under finite tolerances only total conflict and drift stop a combination of sources over one
frame. -/
theorem kind_underRule {f : Frame} {sources : List (MassFunction ℚ)} (h : SharedFrame f sources)
    (hne : sources ≠ []) (r : Rule) {ε δ : ℚ} (h0 : 0 < ε) (h1 : ε < 1 / 10) (hδ1 : δ < 1) :
    kind (underRule r ⟨.finite ε, .finite δ⟩ f sources) =
      if r = .dempster ∧ 1 - ε ≤ conflictMass sources then .error (some .totalConflict)
      else if δ < |rawTotal r f sources - 1| then .error (some .normalizationDrift)
      else .ok () := by
  have hz : (Value.finite 0).isBelow (Value.finite ε) = true := decide_eq_true h0
  have hiff := Tolerances.isTotal_iff h0 (.finite δ) (conflictMass sources)
  rw [underRule_eq h hne r hz]
  by_cases htotal : r = .dempster ∧ 1 - ε ≤ conflictMass sources
  · rw [if_pos htotal, if_pos (htotal.imp_right hiff.2)]
    rfl
  · rw [if_neg htotal, if_neg fun ht => htotal (ht.imp_right hiff.1)]
    have hr : r = .dempster → conflictMass sources < 1 := by
      intro hd
      have hK := not_le.1 fun hK => htotal ⟨hd, hK⟩
      linarith
    have htot := total_assigned h hne hr
    rw [htot]
    by_cases hdrift : δ < |rawTotal r f sources - 1|
    · rw [if_pos hdrift, if_pos (Tolerances.refuses_finite.2 hdrift)]
      rfl
    · have hnil : assigned r f sources ≠ [] := by
        intro hnil
        have hzero : rawTotal r f sources = 0 := by
          rw [← htot, hnil]
          rfl
        rw [hzero, zero_sub, abs_neg, abs_one] at hdrift
        exact hdrift hδ1
      rw [if_neg hdrift, if_neg (mt Tolerances.refuses_finite.1 hdrift),
        MassFunction.checkEpsilon_eq_ok_iff.2 ⟨rfl, h0, h1⟩]
      change kind (if assigned r f sources = [] then _ else _) = _
      rw [if_neg hnil]
      rfl

/-- Under the tolerances of a policy a combination goes the way of the first decision that applies;
a single source is handed back as it is. -/
theorem kind_ofSources {sources : List (MassFunction ℚ)} (valid : ∀ m ∈ sources, m.Valid) (r : Rule)
    {ε δ : ℚ} (h0 : 0 < ε) (h1 : ε < 1 / 10) (hδ : ε < δ) (hδ1 : δ < 1) :
    kind (ofSources sources (.rule r) (.ofTolerances ⟨.finite ε, .finite δ⟩)) =
        decision r ε δ sources ∧
      ∀ m, sources = [m] →
        ofSources sources (.rule r) (.ofTolerances ⟨.finite ε, .finite δ⟩) = .ok ⟨m, 0⟩ := by
  refine ⟨?_, by rintro m rfl; rfl⟩
  match sources, valid with
  | [], _ => rfl
  | [m], _ => rfl
  | first :: second :: rest, valid =>
      have hne : first :: second :: rest ≠ [] := List.cons_ne_nil _ _
      have two : 2 ≤ (first :: second :: rest).length := by simp
      generalize hs : first :: second :: rest = sources at valid hne two
      rw [← hs, decision]
      simp only [hs]
      by_cases hframes : ∃ m ∈ sources, ∃ n ∈ sources, m.frame ≠ n.frame
      · rw [if_pos hframes]
        obtain ⟨f, g, i, he⟩ := ofSources_eq_mismatch two ((frames_differ_iff hne).1 hframes)
          (.rule r) (.ofTolerances ⟨.finite ε, .finite δ⟩)
        rw [he]
        rfl
      · rw [if_neg hframes]
        obtain ⟨f, hf⟩ := not_not.1 (mt (frames_differ_iff hne).2 hframes)
        obtain rfl : first.frame = f := hf first (hs ▸ List.mem_cons_self ..)
        rw [ofSources_eq_bind hf two, DriftOptions.resolve_finite h0 hδ]
        exact kind_underRule ⟨valid, hf⟩ hne r h0 h1 hδ1

theorem kind_opposed : kind (ofSources (MassFunction.opposed (1 / 2) (1 / 2)) (.rule .dempster)
    (.ofTolerances ⟨.finite (1 / 10 ^ 6), .finite (1 / 10 ^ 3)⟩)) = .ok () := by
  have hvalid := MassFunction.valid_opposed (x := 1 / 2) (y := 1 / 2) (by norm_num) (by norm_num)
  have h0 : (0 : ℚ) < 1 / 10 ^ 6 := by norm_num
  have hδ : (1 / 10 ^ 6 : ℚ) < 1 / 10 ^ 3 := by norm_num
  refine (kind_ofSources hvalid .dempster h0 (by norm_num) hδ (by norm_num)).1.trans ?_
  decide +kernel

end Evidence.Combination
