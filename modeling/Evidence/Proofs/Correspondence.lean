import Mathlib
import Evidence.Proofs.Combining

namespace Evidence

structure MassFunction.Moved (f g : Frame) (φ : Mask → Mask) (m n : MassFunction ℚ) : Prop where
  frames : m.frame = f ∧ n.frame = g
  first : m.masses.Supported f
  second : n.masses.Supported g
  masses : Tally.Carried φ m.masses n.masses

theorem MassFunction.carried_of_forall₂ {R : MassFunction ℚ → MassFunction ℚ → Prop} {φ : Mask → Mask}
    {xs ys : List (MassFunction ℚ)} (h : List.Forall₂ R xs ys)
    (hR : ∀ m ∈ xs, ∀ n ∈ ys, R m n → Tally.Carried φ m.masses n.masses) :
    List.Forall₂ (Tally.Carried φ) (xs.map (·.masses)) (ys.map (·.masses)) := by
  rw [List.forall₂_map_left_iff, List.forall₂_map_right_iff, List.forall₂_iff_zip]
  obtain ⟨hlength, hzip⟩ := List.forall₂_iff_zip.1 h
  refine ⟨hlength, fun hmn => ?_⟩
  obtain ⟨hm, hn⟩ := List.of_mem_zip hmn
  exact hR _ hm _ hn (hzip hmn)

namespace Combination

structure Moved (f g : Frame) (φ : Mask → Mask) (c d : Combination ℚ) : Prop where
  mass : MassFunction.Moved f g φ c.mass d.mass
  epsilon : c.mass.epsilon = d.mass.epsilon
  conflict : c.conflict = d.conflict

/-- Outcomes that go the same way, combinations being related. The only failure that names the frame
is the one for masses of which nothing is left. -/
inductive Corresponds (f g : Frame) (R : Combination ℚ → Combination ℚ → Prop) :
    Except (Failure ℚ) (Combination ℚ) → Except (Failure ℚ) (Combination ℚ) → Prop
  | failure (e : Failure ℚ) : Corresponds f g R (.error e) (.error e)
  | unnormalized (x ε : ℚ) : Corresponds f g R (.error (.fault (.unnormalized x ε f)))
      (.error (.fault (.unnormalized x ε g)))
  | success {c d : Combination ℚ} (h : R c d) : Corresponds f g R (.ok c) (.ok d)

theorem Corresponds.imp {f g : Frame} {R S : Combination ℚ → Combination ℚ → Prop}
    {a b : Except (Failure ℚ) (Combination ℚ)} (h : Corresponds f g R a b)
    (hRS : ∀ c d, a = .ok c → b = .ok d → R c d → S c d) : Corresponds f g S a b := by
  cases h with
  | failure e => exact .failure e
  | unnormalized x ε => exact .unnormalized x ε
  | success h => exact .success (hRS _ _ rfl rfl h)

theorem Corresponds.exists_of_ok {f g : Frame} {R : Combination ℚ → Combination ℚ → Prop}
    {c : Combination ℚ} {b : Except (Failure ℚ) (Combination ℚ)} (h : Corresponds f g R (.ok c) b) :
    ∃ d, b = .ok d ∧ R c d := by
  cases h with
  | success h => exact ⟨_, rfl, h⟩

section Sides

variable {f g : Frame} {xs ys : List (MassFunction ℚ)} (hx : SharedFrame f xs)
  (hy : SharedFrame g ys) {r s : Rule} (hrule : r = .dempster ↔ s = .dempster)
  (hK : conflictMass xs = conflictMass ys) {φ : Mask → Mask}
  (hφ : ∀ j k, j.within f.size = true → k.within f.size = true → φ j = φ k → j = k)
  (hmoved : Tally.Carried φ (assigned r f xs) (assigned s g ys))
include hx hy hrule hK hφ hmoved

theorem underRule_corresponds (hxne : xs ≠ []) (hyne : ys ≠ []) {t : Tolerances ℚ}
    (ht : (Value.finite 0).isBelow t.epsilon = true) :
    Corresponds f g (Moved f g φ) (underRule r t f xs) (underRule s t g ys) := by
  rw [underRule_eq hx hxne r ht, underRule_eq hy hyne s ht, ← hK, hmoved.total]
  by_cases htotal : r = .dempster ∧ t.isTotal (min (conflictMass xs) 1) = true
  · rw [if_pos htotal, if_pos (htotal.imp_left hrule.1)]
    exact .failure _
  rw [if_neg htotal, if_neg (mt (And.imp_left hrule.2) htotal)]
  by_cases hdrift : t.refuses |(assigned r f xs).total - 1| = true
  · rw [if_pos hdrift, if_pos hdrift]
    exact .failure _
  rw [if_neg hdrift, if_neg hdrift]
  cases MassFunction.checkEpsilon t.epsilon with
  | error e => exact .failure e
  | ok ε =>
      have hlt : r = .dempster → min (conflictMass xs) 1 < 1 := fun hr =>
        Tolerances.lt_one_of_not_isTotal ht fun hk => htotal ⟨hr, hk⟩
      have hsx : (assigned r f xs).Supported f := supported_assign hx hxne hlt
      have hsy : (assigned s g ys).Supported g :=
        supported_assign hy hyne fun hs => hK ▸ hlt (hrule.2 hs)
      have hkeys : ∀ j ∈ (assigned r f xs).keys, ∀ k ∈ (assigned r f xs).keys, φ j = φ k → j = k :=
        fun j hj k hk => hφ j k (hsx.key_within hj) (hsx.key_within hk)
      change Corresponds f g (Moved f g φ) (if assigned r f xs = [] then _ else _)
        (if assigned s g ys = [] then _ else _)
      have hnil : assigned r f xs = [] ↔ assigned s g ys = [] := by
        rw [← Tally.total_eq_zero_iff hsx.pos, ← Tally.total_eq_zero_iff hsy.pos, hmoved.total]
      by_cases hempty : assigned r f xs = []
      · rw [if_pos hempty, if_pos (hnil.1 hempty)]
        exact .unnormalized 0 ε
      · rw [if_neg hempty, if_neg (mt hnil.2 hempty)]
        exact .success {
          mass := {
            frames := ⟨rfl, rfl⟩
            first := supported_settled hsx t
            second := supported_settled hsy t
            masses := settled_carried hsx t hsy hmoved hkeys }
          epsilon := rfl
          conflict := rfl }

theorem ofSources_corresponds (twox : 2 ≤ xs.length) (twoy : 2 ≤ ys.length)
    (options : DriftOptions ℚ) :
    Corresponds f g (Moved f g φ) (ofSources xs (.rule r) options)
      (ofSources ys (.rule s) options) := by
  cases ht : options.resolve with
  | error e =>
      rw [ofSources_eq_error hx.frame twox ht, ofSources_eq_error hy.frame twoy ht]
      exact .failure e
  | ok t =>
      have hxne : xs ≠ [] := List.ne_nil_of_length_pos (by omega)
      have hyne : ys ≠ [] := List.ne_nil_of_length_pos (by omega)
      rw [ofSources_eq_underRule hx.frame twox ht, ofSources_eq_underRule hy.frame twoy ht]
      exact underRule_corresponds hx hy hrule hK hφ hmoved hxne hyne
        (DriftOptions.below_of_resolve ht).1

end Sides

/-- A rule that does not exist fails before any masses are looked at. -/
theorem ofSources_unknown_eq {f g : Frame} {xs ys : List (MassFunction ℚ)}
    (hx : ∀ m ∈ xs, m.frame = f) (hy : ∀ m ∈ ys, m.frame = g) (twox : 2 ≤ xs.length)
    (twoy : 2 ≤ ys.length) (got : Value ℚ) (options : DriftOptions ℚ) :
    ∃ e, ofSources xs (.unknown got) options = .error e ∧
      ofSources ys (.unknown got) options = .error e := by
  rw [ofSources_eq_bind hx twox, ofSources_eq_bind hy twoy]
  cases options.resolve with
  | error e => exact ⟨e, rfl, rfl⟩
  | ok t => exact ⟨_, rfl, rfl⟩

end Combination

end Evidence
