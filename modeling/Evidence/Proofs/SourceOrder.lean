import Mathlib
import Evidence.MassFunction.Belief
import Evidence.Proofs.Correspondence
import Evidence.Proofs.Simple

namespace Evidence

/-- Evidence over one frame with the same mass on every event, however it is written. -/
structure SameEvidence (m n : MassFunction ℚ) : Prop where
  frame : m.frame = n.frame
  mass : ∀ A, m.massOf A = n.massOf A

theorem SameEvidence.carried {m n : MassFunction ℚ} (h : SameEvidence m n) (hm : m.Valid)
    (hn : n.Valid) : Tally.Carried id m.masses n.masses :=
  Tally.integral_eq_of_amounts hn.distinct hm.distinct fun k => (h.mass k).symm

section Rewritten

variable {m n : MassFunction ℚ} (hm : m.Valid) (hframe : m.frame = n.frame)
  (hmasses : m.masses.Perm n.masses)
include hm hframe hmasses

theorem SameEvidence.of_perm : SameEvidence m n where
  frame := hframe
  mass A := by
    have hn : n.masses.keys.Nodup := (hmasses.map _).nodup hm.distinct
    change m.masses.amount A = n.masses.amount A
    rw [Tally.amount_eq_integral hm.distinct, Tally.amount_eq_integral hn]
    exact (hmasses.map _).sum_eq

theorem MassFunction.Valid.of_perm (hε : m.epsilon ≤ n.epsilon) (h1 : n.epsilon < 0.1) : n.Valid where
  inside e he := hframe ▸ hm.inside e (hmasses.mem_iff.2 he)
  distinct := (hmasses.map _).nodup hm.distinct
  positive e he := hm.positive e (hmasses.mem_iff.2 he)
  tolerance := ⟨hm.tolerance.1.trans_le hε, h1⟩
  normalized := by
    rw [← Tally.total_perm hmasses]
    exact hm.normalized.trans hε

end Rewritten

namespace Combination

/-- Outcomes that a caller cannot tell apart. The frames that a mismatch names and its position are
left open, as they depend on which source comes first. -/
inductive SameOutcome : Except (Failure ℚ) (Combination ℚ) → Except (Failure ℚ) (Combination ℚ) → Prop
  | mismatch (f g f' g' : Frame) (i i' : Option Nat) :
      SameOutcome (.error (.fault (.sourcesOfFrames f g i))) (.error (.fault (.sourcesOfFrames f' g' i')))
  | failure (e : Failure ℚ) : SameOutcome (.error e) (.error e)
  | success {c d : Combination ℚ} (mass : SameEvidence c.mass d.mass)
      (epsilon : c.mass.epsilon = d.mass.epsilon) (conflict : c.conflict = d.conflict) :
      SameOutcome (.ok c) (.ok d)

theorem Corresponds.same {f : Frame} {a b : Except (Failure ℚ) (Combination ℚ)}
    (h : Corresponds f f (Moved f f id) a b) : SameOutcome a b := by
  cases h with
  | failure e => exact .failure e
  | unnormalized x ε => exact .failure _
  | success h =>
      obtain ⟨⟨⟨hc, hd⟩, hfirst, hsecond, hmasses⟩, hε, hconflict⟩ := h
      refine .success ⟨hc.trans hd.symm, fun A => ?_⟩ hε hconflict
      exact (hmasses.amount hfirst.distinct hsecond.distinct fun j _ hj => hj).symm

/-- Lists of sources with the same sums over choices, where a choice is looked at without regard to
its order. -/
def Interchangeable (xs ys : List (MassFunction ℚ)) : Prop :=
  ∀ g : List Mask → ℚ, (∀ ks ls, ks.Perm ls → g ks = g ls) →
    Choices.integral (xs.map (·.masses)) g = Choices.integral (ys.map (·.masses)) g

theorem interchangeable_of_perm {xs ys zs : List (MassFunction ℚ)} (hperm : xs.Perm zs)
    (hsame : List.Forall₂ SameEvidence zs ys) (hz : ∀ m ∈ zs, m.Valid) (hy : ∀ m ∈ ys, m.Valid) :
    Interchangeable xs ys := by
  intro g hg
  have hcarried : List.Forall₂ (Tally.Carried id) (zs.map (·.masses)) (ys.map (·.masses)) :=
    MassFunction.carried_of_forall₂ hsame fun m hm n hn hmn => hmn.carried (hz m hm) (hy n hn)
  rw [Choices.integral_perm (hperm.map _) hg, Choices.integral_forall₂ hcarried]
  simp only [List.map_id]

theorem share_perm {ks ls : List Mask} (h : ks.Perm ls) (r : Rule) (K : ℚ) :
    share r K ks = share r K ls := by
  cases r with
  | dempster => simp only [share, Mask.meet_perm h]
  | yager | duboisPrade => rfl

theorem landing_perm {ks ls : List Mask} (h : ks.Perm ls) (r : Rule) (f : Frame) :
    landing r f ks = landing r f ls := by
  cases r with
  | dempster | yager => simp only [landing, Mask.meet_perm h]
  | duboisPrade => simp only [landing, Mask.meet_perm h, Mask.join_perm h]

theorem conflictMass_perm {xs ys : List (MassFunction ℚ)} (h : xs.Perm ys) :
    conflictMass xs = conflictMass ys := by
  unfold conflictMass weightWhere
  apply Choices.integral_perm (h.map _)
  intro ks ls hks
  simp only [Mask.meet_perm hks]

theorem Interchangeable.conflictMass_eq {xs ys : List (MassFunction ℚ)} (h : Interchangeable xs ys) :
    conflictMass xs = conflictMass ys := by
  unfold conflictMass weightWhere
  apply h _
  intro ks ls hks
  simp only [Mask.meet_perm hks]

section Shared

variable {f : Frame} {xs ys : List (MassFunction ℚ)} (hx : SharedFrame f xs) (hy : SharedFrame f ys)
  (hxne : xs ≠ []) (hyne : ys ≠ []) (h : Interchangeable xs ys)
include hx hy hxne hyne h

theorem integral_assigned_eq (r : Rule) (g : Mask → ℚ) :
    (assigned r f xs).integral g = (assigned r f ys).integral g := by
  rw [integral_assign hx hxne, integral_assign hy hyne, h.conflictMass_eq]
  exact h _ fun ks ls hks => by rw [share_perm hks, landing_perm hks]

theorem underRule_same (r : Rule) {t : Tolerances ℚ}
    (ht : (Value.finite 0).isBelow t.epsilon = true) :
    SameOutcome (underRule r t f xs) (underRule r t f ys) :=
  (underRule_corresponds hx hy Iff.rfl h.conflictMass_eq (fun _ _ _ _ => id)
    (fun g => (integral_assigned_eq hx hy hxne hyne h r g).symm) hxne hyne ht).same

end Shared

theorem frame_iff_of_perm {xs ys zs : List (MassFunction ℚ)} (hperm : xs.Perm zs)
    (hsame : List.Forall₂ SameEvidence zs ys) (f : Frame) :
    (∀ m ∈ xs, m.frame = f) ↔ ∀ m ∈ ys, m.frame = f := by
  simp only [hperm.mem_iff]
  clear hperm
  induction hsame with
  | nil => rfl
  | cons hmn _ ih => rw [List.forall_mem_cons, List.forall_mem_cons, ih, hmn.frame]

/-- Sources may be put in any order and written in any way, under every rule and all options. -/
theorem ofSources_order {xs ys zs : List (MassFunction ℚ)} (hperm : xs.Perm zs)
    (hsame : List.Forall₂ SameEvidence zs ys) (hx : ∀ m ∈ xs, m.Valid) (hy : ∀ m ∈ ys, m.Valid)
    (two : 2 ≤ xs.length) (rule : RuleChoice ℚ) (options : DriftOptions ℚ) :
    SameOutcome (ofSources xs rule options) (ofSources ys rule options) := by
  have hlength : ys.length = xs.length := hsame.length_eq.symm.trans hperm.length_eq.symm
  have hframes := frame_iff_of_perm hperm hsame
  by_cases hcommon : ∃ f, ∀ m ∈ xs, m.frame = f
  · obtain ⟨f, hfx⟩ := hcommon
    have hfy := (hframes f).1 hfx
    have hinter : Interchangeable xs ys :=
      interchangeable_of_perm hperm hsame (fun m hm => hx m (hperm.mem_iff.2 hm)) hy
    rw [ofSources_eq_bind hfx two, ofSources_eq_bind hfy (hlength ▸ two)]
    cases ht : options.resolve with
    | error e => exact .failure e
    | ok t =>
        cases rule with
        | unknown got => exact .failure _
        | rule r =>
            have hxne : xs ≠ [] := List.ne_nil_of_length_pos (by omega)
            have hyne : ys ≠ [] := List.ne_nil_of_length_pos (by omega)
            exact underRule_same ⟨hx, hfx⟩ ⟨hy, hfy⟩ hxne hyne hinter r
              (DriftOptions.below_of_resolve ht).1
  · have hcommon' : ¬ ∃ f, ∀ m ∈ ys, m.frame = f := fun ⟨f, hf⟩ => hcommon ⟨f, (hframes f).2 hf⟩
    obtain ⟨f, g, i, he⟩ := ofSources_eq_mismatch two hcommon rule options
    obtain ⟨f', g', i', he'⟩ := ofSources_eq_mismatch (hlength ▸ two) hcommon' rule options
    rw [he, he']
    exact .mismatch f g f' g' i i'

def backwards (m : MassFunction ℚ) : MassFunction ℚ := ⟨m.frame, m.masses.reverse, 1 / 100⟩

theorem order_opposed : SameOutcome
    (ofSources (MassFunction.opposed (1 / 2) (1 / 3)) (.rule .yager) (.fields .absent .absent))
    (ofSources (MassFunction.opposed (1 / 2) (1 / 3) |>.reverse.map backwards) (.rule .yager)
      (.fields .absent .absent)) := by
  have hvalid : ∀ m ∈ MassFunction.opposed (1 / 2) (1 / 3), m.Valid :=
    MassFunction.valid_opposed (by norm_num) (by norm_num)
  have hperm (m : MassFunction ℚ) : m.masses.Perm (backwards m).masses :=
    (List.reverse_perm m.masses).symm
  have hsame : ∀ m ∈ (MassFunction.opposed (1 / 2) (1 / 3)).reverse, SameEvidence m (backwards m) :=
    fun m hm => .of_perm (hvalid m (List.mem_reverse.1 hm)) rfl (hperm m)
  have hε : ∀ m ∈ (MassFunction.opposed (1 / 2) (1 / 3)).reverse, m.epsilon ≤ 1 / 100 := by
    norm_num [MassFunction.opposed, MassFunction.simple, defaultEpsilon_eq]
  have hvalid' : ∀ m ∈ (MassFunction.opposed (1 / 2) (1 / 3)).reverse.map backwards, m.Valid :=
    List.forall_mem_map.2 fun m hm => .of_perm (hvalid m (List.mem_reverse.1 hm)) rfl (hperm m)
      (hε m hm) (by norm_num [backwards])
  exact ofSources_order (List.reverse_perm _).symm
    (List.forall₂_map_right_iff.2 (List.forall₂_same.2 hsame)) hvalid hvalid' (by decide) _ _

end Combination

end Evidence
