import Mathlib
import Evidence.Proofs.Agreement
import Evidence.Proofs.Conservation
import Evidence.Proofs.Dempster
import Evidence.Proofs.Obtainable

namespace Evidence

namespace Mask

variable {ms : List Mask} {n : Nat} (hin : ∀ m ∈ ms, m.within n = true)
include hin

theorem meet_full_cons (hne : ms ≠ []) : meet (full n :: ms) = meet ms := by
  have hall (i : Nat) : (cofinite 0).has i = true := by simp [has]
  have hfull : (cofinite 0).inter (full n) = full n := ext fun i => by
    rw [has_inter, hall, Bool.true_and]
  rw [← foldl_inter_full hin hne, meet, List.foldl_cons, hfull]

theorem join_full_cons : join (full n :: ms) = full n := by
  apply ext
  intro i
  rw [has_join, List.any_cons, has_full]
  cases hi : ms.any (·.has i) with
  | false => rw [Bool.or_false]
  | true =>
      have hlt := (within_iff _ n).1 (within_join hin) i (by rw [has_join, hi])
      rw [decide_eq_true hlt, Bool.true_or]

end Mask

def Rule.besideIgnorance : Rule → Rule
  | .duboisPrade => .yager
  | r => r

theorem Rule.besideIgnorance_eq_dempster {r : Rule} :
    r = .dempster ↔ r.besideIgnorance = .dempster := by
  cases r <;> decide

structure MassFunction.Ignorant (f : Frame) (v : MassFunction ℚ) : Prop where
  valid : v.Valid
  frame : v.frame = f
  masses : v.masses = [(f.full, 1)]

theorem MassFunction.ignorant_of_vacuous {choice : FrameChoice ℚ} {f : Frame} {epsilon : Value ℚ}
    {v : MassFunction ℚ} (hf : choice.resolve = .ok f) (h : vacuous choice epsilon = .ok v) :
    v.Ignorant f := by
  have hvalid := valid_of_vacuous h
  obtain ⟨g, hg, h⟩ := Outcome.bind_eq_ok h
  obtain ⟨ε, -, h⟩ := Outcome.bind_eq_ok h
  obtain rfl := Except.ok.inj h
  obtain rfl : f = g := Except.ok.inj (hf.symm.trans hg)
  exact ⟨hvalid, rfl, rfl⟩

namespace Combination

section Choices

variable {f : Frame} {ms : List Mask} (hne : ms ≠ []) (hin : ∀ m ∈ ms, m.within f.size = true)
include hne hin

theorem landing_full_cons (r : Rule) :
    landing r f (f.full :: ms) = landing r.besideIgnorance f ms := by
  have hmeet : Mask.meet (f.full :: ms) = Mask.meet ms := Mask.meet_full_cons hin hne
  have hjoin : Mask.join (f.full :: ms) = f.full := Mask.join_full_cons hin
  cases r with
  | dempster | yager => simp only [landing, hmeet, Rule.besideIgnorance]
  | duboisPrade => simp only [landing, hmeet, hjoin, Rule.besideIgnorance]

theorem share_full_cons (r : Rule) (K : ℚ) :
    share r K (f.full :: ms) = share r.besideIgnorance K ms := by
  have hmeet : Mask.meet (f.full :: ms) = Mask.meet ms := Mask.meet_full_cons hin hne
  cases r with
  | dempster => simp only [share, hmeet, Rule.besideIgnorance]
  | yager | duboisPrade => rfl

end Choices

section Inserted

variable {f : Frame} {xs ys : List (MassFunction ℚ)} (h : SharedFrame f (xs ++ ys))
  {v : MassFunction ℚ} (hv : v.Ignorant f)
include hv

theorem integral_inserted {g : List Mask → ℚ} (hg : ∀ ks ls, ks.Perm ls → g ks = g ls) :
    Choices.integral ((xs ++ v :: ys).map (·.masses)) g =
      Choices.integral ((xs ++ ys).map (·.masses)) fun ms => g (f.full :: ms) := by
  -- put first, the source has one choice with weight one to be summed out
  have hperm : (xs ++ v :: ys).Perm (v :: (xs ++ ys)) := List.perm_middle
  rw [Choices.integral_perm (hperm.map _) hg, List.map_cons, Choices.integral_cons, hv.masses,
    Tally.integral_cons, Tally.integral_nil, mul_one, add_zero]

include h

theorem shared_inserted : SharedFrame f (xs ++ v :: ys) := by
  have hcons : SharedFrame f (v :: (xs ++ ys)) :=
    ⟨List.forall_mem_cons.2 ⟨hv.valid, h.valid⟩, List.forall_mem_cons.2 ⟨hv.frame, h.frame⟩⟩
  exact hcons.perm List.perm_middle.symm

variable (hne : xs ++ ys ≠ [])
include hne

theorem conflictMass_inserted : conflictMass (xs ++ v :: ys) = conflictMass (xs ++ ys) := by
  unfold conflictMass weightWhere
  rw [integral_inserted hv fun ks ls hks => by simp only [Mask.meet_perm hks]]
  refine Choices.integral_congr fun ms hms => ?_
  obtain ⟨hnil, hin⟩ := Conjunction.choice_within hne h.key_within hms
  simp only [Frame.full, Mask.meet_full_cons hin hnil]

theorem assigned_inserted (r : Rule) : Tally.Carried id (assigned r f (xs ++ v :: ys))
    (assigned r.besideIgnorance f (xs ++ ys)) := by
  intro g
  have hins : xs ++ v :: ys ≠ [] := by simp
  rw [integral_assign h hne, integral_assign (shared_inserted h hv) hins,
    conflictMass_inserted h hv hne, integral_inserted hv fun ks ls hks => by
      rw [share_perm hks, landing_perm hks]]
  refine Choices.integral_congr fun ms hms => ?_
  obtain ⟨hnil, hin⟩ := Conjunction.choice_within hne h.key_within hms
  rw [share_full_cons hnil hin, landing_full_cons hnil hin, id]

theorem ofSources_inserted (two : 2 ≤ (xs ++ ys).length) (r : Rule) (options : DriftOptions ℚ) :
    Corresponds f f (Moved f f id) (ofSources (xs ++ v :: ys) (.rule r) options)
      (ofSources (xs ++ ys) (.rule r.besideIgnorance) options) := by
  have htwo : 2 ≤ (xs ++ v :: ys).length := by
    rw [List.perm_middle.length_eq, List.length_cons]
    omega
  exact ofSources_corresponds (shared_inserted h hv) h r.besideIgnorance_eq_dempster
    (conflictMass_inserted h hv hne) (fun _ _ _ _ => id) (assigned_inserted h hv hne r) htwo two
    options

end Inserted

section Single

variable {f : Frame} {m : MassFunction ℚ} (h : SharedFrame f [m])
include h

theorem assigned_singleton (r : Rule) : Tally.Carried id m.masses (assigned r f [m]) := by
  intro g
  rw [integral_assigned_agreed h (List.cons_ne_nil _ _) (conflictMass_singleton h)]
  simp only [List.map_cons, List.map_nil, Choices.integral_cons, Choices.integral_nil,
    Mask.meet_singleton, id]

variable {xs ys : List (MassFunction ℚ)} (hsingle : xs ++ ys = [m]) {v : MassFunction ℚ}
  (hv : v.Ignorant f)
include hsingle hv

theorem assigned_beside (r : Rule) :
    Tally.Carried id m.masses (assigned r f (xs ++ v :: ys)) := by
  intro g
  have hinserted := assigned_inserted (hsingle ▸ h) hv (hsingle ▸ List.cons_ne_nil m []) r g
  rw [hsingle, assigned_singleton h] at hinserted
  exact hinserted.symm

theorem ofSources_beside {options : DriftOptions ℚ} {ε : ℚ} (haccepted : options.Accepted ε)
    (htotal : |m.total - 1| ≤ ε) (r : Rule) :
    ∃ c, ofSources (xs ++ v :: ys) (.rule r) options = .ok c ∧ c.conflict = 0 ∧
      SameEvidence c.mass m := by
  have hlist : SharedFrame f (xs ++ ys) := hsingle ▸ h
  have hne : xs ++ ys ≠ [] := hsingle ▸ List.cons_ne_nil m []
  have hins : SharedFrame f (xs ++ v :: ys) := shared_inserted hlist hv
  have htwo : 2 ≤ (xs ++ v :: ys).length := by
    rw [List.perm_middle.length_eq, List.length_cons, hsingle]
    exact le_rfl
  have hconflict : conflictMass (xs ++ v :: ys) = 0 := by
    rw [conflictMass_inserted hlist hv hne, hsingle, conflictMass_singleton h]
  have hcarried := assigned_beside h hsingle hv r
  have hsum : (assigned r f (xs ++ v :: ys)).total = m.total := hcarried.total
  have hm : m.Valid := h.valid m (List.mem_singleton_self m)
  have hold : m.masses.Supported f := h.frame m (List.mem_singleton_self m) ▸ hm.supported
  have hsup : (assigned r f (xs ++ v :: ys)).Supported f :=
    supported_assigned hins (by simp) fun _ => hconflict.trans_lt one_pos
  have hone : ∀ e ∈ assigned r f (xs ++ v :: ys), e.2 ≤ 1 :=
    (le_one_iff_carried hold hsup hcarried fun _ _ _ _ => id).2 fun e he => (hm.positive e he).2
  have hok := ofSources_eq_assigned hins htwo haccepted
    (fun _ => by linarith [haccepted.bounds.2]) (hsum ▸ htotal) hone
  rw [hconflict, min_eq_left zero_le_one] at hok
  refine ⟨_, hok, rfl, (h.frame m (List.mem_singleton_self m)).symm, fun A => ?_⟩
  exact hcarried.amount hold.distinct hsup.distinct fun _ _ => id

end Single

theorem Corresponds.map_conflict {f g : Frame} {φ : Mask → Mask}
    {a b : Except (Failure ℚ) (Combination ℚ)} (h : Corresponds f f (Moved f g φ) a b) :
    a.map (·.conflict) = b.map (·.conflict) := by
  cases h with
  | failure e => rfl
  | unnormalized x ε => rfl
  | success h => exact congrArg Except.ok h.conflict

/-- A source that knows nothing may be put anywhere among others: it leaves the outcome as it is
under the rules of Dempster and Yager, and the rule of Dubois and Prade keeps its conflict and
becomes Yager's rule without it. Beside one other source, whose total is near enough to one, it
leaves just that source, under every rule. -/
theorem ofSources_ignorance {choice : FrameChoice ℚ} {f : Frame} {epsilon : Value ℚ}
    {v : MassFunction ℚ} (hf : choice.resolve = .ok f)
    (hv : MassFunction.vacuous choice epsilon = .ok v) (options : DriftOptions ℚ) :
    (∀ xs ys, SharedFrame f (xs ++ ys) → 2 ≤ (xs ++ ys).length →
      (∀ r, r ≠ .duboisPrade → SameOutcome (ofSources (xs ++ v :: ys) (.rule r) options)
        (ofSources (xs ++ ys) (.rule r) options)) ∧
      (ofSources (xs ++ v :: ys) (.rule .duboisPrade) options).map (·.conflict) =
        (ofSources (xs ++ ys) (.rule .duboisPrade) options).map (·.conflict) ∧
      SameOutcome (ofSources (xs ++ v :: ys) (.rule .duboisPrade) options)
        (ofSources (xs ++ ys) (.rule .yager) options)) ∧
    ∀ m ε, m.Valid → m.frame = f → options.Accepted ε → |m.total - 1| ≤ ε →
      ∀ r, ∀ sources ∈ [[m, v], [v, m]], ∃ c, ofSources sources (.rule r) options = .ok c ∧
        c.conflict = 0 ∧ SameEvidence c.mass m := by
  have hignorant := MassFunction.ignorant_of_vacuous hf hv
  constructor
  · intro xs ys h two
    have hne : xs ++ ys ≠ [] := List.ne_nil_of_length_pos (by omega)
    have hsame (r : Rule) := ofSources_inserted h hignorant hne two r options
    refine ⟨fun r hr => ?_, ?_, (hsame .duboisPrade).same⟩
    · cases r with
      | dempster => exact (hsame .dempster).same
      | yager => exact (hsame .yager).same
      | duboisPrade => exact absurd rfl hr
    · rw [(hsame .duboisPrade).map_conflict]
      exact map_conflict_kept h (r := .yager) (by decide) two (by decide) options
  · intro m ε hm hframe haccepted htotal r sources hsources
    have hsingle : SharedFrame f [m] :=
      ⟨List.forall_mem_singleton.2 hm, List.forall_mem_singleton.2 hframe⟩
    rcases List.mem_cons.1 hsources with rfl | hsources
    · exact ofSources_beside hsingle (List.append_nil [m]) hignorant haccepted htotal r
    · obtain rfl := List.mem_singleton.1 hsources
      exact ofSources_beside hsingle (List.nil_append [m]) hignorant haccepted htotal r

theorem ignorance_opposed :
    ∃ v, MassFunction.vacuous (.frame .binary : FrameChoice ℚ) .absent = .ok v ∧
      SameOutcome
        (ofSources [.simple .binary (.finite 1) (1 / 2), v, .simple .binary (.finite 2) (1 / 3)]
          (.rule .duboisPrade) (.ofTolerances ⟨.finite (1 / 1000), .finite (1 / 10)⟩))
        (ofSources (MassFunction.opposed (1 / 2) (1 / 3)) (.rule .yager)
          (.ofTolerances ⟨.finite (1 / 1000), .finite (1 / 10)⟩)) ∧
      ∃ c, ofSources [v, .simple .binary (.finite 1) (1 / 2)] (.rule .dempster)
          (.ofTolerances ⟨.finite (1 / 1000), .finite (1 / 10)⟩) = .ok c ∧
        c.conflict = 0 ∧ SameEvidence c.mass (.simple .binary (.finite 1) (1 / 2)) := by
  have hε : MassFunction.checkEpsilon (.finite defaultEpsilon : Value ℚ) = .ok defaultEpsilon :=
    MassFunction.checkEpsilon_eq_ok_iff.2 ⟨rfl, by norm_num [defaultEpsilon_eq]⟩
  have hv : MassFunction.vacuous (.frame .binary : FrameChoice ℚ) .absent =
      .ok ⟨.binary, [(Frame.binary.full, 1)], defaultEpsilon⟩ := by
    change (MassFunction.checkEpsilon (.finite defaultEpsilon : Value ℚ)).bind _ = _
    rw [hε]
    rfl
  have hshared := MassFunction.shared_opposed (x := 1 / 2) (y := 1 / 3) (by norm_num) (by norm_num)
  have haccepted : (DriftOptions.ofTolerances ⟨.finite (1 / 1000), .finite (1 / 10)⟩ :
      DriftOptions ℚ).Accepted (1 / 1000) :=
    DriftOptions.accepted_of_resolve (DriftOptions.resolve_finite (by norm_num) (by norm_num))
      (by norm_num) (by norm_num)
  obtain ⟨hinserted, hbeside⟩ := ofSources_ignorance rfl hv
    (.ofTolerances ⟨.finite (1 / 1000), .finite (1 / 10)⟩)
  refine ⟨_, hv, (hinserted [_] [_] hshared (by decide)).2.2, ?_⟩
  refine hbeside _ _ (hshared.valid _ (List.mem_cons_self ..)) rfl haccepted ?_ .dempster _
    (List.mem_cons_of_mem _ (List.mem_singleton_self _))
  rw [MassFunction.total, MassFunction.total_simple]
  norm_num

end Combination

end Evidence
