import Mathlib
import Evidence.Proofs.Accepting
import Evidence.Proofs.Obtainable

namespace Evidence

section Nonnegative

variable {α : Type} [Scalar α] [Scalar.Ordered α] {κ : Type} [DecidableEq κ]

theorem sum_nonneg {xs : List α} (h : ∀ x ∈ xs, 0 ≤ x) : 0 ≤ sum xs := by
  have hfold (a : α) (ha : 0 ≤ a) : 0 ≤ xs.foldl (· + ·) a := by
    induction xs generalizing a with
    | nil => exact ha
    | cons x xs ih =>
        obtain ⟨hx, hxs⟩ := List.forall_mem_cons.1 h
        exact ih hxs (a + x) (Scalar.Ordered.add_nonneg ha hx)
  exact hfold 0 Scalar.Ordered.le_zero

namespace Tally

def Nonneg (t : Tally κ α) : Prop := ∀ e ∈ t, 0 ≤ e.2

theorem Nonneg.add {t : Tally κ α} (h : t.Nonneg) (k : κ) {x : α} (hx : 0 ≤ x) :
    (t.add k x).Nonneg := by
  induction t with
  | nil => exact List.forall_mem_singleton.2 hx
  | cons e t ih =>
      obtain ⟨he, ht⟩ := List.forall_mem_cons.1 h
      unfold Tally.add
      split_ifs
      · exact List.forall_mem_cons.2 ⟨Scalar.Ordered.add_nonneg he hx, ht⟩
      · exact List.forall_mem_cons.2 ⟨he, ih ht⟩

theorem nonneg_collect {pairs : List (κ × α)} (h : ∀ p ∈ pairs, 0 ≤ p.2) :
    (collect pairs).Nonneg :=
  foldl_add_induction (P := Nonneg) nofun fun p hp _ ht => ht.add p.1 (h p hp)

end Tally

namespace Conjunction

theorem nonneg_extend {withUnion : Bool} {c : Conjunction α} (hc : c.Nonneg)
    {source : Tally Mask α} (h : ∀ e ∈ source, 0 < e.2 ∧ e.2 ≤ 1) :
    (extend withUnion c source).Nonneg := by
  apply Tally.nonneg_collect
  intro p hp
  obtain ⟨q, hq, hp⟩ := List.mem_flatMap.1 hp
  obtain ⟨e, he, rfl⟩ := List.mem_map.1 hp
  exact Scalar.Ordered.mul_nonneg (hc q hq) (h e he).1 (h e he).2

theorem nonneg_ofSources {withUnion : Bool} {f : Frame} {sources : List (MassFunction α)}
    (h : ∀ m ∈ sources, ∀ e ∈ m.masses, 0 < e.2 ∧ e.2 ≤ 1) :
    (ofSources withUnion f sources).Nonneg := by
  have hfold (c : Conjunction α) (hc : c.Nonneg) :
      Tally.Nonneg (sources.foldl (fun c m => extend withUnion c m.masses) c) := by
    induction sources generalizing c with
    | nil => exact hc
    | cons m sources ih =>
        obtain ⟨hm, hsources⟩ := List.forall_mem_cons.1 h
        exact ih hsources _ (nonneg_extend hc hm)
  exact hfold _ (List.forall_mem_singleton.2 (Scalar.Lawful.le_of_lt Scalar.Lawful.zero_lt_one))

theorem conflict_nonneg {c : Conjunction α} (hc : c.Nonneg) : 0 ≤ c.conflict := by
  unfold conflict lesser
  split_ifs
  · exact Scalar.Lawful.le_of_lt Scalar.Lawful.zero_lt_one
  · refine sum_nonneg fun x hx => ?_
    obtain ⟨e, he, rfl⟩ := List.mem_map.1 hx
    exact hc e (List.mem_of_mem_filter he)

end Conjunction

theorem Combination.conflict_nonneg {sources : List (MassFunction α)}
    (h : ∀ m ∈ sources, ∀ e ∈ m.masses, 0 < e.2 ∧ e.2 ≤ 1) {rule : RuleChoice α}
    {options : DriftOptions α} {c : Combination α} (hc : ofSources sources rule options = .ok c) :
    0 ≤ c.conflict := by
  rcases MassFunction.cases_of_ofSources hc with ⟨-, hzero⟩ | ⟨f, _, _, withUnion, -, hconflict, -⟩
  · rw [hzero]
    exact Scalar.Ordered.le_zero
  · rw [hconflict]
    exact Conjunction.conflict_nonneg (Conjunction.nonneg_ofSources h)

end Nonnegative

variable {α : Type} [Scalar α]

def Value.isCallable : Value α → Bool
  | .callable => true
  | _ => false

def Advisory.line (a : Advisory α) : Log.Line α := ⟨.warn, a.message, some a.entry.context⟩

theorem Advisory.line?_entry (a : Advisory α) :
    a.entry.line? (Log.Level.ofSetting none) = some a.line := rfl

namespace Policy

def due (p : Policy α) (conflict : α) (rule : RuleChoice α) : List (Advisory α) :=
  if p.threshold ≤ conflict then [⟨rule, .finite conflict, p.threshold⟩] else []

def telling (p : Policy α) (a : Advisory α) : List (Notice α) :=
  (if p.logs then [.log a.entry] else []) ++ if p.listener.isCallable then [.advisory a] else []

theorem report_eq (p : Policy α) (a : Advisory α) :
    p.report a = ⟨p.telling a,
      if p.listener.isCallable ∨ p.listener.isNothing then .ok ()
      else .error (.misuse (.notCallable "this.onAdvisory"))⟩ := by
  unfold report telling
  cases p.listener with
  | callable => rfl
  | _ => simp [Value.isCallable, Value.isNothing, Value.nothing?]

theorem each_report {p : Policy α} (h : p.listener.isCallable ∨ p.listener.isNothing)
    (as : List (Advisory α)) :
    Reported.each p.report as = ⟨as.flatMap p.telling, .ok ()⟩ := by
  induction as with
  | nil => rfl
  | cons a as ih => rw [Reported.each, report_eq, if_pos h, ih]; rfl

theorem each_report_unheard {p : Policy α} (h : ¬ (p.listener.isCallable ∨ p.listener.isNothing))
    (a : Advisory α) (as : List (Advisory α)) :
    Reported.each p.report (a :: as) =
      ⟨p.telling a, .error (.misuse (.notCallable "this.onAdvisory"))⟩ := by
  rw [Reported.each, report_eq, if_neg h]

theorem lines_telling (p : Policy α) (as : List (Advisory α)) {β : Type}
    (outcome : Except (Failure α) β) :
    Reported.lines (Log.Level.ofSetting none) ⟨as.flatMap p.telling, outcome⟩ =
      if p.logs then as.map Advisory.line else [] := by
  unfold Reported.lines telling
  induction as with
  | nil => simp
  | cons a as ih =>
      rw [List.flatMap_cons, List.filterMap_append, ih]
      cases p.logs <;> cases p.listener.isCallable <;> simp [Advisory.line?_entry]

theorem advised_telling (p : Policy α) (as : List (Advisory α)) {β : Type}
    (outcome : Except (Failure α) β) :
    Reported.advised ⟨as.flatMap p.telling, outcome⟩ =
      if p.listener.isCallable then as else [] := by
  unfold Reported.advised telling
  induction as with
  | nil => simp
  | cons a as ih =>
      rw [List.flatMap_cons, List.filterMap_append, ih]
      cases p.logs <;> cases p.listener.isCallable <;> simp

variable [Scalar.Ordered α]

theorem assess_eq_due {p : Policy α} (ht : 0 < p.threshold) {conflict : α} (h0 : 0 ≤ conflict)
    (rule : RuleChoice α) : p.assess (.finite conflict) rule = p.due conflict rule := by
  unfold assess due
  by_cases hlt : conflict < p.threshold
  · have hbelow : (Quantity.finite conflict).below (.finite p.threshold) = true :=
      decide_eq_true hlt
    rw [if_pos hbelow, if_neg fun hle => Scalar.Ordered.not_lt_of_le hle hlt]
  · have hbelow : ¬ (Quantity.finite conflict).below (.finite p.threshold) = true :=
      fun h => hlt (of_decide_eq_true h)
    rw [if_neg hbelow, if_pos (Scalar.Ordered.le_of_not_lt h0 (Scalar.Lawful.le_of_lt ht) hlt)]

/-- A combination that succeeds is told of as its advisories are due, and its fusion comes out
unless there is a listener that cannot be called. -/
theorem conclude_eq {p : Policy α} (ht : 0 < p.threshold) {c : Combination α}
    (h0 : 0 ≤ c.conflict) (rule : RuleChoice α) (count : Nat) :
    p.conclude c rule count = ⟨(p.due c.conflict rule).flatMap p.telling,
      if p.listener.isCallable ∨ p.listener.isNothing ∨ p.due c.conflict rule = [] then
        .ok ⟨c.mass, c.conflict, rule, count, p.due c.conflict rule⟩
      else .error (.misuse (.notCallable "this.onAdvisory"))⟩ := by
  unfold conclude
  rw [assess_eq_due ht h0]
  dsimp only
  by_cases hheard : p.listener.isCallable ∨ p.listener.isNothing
  · have hok : p.listener.isCallable ∨ p.listener.isNothing ∨ p.due c.conflict rule = [] :=
      hheard.imp_right .inl
    rw [if_pos hok, each_report hheard]
    rfl
  · unfold due
    by_cases hle : p.threshold ≤ c.conflict
    · rw [if_pos hle, each_report_unheard hheard, if_neg (by simpa using hheard)]
      simp [Reported.map, Except.map]
    · rw [if_neg hle, if_pos (.inr (.inr rfl))]
      rfl

theorem due_of_zero {p : Policy α} (ht : 0 < p.threshold) (rule : RuleChoice α) :
    p.due 0 rule = [] := if_neg fun hle => Scalar.Ordered.not_lt_of_le hle ht

/-- Whatever its options, a policy hands on the failure of a combination and tells nothing of it. A
combination that succeeds becomes a fusion with one advisory if its conflict reaches the threshold
and none otherwise, which is told of once: by a warning where the policy logs, and then to the
listener. Two sources and sources under options are fused alike, and a source alone calls for no
advisory. The sources may have any masks, be they inside the frame or not, as long as their masses
are what every construction leaves, above zero and at most one. -/
theorem combineAll_advises {options : Value α} {p : Policy α} (hp : ofOptions options = .ok p)
    {sources : List (MassFunction α)} (hs : ∀ m ∈ sources, ∀ e ∈ m.masses, 0 < e.2 ∧ e.2 ≤ 1)
    (rule : RuleChoice α) :
    (∀ e, Combination.ofSources sources rule (.ofTolerances p.tolerances) = .error e →
        p.combineAll sources rule = ⟨[], .error e⟩) ∧
      (∀ c, Combination.ofSources sources rule (.ofTolerances p.tolerances) = .ok c →
        p.combineAll sources rule = ⟨(p.due c.conflict rule).flatMap p.telling,
          if p.listener.isCallable ∨ p.listener.isNothing ∨ p.due c.conflict rule = [] then
            .ok ⟨c.mass, c.conflict, rule, sources.length, p.due c.conflict rule⟩
          else .error (.misuse (.notCallable "this.onAdvisory"))⟩ ∧
        (p.combineAll sources rule).lines (Log.Level.ofSetting none) =
          (if p.logs then (p.due c.conflict rule).map Advisory.line else []) ∧
        (p.combineAll sources rule).advised =
          if p.listener.isCallable then p.due c.conflict rule else []) ∧
      (∀ a b, p.combine a b rule = p.combineAll [a, b] rule ∧
        Fusion.ofSources [a, b] rule options = p.combine a b rule) ∧
      Fusion.ofSources sources rule options = p.combineAll sources rule ∧
      (∀ other e, ofOptions other = .error e →
        Fusion.ofSources sources rule other = ⟨[], .error e⟩) ∧
      (sources.length ≤ 1 → (p.combineAll sources rule).notices = [] ∧
        ∀ r, (p.combineAll sources rule).outcome = .ok r → r.advisories = []) := by
  have ht := (bounds_of_ofOptions hp).2
  have hfailed (e : Failure α) (he : Combination.ofSources sources rule
      (.ofTolerances p.tolerances) = .error e) : p.combineAll sources rule = ⟨[], .error e⟩ := by
    rw [combineAll, he]
    rfl
  have hsucceeded (c : Combination α) (hc : Combination.ofSources sources rule
      (.ofTolerances p.tolerances) = .ok c) :
      p.combineAll sources rule = p.conclude c rule sources.length := by rw [combineAll, hc]
  have hfresh (ms : List (MassFunction α)) :
      Fusion.ofSources ms rule options = p.combineAll ms rule := by rw [Fusion.ofSources, hp]
  refine ⟨hfailed, fun c hc => ?_, fun a b => ⟨rfl, hfresh [a, b]⟩, hfresh sources,
    fun other e he => ?_, fun hlength => ?_⟩
  · rw [hsucceeded c hc, conclude_eq ht (Combination.conflict_nonneg hs hc)]
    exact ⟨rfl, lines_telling .., advised_telling ..⟩
  · rw [Fusion.ofSources, he]
    rfl
  · match sources, hlength with
    | [], _ =>
        rw [hfailed _ rfl]
        exact ⟨rfl, nofun⟩
    | [m], _ =>
        rw [hsucceeded ⟨m, 0⟩ rfl, conclude_eq ht Scalar.Ordered.le_zero, due_of_zero ht,
          if_pos (.inr (.inr rfl))]
        refine ⟨rfl, fun r hr => ?_⟩
        obtain rfl := Except.ok.inj hr
        rfl

section Disputed

set_option maxRecDepth 4000

def heard : Value Float := .object [(listenerField, .callable)]

/-- Two sources, each certain of what the other one excludes. The mask of the first one sticks out of
its frame. -/
def disputed : List (MassFunction Float) :=
  [⟨.binary, [(.finite 4, 1)], defaultEpsilon⟩, ⟨.binary, [(.finite 1, 1)], defaultEpsilon⟩]

theorem advises_disputed :
    (∀ m ∈ disputed, ∀ e ∈ m.masses, 0 < e.2 ∧ e.2 ≤ 1) ∧ ∃ p, ofOptions heard = .ok p ∧
      (p.combineAll disputed (.rule .yager)).advised =
        [⟨.rule .yager, .finite 1, defaultConflictThreshold⟩] ∧
      (p.combineAll disputed (.rule .yager)).lines (Log.Level.ofSetting none) =
        [Advisory.line ⟨.rule .yager, .finite 1, defaultConflictThreshold⟩] ∧
      ∃ e, p.combineAll disputed (.rule .dempster) = ⟨[], .error e⟩ := by
  have hp : ofOptions heard = .ok ⟨defaultConflictThreshold,
      ⟨.finite defaultEpsilon, .finite defaultHardDriftThreshold⟩, true, .callable⟩ := rfl
  have hfirst : MassFunction.ofEntries [(.event ⟨.binary, .finite 4⟩, .finite 1)]
      ⟨some (.frame .binary), .absent⟩ =
      .ok (⟨.binary, [(.finite 4, 1)], defaultEpsilon⟩ : MassFunction Float) := rfl
  have hsecond : MassFunction.ofEntries [(.single (.ofNat 0), .finite 1)]
      ⟨some (.frame .binary), .absent⟩ =
      .ok (⟨.binary, [(.finite 1, 1)], defaultEpsilon⟩ : MassFunction Float) := rfl
  have hs : ∀ m ∈ disputed, ∀ e ∈ m.masses, 0 < e.2 ∧ e.2 ≤ 1 := by
    intro m hm
    rcases List.mem_pair.1 hm with rfl | rfl
    · exact MassFunction.positive_of_ofEntries hfirst
    · exact MassFunction.positive_of_ofEntries hsecond
  have hyager : Combination.ofSources disputed (.rule .yager) (.fields (.finite defaultEpsilon)
      (.finite defaultHardDriftThreshold)) =
      .ok ⟨⟨.binary, [(.finite 3, 1)], defaultEpsilon⟩, 1⟩ := rfl
  have hdempster : Combination.ofSources disputed (.rule .dempster) (.fields
      (.finite defaultEpsilon) (.finite defaultHardDriftThreshold)) =
      .error (.fault (.totalConflict (.finite 1))) := rfl
  obtain ⟨-, hlines, hadvised⟩ := (combineAll_advises hp hs (.rule .yager)).2.1 _ hyager
  exact ⟨hs, _, hp, hadvised, hlines, _, (combineAll_advises hp hs (.rule .dempster)).1 _ hdempster⟩

end Disputed

end Policy

end Evidence
