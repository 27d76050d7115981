import Mathlib
import Evidence.Proofs.Guarding
import Evidence.Proofs.Inspecting
import Evidence.Proofs.Naming

namespace Evidence

section Entries

variable {α : Type} [Scalar α]

namespace Entry

structure Gives (d : Entry α) (A : Mask) (x : α) : Prop where
  mass : d.mass = .finite x
  event : ∃ e, d.event = .ok e ∧ e.mask = A

omit [Scalar α] in
theorem Gives.mask_eq {d : Entry α} {A : Mask} {x : α} {e : Event} (h : d.Gives A x)
    (he : d.event = .ok e) : e.mask = A := by
  obtain ⟨e', he', hmask⟩ := h.event
  cases he.symm.trans he'
  exact hmask

def filed? (d : Entry α) : Option (Mask × α) :=
  match Inspection.inRange? d.mass, d.event with
  | some x, .ok e => if x ≤ 0 then none else some (e.mask, x)
  | _, _ => none

def amount (d : Entry α) : α :=
  match d.mass with
  | .number (.finite x) => x
  | _ => 0

inductive Offence (before : List (Entry α)) (d : Entry α) : Fault α → Prop
  | outOfRange (h : ¬ ∃ x, d.mass = .finite x ∧ 0 ≤ x ∧ x ≤ 1) :
      Offence before d (.massOutOfRange d.name d.mass)
  | unresolved {x : α} {c : Fault α} (hx : d.mass = .finite x) (h0 : 0 ≤ x) (h1 : x ≤ 1)
      (he : d.event = .error c) : Offence before d c
  | massOnEmpty {x : α} {e : Event} (hx : d.mass = .finite x) (h0 : 0 < x) (h1 : x ≤ 1)
      (he : d.event = .ok e) (hempty : e.mask = .empty) :
      Offence before d (.massOnEmpty d.name x)
  | repeatedSet {x : α} {e : Event} (hx : d.mass = .finite x) (h0 : 0 < x) (h1 : x ≤ 1)
      (he : d.event = .ok e) (hne : e.mask ≠ .empty)
      (again : ∃ d' ∈ before, ∃ y, d'.Gives e.mask y ∧ 0 < y) :
      Offence before d (.repeatedSet e)

def Clean (entries : List (Entry α)) : Prop :=
  ∀ before d after, entries = before ++ d :: after → ∀ c, ¬ Offence before d c

theorem clean_nil : Clean ([] : List (Entry α)) := by
  intro before d after h
  simp at h

theorem clean_concat {entries : List (Entry α)} {d : Entry α} :
    Clean (entries ++ [d]) ↔ Clean entries ∧ ∀ c, ¬ Offence entries d c := by
  constructor
  · intro h
    refine ⟨fun before d' after hsplit => h before d' (after ++ [d]) ?_, h entries d [] rfl⟩
    rw [hsplit, List.append_assoc, List.cons_append]
  · rintro ⟨hclean, hd⟩ before d' after hsplit
    rcases List.eq_nil_or_concat after with rfl | ⟨after, d'', rfl⟩
    · obtain ⟨rfl, hlast⟩ := List.append_inj' hsplit rfl
      obtain rfl := List.singleton_inj.1 hlast
      exact hd
    · rw [List.concat_eq_append, ← List.cons_append, ← List.append_assoc] at hsplit
      exact hclean before d' after (List.append_inj' hsplit rfl).1

theorem clean_or_offence (entries : List (Entry α)) : Clean entries ∨
    ∃ before d after c, entries = before ++ d :: after ∧ Clean before ∧ Offence before d c := by
  -- From the right, since an entry is judged by those before it.
  induction entries using List.reverseRecOn with
  | nil => exact .inl clean_nil
  | append_singleton entries d ih =>
      rcases ih with hclean | ⟨before, d', after, c, rfl, hclean, h⟩
      · by_cases hd : ∃ c, Offence entries d c
        · obtain ⟨c, h⟩ := hd
          exact .inr ⟨entries, d, [], c, rfl, hclean, h⟩
        · exact .inl (clean_concat.2 ⟨hclean, not_exists.1 hd⟩)
      · exact .inr ⟨before, d', after ++ [d], c, by simp, hclean, h⟩

theorem Clean.in_range {entries : List (Entry α)} (h : Clean entries) {d : Entry α}
    (hd : d ∈ entries) : ∃ x, d.mass = .finite x ∧ 0 ≤ x ∧ x ≤ 1 := by
  obtain ⟨before, after, rfl⟩ := List.append_of_mem hd
  by_contra hrange
  exact h before d after rfl _ (.outOfRange hrange)

end Entry

namespace Inspection

def after (entries : List (Entry α)) : Inspection α :=
  ⟨sum (entries.map Entry.amount), entries.filterMap Entry.filed?, []⟩

theorem faults_step (s : Inspection α) (d : Entry α) : s.faults <+: (step s d).faults := by
  unfold step
  split
  · exact List.prefix_append ..
  · split
    · exact List.prefix_append ..
    · simp only [file]
      split_ifs
      · exact List.prefix_rfl
      · exact List.prefix_append ..
      · exact List.prefix_append ..
      · exact List.prefix_rfl

theorem faults_foldl_step (entries : List (Entry α)) (s : Inspection α) :
    s.faults <+: (entries.foldl step s).faults := by
  induction entries generalizing s with
  | nil => exact List.prefix_rfl
  | cons d entries ih => exact (faults_step s d).trans (ih (step s d))

theorem faults_finish (f : Frame) (ε : α) (s : Inspection α) :
    s.faults <+: (finish f ε s).faults := by
  unfold finish
  split_ifs
  · exact List.prefix_append ..
  · exact List.prefix_rfl

end Inspection

variable [Scalar.Ordered α]

theorem Entry.filed?_eq_some_iff {d : Entry α} {A : Mask} {x : α} :
    d.filed? = some (A, x) ↔ d.Gives A x ∧ 0 < x ∧ x ≤ 1 := by
  unfold filed?
  constructor
  · intro h
    split at h
    · next y e hy he =>
      obtain ⟨hmass, h0, h1⟩ := Inspection.inRange?_eq_some hy
      split_ifs at h with hzero
      cases h
      exact ⟨⟨hmass, e, he, rfl⟩, Scalar.Lawful.pos_of_not_le h0 hzero, h1⟩
    · cases h
  · rintro ⟨⟨hmass, e, he, rfl⟩, h0, h1⟩
    rw [hmass, Inspection.inRange_finite (Scalar.Lawful.le_of_lt h0) h1, he]
    exact if_neg fun hle => Scalar.Ordered.not_lt_of_le hle h0

namespace Inspection

theorem has_filed {entries : List (Entry α)} {A : Mask} :
    Tally.has A (entries.filterMap Entry.filed?) = true ↔
      ∃ d ∈ entries, ∃ x, d.Gives A x ∧ 0 < x ∧ x ≤ 1 := by
  rw [Tally.has, List.any_eq_true]
  constructor
  · rintro ⟨⟨B, x⟩, hmem, hB⟩
    obtain rfl : B = A := of_decide_eq_true hB
    obtain ⟨d, hd, hfiled⟩ := List.mem_filterMap.1 hmem
    exact ⟨d, hd, x, Entry.filed?_eq_some_iff.1 hfiled⟩
  · rintro ⟨d, hd, x, h⟩
    exact ⟨(A, x), List.mem_filterMap.2 ⟨d, hd, Entry.filed?_eq_some_iff.2 h⟩, decide_eq_true rfl⟩

variable {before entries : List (Entry α)} {d : Entry α}

theorem step_offence (hbefore : Entry.Clean before) {c : Fault α} (h : Entry.Offence before d c) :
    (step (after before) d).faults = [c] := by
  have not_zero {x : α} (hx : 0 < x) : ¬ x ≤ 0 := fun hle => Scalar.Ordered.not_lt_of_le hle hx
  unfold step
  cases h with
  | outOfRange h =>
      have hrange : inRange? d.mass = none := by
        rw [Option.eq_none_iff_forall_ne_some]
        exact fun x hx => h ⟨x, inRange?_eq_some hx⟩
      rw [hrange]
      rfl
  | unresolved hx h0 h1 he =>
      rw [hx, inRange_finite h0 h1, he]
      rfl
  | massOnEmpty hx h0 h1 he hempty =>
      rw [hx, inRange_finite (Scalar.Lawful.le_of_lt h0) h1, he]
      simp only [file, if_neg (not_zero h0), Event.isEmpty, hempty, beq_self_eq_true, if_true]
      rfl
  | @repeatedSet x e hx h0 h1 he hne again =>
      have hhas : Tally.has e.mask (after before).masses = true := by
        obtain ⟨d', hd', y, hgives, hy⟩ := again
        obtain ⟨z, hz, -, hz1⟩ := hbefore.in_range hd'
        cases hgives.mass.symm.trans hz
        exact has_filed.2 ⟨d', hd', y, hgives, hy, hz1⟩
      rw [hx, inRange_finite (Scalar.Lawful.le_of_lt h0) h1, he]
      simp only [file, if_neg (not_zero h0), Event.isEmpty, beq_eq_false_iff_ne.2 hne, hhas,
        Bool.false_eq_true, if_false, if_true]
      rfl

/-- An entry that does not offend is counted, and filed if its mass is above zero. -/
theorem step_clean (hd : ∀ c, ¬ Entry.Offence before d c) :
    step (after before) d = after (before ++ [d]) := by
  obtain ⟨x, hx, h0, h1⟩ : ∃ x, d.mass = .finite x ∧ 0 ≤ x ∧ x ≤ 1 := by
    by_contra hrange
    exact hd _ (.outOfRange hrange)
  have hrange : inRange? d.mass = some x := hx ▸ inRange_finite h0 h1
  have htotal : sum ((before ++ [d]).map Entry.amount) = sum (before.map Entry.amount) + x := by
    have hamount : d.amount = x := by rw [Entry.amount, hx]; rfl
    rw [List.map_append, sum, List.foldl_append, ← hamount]
    rfl
  cases he : d.event with
  | error c => exact absurd (.unresolved hx h0 h1 he) (hd c)
  | ok e =>
      simp only [step, hrange, he, file, after, htotal, List.filterMap_append]
      by_cases hzero : x ≤ 0
      · have hfiled : d.filed? = none := by simp [Entry.filed?, hrange, he, hzero]
        simp [hzero, hfiled]
      · have hpos := Scalar.Lawful.pos_of_not_le h0 hzero
        have hfiled : d.filed? = some (e.mask, x) :=
          Entry.filed?_eq_some_iff.2 ⟨⟨hx, e, he, rfl⟩, hpos, h1⟩
        have hne : ¬ e.mask = .empty := fun hempty => hd _ (.massOnEmpty hx hpos h1 he hempty)
        have hnew : ¬ Tally.has e.mask (before.filterMap Entry.filed?) = true := by
          intro hhas
          obtain ⟨d', hd', y, hgives, hy, -⟩ := has_filed.1 hhas
          exact hd _ (.repeatedSet hx hpos h1 he hne ⟨d', hd', y, hgives, hy⟩)
        simp [hzero, hfiled, Event.isEmpty, hne, hnew]

theorem foldl_step_clean (h : Entry.Clean entries) : entries.foldl step start = after entries := by
  induction entries using List.reverseRecOn with
  | nil => rfl
  | append_singleton entries d ih =>
      obtain ⟨hclean, hd⟩ := Entry.clean_concat.1 h
      rw [List.foldl_append, ih hclean]
      exact step_clean hd

/-- The fault of the first entry that offends comes before all others. -/
theorem faults_run_offence (hbefore : Entry.Clean before) {c : Fault α}
    (h : Entry.Offence before d c) (rest : List (Entry α)) (f : Frame) (ε : α) :
    ∃ cs, (run f ε (before ++ d :: rest)).faults = c :: cs := by
  have hprefix := (faults_foldl_step rest (step (after before) d)).trans (faults_finish f ε _)
  rw [step_offence hbefore h, ← foldl_step_clean hbefore, ← List.foldl_cons, ← List.foldl_append]
    at hprefix
  obtain ⟨cs, hcs⟩ := hprefix
  exact ⟨cs, hcs.symm⟩

/-- An inspection without faults has filed every mass above zero, and nothing else. -/
theorem masses_run {f : Frame} {ε : α} (h : (run f ε entries).faults = []) :
    Entry.Clean entries ∧ (run f ε entries).masses = entries.filterMap Entry.filed? := by
  rcases Entry.clean_or_offence entries with hclean | ⟨before, d, rest, c, rfl, hbefore, hd⟩
  · refine ⟨hclean, ?_⟩
    rw [run, finish, foldl_step_clean hclean]
    split_ifs <;> rfl
  · obtain ⟨cs, hfaults⟩ := faults_run_offence hbefore hd rest f ε
    cases hfaults.symm.trans h

end Inspection

end Entries

namespace Entry

variable {entries : List (Entry ℚ)}

/-- No entry offends just when each gives an event an amount within range, the empty one no amount
above zero, and no two of them amounts above zero to one event. -/
theorem clean_iff : Clean entries ↔
    (∀ d ∈ entries, ∃ x, d.mass = .finite x ∧ 0 ≤ x ∧ x ≤ 1) ∧
    (∀ d ∈ entries, ∃ e, d.event = .ok e) ∧
    (∀ d ∈ entries, ∀ x, d.Gives .empty x → x = 0) ∧
    entries.Pairwise fun d d' => ∀ A x y, d.Gives A x → d'.Gives A y → x = 0 ∨ y = 0 := by
  constructor
  · intro h
    have hpos {d : Entry ℚ} (hd : d ∈ entries) {A : Mask} {x : ℚ} (hx : d.Gives A x)
        (hne : x ≠ 0) : 0 < x ∧ x ≤ 1 := by
      obtain ⟨y, hy, h0, h1⟩ := h.in_range hd
      cases hx.mass.symm.trans hy
      exact ⟨lt_of_le_of_ne h0 hne.symm, h1⟩
    have hempty : ∀ d ∈ entries, ∀ x, d.Gives .empty x → x = 0 := by
      intro d hd x hx
      by_contra hne
      obtain ⟨h0, h1⟩ := hpos hd hx hne
      obtain ⟨e, he, hmask⟩ := hx.event
      obtain ⟨before, after, rfl⟩ := List.append_of_mem hd
      exact h before d after rfl _ (.massOnEmpty hx.mass h0 h1 he hmask)
    refine ⟨fun d hd => h.in_range hd, fun d hd => ?_, hempty, ?_⟩
    · obtain ⟨x, hx, h0, h1⟩ := h.in_range hd
      obtain ⟨before, after, rfl⟩ := List.append_of_mem hd
      cases he : d.event with
      | ok e => exact ⟨e, rfl⟩
      | error c => exact absurd (.unresolved hx h0 h1 he) (h before d after rfl c)
    · rw [List.pairwise_iff_getElem]
      intro i j hi hj hij A x y hx hy
      by_contra! hne
      -- The later of the two entries would offend, the earlier one being among those before it.
      have hsplit : entries = entries.take j ++ entries[j] :: entries.drop (j + 1) := by
        rw [← List.drop_eq_getElem_cons, List.take_append_drop]
      have hbefore : entries[i] ∈ entries.take j :=
        List.mem_take_iff_getElem.2 ⟨i, lt_min hij hi, rfl⟩
      obtain ⟨h0, h1⟩ := hpos (List.getElem_mem hj) hy hne.2
      obtain ⟨e, he, rfl⟩ := hy.event
      refine h _ _ _ hsplit _ (.repeatedSet hy.mass h0 h1 he (fun hmask => ?_)
        ⟨_, hbefore, x, hx, (hpos (List.getElem_mem hi) hx hne.1).1⟩)
      exact hne.2 (hempty _ (List.getElem_mem hj) y ⟨hy.mass, e, he, hmask⟩)
  · rintro ⟨hrange, hresolves, hempty, hdistinct⟩ before d after rfl c hd
    have hmem : d ∈ before ++ d :: after := by simp
    cases hd with
    | outOfRange h => exact h (hrange d hmem)
    | unresolved hx h0 h1 he =>
        obtain ⟨e, he'⟩ := hresolves d hmem
        cases he.symm.trans he'
    | massOnEmpty hx h0 h1 he hmask => exact h0.ne' (hempty d hmem _ ⟨hx, _, he, hmask⟩)
    | repeatedSet hx h0 h1 he hne again =>
        obtain ⟨d', hd', y, hy, hpos⟩ := again
        rcases (List.pairwise_append.1 hdistinct).2.2 d' hd' d (List.mem_cons_self ..) _ y _ hy
          ⟨hx, _, he, rfl⟩ with hzero | hzero
        · exact hpos.ne' hzero
        · exact h0.ne' hzero

structure Admissible (f : Frame) (ε : ℚ) (entries : List (Entry ℚ)) : Prop where
  inRange : ∀ d ∈ entries, ∃ x, d.mass = .finite x ∧ 0 ≤ x ∧ x ≤ 1
  resolves : ∀ d ∈ entries, ∃ e, d.event = .ok e ∧ e.frame = f ∧ e.mask.within f.size = true
  nothingOnEmpty : ∀ d ∈ entries, ∀ x, d.Gives .empty x → x = 0
  distinct : entries.Pairwise fun d d' => ∀ A x y, d.Gives A x → d'.Gives A y → x = 0 ∨ y = 0
  normalized : |(entries.map amount).sum - 1| ≤ ε

inductive FirstFault (f : Frame) (ε : ℚ) (entries : List (Entry ℚ)) : Fault ℚ → Prop
  | offence {before after : List (Entry ℚ)} {d : Entry ℚ} {c : Fault ℚ}
      (split : entries = before ++ d :: after) (clean : Clean before) (h : Offence before d c) :
      FirstFault f ε entries c
  | total (clean : Clean entries) (h : ε < |(entries.map amount).sum - 1|) :
      FirstFault f ε entries (.unnormalized (entries.map amount).sum ε f)

end Entry

namespace MassFunction

variable {f : Frame} {ε : ℚ} {entries : List (Entry ℚ)}
  {outcome : Except (Failure ℚ) (MassFunction ℚ)}

structure Judged (f : Frame) (ε : ℚ) (entries : List (Entry ℚ))
    (outcome : Except (Failure ℚ) (MassFunction ℚ)) : Prop where
  accepts : (∃ m, outcome = .ok m) ↔ Entry.Admissible f ε entries
  circumstances : ∀ m, outcome = .ok m → m.frame = f ∧ m.epsilon = ε
  given : ∀ m, outcome = .ok m → ∀ q e, Designation.find f q = .ok e → ∀ x ≠ 0,
    (∃ d ∈ entries, d.Gives e.mask x) → m.mass q = .ok x
  notGiven : ∀ m, outcome = .ok m → ∀ q e, Designation.find f q = .ok e →
    (∀ d ∈ entries, ∀ x, d.Gives e.mask x → x = 0) → m.mass q = .ok 0
  refuses : ∀ failure, outcome = .error failure ↔
    ∃ c, failure = .fault c ∧ Entry.FirstFault f ε entries c

section Inspected

variable (hmisuse : entries.findSome? Entry.misuse? = none)
include hmisuse

theorem ofInspected_of_usable : ofInspected f ε entries =
    Failure.ofFault (ofInspection f ε (Inspection.run f ε entries)) := by
  rw [ofInspected, Inspection.attempt, hmisuse]
  rfl

theorem ofInspected_clean (h : Entry.Clean entries) : ofInspected f ε entries =
    if ε < |(entries.map Entry.amount).sum - 1| then
      .error (.fault (.unnormalized (entries.map Entry.amount).sum ε f))
    else .ok ⟨f, entries.filterMap Entry.filed?, ε⟩ := by
  rw [ofInspected_of_usable hmisuse, Inspection.run, Inspection.foldl_step_clean h,
    Inspection.finish, Inspection.after, distance_eq, sum_eq]
  split_ifs <;> rfl

theorem ofInspected_offence {before after : List (Entry ℚ)} {d : Entry ℚ} {c : Fault ℚ}
    (hsplit : entries = before ++ d :: after) (hclean : Entry.Clean before)
    (h : Entry.Offence before d c) : ofInspected f ε entries = .error (.fault c) := by
  obtain ⟨cs, hfaults⟩ := Inspection.faults_run_offence hclean h after f ε
  rw [ofInspected_of_usable hmisuse, ofInspection, hsplit, hfaults]
  rfl

theorem of_ofInspected {m : MassFunction ℚ} (h : ofInspected f ε entries = .ok m) :
    Entry.Clean entries ∧ |(entries.map Entry.amount).sum - 1| ≤ ε ∧
      m = ⟨f, entries.filterMap Entry.filed?, ε⟩ := by
  rcases Entry.clean_or_offence entries with hclean | ⟨before, d, after, c, hsplit, hclean, hd⟩
  · rw [ofInspected_clean hmisuse hclean] at h
    split_ifs at h with htotal
    exact ⟨hclean, not_lt.1 htotal, (Except.ok.inj h).symm⟩
  · cases (ofInspected_offence hmisuse hsplit hclean hd).symm.trans h

theorem ofInspected_eq_error_iff {failure : Failure ℚ} : ofInspected f ε entries = .error failure ↔
    ∃ c, failure = .fault c ∧ Entry.FirstFault f ε entries c := by
  constructor
  · intro h
    rcases Entry.clean_or_offence entries with hclean | ⟨before, d, after, c, hsplit, hclean, hd⟩
    · rw [ofInspected_clean hmisuse hclean] at h
      split_ifs at h with htotal
      exact ⟨_, (Except.error.inj h).symm, .total hclean htotal⟩
    · rw [ofInspected_offence hmisuse hsplit hclean hd] at h
      exact ⟨c, (Except.error.inj h).symm, .offence hsplit hclean hd⟩
  · rintro ⟨c, rfl, h⟩
    cases h with
    | offence hsplit hclean hd => exact ofInspected_offence hmisuse hsplit hclean hd
    | total hclean htotal => rw [ofInspected_clean hmisuse hclean, if_pos htotal]

variable (hin : ∀ d ∈ entries, ∀ e, d.event = .ok e → e.frame = f ∧ e.mask.within f.size = true)
include hin

theorem exists_ofInspected_iff :
    (∃ m, ofInspected f ε entries = .ok m) ↔ Entry.Admissible f ε entries := by
  constructor
  · rintro ⟨m, hm⟩
    obtain ⟨hclean, htotal, -⟩ := of_ofInspected hmisuse hm
    obtain ⟨hrange, hresolves, hempty, hpairs⟩ := Entry.clean_iff.1 hclean
    refine ⟨hrange, fun d hd => ?_, hempty, hpairs, htotal⟩
    obtain ⟨e, he⟩ := hresolves d hd
    exact ⟨e, he, hin d hd e he⟩
  · intro h
    have hclean : Entry.Clean entries := by
      refine Entry.clean_iff.2 ⟨h.inRange, fun d hd => ?_, h.nothingOnEmpty, h.distinct⟩
      obtain ⟨e, he, -⟩ := h.resolves d hd
      exact ⟨e, he⟩
    rw [ofInspected_clean hmisuse hclean, if_neg (not_lt.2 h.normalized)]
    exact ⟨_, rfl⟩

theorem judged_ofInspected (hε : 0 < ε ∧ ε < 0.1) :
    Judged f ε entries (ofInspected f ε entries) := by
  refine ⟨exists_ofInspected_iff hmisuse hin, fun m hm => ?_, fun m hm q e hq x hx => ?_,
    fun m hm q e hq => ?_, fun failure => ofInspected_eq_error_iff hmisuse⟩
  · obtain ⟨-, -, rfl⟩ := of_ofInspected hmisuse hm
    exact ⟨rfl, rfl⟩
  · rintro ⟨d, hd, hgives⟩
    have hvalid := valid_of_ofInspected hε (fun d hd e he => (hin d hd e he).2) hm
    obtain ⟨hclean, -, rfl⟩ := of_ofInspected hmisuse hm
    obtain ⟨y, hy, h0, h1⟩ := hclean.in_range hd
    cases hgives.mass.symm.trans hy
    have hfiled := Entry.filed?_eq_some_iff.2 ⟨hgives, lt_of_le_of_ne h0 hx.symm, h1⟩
    rw [mass, ask, hq]
    exact congrArg Except.ok
      (Tally.amount_of_mem hvalid.distinct (List.mem_filterMap.2 ⟨d, hd, hfiled⟩))
  · intro hzero
    obtain ⟨-, -, rfl⟩ := of_ofInspected hmisuse hm
    rw [mass, ask, hq]
    refine congrArg Except.ok (Tally.amount_eq_zero fun hmem => ?_)
    obtain ⟨⟨A, x⟩, hp, rfl⟩ := List.mem_map.1 hmem
    obtain ⟨d, hd, hfiled⟩ := List.mem_filterMap.1 hp
    obtain ⟨hgives, hpos, -⟩ := Entry.filed?_eq_some_iff.1 hfiled
    exact hpos.ne' (hzero d hd x hgives)

end Inspected

end MassFunction

namespace Designation

structure Plain (f : Frame) (d : Designation ℚ) : Prop where
  shown : ∀ v ∈ d.items, v.hasText = true ∧ v.hasJson = true
  inside : ∀ e, d = .event e → e.frame = f → e.mask.within f.size = true

variable {f : Frame} {d : Designation ℚ}

theorem Plain.misuse?_eq_none (h : d.Plain f) : d.misuse? f = none := by
  cases d with
  | event e => rfl
  | list items => exact Event.misuse?_eq_none h.shown
  | single v => exact Event.misuse?_eq_none h.shown

theorem Plain.checkName_eq (h : d.Plain f) : d.checkName = .ok () :=
  Outcome.forM_eq_ok fun v hv => if_pos (h.shown v hv).1

end Designation

namespace MassFunction

def pairEntries (f : Frame) (pairs : List (Designation ℚ × Value ℚ)) : List (Entry ℚ) :=
  pairs.map fun p => ⟨p.1.resolve f, p.1.misuse? f, p.2, p.1.name⟩

variable {f : Frame} {pairs : List (Designation ℚ × Value ℚ)}

theorem misuse_pairEntries (h : ∀ p ∈ pairs, p.1.Plain f ∧ p.2.hasText = true) :
    (pairEntries f pairs).findSome? Entry.misuse? = none := by
  rw [List.findSome?_eq_none_iff]
  intro entry hentry
  obtain ⟨p, hp, rfl⟩ := List.mem_map.1 hentry
  obtain ⟨hplain, htext⟩ := h p hp
  unfold Entry.misuse?
  split
  · exact hplain.misuse?_eq_none
  · exact if_pos htext

def pairFrame (pairs : List (Designation ℚ × Value ℚ)) (choice : Option (FrameChoice ℚ)) :
    Except (Failure ℚ) Frame :=
  match choice with
  | some choice => choice.resolve
  | none => Failure.ofFault (inferFrame (pairs.map (·.1)))

theorem ofEntries_eq_bind {options : MassOptions ℚ} {ε : ℚ}
    (hε : resolveEpsilon options.epsilon = .ok ε) (hsome : pairs ≠ [] ∨ options.frame.isSome)
    (hnames : (pairs.forM fun p => p.1.checkName) = .ok ()) :
    ofEntries pairs options = (pairFrame pairs options.frame).bind fun f =>
      ofInspected f ε (pairEntries f pairs) := by
  have hgiven : ¬ (pairs.isEmpty = true ∧ options.frame.isNone = true) := by
    rw [List.isEmpty_iff, Option.isNone_iff_eq_none]
    rintro ⟨hnil, hnone⟩
    rw [hnone] at hsome
    exact hsome.elim (absurd hnil) (by simp)
  rw [ofEntries, hε]
  dsimp only [bind, Except.bind]
  rw [if_neg hgiven, hnames]
  unfold pairFrame
  cases options.frame <;> rfl

theorem ofEntries_eq (h : ∀ p ∈ pairs, p.1.Plain f ∧ p.2.hasText = true) {choice : FrameChoice ℚ}
    (hf : choice.resolve = .ok f) {v : Value ℚ} {ε : ℚ} (hε : resolveEpsilon v = .ok ε) :
    ofEntries pairs ⟨some choice, v⟩ = ofInspected f ε (pairEntries f pairs) := by
  rw [ofEntries_eq_bind hε (.inr rfl)
    (Outcome.forM_eq_ok fun p hp => (h p hp).1.checkName_eq), pairFrame, hf]
  rfl

/-- Over a given frame and with a tolerance within bounds, construction from pairs of a designation
and a mass succeeds just when every mass is a number from zero to one, every designation, also one
of mass zero, names an event inside the frame, the empty event has no mass, no two masses above zero
are for one event, and the total is one within the tolerance. The mass of an event is then the one
that it was given, and zero where it was given none. Otherwise the fault is that of the first entry
that offends, or of the total where none does. The same holds of construction from a record. -/
theorem judged_construction {choice : FrameChoice ℚ} (hf : choice.resolve = .ok f) {ε : ℚ}
    (h0 : 0 < ε) (h1 : ε < 1 / 10) :
    (∀ pairs : List (Designation ℚ × Value ℚ),
      (∀ p ∈ pairs, p.1.Plain f ∧ p.2.hasText = true) →
      Judged f ε (pairEntries f pairs) (ofEntries pairs ⟨some choice, .finite ε⟩)) ∧
    ∀ record : Record (Value ℚ), (∀ p ∈ record, p.2.hasText = true) →
      Judged f ε (recordEntries f record) (ofRecord record ⟨some choice, .finite ε⟩) := by
  have hbound : (0.1 : ℚ) = 1 / 10 := by norm_num
  have hε : resolveEpsilon (.finite ε) = .ok ε := checkEpsilon_eq_ok_iff.2 ⟨rfl, h0, h1⟩
  constructor
  · intro pairs hpairs
    rw [ofEntries_eq hpairs hf hε]
    refine judged_ofInspected (misuse_pairEntries hpairs) ?_ ⟨h0, h1.trans_eq hbound.symm⟩
    unfold pairEntries
    rw [List.forall_mem_map]
    exact fun p hp e he => Designation.within_resolve (hpairs p hp).1.inside he
  · intro record hrecord
    have heq : ofRecord record ⟨some choice, .finite ε⟩ =
        ofInspected f ε (recordEntries f record) := by
      rw [ofRecord, hε]
      change (choice.resolve.bind _) = _
      rw [hf]
      rfl
    rw [heq]
    refine judged_ofInspected (misuse_recordEntries hrecord) ?_ ⟨h0, h1.trans_eq hbound.symm⟩
    unfold recordEntries
    rw [List.forall_mem_map]
    exact fun p _ e he => Event.within_ofLabel he

def interleaved : List (Designation ℚ × Value ℚ) := [
  (.single (.ofNat 0), .finite (1 / 2)),
  (.list [.ofNat 1, .ofNat 0, .ofNat 1], .finite (1 / 2)),
  (.event ⟨.binary, .finite 1⟩, .finite 0)]

def clashing : Record (Value ℚ) := [
  ("0", .finite (1 / 2)), (" 0", .finite (1 / 2)), ("2", .finite (1 / 4)), ("1", .finite 2)]

theorem plain_interleaved : ∀ p ∈ interleaved, p.1.Plain .binary ∧ p.2.hasText = true := by
  refine List.forall_mem_cons.2 ⟨⟨⟨by decide, nofun⟩, rfl⟩, List.forall_mem_cons.2
    ⟨⟨⟨by decide, nofun⟩, rfl⟩, List.forall_mem_singleton.2 ⟨⟨by decide, ?_⟩, rfl⟩⟩⟩
  rintro e he -
  cases he
  decide

/-- The second entry is refused: it writes the event of the first, and the others are not reached. -/
theorem firstFault_clashing : Entry.FirstFault .binary (1 / 1000) (recordEntries .binary clashing)
    (.repeatedSet ⟨.binary, .finite 1⟩) := by
  let first : Entry ℚ := ⟨Event.ofLabel .binary "0", none, .finite (1 / 2), "'0'"⟩
  have hfirst : first.event = .ok ⟨.binary, .finite 1⟩ := rfl
  have hsplit : recordEntries .binary clashing = [first] ++
      ⟨Event.ofLabel .binary " 0", none, .finite (1 / 2), "' 0'"⟩ ::
      recordEntries .binary [("2", .finite (1 / 4)), ("1", .finite 2)] := rfl
  have hclean : Entry.Clean [first] := by
    refine Entry.clean_iff.2 ⟨?_, ?_, ?_, List.pairwise_singleton ..⟩
    · exact List.forall_mem_singleton.2 ⟨1 / 2, rfl, by norm_num, by norm_num⟩
    · exact List.forall_mem_singleton.2 ⟨_, hfirst⟩
    · exact List.forall_mem_singleton.2 fun x h => absurd (h.mask_eq hfirst) (by decide)
  refine .offence hsplit hclean (.repeatedSet rfl (by norm_num) (by norm_num) rfl (by decide) ?_)
  exact ⟨first, .head _, 1 / 2, ⟨rfl, _, hfirst, rfl⟩, by norm_num⟩

theorem judged_construction_binary :
    (∃ m, ofEntries interleaved ⟨some (.frame .binary), .finite (1 / 1000)⟩ = .ok m ∧
      m.mass (.list [.ofNat 0]) = .ok (1 / 2) ∧ m.mass (.single (.ofNat 1)) = .ok 0) ∧
    ofRecord clashing ⟨some (.frame .binary), .finite (1 / 1000)⟩ =
      .error (.fault (.repeatedSet ⟨.binary, .finite 1⟩)) := by
  have hframe : (FrameChoice.frame .binary : FrameChoice ℚ).resolve = .ok .binary := rfl
  obtain ⟨hentries, hrecord⟩ := judged_construction hframe (by norm_num : (0 : ℚ) < 1 / 1000)
    (by norm_num)
  constructor
  · have hjudged := hentries interleaved plain_interleaved
    have hok : (ofEntries interleaved ⟨some (.frame .binary), .finite (1 / 1000)⟩).toBool = true := by
      decide +kernel
    obtain ⟨m, hm⟩ := Outcome.exists_of_toBool hok
    refine ⟨m, hm, hjudged.given m hm _ ⟨.binary, .finite 1⟩ rfl _ (by norm_num)
      ⟨_, .head _, rfl, _, rfl, rfl⟩, hjudged.notGiven m hm _ ⟨.binary, .finite 2⟩ rfl ?_⟩
    have hother {d : Entry ℚ} {A : Mask} (he : d.event = .ok ⟨.binary, A⟩) (hA : A ≠ .finite 2)
        (x : ℚ) (h : d.Gives (.finite 2) x) : x = 0 := absurd (h.mask_eq he) hA
    exact List.forall_mem_cons.2 ⟨hother (A := .finite 1) rfl (by decide),
      List.forall_mem_cons.2 ⟨hother (A := .finite 3) rfl (by decide),
        List.forall_mem_singleton.2 (hother (A := .finite 1) rfl (by decide))⟩⟩
  · exact ((hrecord clashing (by decide)).refuses _).2 ⟨_, rfl, firstFault_clashing⟩

end MassFunction

end Evidence
