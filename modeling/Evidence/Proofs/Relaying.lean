import Mathlib
import Evidence.Source
import Evidence.Proofs.Accepting
import Evidence.Proofs.ConjunctionSum
import Evidence.Proofs.Obtainable

namespace Evidence

theorem Checked.gather_congr {α κ : Type} {parts : List (κ × Checked α)}
    {whole whole' : List (κ × Value α) → Value α}
    (h : ∀ vs, vs.map (·.1) = parts.map (·.1) → whole vs = whole' vs) :
    gather parts whole = gather parts whole' := by
  have hkeys {ps : List (κ × Checked α)} {vs : List (κ × Value α)}
      (hvs : ps.mapM (fun p => p.2.value.map (p.1, ·)) = some vs) :
      vs.map (·.1) = ps.map (·.1) := by
    induction ps generalizing vs with
    | nil =>
        obtain rfl := Option.some.inj hvs
        rfl
    | cons p ps ih =>
        rw [List.mapM_cons] at hvs
        obtain ⟨q, hq, hvs⟩ := Option.bind_eq_some_iff.1 hvs
        obtain ⟨qs, hqs, hvs⟩ := Option.bind_eq_some_iff.1 hvs
        obtain rfl := Option.some.inj hvs
        obtain ⟨v, -, rfl⟩ := Option.map_eq_some_iff.1 hq
        rw [List.map_cons, List.map_cons, ih hqs]
  unfold gather
  cases hvs : parts.mapM fun p => p.2.value.map (p.1, ·) with
  | none => rfl
  | some vs => rw [Option.map_some, Option.map_some, h vs (hkeys hvs)]

namespace Schema

variable {α : Type}

theorem either_accepted {s t : Schema α} {v w : Value α} (h : either s t v = .accepted w) :
    s v = .accepted w ∨ t v = .accepted w := by
  unfold either at h
  split at h
  · next heq => exact .inl (heq.trans h)
  · next heq _ => exact .inr (heq.trans h)
  · next heq _ => exact .inl (heq.trans h)
  · next heq _ _ => exact .inr (heq.trans h)
  · cases h

theorem nonemptyText_accepted {v w : Value α} (h : nonemptyText v = .accepted w) : v = w := by
  unfold nonemptyText at h
  split at h
  · dsimp only at h
    split_ifs at h
    · have hissues := congrArg Checked.issues h
      simp [Checked.note, Checked.accepted] at hissues
    · exact Option.some.inj (Checked.mk.inj h).1
  · next hne =>
    unfold text at h
    split at h
    · next s => exact absurd rfl (hne s)
    · cases h

theorem nonemptyList_unchanged {item : Schema α} (hitem : ∀ v w, item v = .accepted w → v = w)
    {v w : Value α} (h : nonemptyList item v = .accepted w) : v = w ∧ ∃ items, v = .list items := by
  obtain ⟨items, vs, rfl, rfl, hitems⟩ := nonemptyList_accepted h
  have heq : List.Forall₂ (· = ·) items vs := hitems.imp fun v w => hitem v w
  rw [List.forall₂_eq_eq_eq] at heq
  exact ⟨congrArg Value.list heq, items, rfl⟩

theorem object_congr [NatCast α] {shape : List (String × Schema α)} {fields others : Record (Value α)}
    (h : ∀ p ∈ shape, Record.get? p.1 fields = Record.get? p.1 others) :
    object shape (.object fields) = object shape (.object others) := by
  have hparts : shape.map (fun p =>
      (p.1, (p.2 ((Record.get? p.1 fields).getD .absent)).below (.field p.1))) =
      shape.map fun p => (p.1, (p.2 ((Record.get? p.1 others).getD .absent)).below (.field p.1)) :=
    List.map_congr_left fun p hp => by rw [h p hp]
  change Checked.gather (shape.map fun p =>
      (p.1, (p.2 ((Record.get? p.1 fields).getD .absent)).below (.field p.1))) _ =
    Checked.gather (shape.map fun p =>
      (p.1, (p.2 ((Record.get? p.1 others).getD .absent)).below (.field p.1))) _
  rw [hparts]
  refine Checked.gather_congr fun vs hvs => ?_
  refine congrArg Value.object (List.filter_congr fun q hq => ?_)
  have hkey : q.1 ∈ shape.map (·.1) := by
    have hmem := List.mem_map_of_mem (f := Prod.fst) hq
    rw [hvs] at hmem
    simpa using hmem
  obtain ⟨p, hp, hpq⟩ := List.mem_map.1 hkey
  rw [← hpq, h p hp]

variable [Scalar α]

theorem hypothesis_unchanged {v w : Value α} (h : hypothesis v = .accepted w) : v = w :=
  (either_accepted h).elim nonemptyText_accepted fun h => (number_accepted h).1

theorem frame_unchanged {v w : Value α} (h : optional (nonemptyList hypothesis) v = .accepted w) :
    v = w ∧ (v = .absent ∨ ∃ items, v = .list items) := by
  rcases optional_accepted h with ⟨rfl, rfl⟩ | h
  · exact ⟨rfl, .inl rfl⟩
  · obtain ⟨heq, hlist⟩ := nonemptyList_unchanged (fun _ _ => hypothesis_unchanged) h
    exact ⟨heq, .inr hlist⟩

omit [Scalar α] in
theorem refine_congr {s : Schema α} {v w : Value α} (h : s v = s w) (condition : Value α → Bool)
    (issue : Issue) : refine s condition issue v = refine s condition issue w := by
  unfold refine
  rw [h]

theorem fusionOptions_congr {fields others : Record (Value α)}
    (h : ∀ key ∈ ["epsilon", "hardDriftThreshold", "conflictThreshold", "log"],
      Record.get? key fields = Record.get? key others) :
    fusionOptions (.object fields) = fusionOptions (.object others) := by
  refine refine_congr (object_congr fun p hp => h p.1 ?_) _ _
  have hkey := List.mem_map_of_mem (f := Prod.fst) hp
  exact hkey

end Schema

theorem Record.get?_erase {β : Type} {key erased : String} (h : key ≠ erased) (r : Record β) :
    get? key (erase erased r) = get? key r := by
  rw [get?, get?, erase, List.find?_filter]
  congr 2
  funext p
  rw [Bool.eq_iff_iff]
  simp only [decide_eq_true_eq, ne_eq, and_iff_right_iff_imp]
  exact fun hp => hp ▸ h

variable {α : Type} [Scalar α]

/-- A policy asks its options for nothing but what fusion options hold. -/
theorem Policy.ofOptions_erase {options : Value α} (h : options ≠ .null) :
    ofOptions options = ofOptions (.object (Record.erase "frame" options.fields)) := by
  have hfields : Schema.fusionOptions (.object options.fields) =
      Schema.fusionOptions (.object (Record.erase "frame" options.fields)) := by
    refine Schema.fusionOptions_congr fun key hkey => (Record.get?_erase ?_ _).symm
    rintro rfl
    exact absurd hkey (by decide)
  have hlistener : options.field listenerField =
      (Value.object (Record.erase "frame" options.fields)).field listenerField :=
    congrArg (Option.getD · _) (Record.get?_erase (by decide) _).symm
  have hobject : Value.object (Record.erase "frame" options.fields) ≠ .null := nofun
  rw [ofOptions_eq h, ofOptions_eq hobject, hlistener, Schema.validate, hfields]
  rfl

/-- Whether the conjunction also keeps unions makes no difference to the conflict. -/
theorem Conjunction.conflict_congr (w w' : Bool) (f : Frame) (sources : List (MassFunction ℚ)) :
    (ofSources w f sources).conflict = (ofSources w' f sources).conflict := by
  have htotal (u : Bool) : (ofSources u f sources).totalOf (fun key => key.1 == .empty) =
      Choices.integral (sources.map (·.masses)) fun ms =>
        if ms.foldl Mask.inter f.full == .empty then 1 else 0 := by
    rw [Tally.totalOf_eq_integral, ofSources_eq_foldl, integral_foldl_extend, start,
      Tally.integral_cons, Tally.integral_nil]
    simp only [foldl_step]
    exact (add_zero _).trans (mul_one _)
  rw [conflict, conflict, htotal, htotal]

namespace MassFunction

/-- A record of numbers passes its schema unchanged, but for the key that records do not keep, and
so does a frame that passes its own. -/
theorem ofPlain_eq {record : Record (Value α)} (hkept : Record.unkeptKey ∉ Record.keys record)
    (hnumbers : ∀ p ∈ record, ∃ x, p.2 = .number x ∧ x ≠ .nan) {frame w : Value α}
    (hframe : (Schema.optional (Schema.nonemptyList Schema.hypothesis)).validate frame = .ok w) :
    ofPlain (.object record) (.object [("frame", frame)]) =
      ofRecord record ⟨FrameChoice.ofOptional frame, .absent⟩ := by
  have herase : Record.erase Record.unkeptKey record = record := by
    rw [Record.erase, List.filter_eq_self]
    intro p hp
    simpa using fun hkey : p.1 = Record.unkeptKey => hkept (List.mem_map.2 ⟨p, hp, hkey⟩)
  have hrecord : Schema.massRecord.validate (.object record) = .ok (.object record) := by
    have haccepts : Schema.massRecord (.object record) = .accepted (.object record) := by
      conv_rhs => rw [← herase]
      refine Schema.record_accepts fun p hp => ?_
      obtain ⟨x, hx, hnan⟩ := hnumbers p hp
      rw [hx]
      exact Schema.number_accepts hnan (List.forall_mem_nil _)
    rw [Schema.validate, haccepts]
    rfl
  obtain ⟨rfl, hgiven⟩ := Schema.frame_unchanged (Schema.eq_accepted_of_validate hframe)
  have hoptions : Schema.massOptions.validate (.object [("frame", frame)]) =
      .ok (.object [("frame", frame)]) := by
    -- No tolerance was given, and the object that comes out has no field for it either.
    have hfields : List.Forall₂ (fun p q => p.1 = q.1 ∧
        p.2 ((Record.get? p.1 [("frame", frame)]).getD .absent) = .accepted q.2)
        [("frame", Schema.optional (Schema.nonemptyList Schema.hypothesis)),
          ("epsilon", Schema.optional Schema.epsilon)]
        [("frame", frame), ("epsilon", Value.absent)] :=
      .cons ⟨rfl, Schema.eq_accepted_of_validate hframe⟩ (.cons ⟨rfl, rfl⟩ .nil)
    rw [Schema.validate, Schema.massOptions, Schema.object_accepts hfields]
    rfl
  have hchoice : frameOf frame = FrameChoice.ofOptional frame := by
    rcases hgiven with rfl | ⟨items, rfl⟩
    · rfl
    · rfl
  rw [ofPlain, hrecord, ← hchoice]
  change (Except.mapError _ (Schema.massOptions.validate (.object [("frame", frame)]))).bind _ = _
  rw [hoptions]
  rfl

end MassFunction

namespace Source

/-- A mass function, or a record of numbers without the one key that records do not keep. -/
def Numeric : Source α → Prop
  | mass _ => True
  | plain v => ∃ record, v = .object record ∧ Record.unkeptKey ∉ Record.keys record ∧
      ∀ p ∈ record, ∃ x, p.2 = .number x ∧ x ≠ .nan

def read (frame : Value α) : Source α → Except (Failure α) (MassFunction α)
  | mass m => .ok m
  | plain v => MassFunction.ofRecord v.fields ⟨FrameChoice.ofOptional frame, .absent⟩

theorem toMass_eq_read {s : Source α} (hs : s.Numeric) {frame w : Value α}
    (hframe : (Schema.optional (Schema.nonemptyList Schema.hypothesis)).validate frame = .ok w) :
    s.toMass frame = s.read frame := by
  cases s with
  | mass m => rfl
  | plain v =>
      obtain ⟨record, rfl, hkept, hnumbers⟩ := hs
      exact MassFunction.ofPlain_eq hkept hnumbers hframe

theorem prepare_pair {options : Value α} (h : options ≠ .null) (a b : Source α) (rule : Value α) :
    prepare [a, b] rule options = (checkRule rule).bind fun checked =>
      (a.toMass (options.field "frame")).bind fun m =>
        (b.toMass (options.field "frame")).bind fun n => .ok (checked, [m, n]) := by
  have htaking : options.checkTaking "options" "frame" = .ok () := by
    cases options with
    | null => exact absurd rfl h
    | _ => rfl
  unfold prepare
  rw [htaking]
  change (checkRule rule).bind _ = _
  refine congrArg _ (funext fun checked => ?_)
  rw [List.mapM_cons, List.mapM_cons, List.mapM_nil]
  cases a.toMass (options.field "frame") with
  | error e => rfl
  | ok m =>
      cases b.toMass (options.field "frame") with
      | error e => rfl
      | ok n => rfl

omit [Scalar α] in
theorem checkRule_eq (rule : Value α) : checkRule rule =
    (((Schema.optional Schema.rule).validate rule).mapError .rejected).map fun _ =>
      RuleChoice.ofOptional rule := by
  cases rule with
  | text s =>
      have hchoice : Schema.rule (.text s : Value α) = .accepted (.text s) ∨
          Schema.rule (.text s : Value α) =
            .wrong (.notChoice (Rule.all.map Rule.name) s) := by
        by_cases h : (Rule.all.map Rule.name).contains s = true
        · exact .inl (if_pos h)
        · exact .inr (if_neg h)
      change ((Schema.rule.validate (.text s)).mapError _).map RuleChoice.ofValue =
        ((Schema.rule.validate (.text s)).mapError _).map fun _ => RuleChoice.ofValue (.text s)
      rcases hchoice with h | h
      · rw [Schema.validate, h]
        rfl
      · rw [Schema.validate, h]
        rfl
  | _ => rfl

theorem combine_outcome (a b : Source α) (rule options : Value α) :
    (combine a b rule options).outcome = (combineAll [a, b] rule options).outcome ∧
      (combine a b rule options).advised = (combineAll [a, b] rule options).advised := by
  unfold combine combineAll
  cases prepare [a, b] rule options with
  | error failure => exact ⟨rfl, rfl⟩
  | ok p => exact ⟨rfl, rfl⟩

theorem combine_bad_rule {rule options : Value α} (h : options ≠ .null) {issues : List Issue}
    (hrule : (Schema.optional Schema.rule).validate rule = .error issues) (a b : Source α) :
    combine a b rule options = .ofOutcome (.error (.rejected issues)) := by
  rw [combine, prepare_pair h, checkRule_eq, hrule]
  rfl

section Accepted

variable {a b : Source α} {rule options w w' : Value α} (h : options ≠ .null) (ha : a.Numeric)
  (hb : b.Numeric) (hrule : (Schema.optional Schema.rule).validate rule = .ok w)
  (hframe : (Schema.optional (Schema.nonemptyList Schema.hypothesis)).validate
    (options.field "frame") = .ok w')
include h ha hb hrule hframe

/-- Once the rule and the frame are accepted, the sources are read in order and then fused. -/
theorem combine_eq : combine a b rule options =
    match (a.read (options.field "frame")).bind fun m =>
      (b.read (options.field "frame")).bind fun n => .ok [m, n] with
    | .error failure => .ofOutcome (.error failure)
    | .ok masses => Fusion.ofSources masses (RuleChoice.ofOptional rule)
        (.object (Record.erase "frame" options.fields)) := by
  have hfusion (masses : List (MassFunction α)) (choice : RuleChoice α) :
      Fusion.ofSources masses choice options =
        Fusion.ofSources masses choice (.object (Record.erase "frame" options.fields)) := by
    rw [Fusion.ofSources, Fusion.ofSources, Policy.ofOptions_erase h]
  rw [combine, prepare_pair h, checkRule_eq, hrule, toMass_eq_read ha hframe,
    toMass_eq_read hb hframe]
  cases a.read (options.field "frame") with
  | error failure => rfl
  | ok m =>
      cases b.read (options.field "frame") with
      | error failure => rfl
      | ok n => exact hfusion [m, n] (RuleChoice.ofOptional rule)

end Accepted

theorem conflict_of_combine {a b : Source ℚ} {rule options : Value ℚ} {r : Fusion ℚ}
    (h : (combine a b rule options).outcome = .ok r) :
    conflict a b (options.field "frame") = .ok r.conflict := by
  have hne : options ≠ .null := by
    rintro rfl
    cases h
  rw [combine, prepare_pair hne] at h
  split at h
  · cases h
  · next checked masses hprepared =>
    obtain ⟨_, -, hprepared⟩ := Outcome.bind_eq_ok hprepared
    obtain ⟨m, hm, hprepared⟩ := Outcome.bind_eq_ok hprepared
    obtain ⟨n, hn, hprepared⟩ := Outcome.bind_eq_ok hprepared
    obtain ⟨-, rfl⟩ := Prod.mk.inj (Except.ok.inj hprepared)
    unfold Fusion.ofSources at h
    split at h
    · cases h
    · obtain ⟨c, hc, -, hconflict⟩ := MassFunction.combined_of_policy h
      rcases MassFunction.cases_of_ofSources hc with ⟨hone, -⟩ | ⟨f, _, _, w, -, hK, hf⟩
      · cases hone
      · rw [conflict, hm]
        change (b.toMass (options.field "frame")).bind _ = _
        rw [hn]
        change Failure.ofFault ((Combination.commonFrame m [n]).bind _) = _
        -- The rule decides whether unions are kept, and the conflict alone is asked for without.
        rw [hf m [n] rfl, hconflict, hK, Conjunction.conflict_congr w false]
        rfl

/-- Two sources are fused alike as a pair and as a list. A rule that its schema rejects is reported
whatever the sources are; once the rule and the frame are accepted, the first source that cannot be
read is, and then the fusion is that of the mass functions that the sources stand for, under the
options without the frame, where options that are rejected come before any failure to combine. With
exact numbers the conflict of a fusion that succeeds is the one between its sources. -/
theorem combine_relays :
    (∀ {α : Type} [Scalar α] (a b : Source α) (rule options : Value α),
      ((combine a b rule options).outcome = (combineAll [a, b] rule options).outcome ∧
        (combine a b rule options).advised = (combineAll [a, b] rule options).advised) ∧
      (options ≠ .null → ∀ issues,
        (Schema.optional Schema.rule).validate rule = .error issues →
          combine a b rule options = ⟨[], .error (.rejected issues)⟩) ∧
      (options ≠ .null → a.Numeric → b.Numeric →
        (∃ w, (Schema.optional Schema.rule).validate rule = .ok w) →
        (∃ w, (Schema.optional (Schema.nonemptyList Schema.hypothesis)).validate
          (options.field "frame") = .ok w) →
        (∀ e, a.read (options.field "frame") = .error e →
          combine a b rule options = ⟨[], .error e⟩) ∧
        (∀ m e, a.read (options.field "frame") = .ok m → b.read (options.field "frame") = .error e →
          combine a b rule options = ⟨[], .error e⟩) ∧
        ∀ m n, a.read (options.field "frame") = .ok m → b.read (options.field "frame") = .ok n →
          combine a b rule options = Fusion.ofSources [m, n] (RuleChoice.ofOptional rule)
            (.object (Record.erase "frame" options.fields)) ∧
          ∀ e, Policy.ofOptions (.object (Record.erase "frame" options.fields)) = .error e →
            combine a b rule options = ⟨[], .error e⟩)) ∧
    ∀ (a b : Source ℚ) (rule options : Value ℚ) (r : Fusion ℚ),
      (combine a b rule options).outcome = .ok r →
        conflict a b (options.field "frame") = .ok r.conflict := by
  refine ⟨fun a b rule options => ⟨combine_outcome a b rule options, fun h issues hrule =>
    combine_bad_rule h hrule a b, ?_⟩, fun a b rule options r => conflict_of_combine⟩
  rintro h ha hb ⟨w, hrule⟩ ⟨w', hframe⟩
  have heq := combine_eq h ha hb hrule hframe
  refine ⟨fun e he => ?_, fun m e hm he => ?_, fun m n hm hn => ?_⟩
  · rw [heq, he]
    rfl
  · rw [heq, hm, he]
    rfl
  · rw [hm, hn] at heq
    refine ⟨heq, fun e he => heq.trans ?_⟩
    change Fusion.ofSources [m, n] _ _ = _
    rw [Fusion.ofSources, he]
    rfl

def ready : Source ℚ := .mass (.simple .binary (.finite 2) (1 / 3))

def recorded : Source ℚ := .plain (.object [("0", .finite (1 / 2)), ("Θ", .finite (1 / 2))])

def mixedOptions : Value ℚ :=
  .object [("frame", .list Frame.binary.toValues), ("epsilon", .finite (1 / 1000))]

theorem combine_relays_mixed : ∃ n r,
    recorded.read (.list Frame.binary.toValues) = .ok n ∧
      combine ready recorded (.text "yager") mixedOptions =
        Fusion.ofSources [.simple .binary (.finite 2) (1 / 3), n] (.rule .yager)
          (.object [("epsilon", .finite (1 / 1000))]) ∧
      (combine ready recorded (.text "yager") mixedOptions).outcome = .ok r ∧
      conflict ready recorded (.list Frame.binary.toValues) = .ok r.conflict := by
  have hread : (recorded.read (.list Frame.binary.toValues)).toBool = true := by decide +kernel
  have hfused : (combine ready recorded (.text "yager") mixedOptions).outcome.toBool = true := by
    decide +kernel
  obtain ⟨n, hn⟩ := Outcome.exists_of_toBool hread
  obtain ⟨r, hr⟩ := Outcome.exists_of_toBool hfused
  have hnumeric : recorded.Numeric := by
    refine ⟨_, rfl, by decide, ?_⟩
    exact List.forall_mem_cons.2 ⟨⟨_, rfl, nofun⟩, List.forall_mem_singleton.2 ⟨_, rfl, nofun⟩⟩
  obtain ⟨hrelays, hconflict⟩ := combine_relays
  obtain ⟨-, -, hfusion⟩ := hrelays ready recorded (.text "yager") mixedOptions
  obtain ⟨-, -, hboth⟩ := hfusion nofun trivial hnumeric ⟨.text "yager", rfl⟩
    ⟨.list Frame.binary.toValues, rfl⟩
  exact ⟨n, r, hn, (hboth _ n rfl hn).1, hr, hconflict ready recorded _ mixedOptions r hr⟩

end Source

end Evidence
