import Mathlib
import Evidence.MassFunction.Report
import Evidence.Proofs.Outcome

namespace Evidence

variable {α : Type} [Scalar α]

/-- A tolerance that is refused and shown by its text: what was asked for, or else the default, is
no number above zero and below a tenth. -/
structure BadTolerance (asked got : Value α) : Prop where
  meant : asked.orElse (.finite defaultEpsilon) = got
  shown : got.hasText = true
  outside : ∀ x, got = .finite x → ¬ (0 < x ∧ x < 0.1)

inductive Mirrors :
    Except (Failure α) (MassFunction α) → Except (Failure α) Report → Prop
  | sound (m : MassFunction α) : Mirrors (.ok m) (.ok ⟨true, []⟩)
  | faulty (f : Fault α) (others : List Complaint) :
      Mirrors (.error (.fault f)) (.ok ⟨false, f.complaint :: others⟩)
  | failed {e : Failure α} (he : ∀ f, e ≠ .fault f) : Mirrors (.error e) (.error e)

namespace Mirrors

variable {built : Except (Failure α) (MassFunction α)} {reported : Except (Failure α) Report}

theorem ok_iff (h : Mirrors built reported) :
    (∃ m, built = .ok m) ↔ reported = .ok ⟨true, []⟩ := by
  cases h with
  | sound m => exact ⟨fun _ => rfl, fun _ => ⟨m, rfl⟩⟩
  | faulty f others => exact ⟨nofun, nofun⟩
  | failed he => exact ⟨nofun, nofun⟩

theorem valid_iff (h : Mirrors built reported) {report : Report} (hreport : reported = .ok report) :
    report.valid = true ↔ report.errors = [] := by
  cases h with
  | sound m => obtain rfl := Except.ok.inj hreport; simp
  | faulty f others => obtain rfl := Except.ok.inj hreport; simp
  | failed he => cases hreport

theorem first_complaint (h : Mirrors built reported) {f : Fault α}
    (hf : built = .error (.fault f)) :
    ∃ others, reported = .ok ⟨false, f.complaint :: others⟩ := by
  cases h with
  | sound m => cases hf
  | faulty g others =>
      obtain rfl := Failure.fault.inj (Except.error.inj hf)
      exact ⟨others, rfl⟩
  | failed he => exact absurd (Except.error.inj hf) (he f)

theorem failure_iff (h : Mirrors built reported) {e : Failure α} (he : ∀ f, e ≠ .fault f) :
    built = .error e ↔ reported = .error e := by
  cases h with
  | sound m => exact ⟨nofun, nofun⟩
  | faulty f others => exact ⟨fun h => absurd (Except.error.inj h).symm (he f), nofun⟩
  | failed _ =>
      exact ⟨fun h => congrArg Except.error (Except.error.inj h),
        fun h => congrArg Except.error (Except.error.inj h)⟩

theorem ne_fault (h : Mirrors built reported) (f : Fault α) : reported ≠ .error (.fault f) := by
  cases h with
  | sound m => nofun
  | faulty g others => nofun
  | failed he => exact fun hf => he f (Except.error.inj hf)

end Mirrors

namespace MassFunction

variable {α : Type} [Scalar α]

theorem resolveEpsilon_eq_error {v : Value α} {e : Failure α} (h : resolveEpsilon v = .error e) :
    (∃ got, BadTolerance v got ∧ e = .epsilonOutOfRange got) ∨ e = .misuse .noText := by
  unfold resolveEpsilon checkEpsilon at h
  split at h
  · next x hx =>
    split_ifs at h with hrange
    refine .inl ⟨_, ⟨rfl, ?_, fun y hy => ?_⟩, (Except.error.inj h).symm⟩
    · rw [hx]; rfl
    · obtain rfl := Quantity.finite.inj (Value.number.inj (hx.symm.trans hy))
      exact hrange
  · next hx =>
    obtain htext | ⟨_, htext, h⟩ := Outcome.bind_eq_error h
    · obtain ⟨m, hm, rfl⟩ := Outcome.mapError_eq_error htext
      unfold Value.checkText at hm
      split_ifs at hm
      exact .inr (congrArg Failure.misuse (Except.error.inj hm).symm)
    · have htext := Outcome.ofMisuse_eq_ok htext
      unfold Value.checkText at htext
      split_ifs at htext with hshown
      refine .inl ⟨_, ⟨rfl, hshown, fun x hfinite => ?_⟩, (Except.error.inj h).symm⟩
      exact absurd hfinite (hx x)

theorem resolveEpsilon_bad {v got : Value α} (h : BadTolerance v got) :
    resolveEpsilon v = .error (.epsilonOutOfRange got) := by
  obtain ⟨rfl, hshown, houtside⟩ := h
  unfold resolveEpsilon checkEpsilon
  split
  · next x hx => rw [if_neg (houtside x hx)]
  · rw [Value.checkText, if_pos hshown]
    rfl

/-- Whatever an inspection finds, construction stops with the first of it and a report names all of
it. -/
theorem mirrors_ofInspected (f : Frame) (ε : α) (entries : List (Entry α)) :
    Mirrors (ofInspected f ε entries)
      ((Inspection.attempt f ε entries).map fun s => Report.ofFaults s.faults) := by
  unfold ofInspected Inspection.attempt
  cases entries.findSome? Entry.misuse? with
  | some m => exact .failed fun f hf => by cases hf
  | none =>
      change Mirrors (Failure.ofFault (ofInspection f ε (Inspection.run f ε entries)))
        (.ok (Report.ofFaults (Inspection.run f ε entries).faults))
      unfold ofInspection
      cases (Inspection.run f ε entries).faults with
      | nil => exact .sound _
      | cons fault others => exact .faulty fault _

theorem mirrors_reportRecord (record : Record (Value α)) (options : MassOptions α) :
    Mirrors (ofRecord record options) (reportRecord record options) := by
  unfold ofRecord reportRecord recordFaults
  cases hε : resolveEpsilon options.epsilon with
  | error e =>
      refine .failed fun f hf => ?_
      rcases resolveEpsilon_eq_error hε with ⟨got, -, rfl⟩ | rfl
      · cases hf
      · cases hf
  | ok ε =>
      cases hframe : recordFrame record options.frame with
      | error e =>
          cases e with
          | fault fault => exact .faulty fault []
          | _ => exact .failed fun f hf => by cases hf
      | ok f =>
          change Mirrors (ofInspected f ε (recordEntries f record))
            (((Inspection.attempt f ε (recordEntries f record)).map (·.faults)).map Report.ofFaults)
          have hmirrors := mirrors_ofInspected f ε (recordEntries f record)
          cases hattempt : Inspection.attempt f ε (recordEntries f record) with
          | error e => rwa [hattempt] at hmirrors
          | ok s => rwa [hattempt] at hmirrors

theorem recordFrame_eq_error {record : Record (Value α)} {choice : Option (FrameChoice α)}
    {e : Failure α} (h : recordFrame record choice = .error e) :
    (∃ m, e = .misuse m) ∨ ∃ fault, e = .fault fault := by
  unfold recordFrame at h
  cases choice with
  | none =>
      obtain ⟨fault, -, rfl⟩ := Outcome.mapError_eq_error h
      exact .inr ⟨fault, rfl⟩
  | some choice =>
      cases choice with
      | frame f => cases h
      | elements v =>
          rcases Outcome.bind_eq_error h with h | ⟨values, -, h⟩
          · obtain ⟨m, -, rfl⟩ := Outcome.mapError_eq_error h
            exact .inl ⟨m, rfl⟩
          · obtain ⟨fault, -, rfl⟩ := Outcome.mapError_eq_error h
            exact .inr ⟨fault, rfl⟩

theorem ofInspected_eq_error {f : Frame} {ε : α} {entries : List (Entry α)} {e : Failure α}
    (h : ofInspected f ε entries = .error e) :
    (∃ m, entries.findSome? Entry.misuse? = some m ∧ e = .misuse m) ∨
      ∃ fault, e = .fault fault := by
  rcases Outcome.bind_eq_error h with h | ⟨s, -, h⟩
  · unfold Inspection.attempt at h
    split at h
    · next m hm => exact .inl ⟨m, hm, (Except.error.inj h).symm⟩
    · cases h
  · obtain ⟨fault, -, rfl⟩ := Outcome.mapError_eq_error h
    exact .inr ⟨fault, rfl⟩

/-- The tolerance is refused before anything else is looked at, and nothing that comes later refuses
it. -/
theorem ofRecord_eq_error {record : Record (Value α)} {options : MassOptions α} {e : Failure α}
    (h : ofRecord record options = .error e) :
    (∃ got, BadTolerance options.epsilon got ∧ e = .epsilonOutOfRange got) ∨
      (∃ m, e = .misuse m) ∨ ∃ fault, e = .fault fault := by
  rcases Outcome.bind_eq_error h with h | ⟨ε, -, h⟩
  · exact (resolveEpsilon_eq_error h).imp_right fun he => .inl ⟨_, he⟩
  · rcases Outcome.bind_eq_error h with h | ⟨f, -, h⟩
    · exact .inr (recordFrame_eq_error h)
    · exact .inr ((ofInspected_eq_error h).imp_left fun ⟨m, _, he⟩ => ⟨m, he⟩)

theorem ofRecord_eq_epsilonOutOfRange {record : Record (Value α)} {options : MassOptions α}
    {got : Value α} :
    ofRecord record options = .error (.epsilonOutOfRange got) ↔
      BadTolerance options.epsilon got := by
  constructor
  · intro h
    obtain ⟨_, hbad, he⟩ | ⟨m, he⟩ | ⟨fault, he⟩ := ofRecord_eq_error h
    · exact Failure.epsilonOutOfRange.inj he ▸ hbad
    · cases he
    · cases he
  · intro hbad
    rw [ofRecord, resolveEpsilon_bad hbad]
    rfl

/-- A record is reported to be valid exactly if a mass function can be built from it. Otherwise the
report starts with the fault that construction stops with, and a bad tolerance or a misused value
is no matter of reports and stops both alike. -/
theorem reportRecord_agrees (record : Record (Value α)) (options : MassOptions α) :
    (∀ got,
        (ofRecord record options = .error (.epsilonOutOfRange got) ↔
          BadTolerance options.epsilon got) ∧
        (reportRecord record options = .error (.epsilonOutOfRange got) ↔
          BadTolerance options.epsilon got)) ∧
      ((∃ m, ofRecord record options = .ok m) ↔ reportRecord record options = .ok ⟨true, []⟩) ∧
      (∀ report, reportRecord record options = .ok report →
        (report.valid = true ↔ report.errors = [])) ∧
      (∀ fault, ofRecord record options = .error (.fault fault) →
        ∃ others, reportRecord record options =
          .ok ⟨false, ⟨fault.code, fault.message⟩ :: others⟩) ∧
      (∀ e, (∀ fault, e ≠ .fault fault) →
        (ofRecord record options = .error e ↔ reportRecord record options = .error e)) ∧
      ∀ fault, reportRecord record options ≠ .error (.fault fault) := by
  have hmirrors := mirrors_reportRecord record options
  refine ⟨fun got => ⟨ofRecord_eq_epsilonOutOfRange, ?_⟩, hmirrors.ok_iff,
    fun report => hmirrors.valid_iff, fun fault => hmirrors.first_complaint,
    fun e => hmirrors.failure_iff, hmirrors.ne_fault⟩
  rw [← hmirrors.failure_iff (fun fault he => by cases he), ofRecord_eq_epsilonOutOfRange]

end MassFunction

end Evidence
