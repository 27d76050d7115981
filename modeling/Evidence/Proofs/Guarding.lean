import Mathlib
import Evidence.Proofs.Accepting
import Evidence.Proofs.Obtainable
import Evidence.Proofs.Reporting

namespace Evidence

namespace Schema

variable {α : Type}

theorem record_accepted [NatCast α] {item : Schema α} {v w : Value α}
    (h : record item v = .accepted w) :
    ∃ fields, w = .object fields ∧ ∀ q ∈ fields, ∃ u, item u = .accepted q.2 := by
  unfold record at h
  split at h
  · next fields _ =>
    obtain ⟨vs, hparts, rfl⟩ := Checked.parts_of_gather h
    refine ⟨_, rfl, fun q hq => ?_⟩
    have hmem := List.mem_map_of_mem (f := fun p : String × Value α => (p.1, Checked.accepted p.2))
      (List.mem_of_mem_filter hq)
    rw [← hparts] at hmem
    obtain ⟨p, -, hp⟩ := List.mem_map.1 hmem
    exact ⟨p.2, Checked.below_eq_accepted (Prod.mk.inj hp).2⟩
  · cases h

end Schema

variable {α : Type} [Scalar α]

inductive Guarded : Except (Failure α) (MassFunction α) → Prop
  | valid {m : MassFunction α} (h : m.Valid) : Guarded (.ok m)
  | rejected (issues : List Issue) : Guarded (.error (.rejected issues))
  | fault (f : Fault α) : Guarded (.error (.fault f))

namespace MassFunction

theorem misuse_recordEntries {f : Frame} {record : Record (Value α)}
    (h : ∀ q ∈ record, q.2.hasText = true) :
    (recordEntries f record).findSome? Entry.misuse? = none := by
  rw [List.findSome?_eq_none_iff]
  intro entry hentry
  obtain ⟨q, hq, rfl⟩ := List.mem_map.1 hentry
  unfold Entry.misuse?
  split
  · rfl
  · exact if_pos (h q hq)

theorem guarded_ofRecord [Scalar.Lawful α] {record : Record (Value α)} {options : MassOptions α}
    {ε : α} (hε : resolveEpsilon options.epsilon = .ok ε)
    (hframe : ∀ m, recordFrame record options.frame ≠ .error (.misuse m))
    (hrecord : ∀ q ∈ record, q.2.hasText = true) : Guarded (ofRecord record options) := by
  cases h : ofRecord record options with
  | ok m => exact .valid (valid_of_ofRecord h)
  | error e =>
      rcases Outcome.bind_eq_error h with h | ⟨ε', -, h⟩
      · cases hε.symm.trans h
      · rcases Outcome.bind_eq_error h with h | ⟨f, -, h⟩
        · obtain ⟨m, rfl⟩ | ⟨fault, rfl⟩ := recordFrame_eq_error h
          · exact absurd h (hframe m)
          · exact .fault fault
        · obtain ⟨m, hm, -⟩ | ⟨fault, rfl⟩ := ofInspected_eq_error h
          · cases (misuse_recordEntries hrecord).symm.trans hm
          · exact .fault fault

theorem resolveEpsilon_bounded [Scalar.Ordered α] {v : Value α}
    (h : v = .absent ∨ ∃ ε, v = .finite ε ∧ 0 < ε ∧ ε < 0.1) :
    ∃ ε, resolveEpsilon v = .ok ε := by
  rcases h with rfl | ⟨ε, rfl, hε⟩
  · exact ⟨defaultEpsilon,
      if_pos ⟨Scalar.Ordered.defaultEpsilon_pos, Scalar.Ordered.defaultEpsilon_lt⟩⟩
  · exact ⟨ε, if_pos hε⟩

theorem recordFrame_frameOf {record : Record (Value α)} {v : Value α}
    (h : v = .absent ∨ ∃ values, v = .list values) (m : Misuse) :
    recordFrame record (frameOf v) ≠ .error (.misuse m) := by
  intro hm
  rcases h with rfl | ⟨values, rfl⟩
  · obtain ⟨fault, -, hfault⟩ := Outcome.mapError_eq_error hm
    cases hfault
  · have hm : Failure.ofFault (Frame.ofValues values) = .error (.misuse m) := hm
    obtain ⟨fault, -, hfault⟩ := Outcome.mapError_eq_error hm
    cases hfault

theorem hasText_recordOf {v w : Value α} (h : Schema.massRecord v = .accepted w) :
    ∀ q ∈ recordOf w, q.2.hasText = true := by
  obtain ⟨fields, rfl, hfields⟩ := Schema.record_accepted h
  intro q hq
  obtain ⟨u, hu⟩ := hfields q hq
  obtain ⟨-, x, hx, -⟩ := Schema.number_accepted hu
  rw [hx]
  rfl

variable [Scalar.Ordered α]

theorem guarded_ofDocument (v : Value α) : Guarded (ofDocument v) := by
  unfold ofDocument
  cases h : Schema.massDocument.validate v with
  | error issues => exact .rejected issues
  | ok w =>
      have hkeys : ["@type", "frame", "masses", "epsilon"].Nodup := by decide
      have hfield {p : String × Schema α} := Schema.field_accepted (p := p) (by exact hkeys)
        (Schema.eq_accepted_of_validate h)
      obtain ⟨-, values, -, hframe, -⟩ :=
        Schema.nonemptyList_accepted (hfield (.tail _ (.head _)))
      have hmasses := hasText_recordOf (hfield (.tail _ (.tail _ (.head _))))
      have hepsilon := Schema.between_accepted (hfield (.tail _ (.tail _ (.tail _ (.head _)))))
      obtain ⟨ε, hε⟩ := resolveEpsilon_bounded hepsilon.2
      exact guarded_ofRecord hε (recordFrame_frameOf (.inr ⟨values, hframe⟩)) hmasses

theorem guarded_ofPlain (record options : Value α) : Guarded (ofPlain record options) := by
  unfold ofPlain
  cases hrecord : Schema.massRecord.validate record with
  | error issues => exact .rejected issues
  | ok checkedRecord =>
      have hmasses := hasText_recordOf (Schema.eq_accepted_of_validate hrecord)
      change Guarded (((Schema.massOptions.validate
        (if options.isAbsent then .object [] else options)).mapError .rejected).bind _)
      cases hoptions : Schema.massOptions.validate
          (if options.isAbsent then .object [] else options) with
      | error issues => exact .rejected issues
      | ok w =>
          have hkeys : ["frame", "epsilon"].Nodup := by decide
          have hfield {p : String × Schema α} := Schema.field_accepted (p := p) (by exact hkeys)
            (Schema.eq_accepted_of_validate hoptions)
          have hframe := Schema.optional_accepted (hfield (.head _))
          have hepsilon := Schema.between_accepted (hfield (.tail _ (.head _)))
          obtain ⟨ε, hε⟩ := resolveEpsilon_bounded hepsilon.2
          refine guarded_ofRecord hε (recordFrame_frameOf (hframe.imp And.right fun h => ?_)) hmasses
          obtain ⟨-, values, -, hlist, -⟩ := Schema.nonemptyList_accepted h
          exact ⟨values, hlist⟩

end MassFunction

theorem Policy.ofOptions_or_rejected [Scalar.Ordered α] {options : Value α} (h : options ≠ .null) :
    (∃ p, ofOptions options = .ok p) ∨
      ∃ issues, ofOptions options = .error (.rejected issues) := by
  rw [ofOptions_eq h]
  cases hchecked : Schema.fusionOptions.validate (.object options.fields) with
  | error issues => exact .inr ⟨issues, rfl⟩
  | ok w =>
      obtain ⟨p, _, _, hp, -⟩ := exists_ofChecked (Schema.eq_accepted_of_validate hchecked)
        (options.field listenerField)
      exact .inl ⟨p, hp⟩

/-- Fusion options that their schema accepts resolve to tolerances in order and within their ranges,
which stay as they are when they are resolved again and whose tolerance mass functions take. Hence
no policy fails but for the issues of its options, and no plain data leads to a failure other than
the issues of its schema and the faults of its evidence. -/
theorem Schema.guards [Scalar.Ordered α] :
    (∀ v w : Value α, fusionOptions.validate v = .ok w → ∃ ε δ : α,
        (DriftOptions.ofValue v).resolve = .ok ⟨.finite ε, .finite δ⟩ ∧
        (DriftOptions.ofValue w).resolve = .ok ⟨.finite ε, .finite δ⟩ ∧
        (DriftOptions.ofTolerances ⟨.finite ε, .finite δ⟩).resolve =
          .ok (⟨.finite ε, .finite δ⟩ : Tolerances α) ∧
        MassFunction.checkEpsilon (.finite ε) = .ok ε ∧ 0 < ε ∧ ε < δ ∧ δ < 1) ∧
      (∀ options : Value α, options ≠ .null → (∃ p, Policy.ofOptions options = .ok p) ∨
        ∃ issues, Policy.ofOptions options = .error (.rejected issues)) ∧
      (∀ v : Value α, Guarded (MassFunction.ofDocument v)) ∧
      ∀ record options : Value α, Guarded (MassFunction.ofPlain record options) := by
  refine ⟨fun v w h => ?_, fun options => Policy.ofOptions_or_rejected,
    MassFunction.guarded_ofDocument, MassFunction.guarded_ofPlain⟩
  obtain ⟨hbounded, hw, hv⟩ := fusionOptions_accepted (eq_accepted_of_validate h)
  obtain ⟨ε, δ, hresolve, h0, h1, hδ, hδ1⟩ := DriftOptions.exists_resolve hbounded
  rw [← hw] at hresolve
  exact ⟨ε, δ, hv ▸ hresolve, hresolve, DriftOptions.resolve_finite h0 hδ, if_pos ⟨h0, h1⟩, h0, hδ,
    hδ1⟩

/-- A tolerance just below a tenth, whose tenfold is just below one. -/
def Schema.nearTenth : Value Float := .object [("epsilon", .finite 0.09999999999999999)]

theorem Schema.guards_nearTenth :
    fusionOptions.validate nearTenth = .ok nearTenth ∧
      (∃ ε δ, (DriftOptions.ofValue nearTenth).resolve = .ok ⟨.finite ε, .finite δ⟩ ∧ ε < δ ∧ δ < 1) ∧
      ((∃ p, Policy.ofOptions nearTenth = .ok p) ∨
        ∃ issues, Policy.ofOptions nearTenth = .error (.rejected issues)) := by
  have haccepted : fusionOptions.validate nearTenth = .ok nearTenth := rfl
  obtain ⟨ε, δ, hresolve, -, -, -, -, hδ, hδ1⟩ := guards.1 nearTenth nearTenth haccepted
  exact ⟨haccepted, ⟨ε, δ, hresolve, hδ, hδ1⟩, guards.2.1 nearTenth nofun⟩

end Evidence
