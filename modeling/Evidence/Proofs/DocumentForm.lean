import Mathlib
import Evidence.Proofs.Accepting
import Evidence.Proofs.Framing
import Evidence.Proofs.RecordForm

namespace Evidence

namespace Schema

theorem hypothesis_accepts {h : Hypothesis} (hv : h.Valid) :
    hypothesis (h.toValue : Value ℚ) = .accepted h.toValue := by
  cases h with
  | name s =>
      have htext : nonemptyText (.text s : Value ℚ) = .accepted (.text s) := if_neg hv.1.1
      change either nonemptyText _ (.text s) = _
      rw [either, htext]
      rfl
  | number n =>
      have hwhole : (Quantity.finite (n : ℚ)).isInteger = true := by
        rw [Quantity.isInteger, toNat?_natCast]
        rfl
      have hnonneg : (!(Quantity.finite (n : ℚ)).below (.finite 0)) = true := by
        change (!decide ((n : ℚ) < 0)) = true
        simp
      have hnumber :
          number [whole, nonnegative] (.finite (n : ℚ)) = .accepted (.finite (n : ℚ)) := by
        refine number_accepts (by simp) fun r hr => ?_
        rcases List.mem_pair.1 hr with rfl | rfl
        · exact hwhole
        · exact hnonneg
      change either nonemptyText _ (.finite (n : ℚ)) = _
      rw [either, hnumber]
      rfl

theorem epsilon_accepts {ε : ℚ} (h0 : 0 < ε) (h1 : ε < 0.1) :
    optional epsilon (.finite ε) = .accepted (.finite ε) := by
  change epsilon (.number (.finite ε)) = _
  refine number_accepts (by simp) fun r hr => ?_
  rcases List.mem_pair.1 hr with rfl | rfl
  · exact decide_eq_true h0
  · exact decide_eq_true h1

/-- The schema hands on a written document as it is, but for the key that records do not keep. -/
theorem massDocument_validate (f : Frame) {masses : Record (Value ℚ)} {ε : ℚ}
    (hmasses : ∀ p ∈ masses, ∃ x, p.2 = .finite x) (h0 : 0 < ε) (h1 : ε < 0.1) :
    massDocument.validate (.object [
      ("@type", .text MassFunction.typeTag), ("frame", .list f.toValues),
      ("masses", .object masses), ("epsilon", .finite ε)]) = .ok (.object [
      ("@type", .text MassFunction.typeTag), ("frame", .list f.toValues),
      ("masses", .object (Record.erase Record.unkeptKey masses)), ("epsilon", .finite ε)]) := by
  have hframe : nonemptyList hypothesis (.list f.toValues : Value ℚ) =
      .accepted (.list f.toValues) := by
    refine nonemptyList_accepts (by simpa [Frame.toValues] using f.nonempty) ?_
    exact List.forall_mem_map.2 fun h hh => hypothesis_accepts (f.valid h hh)
  have hrecord : massRecord (.object masses) =
      .accepted (.object (Record.erase Record.unkeptKey masses)) := by
    refine record_accepts fun p hp => ?_
    obtain ⟨x, hx⟩ := hmasses p hp
    rw [hx]
    exact number_accepts (by simp) (List.forall_mem_nil _)
  have htag : literal MassFunction.typeTag (.text MassFunction.typeTag : Value ℚ) =
      .accepted (.text MassFunction.typeTag) := by
    rw [literal, if_pos rfl]
  have hobject : massDocument (.object [
      ("@type", .text MassFunction.typeTag), ("frame", .list f.toValues),
      ("masses", .object masses), ("epsilon", .finite ε)]) = .accepted (.object [
      ("@type", .text MassFunction.typeTag), ("frame", .list f.toValues),
      ("masses", .object (Record.erase Record.unkeptKey masses)), ("epsilon", .finite ε)]) := by
    have hfields : List.Forall₂ (fun p q => p.1 = q.1 ∧ p.2 ((Record.get? p.1 [
        ("@type", .text MassFunction.typeTag), ("frame", .list f.toValues),
        ("masses", .object masses), ("epsilon", .finite ε)]).getD .absent) = .accepted q.2)
        [("@type", literal MassFunction.typeTag), ("frame", nonemptyList hypothesis),
          ("masses", massRecord), ("epsilon", optional epsilon)] [
        ("@type", .text MassFunction.typeTag), ("frame", .list f.toValues),
        ("masses", .object (Record.erase Record.unkeptKey masses)), ("epsilon", .finite ε)] :=
      .cons ⟨rfl, htag⟩ (.cons ⟨rfl, hframe⟩ (.cons ⟨rfl, hrecord⟩
        (.cons ⟨rfl, epsilon_accepts h0 h1⟩ .nil)))
    exact object_accepts hfields
  rw [validate, hobject]
  rfl

end Schema

namespace MassFunction

variable {m : MassFunction ℚ}

theorem toDocument_of_toRecord {record : Record (Value ℚ)} (hrecord : m.toRecord = .ok record) :
    m.toDocument = .ok (.object [
      ("@type", .text typeTag), ("frame", .list m.frame.toValues), ("masses", .object record),
      ("epsilon", .finite m.epsilon)]) := by
  rw [toDocument, hrecord]
  rfl

section Valid

variable (h : m.Valid)
include h

theorem Valid.ofDocument_kept {u : Tally Mask ℚ} (hu : u.Perm m.kept) :
    ofDocument (.object [
      ("@type", .text typeTag), ("frame", .list m.frame.toValues),
      ("masses", .object (labelled m.frame u)), ("epsilon", .finite m.epsilon)]) =
      if m.epsilon < |m.kept.total - 1| then
        .error (.fault (.unnormalized m.kept.total m.epsilon m.frame))
      else .ok ⟨m.frame, u, m.epsilon⟩ := by
  have hnumbers : ∀ p ∈ labelled m.frame u, ∃ x, p.2 = Value.finite x :=
    List.forall_mem_map.2 fun e _ => ⟨e.2, rfl⟩
  have herase : Record.erase Record.unkeptKey (labelled m.frame u) = labelled m.frame u := by
    rw [Record.erase, List.filter_eq_self, labelled, List.forall_mem_map]
    exact fun e he => (List.mem_filter.1 (hu.mem_iff.1 he)).2
  have hchecked := Schema.massDocument_validate m.frame hnumbers h.tolerance.1 h.tolerance.2
  rw [herase] at hchecked
  unfold ofDocument
  rw [hchecked]
  exact h.ofRecord_kept hu m.frame.ofValue_toValues

/-- A document restores every mass function that is none of whose labels records drop. -/
theorem Valid.exists_ofDocument
    (hkeep : ∀ e ∈ m.masses, (Event.mk m.frame e.1).label ≠ Record.unkeptKey) :
    ∃ document n, m.toDocument = .ok document ∧ ofDocument document = .ok n ∧
      SameEvidence m n ∧ n.epsilon = m.epsilon := by
  obtain ⟨u, hu, hrecord⟩ := h.exists_toRecord
  obtain ⟨hall, hnormal⟩ := h.kept_eq hkeep
  have hread := h.ofDocument_kept hu
  rw [if_neg hnormal] at hread
  exact ⟨_, _, toDocument_of_toRecord hrecord, hread, .of_perm h rfl (hall ▸ hu).symm, rfl⟩

end Valid

end MassFunction

end Evidence
