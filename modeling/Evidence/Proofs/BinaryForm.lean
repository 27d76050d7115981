import Mathlib
import Evidence.MassFunction.Binary
import Evidence.Proofs.DocumentForm
import Evidence.Proofs.PlainItems

namespace Evidence

namespace Cbor

/-- The first character of a text without blanks around it is not the mark that readers leave out. -/
theorem unmarked_of_trim {s : String} (h : Text.trim s = s) : Reader.Unmarked s := by
  rintro ⟨rest, hrest⟩
  have hmark : Reader.byteOrderMark = Utf8.encodeChar (Char.ofNat 0xFEFF) := by decide
  have hchars := Utf8.decodeFrom_encode s.toList
  change Utf8.decodeFrom none (Utf8.encode s) = s.toList at hchars
  rw [← hrest, hmark, Utf8.decodeFrom_encodeChar] at hchars
  have hblank := (Text.trim_eq_self_iff.1 h).1 (Char.ofNat 0xFEFF) (by simp [← hchars])
  exact absurd hblank (by decide)

end Cbor

open Cbor

theorem Hypothesis.plain_toValue {h : Hypothesis} (hv : h.Valid) (depth : ℕ) :
    Plain depth (h.toValue : Value ℚ) := by
  cases h with
  | number n => exact .number (Binary64.holds_natCast (Nat.lt_succ_of_le hv))
  | name s => exact .text (unmarked_of_trim hv.1.2)

namespace MassFunction

variable {m : MassFunction ℚ}

structure Representable (m : MassFunction ℚ) : Prop where
  epsilon : Binary64.Holds m.epsilon
  mass : ∀ e ∈ m.masses, Binary64.Holds e.2

section Valid

variable (h : m.Valid)
include h

theorem Valid.plain_toRecord (hwords : m.Representable) {record : Record (Value ℚ)}
    (hrecord : m.toRecord = .ok record) (depth : ℕ) : Plain (depth + 1) (.object record) := by
  obtain ⟨u, hu, hlabelled⟩ := h.exists_toRecord
  obtain rfl := Except.ok.inj (hlabelled.symm.trans hrecord)
  rw [h.toRecord_eq, erase_labelled] at hlabelled
  refine .object ?_ ?_ ?_
  · rw [← Except.ok.inj hlabelled]
    exact Record.ofPairs_ofPairs (nodup_labelled h.supported_kept)
  · refine List.forall_mem_map.2 fun e he => ⟨unmarked_of_trim (Event.trim_label _), ?_⟩
    simpa using (List.mem_filter.1 (hu.mem_iff.1 he)).2
  · exact List.forall_mem_map.2 fun e he =>
      .number (hwords.mass e (List.mem_of_mem_filter (hu.mem_iff.1 he)))

theorem Valid.plain_toDocument (hwords : m.Representable) {document : Value ℚ}
    (hdocument : m.toDocument = .ok document) (depth : ℕ) : Plain (depth + 2) document := by
  obtain ⟨u, -, hrecord⟩ := h.exists_toRecord
  rw [toDocument_of_toRecord hrecord] at hdocument
  obtain rfl := Except.ok.inj hdocument
  have hkeys : ∀ key ∈ ["@type", "frame", "masses", "epsilon"],
      (Record.index? key).isNone = true ∧ Reader.Unmarked key ∧ key ≠ Record.unkeptKey := by
    have htrim : ∀ key ∈ ["@type", "frame", "masses", "epsilon"], (Record.index? key).isNone = true ∧
        Text.trim key = key ∧ key ≠ Record.unkeptKey := by decide
    exact fun key hkey => (htrim key hkey).imp_right (.imp_left unmarked_of_trim)
  have hframe : Plain (depth + 1) (.list m.frame.toValues) :=
    .list (List.forall_mem_map.2 fun k hk => Hypothesis.plain_toValue (m.frame.valid k hk) depth)
  refine .object (Record.ofPairs_of_named ?_ fun key hkey => (hkeys key hkey).1) ?_ ?_
  · change ["@type", "frame", "masses", "epsilon"].Nodup
    decide
  · exact fun p hp => (hkeys p.1 (List.mem_map_of_mem (f := Prod.fst) hp)).2
  · simp only [List.forall_mem_cons, List.not_mem_nil, false_imp_iff, implies_true, and_true]
    exact ⟨.text (unmarked_of_trim (by decide)), hframe, h.plain_toRecord hwords hrecord depth,
      .number hwords.epsilon⟩

end Valid

/-- A mass function is restored by both of its forms, unless it has a focal event whose label
records do not keep. The headers of the binary form count up to `2 ^ 64`. -/
theorem interchange (h : m.Valid)
    (hkeep : ∀ e ∈ m.masses, (Event.mk m.frame e.1).label ≠ Record.unkeptKey) :
    (∃ document n, m.toDocument = .ok document ∧ ofDocument document = .ok n ∧
      SameEvidence m n ∧ n.epsilon = m.epsilon) ∧
    ∃ bytes, m.toBytes = .ok bytes ∧ (m.Representable → bytes.length < 2 ^ 64 →
      ∃ n, ofBytes bytes = some (.ok n) ∧ SameEvidence m n ∧ n.epsilon = m.epsilon) := by
  obtain ⟨document, n, hdocument, hread, hsame, hε⟩ := h.exists_ofDocument hkeep
  refine ⟨⟨document, n, hdocument, hread, hsame, hε⟩, encode document, ?_, fun hwords hbytes => ?_⟩
  · rw [toBytes, hdocument]
    rfl
  · have hplain := h.plain_toDocument hwords hdocument 2
    have hdecoded := decode_encode hplain (by decide) hbytes
    refine ⟨n, ?_, hsame, hε⟩
    rw [ofBytes, document?]
    exact (congrArg (Option.map ofDocument) hdecoded).trans (congrArg some hread)

def mixed : Frame where
  elements := [.number 7, .name "rain"]
  sorted := by decide
  valid := by decide
  distinct := by decide
  nonempty := by decide

def halves : MassFunction ℚ := { simple mixed (.finite 1) (1 / 2) with epsilon := 1 / 1024 }

theorem valid_halves : halves.Valid :=
  (valid_simple (f := mixed) (A := .finite 1) (by decide) (by decide) (by decide) (by norm_num)
    (by norm_num)).of_perm rfl (.refl _) (by norm_num [simple, halves, defaultEpsilon_eq])
    (by norm_num [halves])

theorem representable_halves : halves.Representable := by
  have hhalf : Binary64.Holds (1 / 2) := by
    have h := Binary64.Fits.holds (s := 2 ^ 52) (e := -53) (by norm_num [Binary64.Fits])
    norm_num at h
    exact h
  have hepsilon : Binary64.Holds (1 / 1024) := by
    have h := Binary64.Fits.holds (s := 2 ^ 52) (e := -62) (by norm_num [Binary64.Fits])
    norm_num at h
    exact h
  refine ⟨hepsilon, List.forall_mem_cons.2 ⟨hhalf, List.forall_mem_singleton.2 ?_⟩⟩
  rwa [sub_half]

theorem interchange_halves : ∃ bytes n, halves.toBytes = .ok bytes ∧
    ofBytes bytes = some (.ok n) ∧ SameEvidence halves n ∧ n.epsilon = 1 / 1024 := by
  obtain ⟨-, bytes, hbytes, hread⟩ := interchange valid_halves (by decide)
  have hlength : bytes.length < 2 ^ 64 := by
    have hshort : (match halves.toBytes with
        | .ok bytes => Decidable.decide (bytes.length < 2 ^ 64)
        | .error _ => false) = true := by
      decide +kernel
    rw [hbytes] at hshort
    exact of_decide_eq_true hshort
  obtain ⟨n, hn⟩ := hread representable_halves hlength
  exact ⟨bytes, n, hbytes, hn⟩

end MassFunction

end Evidence
