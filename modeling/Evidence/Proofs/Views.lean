import Mathlib
import Evidence.MassFunction.Document
import Evidence.MassFunction.Pignistic
import Evidence.Proofs.Outcome

namespace Evidence.MassFunction

variable {α : Type} [Scalar α]

def labelled (f : Frame) (t : Tally Mask α) : Record (Value α) :=
  t.map fun e => ((Event.mk f e.1).label, .finite e.2)

variable {m : MassFunction α} (h : m.Valid)
include h

theorem Valid.ofMask_eq {e : Mask × α} (he : e ∈ m.masses) :
    (Event.ofMask m.frame e.1 : Except (Fault α) Event) = .ok ⟨m.frame, e.1⟩ :=
  if_pos (h.inside e he).2

theorem Valid.entries_eq : m.entries = .ok (m.masses.map fun e => (⟨m.frame, e.1⟩, e.2)) := by
  unfold entries
  apply Outcome.mapM_eq_map
  rintro ⟨mask, x⟩ he
  dsimp only
  rw [h.ofMask_eq he]
  rfl

theorem Valid.focalEvents_eq : m.focalEvents = .ok (m.masses.map fun e => ⟨m.frame, e.1⟩) := by
  unfold focalEvents
  apply Outcome.mapM_eq_map
  intro e he
  exact h.ofMask_eq he

theorem Valid.text_eq : m.text = .ok m.plainText := by
  have hranked : m.ranked.mapM (fun e => (Event.ofMask m.frame e.1 : Except (Fault α) Event)) =
      .ok (m.ranked.map fun e => ⟨m.frame, e.1⟩) := by
    apply Outcome.mapM_eq_map
    intro e he
    exact h.ofMask_eq (List.mem_mergeSort.1 he)
  unfold text
  rw [hranked]
  rfl

theorem Valid.toRecord_eq : m.toRecord =
    .ok (Record.ofPairs (Record.erase Record.unkeptKey (labelled m.frame m.masses))) := by
  unfold toRecord
  rw [h.entries_eq]
  change Except.ok (Record.ofPairs (Record.erase _ ((m.masses.map _).map _))) = _
  rw [List.map_map]
  rfl

theorem Valid.toDocument_eq : m.toDocument = .ok (.object [
    ("@type", .text typeTag),
    ("frame", .list m.frame.toValues),
    ("masses", .object (Record.ofPairs (Record.erase Record.unkeptKey
      (labelled m.frame m.masses)))),
    ("epsilon", .finite m.epsilon)]) := by
  unfold toDocument
  rw [h.toRecord_eq]
  rfl

theorem Valid.exists_pignistic : ∃ p ps, m.pignistic = .ok (p :: ps) := by
  obtain ⟨k, ks, hk⟩ := List.exists_cons_of_ne_nil m.frame.nonempty
  unfold pignistic
  rw [h.entries_eq, hk]
  change ∃ p ps, Except.ok (List.mapIdx _ (k :: ks)) = _
  rw [List.mapIdx_cons]
  exact ⟨_, _, rfl⟩

end Evidence.MassFunction
