import Mathlib
import Evidence.MassFunction.Construction
import Evidence.Proofs.Arithmetic
import Evidence.Proofs.Gathering

namespace Evidence

namespace Event

variable {α : Type} [Scalar α]

theorem within_ofValues {f : Frame} {values : List (Value α)} {e : Event}
    (h : ofValues f values = .ok e) : e.frame = f ∧ e.mask.within f.size = true :=
  (h ▸ gathered_ofValues f values).within

omit [Scalar α] in
theorem within_ofLabel {f : Frame} {label : String} {e : Event}
    (h : (ofLabel f label : Except (Fault α) Event) = .ok e) :
    e.frame = f ∧ e.mask.within f.size = true := by
  by_cases hfull : Text.trim label = Label.ignorance
  · obtain rfl := Except.ok.inj ((if_pos hfull).symm.trans h)
    exact ⟨rfl, Mask.within_full _⟩
  by_cases hempty : Text.trim label = Label.empty ∨ Text.trim label = ""
  · obtain rfl := Except.ok.inj (((if_neg hfull).trans (if_pos hempty)).symm.trans h)
    exact ⟨rfl, Mask.within_empty _⟩
  exact (h ▸ gathered_ofLabel hfull hempty).within

omit [Scalar α] in
theorem within_ofMask {f : Frame} {mask : Mask} {e : Event}
    (h : (ofMask f mask : Except (Fault α) Event) = .ok e) :
    e = ⟨f, mask⟩ ∧ mask.within f.size = true := by
  unfold ofMask at h
  split_ifs at h with hin
  exact ⟨(Except.ok.inj h).symm, hin⟩

end Event

theorem Designation.within_resolve {α : Type} [Scalar α] {f : Frame} {d : Designation α} {e : Event}
    (hd : ∀ c, d = .event c → c.frame = f → c.mask.within f.size = true) (h : d.resolve f = .ok e) :
    e.frame = f ∧ e.mask.within f.size = true := by
  unfold resolve at h
  cases d with
  | event c =>
      dsimp only at h
      split_ifs at h with hframe
      · obtain rfl := Except.ok.inj h
        exact ⟨hframe, hd c rfl hframe⟩
      · exact Event.within_ofValues h
  | list items => exact Event.within_ofValues h
  | single v => exact Event.within_ofValues h

namespace Inspection

variable {α : Type} [Scalar α]

/-- What an inspection keeps true of the masses that it has filed, where every event that is found
has a mask of one sort. -/
structure Sound (P : Mask → Prop) (s : Inspection α) : Prop where
  inside : ∀ e ∈ s.masses, e.1 ≠ .empty ∧ P e.1
  distinct : s.masses.keys.Nodup
  positive : ∀ e ∈ s.masses, 0 < e.2 ∧ e.2 ≤ 1
  counted : s.faults = [] → s.total = s.masses.total

variable {P : Mask → Prop}

theorem Sound.start : Sound P (start : Inspection α) where
  inside := by simp [Inspection.start]
  distinct := List.nodup_nil
  positive := by simp [Inspection.start]
  counted _ := rfl

omit [Scalar α] in
theorem note_faults_ne (s : Inspection α) (c : Fault α) : (s.note c).faults ≠ [] := by
  simp [note]

theorem Sound.note {s : Inspection α} (h : Sound P s) (x : α) (c : Fault α) :
    Sound P (Inspection.note { s with total := x } c) where
  inside := h.inside
  distinct := h.distinct
  positive := h.positive
  counted hnil := absurd hnil (note_faults_ne _ c)

theorem inRange?_eq_some {v : Value α} {x : α} (h : inRange? v = some x) :
    v = .finite x ∧ 0 ≤ x ∧ x ≤ 1 := by
  unfold inRange? at h
  split at h
  · split_ifs at h with hx
    obtain rfl := Option.some.inj h
    exact ⟨rfl, hx⟩
  · cases h

omit [Scalar α] in
theorem not_mem_keys_of_has {t : Tally Mask α} {m : Mask} (h : ¬ t.has m = true) : m ∉ t.keys := by
  intro hmem
  obtain ⟨e, he, rfl⟩ := List.mem_map.1 hmem
  exact h (List.any_eq_true.2 ⟨e, he, decide_eq_true rfl⟩)

variable [Scalar.Lawful α]

theorem Sound.nonneg {s : Inspection α} (h : Sound P s) : ∀ x ∈ s.masses.values, 0 ≤ x :=
  List.forall_mem_map.2 fun e he => Scalar.Lawful.le_of_lt (h.positive e he).1

theorem Sound.file {s : Inspection α} (h : Sound P s) (name : String) {e : Event}
    (he : P e.mask) {x : α} (h0 : 0 ≤ x) (h1 : x ≤ 1) :
    Sound P (Inspection.file { s with total := s.total + x } name e x) := by
  unfold Inspection.file
  split_ifs with hzero hempty hhas
  · refine ⟨h.inside, h.distinct, h.positive, fun hnil => ?_⟩
    have hsum := Scalar.Lawful.sum_add_nothing h.nonneg h0 hzero
    exact (congrArg (· + x) (h.counted hnil)).trans hsum
  · exact h.note _ _
  · exact h.note _ _
  · have hnew : e.mask ∉ s.masses.keys := not_mem_keys_of_has hhas
    have hne : e.mask ≠ .empty := by simpa [Event.isEmpty] using hempty
    have hpos : 0 < x := Scalar.Lawful.pos_of_not_le h0 hzero
    refine ⟨?_, ?_, ?_, fun hnil => ?_⟩
    · exact List.forall_mem_append.2 ⟨h.inside, List.forall_mem_singleton.2 ⟨hne, he⟩⟩
    · rw [Tally.keys, List.map_append, List.nodup_append]
      refine ⟨h.distinct, List.nodup_singleton _, ?_⟩
      rintro a ha b hb rfl
      obtain rfl : a = e.mask := List.mem_singleton.1 hb
      exact hnew ha
    · exact List.forall_mem_append.2 ⟨h.positive, List.forall_mem_singleton.2 ⟨hpos, h1⟩⟩
    · change s.total + x = sum ((s.masses ++ [(e.mask, x)]).map (·.2))
      rw [h.counted hnil, List.map_append, sum, List.foldl_append]
      rfl

theorem Sound.step {s : Inspection α} (h : Sound P s) {entry : Entry α}
    (hin : ∀ e, entry.event = .ok e → P e.mask) : Sound P (Inspection.step s entry) := by
  unfold Inspection.step
  split
  · exact h.note _ _
  · next x hx =>
    obtain ⟨-, h0, h1⟩ := inRange?_eq_some hx
    cases he : entry.event with
    | error c => exact h.note _ _
    | ok e => exact h.file _ (hin e he) h0 h1

theorem Sound.foldl_step {entries : List (Entry α)}
    (hin : ∀ entry ∈ entries, ∀ e, entry.event = .ok e → P e.mask)
    {s : Inspection α} (h : Sound P s) : Sound P (entries.foldl Inspection.step s) := by
  induction entries generalizing s with
  | nil => exact h
  | cons entry entries ih =>
      obtain ⟨hentry, hentries⟩ := List.forall_mem_cons.1 hin
      exact ih hentries (h.step hentry)

end Inspection

namespace MassFunction

variable {α : Type} [Scalar α]

theorem eq_of_ofInspected {f : Frame} {ε : α} {entries : List (Entry α)} {m : MassFunction α}
    (h : ofInspected f ε entries = .ok m) :
    (Inspection.run f ε entries).faults = [] ∧
      m = ⟨f, (Inspection.run f ε entries).masses, ε⟩ := by
  obtain ⟨s, hs, h⟩ := Outcome.bind_eq_ok h
  have h := Outcome.ofFault_eq_ok h
  unfold Inspection.attempt at hs
  split at hs
  · cases hs
  · obtain rfl := Except.ok.inj hs
    unfold ofInspection at h
    split at h
    · next hnil => exact ⟨hnil, (Except.ok.inj h).symm⟩
    · cases h

theorem checkEpsilon_eq_ok {v : Value α} {ε : α} (h : checkEpsilon v = .ok ε) : 0 < ε ∧ ε < 0.1 := by
  unfold checkEpsilon at h
  split at h
  · split_ifs at h with hx
    exact Except.ok.inj h ▸ hx
  · obtain ⟨_, _, h⟩ := Outcome.bind_eq_ok h
    cases h

variable [Scalar.Lawful α]

/-- Whatever their events, the masses that pass the inspection are above zero and at most one. -/
theorem positive_of_ofInspected {f : Frame} {ε : α} {entries : List (Entry α)} {m : MassFunction α}
    (h : ofInspected f ε entries = .ok m) : ∀ e ∈ m.masses, 0 < e.2 ∧ e.2 ≤ 1 := by
  obtain ⟨-, rfl⟩ := eq_of_ofInspected h
  have hsound : Inspection.Sound (fun _ => True) (entries.foldl Inspection.step .start) :=
    Inspection.Sound.start.foldl_step fun _ _ _ _ => trivial
  rw [Inspection.run, Inspection.finish]
  split_ifs
  · exact hsound.positive
  · exact hsound.positive

theorem valid_of_ofInspected {f : Frame} {ε : α} (hε : 0 < ε ∧ ε < 0.1) {entries : List (Entry α)}
    (hin : ∀ entry ∈ entries, ∀ e, entry.event = .ok e → e.mask.within f.size = true)
    {m : MassFunction α} (h : ofInspected f ε entries = .ok m) : m.Valid := by
  obtain ⟨hfaults, rfl⟩ := eq_of_ofInspected h
  have hsound : Inspection.Sound (fun mask => mask.within f.size = true)
      (entries.foldl Inspection.step .start) := Inspection.Sound.start.foldl_step hin
  rw [Inspection.run, Inspection.finish] at hfaults ⊢
  split_ifs at hfaults ⊢ with hdrift
  · exact absurd hfaults (Inspection.note_faults_ne _ _)
  · refine ⟨hsound.inside, hsound.distinct, hsound.positive, hε, ?_⟩
    rw [hsound.counted hfaults] at hdrift
    exact Scalar.Lawful.distance_le hsound.nonneg hε.1 hdrift

end MassFunction

end Evidence
