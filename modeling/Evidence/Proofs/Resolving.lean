import Mathlib
import Evidence.Proofs.WholeNumbers
import Evidence.Proofs.EventAlgebra
import Evidence.Proofs.Protruding

namespace Evidence

variable {α : Type} [Scalar α]

def Value.IsHypothesis : Value α → Prop
  | .number _ | .text _ => True
  | _ => False

omit [Scalar α] in
theorem Value.IsHypothesis.shown {v : Value α} (h : v.IsHypothesis) :
    v.hasText = true ∧ v.hasJson = true := by
  cases v with
  | number x => exact ⟨rfl, rfl⟩
  | text s => exact ⟨rfl, rfl⟩
  | _ => exact h.elim

namespace Hypothesis

def Alike (values others : List (Value α)) : Prop :=
  ∀ o, o ∈ values.map ofValue? ↔ o ∈ others.map ofValue?

variable {values others items : List (Value α)}

theorem alike_refl (values : List (Value α)) : Alike values values := fun _ => Iff.rfl

theorem Alike.symm (h : Alike values others) : Alike others values := fun o => (h o).symm

theorem Alike.trans (h : Alike values others) (ho : Alike others items) : Alike values items :=
  fun o => (h o).trans (ho o)

theorem Alike.mem_written_iff (h : Alike values others) (k : Hypothesis) :
    k ∈ written values ↔ k ∈ written others := by
  simpa only [mem_written, List.mem_map] using h (some k)

variable [Scalar.Counting α]

theorem Valid.ofValue?_toValue {h : Hypothesis} (valid : h.Valid) :
    ofValue? (h.toValue : Value α) = some h := by
  cases h with
  | number n => exact congrArg (Option.map number) (Scalar.Counting.toNat?_natCast valid)
  | name s => rfl

end Hypothesis

namespace Frame

variable {f : Frame} {values others : List (Value α)}

theorem Covers.exists_of_mem (h : f.Covers values) {o : Option Hypothesis}
    (ho : o ∈ values.map Hypothesis.ofValue?) : ∃ k ∈ f.elements, o = some k := by
  obtain ⟨v, hv, rfl⟩ := List.mem_map.1 ho
  exact h v hv

theorem Covers.alike (h : f.Covers values) (halike : Hypothesis.Alike values others) :
    f.Covers others := fun _ hv => h.exists_of_mem ((halike _).2 (List.mem_map_of_mem hv))

theorem Covers.mem_map_iff (h : f.Covers values) (o : Option Hypothesis) :
    o ∈ values.map Hypothesis.ofValue? ↔ ∃ k ∈ Hypothesis.written values, o = some k := by
  constructor
  · intro ho
    obtain ⟨k, -, rfl⟩ := h.exists_of_mem ho
    exact ⟨k, Hypothesis.mem_written.2 (List.mem_map.1 ho), rfl⟩
  · rintro ⟨k, hk, rfl⟩
    exact List.mem_map.2 (Hypothesis.mem_written.1 hk)

end Frame

inductive Value.Form (values : List (Value α)) : Value α → Prop
  | list {others : List (Value α)} (alike : Hypothesis.Alike values others)
      (hypotheses : ∀ v ∈ others, v.IsHypothesis) : Form values (.list others)
  | event {others : List (Value α)} (alike : Hypothesis.Alike values others) {g : Frame} {c : Event}
      (made : Event.ofValue g (.list others) = .ok c) : Form values (.event c)
  | single {v : Value α} (alike : Hypothesis.Alike values [v]) (hypothesis : v.IsHypothesis) :
      Form values v

namespace Event

variable {f : Frame} {values : List (Value α)}

theorem ofValues_of_ofValue {e : Event} (h : ofValue f (.list values) = .ok e) :
    ofValues f values = .ok e := by
  change find f values = _ at h
  unfold find at h
  split at h
  · cases h
  · exact Outcome.ofFault_eq_ok h

theorem exists_ofValue_iff : (∃ e, ofValue f (.list values) = .ok e) ↔ f.Covers values := by
  constructor
  · rintro ⟨e, he⟩
    exact covers_of_ofValues (ofValues_of_ofValue he)
  · intro h
    obtain ⟨e, he, -⟩ := ofValues_of_covers h
    exact ⟨e, (ofValue_of_covers h).trans (congrArg Failure.ofFault he)⟩

theorem refused_of_not_covers (h : ¬ f.Covers values) :
    ∃ fault, ofValues f values = .error fault ∧ fault.code = .invalidFocalSet := by
  cases hvalues : ofValues f values with
  | ok e => exact absurd (covers_of_ofValues hvalues) h
  | error fault => exact ⟨fault, rfl, code_of_ofValues hvalues⟩

variable [Scalar.Counting α]

theorem writes_items (c : Event) :
    Hypothesis.Writes (c.elements.map Hypothesis.toValue : List (Value α)) c.elements := by
  rw [Hypothesis.Writes, List.map_map]
  exact List.map_congr_left fun h hh => (valid_of_mem_elements hh).ofValue?_toValue

theorem alike_items {g : Frame} {c : Event} (hc : ofValues g values = .ok c) :
    Hypothesis.Alike values (c.elements.map Hypothesis.toValue) := by
  have hcovers := covers_of_ofValues hc
  obtain ⟨c', hc', -, hmem⟩ := ofValues_of_covers hcovers
  obtain rfl := Except.ok.inj (hc.symm.trans hc')
  have hwrites := writes_items (α := α) c
  rw [Hypothesis.Writes] at hwrites
  intro o
  rw [hcovers.mem_map_iff, hwrites, List.mem_map]
  simp only [hmem, eq_comm]

theorem ofValues_items {c : Event} (hc : c.mask.within c.frame.size = true) :
    ofValues c.frame (c.elements.map Hypothesis.toValue : List (Value α)) = .ok c := by
  have hin : c.elements ⊆ c.frame.elements := fun h hh => (mem_elements.1 hh).1
  obtain ⟨e, he, hinside, hmem⟩ := exists_ofValues hin (writes_items (α := α) c)
  rw [he, hinside.eq_of_elements ⟨rfl, hc⟩ hmem]

end Event

theorem Designation.find_eq {d : Designation α} {f : Frame} (h : d.misuse? f = none) :
    d.find f = Failure.ofFault (d.resolve f) := by
  rw [find, h]

namespace Value.Form

variable {f : Frame} {values : List (Value α)} {v : Value α} [Scalar.Counting α]

/-- Every form is found as a list of values that write the same is. -/
theorem exists_items (h : Form values v) : ∃ items, Hypothesis.Alike values items ∧
    ∀ f, (Designation.ofValue v).find f = Failure.ofFault (Event.ofValues f items) := by
  cases h with
  | @list others alike hypotheses =>
      have hshown f := Event.misuse?_eq_none (f := f) fun v hv => (hypotheses v hv).shown
      exact ⟨others, alike, fun f => Designation.find_eq (hshown f)⟩
  | @event others alike g c made =>
      have hmade := Event.ofValues_of_ofValue made
      refine ⟨_, alike.trans (Event.alike_items hmade), fun f => ?_⟩
      by_cases hframe : c.frame = f
      · obtain ⟨rfl, hwithin⟩ := Event.within_ofValues hmade
        rw [← hframe, Event.ofValues_items hwithin]
        exact congrArg Failure.ofFault (if_pos rfl)
      · exact congrArg Failure.ofFault (if_neg hframe)
  | single alike hypothesis =>
      have hshown f := Event.misuse?_eq_none (f := f) (List.forall_mem_singleton.2 hypothesis.shown)
      refine ⟨[v], alike, fun f => ?_⟩
      cases v with
      | number x => exact Designation.find_eq (hshown f)
      | text s => exact Designation.find_eq (hshown f)
      | _ => exact hypothesis.elim

theorem find_of_covers (hf : f.Covers values) : ∃ e, Event.Inside f e ∧
    (∀ k, k ∈ e.elements ↔ k ∈ Hypothesis.written values) ∧
    ∀ v, Form values v → (Designation.ofValue v).find f = .ok e := by
  obtain ⟨e, -, hinside, hmem⟩ := Event.ofValues_of_covers hf
  refine ⟨e, hinside, hmem, fun v hv => ?_⟩
  obtain ⟨items, halike, hfind⟩ := hv.exists_items
  obtain ⟨d, hd, hdinside, hdmem⟩ := Event.ofValues_of_covers (hf.alike halike)
  have hde : d = e := hdinside.eq_of_elements hinside fun k =>
    (hdmem k).trans ((halike.mem_written_iff k).symm.trans (hmem k).symm)
  rw [hfind, hd, hde]
  rfl

theorem find_of_not_covers (hf : ¬ f.Covers values) (h : Form values v) : ∃ fault,
    fault.code = .invalidFocalSet ∧ (Designation.ofValue v).find f = .error (.fault fault) := by
  obtain ⟨items, halike, hfind⟩ := h.exists_items
  obtain ⟨fault, hfault, hcode⟩ := Event.refused_of_not_covers (mt (·.alike halike.symm) hf)
  exact ⟨fault, hcode, (hfind f).trans (congrArg Failure.ofFault hfault)⟩

end Value.Form

namespace MassFunction

theorem ask_of_find {m : MassFunction α} {d : Designation α} {r : Except (Failure α) Event}
    (h : d.find m.frame = r) {β : Type} (answer : Mask → β) :
    m.ask d answer = r.map fun e => answer e.mask := by
  rw [ask, h]

variable [Scalar.Counting α]

/-- All forms of one set are found to be the event with just the hypotheses that are written, and the
mass function tells the same about each, where the frame covers the values; anywhere else all are
refused as an invalid set. Only a frame that covers the values has an event of them. -/
theorem forms_agree (f : Frame) (values : List (Value α)) :
    (f.Covers values → ∃ e, Event.Inside f e ∧
      (∀ k, k ∈ e.elements ↔ k ∈ Hypothesis.written values) ∧
      ∀ v, Value.Form values v → (Designation.ofValue v).find f = .ok e ∧
        ∀ m : MassFunction α, m.frame = f →
          m.mass (.ofValue v) = .ok (m.massOf e.mask) ∧
          m.belief (.ofValue v) = .ok (m.beliefOf e.mask) ∧
          m.plausibility (.ofValue v) = .ok (m.plausibilityOf e.mask)) ∧
    (¬ f.Covers values → ∀ v, Value.Form values v → ∃ fault, fault.code = .invalidFocalSet ∧
      (Designation.ofValue v).find f = .error (.fault fault) ∧
      ∀ m : MassFunction α, m.frame = f →
        m.mass (.ofValue v) = .error (.fault fault) ∧
        m.belief (.ofValue v) = .error (.fault fault) ∧
        m.plausibility (.ofValue v) = .error (.fault fault)) ∧
    ∀ g : Frame, (∃ c, Event.ofValue g (.list values) = .ok c) ↔ g.Covers values := by
  refine ⟨fun hf => ?_, fun hf v hv => ?_, fun g => Event.exists_ofValue_iff⟩
  · obtain ⟨e, hinside, hmem, hfind⟩ := Value.Form.find_of_covers hf
    refine ⟨e, hinside, hmem, fun v hv => ⟨hfind v hv, ?_⟩⟩
    rintro m rfl
    have hasked (answer : Mask → α) := ask_of_find (hfind v hv) answer
    exact ⟨hasked m.massOf, hasked m.beliefOf, hasked m.plausibilityOf⟩
  · obtain ⟨fault, hcode, hfind⟩ := hv.find_of_not_covers hf
    refine ⟨fault, hcode, hfind, ?_⟩
    rintro m rfl
    have hasked (answer : Mask → α) := ask_of_find hfind answer
    exact ⟨hasked m.massOf, hasked m.beliefOf, hasked m.plausibilityOf⟩

/-- A frame in which two hypotheses of the mixed one stand at other positions. -/
def shiftedFrame : Frame where
  elements := [.number 1, .number 2, .name "b"]
  sorted := by decide
  valid := by decide
  distinct := by decide
  nonempty := by decide

/-- A list and an event of another frame name the same event of the mixed frame; a number that it
does not have is refused, by itself as well as in an event. -/
theorem forms_agree_mixed :
    (∃ e, (∀ k, k ∈ e.elements ↔ k = .name "b" ∨ k = .number 2) ∧
      Designation.find Event.mixedFrame (.list [.text "b", .ofNat 2] : Designation Float) = .ok e ∧
      Designation.find Event.mixedFrame (.event ⟨shiftedFrame, .finite 6⟩ : Designation Float) =
        .ok e) ∧
    (∃ fault : Fault Float, fault.code = .invalidFocalSet ∧
      Designation.find Event.mixedFrame (.single (.ofNat 1)) = .error (.fault fault)) ∧
    ∃ fault : Fault Float, fault.code = .invalidFocalSet ∧
      Designation.find Event.mixedFrame (.event ⟨shiftedFrame, .finite 1⟩) =
        .error (.fault fault) := by
  obtain ⟨hcovered, -⟩ := forms_agree (α := Float) Event.mixedFrame [.text "b", .ofNat 2]
  obtain ⟨-, hmissed, -⟩ := forms_agree (α := Float) Event.mixedFrame [.ofNat 1]
  have hcovers : Event.mixedFrame.Covers [.text "b", (.ofNat 2 : Value Float)] :=
    List.forall_mem_cons.2 ⟨⟨.name "b", by decide, rfl⟩,
      List.forall_mem_singleton.2 ⟨.number 2, by decide, rfl⟩⟩
  have hlost : ¬ Event.mixedFrame.Covers [(.ofNat 1 : Value Float)] := by
    intro h
    obtain ⟨k, hk, hone⟩ := List.forall_mem_singleton.1 h
    obtain rfl : Hypothesis.number 1 = k := Option.some.inj hone
    exact absurd hk (by decide)
  obtain ⟨e, -, hmem, hfind⟩ := hcovered hcovers
  have halike (values : List (Value Float)) := Hypothesis.alike_refl values
  have hhypotheses : ∀ v ∈ [.text "b", (.ofNat 2 : Value Float)], v.IsHypothesis :=
    List.forall_mem_cons.2 ⟨trivial, List.forall_mem_singleton.2 trivial⟩
  obtain ⟨hlist, -⟩ := hfind _ (.list (halike _) hhypotheses)
  obtain ⟨hevent, -⟩ := hfind _ (.event (halike _) (g := shiftedFrame) rfl)
  obtain ⟨c, hc, hsingle, -⟩ := hmissed hlost _ (.single (halike _) trivial)
  obtain ⟨d, hd, hother, -⟩ := hmissed hlost _ (.event (halike _) (g := shiftedFrame) rfl)
  refine ⟨⟨e, fun k => ?_, hlist, hevent⟩, ⟨c, hc, hsingle⟩, d, hd, hother⟩
  rw [hmem]
  exact List.mem_pair

end MassFunction

end Evidence
