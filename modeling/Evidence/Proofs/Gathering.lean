import Mathlib
import Evidence.Proofs.Naming

namespace Evidence

variable {ι ε : Type}

namespace Mask

def mark (position : ι → Option Nat) (missing : ι → ε) (m : Mask) (x : ι) : Except ε Mask :=
  match position x with
  | some i => .ok (m.union (.singleton i))
  | none => .error (missing x)

variable {position : ι → Option Nat} {missing : ι → ε} {m : Mask} {xs : List ι}

inductive Gathered (position : ι → Option Nat) (missing : ι → ε) (m : Mask) (xs : List ι) :
    Except ε Mask → Prop
  | complete {mask : Mask} (found : ∀ x ∈ xs, ∃ i, position x = some i)
      (has : ∀ i, mask.has i = true ↔ m.has i = true ∨ ∃ x ∈ xs, position x = some i) :
      Gathered position missing m xs (.ok mask)
  | stopped {before : List ι} {x : ι} {after : List ι} (split : xs = before ++ x :: after)
      (found : ∀ y ∈ before, ∃ i, position y = some i) (lost : position x = none) :
      Gathered position missing m xs (.error (missing x))

theorem Gathered.cons {x : ι} {i : Nat} (hx : position x = some i) {r : Except ε Mask}
    (h : Gathered position missing (m.union (.singleton i)) xs r) :
    Gathered position missing m (x :: xs) r := by
  have hfound : ∃ i, position x = some i := ⟨i, hx⟩
  cases h with
  | complete found has =>
      refine .complete (List.forall_mem_cons.2 ⟨hfound, found⟩) fun j => ?_
      rw [has, has_union, has_singleton, Bool.or_eq_true, decide_eq_true_iff, or_assoc]
      simp only [List.mem_cons, exists_eq_or_imp, hx, Option.some_inj]
  | stopped split found lost =>
      exact .stopped (congrArg (x :: ·) split) (List.forall_mem_cons.2 ⟨hfound, found⟩) lost

theorem gathered_foldlM (position : ι → Option Nat) (missing : ι → ε) (m : Mask) (xs : List ι) :
    Gathered position missing m xs (xs.foldlM (mark position missing) m) := by
  induction xs generalizing m with
  | nil => exact .complete (by simp) (by simp)
  | cons x xs ih =>
      rw [List.foldlM_cons, mark]
      cases hx : position x with
      | some i => exact .cons hx (ih _)
      | none =>
          have hsplit : x :: xs = [] ++ x :: xs := rfl
          exact .stopped hsplit (by simp) hx

end Mask

namespace Event

variable {f : Frame} {stands : ι → Hypothesis → Prop} {position : ι → Option Nat}

inductive Gathered (f : Frame) (stands : ι → Hypothesis → Prop) (missing : ι → ε) (xs : List ι) :
    Except ε Event → Prop
  | complete {e : Event} (frame : e.frame = f) (inside : e.mask.within f.size = true)
      (found : ∀ x ∈ xs, ∃ h ∈ f.elements, stands x h)
      (mem : ∀ h, h ∈ e.elements ↔ h ∈ f.elements ∧ ∃ x ∈ xs, stands x h) :
      Gathered f stands missing xs (.ok e)
  | stopped {before : List ι} {x : ι} {after : List ι} (split : xs = before ++ x :: after)
      (found : ∀ y ∈ before, ∃ h ∈ f.elements, stands y h)
      (lost : ∀ h ∈ f.elements, ¬ stands x h) :
      Gathered f stands missing xs (.error (missing x))

theorem Gathered.within {missing : ι → ε} {xs : List ι} {e : Event}
    (h : Gathered f stands missing xs (.ok e)) : e.frame = f ∧ e.mask.within f.size = true := by
  cases h with
  | complete frame inside => exact ⟨frame, inside⟩

theorem gathered_of_positions
    (hposition : ∀ x i, position x = some i ↔ ∃ h, f.elements[i]? = some h ∧ stands x h)
    (missing : ι → ε) (xs : List ι) : Gathered f stands missing xs
      ((xs.foldlM (Mask.mark position missing) .empty).bind fun mask => .ok ⟨f, mask⟩) := by
  have hfound {x : ι} (hx : ∃ i, position x = some i) : ∃ h ∈ f.elements, stands x h := by
    obtain ⟨i, hi⟩ := hx
    obtain ⟨h, hh, hs⟩ := (hposition x i).1 hi
    exact ⟨h, List.mem_of_getElem? hh, hs⟩
  have hindex {x : ι} {h : Hypothesis} (hh : h ∈ f.elements) :
      position x = some (f.index h) ↔ stands x h := by
    have hat : f.elements[f.index h]? = some h := List.getElem?_idxOf hh
    rw [hposition]
    constructor
    · rintro ⟨k, hk, hs⟩
      obtain rfl := Option.some.inj (hat.symm.trans hk)
      exact hs
    · exact fun hs => ⟨h, hat, hs⟩
  have hgathered := Mask.gathered_foldlM position missing .empty xs
  generalize xs.foldlM (Mask.mark position missing) .empty = r at hgathered ⊢
  cases hgathered with
  | complete found has =>
      refine .complete rfl ?_ (fun x hx => hfound (found x hx)) fun h => ?_
      · rw [Mask.within_iff]
        intro i hi
        rw [has, Mask.has_empty] at hi
        obtain ⟨x, -, hx⟩ := hi.resolve_left Bool.false_ne_true
        obtain ⟨h, hh, -⟩ := (hposition x i).1 hx
        exact (List.getElem?_eq_some_iff.1 hh).1
      · rw [mem_elements]
        refine and_congr_right fun hh => ?_
        rw [has, Mask.has_empty]
        simp [hindex hh]
  | @stopped before x after split found lost =>
      refine .stopped split (fun y hy => hfound (found y hy)) fun h hh hs => ?_
      cases lost.symm.trans ((hindex hh).2 hs)

end Event

namespace Frame

variable {α : Type} [Scalar α] {f : Frame} {i : Nat}

theorem positionOf?_eq_some_iff {v : Value α} : f.positionOf? v = some i ↔
    ∃ h, f.elements[i]? = some h ∧ Hypothesis.ofValue? v = some h := by
  rw [positionOf?, Option.bind_eq_some_iff]
  refine exists_congr fun k => and_comm.trans (and_congr_left fun _ => ?_)
  constructor
  · intro h
    obtain ⟨hi, hk, -⟩ := List.idxOf?_eq_some_iff.1 h
    exact List.getElem?_eq_some_iff.2 ⟨hi, by simpa using hk⟩
  · intro h
    obtain ⟨hi, rfl⟩ := List.getElem?_eq_some_iff.1 h
    refine List.idxOf?_eq_some_iff.2 ⟨hi, by simp, fun j hj => ?_⟩
    simpa using fun heq => hj.ne (f.nodup_elements.getElem_inj_iff.1 heq)

omit [Scalar α] in
theorem positionOfText?_eq_some_iff {s : String} : f.positionOfText? s = some i ↔
    ∃ h, f.elements[i]? = some h ∧ h.text = s := by
  constructor
  · intro h
    obtain ⟨hi, htext, -⟩ := List.findIdx?_eq_some_iff_getElem.1 h
    exact ⟨f.elements[i], List.getElem?_eq_getElem hi, of_decide_eq_true htext⟩
  · rintro ⟨h, hh, rfl⟩
    obtain ⟨hi, rfl⟩ := List.getElem?_eq_some_iff.1 hh
    exact f.positionOfText?_getElem hi

end Frame

namespace Event

theorem gathered_ofValues {α : Type} [Scalar α] (f : Frame) (values : List (Value α)) :
    Gathered f (fun v h => Hypothesis.ofValue? v = some h) (fun v => Fault.outsideFrame v f) values
      (ofValues f values) :=
  gathered_of_positions (fun _ _ => Frame.positionOf?_eq_some_iff) _ values

theorem gathered_ofLabel {α : Type} {f : Frame} {label : String}
    (hfull : Text.trim label ≠ Label.ignorance)
    (hempty : ¬ (Text.trim label = Label.empty ∨ Text.trim label = "")) :
    Gathered f (fun token h => h.text = token)
      (fun token => (Fault.unknownToken label token f : Fault α)) (tokens label)
      (ofLabel f label) := by
  have hlabel : ofLabel f label = ((tokens label).foldlM (Mask.mark f.positionOfText?
      fun token => (Fault.unknownToken label token f : Fault α)) .empty).bind
        fun mask => .ok ⟨f, mask⟩ := by
    unfold ofLabel
    exact (if_neg hfull).trans (if_neg hempty)
  rw [hlabel]
  exact gathered_of_positions (fun _ _ => Frame.positionOfText?_eq_some_iff) _ _

end Event

end Evidence
