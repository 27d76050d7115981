import Mathlib
import Evidence.MassFunction.Belief
import Evidence.Proofs.Labels
import Evidence.Proofs.MaskAlgebra
import Evidence.Proofs.Rational

namespace Evidence

namespace Mask

theorem countP_range_eq {p : Nat → Bool} {m n : Nat} (hmn : m ≤ n) (h : ∀ i, m ≤ i → p i = false) :
    (List.range n).countP p = (List.range m).countP p := by
  obtain ⟨d, rfl⟩ := Nat.exists_eq_add_of_le hmn
  have hrest : ((List.range d).map (m + ·)).countP p = 0 := by
    rw [List.countP_eq_zero, List.forall_mem_map]
    intro i _
    simp [h (m + i) (Nat.le_add_right m i)]
  rw [List.range_add, List.countP_append, hrest, Nat.add_zero]

theorem card_eq_countP {m : Mask} {n : Nat} (h : m.within n = true) :
    m.card = (List.range n).countP m.has := by
  obtain ⟨b, hb, rfl⟩ := eq_finite_of_within h
  have hbits {k : Nat} (hk : b < 2 ^ k) : ∀ i, k ≤ i → b.testBit i = false := fun i hi =>
    Nat.testBit_lt_two_pow (hk.trans_le (Nat.pow_le_pow_right Nat.two_pos hi))
  change (List.range (b.log2 + 1)).countP b.testBit = (List.range n).countP b.testBit
  rcases Nat.le_total (b.log2 + 1) n with hle | hle
  · rw [countP_range_eq hle (hbits Nat.lt_log2_self)]
  · rw [countP_range_eq hle (hbits hb)]

end Mask

theorem Hypothesis.ofValue?_toValue (h : Hypothesis) : ofValue? (h.toValue : Value ℚ) = some h := by
  cases h with
  | number n =>
      have hnat : (Quantity.finite (n : ℚ)).toNat? = some n := toNat?_natCast n
      change Option.map _ (Quantity.finite (n : ℚ)).toNat? = _
      rw [hnat]
      rfl
  | name s => rfl

namespace Frame

variable (f : Frame)

def index (h : Hypothesis) : Nat := f.elements.idxOf h

def maskOf (hs : List Hypothesis) : Mask := Mask.join (hs.map fun h => .singleton (f.index h))

def masks : Finset Mask := (Finset.range (2 ^ f.size)).image .finite

variable {f}

theorem mem_masks {A : Mask} : A ∈ f.masks ↔ A.within f.size = true := by
  rw [masks, Finset.mem_image]
  constructor
  · rintro ⟨b, hb, rfl⟩
    rw [Finset.mem_range, ← Nat.one_shiftLeft] at hb
    exact decide_eq_true hb
  · intro hA
    obtain ⟨b, hb, rfl⟩ := Mask.eq_finite_of_within hA
    exact ⟨b, Finset.mem_range.2 hb, rfl⟩

theorem index_lt {h : Hypothesis} (hh : h ∈ f.elements) : f.index h < f.size :=
  List.idxOf_lt_length_of_mem hh

theorem index_inj {h k : Hypothesis} (hh : h ∈ f.elements) : f.index h = f.index k ↔ h = k :=
  List.idxOf_inj hh

theorem exists_index {i : Nat} (hi : i < f.size) : ∃ h ∈ f.elements, f.index h = i :=
  ⟨f.elements[i], List.getElem_mem hi, f.nodup_elements.idxOf_getElem i hi⟩

theorem mapIdx_elements {β : Type} {g : Nat → Hypothesis → β} :
    f.elements.mapIdx g = f.elements.map fun h => g (f.index h) h := by
  refine List.ext_getElem (by simp) fun i hi hi' => ?_
  rw [List.length_mapIdx] at hi
  have hindex : f.index f.elements[i] = i := f.nodup_elements.idxOf_getElem i hi
  rw [List.getElem_mapIdx, List.getElem_map, hindex]

theorem has_full_index {h : Hypothesis} (hh : h ∈ f.elements) : f.full.has (f.index h) = true := by
  change (Mask.full f.size).has (f.index h) = true
  rw [Mask.has_full, decide_eq_true (index_lt hh)]

theorem has_maskOf {hs : List Hypothesis} (hin : hs ⊆ f.elements) (h : Hypothesis) :
    (f.maskOf hs).has (f.index h) = decide (h ∈ hs) := by
  rw [maskOf, Mask.has_join, Bool.eq_iff_iff, List.any_eq_true, decide_eq_true_iff]
  constructor
  · rintro ⟨_, hmem, hi⟩
    obtain ⟨k, hk, rfl⟩ := List.mem_map.1 hmem
    obtain rfl : k = h := (index_inj (hin hk)).1 (by simpa using hi)
    exact hk
  · intro hh
    exact ⟨_, List.mem_map_of_mem hh, by simp⟩

theorem within_maskOf {hs : List Hypothesis} (hin : hs ⊆ f.elements) :
    (f.maskOf hs).within f.size = true :=
  Mask.within_join (List.forall_mem_map.2 fun _ hh => Mask.within_singleton (index_lt (hin hh)))

theorem maskOf_singleton (h : Hypothesis) : f.maskOf [h] = .singleton (f.index h) :=
  Mask.ext fun i => by simp [maskOf]

theorem mask_ext {A B : Mask} (hA : A.within f.size = true) (hB : B.within f.size = true)
    (h : ∀ k ∈ f.elements, A.has (f.index k) = B.has (f.index k)) : A = B := by
  apply Mask.ext
  intro i
  by_cases hi : i < f.size
  · obtain ⟨k, hk, rfl⟩ := exists_index hi
    exact h k hk
  · have hout {C : Mask} (hC : C.within f.size = true) : C.has i = false :=
      Bool.eq_false_iff.2 fun hhas => hi ((Mask.within_iff C _).1 hC i hhas)
    rw [hout hA, hout hB]

theorem positionOf?_toValue {h : Hypothesis} (hh : h ∈ f.elements) :
    f.positionOf? (h.toValue : Value ℚ) = some (f.index h) := by
  rw [positionOf?, Hypothesis.ofValue?_toValue]
  exact List.findIdx?_eq_some_iff_findIdx_eq.2 ⟨index_lt hh, rfl⟩

end Frame

namespace Event

theorem elements_eq_filter (e : Event) :
    e.elements = e.frame.elements.filter fun h => e.mask.has (e.frame.index h) := by
  have hplaced : e.placed =
      e.frame.elements.zipIdx.filter fun p => e.mask.has (e.frame.index p.1) := by
    apply List.filter_congr
    intro p hp
    obtain ⟨hi, hp⟩ := List.getElem?_eq_some_iff.1 (List.mk_mem_zipIdx_iff_getElem?.1 hp)
    rw [← hp, Frame.index, e.frame.nodup_elements.idxOf_getElem]
  change e.placed.map (·.1) = _
  rw [hplaced]
  conv_rhs => rw [← List.zipIdx_map_fst 0 e.frame.elements, List.filter_map]
  rfl

theorem mem_elements {e : Event} {h : Hypothesis} :
    h ∈ e.elements ↔ h ∈ e.frame.elements ∧ e.mask.has (e.frame.index h) = true := by
  rw [elements_eq_filter, List.mem_filter]

theorem elements_full (f : Frame) : (full f).elements = f.elements := by
  rw [elements_eq_filter]
  exact List.filter_eq_self.2 fun h hh => Frame.has_full_index hh

theorem elements_empty (f : Frame) : (empty f).elements = [] := by
  rw [elements_eq_filter, List.filter_eq_nil_iff]
  simp [empty]

theorem size_eq_length {e : Event} (hin : e.mask.within e.frame.size = true) :
    e.size = e.elements.length := by
  have hpositions : e.placed.map (·.2) = (List.range e.frame.size).filter e.mask.has := by
    have hrange : List.range e.frame.size = e.frame.elements.zipIdx.map (·.2) := by
      rw [List.zipIdx_map_snd, ← List.range_eq_range']
      rfl
    rw [hrange, List.filter_map]
    rfl
  have hlength := congrArg List.length hpositions
  rw [List.length_map, ← List.countP_eq_length_filter] at hlength
  rw [size, Mask.card_eq_countP hin, ← hlength, elements, List.length_map]
  rfl

theorem maskOf_elements {e : Event} (hin : e.mask.within e.frame.size = true) :
    e.frame.maskOf e.elements = e.mask := by
  have hsub : e.elements ⊆ e.frame.elements := fun h hh => (mem_elements.1 hh).1
  refine Frame.mask_ext (Frame.within_maskOf hsub) hin fun h hh => ?_
  rw [Frame.has_maskOf hsub, Bool.eq_iff_iff, decide_eq_true_iff, mem_elements]
  exact and_iff_right hh

/-- Values that can be shown can be looked up, whether they are found or not. -/
theorem misuse?_eq_none {α : Type} [Scalar α] {f : Frame} {values : List (Value α)}
    (h : ∀ v ∈ values, v.hasText = true ∧ v.hasJson = true) : misuse? f values = none := by
  induction values with
  | nil => rfl
  | cons v values ih =>
      obtain ⟨⟨htext, hjson⟩, hvalues⟩ := List.forall_mem_cons.1 h
      simp only [misuse?, htext, hjson, ih hvalues, Bool.not_true, Bool.false_eq_true, if_false,
        if_true, ite_self]

section Named

variable {f : Frame} {hs : List Hypothesis} (hin : hs ⊆ f.elements)
include hin

theorem ofValues_toValues :
    ofValues f (hs.map Hypothesis.toValue : List (Value ℚ)) = .ok ⟨f, f.maskOf hs⟩ := by
  unfold ofValues
  rw [List.foldlM_map,
    Outcome.foldlM_eq_foldl (g := fun mask h => mask.union (.singleton (f.index h)))]
  · rw [← List.foldl_map (f := fun h => Mask.singleton (f.index h)) (g := Mask.union)]
    rfl
  · intro h hh mask
    rw [Frame.positionOf?_toValue (hin hh)]

theorem find_toValues :
    find f (hs.map Hypothesis.toValue : List (Value ℚ)) = .ok ⟨f, f.maskOf hs⟩ := by
  have hshown : ∀ v ∈ (hs.map Hypothesis.toValue : List (Value ℚ)),
      v.hasText = true ∧ v.hasJson = true := by
    rw [List.forall_mem_map]
    rintro (n | s) _
    · exact ⟨rfl, rfl⟩
    · exact ⟨rfl, rfl⟩
  rw [find, misuse?_eq_none hshown, ofValues_toValues hin]
  rfl

end Named

end Event

namespace MassFunction

variable {m : MassFunction ℚ} {β : Type} (answer : Mask → β)

theorem ask_list {hs : List Hypothesis} (hin : hs ⊆ m.frame.elements) :
    m.ask (.list (hs.map Hypothesis.toValue)) answer = .ok (answer (m.frame.maskOf hs)) := by
  have hfind : (Designation.list (hs.map Hypothesis.toValue) : Designation ℚ).find m.frame =
      .ok ⟨m.frame, m.frame.maskOf hs⟩ := Event.find_toValues hin
  rw [ask, hfind]
  rfl

theorem ask_single {h : Hypothesis} (hh : h ∈ m.frame.elements) :
    m.ask (.single h.toValue) answer = .ok (answer (.singleton (m.frame.index h))) := by
  rw [← Frame.maskOf_singleton]
  exact ask_list answer (List.cons_subset.2 ⟨hh, List.nil_subset _⟩)

end MassFunction

end Evidence
