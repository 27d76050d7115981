import Mathlib
import Evidence.Event.Naming
import Evidence.Proofs.MaskAlgebra
import Evidence.Proofs.Outcome

namespace Evidence

namespace Text

theorem splitChars_of_not_mem {c : Char} {cs : List Char} (h : c ∉ cs) : splitChars c cs = [cs] := by
  induction cs with
  | nil => rfl
  | cons d ds ih =>
      rw [List.mem_cons, not_or] at h
      rw [splitChars, if_neg (Ne.symm h.1), ih h.2]

theorem splitChars_append {c : Char} {cs : List Char} (h : c ∉ cs) (ds : List Char) :
    splitChars c (cs ++ c :: ds) = cs :: splitChars c ds := by
  induction cs with
  | nil => exact if_pos rfl
  | cons d cs ih =>
      rw [List.mem_cons, not_or] at h
      rw [List.cons_append, splitChars, if_neg (Ne.symm h.1), ih h.2]

theorem split_of_not_mem {c : Char} {s : String} (h : c ∉ s.toList) : split c s = [s] := by
  rw [split, splitChars_of_not_mem h, List.map_singleton, String.ofList_toList]

theorem toList_join_cons (c : Char) (s t : String) (rest : List String) :
    (join (String.singleton c) (s :: t :: rest)).toList =
      s.toList ++ c :: (join (String.singleton c) (t :: rest)).toList := by
  simp [join]

theorem split_join {c : Char} {parts : List String} (hne : parts ≠ [])
    (h : ∀ s ∈ parts, c ∉ s.toList) : split c (join (String.singleton c) parts) = parts := by
  induction parts with
  | nil => exact absurd rfl hne
  | cons s parts ih =>
      obtain ⟨hs, hparts⟩ := List.forall_mem_cons.1 h
      cases parts with
      | nil => exact split_of_not_mem hs
      | cons t rest =>
          rw [split, toList_join_cons, splitChars_append hs, List.map_cons, String.ofList_toList]
          exact congrArg (s :: ·) (ih (List.cons_ne_nil _ _) hparts)

theorem dropWhile_eq_self_iff {cs : List Char} :
    cs.dropWhile isBlank = cs ↔ ∀ c ∈ cs.head?, isBlank c = false := by
  cases cs with
  | nil => simp
  | cons c cs =>
      cases hc : isBlank c with
      | false => simp [hc]
      | true =>
          rw [List.dropWhile_cons_of_pos hc]
          refine iff_of_false (fun h => ?_) (fun h => ?_)
          · have hle := (List.dropWhile_suffix isBlank (l := cs)).length_le
            rw [h, List.length_cons] at hle
            omega
          · exact absurd (h c rfl) (by simp [hc])

theorem trim_eq_self_iff {s : String} : trim s = s ↔
    (∀ c ∈ s.toList.head?, isBlank c = false) ∧ ∀ c ∈ s.toList.getLast?, isBlank c = false := by
  have hlist : trim s = s ↔ trimChars s.toList = s.toList := by
    rw [← String.toList_inj, trim, String.toList_ofList]
  rw [hlist, ← List.head?_reverse, ← dropWhile_eq_self_iff, ← dropWhile_eq_self_iff]
  generalize s.toList = cs
  constructor
  · intro h
    have hlength : cs.length ≤ (cs.dropWhile isBlank).length := by
      have hle := (List.dropWhile_suffix isBlank (l := (cs.dropWhile isBlank).reverse)).length_le
      rw [← List.length_reverse, ← trimChars, h, List.length_reverse] at hle
      exact hle
    have hdrop := (List.dropWhile_suffix isBlank).eq_of_length_le hlength
    rw [trimChars, hdrop] at h
    exact ⟨hdrop, List.reverse_eq_iff.1 h⟩
  · rintro ⟨hfront, hback⟩
    rw [trimChars, hfront, hback, List.reverse_reverse]

theorem trim_join {c : Char} {parts : List String} (h : ∀ s ∈ parts, s ≠ "" ∧ trim s = s) :
    trim (join (String.singleton c) parts) = join (String.singleton c) parts := by
  induction parts with
  | nil => rfl
  | cons s parts ih =>
      obtain ⟨⟨hs, htrim⟩, hparts⟩ := List.forall_mem_cons.1 h
      cases parts with
      | nil => exact htrim
      | cons t rest =>
          have hlist : s.toList ≠ [] := by simpa using hs
          have hjoined : (join (String.singleton c) (t :: rest)).toList ≠ [] := by
            have ht := (hparts t (List.mem_cons_self ..)).1
            cases rest with
            | nil => simpa [join] using ht
            | cons u rest => simp [toList_join_cons]
          rw [trim_eq_self_iff] at htrim ⊢
          have hrest := trim_eq_self_iff.1 (ih hparts)
          rw [toList_join_cons, List.head?_append_of_ne_nil _ hlist]
          refine ⟨htrim.1, ?_⟩
          rw [List.append_cons, List.getLast?_append_of_ne_nil _ hjoined]
          exact hrest.2

end Text

namespace Hypothesis

theorem isDigit_of_mem_text {n : Nat} {c : Char} (h : c ∈ (number n).text.toList) :
    c.isDigit = true := by
  change c ∈ (Nat.repr n).toList at h
  rw [Nat.toList_repr] at h
  exact Nat.isDigit_of_mem_toDigits (by norm_num) (by norm_num) h

theorem isBlank_of_isDigit {c : Char} (h : c.isDigit = true) : Text.isBlank c = false := by
  have hrange : 48 ≤ c.toNat ∧ c.toNat ≤ 57 := by
    simpa [Char.isDigit, UInt32.le_iff_toNat_le] using h
  simp only [Text.isBlank, Bool.or_eq_false_iff, Bool.and_eq_false_iff, decide_eq_false_iff_not,
    beq_eq_false_iff_ne]
  omega

theorem text_number_ne_empty (n : Nat) : (number n).text ≠ "" := by
  intro h
  have hlist : Nat.toDigits 10 n = [] := by
    rw [← Nat.toList_repr]
    exact congrArg String.toList h
  exact Nat.toDigits_ne_nil hlist

theorem Valid.text {h : Hypothesis} (hv : h.Valid) : IsTight h.text ∧ ¬ IsReserved h.text := by
  cases h with
  | name s => exact hv
  | number n =>
      have hblank : ∀ c ∈ (number n).text.toList, Text.isBlank c = false := fun c hc =>
        isBlank_of_isDigit (isDigit_of_mem_text hc)
      refine ⟨⟨text_number_ne_empty n, Text.trim_eq_self_iff.2 ⟨?_, ?_⟩⟩, ?_⟩
      · exact fun c hc => hblank c (List.mem_of_mem_head? hc)
      · exact fun c hc => hblank c (List.mem_of_mem_getLast? hc)
      · have hnot {s : String} (hs : s = (number n).text) {c : Char} (hc : c ∈ s.toList)
            (hd : c.isDigit = false) : False := by
          rw [isDigit_of_mem_text (hs ▸ hc)] at hd
          exact Bool.noConfusion hd
        rintro (hsep | hfull | hempty)
        · exact hnot rfl hsep (by decide)
        · exact hnot hfull.symm (c := 'Θ') (by decide) (by decide)
        · exact hnot hempty.symm (c := '∅') (by decide) (by decide)

end Hypothesis

namespace Frame

variable (f : Frame)

theorem nodup_elements : f.elements.Nodup := by
  apply f.sorted.imp
  rintro h _ hlt rfl
  exact Hypothesis.lt_irrefl h hlt

theorem nodup_texts : (f.elements.map (·.text)).Nodup :=
  f.nodup_elements.map_on fun h hh k hk => f.distinct h hh k hk

theorem positionOfText?_getElem {i : Nat} (hi : i < f.elements.length) :
    f.positionOfText? f.elements[i].text = some i := by
  rw [positionOfText?, List.findIdx?_eq_some_iff_getElem]
  refine ⟨hi, decide_eq_true rfl, fun j hj => ?_⟩
  have hne : f.elements[j] ≠ f.elements[i] := by
    rw [Ne, f.nodup_elements.getElem_inj_iff]
    exact hj.ne
  simpa using mt (f.distinct _ (List.getElem_mem _) _ (List.getElem_mem _)) hne

end Frame

namespace Event

def placed (e : Event) : List (Hypothesis × Nat) :=
  e.frame.elements.zipIdx.filter fun p => e.mask.has p.2

theorem mem_placed {e : Event} {p : Hypothesis × Nat} :
    p ∈ e.placed ↔ e.frame.elements[p.2]? = some p.1 ∧ e.mask.has p.2 = true := by
  rw [placed, List.mem_filter, List.mk_mem_zipIdx_iff_getElem?]

theorem texts_elements (e : Event) :
    e.elements.map (·.text) = e.placed.map fun p => p.1.text := by
  rw [elements, List.map_map]
  rfl

theorem valid_of_mem_elements {e : Event} {h : Hypothesis} (hh : h ∈ e.elements) : h.Valid := by
  obtain ⟨p, hp, rfl⟩ := List.mem_map.1 hh
  exact e.frame.valid _ (List.mem_of_getElem? (mem_placed.1 hp).1)

theorem trim_label (e : Event) : Text.trim e.label = e.label := by
  unfold label
  split_ifs
  · decide
  · decide
  · exact Text.trim_join (List.forall_mem_map.2 fun h hh => (valid_of_mem_elements hh).text.1)

section Inside

variable {e : Event} (hin : e.mask.within e.frame.size = true)
include hin

theorem elements_ne_nil (hne : e.mask ≠ .empty) : e.elements ≠ [] := by
  obtain ⟨i, hi⟩ := (Mask.ne_empty_iff _).1 hne
  have hlt := (Mask.within_iff _ _).1 hin i hi
  have hmem : (e.frame.elements[i], i) ∈ e.placed :=
    mem_placed.2 ⟨List.getElem?_eq_getElem hlt, hi⟩
  exact List.ne_nil_of_mem (List.mem_map_of_mem hmem)

theorem join_placed : Mask.join (e.placed.map fun p => .singleton p.2) = e.mask := by
  apply Mask.ext
  intro i
  rw [Mask.has_join, Bool.eq_iff_iff, List.any_eq_true]
  constructor
  · rintro ⟨_, hmem, hi⟩
    obtain ⟨p, hp, rfl⟩ := List.mem_map.1 hmem
    obtain rfl : p.2 = i := by simpa using hi
    exact (mem_placed.1 hp).2
  · intro hi
    have hlt := (Mask.within_iff _ _).1 hin i hi
    refine ⟨.singleton i, List.mem_map.2 ⟨(e.frame.elements[i], i), ?_, rfl⟩, by simp⟩
    exact mem_placed.2 ⟨List.getElem?_eq_getElem hlt, hi⟩

theorem foldlM_texts {ε : Type} {step : Mask → String → Except ε Mask}
    (found : ∀ mask s i, e.frame.positionOfText? s = some i →
      step mask s = .ok (mask.union (.singleton i))) :
    (e.elements.map (·.text)).foldlM step .empty = .ok e.mask := by
  rw [texts_elements, List.foldlM_map,
    Outcome.foldlM_eq_foldl (g := fun mask p => mask.union (.singleton p.2))]
  · rw [← List.foldl_map (f := fun p : Hypothesis × Nat => Mask.singleton p.2) (g := Mask.union)]
    exact congrArg Except.ok (join_placed hin)
  · intro p hp mask
    obtain ⟨hi, hp⟩ := List.getElem?_eq_some_iff.1 (mem_placed.1 hp).1
    rw [← hp]
    exact found mask _ _ (Frame.positionOfText?_getElem _ hi)

/-- The label of an event names that event. -/
theorem ofLabel_label {α : Type} : (ofLabel e.frame e.label : Except (Fault α) Event) = .ok e := by
  by_cases hempty : e.mask = .empty
  · have hlabel : e.label = Label.empty := by simp [label, isEmpty, hempty]
    rw [hlabel]
    exact congrArg (fun mask => Except.ok (Event.mk e.frame mask)) hempty.symm
  by_cases hfull : e.mask = e.frame.full
  · have hlabel : e.label = Label.ignorance := by
      simp [label, isEmpty, isFull, hfull, hfull ▸ hempty]
    rw [hlabel]
    exact congrArg (fun mask => Except.ok (Event.mk e.frame mask)) hfull.symm
  have hlabel : e.label =
      Text.join (String.singleton Label.separator) (e.elements.map (·.text)) := by
    simp [label, isEmpty, isFull, hempty, hfull]
  have htext : ∀ s ∈ e.elements.map (·.text), Hypothesis.IsTight s ∧ ¬ Hypothesis.IsReserved s :=
    List.forall_mem_map.2 fun h hh => (valid_of_mem_elements hh).text
  have hsplit : Text.split Label.separator e.label = e.elements.map (·.text) := by
    rw [hlabel]
    refine Text.split_join ?_ fun s hs hsep => (htext s hs).2 (.inl hsep)
    simpa using elements_ne_nil hin hempty
  -- A label that is no list of hypotheses would be split into itself.
  have hother {s : String} (hs : Label.separator ∉ s.toList)
      (hnot : ¬ (Hypothesis.IsTight s ∧ ¬ Hypothesis.IsReserved s)) : e.label ≠ s := by
    intro h
    rw [h, Text.split_of_not_mem hs] at hsplit
    exact hnot (htext s (hsplit ▸ List.mem_singleton_self s))
  have htokens : tokens e.label = e.elements.map (·.text) := by
    rw [tokens, e.trim_label, hsplit]
    exact (List.map_congr_left fun s hs => (htext s hs).1.2).trans (List.map_id _)
  have hspecial : ¬ (e.label = Label.empty ∨ e.label = "") :=
    not_or.2 ⟨hother (by decide) (by decide), hother (by decide) (by decide)⟩
  unfold ofLabel
  simp only [e.trim_label, htokens]
  rw [if_neg (hother (by decide) (by decide)), if_neg hspecial,
    foldlM_texts hin fun mask s i hi => by rw [hi]]
  rfl

theorem label_injective {d : Event} (hd : d.mask.within d.frame.size = true)
    (hframe : d.frame = e.frame) (h : d.label = e.label) : d = e := by
  have hlabel : (ofLabel d.frame d.label : Except (Fault Unit) Event) = .ok d := ofLabel_label hd
  rw [hframe, h, ofLabel_label hin] at hlabel
  exact (Except.ok.inj hlabel).symm

end Inside

theorem nodup_labels {f : Frame} {masks : List Mask} (hin : ∀ A ∈ masks, A.within f.size = true)
    (h : masks.Nodup) : (masks.map fun A => (Event.mk f A).label).Nodup :=
  h.map_on fun A hA B hB hlabel => congrArg mask
    (label_injective (e := ⟨f, B⟩) (hin B hB) (d := ⟨f, A⟩) (hin A hA) rfl hlabel)

end Event

end Evidence
