import Mathlib
import Evidence.Proofs.Gathering

namespace Evidence

namespace Hypothesis

theorem eq_of_sorted {hs ks : List Hypothesis} (hh : hs.Pairwise (· < ·))
    (hk : ks.Pairwise (· < ·)) (h : ∀ x, x ∈ hs ↔ x ∈ ks) : hs = ks := by
  have hnodup {ls : List Hypothesis} (hl : ls.Pairwise (· < ·)) : ls.Nodup := by
    apply hl.imp
    rintro x _ hlt rfl
    exact lt_irrefl x hlt
  have hperm := (List.perm_ext_iff_of_nodup (hnodup hh) (hnodup hk)).2 h
  refine hperm.eq_of_pairwise (fun x y _ _ hxy hyx => ?_) hh hk
  exact absurd (lt_trans hxy hyx) (lt_irrefl x)

variable {α : Type} [Scalar α]

def written (values : List (Value α)) : List Hypothesis := values.filterMap ofValue?

theorem mem_written {values : List (Value α)} {h : Hypothesis} :
    h ∈ written values ↔ ∃ v ∈ values, ofValue? v = some h := List.mem_filterMap

theorem written_cons {v : Value α} {h : Hypothesis} (hv : ofValue? v = some h)
    (values : List (Value α)) : written (v :: values) = h :: written values :=
  List.filterMap_cons_some hv

theorem ofValue?_of_check {v : Value α} {h : { h : Hypothesis // h.Valid }}
    (hc : check v = .ok h) : ofValue? v = some h.1 := by
  unfold check at hc
  split at hc
  · next x =>
    split at hc
    · next n hn =>
      split_ifs at hc
      obtain rfl := Except.ok.inj hc
      rw [ofValue?, hn]
      rfl
    · cases hc
  · split_ifs at hc
    obtain rfl := Except.ok.inj hc
    rfl
  · cases hc

theorem check_eq_ok {v : Value α} {h : Hypothesis} (hv : ofValue? v = some h) (valid : h.Valid) :
    check v = .ok ⟨h, valid⟩ := by
  cases v with
  | number x =>
      obtain ⟨n, hn, rfl⟩ := Option.map_eq_some_iff.1 hv
      simp only [check, hn]
      exact dif_pos valid
  | text s =>
      obtain rfl := Option.some.inj hv
      exact (dif_pos valid.1).trans (dif_neg valid.2)
  | _ => cases hv

theorem code_of_check {v : Value α} {e : Fault α} (h : check v = .error e) :
    e.code = .invalidFocalSet := by
  unfold check at h
  split at h
  · split at h
    · split_ifs at h
      obtain rfl := Except.error.inj h
      rfl
    · obtain rfl := Except.error.inj h
      rfl
  · split_ifs at h
    · obtain rfl := Except.error.inj h
      rfl
    · obtain rfl := Except.error.inj h
      rfl
  · obtain rfl := Except.error.inj h
    rfl

end Hypothesis

namespace Roster

variable {α : Type} [Scalar α] {r s : Roster} {v : Value α}

theorem insert_eq_ok (h : r.insert v = .ok s) : ∃ k : Hypothesis, Hypothesis.ofValue? v = some k ∧
    k.Valid ∧ ∀ x, x ∈ s.elements ↔ x = k ∨ x ∈ r.elements := by
  obtain ⟨⟨k, valid⟩, hcheck, h⟩ := Outcome.bind_eq_ok h
  refine ⟨k, Hypothesis.ofValue?_of_check hcheck, valid, fun x => ?_⟩
  dsimp only at h
  split at h
  · next l found =>
    split_ifs at h with hlk
    obtain rfl := Except.ok.inj h
    have hl : l ∈ r.elements := List.mem_of_find?_eq_some found
    refine ⟨.inr, ?_⟩
    rintro (rfl | hx)
    · exact hlk ▸ hl
    · exact hx
  · obtain rfl := Except.ok.inj h
    exact mem_place

theorem exists_insert {k : Hypothesis} (hv : Hypothesis.ofValue? v = some k) (valid : k.Valid)
    (fresh : ∀ l ∈ r.elements, l.text = k.text → l = k) : ∃ s, r.insert v = .ok s := by
  unfold insert
  rw [Hypothesis.check_eq_ok hv valid]
  dsimp only [bind, Except.bind]
  split
  · next l found =>
    have htext : l.text = k.text := by simpa using List.find?_some found
    exact ⟨r, if_pos (fresh l (List.mem_of_find?_eq_some found) htext)⟩
  · exact ⟨_, rfl⟩

theorem code_of_insert {e : Fault α} (h : r.insert v = .error e) : e.code = .invalidFocalSet := by
  rcases Outcome.bind_eq_error h with h | ⟨⟨k, valid⟩, -, h⟩
  · exact Hypothesis.code_of_check h
  · dsimp only at h
    split at h
    · split_ifs at h
      obtain rfl := Except.error.inj h
      rfl
    · cases h

theorem foldlM_insert_eq_ok {values : List (Value α)} (h : values.foldlM insert r = .ok s) :
    (∀ v ∈ values, ∃ k : Hypothesis, Hypothesis.ofValue? v = some k ∧ k.Valid) ∧
      ∀ x, x ∈ s.elements ↔ x ∈ r.elements ∨ x ∈ Hypothesis.written values := by
  induction values generalizing r with
  | nil =>
      obtain rfl := Except.ok.inj h
      simp [Hypothesis.written]
  | cons v values ih =>
      rw [List.foldlM_cons] at h
      obtain ⟨t, ht, h⟩ := Outcome.bind_eq_ok h
      obtain ⟨k, hk, valid, hmem⟩ := insert_eq_ok ht
      obtain ⟨hvalues, hrest⟩ := ih h
      refine ⟨List.forall_mem_cons.2 ⟨⟨k, hk, valid⟩, hvalues⟩, fun x => ?_⟩
      rw [hrest, hmem, Hypothesis.written_cons hk, List.mem_cons]
      tauto

/-- A roster takes in any valid hypotheses that can be told by their texts from each other and from
those that it has. -/
theorem exists_foldlM_insert {values : List (Value α)}
    (valid : ∀ v ∈ values, ∃ k : Hypothesis, Hypothesis.ofValue? v = some k ∧ k.Valid)
    (distinct : ∀ h k, h ∈ r.elements ∨ h ∈ Hypothesis.written values →
      k ∈ r.elements ∨ k ∈ Hypothesis.written values → h.text = k.text → h = k) :
    ∃ s, values.foldlM insert r = .ok s := by
  -- The roster is generalised: what it took in belongs to what the other values must be told from.
  induction values generalizing r with
  | nil => exact ⟨r, rfl⟩
  | cons v values ih =>
      obtain ⟨⟨k, hk, hvalid⟩, hvalues⟩ := List.forall_mem_cons.1 valid
      rw [Hypothesis.written_cons hk] at distinct
      obtain ⟨s, hs⟩ := exists_insert hk hvalid fun l hl htext =>
        distinct l k (.inl hl) (.inr (List.mem_cons_self ..)) htext
      obtain ⟨k', hk', -, hmem⟩ := insert_eq_ok hs
      obtain rfl := Option.some.inj (hk.symm.trans hk')
      obtain ⟨t, ht⟩ := ih hvalues fun h l hh hl => by
        rw [hmem] at hh hl
        refine distinct h l ?_ ?_
        · rw [List.mem_cons]
          tauto
        · rw [List.mem_cons]
          tauto
      refine ⟨t, ?_⟩
      rw [List.foldlM_cons, hs]
      exact ht

theorem code_of_foldlM_insert {values : List (Value α)} {e : Fault α}
    (h : values.foldlM insert r = .error e) : e.code = .invalidFocalSet := by
  obtain ⟨s, v, -, h⟩ := Outcome.exists_of_foldlM_eq_error h
  exact code_of_insert h

end Roster

namespace Frame

theorem eq_iff_mem {f g : Frame} : f = g ↔ ∀ h, h ∈ f.elements ↔ h ∈ g.elements :=
  ⟨fun h _ => h ▸ Iff.rfl, fun h => ext (Hypothesis.eq_of_sorted f.sorted g.sorted h)⟩

variable {α : Type} [Scalar α] {values others : List (Value α)}

theorem mem_of_ofValues {f : Frame} (h : ofValues values = .ok f) (k : Hypothesis) :
    k ∈ f.elements ↔ k ∈ Hypothesis.written values := by
  obtain ⟨r, hr, h⟩ := Outcome.bind_eq_ok h
  split_ifs at h
  obtain rfl := Except.ok.inj h
  simpa [Roster.nil] using (Roster.foldlM_insert_eq_ok hr).2 k

/-- Values make a frame just when there are any, each of them writes a valid hypothesis, and no two
different ones have the same text. -/
theorem exists_ofValues_iff : (∃ f, ofValues values = .ok f) ↔ values ≠ [] ∧
    (∀ v ∈ values, ∃ h : Hypothesis, Hypothesis.ofValue? v = some h ∧ h.Valid) ∧
    ∀ h ∈ Hypothesis.written values, ∀ k ∈ Hypothesis.written values, h.text = k.text → h = k := by
  constructor
  · rintro ⟨f, hf⟩
    obtain ⟨r, hr, hne⟩ := Outcome.bind_eq_ok hf
    refine ⟨?_, (Roster.foldlM_insert_eq_ok hr).1, fun h hh k hk => ?_⟩
    · rintro rfl
      obtain rfl := Except.ok.inj hr
      cases hne
    · exact f.distinct h ((mem_of_ofValues hf h).2 hh) k ((mem_of_ofValues hf k).2 hk)
  · rintro ⟨hne, valid, distinct⟩
    obtain ⟨r, hr⟩ := Roster.exists_foldlM_insert (r := .nil) valid fun h k hh hk =>
      distinct h (by simpa [Roster.nil] using hh) k (by simpa [Roster.nil] using hk)
    obtain ⟨v, values, rfl⟩ := List.exists_cons_of_ne_nil hne
    obtain ⟨h, hv, -⟩ := valid v (List.mem_cons_self ..)
    have hmem : h ∈ r.elements := ((Roster.foldlM_insert_eq_ok hr).2 h).2
      (.inr (Hypothesis.mem_written.2 ⟨v, List.mem_cons_self .., hv⟩))
    unfold ofValues
    rw [hr]
    exact ⟨_, dif_pos (List.ne_nil_of_mem hmem)⟩

theorem code_of_ofValues {e : Fault α} (h : ofValues values = .error e) :
    e.code = .invalidFocalSet := by
  rcases Outcome.bind_eq_error h with h | ⟨r, -, h⟩
  · exact Roster.code_of_foldlM_insert h
  · split_ifs at h
    obtain rfl := Except.error.inj h
    rfl

/-- Frames of values that write the same hypotheses are made alike. A value that writes none is
counted with the others. -/
theorem ofValues_of_same
    (h : ∀ o, o ∈ values.map Hypothesis.ofValue? ↔ o ∈ others.map Hypothesis.ofValue?) {f : Frame}
    (hf : ofValues values = .ok f) : ofValues others = .ok f := by
  have hwritten (k : Hypothesis) :
      k ∈ Hypothesis.written values ↔ k ∈ Hypothesis.written others := by
    rw [Hypothesis.mem_written, Hypothesis.mem_written, ← List.mem_map, h, List.mem_map]
  obtain ⟨hne, valid, distinct⟩ := exists_ofValues_iff.1 ⟨f, hf⟩
  obtain ⟨g, hg⟩ : ∃ g, ofValues others = .ok g := by
    refine exists_ofValues_iff.2 ⟨?_, fun w hw => ?_, ?_⟩
    · rintro rfl
      obtain ⟨v, values, rfl⟩ := List.exists_cons_of_ne_nil hne
      simpa using h (Hypothesis.ofValue? v)
    · obtain ⟨v, hv, hvw⟩ := List.mem_map.1 ((h _).2 (List.mem_map_of_mem hw))
      exact hvw ▸ valid v hv
    · simpa only [hwritten] using distinct
  obtain rfl : f = g := eq_iff_mem.2 fun k => by
    rw [mem_of_ofValues hf, mem_of_ofValues hg, hwritten]
  exact hg

theorem ofValue_toValues (f : Frame) : ofValue (.list f.toValues : Value ℚ) = .ok f := by
  have hwritten : Hypothesis.written (f.toValues : List (Value ℚ)) = f.elements := by
    rw [Hypothesis.written, toValues, List.filterMap_map]
    simp [Hypothesis.ofValue?_toValue]
  obtain ⟨g, hg⟩ : ∃ g, ofValues (f.toValues : List (Value ℚ)) = .ok g := by
    refine exists_ofValues_iff.2 ⟨mt List.map_eq_nil_iff.1 f.nonempty, fun v hv => ?_, ?_⟩
    · obtain ⟨h, hh, rfl⟩ := List.mem_map.1 hv
      exact ⟨h, h.ofValue?_toValue, f.valid h hh⟩
    · rw [hwritten]
      exact f.distinct
  obtain rfl : f = g := eq_iff_mem.2 fun h => by rw [mem_of_ofValues hg, hwritten]
  exact congrArg Failure.ofFault hg

end Frame

namespace Event

variable {α : Type} [Scalar α] {f : Frame} {values : List (Value α)} {i : Nat} {k : Hypothesis}

theorem has_ofValues {e : Event} (h : ofValues f values = .ok e) (hk : f.elements[i]? = some k) :
    e.mask.has i = true ↔ k ∈ Hypothesis.written values := by
  have hk' : k ∈ f.elements := List.mem_of_getElem? hk
  have hindex : f.index k = i := by
    obtain ⟨hi, rfl⟩ := List.getElem?_eq_some_iff.1 hk
    exact f.nodup_elements.idxOf_getElem i hi
  have hgathered := h ▸ gathered_ofValues f values
  cases hgathered with
  | complete frame inside found mem =>
      have hmem := mem k
      rw [mem_elements, frame, hindex, and_iff_right hk', and_iff_right hk'] at hmem
      rw [hmem, Hypothesis.mem_written]

theorem mask_ofValues {e : Event} (h : ofValues f values = .ok e) :
    Hypothesis.written values ⊆ f.elements ∧ e.mask = f.maskOf (Hypothesis.written values) := by
  have hhas := fun (i : Nat) (k : Hypothesis) => has_ofValues (i := i) (k := k) h
  have hgathered := h ▸ gathered_ofValues f values
  cases hgathered with
  | complete frame inside found mem =>
      have hsub : Hypothesis.written values ⊆ f.elements := fun k hk => by
        obtain ⟨v, hv, hvk⟩ := Hypothesis.mem_written.1 hk
        obtain ⟨l, hl, hvl⟩ := found v hv
        obtain rfl := Option.some.inj (hvk.symm.trans hvl)
        exact hl
      refine ⟨hsub, Frame.mask_ext inside (Frame.within_maskOf hsub) fun k hk => ?_⟩
      rw [Frame.has_maskOf hsub, Bool.eq_iff_iff, decide_eq_true_iff]
      exact hhas _ k (List.getElem?_idxOf hk)

end Event

namespace Frame

variable {α : Type} [Scalar α]

/-- A list of values makes a frame just when it is not empty, each value writes a valid hypothesis
and no two different hypotheses have the same text, and it fails for an invalid set otherwise. The
frame has the hypotheses that were written, each of them once and in canonical order; a mask over it
has the positions of what it was made from. Lists that write the same hypotheses fail alike or make
the same frame, and frames are equal when they have the same hypotheses. -/
theorem ofValues_canonical (values : List (Value α)) :
    ((∃ f, ofValues values = .ok f) ↔ values ≠ [] ∧
        (∀ v ∈ values, ∃ h : Hypothesis, Hypothesis.ofValue? v = some h ∧ h.Valid) ∧
        ∀ h ∈ Hypothesis.written values, ∀ k ∈ Hypothesis.written values,
          h.text = k.text → h = k) ∧
      (∀ fault, ofValues values = .error fault → fault.code = .invalidFocalSet) ∧
      (∀ f, ofValues values = .ok f →
        f.elements.Pairwise (· < ·) ∧
        (∀ h, h ∈ f.elements ↔ h ∈ Hypothesis.written values) ∧
        ∀ (named : List (Value α)) e, Event.ofValues f named = .ok e →
          ∀ i h, f.elements[i]? = some h →
            (e.mask.has i = true ↔ h ∈ Hypothesis.written named)) ∧
      (∀ others : List (Value α),
        (∀ o, o ∈ values.map Hypothesis.ofValue? ↔ o ∈ others.map Hypothesis.ofValue?) →
        ((∃ fault, ofValues values = .error fault) ∧ ∃ fault, ofValues others = .error fault) ∨
        ∃ f g, ofValues values = .ok f ∧ ofValues others = .ok g ∧ f = g ∧
          ∀ named : List (Value α), Event.ofValues f named = Event.ofValues g named) ∧
      ∀ f g : Frame, f = g ↔ ∀ h, h ∈ f.elements ↔ h ∈ g.elements := by
  refine ⟨exists_ofValues_iff, fun fault => code_of_ofValues, fun f hf => ?_, fun others h => ?_,
    fun f g => eq_iff_mem⟩
  · exact ⟨f.sorted, mem_of_ofValues hf, fun named e he i h hi => Event.has_ofValues he hi⟩
  · cases hvalues : ofValues values with
    | ok f => exact .inr ⟨f, f, rfl, ofValues_of_same h hvalues, rfl, fun _ => rfl⟩
    | error fault =>
        cases hothers : ofValues others with
        | ok f => cases hvalues.symm.trans (ofValues_of_same (fun o => (h o).symm) hothers)
        | error fault' => exact .inl ⟨⟨fault, rfl⟩, fault', rfl⟩

/-- Numbers and names without order, some of them twice. The last name comes after the one before it
by units, and before it by code points. -/
def scattered : List (Value Float) :=
  [.text "b", .ofNat 10, .text "b", .text "～", .text "😀", .ofNat 2, .ofNat 10]

theorem ofValues_scattered : ∃ f, ofValues scattered = .ok f ∧
    f.elements = [.number 2, .number 10, .name "b", .name "😀", .name "～"] := by
  have hwritten : Hypothesis.written scattered = [.name "b", .number 10, .name "b", .name "～",
      .name "😀", .number 2, .number 10] := rfl
  have hvalues : scattered.map Hypothesis.ofValue? = (Hypothesis.written scattered).map some := rfl
  have hvalid : ∀ h ∈ Hypothesis.written scattered, h.Valid := by
    rw [hwritten]
    decide
  obtain ⟨hmade, -, hcanonical, -⟩ := ofValues_canonical scattered
  obtain ⟨f, hf⟩ := hmade.2 ⟨List.cons_ne_nil _ _, fun v hv => by
    obtain ⟨h, hh, hvh⟩ := List.mem_map.1 (hvalues ▸ List.mem_map_of_mem hv)
    exact ⟨h, hvh.symm, hvalid h hh⟩, by rw [hwritten]; decide⟩
  obtain ⟨hsorted, hmem, -⟩ := hcanonical f hf
  refine ⟨f, hf, Hypothesis.eq_of_sorted hsorted (by decide) fun h => ?_⟩
  rw [hmem, hwritten]
  simp only [List.mem_cons, List.not_mem_nil, or_false]
  tauto

end Frame

end Evidence
