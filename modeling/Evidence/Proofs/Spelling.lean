import Mathlib
import Evidence.Proofs.Gathering

namespace Evidence

namespace Text

theorem trimChars_blanks_append {bs : List Char} (hbs : ∀ c ∈ bs, isBlank c = true)
    (cs : List Char) : trimChars (bs ++ cs) = trimChars cs := by
  rw [trimChars, List.dropWhile_append_of_pos hbs, trimChars]

theorem trimChars_append_blanks {bs : List Char} (hbs : ∀ c ∈ bs, isBlank c = true)
    (cs : List Char) : trimChars (cs ++ bs) = trimChars cs := by
  have hback : ∀ c ∈ bs.reverse, isBlank c = true := fun c hc => hbs c (List.mem_reverse.1 hc)
  rw [trimChars, List.dropWhile_append, trimChars]
  split_ifs with hempty
  · rw [List.isEmpty_iff.1 hempty, List.dropWhile_eq_nil_iff.2 hbs]
  · rw [List.reverse_append, List.dropWhile_append_of_pos hback]

theorem exists_blanks (cs : List Char) : ∃ front back, cs = front ++ trimChars cs ++ back ∧
    (∀ c ∈ front, isBlank c = true) ∧ ∀ c ∈ back, isBlank c = true := by
  refine ⟨cs.takeWhile isBlank, ((cs.dropWhile isBlank).reverse.takeWhile isBlank).reverse, ?_,
    fun c hc => List.mem_takeWhile_imp hc,
    fun c hc => List.mem_takeWhile_imp (List.mem_reverse.1 hc)⟩
  rw [List.append_assoc, trimChars, ← List.reverse_append, List.takeWhile_append_dropWhile,
    List.reverse_reverse, List.takeWhile_append_dropWhile]

variable {c : Char}

theorem splitChars_ne_nil (c : Char) (cs : List Char) : splitChars c cs ≠ [] := by
  cases cs with
  | nil => exact List.cons_ne_nil _ _
  | cons d ds =>
      rw [splitChars]
      split_ifs
      · exact List.cons_ne_nil _ _
      · split <;> exact List.cons_ne_nil _ _

theorem exists_splitChars_cons {d : Char} (hd : d ≠ c) (ds : List Char) : ∃ part parts,
    splitChars c ds = part :: parts ∧ splitChars c (d :: ds) = (d :: part) :: parts := by
  obtain ⟨part, parts, hparts⟩ := List.exists_cons_of_ne_nil (splitChars_ne_nil c ds)
  refine ⟨part, parts, hparts, ?_⟩
  rw [splitChars, if_neg hd, hparts]

theorem exists_splitChars_append {bs : List Char} (hbs : c ∉ bs) (cs : List Char) :
    ∃ parts part, splitChars c cs = parts ++ [part] ∧
      splitChars c (cs ++ bs) = parts ++ [part ++ bs] := by
  induction cs with
  | nil => exact ⟨[], [], rfl, splitChars_of_not_mem hbs⟩
  | cons d ds ih =>
      obtain ⟨parts, part, hparts, happend⟩ := ih
      by_cases hd : d = c
      · refine ⟨[] :: parts, part, ?_, ?_⟩
        · rw [splitChars, if_pos hd, hparts, List.cons_append]
        · rw [List.cons_append, splitChars, if_pos hd, happend, List.cons_append]
      · rw [List.cons_append, splitChars, if_neg hd, splitChars, if_neg hd, hparts, happend]
        cases parts with
        | nil => exact ⟨[], d :: part, rfl, rfl⟩
        | cons first parts => exact ⟨(d :: first) :: parts, part, rfl, rfl⟩

variable (hc : isBlank c = false)
include hc

theorem ne_of_isBlank {d : Char} (hd : isBlank d = true) : d ≠ c := by
  rintro rfl
  exact Bool.false_ne_true (hc.symm.trans hd)

theorem map_trimChars_blanks_append {bs : List Char} (hbs : ∀ d ∈ bs, isBlank d = true)
    (cs : List Char) :
    (splitChars c (bs ++ cs)).map trimChars = (splitChars c cs).map trimChars := by
  induction bs with
  | nil => rfl
  | cons b bs ih =>
      obtain ⟨hb, hbs⟩ := List.forall_mem_cons.1 hbs
      obtain ⟨part, parts, hparts, hcons⟩ :=
        exists_splitChars_cons (ne_of_isBlank hc hb) (bs ++ cs)
      have hpart : trimChars (b :: part) = trimChars part :=
        trimChars_blanks_append (List.forall_mem_singleton.2 hb) part
      rw [← ih hbs, List.cons_append, hcons, hparts, List.map_cons, List.map_cons, hpart]

theorem map_trimChars_append_blanks {bs : List Char} (hbs : ∀ d ∈ bs, isBlank d = true)
    (cs : List Char) :
    (splitChars c (cs ++ bs)).map trimChars = (splitChars c cs).map trimChars := by
  have hmem : c ∉ bs := fun hmem => ne_of_isBlank hc (hbs c hmem) rfl
  obtain ⟨parts, part, hparts, happend⟩ := exists_splitChars_append hmem cs
  rw [happend, hparts, List.map_append, List.map_append, List.map_singleton, List.map_singleton,
    trimChars_append_blanks hbs]

theorem map_trim_split_trim (s : String) :
    (split c (trim s)).map trim = (split c s).map trim := by
  have hchars (t : String) :
      (split c t).map trim = ((splitChars c t.toList).map trimChars).map String.ofList := by
    rw [split, List.map_map, List.map_map]
    exact List.map_congr_left fun part _ => by simp [trim]
  obtain ⟨front, back, hsplit, hfront, hback⟩ := exists_blanks s.toList
  rw [hchars, hchars, trim, String.toList_ofList]
  conv_rhs => rw [hsplit]
  rw [map_trimChars_append_blanks hc hback, map_trimChars_blanks_append hc hfront]

end Text

theorem Frame.exists_texts (f : Frame) {texts : List String}
    (h : ∀ s ∈ texts, ∃ k ∈ f.elements, k.text = s) :
    ∃ hs ⊆ f.elements, hs.map (·.text) = texts := by
  induction texts with
  | nil => exact ⟨[], List.nil_subset _, rfl⟩
  | cons s texts ih =>
      obtain ⟨⟨k, hk, rfl⟩, htexts⟩ := List.forall_mem_cons.1 h
      obtain ⟨hs, hin, rfl⟩ := ih htexts
      exact ⟨k :: hs, List.cons_subset.2 ⟨hk, hin⟩, rfl⟩

namespace Event

theorem tokens_eq (label : String) :
    tokens label = (Text.split Label.separator label).map Text.trim :=
  Text.map_trim_split_trim (by decide) label

/-- What a label names: everything, nothing, or the hypotheses whose texts it lists. Blanks around
the label and around its parts do not count. -/
inductive Names (f : Frame) (label : String) : List Hypothesis → Prop
  | everything (h : Text.trim label = Label.ignorance) : Names f label f.elements
  | nothing (h : Text.trim label = Label.empty ∨ Text.trim label = "") : Names f label []
  | listed {hs : List Hypothesis} (hin : hs ⊆ f.elements)
      (h : (Text.split Label.separator label).map Text.trim = hs.map (·.text)) : Names f label hs

variable {α : Type} {f : Frame} {label : String}

theorem trim_ne_of_listed {hs : List Hypothesis} (hin : hs ⊆ f.elements)
    (h : (Text.split Label.separator label).map Text.trim = hs.map (·.text)) {s : String}
    (hsep : Label.separator ∉ s.toList)
    (hnot : ¬ (Hypothesis.IsTight (Text.trim s) ∧ ¬ Hypothesis.IsReserved (Text.trim s))) :
    Text.trim label ≠ s := by
  intro hs
  rw [← Text.map_trim_split_trim (by decide), hs, Text.split_of_not_mem hsep,
    List.map_singleton] at h
  obtain ⟨k, hk, htext⟩ := List.mem_map.1 (h ▸ List.mem_singleton_self (Text.trim s))
  exact hnot (htext ▸ (f.valid k (hin hk)).text)

theorem Names.ofLabel {hs : List Hypothesis} (h : Names f label hs) :
    ∃ e, (ofLabel f label : Except (Fault α) Event) = .ok e ∧ e.frame = f ∧
      e.mask.within f.size = true ∧ ∀ k, k ∈ e.elements ↔ k ∈ hs := by
  cases h with
  | everything h =>
      exact ⟨full f, if_pos h, rfl, Mask.within_full _, fun k => by rw [elements_full]⟩
  | nothing h =>
      have hfull : Text.trim label ≠ Label.ignorance := by
        rcases h with h | h <;> rw [h] <;> decide
      exact ⟨empty f, (if_neg hfull).trans (if_pos h), rfl, Mask.within_empty _,
        fun k => by rw [elements_empty]⟩
  | listed hin h =>
      have hempty : ¬ (Text.trim label = Label.empty ∨ Text.trim label = "") :=
        not_or.2 ⟨trim_ne_of_listed hin h (by decide) (by decide),
          trim_ne_of_listed hin h (by decide) (by decide)⟩
      have hgathered := gathered_ofLabel (α := α) (f := f)
        (trim_ne_of_listed hin h (by decide) (by decide)) hempty
      rw [tokens_eq, h] at hgathered
      generalize Event.ofLabel f label = r at hgathered ⊢
      cases hgathered with
      | @complete e frame inside found mem =>
          refine ⟨e, rfl, frame, inside, fun k => (mem k).trans ⟨?_, fun hk => ?_⟩⟩
          · rintro ⟨hk, token, htoken, rfl⟩
            obtain ⟨l, hl, htext⟩ := List.mem_map.1 htoken
            exact f.distinct l (hin hl) k hk htext ▸ hl
          · exact ⟨hin hk, k.text, List.mem_map_of_mem hk, rfl⟩
      | @stopped before token after split found lost =>
          have htoken : token ∈ hs.map (·.text) := split ▸ List.mem_append_cons_self
          obtain ⟨k, hk, htext⟩ := List.mem_map.1 htoken
          exact absurd htext (lost k (hin hk))

/-- A label is read, or it is refused for the first of its parts that is the text of no
hypothesis. -/
theorem names_or_unknown (f : Frame) (label : String) : (∃ hs, Names f label hs) ∨
    ∃ before token after, (Text.split Label.separator label).map Text.trim =
        before ++ token :: after ∧
      (∀ s ∈ before, ∃ h ∈ f.elements, h.text = s) ∧ (∀ h ∈ f.elements, h.text ≠ token) ∧
      (ofLabel f label : Except (Fault α) Event) = .error (.unknownToken label token f) := by
  by_cases hfull : Text.trim label = Label.ignorance
  · exact .inl ⟨_, .everything hfull⟩
  by_cases hempty : Text.trim label = Label.empty ∨ Text.trim label = ""
  · exact .inl ⟨_, .nothing hempty⟩
  have hgathered := gathered_ofLabel (α := α) (f := f) hfull hempty
  rw [tokens_eq] at hgathered
  generalize ofLabel f label = r at hgathered ⊢
  cases hgathered with
  | complete frame inside found mem =>
      obtain ⟨hs, hin, hs_text⟩ := f.exists_texts found
      exact .inl ⟨hs, .listed hin hs_text.symm⟩
  | stopped split found lost => exact .inr ⟨_, _, _, split, found, lost, rfl⟩

/-- Every event of a frame is read back from its label, so that no two events share one. A label is
read just when it names hypotheses, and then as the event of these; it is refused otherwise, as an
invalid set and for the first of its parts that is the text of no hypothesis. What was read from a
label is read again from its own one. -/
theorem ofLabel_names (f : Frame) :
    (∀ mask : Mask, mask.within f.size = true →
      (ofMask f mask : Except (Fault α) Event).bind (fun e => ofLabel f e.label) =
        .ok ⟨f, mask⟩) ∧
    (∀ A B : Mask, A.within f.size = true → B.within f.size = true →
      (Event.mk f A).label = (Event.mk f B).label → A = B) ∧
    (∀ l : String, (∃ e, (ofLabel f l : Except (Fault α) Event) = .ok e) ↔ ∃ hs, Names f l hs) ∧
    (∀ (l : String) hs, Names f l hs → ∃ e, (ofLabel f l : Except (Fault α) Event) = .ok e ∧
      e.frame = f ∧ e.mask.within f.size = true ∧ ∀ h, h ∈ e.elements ↔ h ∈ hs) ∧
    (∀ (l : String) e, (ofLabel f l : Except (Fault α) Event) = .ok e →
      (ofLabel f e.label : Except (Fault α) Event) = .ok e) ∧
    ∀ (l : String) (fault : Fault α), ofLabel f l = .error fault → fault.code = .invalidFocalSet ∧
      ∃ before token after, (Text.split Label.separator l).map Text.trim =
          before ++ token :: after ∧
        (∀ s ∈ before, ∃ h ∈ f.elements, h.text = s) ∧ (∀ h ∈ f.elements, h.text ≠ token) ∧
        fault = .unknownToken l token f := by
  have hread {l : String} {e : Event} (h : (ofLabel f l : Except (Fault α) Event) = .ok e) :
      ∃ hs, Names f l hs := by
    rcases names_or_unknown (α := α) f l with hnames | ⟨_, _, _, -, -, -, hunknown⟩
    · exact hnames
    · cases h.symm.trans hunknown
  refine ⟨fun mask hin => ?_, fun A B hA hB h => ?_, fun l => ⟨fun ⟨e, h⟩ => hread h, ?_⟩,
    fun l hs h => h.ofLabel, fun l e h => ?_, fun l fault h => ?_⟩
  · rw [ofMask, if_pos hin, Except.bind]
    exact ofLabel_label (e := ⟨f, mask⟩) hin
  · exact congrArg mask (label_injective (e := ⟨f, B⟩) hB (d := ⟨f, A⟩) hA rfl h)
  · rintro ⟨hs, h⟩
    obtain ⟨e, he, -⟩ := h.ofLabel (α := α)
    exact ⟨e, he⟩
  · obtain ⟨hs, hnames⟩ := hread h
    obtain ⟨e', he', rfl, hin, -⟩ := hnames.ofLabel (α := α)
    obtain rfl := Except.ok.inj (h.symm.trans he')
    exact ofLabel_label hin
  · rcases names_or_unknown (α := α) f l with
      ⟨hs, hnames⟩ | ⟨before, token, after, hsplit, hbefore, htoken, hunknown⟩
    · obtain ⟨e, he, -⟩ := hnames.ofLabel (α := α)
      cases h.symm.trans he
    · obtain rfl := Except.error.inj (h.symm.trans hunknown)
      exact ⟨rfl, before, token, after, hsplit, hbefore, htoken, rfl⟩

def mixedFrame : Frame where
  elements := [.number 2, .name "b", .name "é"]
  sorted := by decide
  valid := by decide
  distinct := by decide
  nonempty := by decide

/-- Two hypotheses in another order, one of them twice, with blanks of several kinds. -/
theorem ofLabel_names_mixed : ∃ e,
    (ofLabel mixedFrame " é ,\t2,é\u00a0" : Except (Fault Float) Event) = .ok e ∧
    (∀ h, h ∈ e.elements ↔ h ∈ [.name "é", .number 2, .name "é"]) ∧
    (ofLabel mixedFrame e.label : Except (Fault Float) Event) = .ok e := by
  have hnames : Names mixedFrame " é ,\t2,é\u00a0" [.name "é", .number 2, .name "é"] :=
    .listed (by decide) (by decide)
  obtain ⟨-, -, -, hread, hagain, -⟩ := ofLabel_names (α := Float) mixedFrame
  obtain ⟨e, he, -, -, hmem⟩ := hread _ _ hnames
  exact ⟨e, he, hmem, hagain _ e he⟩

end Event

end Evidence
