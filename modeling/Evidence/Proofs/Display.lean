import Mathlib
import Evidence.Proofs.Figures
import Evidence.Proofs.Labels
import Evidence.Proofs.TallyIntegral
import Evidence.Proofs.Views

namespace Evidence

namespace Text

def Unbroken (cs : List Char) : Prop := cs.IsChain fun c d => c = ',' → d ≠ ' '

theorem unbroken_of_not_mem {cs : List Char} (h : ',' ∉ cs) : Unbroken cs := by
  induction cs with
  | nil => exact List.IsChain.nil
  | cons c cs ih =>
      rw [List.mem_cons, not_or] at h
      exact List.isChain_cons.2 ⟨fun d _ hc => absurd hc.symm h.1, ih h.2⟩

theorem Unbroken.append_cons {cs ds : List Char} {d : Char} (hcs : Unbroken cs) (hd : d ≠ ' ')
    (hds : Unbroken (d :: ds)) : Unbroken (cs ++ d :: ds) := by
  refine List.isChain_append.2 ⟨hcs, hds, fun _ _ e he _ => ?_⟩
  obtain rfl : d = e := by simpa using he
  exact hd

theorem Unbroken.ne_append {cs : List Char} (h : Unbroken cs) (ds es : List Char) :
    cs ≠ ds ++ ',' :: ' ' :: es := by
  rintro rfl
  have htail := (List.isChain_append.1 h).2.1
  exact (List.isChain_cons.1 htail).1 ' ' rfl rfl rfl

/-- The first comma with a blank behind it ends what comes before. -/
theorem Unbroken.eq_nil {cs es us vs : List Char} (h : Unbroken (cs ++ es))
    (hgap : ',' :: ' ' :: us = es ++ ',' :: ' ' :: vs) : es = [] := by
  cases es with
  | nil => rfl
  | cons c es =>
      obtain ⟨rfl, hblank⟩ := List.cons.inj hgap
      cases es with
      | nil => exact absurd (List.cons.inj hblank).1 (by decide)
      | cons d es =>
          obtain ⟨rfl, -⟩ := List.cons.inj hblank
          exact absurd rfl (h.ne_append cs es)

theorem Unbroken.append_inj {cs ds us vs : List Char} (hcs : Unbroken cs) (hds : Unbroken ds)
    (h : cs ++ ',' :: ' ' :: us = ds ++ ',' :: ' ' :: vs) : cs = ds ∧ us = vs := by
  have hsame : cs = ds := by
    rcases List.append_eq_append_iff.1 h with ⟨es, rfl, hes⟩ | ⟨es, rfl, hes⟩
    · rw [hds.eq_nil hes, List.append_nil]
    · rw [hcs.eq_nil hes, List.append_nil]
  subst hsame
  have htail := List.append_cancel_left h
  exact ⟨rfl, (List.cons.inj (List.cons.inj htail).2).2⟩

theorem append_inj_of_not_mem {c : Char} {cs ds us vs : List Char} (hu : c ∉ us) (hv : c ∉ vs)
    (h : cs ++ c :: us = ds ++ c :: vs) : cs = ds ∧ us = vs := by
  have hsplit : splitChars c (us.reverse ++ c :: cs.reverse) =
      splitChars c (vs.reverse ++ c :: ds.reverse) :=
    congrArg (splitChars c) (by simpa using congrArg List.reverse h)
  rw [splitChars_append (by simpa using hu), splitChars_append (by simpa using hv)] at hsplit
  obtain rfl := List.reverse_injective (List.cons.inj hsplit).1
  exact ⟨List.append_cancel_right h, rfl⟩

theorem toList_join_gap (s t : String) (rest : List String) :
    (join ", " (s :: t :: rest)).toList =
      s.toList ++ ',' :: ' ' :: (join ", " (t :: rest)).toList := by
  simp [join]

theorem join_gap_ne_empty {s : String} (h : s ≠ "") (rest : List String) :
    join ", " (s :: rest) ≠ "" := by
  cases rest with
  | nil => exact h
  | cons t rest =>
      rw [Ne, ← String.toList_inj, toList_join_gap]
      simp

structure Item (s : String) : Prop where
  nonempty : s ≠ ""
  unbroken : Unbroken s.toList

theorem Item.join_inj {s t : String} (hs : Item s) (ht : Item t) {xs ys : List String}
    (h : join ", " (s :: xs) = join ", " (t :: ys)) : s = t ∧ join ", " xs = join ", " ys := by
  cases xs with
  | nil =>
      cases ys with
      | nil => exact ⟨h, rfl⟩
      | cons u ys =>
          rw [← String.toList_inj, toList_join_gap] at h
          exact absurd h (hs.unbroken.ne_append _ _)
  | cons r xs =>
      cases ys with
      | nil =>
          rw [← String.toList_inj, toList_join_gap] at h
          exact absurd h.symm (ht.unbroken.ne_append _ _)
      | cons u ys =>
          rw [← String.toList_inj, toList_join_gap, toList_join_gap] at h
          obtain ⟨hst, hrest⟩ := hs.unbroken.append_inj ht.unbroken h
          exact ⟨String.toList_inj.1 hst, String.toList_inj.1 hrest⟩

theorem join_injective {xs ys : List String} (hx : ∀ s ∈ xs, Item s) (hy : ∀ s ∈ ys, Item s)
    (h : join ", " xs = join ", " ys) : xs = ys := by
  induction xs generalizing ys with
  | nil =>
      cases ys with
      | nil => rfl
      | cons t ys => exact absurd h.symm (join_gap_ne_empty (hy t (List.mem_cons_self ..)).nonempty ys)
  | cons s xs ih =>
      obtain ⟨hs, hxs⟩ := List.forall_mem_cons.1 hx
      cases ys with
      | nil => exact absurd h (join_gap_ne_empty hs.nonempty xs)
      | cons t ys =>
          obtain ⟨ht, hys⟩ := List.forall_mem_cons.1 hy
          obtain ⟨rfl, hrest⟩ := hs.join_inj ht h
          rw [ih hxs hys hrest]

theorem unbroken_join {parts : List String} (htight : ∀ s ∈ parts, s ≠ "" ∧ trim s = s)
    (hsep : ∀ s ∈ parts, ',' ∉ s.toList) : Unbroken (join (String.singleton ',') parts).toList := by
  induction parts with
  | nil => exact List.IsChain.nil
  | cons s parts ih =>
      obtain ⟨-, hparts⟩ := List.forall_mem_cons.1 htight
      obtain ⟨hs, hseps⟩ := List.forall_mem_cons.1 hsep
      cases parts with
      | nil => exact unbroken_of_not_mem hs
      | cons t rest =>
          rw [toList_join_cons]
          refine (unbroken_of_not_mem hs).append_cons (by decide) ?_
          refine List.isChain_cons.2 ⟨fun c hc _ hblank => ?_, ih hparts hseps⟩
          have hfront := (trim_eq_self_iff.1 (trim_join hparts)).1 c hc
          rw [hblank] at hfront
          exact absurd hfront (by decide)

end Text

theorem Event.unbroken_label (e : Event) : Text.Unbroken e.label.toList := by
  have htext : ∀ s ∈ e.elements.map (·.text), Hypothesis.IsTight s ∧ ¬ Hypothesis.IsReserved s :=
    List.forall_mem_map.2 fun h hh => (valid_of_mem_elements hh).text
  unfold label
  split_ifs
  · exact Text.unbroken_of_not_mem (by decide)
  · exact Text.unbroken_of_not_mem (by decide)
  · exact Text.unbroken_join (fun s hs => (htext s hs).1) fun s hs hsep => (htext s hs).2 (.inl hsep)

namespace MassFunction

def shown (f : Frame) (p : Mask × String) : String := (Event.mk f p.1).text ++ ": " ++ p.2

structure Shows (f : Frame) (items : List (Mask × String)) (s : String) : Prop where
  inside : ∀ p ∈ items, p.1.within f.size = true
  figures : ∀ p ∈ items, ∀ c ∈ p.2.toList, isFigure c = true
  text : s = "BeliefMass(" ++ Text.join ", " (items.map (shown f)) ++ ")"

theorem toList_shown (f : Frame) (p : Mask × String) : (shown f p).toList =
    '\x7b' :: ((Event.mk f p.1).label.toList ++ '\x7d' :: ':' :: ' ' :: p.2.toList) := by
  simp [shown, Event.text]

section Shown

variable {f : Frame} {p q : Mask × String} (hp : ∀ c ∈ p.2.toList, isFigure c = true)
include hp

theorem not_mem_of_figures {c : Char} (hc : isFigure c = false) : c ∉ p.2.toList := by
  intro hmem
  rw [hp c hmem] at hc
  exact Bool.noConfusion hc

theorem item_shown : Text.Item (shown f p) where
  nonempty := by
    rw [Ne, ← String.toList_inj, toList_shown]
    exact List.cons_ne_nil _ _
  unbroken := by
    have hback : ',' ∉ '\x7d' :: ':' :: ' ' :: p.2.toList := by
      simpa using not_mem_of_figures hp (c := ',') rfl
    rw [toList_shown]
    refine List.isChain_cons.2 ⟨fun _ _ hc => absurd hc (by decide), ?_⟩
    exact (Event.unbroken_label _).append_cons (by decide) (Text.unbroken_of_not_mem hback)

/-- The label ends at the last closing brace, as there is none in the number. -/
theorem shown_injective (hq : ∀ c ∈ q.2.toList, isFigure c = true) (hpf : p.1.within f.size = true)
    (hqf : q.1.within f.size = true) (h : shown f p = shown f q) : p = q := by
  rw [← String.toList_inj, toList_shown, toList_shown] at h
  obtain ⟨hlabel, hfigures⟩ := Text.append_inj_of_not_mem
    (by simpa using not_mem_of_figures hp (c := '\x7d') rfl)
    (by simpa using not_mem_of_figures hq (c := '\x7d') rfl) (List.cons.inj h).2
  have hevent := Event.label_injective (e := ⟨f, q.1⟩) hqf (d := ⟨f, p.1⟩) hpf rfl
    (String.toList_inj.1 hlabel)
  apply Prod.ext
  · exact congrArg Event.mask hevent
  · exact String.toList_inj.1 (List.cons.inj (List.cons.inj hfigures).2).2

end Shown

theorem Shows.unique {f : Frame} {xs ys : List (Mask × String)} {s : String} (hx : Shows f xs s)
    (hy : Shows f ys s) : xs = ys := by
  have htext := hx.text.symm.trans hy.text
  rw [String.append_left_inj, String.append_right_inj] at htext
  have hitems := Text.join_injective
    (List.forall_mem_map.2 fun p hp => item_shown (hx.figures p hp))
    (List.forall_mem_map.2 fun p hp => item_shown (hy.figures p hp)) htext
  apply List.ext_getElem
  · simpa using congrArg List.length hitems
  · intro i hi hj
    have hshown : shown f xs[i] = shown f ys[i] := by
      simpa [hi, hj] using congrArg (·[i]?) hitems
    exact shown_injective (hx.figures _ (List.getElem_mem hi)) (hy.figures _ (List.getElem_mem hj))
      (hx.inside _ (List.getElem_mem hi)) (hy.inside _ (List.getElem_mem hj)) hshown

variable {α : Type} {m n : MassFunction α}

theorem ranked_perm (m : MassFunction α) : m.ranked.Perm m.masses := List.mergeSort_perm _ _

theorem pairwise_ranked (hdistinct : m.masses.keys.Nodup) :
    m.ranked.Pairwise fun d e => d.1.toInt < e.1.toInt := by
  have hle : m.ranked.Pairwise fun d e => d.1.toInt ≤ e.1.toInt := by
    refine (List.pairwise_mergeSort ?_ ?_ m.masses).imp of_decide_eq_true
    · intro a b c hab hbc
      exact decide_eq_true ((of_decide_eq_true hab).trans (of_decide_eq_true hbc))
    · intro a b
      simpa using le_total a.1.toInt b.1.toInt
  have hne : m.ranked.Pairwise fun d e => d.1 ≠ e.1 :=
    List.pairwise_map.1 ((m.ranked_perm.map _).nodup_iff.2 hdistinct)
  exact (hle.and hne).imp fun h => lt_of_le_of_ne h.1 fun heq => h.2 (Mask.toInt_injective heq)

theorem ranked_eq_of_perm (hdistinct : m.masses.keys.Nodup) (h : m.masses.Perm n.masses) :
    m.ranked = n.ranked := by
  have hperm := (m.ranked_perm.trans h).trans n.ranked_perm.symm
  have hn := (h.map _).nodup_iff.1 hdistinct
  refine List.Perm.eq_of_pairwise (fun d e _ _ hde hed => ?_) (pairwise_ranked hdistinct)
    (pairwise_ranked hn) hperm
  exact absurd hde (lt_asymm hed)

variable [Scalar α]

def places (x : α) : String := (Quantity.finite x).word.fixed 4

def items (m : MassFunction α) : Tally Mask String := m.ranked.map fun e => (e.1, places e.2)

theorem keys_items (m : MassFunction α) : m.items.keys = m.ranked.keys := by
  rw [items, Tally.keys, List.map_map]
  rfl

theorem Valid.shows (h : m.Valid) : Shows m.frame m.items m.plainText where
  inside := List.forall_mem_map.2 fun e he => (h.inside e (m.ranked_perm.mem_iff.1 he)).2
  figures := List.forall_mem_map.2 fun _ _ => Binary64.figures_fixed 4 _
  text := by
    rw [items, List.map_map]
    rfl

theorem get?_items (hdistinct : m.masses.keys.Nodup) (A : Mask) :
    m.items.get? A = (m.masses.get? A).map places := by
  have hranked : m.ranked.keys.Nodup := (m.ranked_perm.map _).nodup_iff.2 hdistinct
  have hitems : m.items.keys.Nodup := by rwa [keys_items]
  by_cases hA : A ∈ m.masses.keys
  · obtain ⟨e, he, rfl⟩ := List.mem_map.1 hA
    rw [Tally.get?_of_mem hdistinct he, Option.map_some, Tally.get?_eq_some_iff hitems]
    exact List.mem_map.2 ⟨e, m.ranked_perm.mem_iff.2 he, rfl⟩
  · have hnot : A ∉ m.items.keys := by
      rw [keys_items]
      exact fun h => hA ((m.ranked_perm.map _).mem_iff.1 h)
    rw [Tally.get?_eq_none hA, Option.map_none, Tally.get?_eq_none hnot]

/-- Valid masses that answer alike have one text, in whatever order they are stored. It lists every
focal event once and with its mass, in the order of the masks and each under a label of its own, and
nobody can read anything else in it. -/
theorem Valid.text_canonical (hm : m.Valid) (hn : n.Valid) (hframe : m.frame = n.frame)
    (hmasses : ∀ A, m.masses.get? A = n.masses.get? A) :
    ∃ s, m.text = .ok s ∧ n.text = .ok s ∧ ∃ listed : Tally Mask String,
      (∀ others, Shows m.frame others s ↔ others = listed) ∧
      listed.keys.Perm m.masses.keys ∧
      (∀ A, listed.get? A = (m.masses.get? A).map places) ∧
      (listed.keys.Pairwise fun A B => A.toInt < B.toInt) ∧
      (listed.keys.map fun A => (Event.mk m.frame A).label).Nodup := by
  have hperm := (Tally.perm_iff_get? hm.distinct hn.distinct).2 hmasses
  have hplain : n.plainText = m.plainText := by
    unfold plainText
    rw [ranked_eq_of_perm hm.distinct hperm, hframe]
  have hkeys : m.items.keys.Perm m.masses.keys := by
    rw [keys_items]
    exact m.ranked_perm.map _
  refine ⟨m.plainText, hm.text_eq, hplain ▸ hn.text_eq, m.items, fun others => ?_, hkeys,
    get?_items hm.distinct, ?_, ?_⟩
  · constructor
    · exact fun h => h.unique hm.shows
    · rintro rfl
      exact hm.shows
  · rw [keys_items]
    exact List.pairwise_map.2 (pairwise_ranked hm.distinct)
  · apply Event.nodup_labels
    · intro A hA
      obtain ⟨e, he, rfl⟩ := List.mem_map.1 (hkeys.mem_iff.1 hA)
      exact (hm.inside e he).2
    · exact hkeys.nodup_iff.2 hm.distinct

def bracedFrame : Frame where
  elements := [.name "a", .name "a\x7d: 0.5000"]
  sorted := by decide
  valid := by decide
  distinct := by decide
  nonempty := by decide

theorem text_canonical_braced :
    ∃ s, text ⟨bracedFrame, [(.finite 2, 0.25), (.finite 1, 0.5), (.finite 3, 0.25)], (1e-6 : Float)⟩ =
        .ok s ∧
      text ⟨bracedFrame, [(.finite 1, 0.5), (.finite 2, 0.25), (.finite 3, 0.25)], (1e-3 : Float)⟩ =
        .ok s ∧
      ∃ listed : Tally Mask String, (∀ others, Shows bracedFrame others s ↔ others = listed) ∧
        listed.keys.Perm [.finite 2, .finite 1, .finite 3] := by
  have hm : Valid ⟨bracedFrame, [(.finite 2, 0.25), (.finite 1, 0.5), (.finite 3, 0.25)],
      (1e-6 : Float)⟩ := by
    constructor <;> decide +kernel
  have hn : Valid ⟨bracedFrame, [(.finite 1, 0.5), (.finite 2, 0.25), (.finite 3, 0.25)],
      (1e-3 : Float)⟩ := by
    constructor <;> decide +kernel
  obtain ⟨s, htext, hother, listed, hshows, hkeys, -⟩ := Valid.text_canonical hm hn rfl
    ((Tally.perm_iff_get? hm.distinct hn.distinct).1 (.swap _ _ _))
  exact ⟨s, htext, hother, listed, hshows, hkeys⟩

end MassFunction

end Evidence
