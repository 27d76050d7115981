import Mathlib
import Evidence.Proofs.EventAlgebra

namespace Evidence

namespace Text

def IsBeyond (c : Char) : Prop := 0x10000 ≤ c.toNat

def IsHigh (c : Char) : Prop := 0xE000 ≤ c.toNat ∧ c.toNat < 0x10000

/-- Where the two texts first differ, the first has a character beyond the basic plane and the second
a high one inside it. -/
inductive Inverted : List Char → List Char → Prop
  | here {c d : Char} {cs ds : List Char} (hc : IsBeyond c) (hd : IsHigh d) :
      Inverted (c :: cs) (d :: ds)
  | later (c : Char) {cs ds : List Char} (h : Inverted cs ds) : Inverted (c :: cs) (c :: ds)

variable {c d : Char} {cs ds : List Char}

theorem not_isHigh_of_isBeyond (h : IsBeyond c) : ¬ IsHigh c := fun hc => not_lt.2 h hc.2

theorem inverted_cons_iff : Inverted (c :: cs) (d :: ds) ↔
    IsBeyond c ∧ IsHigh d ∨ c = d ∧ Inverted cs ds := by
  constructor
  · intro h
    cases h with
    | here hc hd => exact .inl ⟨hc, hd⟩
    | later _ h => exact .inr ⟨rfl, h⟩
  · rintro (⟨hc, hd⟩ | ⟨rfl, h⟩)
    · exact .here hc hd
    · exact .later _ h

theorem Inverted.exists_isBeyond (h : Inverted cs ds) : ∃ c ∈ cs, IsBeyond c := by
  induction h with
  | here hc hd => exact ⟨_, List.mem_cons_self .., hc⟩
  | later c h ih =>
      obtain ⟨b, hb, hbeyond⟩ := ih
      exact ⟨b, List.mem_cons_of_mem _ hb, hbeyond⟩

theorem unitsOf_ne_nil (c : Char) : unitsOf c ≠ [] := by
  unfold unitsOf
  split <;> exact List.cons_ne_nil _ _

theorem nil_lt_units_cons (c : Char) (cs : List Char) : [] < units (c :: cs) := by
  obtain ⟨u, us, hu⟩ := List.exists_cons_of_ne_nil (unitsOf_ne_nil c)
  rw [units, hu]
  exact List.nil_lt_cons _ _

/-- Units decide at the first character that differs, and there as code points do, unless one is
written with surrogates and the other comes after them. -/
theorem units_cons_lt_iff : units (c :: cs) < units (d :: ds) ↔
    (IsBeyond c ∧ IsHigh d ∨ c < d ∧ ¬ (IsHigh c ∧ IsBeyond d)) ∨
      c = d ∧ units cs < units ds := by
  have hc := toNat_lt_or c
  have hd := toNat_lt_or d
  have hlt : c < d ↔ c.toNat < d.toNat := Iff.rfl
  rw [hlt, ← Char.toNat_inj, units, units]
  unfold IsBeyond IsHigh unitsOf
  generalize units cs = us, units ds = vs
  split_ifs <;>
    simp only [List.cons_append, List.nil_append, List.cons_lt_cons_iff] <;>
    by_cases htail : us < vs <;> simp only [htail, and_true, and_false, or_false] <;> omega

theorem not_inverted_nil (cs : List Char) : ¬ Inverted [] cs ∧ ¬ Inverted cs [] := by
  constructor
  · intro h
    cases h
  · intro h
    cases h

theorem Inverted.gt (h : Inverted cs ds) : ds < cs := by
  induction h with
  | @here c d _ _ hc hd =>
      have hlt : d.toNat < c.toNat := lt_of_lt_of_le hd.2 hc
      exact .rel hlt
  | later c h ih => exact .cons ih

/-- The order by units is that by code points, but for inverted texts. -/
theorem units_lt_iff : units cs < units ds ↔ Inverted cs ds ∨ cs < ds ∧ ¬ Inverted ds cs := by
  induction cs generalizing ds with
  | nil =>
      obtain ⟨hleft, hright⟩ := not_inverted_nil ds
      rw [or_iff_right hleft, and_iff_left hright]
      cases ds with
      | nil => exact iff_of_false (List.lt_irrefl _) (List.lt_irrefl _)
      | cons d ds => exact iff_of_true (nil_lt_units_cons d ds) (List.nil_lt_cons d ds)
  | cons c cs ih =>
      cases ds with
      | nil =>
          rw [or_iff_right (not_inverted_nil _).2]
          exact iff_of_false (List.not_lt_nil _) fun h => List.not_lt_nil _ h.1
      | cons d ds =>
          rw [units_cons_lt_iff, ih, inverted_cons_iff, inverted_cons_iff, List.cons_lt_cons_iff]
          rcases lt_trichotomy c d with h | rfl | h
          · simp only [h, h.ne, h.ne']
            tauto
          · have hkinds : ¬ (IsBeyond c ∧ IsHigh c) := fun h => not_isHigh_of_isBeyond h.1 h.2
            simp only [lt_irrefl, hkinds]
            tauto
          · simp only [not_lt_of_gt h, h.ne, h.ne']
            tauto

end Text

namespace Hypothesis

/-- The order of the documents: numbers ascending, then names by code points. -/
def PointBefore : Hypothesis → Hypothesis → Prop
  | .number m, .number n => m < n
  | .number _, .name _ => True
  | .name _, .number _ => False
  | .name s, .name t => s < t

instance : DecidableRel PointBefore
  | .number m, .number n => inferInstanceAs (Decidable (m < n))
  | .number _, .name _ => inferInstanceAs (Decidable True)
  | .name _, .number _ => inferInstanceAs (Decidable False)
  | .name s, .name t => inferInstanceAs (Decidable (s < t))

def Inverts (h k : Hypothesis) : Prop :=
  ∃ s t, h = .name s ∧ k = .name t ∧ Text.Inverted s.toList t.toList

def Aligned (hs : List Hypothesis) : Prop := ∀ h ∈ hs, ∀ k ∈ hs, ¬ Inverts h k

variable {h k l : Hypothesis}

theorem not_pointBefore_self (h : Hypothesis) : ¬ PointBefore h h := by
  cases h with
  | number n => exact Nat.lt_irrefl n
  | name s => exact String.lt_irrefl s

theorem PointBefore.trans : ∀ {h k l : Hypothesis}, PointBefore h k → PointBefore k l →
    PointBefore h l
  | .number _, .number _, .number _, hk, kl => Nat.lt_trans hk kl
  | .number _, _, .name _, _, _ => trivial
  | _, .name _, .number _, _, kl => kl.elim
  | .name _, .number _, _, hk, _ => hk.elim
  | .name _, .name _, .name _, hk, kl => String.lt_trans hk kl

theorem PointBefore.asymm (hk : PointBefore h k) : ¬ PointBefore k h := fun kh =>
  not_pointBefore_self h (hk.trans kh)

theorem pointBefore_or (h k : Hypothesis) : PointBefore h k ∨ h = k ∨ PointBefore k h := by
  match h, k with
  | .number m, .number n => exact (lt_trichotomy m n).imp_right (.imp_left (congrArg number))
  | .number _, .name _ => exact .inl trivial
  | .name _, .number _ => exact .inr (.inr trivial)
  | .name s, .name t => exact (lt_trichotomy s t).imp_right (.imp_left (congrArg name))

theorem inverts_name_iff {s t : String} :
    Inverts (.name s) (.name t) ↔ Text.Inverted s.toList t.toList := by
  constructor
  · rintro ⟨s', t', hs, ht, h⟩
    cases hs
    cases ht
    exact h
  · exact fun h => ⟨s, t, rfl, rfl, h⟩

theorem Inverts.pointBefore (hk : Inverts h k) : PointBefore k h := by
  obtain ⟨s, t, rfl, rfl, hst⟩ := hk
  exact hst.gt

theorem not_inverts_number (n : Nat) (h : Hypothesis) :
    ¬ Inverts (.number n) h ∧ ¬ Inverts h (.number n) := by
  constructor
  · rintro ⟨s, t, hs, -⟩
    cases hs
  · rintro ⟨s, t, -, ht, -⟩
    cases ht

theorem lt_iff_pointBefore : h < k ↔ Inverts h k ∨ PointBefore h k ∧ ¬ Inverts k h := by
  match h, k with
  | .name s, .name t =>
      rw [inverts_name_iff, inverts_name_iff]
      exact Text.units_lt_iff
  | .number n, k =>
      obtain ⟨hleft, hright⟩ := not_inverts_number n k
      rw [or_iff_right hleft, and_iff_left hright]
      cases k <;> exact Iff.rfl
  | .name s, .number n =>
      obtain ⟨hleft, hright⟩ := not_inverts_number n (.name s)
      rw [or_iff_right hright, and_iff_left hleft]
      exact Iff.rfl

section Sorted

variable {hs ks : List Hypothesis}

theorem pairwise_pointBefore_iff (hsorted : hs.Pairwise (· < ·)) :
    hs.Pairwise PointBefore ↔ Aligned hs := by
  constructor
  · -- Of any two members one stands before the other in both orders, which inverted names do not.
    intro hpoints h hh k hk
    have hself (x : Hypothesis) : ¬ Inverts x x := fun hx =>
      not_pointBefore_self x hx.pointBefore
    have hforth : hs.Pairwise fun x y => ¬ Inverts x y :=
      hpoints.imp fun hxy hinverts => hxy.asymm hinverts.pointBefore
    have hback : hs.Pairwise (flip fun x y => ¬ Inverts x y) :=
      hsorted.imp fun {x _} hxy hinverts =>
        lt_irrefl x (lt_trans hxy (lt_iff_pointBefore.2 (.inl hinverts)))
    exact hforth.forall_of_forall_of_flip (fun x _ => hself x) hback hh hk
  · intro haligned
    refine hsorted.imp_of_mem fun {h k} hh hk hlt => ?_
    exact ((lt_iff_pointBefore.1 hlt).resolve_left (haligned h hh k hk)).1

theorem nodup_of_pointBefore (hpoints : hs.Pairwise PointBefore) : hs.Nodup := by
  apply hpoints.imp
  rintro h _ hlt rfl
  exact not_pointBefore_self h hlt

theorem eq_of_pointBefore (hh : hs.Pairwise PointBefore) (hk : ks.Pairwise PointBefore)
    (hmem : ∀ x, x ∈ hs ↔ x ∈ ks) : hs = ks := by
  have hperm := (List.perm_ext_iff_of_nodup (nodup_of_pointBefore hh) (nodup_of_pointBefore hk)).2
    hmem
  exact hperm.eq_of_pairwise (fun x y _ _ hxy hyx => absurd hyx hxy.asymm) hh hk

theorem exists_pointBefore (hnodup : hs.Nodup) :
    ∃ ks : List Hypothesis, ks.Pairwise PointBefore ∧ ∀ h, h ∈ ks ↔ h ∈ hs := by
  let notAfter (h k : Hypothesis) : Prop := ¬ PointBefore k h
  have htotal : Std.Total notAfter := ⟨fun h k => by
    by_cases hk : PointBefore k h
    · exact .inr hk.asymm
    · exact .inl hk⟩
  have htrans : IsTrans Hypothesis notAfter := ⟨fun h k l hk kl lh => by
    rcases pointBefore_or h k with h' | rfl | h'
    · exact kl (lh.trans h')
    · exact kl lh
    · exact hk h'⟩
  refine ⟨hs.insertionSort notAfter, ?_, fun h => List.mem_insertionSort _⟩
  have hdistinct := (List.perm_insertionSort notAfter hs).nodup_iff.2 hnodup
  have hsorted := List.pairwise_insertionSort notAfter hs
  exact (hdistinct.and hsorted).imp fun {h k} hhk =>
    (pointBefore_or h k).resolve_right (not_or.2 hhk)

end Sorted

def maskIn (ks hs : List Hypothesis) : Mask := Mask.join (hs.map fun h => .singleton (ks.idxOf h))

theorem maskIn_singleton (ks : List Hypothesis) (h : Hypothesis) :
    maskIn ks [h] = .singleton (ks.idxOf h) :=
  Mask.ext fun i => by simp [maskIn]

end Hypothesis

theorem Mask.singleton_inj {i j : Nat} (h : Mask.singleton i = .singleton j) : i = j := by
  have hi := congrArg (·.has i) h
  simpa [eq_comm] using hi

namespace Frame

variable {α : Type} [Scalar α] {values : List (Value α)} {f : Frame}

/-- A list in which all events have the masks that they have in the frame is the frame's own. -/
theorem eq_of_masks (hf : ofValues values = .ok f) {ks : List Hypothesis} (hnodup : ks.Nodup)
    (hmem : ∀ h, h ∈ ks ↔ h ∈ f.elements)
    (hmasks : ∀ (named : List (Value α)) e, Event.ofValues f named = .ok e →
      e.mask = Hypothesis.maskIn ks (Hypothesis.written named)) : f.elements = ks := by
  have hindex : ∀ h ∈ f.elements, f.index h = ks.idxOf h := by
    intro h hh
    obtain ⟨v, -, hv⟩ := Hypothesis.mem_written.1 ((mem_of_ofValues hf h).1 hh)
    have hsingle : Hypothesis.Writes [v] [h] := congrArg (fun o => [o]) hv
    have hin : [h] ⊆ f.elements := List.cons_subset.2 ⟨hh, List.nil_subset _⟩
    obtain ⟨e, he, -⟩ := Event.exists_ofValues hin hsingle
    have hwritten : Hypothesis.written [v] = [h] := Hypothesis.written_cons hv []
    have hmask := (Event.mask_ofValues he).2.symm.trans (hmasks [v] e he)
    rw [hwritten, maskOf_singleton, Hypothesis.maskIn_singleton] at hmask
    exact Mask.singleton_inj hmask
  have hperm := (List.perm_ext_iff_of_nodup f.nodup_elements hnodup).2 fun h => (hmem h).symm
  refine List.ext_getElem hperm.length_eq fun i hi hi' => ?_
  have hi'' : ks.idxOf f.elements[i] = i := by
    rw [← hindex _ (List.getElem_mem hi)]
    exact f.nodup_elements.idxOf_getElem i hi
  have hget := List.getElem_idxOf (hi''.symm ▸ hi' : ks.idxOf f.elements[i] < ks.length)
  simpa only [hi''] using hget.symm

/-- The names of a frame stand by code points just when no two of them are inverted, which takes a
character beyond the basic plane. Only then does a list that is sorted by code points give every
event of the frame its mask. -/
theorem ofValues_codePoints (hf : ofValues values = .ok f) :
    (f.elements.Pairwise Hypothesis.PointBefore ↔
        Hypothesis.Aligned (Hypothesis.written values)) ∧
      ((∀ s, .name s ∈ Hypothesis.written values → ∀ c ∈ s.toList, ¬ Text.IsBeyond c) →
        Hypothesis.Aligned (Hypothesis.written values)) ∧
      (∃ ks : List Hypothesis, ks.Pairwise Hypothesis.PointBefore ∧
        ∀ h, h ∈ ks ↔ h ∈ Hypothesis.written values) ∧
      ∀ ks : List Hypothesis, ks.Pairwise Hypothesis.PointBefore →
        (∀ h, h ∈ ks ↔ h ∈ Hypothesis.written values) →
        ((∀ (named : List (Value α)) e, Event.ofValues f named = .ok e →
            e.mask = Hypothesis.maskIn ks (Hypothesis.written named)) ↔
          Hypothesis.Aligned (Hypothesis.written values)) := by
  have hmem := mem_of_ofValues hf
  have haligned : Hypothesis.Aligned f.elements ↔
      Hypothesis.Aligned (Hypothesis.written values) := by
    simp only [Hypothesis.Aligned, hmem]
  have hsorted := (Hypothesis.pairwise_pointBefore_iff f.sorted).trans haligned
  refine ⟨hsorted, fun hbasic => ?_, ?_, fun ks hks hkmem => ?_⟩
  · rintro h hh k - ⟨s, t, rfl, -, hst⟩
    obtain ⟨c, hc, hbeyond⟩ := hst.exists_isBeyond
    exact hbasic s hh c hc hbeyond
  · obtain ⟨ks, hks, hkmem⟩ := Hypothesis.exists_pointBefore f.nodup_elements
    exact ⟨ks, hks, fun h => (hkmem h).trans (hmem h)⟩
  · have hkmem' (h : Hypothesis) : h ∈ ks ↔ h ∈ f.elements := (hkmem h).trans (hmem h).symm
    rw [← hsorted]
    constructor
    · intro hmasks
      rw [eq_of_masks hf (Hypothesis.nodup_of_pointBefore hks) hkmem' hmasks]
      exact hks
    · intro hpoints named e he
      rw [← Hypothesis.eq_of_pointBefore hpoints hks fun h => (hkmem' h).symm]
      exact (Event.mask_ofValues he).2

def unordered : List (Value Float) := [.text "β", .ofNat 10, .text "a", .ofNat 2]

theorem ofValues_codePoints_unordered : ∃ f, ofValues unordered = .ok f ∧
    f.elements.Pairwise Hypothesis.PointBefore := by
  have hmade : ∃ f, ofValues unordered = .ok f := ⟨_, rfl⟩
  obtain ⟨f, hf⟩ := hmade
  obtain ⟨hsorted, hbasic, -⟩ := ofValues_codePoints hf
  refine ⟨f, hf, hsorted.2 (hbasic ?_)⟩
  have hwritten : Hypothesis.written unordered = [.name "β", .number 10, .name "a", .number 2] := rfl
  rw [hwritten]
  intro s hs
  obtain rfl | rfl : s = "β" ∨ s = "a" := by simpa using hs
  · simp [Text.IsBeyond]
  · simp [Text.IsBeyond]

def opposed : List (Value Float) := [.text "～", .text "😀"]

theorem ofValues_codePoints_opposed : ∃ f, ofValues opposed = .ok f ∧
    f.elements = [.name "😀", .name "～"] ∧ ¬ f.elements.Pairwise Hypothesis.PointBefore ∧
    Hypothesis.PointBefore (.name "～") (.name "😀") ∧
    ∃ e, Event.ofValues f [(.text "～" : Value Float)] = .ok e ∧ e.mask = .finite 2 ∧
      Hypothesis.maskIn [.name "～", .name "😀"] [.name "～"] = .finite 1 := by
  refine ⟨_, rfl, ?_, ?_, ?_, _, rfl, ?_, ?_⟩
  · decide
  · decide
  · decide
  · decide
  · decide

end Frame

end Evidence
