import Mathlib
import Evidence.Untyped.Event
import Evidence.Proofs.Framing
import Evidence.Proofs.Spelling

namespace Evidence

namespace Frame

variable {α : Type} [Scalar α] {f : Frame} {values : List (Value α)}

def Covers (f : Frame) (values : List (Value α)) : Prop :=
  ∀ v ∈ values, ∃ h ∈ f.elements, Hypothesis.ofValue? v = some h

theorem Covers.mem_of_written (h : f.Covers values) {k : Hypothesis}
    (hk : k ∈ Hypothesis.written values) : k ∈ f.elements := by
  obtain ⟨v, hv, hvk⟩ := Hypothesis.mem_written.1 hk
  obtain ⟨l, hl, hvl⟩ := h v hv
  exact Option.some.inj (hvl.symm.trans hvk) ▸ hl

end Frame

namespace Hypothesis

variable {α : Type} [Scalar α]

theorem shown_of_ofValue? {v : Value α} {h : Hypothesis} (hv : ofValue? v = some h) :
    v.hasText = true ∧ v.hasJson = true := by
  cases v with
  | number x => exact ⟨rfl, rfl⟩
  | text s => exact ⟨rfl, rfl⟩
  | _ => cases hv

def Writes (values : List (Value α)) (hs : List Hypothesis) : Prop :=
  values.map ofValue? = hs.map some

variable {values : List (Value α)} {hs : List Hypothesis} (hw : Writes values hs)
include hw

theorem Writes.written_eq : written values = hs := calc
  written values = (values.map ofValue?).filterMap id := by
    rw [written, List.filterMap_map]
    rfl
  _ = hs := by
    rw [hw, List.filterMap_map]
    exact List.filterMap_some

theorem Writes.covers {f : Frame} (hin : hs ⊆ f.elements) : f.Covers values := by
  intro v hv
  have hmem : ofValue? v ∈ hs.map some := hw ▸ List.mem_map_of_mem hv
  obtain ⟨h, hh, heq⟩ := List.mem_map.1 hmem
  exact ⟨h, hin hh, heq.symm⟩

end Hypothesis

namespace Event

structure Inside (f : Frame) (e : Event) : Prop where
  frame : e.frame = f
  within : e.mask.within f.size = true

def members (e : Event) : Finset Hypothesis := e.elements.toFinset

theorem mem_members {e : Event} {h : Hypothesis} :
    h ∈ e.members ↔ h ∈ e.frame.elements ∧ e.mask.has (e.frame.index h) = true := by
  rw [members, List.mem_toFinset, mem_elements]

theorem members_subset (e : Event) : e.members ⊆ e.frame.elements.toFinset := fun _ hh =>
  List.mem_toFinset.2 (mem_members.1 hh).1

theorem sorted_elements (e : Event) : e.elements.Pairwise (· < ·) := by
  rw [elements_eq_filter]
  exact e.frame.sorted.filter _

theorem nodup_elements (e : Event) : e.elements.Nodup := by
  rw [elements_eq_filter]
  exact e.frame.nodup_elements.filter _

section Masks

variable {f : Frame} {A B : Mask}

theorem members_inter : (Event.mk f (A.inter B)).members =
    (Event.mk f A).members ∩ (Event.mk f B).members := by
  ext h
  simp only [mem_members, Finset.mem_inter, Mask.has_inter, Bool.and_eq_true]
  tauto

theorem members_union : (Event.mk f (A.union B)).members =
    (Event.mk f A).members ∪ (Event.mk f B).members := by
  ext h
  simp only [mem_members, Finset.mem_union, Mask.has_union, Bool.or_eq_true]
  tauto

theorem members_diff : (Event.mk f (A.diff B)).members =
    (Event.mk f A).members \ (Event.mk f B).members := by
  ext h
  simp only [mem_members, Finset.mem_sdiff, Mask.has_diff, Bool.and_eq_true, Bool.not_eq_true']
  grind

theorem members_full (f : Frame) : (full f).members = f.elements.toFinset := by
  rw [members, elements_full]

theorem members_empty (f : Frame) : (empty f).members = ∅ := by
  rw [members, elements_empty, List.toFinset_nil]

theorem mask_eq_iff (hA : A.within f.size = true) (hB : B.within f.size = true) :
    A = B ↔ (Event.mk f A).members = (Event.mk f B).members := by
  refine ⟨fun h => h ▸ rfl, fun h => Frame.mask_ext hA hB fun k hk => ?_⟩
  have hmem := Finset.ext_iff.1 h k
  rw [mem_members, mem_members, and_iff_right hk, and_iff_right hk] at hmem
  exact Bool.eq_iff_iff.2 hmem

theorem mask_eq_empty_iff (hA : A.within f.size = true) :
    A = .empty ↔ (Event.mk f A).members = ∅ := by
  rw [mask_eq_iff hA (Mask.within_empty _)]
  exact Eq.congr_right (members_empty f)

end Masks

section Named

variable {α : Type} [Scalar α] {f : Frame} {values : List (Value α)}

theorem covers_of_ofValues {e : Event} (h : ofValues f values = .ok e) : f.Covers values := by
  have hgathered := gathered_ofValues f values
  rw [h] at hgathered
  cases hgathered with
  | complete frame inside found mem => exact found

/-- Values that a frame covers name the event that has just the hypotheses they write. -/
theorem ofValues_of_covers (h : f.Covers values) : ∃ e, ofValues f values = .ok e ∧ Inside f e ∧
    ∀ k, k ∈ e.elements ↔ k ∈ Hypothesis.written values := by
  have hgathered := gathered_ofValues f values
  generalize ofValues f values = r at hgathered ⊢
  cases hgathered with
  | @complete e frame inside found mem =>
      refine ⟨e, rfl, ⟨frame, inside⟩, fun k => ?_⟩
      rw [mem, ← Hypothesis.mem_written]
      exact and_iff_right_of_imp h.mem_of_written
  | @stopped before v after split found lost =>
      obtain ⟨k, hk, hv⟩ := h v (split ▸ List.mem_append_cons_self)
      exact absurd hv (lost k hk)

theorem ofValue_of_covers (h : f.Covers values) :
    ofValue f (.list values) = Failure.ofFault (ofValues f values) := by
  have hshown := misuse?_eq_none (f := f) fun v hv =>
    Hypothesis.shown_of_ofValue? (h v hv).choose_spec.2
  change find f values = _
  rw [find, hshown]

variable {hs : List Hypothesis}

theorem exists_ofValues (hin : hs ⊆ f.elements) (hw : Hypothesis.Writes values hs) :
    ∃ e, ofValues f values = .ok e ∧ Inside f e ∧ ∀ h, h ∈ e.elements ↔ h ∈ hs :=
  hw.written_eq ▸ ofValues_of_covers (hw.covers hin)

theorem exists_ofValue (hin : hs ⊆ f.elements) (hw : Hypothesis.Writes values hs) :
    ∃ e, ofValue f (.list values) = .ok e ∧ Inside f e ∧ ∀ h, h ∈ e.elements ↔ h ∈ hs := by
  obtain ⟨e, he, hinside⟩ := exists_ofValues hin hw
  exact ⟨e, (ofValue_of_covers (hw.covers hin)).trans (congrArg Failure.ofFault he), hinside⟩

end Named

theorem Inside.exists_mask {f : Frame} {e : Event} (h : Inside f e) :
    ∃ A, e = ⟨f, A⟩ ∧ A.within f.size = true := by
  obtain ⟨rfl, hA⟩ := h
  exact ⟨e.mask, rfl, hA⟩

theorem Inside.eq_iff {f : Frame} {d e : Event} (hd : Inside f d) (he : Inside f e) :
    d = e ↔ d.members = e.members := by
  obtain ⟨A, rfl, hA⟩ := hd.exists_mask
  obtain ⟨B, rfl, hB⟩ := he.exists_mask
  rw [← mask_eq_iff hA hB, Event.mk.injEq, eq_self_iff_true, true_and]

theorem Inside.eq_of_elements {f : Frame} {d e : Event} (hd : Inside f d) (he : Inside f e)
    (h : ∀ k, k ∈ d.elements ↔ k ∈ e.elements) : d = e := by
  rw [hd.eq_iff he]
  ext k
  rw [members, members, List.mem_toFinset, List.mem_toFinset, h]

section Operations

variable {α : Type} {f : Frame} {A B : Mask} (hA : A.within f.size = true)

theorem both_mk {β : Type} (op : Mask → Mask → β) :
    (both op ⟨f, A⟩ ⟨f, B⟩ : Except (Fault α) β) = .ok (op A B) :=
  if_pos rfl

include hA

theorem diff_beq_empty :
    (A.diff B == .empty) = decide ((Event.mk f A).members ⊆ (Event.mk f B).members) := by
  rw [Bool.eq_iff_iff, beq_iff_eq, decide_eq_true_iff, mask_eq_empty_iff (Mask.within_diff hA _)]
  exact (Eq.congr_left members_diff).trans Finset.sdiff_eq_empty_iff_subset

theorem inter_bne_empty :
    (A.inter B != .empty) = decide ((Event.mk f A).members ∩ (Event.mk f B).members).Nonempty := by
  rw [Bool.eq_iff_iff, bne_iff_ne, decide_eq_true_iff, Finset.nonempty_iff_ne_empty,
    ← members_inter]
  exact not_congr (mask_eq_empty_iff (Mask.within_inter hA _))

theorem isFull_mk : (Event.mk f A).isFull =
    decide ((Event.mk f A).members = f.elements.toFinset) := by
  rw [isFull, Bool.eq_iff_iff, beq_iff_eq, decide_eq_true_iff, ← members_full]
  exact mask_eq_iff hA (Mask.within_full _)

theorem size_mk : (Event.mk f A).size = (Event.mk f A).members.card := by
  rw [size_eq_length hA, members, List.toFinset_card_of_nodup (nodup_elements _)]

end Operations

section Named

variable {f : Frame} {hs : List Hypothesis}

theorem members_maskOf (hin : hs ⊆ f.elements) :
    (Event.mk f (f.maskOf hs)).members = hs.toFinset := by
  ext h
  rw [mem_members, List.mem_toFinset, Frame.has_maskOf hin, decide_eq_true_iff]
  exact and_iff_right_of_imp fun hh => hin hh

theorem existsUnique_members {S : Finset Hypothesis} (hS : S ⊆ f.elements.toFinset) :
    ∃! e, Inside f e ∧ e.members = S := by
  have hin : S.toList ⊆ f.elements := fun h hh => List.mem_toFinset.1 (hS (Finset.mem_toList.1 hh))
  have hinside : Inside f ⟨f, f.maskOf S.toList⟩ := ⟨rfl, Frame.within_maskOf hin⟩
  have hmembers : (Event.mk f (f.maskOf S.toList)).members = S := by
    rw [members_maskOf hin, Finset.toList_toFinset]
  refine ⟨_, ⟨hinside, hmembers⟩, fun e he => (he.1.eq_iff hinside).2 ?_⟩
  rw [hmembers, he.2]

end Named

/-- Inside a frame events are sets of hypotheses: the members of an event name it, and hypotheses in
any order and with repetitions name the event with just these members, which lists them once and in
canonical order. Every set of hypotheses of the frame is the members of one event. On such events
intersection, union, inclusion, overlap, equality and membership are those of sets, an event is full
when all hypotheses are its members, and its size is how many they are. -/
theorem sets_of_hypotheses {α : Type} [Scalar α] (f : Frame) :
    (∀ e, Inside f e → ∀ values : List (Value α), Hypothesis.Writes values e.elements →
      ofValue f (.list values) = .ok e) ∧
    (∀ hs ⊆ f.elements, ∀ values : List (Value α), Hypothesis.Writes values hs →
      ∃ e, ofValue f (.list values) = .ok e ∧ Inside f e ∧
        e.elements.Perm hs.dedup ∧ e.elements.Pairwise (· < ·)) ∧
    (∀ S ⊆ f.elements.toFinset, ∃! e, Inside f e ∧ e.members = S) ∧
    ∀ d e, Inside f d → Inside f e →
      (∃ c, (d.inter e : Except (Fault α) Event) = .ok c ∧ Inside f c ∧
        c.members = d.members ∩ e.members) ∧
      (∃ c, (d.union e : Except (Fault α) Event) = .ok c ∧ Inside f c ∧
        c.members = d.members ∪ e.members) ∧
      (d.isSubset e : Except (Fault α) Bool) = .ok (decide (d.members ⊆ e.members)) ∧
      (d.meets e : Except (Fault α) Bool) = .ok (decide (d.members ∩ e.members).Nonempty) ∧
      d.equals (.event e : Value α) = .ok (decide (d.members = e.members)) ∧
      (∀ h, d.contains h = decide (h ∈ d.members)) ∧
      d.isFull = decide (d.members = f.elements.toFinset) ∧
      d.size = d.members.card := by
  refine ⟨fun e he values hw => ?_, fun hs hin values hw => ?_, fun S hS => existsUnique_members hS,
    fun d e hd he => ?_⟩
  · have hin : e.elements ⊆ f.elements := fun h hh => he.frame ▸ (mem_elements.1 hh).1
    obtain ⟨e', hvalue, he', hmem⟩ := exists_ofValue hin hw
    rw [hvalue, (he'.eq_iff he).2]
    ext h
    rw [members, members, List.mem_toFinset, List.mem_toFinset, hmem]
  · obtain ⟨e, hvalue, he, hmem⟩ := exists_ofValue hin hw
    refine ⟨e, hvalue, he, ?_, sorted_elements e⟩
    rw [List.perm_ext_iff_of_nodup (nodup_elements e) (List.nodup_dedup hs)]
    simp only [hmem, List.mem_dedup, implies_true]
  · have hequals : d.equals (.event e : Value α) = .ok (decide (d.members = e.members)) :=
      congrArg Except.ok (decide_eq_decide.2 (hd.eq_iff he))
    obtain ⟨A, rfl, hA⟩ := hd.exists_mask
    obtain ⟨B, rfl, hB⟩ := he.exists_mask
    refine ⟨⟨_, both_mk _, ⟨rfl, Mask.within_inter hA _⟩, members_inter⟩,
      ⟨_, both_mk _, ⟨rfl, Mask.within_union hA hB⟩, members_union⟩,
      (both_mk _).trans (congrArg Except.ok (diff_beq_empty hA)),
      (both_mk _).trans (congrArg Except.ok (inter_bne_empty hA)), hequals, fun h => ?_,
      isFull_mk hA, size_mk hA⟩
    rw [contains, List.contains_eq_mem, members]
    simp only [List.mem_toFinset]

/-- Two hypotheses, one of them twice, name an event that lists each of them once. It is named by
what it lists, and does not meet the only event of the third hypothesis. -/
theorem sets_of_hypotheses_mixed : ∃ e,
    ofValue mixedFrame (.list [.text "é", .ofNat 2, .text "é"] : Value Float) = .ok e ∧
    e.elements.Perm [.number 2, .name "é"] ∧
    ofValue mixedFrame (.list [.ofNat 2, .text "é"] : Value Float) = .ok ⟨mixedFrame, .finite 5⟩ ∧
    (∃! d, Inside mixedFrame d ∧ d.members = {.name "b"}) ∧
    ((Event.mk mixedFrame (.finite 5)).meets ⟨mixedFrame, .finite 2⟩ : Except (Fault Float) Bool) =
      .ok false := by
  obtain ⟨hagain, hnamed, hunique, halgebra⟩ := sets_of_hypotheses (α := Float) mixedFrame
  obtain ⟨e, he, -, hperm, -⟩ := hnamed [.name "é", .number 2, .name "é"] (by decide)
    [.text "é", .ofNat 2, .text "é"] rfl
  have hinside : Inside mixedFrame ⟨mixedFrame, .finite 5⟩ := ⟨rfl, by decide⟩
  obtain ⟨-, -, -, hmeets, -⟩ := halgebra _ ⟨mixedFrame, .finite 2⟩ hinside ⟨rfl, by decide⟩
  exact ⟨e, he, hperm, hagain _ hinside [.ofNat 2, .text "é"] rfl, hunique _ (by decide),
    hmeets.trans (congrArg Except.ok (by decide))⟩

end Event

end Evidence
