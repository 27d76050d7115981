import Mathlib
import Evidence.Proofs.Naming

namespace Evidence

/-- Another name for each hypothesis of a frame, so that the new names make another frame. -/
structure Renaming (f g : Frame) where
  rename : Hypothesis → Hypothesis
  inj : ∀ h ∈ f.elements, ∀ k ∈ f.elements, rename h = rename k → h = k
  onto : ∀ k, k ∈ g.elements ↔ ∃ h ∈ f.elements, rename h = k

namespace Renaming

variable {f g : Frame}

instance : CoeFun (Renaming f g) fun _ => Hypothesis → Hypothesis := ⟨rename⟩

variable (ρ : Renaming f g)

theorem mem {h : Hypothesis} (hh : h ∈ f.elements) : ρ h ∈ g.elements := (ρ.onto _).2 ⟨h, hh, rfl⟩

theorem map_subset {hs : List Hypothesis} (hin : hs ⊆ f.elements) : hs.map ρ ⊆ g.elements :=
  List.forall_mem_map.2 fun _ hh => ρ.mem (hin hh)

theorem mem_map_iff {hs : List Hypothesis} (hin : hs ⊆ f.elements) {h : Hypothesis}
    (hh : h ∈ f.elements) : ρ h ∈ hs.map ρ ↔ h ∈ hs := by
  rw [List.mem_map]
  constructor
  · rintro ⟨k, hk, heq⟩
    rwa [← ρ.inj k (hin hk) h hh heq]
  · exact fun hh => ⟨h, hh, rfl⟩

def image (A : Mask) : Mask := g.maskOf ((Event.mk f A).elements.map ρ)

theorem elements_subset (A : Mask) : (Event.mk f A).elements ⊆ f.elements :=
  fun _ hh => (Event.mem_elements.1 hh).1

theorem within_image (A : Mask) : (ρ.image A).within g.size = true :=
  Frame.within_maskOf (ρ.map_subset (elements_subset A))

theorem has_image (A : Mask) {h : Hypothesis} (hh : h ∈ f.elements) :
    (ρ.image A).has (g.index (ρ h)) = A.has (f.index h) := by
  rw [image, Frame.has_maskOf (ρ.map_subset (elements_subset A)), Bool.eq_iff_iff,
    decide_eq_true_iff, ρ.mem_map_iff (elements_subset A) hh, Event.mem_elements]
  exact and_iff_right hh

theorem image_eq {A B : Mask} (hB : B.within g.size = true)
    (h : ∀ k ∈ f.elements, B.has (g.index (ρ k)) = A.has (f.index k)) : B = ρ.image A := by
  refine Frame.mask_ext hB (ρ.within_image A) fun k hk => ?_
  obtain ⟨l, hl, rfl⟩ := (ρ.onto k).1 hk
  rw [h l hl, ρ.has_image A hl]

theorem image_inj {A B : Mask} (hA : A.within f.size = true) (hB : B.within f.size = true)
    (h : ρ.image A = ρ.image B) : A = B := by
  refine Frame.mask_ext hA hB fun k hk => ?_
  rw [← ρ.has_image A hk, ← ρ.has_image B hk, h]

theorem exists_image {B : Mask} (hB : B.within g.size = true) :
    ∃ A, A.within f.size = true ∧ ρ.image A = B := by
  have hsub : (f.elements.filter fun h => B.has (g.index (ρ h))) ⊆ f.elements :=
    List.filter_subset_self _
  refine ⟨_, Frame.within_maskOf hsub, (ρ.image_eq hB fun k hk => ?_).symm⟩
  rw [Frame.has_maskOf hsub, Bool.eq_iff_iff, decide_eq_true_iff, List.mem_filter]
  exact (and_iff_right hk).symm

theorem image_empty : ρ.image .empty = .empty :=
  (ρ.image_eq (Mask.within_empty _) fun k _ => by simp).symm

theorem image_eq_empty_iff {A : Mask} (hA : A.within f.size = true) :
    ρ.image A = .empty ↔ A = .empty := by
  refine ⟨fun h => ρ.image_inj hA (Mask.within_empty _) (h.trans ρ.image_empty.symm), ?_⟩
  rintro rfl
  exact ρ.image_empty

theorem image_full : ρ.image f.full = g.full := by
  have hin : g.full.within g.size = true := Mask.within_full _
  refine (ρ.image_eq hin fun k hk => ?_).symm
  rw [Frame.has_full_index hk, Frame.has_full_index (ρ.mem hk)]

theorem image_inter (A B : Mask) : ρ.image (A.inter B) = (ρ.image A).inter (ρ.image B) := by
  refine (ρ.image_eq (Mask.within_inter (ρ.within_image A) _) fun k hk => ?_).symm
  rw [Mask.has_inter, ρ.has_image A hk, ρ.has_image B hk, Mask.has_inter]

theorem image_diff (A B : Mask) : ρ.image (A.diff B) = (ρ.image A).diff (ρ.image B) := by
  have hin : ((ρ.image A).diff (ρ.image B)).within g.size = true :=
    Mask.within_inter (ρ.within_image A) _
  refine (ρ.image_eq hin fun k hk => ?_).symm
  rw [Mask.has_diff, ρ.has_image A hk, ρ.has_image B hk, Mask.has_diff]

theorem image_meet {ms : List Mask} (hne : ms ≠ []) :
    Mask.meet (ms.map ρ.image) = ρ.image (Mask.meet ms) := by
  have hin : ∀ B ∈ ms.map ρ.image, B.within g.size = true :=
    List.forall_mem_map.2 fun A _ => ρ.within_image A
  refine ρ.image_eq (Mask.within_meet hin (by simpa using hne)) fun k hk => ?_
  rw [Mask.has_meet, Mask.has_meet, List.all_map]
  exact congrArg ms.all (funext fun A => ρ.has_image A hk)

theorem image_join (ms : List Mask) : Mask.join (ms.map ρ.image) = ρ.image (Mask.join ms) := by
  have hin : ∀ B ∈ ms.map ρ.image, B.within g.size = true :=
    List.forall_mem_map.2 fun A _ => ρ.within_image A
  refine ρ.image_eq (Mask.within_join hin) fun k hk => ?_
  rw [Mask.has_join, Mask.has_join, List.any_map]
  exact congrArg ms.any (funext fun A => ρ.has_image A hk)

theorem maskOf_map {hs : List Hypothesis} (hin : hs ⊆ f.elements) :
    g.maskOf (hs.map ρ) = ρ.image (f.maskOf hs) := by
  refine ρ.image_eq (Frame.within_maskOf (ρ.map_subset hin)) fun k hk => ?_
  rw [Frame.has_maskOf (ρ.map_subset hin), Frame.has_maskOf hin]
  exact decide_eq_decide.2 (ρ.mem_map_iff hin hk)

theorem elements_perm : (f.elements.map ρ).Perm g.elements := by
  refine (List.perm_ext_iff_of_nodup ?_ g.nodup_elements).2 fun k => ?_
  · exact f.nodup_elements.map_on ρ.inj
  · rw [List.mem_map, ρ.onto]

theorem card_image {A : Mask} (hA : A.within f.size = true) : (ρ.image A).card = A.card := by
  have hf : A.card = (Event.mk f A).elements.length := Event.size_eq_length (e := ⟨f, A⟩) hA
  have hg : (ρ.image A).card = (Event.mk g (ρ.image A)).elements.length :=
    Event.size_eq_length (e := ⟨g, ρ.image A⟩) (ρ.within_image A)
  rw [hf, hg, Event.elements_eq_filter, Event.elements_eq_filter, ← List.countP_eq_length_filter,
    ← List.countP_eq_length_filter, ← ρ.elements_perm.countP_eq, List.countP_map]
  exact List.countP_congr fun h hh => by simp [ρ.has_image A hh]

end Renaming

end Evidence
