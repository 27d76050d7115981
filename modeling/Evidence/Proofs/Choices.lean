import Mathlib
import Evidence.Proofs.TallyIntegral

namespace Evidence.Choices

variable {κ : Type}

/-- The choices with their weights, the first tally running fastest. -/
def weighed (ts : List (Tally κ ℚ)) : Tally (List κ) ℚ :=
  ts.sections.map fun c => (c.map (·.1), (c.map (·.2)).prod)

def integral (ts : List (Tally κ ℚ)) (g : List κ → ℚ) : ℚ := (weighed ts).integral g

def IsChoice (ts : List (Tally κ ℚ)) (ks : List κ) : Prop :=
  List.Forall₂ (fun k t => k ∈ Tally.keys t) ks ts

@[simp] theorem integral_nil (g : List κ → ℚ) : integral [] g = g [] := by
  simp [integral, weighed, List.sections]

theorem weighed_cons (t : Tally κ ℚ) (ts : List (Tally κ ℚ)) :
    weighed (t :: ts) = (weighed ts).flatMap fun c => t.map fun e => (e.1 :: c.1, e.2 * c.2) := by
  simp only [weighed, List.sections, List.map_flatMap, List.flatMap_map, List.map_map,
    Function.comp_def, List.map_cons, List.prod_cons]

theorem integral_cons (t : Tally κ ℚ) (ts : List (Tally κ ℚ)) (g : List κ → ℚ) :
    integral (t :: ts) g = t.integral fun k => integral ts fun ks => g (k :: ks) := by
  have hchoice (c : List κ × ℚ) : Tally.integral (t.map fun e => (e.1 :: c.1, e.2 * c.2)) g =
      (t.integral fun k => g (k :: c.1)) * c.2 := by
    rw [← Tally.integral_mul_right, Tally.integral, List.map_map]
    apply congrArg List.sum
    apply List.map_congr_left
    intro e _
    simp only [Function.comp_apply]
    ring
  unfold integral
  rw [weighed_cons, Tally.integral_flatMap]
  simp only [hchoice]
  exact Tally.integral_swap _ _ fun ks k => g (k :: ks)

theorem IsChoice.ne_nil {ts : List (Tally κ ℚ)} {ks : List κ} (h : IsChoice ts ks) (hts : ts ≠ []) :
    ks ≠ [] := by
  intro hks
  subst hks
  exact hts (List.forall₂_nil_left_iff.1 h)

theorem IsChoice.exists_mem {ts : List (Tally κ ℚ)} {ks : List κ} (h : IsChoice ts ks) {k : κ}
    (hk : k ∈ ks) : ∃ t ∈ ts, k ∈ Tally.keys t := by
  induction h with
  | nil => exact absurd hk List.not_mem_nil
  | cons hj _ ih =>
      rcases List.mem_cons.1 hk with rfl | hk
      · exact ⟨_, List.mem_cons_self .., hj⟩
      · obtain ⟨t, ht, hk⟩ := ih hk
        exact ⟨t, List.mem_cons_of_mem _ ht, hk⟩

theorem mem_keys_weighed {ts : List (Tally κ ℚ)} {ks : List κ} :
    ks ∈ (weighed ts).keys ↔ IsChoice ts ks := by
  induction ts generalizing ks with
  | nil => simp [weighed, Tally.keys, IsChoice, List.sections]
  | cons t ts ih =>
      rw [IsChoice, List.forall₂_cons_right_iff, weighed_cons]
      constructor
      · intro h
        obtain ⟨p, hp, rfl⟩ := List.mem_map.1 h
        obtain ⟨c, hc, hp⟩ := List.mem_flatMap.1 hp
        obtain ⟨e, he, rfl⟩ := List.mem_map.1 hp
        exact ⟨e.1, c.1, List.mem_map_of_mem he, ih.1 (List.mem_map_of_mem hc), rfl⟩
      · rintro ⟨k, ls, hk, hls, rfl⟩
        obtain ⟨e, he, rfl⟩ := List.mem_map.1 hk
        obtain ⟨c, hc, rfl⟩ := List.mem_map.1 (ih.2 hls)
        exact List.mem_map.2 ⟨_, List.mem_flatMap.2 ⟨c, hc, List.mem_map_of_mem he⟩, rfl⟩

theorem integral_congr {ts : List (Tally κ ℚ)} {g h : List κ → ℚ}
    (hgh : ∀ ks, IsChoice ts ks → g ks = h ks) : integral ts g = integral ts h :=
  Tally.integral_congr fun ks hks => hgh ks (mem_keys_weighed.1 hks)

theorem integral_mul_left (ts : List (Tally κ ℚ)) (c : ℚ) (g : List κ → ℚ) :
    (integral ts fun ks => c * g ks) = c * integral ts g := Tally.integral_mul_left _ c g

theorem integral_div (ts : List (Tally κ ℚ)) (g : List κ → ℚ) (c : ℚ) :
    (integral ts fun ks => g ks / c) = integral ts g / c := Tally.integral_div _ g c

theorem integral_plus (ts : List (Tally κ ℚ)) (g h : List κ → ℚ) :
    (integral ts fun ks => g ks + h ks) = integral ts g + integral ts h :=
  Tally.integral_plus _ g h

theorem integral_append (ts us : List (Tally κ ℚ)) (g : List κ → ℚ) :
    integral (ts ++ us) g = integral ts fun ks => integral us fun ls => g (ks ++ ls) := by
  induction ts generalizing g with
  | nil => simp
  | cons t ts ih => simp only [List.cons_append, integral_cons, ih]

/-- The order of the tallies does not matter to a function to which the order of the keys does not
matter. -/
theorem integral_perm {ts us : List (Tally κ ℚ)} (h : ts.Perm us) {g : List κ → ℚ}
    (hg : ∀ ks ls, ks.Perm ls → g ks = g ls) : integral ts g = integral us g := by
  induction h generalizing g with
  | nil => rfl
  | cons t _ ih =>
      rw [integral_cons, integral_cons]
      refine Tally.integral_congr fun k _ => ih fun ks ls hks => ?_
      exact hg _ _ (hks.cons k)
  | swap t u ts =>
      simp only [integral_cons]
      rw [Tally.integral_swap]
      refine Tally.integral_congr fun j _ => Tally.integral_congr fun k _ => ?_
      exact integral_congr fun ks _ => hg _ _ (.swap j k ks)
  | trans _ _ ih₁ ih₂ => exact (ih₁ hg).trans (ih₂ hg)

theorem integral_forall₂ {κ' : Type} {φ : κ → κ'} {ts : List (Tally κ ℚ)} {us : List (Tally κ' ℚ)}
    (h : List.Forall₂ (Tally.Carried φ) ts us) (g : List κ' → ℚ) :
    integral us g = integral ts fun ks => g (ks.map φ) := by
  induction h generalizing g with
  | nil => simp
  | cons htu _ ih =>
      rw [integral_cons, integral_cons, htu]
      exact Tally.integral_congr fun k _ => ih fun ks => g (φ k :: ks)

theorem integral_one (ts : List (Tally κ ℚ)) :
    (integral ts fun _ => 1) = (ts.map Tally.total).prod := by
  induction ts with
  | nil => simp
  | cons t ts ih =>
      rw [integral_cons, ih, List.map_cons, List.prod_cons, Tally.total_eq_integral,
        ← Tally.integral_mul_right]
      simp only [one_mul]

theorem integral_prod (ts : List (Tally κ ℚ)) (g : κ → ℚ) :
    (integral ts fun ks => (ks.map g).prod) = (ts.map fun t => t.integral g).prod := by
  induction ts with
  | nil => simp
  | cons t ts ih =>
      simp only [integral_cons, List.map_cons, List.prod_cons, integral_mul_left, ih]
      rw [Tally.integral_mul_right]

section Positive

variable {ts : List (Tally κ ℚ)} (pos : ∀ t ∈ ts, ∀ e ∈ t, 0 < e.2)
include pos

theorem pos_weighed : ∀ c ∈ weighed ts, 0 < c.2 := by
  induction ts with
  | nil => simp [weighed, List.sections]
  | cons t ts ih =>
      obtain ⟨ht, hts⟩ := List.forall_mem_cons.1 pos
      rw [weighed_cons, List.forall_mem_flatMap]
      intro c hc
      exact List.forall_mem_map.2 fun e he => mul_pos (ht e he) (ih hts c hc)

theorem integral_mono {g h : List κ → ℚ} (hgh : ∀ ks, IsChoice ts ks → g ks ≤ h ks) :
    integral ts g ≤ integral ts h :=
  Tally.integral_mono (fun c hc => (pos_weighed pos c hc).le) fun ks hks =>
    hgh ks (mem_keys_weighed.1 hks)

theorem integral_nonneg {g : List κ → ℚ} (hg : ∀ ks, IsChoice ts ks → 0 ≤ g ks) :
    0 ≤ integral ts g :=
  Tally.integral_nonneg (fun c hc => (pos_weighed pos c hc).le) fun ks hks =>
    hg ks (mem_keys_weighed.1 hks)

theorem integral_pos {g : List κ → ℚ} (hg : ∀ ks, IsChoice ts ks → 0 ≤ g ks) {ks : List κ}
    (hks : IsChoice ts ks) (h : 0 < g ks) : 0 < integral ts g :=
  Tally.integral_pos_of_mem (pos_weighed pos) (fun ls hls => hg ls (mem_keys_weighed.1 hls))
    (mem_keys_weighed.2 hks) h

end Positive

end Evidence.Choices
