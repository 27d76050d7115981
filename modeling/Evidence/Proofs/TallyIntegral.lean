import Mathlib
import Evidence.Tally
import Evidence.Proofs.Rational

namespace Evidence.Tally

variable {κ ι : Type}

def integral (t : Tally κ ℚ) (g : κ → ℚ) : ℚ := (t.map fun e => g e.1 * e.2).sum

@[simp] theorem integral_nil (g : κ → ℚ) : integral [] g = 0 := rfl

@[simp] theorem integral_cons (e : κ × ℚ) (t : Tally κ ℚ) (g : κ → ℚ) :
    integral (e :: t) g = g e.1 * e.2 + integral t g := List.sum_cons

@[simp] theorem integral_append (t u : Tally κ ℚ) (g : κ → ℚ) :
    integral (t ++ u) g = integral t g + integral u g := by
  rw [integral, List.map_append, List.sum_append, integral, integral]

theorem integral_congr {t : Tally κ ℚ} {g h : κ → ℚ} (hgh : ∀ k ∈ t.keys, g k = h k) :
    integral t g = integral t h := by
  apply congrArg List.sum
  apply List.map_congr_left
  intro e he
  rw [hgh e.1 (List.mem_map_of_mem he)]

theorem integral_mul_left (t : Tally κ ℚ) (c : ℚ) (g : κ → ℚ) :
    (integral t fun k => c * g k) = c * integral t g := by
  simp only [integral, mul_assoc, List.sum_map_mul_left]

theorem integral_mul_right (t : Tally κ ℚ) (g : κ → ℚ) (c : ℚ) :
    (integral t fun k => g k * c) = integral t g * c := by
  simp only [mul_comm _ c, integral_mul_left]

theorem integral_div (t : Tally κ ℚ) (g : κ → ℚ) (c : ℚ) :
    (integral t fun k => g k / c) = integral t g / c := by
  simp only [div_eq_mul_inv, integral_mul_right]

theorem integral_plus (t : Tally κ ℚ) (g h : κ → ℚ) :
    (integral t fun k => g k + h k) = integral t g + integral t h := by
  simp only [integral, add_mul, List.sum_map_add]

@[simp] theorem integral_zero (t : Tally κ ℚ) : (integral t fun _ => 0) = 0 := by
  simp [integral]

theorem integral_finset_sum (t : Tally κ ℚ) (s : Finset ι) (g : ι → κ → ℚ) :
    (integral t fun k => ∑ i ∈ s, g i k) = ∑ i ∈ s, integral t (g i) := by
  induction t with
  | nil => simp
  | cons e t ih => simp only [integral_cons, ih, Finset.sum_add_distrib, Finset.sum_mul]

theorem integral_flatMap (xs : List ι) (t : ι → Tally κ ℚ) (g : κ → ℚ) :
    integral (xs.flatMap t) g = (xs.map fun x => integral (t x) g).sum := by
  induction xs with
  | nil => rfl
  | cons x xs ih => rw [List.flatMap_cons, integral_append, ih, List.map_cons, List.sum_cons]

theorem integral_swap {κ' : Type} (t : Tally κ ℚ) (u : Tally κ' ℚ) (g : κ → κ' → ℚ) :
    (integral t fun j => integral u fun k => g j k) =
      integral u fun k => integral t fun j => g j k := by
  induction t with
  | nil => simp
  | cons e t ih =>
      simp only [integral_cons, ih]
      rw [integral_plus, integral_mul_right]

theorem count_le_count {p q : Prop} [Decidable p] [Decidable q] (h : p → q) :
    (if p then (1 : ℚ) else 0) ≤ if q then 1 else 0 := by
  by_cases hp : p
  · rw [if_pos hp, if_pos (h hp)]
  · rw [if_neg hp]
    split_ifs
    · exact zero_le_one
    · exact le_rfl

theorem integral_mono {t : Tally κ ℚ} (ht : ∀ e ∈ t, 0 ≤ e.2) {g h : κ → ℚ}
    (hgh : ∀ k ∈ t.keys, g k ≤ h k) : integral t g ≤ integral t h := by
  apply List.sum_le_sum
  intro e he
  exact mul_le_mul_of_nonneg_right (hgh e.1 (List.mem_map_of_mem he)) (ht e he)

theorem integral_nonneg {t : Tally κ ℚ} (ht : ∀ e ∈ t, 0 ≤ e.2) {g : κ → ℚ}
    (hg : ∀ k ∈ t.keys, 0 ≤ g k) : 0 ≤ integral t g := by
  rw [← integral_zero t]
  exact integral_mono ht hg

theorem integral_pos_of_mem {t : Tally κ ℚ} (ht : ∀ e ∈ t, 0 < e.2) {g : κ → ℚ}
    (hg : ∀ k ∈ t.keys, 0 ≤ g k) {k : κ} (hk : k ∈ t.keys) (hpos : 0 < g k) : 0 < integral t g := by
  obtain ⟨e, he, rfl⟩ := List.mem_map.1 hk
  refine (mul_pos hpos (ht e he)).trans_le (List.single_le_sum ?_ _ (List.mem_map_of_mem he))
  exact List.forall_mem_map.2 fun d hd => mul_nonneg (hg d.1 (List.mem_map_of_mem hd)) (ht d hd).le

theorem integral_pos {t : Tally κ ℚ} (ht : ∀ e ∈ t, 0 < e.2) (hne : t ≠ []) :
    0 < integral t fun _ => 1 := by
  obtain ⟨e, he⟩ := List.exists_mem_of_ne_nil t hne
  exact integral_pos_of_mem ht (fun _ _ => zero_le_one) (List.mem_map_of_mem he) one_pos

theorem total_eq_integral (t : Tally κ ℚ) : t.total = integral t fun _ => 1 := by
  simp only [total, sum_eq, values, integral, one_mul]

theorem total_perm {t u : Tally κ ℚ} (h : t.Perm u) : t.total = u.total := by
  rw [total_eq_integral, total_eq_integral]
  exact (h.map _).sum_eq

theorem totalOf_eq_integral (p : κ → Bool) (t : Tally κ ℚ) :
    t.totalOf p = integral t fun k => if p k then 1 else 0 := by
  rw [totalOf, sum_eq]
  induction t with
  | nil => rfl
  | cons e t ih =>
      rw [integral_cons, ← ih]
      cases hp : p e.1 with
      | false => simp [hp]
      | true => simp [hp]

theorem integral_map_div (t : Tally κ ℚ) (c : ℚ) (g : κ → ℚ) :
    integral (t.map fun e => (e.1, e.2 / c)) g = integral t g / c := by
  rw [← integral_div, integral, integral, List.map_map]
  apply congrArg List.sum
  apply List.map_congr_left
  intro e _
  simp only [Function.comp_apply]
  ring

theorem keys_map_div (t : Tally κ ℚ) (c : ℚ) :
    keys (t.map fun e => (e.1, e.2 / c)) = t.keys := by
  simp [keys, Function.comp_def]

/-- A tally whose keys were moved along a map, however the result is written: every sum over it is
one over the first tally. -/
def Carried {κ' : Type} (φ : κ → κ') (t : Tally κ ℚ) (u : Tally κ' ℚ) : Prop :=
  ∀ g, integral u g = integral t fun k => g (φ k)

theorem Carried.total {κ' : Type} {φ : κ → κ'} {t : Tally κ ℚ} {u : Tally κ' ℚ}
    (h : Carried φ t u) : u.total = t.total := by
  rw [total_eq_integral, h, total_eq_integral]

section Keys

variable [DecidableEq κ]

section Look

variable {α : Type} {t u : Tally κ α}

theorem get?_of_mem (ht : t.keys.Nodup) {e : κ × α} (he : e ∈ t) : t.get? e.1 = some e.2 := by
  induction t with
  | nil => exact absurd he List.not_mem_nil
  | cons d t ih =>
      obtain ⟨hd, ht⟩ := List.nodup_cons.1 ht
      rcases List.mem_cons.1 he with rfl | he
      · simp [get?]
      · have hne : d.1 ≠ e.1 := fun h => hd (List.mem_map.2 ⟨e, he, h.symm⟩)
        rw [get?, List.find?_cons_of_neg (by simpa using hne)]
        exact ih ht he

theorem get?_eq_none {k : κ} (h : k ∉ t.keys) : t.get? k = none := by
  rw [get?, Option.map_eq_none_iff, List.find?_eq_none]
  intro d hd
  simpa using fun hdk : d.1 = k => h (List.mem_map.2 ⟨d, hd, hdk⟩)

theorem get?_eq_some_iff (ht : t.keys.Nodup) {k : κ} {x : α} : t.get? k = some x ↔ (k, x) ∈ t := by
  constructor
  · intro h
    by_cases hk : k ∈ t.keys
    · obtain ⟨e, he, rfl⟩ := List.mem_map.1 hk
      obtain rfl := Option.some.inj ((get?_of_mem ht he).symm.trans h)
      exact he
    · rw [get?_eq_none hk] at h
      cases h
  · exact get?_of_mem ht

theorem perm_iff_get? (ht : t.keys.Nodup) (hu : u.keys.Nodup) :
    t.Perm u ↔ ∀ k, t.get? k = u.get? k := by
  rw [List.perm_ext_iff_of_nodup (ht.of_map _) (hu.of_map _)]
  constructor
  · intro h k
    apply Option.ext
    intro x
    rw [get?_eq_some_iff ht, get?_eq_some_iff hu]
    exact h (k, x)
  · intro h e
    rw [← get?_eq_some_iff ht, h, get?_eq_some_iff hu]

end Look

@[simp] theorem amount_nil (k : κ) : amount k ([] : Tally κ ℚ) = 0 := rfl

theorem amount_cons (k : κ) (e : κ × ℚ) (t : Tally κ ℚ) :
    amount k (e :: t) = if e.1 = k then e.2 else amount k t := by
  by_cases h : e.1 = k
  · simp [amount, get?, h]
  · simp [amount, get?, h]

theorem amount_eq_zero {k : κ} {t : Tally κ ℚ} (h : k ∉ t.keys) : amount k t = 0 := by
  rw [amount, get?_eq_none h, Option.getD_none]

theorem amount_eq_integral {t : Tally κ ℚ} (ht : t.keys.Nodup) (k : κ) :
    amount k t = integral t fun j => if j = k then 1 else 0 := by
  induction t with
  | nil => rfl
  | cons e t ih =>
      obtain ⟨he, ht⟩ := List.nodup_cons.1 ht
      rw [amount_cons, integral_cons, ← ih ht]
      by_cases h : e.1 = k
      · rw [if_pos h, if_pos h, amount_eq_zero (h ▸ he), one_mul, add_zero]
      · rw [if_neg h, if_neg h, zero_mul, zero_add]

theorem amount_of_mem {t : Tally κ ℚ} (ht : t.keys.Nodup) {e : κ × ℚ} (he : e ∈ t) :
    amount e.1 t = e.2 := by
  rw [amount, get?_of_mem ht he, Option.getD_some]

theorem map_amount_keys {t : Tally κ ℚ} (ht : t.keys.Nodup) :
    (t.keys.map fun k => (k, t.amount k)) = t := by
  conv_rhs => rw [← List.map_id t]
  rw [keys, List.map_map]
  exact List.map_congr_left fun e he => Prod.ext rfl (amount_of_mem ht he)

theorem integral_eq_sum {t : Tally κ ℚ} (ht : t.keys.Nodup) {s : Finset κ}
    (hs : ∀ k ∈ t.keys, k ∈ s) (g : κ → ℚ) : integral t g = ∑ k ∈ s, g k * amount k t := by
  calc integral t g
      = integral t fun j => ∑ k ∈ s, g k * if j = k then 1 else 0 := by
        apply integral_congr
        intro j hj
        simp [hs j hj]
    _ = ∑ k ∈ s, g k * amount k t := by
        simp only [integral_finset_sum, integral_mul_left, amount_eq_integral ht]

theorem Carried.amount {κ' : Type} [DecidableEq κ'] {φ : κ → κ'} {t : Tally κ ℚ} {u : Tally κ' ℚ}
    (h : Carried φ t u) (ht : t.keys.Nodup) (hu : u.keys.Nodup) {k : κ}
    (hk : ∀ j ∈ t.keys, φ j = φ k → j = k) : u.amount (φ k) = t.amount k := by
  rw [amount_eq_integral hu, amount_eq_integral ht, h]
  apply integral_congr
  intro j hj
  by_cases hjk : j = k
  · rw [hjk, if_pos rfl, if_pos rfl]
  · rw [if_neg hjk, if_neg (mt (hk j hj) hjk)]

theorem integral_eq_of_amounts {t u : Tally κ ℚ} (ht : t.keys.Nodup) (hu : u.keys.Nodup)
    (h : ∀ k, amount k t = amount k u) (g : κ → ℚ) : integral t g = integral u g := by
  rw [integral_eq_sum ht (s := (t.keys ++ u.keys).toFinset) (by simp +contextual),
    integral_eq_sum hu (s := (t.keys ++ u.keys).toFinset) (by simp +contextual)]
  simp only [h]

theorem integral_add (k : κ) (x : ℚ) (t : Tally κ ℚ) (g : κ → ℚ) :
    integral (add k x t) g = integral t g + g k * x := by
  induction t with
  | nil => simp [add]
  | cons e t ih =>
      obtain ⟨l, y⟩ := e
      by_cases h : l = k
      · subst l
        simp only [add, if_true, integral_cons]
        change g k * (y + x) + _ = _
        ring
      · simp only [add, if_neg h, integral_cons, ih, add_assoc]

theorem mem_keys_add (j k : κ) (x : ℚ) (t : Tally κ ℚ) :
    j ∈ (add k x t).keys ↔ j = k ∨ j ∈ t.keys := by
  induction t with
  | nil => simp [add, keys]
  | cons e t ih =>
      obtain ⟨l, y⟩ := e
      by_cases h : l = k
      · simp [add, h, keys]
      · simp only [keys] at ih
        simp only [add, if_neg h, keys, List.map_cons, List.mem_cons, ih]
        tauto

theorem nodup_keys_add (k : κ) (x : ℚ) {t : Tally κ ℚ} (ht : t.keys.Nodup) :
    (add k x t).keys.Nodup := by
  induction t with
  | nil => simp [add, keys]
  | cons e t ih =>
      obtain ⟨l, y⟩ := e
      obtain ⟨hl, ht⟩ := List.nodup_cons.1 ht
      by_cases h : l = k
      · simpa only [add, if_pos h, keys, List.map_cons] using List.nodup_cons.2 ⟨hl, ht⟩
      · rw [add, if_neg h]
        refine List.nodup_cons.2 ⟨?_, ih ht⟩
        rw [← keys, mem_keys_add]
        exact not_or.2 ⟨h, hl⟩

theorem pos_add {k : κ} {x : ℚ} {t : Tally κ ℚ} (hx : 0 < x) (ht : ∀ e ∈ t, 0 < e.2) :
    ∀ e ∈ add k x t, 0 < e.2 := by
  induction t with
  | nil => simpa [add] using hx
  | cons e t ih =>
      obtain ⟨l, y⟩ := e
      simp only [List.forall_mem_cons] at ht
      by_cases h : l = k
      · simp only [add, if_pos h, List.forall_mem_cons]
        exact ⟨add_pos ht.1 hx, ht.2⟩
      · simp only [add, if_neg h, List.forall_mem_cons]
        exact ⟨ht.1, ih ht.2⟩

theorem foldl_add_induction {α : Type} [Scalar α] {P : Tally κ α → Prop} {pairs : List (κ × α)}
    {t : Tally κ α} (ht : P t) (hadd : ∀ p ∈ pairs, ∀ u, P u → P (add p.1 p.2 u)) :
    P (pairs.foldl (fun t p => add p.1 p.2 t) t) := by
  induction pairs generalizing t with
  | nil => exact ht
  | cons p pairs ih =>
      refine ih (hadd p (List.mem_cons_self ..) t ht) fun q hq => ?_
      exact hadd q (List.mem_cons_of_mem _ hq)

theorem nodup_keys_collect (pairs : List (κ × ℚ)) : (collect pairs).keys.Nodup :=
  foldl_add_induction (P := fun t => t.keys.Nodup) List.nodup_nil
    fun p _ _ h => nodup_keys_add p.1 p.2 h

theorem pos_collect {pairs : List (κ × ℚ)} (h : ∀ p ∈ pairs, 0 < p.2) :
    ∀ e ∈ collect pairs, 0 < e.2 :=
  foldl_add_induction (P := fun t => ∀ e ∈ t, 0 < e.2) (by simp)
    fun p hp _ ht => pos_add (h p hp) ht

theorem mem_keys_foldl_add {k : κ} {pairs : List (κ × ℚ)} {t : Tally κ ℚ} :
    k ∈ (pairs.foldl (fun t p => add p.1 p.2 t) t).keys ↔ k ∈ keys pairs ∨ k ∈ t.keys := by
  induction pairs generalizing t with
  | nil => simp [keys]
  | cons p pairs ih =>
      have hkeys : k ∈ keys (p :: pairs) ↔ k = p.1 ∨ k ∈ keys pairs := List.mem_cons
      rw [List.foldl_cons, ih, mem_keys_add, or_left_comm, ← or_assoc, hkeys]

theorem mem_keys_collect {k : κ} {pairs : List (κ × ℚ)} :
    k ∈ (collect pairs).keys ↔ k ∈ keys pairs := by
  rw [collect, mem_keys_foldl_add]
  exact or_iff_left List.not_mem_nil

/-- Adding amounts up by key changes no sum. -/
theorem integral_collect (pairs : List (κ × ℚ)) (g : κ → ℚ) :
    integral (collect pairs) g = integral pairs g := by
  have h (t : Tally κ ℚ) : integral (pairs.foldl (fun t p => add p.1 p.2 t) t) g =
      integral t g + integral pairs g := by
    induction pairs generalizing t with
    | nil => simp
    | cons p pairs ih => rw [List.foldl_cons, ih, integral_add, integral_cons, add_assoc]
  rw [collect, h, integral_nil, zero_add]

end Keys

end Evidence.Tally
