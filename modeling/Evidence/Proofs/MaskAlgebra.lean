import Mathlib
import Evidence.Mask

namespace Evidence.Mask

theorem finite_separated (bits gaps : Nat) : ∃ i, (finite bits).has i ≠ (cofinite gaps).has i := by
  refine ⟨bits + gaps, ?_⟩
  have hb : bits.testBit (bits + gaps) = false :=
    Nat.testBit_lt_two_pow (lt_of_le_of_lt (Nat.le_add_right bits gaps) Nat.lt_two_pow_self)
  have hg : gaps.testBit (bits + gaps) = false :=
    Nat.testBit_lt_two_pow (lt_of_le_of_lt (Nat.le_add_left gaps bits) Nat.lt_two_pow_self)
  simp [has, hb, hg]

theorem ext {m n : Mask} (h : ∀ i, m.has i = n.has i) : m = n := by
  cases m with
  | finite a =>
      cases n with
      | finite b => exact congrArg finite (Nat.eq_of_testBit_eq h)
      | cofinite b =>
          obtain ⟨i, hi⟩ := finite_separated a b
          exact absurd (h i) hi
  | cofinite a =>
      cases n with
      | finite b =>
          obtain ⟨i, hi⟩ := finite_separated b a
          exact absurd (h i).symm hi
      | cofinite b =>
          refine congrArg cofinite (Nat.eq_of_testBit_eq fun i => ?_)
          have hi := h i
          simp only [has] at hi
          exact Bool.not_inj hi

theorem ofInt_toInt (m : Mask) : ofInt m.toInt = m := by
  cases m with
  | finite bits => rfl
  | cofinite gaps =>
      have hgaps : (-1 - gaps : Int) = .negSucc gaps := by
        rw [Int.negSucc_eq]
        omega
      rw [toInt, hgaps, ofInt]

theorem toInt_injective : Function.Injective toInt := Function.LeftInverse.injective ofInt_toInt

theorem inter_comm (m n : Mask) : m.inter n = n.inter m :=
  ext fun i => by rw [has_inter, has_inter, Bool.and_comm]

theorem empty_inter (m : Mask) : empty.inter m = empty :=
  ext fun i => by simp

theorem eq_empty_iff (m : Mask) : m = empty ↔ ∀ i, m.has i = false := by
  refine ⟨fun h i => by rw [h, has_empty], fun h => ext fun i => ?_⟩
  rw [h, has_empty]

theorem ne_empty_iff (m : Mask) : m ≠ empty ↔ ∃ i, m.has i = true := by
  rw [Ne, eq_empty_iff, not_forall]
  simp only [Bool.not_eq_false]

theorem diff_eq_empty_iff (m k : Mask) : m.diff k = empty ↔ ∀ i, m.has i = true → k.has i = true := by
  simp [eq_empty_iff]

theorem within_iff (m : Mask) (n : Nat) : m.within n = true ↔ ∀ i, m.has i = true → i < n := by
  cases m with
  | finite bits =>
      simp only [within, has, Nat.one_shiftLeft, decide_eq_true_eq]
      constructor
      · intro h i hi
        by_contra hn
        rw [Nat.testBit_lt_two_pow (h.trans_le (Nat.pow_le_pow_right Nat.two_pos (not_lt.1 hn)))] at hi
        exact Bool.noConfusion hi
      · intro h
        apply Nat.lt_pow_two_of_testBit bits
        intro i hi
        by_contra hb
        exact absurd (h i (by simpa using hb)) (not_lt.2 hi)
  | cofinite gaps =>
      simp only [within, Bool.false_eq_true, false_iff, not_forall]
      refine ⟨n + gaps, ?_, by omega⟩
      have hg : gaps.testBit (n + gaps) = false :=
        Nat.testBit_lt_two_pow (lt_of_le_of_lt (Nat.le_add_left gaps n) Nat.lt_two_pow_self)
      simp [has, hg]

theorem eq_finite_of_within {m : Mask} {n : Nat} (h : m.within n = true) :
    ∃ b < 2 ^ n, m = finite b := by
  cases m with
  | finite b =>
      refine ⟨b, ?_, rfl⟩
      simpa only [within, Nat.one_shiftLeft, decide_eq_true_eq] using h
  | cofinite gaps => exact Bool.noConfusion h

theorem within_full (n : Nat) : (full n).within n = true := by
  rw [within_iff]
  intro i hi
  simpa using hi

theorem within_empty (n : Nat) : empty.within n = true := by
  rw [within_iff]
  simp

theorem within_singleton {i n : Nat} (h : i < n) : (singleton i).within n = true := by
  rw [within_iff]
  intro j hj
  obtain rfl : i = j := by simpa using hj
  exact h

theorem within_union {m k : Mask} {n : Nat} (hm : m.within n = true) (hk : k.within n = true) :
    (m.union k).within n = true := by
  rw [within_iff] at hm hk ⊢
  intro i hi
  rw [has_union, Bool.or_eq_true] at hi
  exact hi.elim (hm i) (hk i)

theorem within_inter {m : Mask} {n : Nat} (hm : m.within n = true) (k : Mask) :
    (m.inter k).within n = true := by
  rw [within_iff] at hm ⊢
  intro i hi
  rw [has_inter, Bool.and_eq_true] at hi
  exact hm i hi.1

theorem within_diff {m : Mask} {n : Nat} (hm : m.within n = true) (k : Mask) :
    (m.diff k).within n = true :=
  within_inter hm k.complement

/-- The positions that all masks of a list have. No masks at all rule nothing out. -/
def meet (ms : List Mask) : Mask := ms.foldl inter (cofinite 0)

def join (ms : List Mask) : Mask := ms.foldl union empty

theorem has_foldl_inter (ms : List Mask) (m : Mask) (i : Nat) :
    (ms.foldl inter m).has i = (m.has i && ms.all (·.has i)) := by
  induction ms generalizing m with
  | nil => simp
  | cons k ms ih => rw [List.foldl_cons, ih, has_inter, List.all_cons, Bool.and_assoc]

theorem has_foldl_union (ms : List Mask) (m : Mask) (i : Nat) :
    (ms.foldl union m).has i = (m.has i || ms.any (·.has i)) := by
  induction ms generalizing m with
  | nil => simp
  | cons k ms ih => rw [List.foldl_cons, ih, has_union, List.any_cons, Bool.or_assoc]

@[simp] theorem has_meet (ms : List Mask) (i : Nat) : (meet ms).has i = ms.all (·.has i) := by
  rw [meet, has_foldl_inter]
  simp [has]

@[simp] theorem has_join (ms : List Mask) (i : Nat) : (join ms).has i = ms.any (·.has i) := by
  rw [join, has_foldl_union, has_empty, Bool.false_or]

theorem meet_singleton (m : Mask) : meet [m] = m := ext fun i => by simp

theorem meet_pair (m n : Mask) : meet [m, n] = m.inter n := ext fun i => by simp

theorem meet_append (ms ns : List Mask) : meet (ms ++ ns) = (meet ms).inter (meet ns) :=
  ext fun i => by simp

theorem diff_meet_eq_empty_iff (m : Mask) (ms : List Mask) :
    m.diff (meet ms) = empty ↔ ∀ k ∈ ms, m.diff k = empty := by
  simp only [diff_eq_empty_iff, has_meet, List.all_eq_true]
  exact ⟨fun h k hk i hi => h i hi k hk, fun h i hi k hk => h k hk i hi⟩

theorem meet_perm {ms ns : List Mask} (h : ms.Perm ns) : meet ms = meet ns :=
  ext fun i => by rw [has_meet, has_meet, h.all_eq]

theorem join_perm {ms ns : List Mask} (h : ms.Perm ns) : join ms = join ns :=
  ext fun i => by rw [has_join, has_join, h.any_eq]

section Within

variable {ms : List Mask} {n : Nat} (inside : ∀ m ∈ ms, m.within n = true)
include inside

theorem within_meet (hne : ms ≠ []) : (meet ms).within n = true := by
  obtain ⟨m, ms, rfl⟩ := List.exists_cons_of_ne_nil hne
  rw [within_iff]
  intro i hi
  rw [has_meet, List.all_cons, Bool.and_eq_true] at hi
  exact (within_iff m n).1 (inside m (List.mem_cons_self ..)) i hi.1

theorem within_join : (join ms).within n = true := by
  rw [within_iff]
  intro i hi
  rw [has_join, List.any_eq_true] at hi
  obtain ⟨m, hm, hi⟩ := hi
  exact (within_iff m n).1 (inside m hm) i hi

theorem foldl_inter_full (hne : ms ≠ []) : ms.foldl inter (full n) = meet ms := by
  apply ext
  intro i
  rw [has_foldl_inter, has_meet, has_full]
  cases hi : ms.all (·.has i) with
  | false => rw [Bool.and_false]
  | true =>
      have hn := (within_iff _ n).1 (within_meet inside hne) i (by rw [has_meet, hi])
      simp [hn]

end Within

theorem join_ne_empty {ms : List Mask} (hne : ms ≠ []) (h : ∀ m ∈ ms, m ≠ empty) :
    join ms ≠ empty := by
  obtain ⟨m, ms, rfl⟩ := List.exists_cons_of_ne_nil hne
  obtain ⟨i, hi⟩ := (ne_empty_iff m).1 (h m (List.mem_cons_self ..))
  rw [ne_empty_iff]
  exact ⟨i, by rw [has_join, List.any_cons, hi, Bool.true_or]⟩

end Evidence.Mask
