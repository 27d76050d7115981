import Mathlib
import Evidence.MassFunction.Construction
import Evidence.Proofs.MaskAlgebra
import Evidence.Proofs.Outcome
import Evidence.Proofs.TallyIntegral

namespace Evidence

theorem Frame.full_ne_empty (f : Frame) : f.full ≠ .empty := by
  rw [Mask.ne_empty_iff]
  exact ⟨0, by simpa [Frame.full, Frame.size] using List.length_pos_iff.2 f.nonempty⟩

structure Tally.Supported (f : Frame) (t : Tally Mask ℚ) : Prop where
  inside : ∀ e ∈ t, e.1 ≠ .empty ∧ e.1.within f.size = true
  distinct : t.keys.Nodup
  pos : ∀ e ∈ t, 0 < e.2

theorem Tally.Supported.map_div {f : Frame} {t : Tally Mask ℚ} (h : t.Supported f) {c : ℚ}
    (hc : 0 < c) : Tally.Supported f (t.map fun e => (e.1, e.2 / c)) where
  inside := List.forall_mem_map.2 h.inside
  distinct := by rw [Tally.keys_map_div]; exact h.distinct
  pos := List.forall_mem_map.2 fun e he => div_pos (h.pos e he) hc

theorem Tally.Supported.key_within {f : Frame} {t : Tally Mask ℚ} (h : t.Supported f) {A : Mask}
    (hA : A ∈ t.keys) : A.within f.size = true := by
  obtain ⟨e, he, rfl⟩ := List.mem_map.1 hA
  exact (h.inside e he).2

namespace MassFunction

theorem Valid.supported {m : MassFunction ℚ} (h : m.Valid) : m.masses.Supported m.frame where
  inside := h.inside
  distinct := h.distinct
  pos e he := (h.positive e he).1

theorem Valid.total_near {m : MassFunction ℚ} (h : m.Valid) : |m.total - 1| ≤ m.epsilon := by
  rw [← distance_eq]
  exact h.normalized

theorem Valid.total_pos {m : MassFunction ℚ} (h : m.Valid) : 0 < m.total := by
  have hlow := (abs_le.1 h.total_near).1
  linarith [h.tolerance.2]

theorem checkEpsilon_eq_ok_iff {v : Value ℚ} {ε : ℚ} :
    checkEpsilon v = .ok ε ↔ v = .finite ε ∧ 0 < ε ∧ ε < 1 / 10 := by
  have hbound : (0.1 : ℚ) = 1 / 10 := by norm_num
  constructor
  · intro h
    unfold checkEpsilon at h
    split at h
    · split_ifs at h with hx
      obtain rfl := Except.ok.inj h
      exact ⟨rfl, hx.1, hx.2.trans_eq hbound⟩
    · cases hc : v.checkText <;> rw [hc] at h <;> cases h
  · rintro ⟨rfl, h0, h1⟩
    exact if_pos ⟨h0, h1.trans_eq hbound.symm⟩

theorem Valid.checkEpsilon_eq {m : MassFunction ℚ} (h : m.Valid) :
    checkEpsilon (.finite m.epsilon) = .ok m.epsilon :=
  checkEpsilon_eq_ok_iff.2 ⟨rfl, h.tolerance.1, h.tolerance.2.trans_eq (by norm_num)⟩

end MassFunction

theorem Tally.Supported.of_perm {f : Frame} {t u : Tally Mask ℚ} (h : t.Supported f)
    (hperm : u.Perm t) : u.Supported f where
  inside e he := h.inside e (hperm.mem_iff.1 he)
  distinct := (hperm.map _).nodup_iff.2 h.distinct
  pos e he := h.pos e (hperm.mem_iff.1 he)

structure Entry.Puts (f : Frame) (entry : Entry ℚ) (e : Mask × ℚ) : Prop where
  event : entry.event = .ok ⟨f, e.1⟩
  hindrance : entry.hindrance = none
  mass : entry.mass = .finite e.2

namespace Inspection

variable {f : Frame}

theorem inRange_finite {α : Type} [Scalar α] {x : α} (h0 : 0 ≤ x) (h1 : x ≤ 1) :
    inRange? (.finite x) = some x := if_pos ⟨h0, h1⟩

theorem misuse_puts {entry : Entry ℚ} {e : Mask × ℚ} (hp : entry.Puts f e) (h0 : 0 < e.2)
    (h1 : e.2 ≤ 1) : entry.misuse? = none := by
  rw [Entry.misuse?, hp.mass, inRange_finite h0.le h1]
  exact hp.hindrance

theorem step_puts {entry : Entry ℚ} {e : Mask × ℚ} (hp : entry.Puts f e) (hne : e.1 ≠ .empty)
    (h0 : 0 < e.2) (h1 : e.2 ≤ 1) {a : ℚ} {u : Tally Mask ℚ} (hu : e.1 ∉ u.keys) :
    step ⟨a, u, []⟩ entry = ⟨a + e.2, u ++ [e], []⟩ := by
  have hempty : Event.isEmpty ⟨f, e.1⟩ = false := by
    simpa [Event.isEmpty] using hne
  have hfresh : u.has e.1 = false := by
    rw [Tally.has, List.any_eq_false]
    intro d hd
    simpa using fun hde : d.1 = e.1 => hu (List.mem_map.2 ⟨d, hd, hde⟩)
  simp only [step, hp.mass, inRange_finite h0.le h1, hp.event, file]
  rw [if_neg (not_le.2 h0), hempty, hfresh]
  rfl

theorem foldl_step_puts {entries : List (Entry ℚ)} {rest : Tally Mask ℚ}
    (hputs : List.Forall₂ (Entry.Puts f) entries rest)
    (hrest : ∀ e ∈ rest, e.1 ≠ .empty ∧ 0 < e.2 ∧ e.2 ≤ 1) {a : ℚ} {u : Tally Mask ℚ}
    (hnodup : (Tally.keys (u ++ rest)).Nodup) :
    entries.foldl step ⟨a, u, []⟩ = ⟨a + Tally.total rest, u ++ rest, []⟩ := by
  induction hputs generalizing a u with
  | nil => simp [Tally.total_eq_integral]
  | @cons entry e entries rest hp _ ih =>
      obtain ⟨⟨hne, h0, h1⟩, hrest⟩ := List.forall_mem_cons.1 hrest
      have hsplit : u ++ e :: rest = (u ++ [e]) ++ rest := by simp
      have hu : e.1 ∉ u.keys := by
        intro hmem
        rw [Tally.keys, List.map_append, List.nodup_append] at hnodup
        exact hnodup.2.2 e.1 hmem e.1 (by simp) rfl
      rw [List.foldl_cons, step_puts hp hne h0 h1 hu, ih hrest (hsplit ▸ hnodup), hsplit]
      simp only [Tally.total_eq_integral, Tally.integral_cons, one_mul, add_assoc]

end Inspection

namespace MassFunction

/-- Entries that put amounts under distinct nonempty events are refused for their total, and for
nothing else. -/
theorem ofInspected_puts {f : Frame} {t : Tally Mask ℚ} (h : t.Supported f)
    (le_one : ∀ e ∈ t, e.2 ≤ 1) {entries : List (Entry ℚ)}
    (hputs : List.Forall₂ (Entry.Puts f) entries t) (ε : ℚ) :
    ofInspected f ε entries =
      if ε < |t.total - 1| then .error (.fault (.unnormalized t.total ε f)) else .ok ⟨f, t, ε⟩ := by
  have hmisuse : entries.findSome? Entry.misuse? = none := by
    rw [List.findSome?_eq_none_iff]
    intro entry hentry
    obtain ⟨e, he, hp⟩ := Outcome.exists_of_forall₂ hputs hentry
    exact Inspection.misuse_puts hp (h.pos e he) (le_one e he)
  have hfold := Inspection.foldl_step_puts hputs
    (fun e he => ⟨(h.inside e he).1, h.pos e he, le_one e he⟩) (a := 0) (u := [])
    (by simpa using h.distinct)
  rw [zero_add, List.nil_append] at hfold
  rw [ofInspected, Inspection.attempt, hmisuse, Inspection.run]
  change (Except.ok (Inspection.finish f ε (entries.foldl Inspection.step ⟨0, [], []⟩))).bind _ = _
  rw [hfold, Inspection.finish, distance_eq]
  split_ifs with hd <;> rfl

theorem ofMasses_eq {f : Frame} {t : Tally Mask ℚ} (h : t.Supported f) (le_one : ∀ e ∈ t, e.2 ≤ 1)
    (v : Value ℚ) : ofMasses f t v = (checkEpsilon v).bind fun ε =>
      if ε < |t.total - 1| then .error (.fault (.unnormalized t.total ε f)) else .ok ⟨f, t, ε⟩ := by
  refine congrArg _ (funext fun ε => ofInspected_puts h le_one ?_ ε)
  rw [List.forall₂_map_left_iff, List.forall₂_map_left_iff, List.forall₂_same]
  exact fun e he => ⟨if_pos (h.inside e he).2, rfl, rfl⟩

end MassFunction

end Evidence
