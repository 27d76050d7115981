import Mathlib
import Evidence.Proofs.Capacity
import Evidence.Proofs.Constructing
import Evidence.Proofs.PignisticSum

namespace Evidence

namespace Tally

variable {κ α : Type} [DecidableEq κ] [Scalar α] {ks : List κ} (hks : ks.Nodup)
include hks

theorem add_map {k : κ} (hk : k ∈ ks) (w : κ → α) (x : α) :
    add k x (ks.map fun l => (l, w l)) = ks.map fun l => (l, if l = k then w l + x else w l) := by
  induction ks with
  | nil => cases hk
  | cons l ks ih =>
      obtain ⟨hl, hks⟩ := List.nodup_cons.1 hks
      rw [List.map_cons, List.map_cons, add]
      by_cases hlk : l = k
      · have hrest : ∀ j ∈ ks, j ≠ k := fun j hj hjk => hl (hlk ▸ hjk ▸ hj)
        rw [if_pos hlk, if_pos hlk]
        exact congrArg _ (List.map_congr_left fun j hj => by rw [if_neg (hrest j hj)])
      · have hk : k ∈ ks := (List.mem_cons.1 hk).resolve_left (Ne.symm hlk)
        rw [if_neg hlk, if_neg hlk, ih hks hk]

theorem foldl_add_map {js : List κ} (hjs : js.Nodup) (hin : js ⊆ ks) (w : κ → α) (x : α) :
    js.foldl (fun t k => add k x t) (ks.map fun l => (l, w l)) =
      ks.map fun l => (l, if l ∈ js then w l + x else w l) := by
  induction js generalizing w with
  | nil => simp
  | cons j js ih =>
      obtain ⟨hj, hjs⟩ := List.nodup_cons.1 hjs
      obtain ⟨hjk, hin⟩ := List.cons_subset.1 hin
      rw [List.foldl_cons, add_map hks hjk, ih hjs hin]
      refine List.map_congr_left fun l _ => congrArg (Prod.mk l) ?_
      by_cases hlj : l = j
      · subst l
        rw [if_neg hj, if_pos rfl, if_pos (List.mem_cons_self ..)]
      · simp only [List.mem_cons, hlj, false_or, if_false]

end Tally

namespace Frame

variable {α : Type} (f : Frame)

def table (w : Hypothesis → α) : Tally Hypothesis α := f.elements.map fun h => (h, w h)

theorem keys_table (w : Hypothesis → α) : (f.table w).keys = f.elements := by
  rw [table, Tally.keys, List.map_map]
  exact List.map_id _

section Exact

variable (w : Hypothesis → ℚ)

theorem amount_table {h : Hypothesis} (hh : h ∈ f.elements) : (f.table w).amount h = w h := by
  have hkeys : (f.table w).keys.Nodup := f.keys_table w ▸ f.nodup_elements
  exact Tally.amount_of_mem hkeys (e := (h, w h)) (List.mem_map_of_mem hh)

theorem total_table : (f.table w).total = ∑ h ∈ f.elements.toFinset, w h := by
  rw [List.sum_toFinset w f.nodup_elements, Tally.total, sum_eq, table, Tally.values, List.map_map]
  rfl

end Exact

end Frame

namespace MassFunction

section Loop

variable {α : Type} [Scalar α]

def spread (shares : Tally Hypothesis α) (p : Event × α) : Tally Hypothesis α :=
  p.1.elements.foldl (fun t h => Tally.add h (p.2 / (p.1.size : α)) t) shares

theorem spread_table (e : Event) (x : α) (w : Hypothesis → α) :
    spread (e.frame.table w) (e, x) = e.frame.table fun h =>
      if e.mask.has (e.frame.index h) then w h + x / (e.size : α) else w h := by
  have hin : e.elements ⊆ e.frame.elements := fun h hh => (Event.mem_elements.1 hh).1
  refine (Tally.foldl_add_map e.frame.nodup_elements (Event.nodup_elements e) hin w _).trans ?_
  refine List.map_congr_left fun h hh => congrArg (Prod.mk h) (if_congr ?_ rfl rfl)
  rw [Event.mem_elements, and_iff_right hh]

theorem foldl_spread_table {f : Frame} {entries : List (Event × α)}
    (hentries : ∀ p ∈ entries, p.1.frame = f) (w : Hypothesis → α) :
    entries.foldl spread (f.table w) =
      f.table fun h => (sharesAt entries (f.index h)).foldl (· + ·) (w h) := by
  induction entries generalizing w with
  | nil => rfl
  | cons p entries ih =>
      obtain ⟨rfl, hentries⟩ := List.forall_mem_cons.1 hentries
      rw [List.foldl_cons, spread_table, ih hentries]
      refine List.map_congr_left fun h _ => congrArg (Prod.mk h) ?_
      cases hhas : p.1.mask.has (p.1.frame.index h) with
      | false => simp [sharesAt, hhas]
      | true => simp [sharesAt, hhas]

omit [Scalar α] in
theorem frame_of_entries {m : MassFunction α} {entries : List (Event × α)}
    (h : m.entries = .ok entries) : ∀ p ∈ entries, p.1.frame = m.frame := by
  intro p hp
  obtain ⟨x, -, hx⟩ := Outcome.exists_of_mapM h hp
  obtain ⟨e, he, hx⟩ := Outcome.bind_eq_ok hx
  obtain rfl := Except.ok.inj hx
  obtain ⟨rfl, -⟩ := Event.within_ofMask he
  rfl

/-- The probabilities are what the masses leave one after another when each is spread. This holds to
the last bit in every arithmetic. -/
theorem pignistic_eq_spread (m : MassFunction α) :
    m.pignistic = m.entries.map fun entries => entries.foldl spread (m.frame.table fun _ => 0) := by
  unfold pignistic
  cases hentries : m.entries with
  | error c => rfl
  | ok entries =>
      refine congrArg Except.ok (Frame.mapIdx_elements.trans ?_)
      exact (foldl_spread_table (frame_of_entries hentries) fun _ => 0).symm

end Loop

section Exact

/-- A set of hypotheses gets as much of a mass as its event has hypotheses in the set. -/
theorem sum_betShare {f : Frame} {A : Mask} (hA : A.within f.size = true) {S : Finset Hypothesis}
    (hS : S ⊆ f.elements.toFinset) : ∑ k ∈ S, betShare f k A =
      ((S ∩ (Event.mk f A).members).card : ℚ) / (Event.mk f A).members.card := by
  have hsize : A.card = (Event.mk f A).members.card := Event.size_mk hA
  have hmem : ∀ k ∈ S, (A.has (f.index k) = true ↔ k ∈ (Event.mk f A).members) := by
    intro k hk
    rw [Event.mem_members, and_iff_right (List.mem_toFinset.1 (hS hk))]
  simp only [betShare, hsize]
  rw [Finset.sum_congr rfl fun k hk => if_congr (hmem k hk) rfl rfl, Finset.sum_ite_mem,
    Finset.sum_const, nsmul_eq_mul, mul_one_div]

variable {m : MassFunction ℚ} (h : m.Valid)
include h

theorem Valid.size_ne_zero : ∀ e ∈ m.masses, (Event.mk m.frame e.1).size ≠ 0 := by
  intro e he
  rw [Event.size_mk (h.inside e he).2]
  exact Finset.card_ne_zero.2 (h.members_nonempty (List.mem_map_of_mem he))

theorem Valid.betOf_nonneg (k : Hypothesis) : 0 ≤ m.betOf k := by
  refine Tally.integral_nonneg (fun e he => (h.positive e he).1.le) fun A _ => ?_
  unfold betShare
  positivity

section Sets

variable {S : Finset Hypothesis} (hS : S ⊆ m.frame.elements.toFinset)
include hS

theorem Valid.sum_betOf : ∑ k ∈ S, m.betOf k = m.masses.integral fun A =>
    ((S ∩ (Event.mk m.frame A).members).card : ℚ) / (Event.mk m.frame A).members.card := by
  simp only [betOf, ← Tally.integral_finset_sum]
  exact Tally.integral_congr fun A hA => sum_betShare (h.within_of_mem hA) hS

theorem Valid.beliefIn_le_sum : m.beliefIn S ≤ ∑ k ∈ S, m.betOf k := by
  rw [beliefIn_eq_integral, h.sum_betOf hS]
  refine Tally.integral_mono (fun e he => (h.positive e he).1.le) fun A hA => ?_
  by_cases hin : (Event.mk m.frame A).members ⊆ S
  · have hne : ((Event.mk m.frame A).members.card : ℚ) ≠ 0 :=
      Nat.cast_ne_zero.2 (Finset.card_ne_zero.2 (h.members_nonempty hA))
    rw [if_pos hin, Finset.inter_eq_right.2 hin, div_self hne]
  · rw [if_neg hin]
    positivity

theorem Valid.sum_le_plausibilityIn : ∑ k ∈ S, m.betOf k ≤ m.plausibilityIn S := by
  rw [plausibilityIn_eq_integral, h.sum_betOf hS]
  refine Tally.integral_mono (fun e he => (h.positive e he).1.le) fun A _ => ?_
  rw [Finset.inter_comm]
  by_cases hmeet : ((Event.mk m.frame A).members ∩ S).Nonempty
  · rw [if_pos hmeet]
    exact div_le_one_of_le₀ (by exact_mod_cast Finset.card_le_card Finset.inter_subset_left)
      (Nat.cast_nonneg _)
  · rw [if_neg hmeet, Finset.not_nonempty_iff_eq_empty.1 hmeet, Finset.card_empty, Nat.cast_zero,
      zero_div]

end Sets

theorem Valid.sum_betOf_frame : ∑ k ∈ m.frame.elements.toFinset, m.betOf k = m.total := by
  refine le_antisymm ?_ ?_
  · rw [← h.plausibilityIn_frame]
    exact h.sum_le_plausibilityIn subset_rfl
  · rw [← m.beliefIn_frame]
    exact h.beliefIn_le_sum subset_rfl

/-- Probabilities can always be given. They are what is left when the masses are spread one after
another over the hypotheses of their events, of which each has some. Every hypothesis is listed once
and in canonical order, no probability is negative, together they make up the total, and those of a
set add up to no less than is believed of it and to no more than is plausible. -/
theorem Valid.pignistic_between : ∃ entries shares, m.entries = .ok entries ∧
    (∀ p ∈ entries, p.1.size ≠ 0) ∧ m.pignistic = .ok shares ∧
    shares = entries.foldl spread (m.frame.table fun _ => 0) ∧
    Tally.keys shares = m.frame.elements ∧ (Tally.keys shares).Pairwise (· < ·) ∧
    (∀ p ∈ shares, 0 ≤ p.2) ∧ Tally.total shares = m.total ∧
    ∀ (d : Designation ℚ) S, d.Names m.frame S → ∃ bel pl,
      m.belief d = .ok bel ∧ m.plausibility d = .ok pl ∧
      bel ≤ ∑ k ∈ S, Tally.amount k shares ∧ ∑ k ∈ S, Tally.amount k shares ≤ pl := by
  have hkeys := m.frame.keys_table m.betOf
  have hspread := m.pignistic_eq_spread
  rw [h.pignistic_eq, h.entries_eq] at hspread
  refine ⟨_, m.frame.table m.betOf, h.entries_eq, List.forall_mem_map.2 h.size_ne_zero,
    h.pignistic_eq, Except.ok.inj hspread, hkeys, hkeys.symm ▸ m.frame.sorted,
    List.forall_mem_map.2 fun k _ => h.betOf_nonneg k, ?_, fun d S hd => ?_⟩
  · rw [Frame.total_table, h.sum_betOf_frame]
  · obtain ⟨hbelief, hplausibility, -⟩ := h.answers hd
    have hsum : ∑ k ∈ S, (m.frame.table m.betOf).amount k = ∑ k ∈ S, m.betOf k :=
      Finset.sum_congr rfl fun k hk =>
        m.frame.amount_table m.betOf (List.mem_toFinset.1 (hd.subset hk))
    refine ⟨_, _, hbelief, hplausibility, ?_, ?_⟩
    · rw [hsum]
      exact h.beliefIn_le_sum hd.subset
    · rw [hsum]
      exact h.sum_le_plausibilityIn hd.subset

end Exact

theorem Valid.pignistic_between_leaning : leaning.Valid ∧
    leaning.pignistic = .ok [(.number 0, 13 / 20), (.number 1, 7 / 20)] ∧
    ∃ bel pl, leaning.belief (.single (.ofNat 0)) = .ok bel ∧
      leaning.plausibility (.single (.ofNat 0)) = .ok pl ∧ bel ≤ 13 / 20 ∧ 13 / 20 ≤ pl := by
  have hvalid : leaning.Valid :=
    valid_simple (by decide) (by decide) (by decide) (by norm_num) (by norm_num)
  have hshares : leaning.pignistic = .ok [(.number 0, 13 / 20), (.number 1, 7 / 20)] := by cbv
  have hfirst : (Designation.single (.ofNat 0) : Designation ℚ).Names leaning.frame
      {.number 0} := ⟨.finite 1, rfl, by decide⟩
  obtain ⟨_, shares, -, -, hpignistic, -, -, -, -, -, hbetween⟩ := hvalid.pignistic_between
  obtain rfl := Except.ok.inj (hpignistic.symm.trans hshares)
  obtain ⟨bel, pl, hbelief, hplausibility, hle, hge⟩ := hbetween _ _ hfirst
  rw [Finset.sum_singleton] at hle hge
  exact ⟨hvalid, hshares, bel, pl, hbelief, hplausibility, hle, hge⟩

end MassFunction

end Evidence
