import Mathlib
import Evidence.Proofs.Inversion
import Evidence.Proofs.Spreading

namespace Evidence

namespace Decision

def Leads (d : Decision ℚ) (shares : List (Hypothesis × ℚ)) : Prop :=
  ∃ before after, shares = before ++ (d.hypothesis, d.probability) :: after ∧
    (∀ p ∈ before, p.2 < d.probability) ∧ ∀ p ∈ after, p.2 ≤ d.probability

variable {d : Decision ℚ} {shares : List (Hypothesis × ℚ)}

theorem leads_singleton (d : Decision ℚ) : d.Leads [(d.hypothesis, d.probability)] :=
  ⟨[], [], rfl, by simp, by simp⟩

theorem Leads.le (h : d.Leads shares) : ∀ p ∈ shares, p.2 ≤ d.probability := by
  obtain ⟨before, after, rfl, hbefore, hafter⟩ := h
  intro p hp
  rcases List.mem_append.1 hp with hp | hp
  · exact (hbefore p hp).le
  · rcases List.mem_cons.1 hp with rfl | hp
    · exact le_rfl
    · exact hafter p hp

theorem Leads.step (h : d.Leads shares) (k : Hypothesis) (x : ℚ) :
    Leads (if d.probability < x then ⟨k, x⟩ else d) (shares ++ [(k, x)]) := by
  by_cases hx : d.probability < x
  · rw [if_pos hx]
    exact ⟨shares, [], rfl, fun p hp => (h.le p hp).trans_lt hx, by simp⟩
  · obtain ⟨before, after, rfl, hbefore, hafter⟩ := h
    rw [if_neg hx]
    refine ⟨before, after ++ [(k, x)], by simp, hbefore, ?_⟩
    exact List.forall_mem_append.2 ⟨hafter, List.forall_mem_singleton.2 (not_lt.1 hx)⟩

theorem Leads.likeliest (h : d.Leads shares) (rest : List (Hypothesis × ℚ)) :
    Leads (MassFunction.likeliest d rest) (shares ++ rest) := by
  induction rest generalizing d shares with
  | nil => rwa [List.append_nil]
  | cons p rest ih =>
      obtain ⟨k, x⟩ := p
      rw [List.append_cons]
      exact ih (h.step k x)

/-- The greatest probability is not below the average one. -/
theorem Leads.total_div_le (h : d.Leads shares) :
    Tally.total shares / (shares.length : ℚ) ≤ d.probability := by
  have hpos : (0 : ℚ) < shares.length := by
    obtain ⟨before, after, rfl, -⟩ := h
    simp only [List.length_append, List.length_cons]
    positivity
  have hsum := List.sum_le_card_nsmul (shares.map (·.2)) d.probability (List.forall_mem_map.2 h.le)
  rw [List.length_map, nsmul_eq_mul] at hsum
  rw [div_le_iff₀ hpos, mul_comm, Tally.total, sum_eq]
  exact hsum

end Decision

section Same

variable {m n : MassFunction ℚ} (h : SameEvidence m n) (hm : m.Valid) (hn : n.Valid)
include h hm hn

theorem SameEvidence.pignistic_eq : m.pignistic = n.pignistic := by
  have hbet : m.betOf = n.betOf := by
    funext k
    rw [MassFunction.betOf, MassFunction.betOf, h.frame]
    exact Tally.integral_eq_of_amounts hm.distinct hn.distinct h.mass _
  rw [hm.pignistic_eq, hn.pignistic_eq, h.frame, hbet]

theorem SameEvidence.decide_eq : m.decide = n.decide := by
  unfold MassFunction.decide
  rw [h.pignistic_eq hm hn]

end Same

namespace MassFunction

theorem mass_event {m : MassFunction ℚ} {e : Event} (he : e.frame = m.frame) :
    m.mass (.event e) = .ok (m.massOf e.mask) := by
  have hfind : (Designation.event e : Designation ℚ).find m.frame = .ok e :=
    congrArg Failure.ofFault (if_pos he)
  rw [mass, ask, hfind]
  rfl

theorem exists_decide {m : MassFunction ℚ} {p : Hypothesis × ℚ} {rest : List (Hypothesis × ℚ)}
    (h : m.pignistic = .ok (p :: rest)) : ∃ d, m.decide = .ok d ∧ d.Leads (p :: rest) := by
  refine ⟨likeliest ⟨p.1, p.2⟩ rest, ?_, (Decision.leads_singleton ⟨p.1, p.2⟩).likeliest rest⟩
  unfold MassFunction.decide
  rw [h]
  rfl

/-- A decision can always be made. It is for the first of the likeliest hypotheses in canonical
order, whose probability is no less than an equal share of the total for each hypothesis, and the
same evidence leads to it however it is written. -/
theorem Valid.decide_first {m : MassFunction ℚ} (h : m.Valid) : ∃ shares d,
    m.pignistic = .ok shares ∧ Tally.keys shares = m.frame.elements ∧
    m.decide = .ok d ∧ d.Leads shares ∧ m.total / (m.frame.size : ℚ) ≤ d.probability ∧
    ∀ n : MassFunction ℚ, n.Valid → n.frame = m.frame →
      (∀ e, Event.Inside m.frame e → m.mass (.event e) = n.mass (.event e)) →
      n.decide = .ok d := by
  obtain ⟨p, rest, hshares⟩ := h.exists_pignistic
  obtain ⟨d, hd, hleads⟩ := exists_decide hshares
  have htable : p :: rest = m.frame.table m.betOf :=
    Except.ok.inj (hshares.symm.trans h.pignistic_eq)
  refine ⟨_, d, hshares, ?_, hd, hleads, ?_, fun n hn hframe hmass => ?_⟩
  · rw [htable, Frame.keys_table]
  · have hmean := hleads.total_div_le
    rw [htable, Frame.total_table, h.sum_betOf_frame, Frame.table, List.length_map] at hmean
    exact hmean
  · have hsame : SameEvidence m n := h.same_of_mass hn hframe fun A hA => by
      have heq := hmass ⟨m.frame, A⟩ ⟨rfl, hA⟩
      rw [mass_event rfl, mass_event hframe.symm] at heq
      exact Except.ok.inj heq
    rw [← hsame.decide_eq h hn, hd]

def undecided : MassFunction ℚ :=
  ⟨.binary, [(.finite 2, 1 / 4), (.finite 1, 1 / 4), (.finite 3, 1 / 2)], defaultEpsilon⟩

/-- The tie goes to the first hypothesis, in whichever order the masses are stored. -/
theorem Valid.decide_first_undecided : undecided.Valid ∧
    undecided.pignistic = .ok [(.number 0, 1 / 2), (.number 1, 1 / 2)] ∧
    undecided.decide = .ok ⟨.number 0, 1 / 2⟩ ∧
    (Combination.backwards undecided).decide = .ok ⟨.number 0, 1 / 2⟩ := by
  have hvalid : undecided.Valid :=
    ⟨by decide, by decide, by decide +kernel, by decide +kernel, by decide +kernel⟩
  have hdecide : undecided.decide = .ok ⟨.number 0, 1 / 2⟩ := by cbv
  have hperm : undecided.masses.Perm (Combination.backwards undecided).masses :=
    (List.reverse_perm _).symm
  have hbackwards : (Combination.backwards undecided).Valid :=
    hvalid.of_perm rfl hperm (by norm_num [Combination.backwards, undecided, defaultEpsilon_eq])
      (by norm_num [Combination.backwards])
  have hwritten : SameEvidence undecided (Combination.backwards undecided) :=
    .of_perm hvalid rfl hperm
  obtain ⟨_, d, -, -, hd, -, -, hsame⟩ := hvalid.decide_first
  obtain rfl := Except.ok.inj (hd.symm.trans hdecide)
  exact ⟨hvalid, by cbv, hdecide, hsame _ hbackwards rfl fun e _ =>
    (hwritten.answers hvalid hbackwards _).1⟩

end MassFunction

end Evidence
