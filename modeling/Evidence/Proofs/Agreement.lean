import Mathlib
import Evidence.Proofs.Accumulating
import Evidence.Proofs.Conservation
import Evidence.Proofs.Contradiction
import Evidence.Proofs.Obtainable

namespace Evidence

theorem Event.members_meet_subset {f : Frame} {ms : List Mask} {A : Mask} (hA : A ∈ ms) :
    (Event.mk f (Mask.meet ms)).members ⊆ (Event.mk f A).members := by
  intro k hk
  rw [mem_members, Mask.has_meet, List.all_eq_true] at hk
  exact mem_members.2 ⟨hk.1, hk.2 A hA⟩

namespace Combination

section Agreed

variable {f : Frame} {sources : List (MassFunction ℚ)} (h : SharedFrame f sources)
  (hne : sources ≠ []) (hK : conflictMass sources = 0)
include h hne hK

/-- Without conflict every rule assigns what is chosen to what it has in common. -/
theorem integral_assigned_agreed (r : Rule) (g : Mask → ℚ) :
    (assigned r f sources).integral g =
      Choices.integral (sources.map (·.masses)) fun ms => g (Mask.meet ms) := by
  rw [integral_assign h hne, hK]
  refine Choices.integral_congr fun ms hms => ?_
  have hmeet := (conflictMass_eq_zero_iff h).1 hK ms hms
  have hshare : share r (min 0 1) ms = 1 := by
    cases r with
    | dempster => rw [share, if_neg hmeet]; norm_num
    | yager | duboisPrade => rfl
  have hlanding : landing r f ms = Mask.meet ms := if_neg hmeet
  rw [hshare, hlanding, one_mul]

theorem amount_assigned_agreed (r s : Rule) (A : Mask) :
    (assigned r f sources).amount A = (assigned s f sources).amount A := by
  have hlt : conflictMass sources < 1 := hK.trans_lt one_pos
  rw [Tally.amount_eq_integral (supported_assigned h hne fun _ => hlt).distinct,
    Tally.amount_eq_integral (supported_assigned h hne fun _ => hlt).distinct,
    integral_assigned_agreed h hne hK, integral_assigned_agreed h hne hK]

end Agreed

section Exact

variable {f : Frame} {sources : List (MassFunction ℚ)} (h : ExactFrame f sources)
include h

/-- A sum over the events of one source is no more than a sum over choices, if no event counts more
alone than chosen together with others. -/
theorem integral_le_of_mem {n : MassFunction ℚ} (hn : n ∈ sources) {g : Mask → ℚ}
    {G : List Mask → ℚ} (hG : ∀ ks ls, ks.Perm ls → G ks = G ls) (hg : ∀ k ks, g k ≤ G (k :: ks)) :
    n.masses.integral g ≤ Choices.integral (sources.map (·.masses)) G := by
  obtain ⟨xs, ys, rfl⟩ := List.append_of_mem hn
  have hperm : (xs ++ n :: ys).Perm ([n] ++ (xs ++ ys)) := List.perm_middle
  obtain ⟨hsource, hrest⟩ := ExactFrame.append_iff.1 (h.perm hperm)
  have hpos : ∀ e ∈ n.masses, 0 ≤ e.2 := fun e he =>
    (hsource.mass_pos n (List.mem_singleton_self n) e he).le
  rw [Choices.integral_perm (hperm.map _) hG, List.map_append, List.map_singleton,
    List.singleton_append, Choices.integral_cons]
  refine Tally.integral_mono hpos fun k _ => ?_
  calc g k
      = Choices.integral ((xs ++ ys).map (·.masses)) fun _ => g k * 1 := by
        rw [Choices.integral_mul_left, hrest.integral_one, mul_one]
    _ ≤ Choices.integral ((xs ++ ys).map (·.masses)) fun ks => G (k :: ks) :=
        Choices.integral_mono hrest.masses_pos fun ks _ => (mul_one (g k)).trans_le (hg k ks)

section Source

variable (hne : sources ≠ []) (hK : conflictMass sources = 0) {n : MassFunction ℚ}
  (hn : n ∈ sources)
include hne hK hn

theorem beliefIn_le_assigned (r : Rule) (ε : ℚ) (S : Finset Hypothesis) :
    n.beliefIn S ≤ MassFunction.beliefIn ⟨f, assigned r f sources, ε⟩ S := by
  rw [MassFunction.beliefIn_eq_integral, MassFunction.beliefIn_eq_integral, h.frame n hn,
    integral_assigned_agreed h.toSharedFrame hne hK]
  refine integral_le_of_mem h hn (fun ks ls hks => by rw [Mask.meet_perm hks]) fun k ks => ?_
  have hmeet : (Event.mk f (Mask.meet (k :: ks))).members ⊆ (Event.mk f k).members :=
    Event.members_meet_subset (List.mem_cons_self ..)
  exact Tally.count_le_count hmeet.trans

theorem plausibilityIn_assigned_le (r : Rule) (ε : ℚ) (S : Finset Hypothesis) :
    MassFunction.plausibilityIn ⟨f, assigned r f sources, ε⟩ S ≤ n.plausibilityIn S := by
  have hbelief := beliefIn_le_assigned h hne hK hn r ε (f.elements.toFinset \ S)
  have hone : (assigned r f sources).total = 1 :=
    total_assigned_exact h hne fun _ => hK.trans_lt one_pos
  rw [MassFunction.plausibilityIn_eq, MassFunction.plausibilityIn_eq, MassFunction.total,
    MassFunction.total, hone, h.total n hn, h.frame n hn]
  exact sub_le_sub_left hbelief 1

end Source

/-- Sources without conflict combine to the same evidence under every rule, and whatever is asked,
the interval of this evidence lies within that of each source. -/
theorem ofSources_agreed (two : 2 ≤ sources.length) (hK : conflictMass sources = 0)
    {options : DriftOptions ℚ} {ε : ℚ} (haccepted : options.Accepted ε) :
    ∃ c : Rule → Combination ℚ,
      (∀ r, ofSources sources (.rule r) options = .ok (c r) ∧ (c r).conflict = 0) ∧
      (∀ r s, SameEvidence (c r).mass (c s).mass) ∧
      ∀ r, ∀ n ∈ sources, ∀ (d : Designation ℚ) S, d.Names f S → ∃ bel bel' pl' pl,
        n.interval d = .ok (bel, pl) ∧ (c r).mass.interval d = .ok (bel', pl') ∧
          bel ≤ bel' ∧ bel' ≤ pl' ∧ pl' ≤ pl := by
  have hne : sources ≠ [] := List.ne_nil_of_length_pos (by omega)
  have hok (r : Rule) : ofSources sources (.rule r) options =
      .ok ⟨⟨f, assigned r f sources, ε⟩, conflictMass sources⟩ :=
    ofSources_exact h two haccepted fun _ => by linarith [haccepted.bounds.2]
  refine ⟨_, fun r => ⟨hok r, hK⟩, fun r s => ⟨rfl, ?_⟩, fun r n hn d S hd => ?_⟩
  · exact amount_assigned_agreed h.toSharedFrame hne hK r s
  · have hfused := MassFunction.valid_of_ofSources h.valid (hok r)
    have hsource := (h.valid n hn).answers (h.frame n hn ▸ hd)
    exact ⟨_, _, _, _, hsource.2.2, (hfused.answers hd).2.2, beliefIn_le_assigned h hne hK hn r ε S,
      hfused.beliefIn_le_plausibilityIn S, plausibilityIn_assigned_le h hne hK hn r ε S⟩

end Exact

def reinforcing : List (MassFunction ℚ) :=
  [MassFunction.leaning, .simple .binary (.finite 1) (1 / 2)]

theorem agreed_reinforcing : ∃ c : Rule → Combination ℚ,
    (∀ r, ofSources reinforcing (.rule r) (.ofTolerances ⟨.finite (1 / 1000), .finite (1 / 10)⟩) =
      .ok (c r) ∧ (c r).conflict = 0) ∧
    SameEvidence (c .dempster).mass (c .duboisPrade).mass ∧
    ∃ bel bel' pl' pl, MassFunction.leaning.interval (.single (.ofNat 0)) = .ok (bel, pl) ∧
      (c .yager).mass.interval (.single (.ofNat 0)) = .ok (bel', pl') ∧
      bel ≤ bel' ∧ bel' ≤ pl' ∧ pl' ≤ pl := by
  have hvalid {x : ℚ} (hx : 0 < x ∧ x < 1) : (MassFunction.simple .binary (.finite 1) x).Valid :=
    MassFunction.valid_simple (by decide) (by decide) (by decide) hx.1 hx.2
  have hexact : ExactFrame .binary reinforcing := by
    refine ⟨.pair (hvalid (by norm_num)) (hvalid (by norm_num)) rfl, ?_⟩
    exact List.forall_mem_cons.2 ⟨MassFunction.total_simple _ _ _,
      List.forall_mem_singleton.2 (MassFunction.total_simple _ _ _)⟩
  have hK : conflictMass reinforcing = 0 := by decide +kernel
  have haccepted : (DriftOptions.ofTolerances ⟨.finite (1 / 1000), .finite (1 / 10)⟩ :
      DriftOptions ℚ).Accepted (1 / 1000) :=
    DriftOptions.accepted_finite (by norm_num) (by norm_num) (by norm_num)
  obtain ⟨c, hc, hsame, hnested⟩ := ofSources_agreed hexact (by decide) hK haccepted
  have hfirst : (Designation.single (.ofNat 0) : Designation ℚ).Names .binary {.number 0} :=
    ⟨.finite 1, rfl, by decide⟩
  exact ⟨c, hc, hsame _ _, hnested .yager _ (List.mem_cons_self ..) _ _ hfirst⟩

end Combination

end Evidence
