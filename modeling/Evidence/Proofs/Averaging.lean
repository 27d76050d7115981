import Mathlib
import Evidence.MassFunction.Average
import Evidence.Proofs.NearTotal
import Evidence.Proofs.Obtainable
import Evidence.Proofs.Spreading

namespace Evidence

def mean (xs : List ℚ) : ℚ := xs.sum / (xs.length : ℚ)

section Mean

variable {xs : List ℚ}

theorem le_mean (hne : xs ≠ []) {c : ℚ} (h : ∀ x ∈ xs, c ≤ x) : c ≤ mean xs := by
  have hpos : (0 : ℚ) < xs.length := by exact_mod_cast List.length_pos_iff.2 hne
  have hsum := List.card_nsmul_le_sum xs c h
  rw [nsmul_eq_mul, mul_comm] at hsum
  exact (le_div_iff₀ hpos).2 hsum

theorem mean_le (hne : xs ≠ []) {c : ℚ} (h : ∀ x ∈ xs, x ≤ c) : mean xs ≤ c := by
  have hpos : (0 : ℚ) < xs.length := by exact_mod_cast List.length_pos_iff.2 hne
  have hsum := List.sum_le_card_nsmul xs c h
  rw [nsmul_eq_mul, mul_comm] at hsum
  exact (div_le_iff₀ hpos).2 hsum

theorem mem_of_mem_copies {ι : Type} {xs : List ι} {k : ℕ} {x : ι}
    (h : x ∈ (List.replicate k xs).flatten) : x ∈ xs := by
  obtain ⟨ys, hys, hx⟩ := List.mem_flatten.1 h
  rwa [List.eq_of_mem_replicate hys] at hx

theorem mean_copies (xs : List ℚ) (k : ℕ) : mean (List.replicate (k + 1) xs).flatten = mean xs := by
  have hsum (n : ℕ) : (List.replicate n xs).flatten.sum = n * xs.sum := by
    rw [List.sum_flatten, List.map_replicate, List.sum_replicate, nsmul_eq_mul]
  have hlength (n : ℕ) : (List.replicate n xs).flatten.length = n * xs.length := by
    rw [List.length_flatten, List.map_replicate, List.sum_replicate, smul_eq_mul]
  rw [mean, hsum, hlength, Nat.cast_mul, mul_div_mul_left _ _ (by positivity), mean]

end Mean

namespace Tally

variable {κ : Type} [DecidableEq κ]

theorem keys_add (k : κ) (x : ℚ) (t : Tally κ ℚ) :
    (add k x t).keys = if k ∈ t.keys then t.keys else t.keys ++ [k] := by
  induction t with
  | nil => rfl
  | cons e t ih =>
      obtain ⟨l, y⟩ := e
      by_cases h : l = k
      · simp [add, h, keys]
      · simp only [keys] at ih
        simp only [add, if_neg h, keys, List.map_cons, ih, List.mem_cons, Ne.symm h, false_or]
        exact apply_ite (List.cons l) ..

theorem keys_collect_append {ps qs : List (κ × ℚ)} (h : keys qs ⊆ keys ps) :
    (collect (ps ++ qs)).keys = (collect ps).keys := by
  rw [collect, List.foldl_append]
  refine foldl_add_induction (P := fun t => t.keys = (collect ps).keys) rfl fun q hq t ht => ?_
  have hmem : q.1 ∈ t.keys := ht ▸ mem_keys_collect.2 (h (List.mem_map_of_mem hq))
  rw [keys_add, if_pos hmem, ht]

theorem keys_foldl_add {ps : List (κ × ℚ)} {t : Tally κ ℚ} (h : (t.keys ++ keys ps).Nodup) :
    (ps.foldl (fun t p => add p.1 p.2 t) t).keys = t.keys ++ keys ps := by
  induction ps generalizing t with
  | nil => exact (List.append_nil _).symm
  | cons p ps ih =>
      have hsplit : t.keys ++ keys (p :: ps) = (t.keys ++ [p.1]) ++ keys ps :=
        List.append_cons ..
      have hp : p.1 ∉ t.keys := by
        rw [hsplit] at h
        intro hmem
        exact (List.nodup_append.1 h.of_append_left).2.2 _ hmem _ (List.mem_singleton_self _) rfl
      have hkeys : (add p.1 p.2 t).keys = t.keys ++ [p.1] := by rw [keys_add, if_neg hp]
      rw [List.foldl_cons, ih (by rwa [hkeys, ← hsplit]), hkeys, hsplit]

theorem eq_of_integrals {t u : Tally κ ℚ} (ht : t.keys.Nodup) (hkeys : t.keys = u.keys)
    (h : ∀ g, integral t g = integral u g) : t = u := by
  have hu : u.keys.Nodup := hkeys ▸ ht
  rw [← map_amount_keys ht, ← map_amount_keys hu, hkeys]
  exact List.map_congr_left fun k _ => by
    rw [amount_eq_integral ht, amount_eq_integral hu, h]

theorem collect_of_nodup {t : Tally κ ℚ} (ht : t.keys.Nodup) : collect t = t :=
  eq_of_integrals (nodup_keys_collect t) (keys_foldl_add (t := []) ht) (integral_collect t)

end Tally

namespace MassFunction

def meanMasses (sources : List (MassFunction ℚ)) : Tally Mask ℚ :=
  (Tally.collect (sources.flatMap (·.masses))).map fun e => (e.1, e.2 / (sources.length : ℚ))

section Sums

variable (sources : List (MassFunction ℚ))

theorem nodup_keys_meanMasses : (meanMasses sources).keys.Nodup := by
  rw [meanMasses, Tally.keys_map_div]
  exact Tally.nodup_keys_collect _

theorem integral_meanMasses (g : Mask → ℚ) :
    (meanMasses sources).integral g = mean (sources.map fun m => m.masses.integral g) := by
  rw [meanMasses, Tally.integral_map_div, Tally.integral_collect, Tally.integral_flatMap, mean,
    List.length_map]

theorem total_meanMasses : (meanMasses sources).total = mean (sources.map (·.total)) := by
  rw [Tally.total_eq_integral, integral_meanMasses]
  simp only [total, Tally.total_eq_integral]

theorem totalOf_meanMasses (p : Mask → Bool) :
    (meanMasses sources).totalOf p = mean (sources.map (·.masses.totalOf p)) := by
  rw [Tally.totalOf_eq_integral, integral_meanMasses]
  simp only [Tally.totalOf_eq_integral]

theorem meanMasses_copies (k : ℕ) :
    meanMasses (List.replicate (k + 1) sources).flatten = meanMasses sources := by
  refine Tally.eq_of_integrals (nodup_keys_meanMasses _) ?_ fun g => ?_
  · rw [meanMasses, meanMasses, Tally.keys_map_div, Tally.keys_map_div, List.replicate_succ,
      List.flatten_cons, List.flatMap_append]
    -- the copies bring no new keys, so that even the order of the keys is kept
    refine Tally.keys_collect_append (List.map_subset _ fun e he => ?_)
    obtain ⟨m, hm, he⟩ := List.mem_flatMap.1 he
    exact List.mem_flatMap.2 ⟨m, mem_of_mem_copies hm, he⟩
  · rw [integral_meanMasses, integral_meanMasses, List.map_flatten, List.map_replicate,
      mean_copies]

end Sums

theorem Valid.meanMasses_singleton {m : MassFunction ℚ} (h : m.Valid) :
    meanMasses [m] = m.masses := by
  have hcollect : Tally.collect ([m].flatMap (·.masses)) = m.masses := by
    rw [List.flatMap_singleton]
    exact Tally.collect_of_nodup h.distinct
  rw [meanMasses, hcollect]
  simp

section Shared

variable {f : Frame} {sources : List (MassFunction ℚ)} (h : SharedFrame f sources)
include h

theorem amount_meanMasses (A : Mask) :
    (meanMasses sources).amount A = mean (sources.map (·.massOf A)) := by
  rw [Tally.amount_eq_integral (nodup_keys_meanMasses sources), integral_meanMasses]
  refine congrArg mean (List.map_congr_left fun m hm => ?_)
  exact (Tally.amount_eq_integral (h.valid m hm).distinct A).symm

section Some

variable (hne : sources ≠ [])
include hne

theorem supported_meanMasses : (meanMasses sources).Supported f := by
  have hentries : ∀ e ∈ sources.flatMap (·.masses), 0 < e.2 := by
    intro e he
    obtain ⟨m, hm, he⟩ := List.mem_flatMap.1 he
    exact h.mass_pos m hm e he
  have hcollected : (Tally.collect (sources.flatMap (·.masses))).Supported f := by
    refine ⟨fun e he => ?_, Tally.nodup_keys_collect _, Tally.pos_collect hentries⟩
    obtain ⟨d, hd, hde⟩ := List.mem_map.1 (Tally.mem_keys_collect.1 (List.mem_map_of_mem he))
    obtain ⟨m, hm, hd⟩ := List.mem_flatMap.1 hd
    rw [← hde]
    exact h.key_inside m hm d.1 (List.mem_map_of_mem hd)
  exact hcollected.map_div (by exact_mod_cast List.length_pos_iff.2 hne)

theorem meanMasses_le_one : ∀ e ∈ meanMasses sources, e.2 ≤ 1 := by
  rw [Tally.le_one_iff (nodup_keys_meanMasses sources)]
  intro A
  rw [amount_meanMasses h]
  refine mean_le (by simpa using hne) (List.forall_mem_map.2 fun m hm => ?_)
  have hvalid := h.valid m hm
  exact (Tally.le_one_iff hvalid.distinct).1 (fun e he => (hvalid.positive e he).2) A

theorem mean_total_near {ε : ℚ} (hε : ∀ m ∈ sources, m.epsilon ≤ ε) :
    |mean (sources.map (·.total)) - 1| ≤ ε := by
  have htotals : ∀ x ∈ sources.map (·.total), 1 - ε ≤ x ∧ x ≤ 1 + ε := by
    refine List.forall_mem_map.2 fun m hm => ?_
    obtain ⟨hlow, hhigh⟩ := abs_le.1 ((h.valid m hm).total_near.trans (hε m hm))
    exact ⟨by linarith, by linarith⟩
  have hmap : sources.map (·.total) ≠ [] := by simpa using hne
  have hlow := le_mean hmap fun x hx => (htotals x hx).1
  have hhigh := mean_le hmap fun x hx => (htotals x hx).2
  exact abs_le.2 ⟨by linarith, by linarith⟩

end Some

end Shared

section First

variable {f : Frame} {first : MassFunction ℚ} {rest : List (MassFunction ℚ)}
  (h : SharedFrame f (first :: rest))
include h

theorem average_eq : average (first :: rest) =
    if first.epsilon < |mean ((first :: rest).map (·.total)) - 1| then
      .error (.fault (.unnormalized (mean ((first :: rest).map (·.total))) first.epsilon f))
    else .ok ⟨f, meanMasses (first :: rest), first.epsilon⟩ := by
  obtain rfl := h.frame first (List.mem_cons_self ..)
  have hfirst := h.valid first (List.mem_cons_self ..)
  cases rest with
  | nil =>
      -- one source comes back as it is, which no check of its own total could refuse
      have hnear : ¬ first.epsilon < |mean ([first].map (·.total)) - 1| := by
        rw [not_lt]
        exact mean_total_near h (List.cons_ne_nil _ _) (List.forall_mem_singleton.2 le_rfl)
      rw [if_neg hnear, hfirst.meanMasses_singleton]
      rfl
  | cons second rest =>
      have hnone : (first :: second :: rest).find? (fun m => m.frame ≠ first.frame) = none := by
        rw [List.find?_eq_none]
        intro m hm
        simpa using h.frame m hm
      simp only [average, hnone]
      refine (ofMasses_eq (supported_meanMasses h (List.cons_ne_nil _ _))
        (meanMasses_le_one h (List.cons_ne_nil _ _)) _).trans ?_
      rw [hfirst.checkEpsilon_eq, total_meanMasses]
      rfl

theorem exists_average_iff : (∃ a, average (first :: rest) = .ok a) ↔
    |mean ((first :: rest).map (·.total)) - 1| ≤ first.epsilon := by
  rw [average_eq h]
  split_ifs with hfar
  · exact iff_of_false (fun ⟨_, ha⟩ => by cases ha) (not_le.2 hfar)
  · exact iff_of_true ⟨_, rfl⟩ (not_lt.1 hfar)

theorem average_unnormalized_iff : Outcome.FailsWith .unnormalizedMass (average (first :: rest)) ↔
    first.epsilon < |mean ((first :: rest).map (·.total)) - 1| := by
  rw [average_eq h]
  split_ifs with hfar
  · exact iff_of_true ⟨_, rfl, rfl⟩ hfar
  · exact iff_of_false (fun ⟨_, ha, _⟩ => by cases ha) hfar

end First

theorem masses_of_average {f : Frame} {sources : List (MassFunction ℚ)} (h : SharedFrame f sources)
    {a : MassFunction ℚ} (ha : average sources = .ok a) :
    a.frame = f ∧ a.masses = meanMasses sources := by
  cases sources with
  | nil => cases ha
  | cons first rest =>
      rw [average_eq h] at ha
      split_ifs at ha
      obtain rfl := Except.ok.inj ha
      exact ⟨rfl, rfl⟩

theorem average_eq_mismatch {first m : MassFunction ℚ} {rest : List (MassFunction ℚ)}
    (h : (first :: rest).find? (fun m => m.frame ≠ first.frame) = some m) :
    average (first :: rest) = .error (.fault (.sourcesOfFrames first.frame m.frame none)) := by
  cases rest with
  | nil => simp at h
  | cons second rest => simp only [average, h]

theorem shared_or_mismatch {first : MassFunction ℚ} {rest : List (MassFunction ℚ)}
    (h : ∀ m ∈ first :: rest, m.Valid) : SharedFrame first.frame (first :: rest) ∨
      ∃ m, (first :: rest).find? (fun m => m.frame ≠ first.frame) = some m := by
  cases hfind : (first :: rest).find? (fun m => m.frame ≠ first.frame) with
  | none =>
      refine .inl ⟨h, fun m hm => ?_⟩
      simpa using List.find?_eq_none.1 hfind m hm
  | some m => exact .inr ⟨m, rfl⟩

theorem average_copies {sources : List (MassFunction ℚ)} (hne : sources ≠ [])
    (h : ∀ m ∈ sources, m.Valid) (k : ℕ) :
    average (List.replicate (k + 1) sources).flatten = average sources := by
  obtain ⟨first, rest, rfl⟩ := List.exists_cons_of_ne_nil hne
  have hcons : (List.replicate (k + 1) (first :: rest)).flatten =
      first :: (rest ++ (List.replicate k (first :: rest)).flatten) := rfl
  rcases shared_or_mismatch h with hshared | ⟨m, hm⟩
  · have hcopies : SharedFrame first.frame (List.replicate (k + 1) (first :: rest)).flatten :=
      ⟨fun m hm => h m (mem_of_mem_copies hm), fun m hm => hshared.frame m (mem_of_mem_copies hm)⟩
    have hmasses := meanMasses_copies (first :: rest) k
    have htotals : mean ((List.replicate (k + 1) (first :: rest)).flatten.map (·.total)) =
        mean ((first :: rest).map (·.total)) := by
      rw [← total_meanMasses, hmasses, total_meanMasses]
    rw [hcons] at hcopies hmasses htotals ⊢
    rw [average_eq hcopies, average_eq hshared, hmasses, htotals]
  · rw [average_eq_mismatch hm, hcons]
    refine average_eq_mismatch ?_
    rw [← List.cons_append, List.find?_append, hm, Option.some_or]

/-- A question whose answer averages over the sources is answered with the mean of their answers,
and refused if they refuse it. -/
theorem ask_mean {f : Frame} {sources : List (MassFunction ℚ)} (hne : sources ≠ [])
    (hframe : ∀ m ∈ sources, m.frame = f) {a : MassFunction ℚ} (ha : a.frame = f)
    {answer : MassFunction ℚ → Mask → ℚ}
    (hanswer : ∀ A, answer a A = mean (sources.map (answer · A))) (d : Designation ℚ) :
    a.ask d (answer a) = (sources.mapM fun m : MassFunction ℚ => m.ask d (answer m)).map mean := by
  have hask (m : MassFunction ℚ) (hm : m.frame = f) :
      m.ask d (answer m) = (d.find f).map fun e => answer m e.mask := by rw [ask, hm]
  rw [hask a ha]
  cases hfind : d.find f with
  | error c =>
      obtain ⟨first, rest, rfl⟩ := List.exists_cons_of_ne_nil hne
      rw [List.mapM_cons, hask first (hframe first (List.mem_cons_self ..)), hfind]
      rfl
  | ok e =>
      have hall : ∀ m ∈ sources, m.ask d (answer m) = .ok (answer m e.mask) := by
        intro m hm
        rw [hask m (hframe m hm), hfind]
        rfl
      rw [Outcome.mapM_eq_map hall]
      exact congrArg Except.ok (hanswer e.mask)

section Answers

variable {f : Frame} {sources : List (MassFunction ℚ)} (h : SharedFrame f sources)
  {a : MassFunction ℚ} (hframe : a.frame = f) (hmasses : a.masses = meanMasses sources)
include h hframe hmasses

theorem answers_mean (hne : sources ≠ []) (d : Designation ℚ) :
    a.mass d = (sources.mapM (mass · d)).map mean ∧
    a.belief d = (sources.mapM (belief · d)).map mean ∧
    a.plausibility d = (sources.mapM (plausibility · d)).map mean := by
  have htotalOf (p : Mask → Bool) :
      a.masses.totalOf p = mean (sources.map (·.masses.totalOf p)) := by
    rw [hmasses, totalOf_meanMasses]
  refine ⟨ask_mean hne h.frame hframe (fun A => ?_) d,
    ask_mean hne h.frame hframe (fun A => htotalOf _) d,
    ask_mean hne h.frame hframe (fun A => htotalOf _) d⟩
  rw [massOf, hmasses, amount_meanMasses h]

theorem betOf_mean (k : Hypothesis) : a.betOf k = mean (sources.map (·.betOf k)) := by
  rw [betOf, hmasses, hframe, integral_meanMasses]
  refine congrArg mean (List.map_congr_left fun m hm => ?_)
  rw [betOf, h.frame m hm]

theorem pignistic_mean (ha : a.Valid) : ∃ tables, sources.mapM pignistic = .ok tables ∧
    a.pignistic = .ok (f.table fun k => mean (tables.map (Tally.amount k))) := by
  have htables : ∀ m ∈ sources, m.pignistic = .ok (f.table m.betOf) := by
    intro m hm
    rw [(h.valid m hm).pignistic_eq, h.frame m hm]
    rfl
  refine ⟨_, Outcome.mapM_eq_map htables, ?_⟩
  rw [ha.pignistic_eq, hframe]
  refine congrArg Except.ok (List.map_congr_left fun k hk => congrArg (Prod.mk k) ?_)
  rw [betOf_mean h hframe hmasses]
  refine congrArg mean (Eq.trans (List.map_congr_left fun m _ => ?_) List.map_map.symm)
  exact (f.amount_table m.betOf hk).symm

end Answers

/-- Some sources have a mean unless their frames differ or the total of the mean is out of the
first one's tolerance, which it cannot be if that is the widest. Whatever is asked about the mean
is answered with the mean of the answers of the sources. Copies of the whole list change nothing. -/
theorem average_mean {sources : List (MassFunction ℚ)} (hne : sources ≠ [])
    (h : ∀ m ∈ sources, m.Valid) :
    (Outcome.FailsWith .frameMismatch (average sources) ↔
      ∃ m ∈ sources, m.frame ≠ (sources.head hne).frame) ∧
    ((∀ m ∈ sources, m.frame = (sources.head hne).frame) →
      (∀ m ∈ sources, m.epsilon ≤ (sources.head hne).epsilon) → ∃ a, average sources = .ok a) ∧
    (∀ a, average sources = .ok a → a.frame = (sources.head hne).frame ∧
      (∀ d, a.mass d = (sources.mapM (mass · d)).map mean ∧
        a.belief d = (sources.mapM (belief · d)).map mean ∧
        a.plausibility d = (sources.mapM (plausibility · d)).map mean) ∧
      ∃ tables, sources.mapM pignistic = .ok tables ∧
        a.pignistic = .ok (a.frame.table fun k => mean (tables.map (Tally.amount k)))) ∧
    ∀ k, average (List.replicate (k + 1) sources).flatten = average sources := by
  have hcopies := average_copies hne h
  obtain ⟨first, rest, rfl⟩ := List.exists_cons_of_ne_nil hne
  rw [List.head_cons]
  refine ⟨?_, fun hframe hε => ?_, fun a ha => ?_, hcopies⟩
  · rcases shared_or_mismatch h with hshared | ⟨m, hm⟩
    · refine iff_of_false ?_ fun ⟨m, hm, hne⟩ => hne (hshared.frame m hm)
      rintro ⟨c, hc, hcode⟩
      rw [average_eq hshared] at hc
      split_ifs at hc
      obtain rfl := Failure.fault.inj (Except.error.inj hc)
      cases hcode
    · refine iff_of_true ⟨_, average_eq_mismatch hm, rfl⟩ ⟨m, List.mem_of_find?_eq_some hm, ?_⟩
      simpa using List.find?_some hm
  · exact (exists_average_iff ⟨h, hframe⟩).2 (mean_total_near ⟨h, hframe⟩ hne hε)
  · have hvalid := valid_of_average h ha
    rcases shared_or_mismatch h with hshared | ⟨m, hm⟩
    · obtain ⟨hframe, hmasses⟩ := masses_of_average hshared ha
      rw [hframe]
      exact ⟨rfl, answers_mean hshared hframe hmasses hne,
        pignistic_mean hshared hframe hmasses hvalid⟩
    · rw [average_eq_mismatch hm] at ha
      cases ha

theorem average_mean_leaning :
    let sources := [leaning, simple .binary (.finite 2) (1 / 2)]
    (∀ m ∈ sources, m.Valid) ∧ ∃ a, average sources = .ok a ∧
      a.belief (.single (.ofNat 0)) = .ok (3 / 20) ∧
      a.pignistic = .ok [(.number 0, 9 / 20), (.number 1, 11 / 20)] ∧
      average (sources ++ sources) = .ok a := by
  intro sources
  have hvalid : ∀ m ∈ sources, m.Valid := by
    refine List.forall_mem_cons.2 ⟨?_, List.forall_mem_singleton.2 ?_⟩
    · exact valid_simple (by decide) (by decide) (by decide) (by norm_num) (by norm_num)
    · exact valid_simple (by decide) (by decide) (by decide) (by norm_num) (by norm_num)
  have hbeliefs : sources.mapM (belief · (.single (.ofNat 0))) = .ok [3 / 10, 0] := by cbv
  have hprobabilities : sources.mapM pignistic =
      .ok [[(.number 0, 13 / 20), (.number 1, 7 / 20)],
        [(.number 0, 1 / 4), (.number 1, 3 / 4)]] := by cbv
  obtain ⟨-, hexists, hmean, hcopies⟩ := average_mean (List.cons_ne_nil _ _) hvalid
  obtain ⟨a, ha⟩ := hexists (by simp [leaning, simple]) (by simp [leaning, simple])
  obtain ⟨hframe, hanswers, tables, htables, hpignistic⟩ := hmean a ha
  obtain rfl := Except.ok.inj (htables.symm.trans hprobabilities)
  refine ⟨hvalid, a, ha, ?_, ?_, (hcopies 1).trans ha⟩
  · rw [(hanswers _).2.1, hbeliefs]
    cbv
  · rw [hpignistic, hframe]
    cbv

end MassFunction

end Evidence
