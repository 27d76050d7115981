import Mathlib
import Evidence.Proofs.Labels
import Evidence.Proofs.Records
import Evidence.Proofs.SourceOrder
import Evidence.Proofs.Views

namespace Evidence

namespace MassFunction

theorem nodup_labelled {f : Frame} {t : Tally Mask ℚ} (h : t.Supported f) :
    (Record.keys (labelled f t)).Nodup := by
  have hkeys : Record.keys (labelled f t) = t.keys.map fun mask => (Event.mk f mask).label := by
    rw [Record.keys, labelled, List.map_map, Tally.keys, List.map_map]
    rfl
  rw [hkeys]
  exact Event.nodup_labels (fun A hA => h.key_within hA) h.distinct

/-- A record may list labels in another order. -/
theorem exists_ofPairs_labelled {f : Frame} {t : Tally Mask ℚ} (h : t.Supported f) :
    ∃ u : Tally Mask ℚ, u.Perm t ∧ Record.ofPairs (labelled f t) = labelled f u := by
  have hrel : List.Forall₂ (fun p e => p = ((Event.mk f e.1).label, Value.finite e.2))
      (labelled f t) t := by
    rw [labelled, List.forall₂_map_left_iff, List.forall₂_same]
    exact fun e _ => rfl
  obtain ⟨u, hu, hperm⟩ := List.perm_comp_forall₂ (Record.ofPairs_perm (nodup_labelled h)) hrel
  exact ⟨u, hperm, List.forall₂_eq_eq_eq ▸ List.forall₂_map_right_iff.2 hu⟩

theorem ofRecord_labelled {f : Frame} {t : Tally Mask ℚ} (h : t.Supported f)
    (le_one : ∀ e ∈ t, e.2 ≤ 1) {choice : FrameChoice ℚ} (hf : choice.resolve = .ok f)
    {v : Value ℚ} {ε : ℚ} (hε : resolveEpsilon v = .ok ε) :
    ofRecord (labelled f t) ⟨some choice, v⟩ =
      if ε < |t.total - 1| then .error (.fault (.unnormalized t.total ε f)) else .ok ⟨f, t, ε⟩ := by
  have hputs : List.Forall₂ (Entry.Puts f) (recordEntries f (labelled f t)) t := by
    rw [recordEntries, List.forall₂_map_left_iff, labelled, List.forall₂_map_left_iff,
      List.forall₂_same]
    refine fun e he => ⟨?_, rfl, rfl⟩
    dsimp only
    exact Event.ofLabel_label (e := ⟨f, e.1⟩) (h.inside e he).2
  rw [ofRecord, hε]
  change (choice.resolve.bind _) = _
  rw [hf]
  exact ofInspected_puts h le_one hputs ε

section Valid

variable {m : MassFunction ℚ} (h : m.Valid)

def kept (m : MassFunction ℚ) : Tally Mask ℚ :=
  m.masses.filter fun e => (Event.mk m.frame e.1).label ≠ Record.unkeptKey

theorem erase_labelled (m : MassFunction ℚ) :
    Record.erase Record.unkeptKey (labelled m.frame m.masses) = labelled m.frame m.kept := by
  rw [Record.erase, labelled, List.filter_map]
  rfl

include h

theorem Valid.supported_kept : m.kept.Supported m.frame where
  inside e he := h.inside e (List.mem_of_mem_filter he)
  distinct := (List.filter_sublist.map _).nodup h.distinct
  pos e he := (h.positive e (List.mem_of_mem_filter he)).1

theorem Valid.exists_toRecord :
    ∃ u : Tally Mask ℚ, u.Perm m.kept ∧ m.toRecord = .ok (labelled m.frame u) := by
  obtain ⟨u, hu, hlisted⟩ := exists_ofPairs_labelled h.supported_kept
  exact ⟨u, hu, by rw [h.toRecord_eq, erase_labelled, hlisted]⟩

theorem Valid.ofRecord_kept {u : Tally Mask ℚ} (hu : u.Perm m.kept) {choice : FrameChoice ℚ}
    (hf : choice.resolve = .ok m.frame) :
    ofRecord (labelled m.frame u) ⟨some choice, .finite m.epsilon⟩ =
      if m.epsilon < |m.kept.total - 1| then
        .error (.fault (.unnormalized m.kept.total m.epsilon m.frame))
      else .ok ⟨m.frame, u, m.epsilon⟩ := by
  have hε : resolveEpsilon (.finite m.epsilon) = .ok m.epsilon := h.checkEpsilon_eq
  rw [ofRecord_labelled (h.supported_kept.of_perm hu) (fun e he => ?_) hf hε, Tally.total_perm hu]
  exact (h.positive e (List.mem_of_mem_filter (hu.mem_iff.1 he))).2

theorem Valid.kept_eq (hkeep : ∀ e ∈ m.masses, (Event.mk m.frame e.1).label ≠ Record.unkeptKey) :
    m.kept = m.masses ∧ ¬ m.epsilon < |m.kept.total - 1| := by
  have hall : m.kept = m.masses := List.filter_eq_self.2 fun e he => by simpa using hkeep e he
  rw [hall]
  exact ⟨rfl, not_lt.2 h.total_near⟩

/-- The record of a valid mass function restores it just when no focal event has the label that
records do not keep. -/
theorem ofRecord_toRecord_iff :
    (∃ record n, m.toRecord = .ok record ∧
      ofRecord record ⟨some (.frame m.frame), .finite m.epsilon⟩ = .ok n ∧
      SameEvidence m n ∧ n.epsilon = m.epsilon) ↔
    ∀ e ∈ m.masses, (Event.mk m.frame e.1).label ≠ Record.unkeptKey := by
  obtain ⟨u, hu, hrecord⟩ := h.exists_toRecord
  have hread := h.ofRecord_kept hu (rfl : (FrameChoice.frame m.frame).resolve = .ok m.frame)
  constructor
  · rintro ⟨record', n, hrecord', hn, hsame, -⟩ e he hlabel
    obtain rfl := Except.ok.inj (hrecord.symm.trans hrecord')
    rw [hread] at hn
    split_ifs at hn
    obtain rfl := Except.ok.inj hn
    have hnot : e.1 ∉ u.keys := by
      intro hmem
      obtain ⟨d, hd, hde⟩ := List.mem_map.1 hmem
      have hkept := List.mem_filter.1 (hu.mem_iff.1 hd)
      rw [hde, hlabel] at hkept
      simp at hkept
    have hzero : u.amount e.1 = 0 := Tally.amount_eq_zero hnot
    have hmass : m.masses.amount e.1 = u.amount e.1 := hsame.mass e.1
    rw [hzero, Tally.amount_of_mem h.distinct he] at hmass
    exact (h.positive e he).1.ne' hmass
  · intro hkeep
    obtain ⟨hall, hnormal⟩ := h.kept_eq hkeep
    rw [if_neg hnormal] at hread
    exact ⟨_, _, hrecord, hread, .of_perm h rfl (hall ▸ hu).symm, rfl⟩

end Valid

theorem ofRecord_toRecord_simple : ∃ record n,
    (simple .binary (.finite 2) (1 / 3)).toRecord = .ok record ∧
    ofRecord record ⟨some (.frame .binary), .finite defaultEpsilon⟩ = .ok n ∧
    SameEvidence (simple .binary (.finite 2) (1 / 3)) n ∧ n.epsilon = defaultEpsilon :=
  (ofRecord_toRecord_iff (valid_simple (by decide) (by decide) (by decide) (by norm_num)
    (by norm_num))).2 (by decide)

def unkept : Frame where
  elements := [.name Record.unkeptKey, .name "a"]
  sorted := by decide
  valid := by decide
  distinct := by decide
  nonempty := by decide

/-- All mass on the name that records do not keep is lost. -/
theorem ofRecord_toRecord_unkept :
    let m : MassFunction ℚ := ⟨unkept, [(.finite 1, 1)], defaultEpsilon⟩
    m.Valid ∧ m.toRecord = .ok [] ∧
      ¬ ∃ n, ofRecord [] ⟨some (.frame unkept), .finite m.epsilon⟩ = .ok n := by
  intro m
  have hvalid : m.Valid :=
    valid_certain (by decide) (by decide) (by norm_num) (by norm_num [defaultEpsilon_eq])
      (by norm_num [defaultEpsilon_eq])
  have hkept : m.kept = [] := by decide
  have hrecord : m.toRecord = .ok [] := by
    rw [hvalid.toRecord_eq, erase_labelled, hkept]
    exact congrArg Except.ok (List.perm_nil.1 (Record.ofPairs_perm List.nodup_nil))
  have hlost : m.epsilon < |m.kept.total - 1| := by
    rw [hkept, Tally.total_eq_integral]
    norm_num [m, defaultEpsilon_eq]
  have hread := hvalid.ofRecord_kept (.refl _)
    (rfl : (FrameChoice.frame m.frame).resolve = .ok m.frame)
  rw [if_pos hlost, hkept] at hread
  refine ⟨hvalid, hrecord, ?_⟩
  rintro ⟨n, hn⟩
  cases hn.symm.trans hread

end MassFunction

end Evidence
