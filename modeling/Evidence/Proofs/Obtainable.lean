import Mathlib
import Evidence.Untyped.Fusion
import Evidence.MassFunction.Binary
import Evidence.Proofs.Constructing
import Evidence.Proofs.Labels
import Evidence.Proofs.Simple
import Evidence.Proofs.Views

namespace Evidence

inductive Event.Obtainable (α : Type) [Scalar α] : Event → Prop
  | full (f : Frame) : Obtainable α (.full f)
  | empty (f : Frame) : Obtainable α (.empty f)
  | ofValue {f : Frame} {v : Value α} {e : Event} (h : Event.ofValue f v = .ok e) : Obtainable α e
  | ofLabel {f : Frame} {label : String} {e : Event}
      (h : (Event.ofLabel f label : Except (Fault α) Event) = .ok e) : Obtainable α e
  | ofMask {f : Frame} {mask : Mask} {e : Event}
      (h : (Event.ofMask f mask : Except (Fault α) Event) = .ok e) : Obtainable α e
  | nonempty {f : Frame} {es : List Event} {e : Event}
      (h : (Event.nonempty f : Except (Failure α) (List Event)) = .ok es) (he : e ∈ es) :
      Obtainable α e
  | resolved {f : Frame} {d : Designation α} {e : Event}
      (hd : ∀ c, d = .event c → Obtainable α c) (h : d.find f = .ok e) : Obtainable α e
  | inter {c d e : Event} (hc : Obtainable α c) (hd : Obtainable α d)
      (h : (c.inter d : Except (Fault α) Event) = .ok e) : Obtainable α e
  | union {c d e : Event} (hc : Obtainable α c) (hd : Obtainable α d)
      (h : (c.union d : Except (Fault α) Event) = .ok e) : Obtainable α e

inductive MassFunction.Obtainable {α : Type} [Scalar α] : MassFunction α → Prop
  | ofEntries {pairs : List (Designation α × Value α)} {options : MassOptions α}
      {m : MassFunction α} (events : ∀ p ∈ pairs, ∀ e, p.1 = .event e → e.Obtainable α)
      (h : ofEntries pairs options = .ok m) : Obtainable m
  | ofEntriesValue {items : List (Value α)} {options : MassOptions α} {m : MassFunction α}
      (events : ∀ v ∈ items, ∀ e x, v.pair = .ok (.event e, x) → e.Obtainable α)
      (h : ofEntriesValue (.list items) options = .ok m) : Obtainable m
  | ofRecord {record : Record (Value α)} {options : MassOptions α} {m : MassFunction α}
      (h : ofRecord record options = .ok m) : Obtainable m
  | ofPlain {record options : Value α} {m : MassFunction α} (h : ofPlain record options = .ok m) :
      Obtainable m
  | ofDocument {v : Value α} {m : MassFunction α} (h : ofDocument v = .ok m) : Obtainable m
  | ofBytes {bytes : List UInt8} {m : MassFunction α} (h : ofBytes bytes = some (.ok m)) :
      Obtainable m
  | vacuous {choice : FrameChoice α} {epsilon : Value α} {m : MassFunction α}
      (h : vacuous choice epsilon = .ok m) : Obtainable m
  | ofMasks {f : Frame} {masses : Tally Mask (Value α)} {epsilon : Value α} {m : MassFunction α}
      (h : ofMasks f masses epsilon = .ok m) : Obtainable m
  | average {sources : List (MassFunction α)} {m : MassFunction α}
      (hs : ∀ n ∈ sources, Obtainable n) (h : average sources = .ok m) : Obtainable m
  | combination {sources : List (MassFunction α)} {rule : RuleChoice α} {options : DriftOptions α}
      {c : Combination α} (hs : ∀ n ∈ sources, Obtainable n)
      (h : Combination.ofSources sources rule options = .ok c) : Obtainable c.mass
  | policy {p : Policy α} {sources : List (MassFunction α)} {rule : RuleChoice α} {r : Fusion α}
      (hs : ∀ n ∈ sources, Obtainable n) (h : (p.combineAll sources rule).outcome = .ok r) :
      Obtainable r.mass
  | fusion {sources : List (MassFunction α)} {rule : RuleChoice α} {options : Value α}
      {r : Fusion α} (hs : ∀ n ∈ sources, Obtainable n)
      (h : (Fusion.ofSources sources rule options).outcome = .ok r) : Obtainable r.mass
  | client {sources : List (Source α)} {rule options : Value α} {r : Fusion α}
      (hs : ∀ n, .mass n ∈ sources → Obtainable n)
      (h : (Source.combineAll sources rule options).outcome = .ok r) : Obtainable r.mass
  | clientPair {a b : Source α} {rule options : Value α} {r : Fusion α}
      (hs : ∀ n, .mass n ∈ [a, b] → Obtainable n)
      (h : (Source.combine a b rule options).outcome = .ok r) : Obtainable r.mass

namespace Event

variable {α : Type} [Scalar α]

theorem within_find {f : Frame} {values : List (Value α)} {e : Event} (h : find f values = .ok e) :
    e.frame = f ∧ e.mask.within f.size = true := by
  unfold find at h
  split at h
  · cases h
  · exact within_ofValues (Outcome.ofFault_eq_ok h)

omit [Scalar α] in
theorem within_nonempty {f : Frame} {es : List Event}
    (h : (nonempty f : Except (Failure α) (List Event)) = .ok es) :
    ∀ e ∈ es, e.frame = f ∧ e.mask.within f.size = true := by
  unfold nonempty at h
  split_ifs at h
  obtain rfl := Except.ok.inj h
  rw [List.forall_mem_map]
  intro n hn
  have hlt : n < 1 <<< f.size := by
    rw [List.mem_range'_1, Nat.one_shiftLeft] at hn
    rw [Nat.one_shiftLeft]
    omega
  exact ⟨rfl, decide_eq_true hlt⟩

omit [Scalar α] in
theorem both_eq_ok {op : Mask → Mask → Event} {c d e : Event}
    (h : (both op c d : Except (Fault α) Event) = .ok e) :
    c.frame = d.frame ∧ e = op c.mask d.mask := by
  unfold both at h
  split_ifs at h with hframe
  exact ⟨hframe, (Except.ok.inj h).symm⟩

theorem Obtainable.within {e : Event} (h : e.Obtainable α) : e.mask.within e.frame.size = true := by
  induction h with
  | full f => exact Mask.within_full _
  | empty f => exact Mask.within_empty _
  | ofValue h =>
      obtain ⟨values, -, h⟩ := Outcome.bind_eq_ok h
      obtain ⟨rfl, hin⟩ := within_find h
      exact hin
  | ofLabel h =>
      obtain ⟨rfl, hin⟩ := within_ofLabel h
      exact hin
  | ofMask h =>
      obtain ⟨rfl, hin⟩ := within_ofMask h
      exact hin
  | nonempty h he =>
      obtain ⟨rfl, hin⟩ := within_nonempty h _ he
      exact hin
  | @resolved f d e hd h ih =>
      unfold Designation.find at h
      split at h
      · cases h
      · obtain ⟨rfl, hin⟩ := Designation.within_resolve (fun c hc hframe => hframe ▸ ih c hc)
          (Outcome.ofFault_eq_ok h)
        exact hin
  | inter hc hd h ihc ihd =>
      obtain ⟨-, rfl⟩ := both_eq_ok h
      exact Mask.within_inter ihc _
  | union hc hd h ihc ihd =>
      obtain ⟨hframe, rfl⟩ := both_eq_ok h
      exact Mask.within_union ihc (hframe ▸ ihd)

end Event

namespace MassFunction

variable {α : Type} [Scalar α] [Scalar.Lawful α]

omit [Scalar.Lawful α] in
theorem inspected_of_ofEntries {pairs : List (Designation α × Value α)} {options : MassOptions α}
    {m : MassFunction α} (h : ofEntries pairs options = .ok m) :
    ∃ f ε, resolveEpsilon options.epsilon = .ok ε ∧
      (∀ choice, options.frame = some choice → choice.resolve = .ok f) ∧
      ofInspected f ε (pairs.map fun p => ⟨p.1.resolve f, p.1.misuse? f, p.2, p.1.name⟩) = .ok m := by
  obtain ⟨ε, hε, h⟩ := Outcome.bind_eq_ok h
  dsimp only at h
  split at h
  · cases h
  · split at h
    · next choice hchoice =>
      obtain ⟨f, hf, h⟩ := Outcome.bind_eq_ok h
      obtain ⟨-, -, h⟩ := Outcome.bind_eq_ok h
      refine ⟨f, ε, hε, fun c hc => ?_, h⟩
      cases hchoice.symm.trans hc
      exact hf
    · next hchoice =>
      obtain ⟨f, -, h⟩ := Outcome.bind_eq_ok h
      obtain ⟨-, -, h⟩ := Outcome.bind_eq_ok h
      refine ⟨f, ε, hε, fun c hc => ?_, h⟩
      cases hchoice.symm.trans hc

/-- Events of any make are given masses above zero and at most one. -/
theorem positive_of_ofEntries {pairs : List (Designation α × Value α)} {options : MassOptions α}
    {m : MassFunction α} (h : ofEntries pairs options = .ok m) :
    ∀ e ∈ m.masses, 0 < e.2 ∧ e.2 ≤ 1 := by
  obtain ⟨f, ε, -, -, h⟩ := inspected_of_ofEntries h
  exact positive_of_ofInspected h

theorem valid_of_ofEntries {pairs : List (Designation α × Value α)} {options : MassOptions α}
    {m : MassFunction α} (events : ∀ p ∈ pairs, ∀ e, p.1 = .event e → e.Obtainable α)
    (h : ofEntries pairs options = .ok m) : m.Valid := by
  obtain ⟨f, ε, hε, -, h⟩ := inspected_of_ofEntries h
  refine valid_of_ofInspected (checkEpsilon_eq_ok hε) ?_ h
  rw [List.forall_mem_map]
  intro p hp e he
  exact (Designation.within_resolve (fun c hc hframe => hframe ▸ (events p hp c hc).within) he).2

omit [Scalar.Lawful α] in
theorem pair_of_pairOfEntry {v : Value α} {p : Designation α × Value α}
    (h : pairOfEntry v = .ok p) {e : Event} (he : p.1 = .event e) :
    ∃ x, v.pair = .ok (.event e, x) := by
  obtain ⟨⟨set, mass⟩, hpair, h⟩ := Outcome.bind_eq_ok h
  obtain ⟨-, -, h⟩ := Outcome.bind_eq_ok h
  obtain rfl := Except.ok.inj h
  cases set with
  | event c =>
      obtain rfl := Designation.event.inj he
      exact ⟨mass, hpair⟩
  | _ => cases he

theorem valid_of_ofEntriesValue {items : List (Value α)} {options : MassOptions α}
    {m : MassFunction α} (events : ∀ v ∈ items, ∀ e x, v.pair = .ok (.event e, x) → e.Obtainable α)
    (h : ofEntriesValue (.list items) options = .ok m) : m.Valid := by
  have hpaired : ∃ pairs o, items.mapM pairOfEntry = .ok pairs ∧ ofEntries pairs o = .ok m := by
    obtain ⟨_, -, h⟩ := Outcome.bind_eq_ok h
    obtain ⟨_, -, h⟩ := Outcome.bind_eq_ok h
    dsimp only at h
    split at h
    · cases h
    · split at h
      all_goals
        obtain ⟨_, -, h⟩ := Outcome.bind_eq_ok h
        obtain ⟨pairs, hpairs, h⟩ := Outcome.bind_eq_ok h
        exact ⟨pairs, _, Outcome.ofMisuse_eq_ok hpairs, h⟩
  obtain ⟨pairs, o, hpairs, h⟩ := hpaired
  refine valid_of_ofEntries (fun p hp e he => ?_) h
  obtain ⟨v, hv, hvp⟩ := Outcome.exists_of_mapM hpairs hp
  obtain ⟨x, hx⟩ := pair_of_pairOfEntry hvp he
  exact events v hv e x hx

theorem valid_of_ofRecord {record : Record (Value α)} {options : MassOptions α}
    {m : MassFunction α} (h : ofRecord record options = .ok m) : m.Valid := by
  obtain ⟨ε, hε, h⟩ := Outcome.bind_eq_ok h
  obtain ⟨f, -, h⟩ := Outcome.bind_eq_ok h
  refine valid_of_ofInspected (checkEpsilon_eq_ok hε) ?_ h
  unfold recordEntries
  rw [List.forall_mem_map]
  intro p _ e he
  dsimp only at he
  exact (Event.within_ofLabel he).2

theorem valid_of_ofMasks {f : Frame} {masses : Tally Mask (Value α)} {epsilon : Value α}
    {m : MassFunction α} (h : ofMasks f masses epsilon = .ok m) : m.Valid := by
  obtain ⟨ε, hε, h⟩ := Outcome.bind_eq_ok h
  refine valid_of_ofInspected (checkEpsilon_eq_ok hε) ?_ h
  rw [List.forall_mem_map]
  rintro ⟨mask, x⟩ _ e he
  obtain ⟨rfl, hin⟩ := Event.within_ofMask he
  exact hin

theorem valid_of_vacuous {choice : FrameChoice α} {epsilon : Value α} {m : MassFunction α}
    (h : vacuous choice epsilon = .ok m) : m.Valid := by
  obtain ⟨f, -, h⟩ := Outcome.bind_eq_ok h
  obtain ⟨ε, hε, h⟩ := Outcome.bind_eq_ok h
  obtain rfl := Except.ok.inj h
  have hε := checkEpsilon_eq_ok hε
  refine ⟨?_, List.nodup_singleton _, ?_, hε, ?_⟩
  · exact List.forall_mem_singleton.2 ⟨f.full_ne_empty, Mask.within_full _⟩
  · exact List.forall_mem_singleton.2 ⟨Scalar.Lawful.zero_lt_one, Scalar.Lawful.one_le_one⟩
  · exact Scalar.Lawful.distance_sum_one.trans_le (Scalar.Lawful.le_of_lt hε.1)

theorem valid_of_average {sources : List (MassFunction α)} (hs : ∀ n ∈ sources, n.Valid)
    {m : MassFunction α} (h : average sources = .ok m) : m.Valid := by
  unfold average at h
  split at h
  · cases h
  · obtain rfl := Except.ok.inj h
    exact hs _ (List.mem_singleton_self _)
  · split at h
    · cases h
    · exact valid_of_ofMasks h

omit [Scalar.Lawful α] in
/-- What a combination yields is a source alone, or passes as computed masses and comes with the
conflict of all sources. -/
theorem cases_of_ofSources {sources : List (MassFunction α)} {rule : RuleChoice α}
    {options : DriftOptions α} {c : Combination α}
    (h : Combination.ofSources sources rule options = .ok c) :
    (sources = [c.mass] ∧ c.conflict = 0) ∨
      ∃ (f : Frame) (masses : Tally Mask α) (epsilon : Value α) (withUnion : Bool),
        ofMasses f masses epsilon = .ok c.mass ∧
          c.conflict = (Conjunction.ofSources withUnion f sources).conflict ∧
          ∀ first rest, sources = first :: rest → Combination.commonFrame first rest = .ok f := by
  unfold Combination.ofSources at h
  split at h
  · cases h
  · obtain rfl := Except.ok.inj h
    exact .inl ⟨rfl, rfl⟩
  · obtain ⟨f, hf, h⟩ := Outcome.bind_eq_ok h
    obtain ⟨t, -, h⟩ := Outcome.bind_eq_ok h
    split at h
    · unfold Combination.underRule at h
      dsimp only at h
      split_ifs at h
      · cases h
      obtain ⟨s, -, h⟩ := Outcome.bind_eq_ok h
      obtain ⟨n, hn, h⟩ := Outcome.bind_eq_ok h
      obtain rfl := Except.ok.inj h
      refine .inr ⟨f, s, _, _, hn, rfl, ?_⟩
      rintro _ _ ⟨⟩
      exact Outcome.ofFault_eq_ok hf
    · cases h

theorem valid_of_ofSources {sources : List (MassFunction α)} (hs : ∀ n ∈ sources, n.Valid)
    {rule : RuleChoice α} {options : DriftOptions α} {c : Combination α}
    (h : Combination.ofSources sources rule options = .ok c) : c.mass.Valid := by
  rcases cases_of_ofSources h with ⟨rfl, -⟩ | ⟨_, _, _, _, hn, -⟩
  · exact hs _ (List.mem_singleton_self _)
  · exact valid_of_ofMasks hn

omit [Scalar.Lawful α] in
theorem combined_of_policy {p : Policy α} {sources : List (MassFunction α)} {rule : RuleChoice α}
    {r : Fusion α} (h : (p.combineAll sources rule).outcome = .ok r) :
    ∃ c, Combination.ofSources sources rule (.ofTolerances p.tolerances) = .ok c ∧
      r.mass = c.mass ∧ r.conflict = c.conflict := by
  unfold Policy.combineAll at h
  split at h
  · cases h
  · next c hc =>
    obtain ⟨_, -, rfl⟩ := Outcome.map_eq_ok h
    exact ⟨c, hc, rfl, rfl⟩

theorem valid_of_policy {p : Policy α} {sources : List (MassFunction α)}
    (hs : ∀ n ∈ sources, n.Valid) {rule : RuleChoice α} {r : Fusion α}
    (h : (p.combineAll sources rule).outcome = .ok r) : r.mass.Valid := by
  obtain ⟨c, hc, hmass, -⟩ := combined_of_policy h
  exact hmass ▸ valid_of_ofSources hs hc

theorem valid_of_fusion {sources : List (MassFunction α)} (hs : ∀ n ∈ sources, n.Valid)
    {rule : RuleChoice α} {options : Value α} {r : Fusion α}
    (h : (Fusion.ofSources sources rule options).outcome = .ok r) : r.mass.Valid := by
  unfold Fusion.ofSources at h
  split at h
  · cases h
  · exact valid_of_policy hs h

theorem valid_of_ofPlain {record options : Value α} {m : MassFunction α}
    (h : ofPlain record options = .ok m) : m.Valid := by
  obtain ⟨_, -, h⟩ := Outcome.bind_eq_ok h
  obtain ⟨_, -, h⟩ := Outcome.bind_eq_ok h
  exact valid_of_ofRecord h

theorem valid_of_prepare {sources : List (Source α)} (hs : ∀ n, .mass n ∈ sources → n.Valid)
    {rule options : Value α} {choice : RuleChoice α} {masses : List (MassFunction α)}
    (h : Source.prepare sources rule options = .ok (choice, masses)) : ∀ n ∈ masses, n.Valid := by
  obtain ⟨_, -, h⟩ := Outcome.bind_eq_ok h
  obtain ⟨_, -, h⟩ := Outcome.bind_eq_ok h
  obtain ⟨ms, hms, h⟩ := Outcome.bind_eq_ok h
  obtain ⟨rfl, rfl⟩ := Prod.mk.inj (Except.ok.inj h)
  intro n hn
  obtain ⟨s, hmem, hn⟩ := Outcome.exists_of_mapM hms hn
  cases s with
  | mass k =>
      obtain rfl := Except.ok.inj hn
      exact hs _ hmem
  | plain v => exact valid_of_ofPlain hn

/-- Every mass function that a run of operations leads to is valid. -/
theorem Obtainable.valid {m : MassFunction α} (h : m.Obtainable) : m.Valid := by
  induction h with
  | ofEntries events h => exact valid_of_ofEntries events h
  | ofEntriesValue events h => exact valid_of_ofEntriesValue events h
  | ofRecord h => exact valid_of_ofRecord h
  | ofPlain h => exact valid_of_ofPlain h
  | ofDocument h =>
      obtain ⟨_, -, h⟩ := Outcome.bind_eq_ok h
      exact valid_of_ofRecord h
  | @ofBytes bytes m h =>
      obtain ⟨v, -, h⟩ := Option.map_eq_some_iff.1 h
      obtain ⟨_, -, h⟩ := Outcome.bind_eq_ok h
      exact valid_of_ofRecord h
  | vacuous h => exact valid_of_vacuous h
  | ofMasks h => exact valid_of_ofMasks h
  | average _ h ih => exact valid_of_average ih h
  | combination _ h ih => exact valid_of_ofSources ih h
  | policy _ h ih => exact valid_of_policy ih h
  | fusion _ h ih => exact valid_of_fusion ih h
  | client _ h ih =>
      unfold Source.combineAll at h
      split at h
      · cases h
      · next hp => exact valid_of_fusion (valid_of_prepare ih hp) h
  | clientPair _ h ih =>
      unfold Source.combine at h
      split at h
      · cases h
      · next hp => exact valid_of_fusion (valid_of_prepare ih hp) h

structure Dependable (m : MassFunction α) : Prop where
  nonempty : m.frame.elements ≠ []
  sorted : m.frame.elements.Pairwise (· < ·)
  texts : (m.frame.elements.map (·.text)).Nodup
  valid : m.Valid
  focalEvents : ∃ events, m.focalEvents = .ok events
  entries : ∃ entries, m.entries = .ok entries
  toRecord : ∃ record, m.toRecord = .ok record
  toDocument : ∃ document, m.toDocument = .ok document
  text : ∃ text, m.text = .ok text
  pignistic : ∃ shares, m.pignistic = .ok shares

/-- Every mass function that a run of operations leads to can be relied on. -/
theorem Obtainable.dependable {m : MassFunction α} (h : m.Obtainable) : m.Dependable where
  nonempty := m.frame.nonempty
  sorted := m.frame.sorted
  texts := m.frame.nodup_texts
  valid := h.valid
  focalEvents := ⟨_, h.valid.focalEvents_eq⟩
  entries := ⟨_, h.valid.entries_eq⟩
  toRecord := ⟨_, h.valid.toRecord_eq⟩
  toDocument := ⟨_, h.valid.toDocument_eq⟩
  text := ⟨_, h.valid.text_eq⟩
  pignistic := by
    obtain ⟨p, ps, h⟩ := h.valid.exists_pignistic
    exact ⟨p :: ps, h⟩

/-- Entries in binary64, averaged with total ignorance and then fused with themselves. -/
theorem dependable_fused : ∃ a b c : MassFunction Float, ∃ d,
    ofEntries [(.single (.ofNat 0), .finite 0.5), (.list [.ofNat 0, .ofNat 1], .finite 0.5)]
      ⟨some (.frame .binary), .absent⟩ = .ok a ∧
    vacuous (.frame .binary) .absent = .ok b ∧ average [a, b] = .ok c ∧
    Combination.ofSources [a, c] (.rule .yager) (.fields .absent .absent) = .ok d ∧
    d.mass.Dependable := by
  let a : MassFunction Float := ⟨.binary, [(.finite 1, 0.5), (.finite 3, 0.5)], defaultEpsilon⟩
  let b : MassFunction Float := ⟨.binary, [(.finite 3, 1)], defaultEpsilon⟩
  have ha : ofEntries [(.single (.ofNat 0), .finite 0.5),
      (.list [.ofNat 0, .ofNat 1], .finite 0.5)] ⟨some (.frame .binary), .absent⟩ = .ok a := rfl
  have hb : vacuous (.frame .binary) .absent = .ok b := rfl
  have hfused : ((average [a, b]).bind fun c =>
      Combination.ofSources [a, c] (.rule .yager) (.fields .absent .absent)).toBool = true := by
    decide +kernel
  obtain ⟨d, hd⟩ := Outcome.exists_of_toBool hfused
  obtain ⟨c, hc, hd⟩ := Outcome.bind_eq_ok hd
  have hoa : a.Obtainable := by
    refine .ofEntries (fun p hp e he => ?_) ha
    rcases List.mem_pair.1 hp with rfl | rfl
    · cases he
    · cases he
  have hoc : c.Obtainable := .average (by simp [hoa, Obtainable.vacuous hb]) hc
  exact ⟨a, b, c, d, ha, hb, hc, hd,
    Obtainable.dependable (.combination (by simp [hoa, hoc]) hd)⟩

end MassFunction

end Evidence
