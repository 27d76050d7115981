import Mathlib
import Evidence.MassFunction.Document
import Evidence.Proofs.Admitting

namespace Evidence

variable {α : Type} [Scalar α]

theorem Event.code_of_ofValues {f : Frame} {values : List (Value α)} {c : Fault α}
    (h : ofValues f values = .error c) : c.code = .invalidFocalSet := by
  rcases Outcome.bind_eq_error h with h | ⟨mask, -, h⟩
  · obtain ⟨mask, v, -, h⟩ := Outcome.exists_of_foldlM_eq_error h
    cases hv : f.positionOf? v with
    | some i => simp [hv] at h
    | none =>
        simp only [hv, Except.error.injEq] at h
        exact h ▸ rfl
  · cases h

/-- An event is taken over by its own frame, and looked for by its hypotheses in any other. -/
theorem Designation.find_event (f : Frame) (c : Event) :
    (∃ fault, (event c : Designation α).find f = .error (.fault fault) ∧
      fault.code = .invalidFocalSet) ∨
    ∃ e, (event c : Designation α).find f = .ok e ∧ e.frame = f ∧ (c.frame = f → e = c) ∧
      (e.mask.within f.size = true ↔ (c.frame = f → c.mask.within f.size = true)) := by
  by_cases hframe : c.frame = f
  · refine .inr ⟨c, ?_, hframe, fun _ => rfl, fun h _ => h, fun h => h hframe⟩
    exact congrArg Failure.ofFault (if_pos hframe)
  · have hfind : (event c : Designation α).find f =
        Failure.ofFault (Event.ofValues f (event c).items) :=
      congrArg Failure.ofFault (if_neg hframe)
    cases h : Event.ofValues f (event c : Designation α).items with
    | error fault =>
        rw [hfind, h]
        exact .inl ⟨fault, rfl, Event.code_of_ofValues h⟩
    | ok e =>
        obtain ⟨he, hin⟩ := Event.within_ofValues h
        rw [hfind, h]
        exact .inr ⟨e, rfl, he, fun h => absurd h hframe, fun _ h => absurd h hframe, fun _ => hin⟩

namespace MassFunction

inductive Views (m : MassFunction α) {β : Type} : Except (Fault α) β → Prop
  | shown (inside : ∀ e ∈ m.masses, e.1.within m.frame.size = true) (b : β) : Views m (.ok b)
  | refused {e : Mask × α} (he : e ∈ m.masses) (outside : e.1.within m.frame.size = false) :
      Views m (.error (.maskOutside e.1 m.frame))

variable {m : MassFunction α} {β γ : Type}

omit [Scalar α] in
theorem Views.bind_ok {x : Except (Fault α) β} (h : Views m x) (g : β → γ) :
    Views m (x.bind fun b => .ok (g b)) := by
  cases h with
  | shown inside b => exact .shown inside (g b)
  | refused he outside => exact .refused he outside

omit [Scalar α] in
theorem views_mapM {t : Tally Mask α} (ht : t.Perm m.masses) (g : Mask × α → Event → β) :
    Views m (t.mapM fun e => (Event.ofMask m.frame e.1).bind fun d => .ok (g e d)) := by
  cases h : t.mapM fun e => (Event.ofMask m.frame e.1).bind fun d =>
      (Except.ok (g e d) : Except (Fault α) β) with
  | ok bs =>
      refine .shown (fun e he => ?_) bs
      obtain ⟨b, -, hb⟩ := Outcome.exists_of_forall₂ (Outcome.mapM_eq_ok_iff.1 h) (ht.mem_iff.2 he)
      obtain ⟨d, hd, -⟩ := Outcome.bind_eq_ok hb
      exact (Event.within_ofMask hd).2
  | error fault =>
      obtain ⟨e, he, hfault⟩ := Outcome.exists_of_mapM_eq_error h
      rcases Outcome.bind_eq_error hfault with hfault | ⟨d, -, hfault⟩
      · unfold Event.ofMask at hfault
        split_ifs at hfault with hin
        obtain rfl := Except.error.inj hfault
        exact .refused (ht.mem_iff.1 he) (Bool.eq_false_iff.2 hin)
      · cases hfault

omit [Scalar α] in
theorem views_checked {t : Tally Mask α} (ht : t.Perm m.masses) :
    Views m (t.mapM fun e => (Event.ofMask m.frame e.1 : Except (Fault α) Event)) := by
  have hbind (x : Except (Fault α) Event) : (x.bind fun d => .ok d) = x := by
    cases x with
    | ok d => rfl
    | error fault => rfl
  simpa only [hbind] using views_mapM ht fun _ d => d

theorem views_all (m : MassFunction α) :
    Views m m.focalEvents ∧ Views m m.entries ∧ Views m m.toRecord ∧ Views m m.text := by
  have hentries : Views m m.entries := views_mapM (.refl _) fun e d => (d, e.2)
  exact ⟨views_checked (.refl _), hentries, hentries.bind_ok _,
    (views_checked (List.mergeSort_perm ..)).bind_ok fun _ => m.plainText⟩

variable [Scalar.Ordered α] {pairs : List (Designation α × Value α)} {options : MassOptions α}

/-- What construction files: the masses above zero, under the events that were found for them. -/
theorem masses_of_ofEntries (h : ofEntries pairs options = .ok m) :
    (∀ e ∈ m.masses, e.1 ≠ .empty) ∧
      ∀ A x, (A, x) ∈ m.masses ↔
        ∃ p ∈ pairs, p.2 = .finite x ∧ 0 < x ∧ ∃ e, p.1.resolve m.frame = .ok e ∧ e.mask = A := by
  obtain ⟨f, ε, -, -, h⟩ := inspected_of_ofEntries h
  obtain ⟨hfaults, rfl⟩ := eq_of_ofInspected h
  obtain ⟨hclean, hmasses⟩ := Inspection.masses_run hfaults
  constructor
  · rintro ⟨A, x⟩ he hempty
    rw [hmasses, List.mem_filterMap] at he
    obtain ⟨d, hd, hfiled⟩ := he
    obtain ⟨⟨hx, e, he, hA⟩, h0, h1⟩ := Entry.filed?_eq_some_iff.1 hfiled
    obtain ⟨before, after, hsplit⟩ := List.append_of_mem hd
    exact hclean before d after hsplit _ (.massOnEmpty hx h0 h1 he (hA.trans hempty))
  · intro A x
    rw [hmasses, List.mem_filterMap]
    constructor
    · rintro ⟨d, hd, hfiled⟩
      obtain ⟨p, hp, rfl⟩ := List.mem_map.1 hd
      obtain ⟨⟨hx, hevent⟩, h0, -⟩ := Entry.filed?_eq_some_iff.1 hfiled
      exact ⟨p, hp, hx, h0, hevent⟩
    · rintro ⟨p, hp, hx, h0, hevent⟩
      have hd := List.mem_map_of_mem (f := fun p : Designation α × Value α =>
        (⟨p.1.resolve f, p.1.misuse? f, p.2, p.1.name⟩ : Entry α)) hp
      obtain ⟨y, hy, -, h1⟩ := hclean.in_range hd
      cases hx.symm.trans hy
      exact ⟨_, hd, Entry.filed?_eq_some_iff.2 ⟨⟨hx, hevent⟩, h0, h1⟩⟩

theorem inside_iff_of_ofEntries (h : ofEntries pairs options = .ok m) :
    (∀ e ∈ m.masses, e.1.within m.frame.size = true) ↔
      ∀ c x, (.event c, .finite x) ∈ pairs → c.frame = m.frame → 0 < x →
        c.mask.within m.frame.size = true := by
  obtain ⟨-, hmem⟩ := masses_of_ofEntries h
  constructor
  · intro hinside c x hp hframe h0
    exact hinside (c.mask, x) ((hmem _ _).2 ⟨_, hp, rfl, h0, c, if_pos hframe, rfl⟩)
  · rintro hevents ⟨A, x⟩ he
    obtain ⟨⟨d, v⟩, hp, rfl, h0, e, hresolve, rfl⟩ := (hmem A x).1 he
    refine (Designation.within_resolve (fun c hc hframe => ?_) hresolve).2
    obtain rfl : d = .event c := hc
    exact hevents c x hp hframe h0

/-- An event is looked for in a frame without fail, or refused as an invalid set; what is found lies
inside the frame unless the event was one of the frame already and sticks out. Construction from
pairs files no mass under the empty event, and its masks lie inside the frame unless such an event
was handed in with a mass above zero. The views of what was made succeed just when they do. -/
theorem protruding_events :
    (∀ (f : Frame) (c : Event),
      (∃ fault, (Designation.event c : Designation α).find f = .error (.fault fault) ∧
        fault.code = .invalidFocalSet) ∨
      ∃ e, (Designation.event c : Designation α).find f = .ok e ∧ e.frame = f ∧
        (c.frame = f → e = c) ∧
        (e.mask.within f.size = true ↔ (c.frame = f → c.mask.within f.size = true))) ∧
    ∀ (pairs : List (Designation α × Value α)) (options : MassOptions α) (m : MassFunction α),
      ofEntries pairs options = .ok m →
      (∀ e ∈ m.masses, e.1 ≠ .empty) ∧
      ((∀ e ∈ m.masses, e.1.within m.frame.size = true) ↔
        ∀ c x, (.event c, .finite x) ∈ pairs → c.frame = m.frame → 0 < x →
          c.mask.within m.frame.size = true) ∧
      Views m m.focalEvents ∧ Views m m.entries ∧ Views m m.toRecord ∧ Views m m.text :=
  ⟨Designation.find_event, fun _ _ m h =>
    ⟨(masses_of_ofEntries h).1, inside_iff_of_ofEntries h, views_all m⟩⟩

theorem protruding_events_halves : ∃ m : MassFunction Float,
    ofEntries [(.event ⟨.binary, .finite 1⟩, .finite 0.5), (.single (.ofNat 1), .finite 0.5)]
        ⟨some (.frame .binary), .absent⟩ = .ok m ∧
      (∀ e ∈ m.masses, e.1.within m.frame.size = true) ∧ ∃ s, m.text = .ok s := by
  have hmade : (ofEntries [(.event ⟨.binary, .finite 1⟩, .finite 0.5),
      (.single (.ofNat 1), .finite 0.5)] ⟨some (.frame .binary), .absent⟩ :
      Except (Failure Float) (MassFunction Float)).toBool = true := rfl
  obtain ⟨m, hm⟩ := Outcome.exists_of_toBool hmade
  obtain ⟨-, hinside, -, -, -, htext⟩ := protruding_events.2 _ _ m hm
  have hin : ∀ e ∈ m.masses, e.1.within m.frame.size = true := by
    refine hinside.2 fun c x hp hframe _ => ?_
    rw [← hframe]
    rcases List.mem_cons.1 hp with heq | hp
    · cases heq
      decide
    · cases List.mem_singleton.1 hp
  refine ⟨m, hm, hin, ?_⟩
  cases h : m.text with
  | ok s => exact ⟨s, rfl⟩
  | error fault =>
      rw [h] at htext
      cases htext with
      | refused he outside => cases (hin _ he).symm.trans outside

/-- A mask with a position that the frame does not have is taken over all the same. -/
theorem protruding_mask :
    let c : Event := ⟨.binary, .finite 4⟩
    c.mask.within Frame.binary.size = false ∧
      (Designation.event c : Designation Float).find .binary = .ok c ∧
      ∃ m : MassFunction Float,
        ofEntries [(.event c, .finite 1)] ⟨some (.frame .binary), .absent⟩ = .ok m ∧
        m.focalEvents = .error (.maskOutside (.finite 4) .binary) ∧
        m.entries = .error (.maskOutside (.finite 4) .binary) ∧
        m.toRecord = .error (.maskOutside (.finite 4) .binary) ∧
        m.text = .error (.maskOutside (.finite 4) .binary) := by
  refine ⟨rfl, rfl, ⟨.binary, [(.finite 4, 1)], defaultEpsilon⟩, rfl, rfl, rfl, rfl, ?_⟩
  rw [text, ranked, List.mergeSort_singleton]
  rfl

end MassFunction

end Evidence
