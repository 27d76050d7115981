import Mathlib
import Evidence.Proofs.Admitting
import Evidence.Proofs.Inversion
import Evidence.Proofs.Records

namespace Evidence

def Failure.IsOutside {α : Type} : Failure α → Prop
  | .fault (.outsideFrame ..) | .fault (.unknownToken ..) | .fault (.maskOutside ..) => True
  | _ => False

namespace Entry

variable {f : Frame} {ε : ℚ} {d : Entry ℚ} {entries others : List (Entry ℚ)}

def core (d : Entry ℚ) : Entry ℚ := ⟨d.event, none, d.mass, ""⟩

theorem gives_core {A : Mask} {x : ℚ} : d.core.Gives A x ↔ d.Gives A x :=
  ⟨fun h => ⟨h.mass, h.event⟩, fun h => ⟨h.mass, h.event⟩⟩

theorem admissible_core : Admissible f ε (entries.map core) ↔ Admissible f ε entries := by
  have hsum : (entries.map core).map amount = entries.map amount := by
    rw [List.map_map]
    rfl
  constructor
  · rintro ⟨hrange, hresolves, hempty, hdistinct, hnormal⟩
    rw [List.forall_mem_map] at hrange hresolves hempty
    rw [List.pairwise_map] at hdistinct
    simp only [gives_core] at hempty hdistinct
    exact ⟨hrange, hresolves, hempty, hdistinct, hsum ▸ hnormal⟩
  · rintro ⟨hrange, hresolves, hempty, hdistinct, hnormal⟩
    refine ⟨List.forall_mem_map.2 hrange, List.forall_mem_map.2 hresolves,
      List.forall_mem_map.2 ?_, List.pairwise_map.2 ?_, hsum ▸ hnormal⟩
    · simpa only [gives_core] using hempty
    · simpa only [gives_core] using hdistinct

theorem Admissible.perm (h : Admissible f ε entries) (hperm : entries.Perm others) :
    Admissible f ε others where
  inRange d hd := h.inRange d (hperm.mem_iff.2 hd)
  resolves d hd := h.resolves d (hperm.mem_iff.2 hd)
  nothingOnEmpty d hd := h.nothingOnEmpty d (hperm.mem_iff.2 hd)
  distinct := hperm.pairwise h.distinct fun hxy A x y hx hy => (hxy A y x hy hx).symm
  normalized := by
    rw [← (hperm.map amount).sum_eq]
    exact h.normalized

end Entry

namespace MassFunction

section Inspected

variable {f : Frame} {ε : ℚ} {entries others : List (Entry ℚ)}

theorem usable_of_ofInspected {m : MassFunction ℚ} (h : ofInspected f ε entries = .ok m) :
    entries.findSome? Entry.misuse? = none := by
  obtain ⟨s, hs, -⟩ := Outcome.bind_eq_ok h
  unfold Inspection.attempt at hs
  split at hs
  · cases hs
  · assumption

theorem exists_ofInspected (hfree : ∀ d ∈ entries, d.hindrance = none)
    (hin : ∀ d ∈ entries, ∀ e, d.event = .ok e → e.frame = f ∧ e.mask.within f.size = true) :
    (∃ m, ofInspected f ε entries = .ok m) ↔ Entry.Admissible f ε entries := by
  constructor
  · rintro ⟨m, hm⟩
    exact (exists_ofInspected_iff (usable_of_ofInspected hm) hin).1 ⟨m, hm⟩
  · intro h
    refine (exists_ofInspected_iff (List.findSome?_eq_none_iff.2 fun d hd => ?_) hin).2 h
    obtain ⟨x, hx, h0, h1⟩ := h.inRange d hd
    rw [Entry.misuse?, hx, Inspection.inRange_finite h0 h1]
    exact hfree d hd

/-- Masses do not depend on the order of the entries, nor on how these name their events. -/
theorem masses_perm {m n : MassFunction ℚ} (hm : ofInspected f ε entries = .ok m)
    (hn : ofInspected f ε others = .ok n)
    (hperm : (entries.map Entry.core).Perm (others.map Entry.core)) :
    m.frame = n.frame ∧ m.epsilon = n.epsilon ∧ m.masses.Perm n.masses := by
  obtain ⟨-, -, rfl⟩ := of_ofInspected (usable_of_ofInspected hm) hm
  obtain ⟨-, -, rfl⟩ := of_ofInspected (usable_of_ofInspected hn) hn
  have hcore (ds : List (Entry ℚ)) :
      (ds.map Entry.core).filterMap Entry.filed? = ds.filterMap Entry.filed? := by
    rw [List.filterMap_map]
    rfl
  have hfiled := hperm.filterMap Entry.filed?
  rw [hcore, hcore] at hfiled
  exact ⟨rfl, rfl, hfiled⟩

theorem not_isOutside_of_ofInspected (hresolves : ∀ d ∈ entries, ∃ e, d.event = .ok e)
    {failure : Failure ℚ} (h : ofInspected f ε entries = .error failure) :
    ¬ failure.IsOutside := by
  cases hmisuse : entries.findSome? Entry.misuse? with
  | some m =>
      rw [ofInspected, Inspection.attempt, hmisuse] at h
      cases h
      exact not_false
  | none =>
      obtain ⟨c, rfl, hc⟩ := (ofInspected_eq_error_iff hmisuse).1 h
      cases hc with
      | total => exact not_false
      | @offence before after d c hsplit hclean hd =>
          obtain ⟨e, he⟩ := hresolves d (hsplit ▸ List.mem_append_cons_self)
          cases hd with
          | unresolved hx h0 h1 he' => cases he.symm.trans he'
          | outOfRange | massOnEmpty | repeatedSet => exact not_false

end Inspected

end MassFunction

def Label.listing (names : List String) : String :=
  Text.join (String.singleton Label.separator) names

theorem writes_names (names : List String) :
    Hypothesis.Writes (names.map .text : List (Value ℚ)) (names.map .name) := by
  rw [Hypothesis.Writes, List.map_map, List.map_map]
  rfl

section Names

variable {names : List String} (hvalid : ∀ s ∈ names, (Hypothesis.name s).Valid)
include hvalid

theorem Label.split_listing (hne : names ≠ []) :
    Text.split Label.separator (Label.listing names) = names :=
  Text.split_join hne fun s hs hsep => (hvalid s hs).2 (.inl hsep)

theorem Label.trim_listing : Text.trim (Label.listing names) = Label.listing names :=
  Text.trim_join fun s hs => (hvalid s hs).1

theorem map_trim_names : names.map Text.trim = names :=
  (List.map_congr_left fun s hs => (hvalid s hs).1.2).trans (List.map_id _)

theorem Label.listing_ne (hne : names ≠ []) {s : String} (hsep : Label.separator ∉ s.toList)
    (hnot : ¬ (Hypothesis.name s).Valid) : Label.listing names ≠ s := by
  intro h
  have hsplit := Label.split_listing hvalid hne
  rw [h, Text.split_of_not_mem hsep] at hsplit
  exact hnot (hvalid s (hsplit ▸ List.mem_singleton_self s))

theorem Label.tokens_listing (hne : names ≠ []) :
    Text.trim (Label.listing names) ≠ Label.ignorance ∧
      ¬ (Text.trim (Label.listing names) = Label.empty ∨ Text.trim (Label.listing names) = "") ∧
      Event.tokens (Label.listing names) = names := by
  rw [Event.tokens_eq, Label.split_listing hvalid hne, Label.trim_listing hvalid, not_or]
  exact ⟨Label.listing_ne hvalid hne (by decide) (by decide),
    ⟨Label.listing_ne hvalid hne (by decide) (by decide),
      Label.listing_ne hvalid hne (by decide) (by decide)⟩, map_trim_names hvalid⟩

variable {f : Frame} {e : Event}

theorem names_listing (hin : names.map Hypothesis.name ⊆ f.elements) :
    Event.Names f (Label.listing names) (names.map .name) := by
  by_cases hne : names = []
  · subst hne
    exact .nothing (.inr rfl)
  · refine .listed hin ?_
    rw [Label.split_listing hvalid hne, map_trim_names hvalid, List.map_map]
    exact (List.map_id _).symm

theorem texts_of_ofLabel {α : Type}
    (h : (Event.ofLabel f (Label.listing names) : Except (Fault α) Event) = .ok e) :
    ∀ s ∈ names, ∃ k ∈ f.elements, k.text = s := by
  intro s hs
  obtain ⟨hfull, hempty, htokens⟩ := Label.tokens_listing hvalid (List.ne_nil_of_mem hs)
  have hgathered := h ▸ Event.gathered_ofLabel (α := α) hfull hempty
  cases hgathered with
  | complete frame inside found mem => exact found s (htokens.symm ▸ hs)

theorem exists_of_named (hin : names.map Hypothesis.name ⊆ f.elements) :
    ∃ e, Event.ofValues f (names.map .text : List (Value ℚ)) = .ok e ∧
      (Event.ofLabel f (Label.listing names) : Except (Fault ℚ) Event) = .ok e := by
  obtain ⟨e, he, hinside, hmem⟩ := Event.exists_ofValues hin (writes_names names)
  obtain ⟨e', he', hframe, hwithin, hmem'⟩ := (names_listing hvalid hin).ofLabel (α := ℚ)
  have hsame : e' = e := Event.Inside.eq_of_elements ⟨hframe, hwithin⟩ hinside fun h =>
    (hmem' h).trans (hmem h).symm
  exact ⟨e, he, hsame ▸ he'⟩

theorem exists_frame_names (hne : names ≠ []) :
    ∃ f, Frame.ofValues (names.map .text : List (Value ℚ)) = .ok f ∧
      ∀ h, h ∈ f.elements ↔ ∃ s ∈ names, h = .name s := by
  have hwritten := (writes_names names).written_eq
  have hmem (h : Hypothesis) : h ∈ names.map Hypothesis.name ↔ ∃ s ∈ names, h = .name s := by
    rw [List.mem_map]
    exact exists_congr fun s => and_congr_right fun _ => eq_comm
  obtain ⟨f, hf⟩ : ∃ f, Frame.ofValues (names.map .text : List (Value ℚ)) = .ok f := by
    refine Frame.exists_ofValues_iff.2 ⟨mt List.map_eq_nil_iff.1 hne, ?_, ?_⟩
    · exact List.forall_mem_map.2 fun s hs => ⟨.name s, rfl, hvalid s hs⟩
    · rw [hwritten]
      intro h hh k hk htext
      obtain ⟨s, -, rfl⟩ := (hmem h).1 hh
      obtain ⟨t, -, rfl⟩ := (hmem k).1 hk
      exact congrArg Hypothesis.name htext
  exact ⟨f, hf, fun h => by rw [Frame.mem_of_ofValues hf, hwritten, hmem]⟩

end Names

structure Listing where
  items : List (List String × Value ℚ)
  valid : ∀ p ∈ items, ∀ s ∈ p.1, (Hypothesis.name s).Valid
  distinct : (items.map fun p => Label.listing p.1).Nodup

namespace Listing

open MassFunction

variable (l : Listing)

def names : List String := l.items.flatMap (·.1)

def pairs : List (Designation ℚ × Value ℚ) := l.items.map fun p => (.list (p.1.map .text), p.2)

def record : Record (Value ℚ) := Record.ofPairs (l.items.map fun p => (Label.listing p.1, p.2))

variable {l}

theorem mem_names {s : String} : s ∈ l.names ↔ ∃ p ∈ l.items, s ∈ p.1 := List.mem_flatMap

theorem valid_names : ∀ s ∈ l.names, (Hypothesis.name s).Valid := by
  intro s hs
  obtain ⟨p, hp, hs⟩ := mem_names.1 hs
  exact l.valid p hp s hs

theorem record_perm : l.record.Perm (l.items.map fun p => (Label.listing p.1, p.2)) := by
  refine Record.ofPairs_perm ?_
  rw [Record.keys, List.map_map]
  exact l.distinct

theorem inferFrame_pairs :
    inferFrame (l.pairs.map (·.1)) = Frame.ofValues (l.names.map .text : List (Value ℚ)) := by
  have hsets : l.pairs.map (·.1) =
      l.items.map fun p => (.list (p.1.map .text) : Designation ℚ) := by
    rw [pairs, List.map_map]
    rfl
  have hitems : (l.pairs.map (·.1)).flatMap Designation.items = l.names.map .text := by
    rw [hsets, List.flatMap_map, names, List.map_flatMap]
    rfl
  unfold inferFrame
  split
  · next g hg =>
    obtain ⟨d, hd, hdg⟩ := List.exists_of_findSome?_eq_some hg
    rw [hsets] at hd
    obtain ⟨p, -, rfl⟩ := List.mem_map.1 hd
    cases hdg
  · rw [hitems]

theorem exists_labelTokens : ∃ tokens,
    (labelTokens (Record.keys l.record) : Except (Fault ℚ) (List String)) = .ok tokens ∧
      ∀ s, s ∈ tokens ↔ s ∈ l.names := by
  let part (label : String) : List String :=
    if Text.trim label = Label.empty ∨ Text.trim label = "" then [] else Event.tokens label
  have hkeys (label : String) : label ∈ Record.keys l.record ↔
      ∃ p ∈ l.items, Label.listing p.1 = label := by
    rw [Record.keys, (record_perm.map _).mem_iff, List.map_map, List.mem_map]
    rfl
  have hpart : ∀ p ∈ l.items, part (Label.listing p.1) = p.1 := by
    intro p hp
    by_cases hne : p.1 = []
    · rw [hne]
      exact if_pos (.inr rfl)
    · obtain ⟨-, hempty, htokens⟩ := Label.tokens_listing (l.valid p hp) hne
      exact (if_neg hempty).trans htokens
  refine ⟨((Record.keys l.record).map part).flatten, ?_, fun s => ?_⟩
  · unfold labelTokens
    rw [Outcome.mapM_eq_map (g := part)]
    · rfl
    · intro label hlabel
      obtain ⟨p, hp, rfl⟩ := (hkeys label).1 hlabel
      by_cases hempty : Text.trim (Label.listing p.1) = Label.empty ∨
          Text.trim (Label.listing p.1) = ""
      · simp only [part, if_pos hempty]
      · have hne : p.1 ≠ [] := by
          intro hnil
          rw [hnil] at hempty
          exact hempty (.inr rfl)
        simp only [part, if_neg hempty, if_neg (Label.tokens_listing (l.valid p hp) hne).1]
  · rw [← List.flatMap_def, List.mem_flatMap, mem_names]
    constructor
    · rintro ⟨label, hlabel, hs⟩
      obtain ⟨p, hp, rfl⟩ := (hkeys label).1 hlabel
      exact ⟨p, hp, hpart p hp ▸ hs⟩
    · rintro ⟨p, hp, hs⟩
      exact ⟨_, (hkeys _).2 ⟨p, hp, rfl⟩, (hpart p hp).symm ▸ hs⟩

theorem exists_inferred (hne : l.names ≠ []) : ∃ f,
    inferFrame (l.pairs.map (·.1)) = .ok f ∧
      (labelFrame (Record.keys l.record) : Except (Fault ℚ) Frame) = .ok f ∧
      ∀ h, h ∈ f.elements ↔ ∃ s ∈ l.names, h = .name s := by
  obtain ⟨tokens, htokens, hmem⟩ := l.exists_labelTokens
  obtain ⟨s, hs⟩ := List.exists_mem_of_ne_nil _ hne
  have hvalid : ∀ s ∈ tokens, (Hypothesis.name s).Valid := fun s hs =>
    valid_names s ((hmem s).1 hs)
  obtain ⟨f, hf, hfmem⟩ := exists_frame_names valid_names hne
  obtain ⟨g, hg, hgmem⟩ := exists_frame_names hvalid (List.ne_nil_of_mem ((hmem s).2 hs))
  obtain rfl : g = f := Frame.eq_iff_mem.2 fun h => by
    rw [hfmem, hgmem]
    simp only [hmem]
  refine ⟨g, inferFrame_pairs.trans hf, ?_, hfmem⟩
  rw [labelFrame, htokens]
  exact hg

theorem inferred_of_names_eq_nil (hnil : l.names = []) :
    inferFrame (l.pairs.map (·.1)) = .error .noHypotheses ∧
      labelFrame (Record.keys l.record) = (.error .noHypotheses : Except (Fault ℚ) Frame) := by
  obtain ⟨tokens, htokens, hmem⟩ := l.exists_labelTokens
  obtain rfl : tokens = [] := List.eq_nil_iff_forall_not_mem.2 fun s hs => by
    have hs := (hmem s).1 hs
    rw [hnil] at hs
    cases hs
  constructor
  · rw [inferFrame_pairs, hnil]
    rfl
  · rw [labelFrame, htokens]
    rfl

theorem checkName_pairs : (l.pairs.forM fun p => p.1.checkName) = .ok () := by
  refine Outcome.forM_eq_ok (List.forall_mem_map.2 fun p _ => ?_)
  exact Outcome.forM_eq_ok (List.forall_mem_map.2 fun s _ => rfl)

theorem ofRecord_eq_bind {options : MassOptions ℚ} {ε : ℚ}
    (hε : resolveEpsilon options.epsilon = .ok ε) :
    ofRecord l.record options = (recordFrame l.record options.frame).bind fun f =>
      ofInspected f ε (recordEntries f l.record) := by
  rw [ofRecord, hε]
  rfl

inductive Outcomes (l : Listing) (options : MassOptions ℚ) : Prop
  | common {f : Frame} {ε : ℚ} (bounds : 0 < ε ∧ ε < 0.1)
      (inferred : options.frame = none → ∀ h, h ∈ f.elements ↔ ∃ s ∈ l.names, h = .name s)
      (entries : ofEntries l.pairs options = ofInspected f ε (pairEntries f l.pairs))
      (record : ofRecord l.record options = ofInspected f ε (recordEntries f l.record))
  | neither {e e' : Failure ℚ} (entries : ofEntries l.pairs options = .error e)
      (record : ofRecord l.record options = .error e')
      (inside : options.frame = none → ¬ e.IsOutside ∧ ¬ e'.IsOutside)

section Options

variable {options : MassOptions ℚ} {ε : ℚ}

theorem outcomes_given (hε : resolveEpsilon options.epsilon = .ok ε) {choice : FrameChoice ℚ}
    (hchoice : options.frame = some choice) : l.Outcomes options := by
  have hrecord := l.ofRecord_eq_bind hε
  have hentries := ofEntries_eq_bind hε (.inr (by rw [hchoice]; rfl)) l.checkName_pairs
  rw [hchoice, pairFrame] at hentries
  rw [hchoice, recordFrame] at hrecord
  have hsome (hnone : options.frame = none) : False := by
    cases hchoice.symm.trans hnone
  cases hf : choice.resolve with
  | ok f =>
      rw [hf] at hentries hrecord
      exact .common (checkEpsilon_eq_ok hε) (fun hnone => (hsome hnone).elim) hentries hrecord
  | error e =>
      rw [hf] at hentries hrecord
      exact .neither hentries hrecord fun hnone => (hsome hnone).elim

theorem outcomes_inferred (hε : resolveEpsilon options.epsilon = .ok ε)
    (hchoice : options.frame = none) : l.Outcomes options := by
  have hrecord := l.ofRecord_eq_bind hε
  rw [hchoice, recordFrame] at hrecord
  by_cases hpairs : l.pairs = []
  · -- Without any entries the reading of pairs stops before a frame is inferred.
    have hnil : l.names = [] := by
      rw [names, List.map_eq_nil_iff.1 hpairs]
      rfl
    rw [(l.inferred_of_names_eq_nil hnil).2] at hrecord
    refine .neither (e := .fault (.noEntries ε)) ?_ hrecord fun _ => ⟨not_false, not_false⟩
    rw [ofEntries, hε, hpairs, hchoice]
    rfl
  · have hentries := ofEntries_eq_bind hε (.inl hpairs) l.checkName_pairs
    rw [hchoice, pairFrame] at hentries
    by_cases hnil : l.names = []
    · obtain ⟨hinfer, hlabel⟩ := l.inferred_of_names_eq_nil hnil
      rw [hinfer] at hentries
      rw [hlabel] at hrecord
      exact .neither hentries hrecord fun _ => ⟨not_false, not_false⟩
    · obtain ⟨f, hinfer, hlabel, hmem⟩ := l.exists_inferred hnil
      rw [hinfer] at hentries
      rw [hlabel] at hrecord
      exact .common (checkEpsilon_eq_ok hε) (fun _ => hmem) hentries hrecord

theorem outcomes (l : Listing) (options : MassOptions ℚ) : l.Outcomes options := by
  cases hε : resolveEpsilon options.epsilon with
  | error e =>
      have hentries : ofEntries l.pairs options = .error e := by
        rw [ofEntries, hε]
        rfl
      have hrecord : ofRecord l.record options = .error e := by
        rw [ofRecord, hε]
        rfl
      refine .neither hentries hrecord fun _ => ?_
      obtain ⟨got, -, rfl⟩ | rfl := resolveEpsilon_eq_error hε
      · exact ⟨not_false, not_false⟩
      · exact ⟨not_false, not_false⟩
  | ok ε =>
      cases hchoice : options.frame with
      | some choice => exact outcomes_given hε hchoice
      | none => exact outcomes_inferred hε hchoice

end Options

section Over

variable {f : Frame}

theorem core_recordEntries : ((recordEntries f l.record).map Entry.core).Perm
    (l.items.map fun p => ⟨Event.ofLabel f (Label.listing p.1), none, p.2, ""⟩) := by
  have hperm := l.record_perm.map fun q : String × Value ℚ =>
    (⟨Event.ofLabel f q.1, none, q.2, ""⟩ : Entry ℚ)
  rw [List.map_map] at hperm
  rw [recordEntries, List.map_map]
  exact hperm

theorem core_pairEntries : (pairEntries f l.pairs).map Entry.core =
    l.items.map fun p => ⟨Event.ofValues f (p.1.map .text : List (Value ℚ)), none, p.2, ""⟩ := by
  rw [pairEntries, pairs, List.map_map, List.map_map]
  rfl

section Named

variable (hin : l.names.map Hypothesis.name ⊆ f.elements)
include hin

theorem exists_event {p : List String × Value ℚ} (hp : p ∈ l.items) :
    ∃ e, Event.ofValues f (p.1.map .text : List (Value ℚ)) = .ok e ∧
      (Event.ofLabel f (Label.listing p.1) : Except (Fault ℚ) Event) = .ok e := by
  refine exists_of_named (l.valid p hp) fun h hh => ?_
  obtain ⟨s, hs, rfl⟩ := List.mem_map.1 hh
  exact hin (List.mem_map_of_mem (mem_names.2 ⟨p, hp, hs⟩))

/-- Over a frame with all the names both readings inspect the same entries. -/
theorem core_perm : ((pairEntries f l.pairs).map Entry.core).Perm
    ((recordEntries f l.record).map Entry.core) := by
  rw [core_pairEntries]
  refine List.Perm.trans (.of_eq (List.map_congr_left fun p hp => ?_)) core_recordEntries.symm
  obtain ⟨e, hvalues, hlabel⟩ := exists_event hin hp
  rw [hvalues, hlabel]

theorem pairs_resolve : ∀ d ∈ pairEntries f l.pairs, ∃ e, d.event = .ok e := by
  refine List.forall_mem_map.2 (List.forall_mem_map.2 fun p hp => ?_)
  obtain ⟨e, hvalues, -⟩ := exists_event hin hp
  exact ⟨e, hvalues⟩

theorem record_resolves : ∀ d ∈ recordEntries f l.record, ∃ e, d.event = .ok e := by
  refine List.forall_mem_map.2 fun q hq => ?_
  obtain ⟨p, hp, rfl⟩ := List.mem_map.1 (record_perm.mem_iff.1 hq)
  obtain ⟨e, -, hlabel⟩ := exists_event hin hp
  exact ⟨e, hlabel⟩

end Named

theorem pairs_inside : ∀ d ∈ pairEntries f l.pairs,
    d.hindrance = none ∧ ∀ e, d.event = .ok e → e.frame = f ∧ e.mask.within f.size = true := by
  refine List.forall_mem_map.2 (List.forall_mem_map.2 fun p _ => ⟨?_, fun e he => ?_⟩)
  · exact Event.misuse?_eq_none (List.forall_mem_map.2 fun s _ => ⟨rfl, rfl⟩)
  · exact Event.within_ofValues he

theorem record_inside : ∀ d ∈ recordEntries f l.record,
    d.hindrance = none ∧ ∀ e, d.event = .ok e → e.frame = f ∧ e.mask.within f.size = true :=
  List.forall_mem_map.2 fun _ _ => ⟨rfl, fun _ he => Event.within_ofLabel he⟩

variable {ε : ℚ}

theorem exists_pairs_iff : (∃ m, ofInspected f ε (pairEntries f l.pairs) = .ok m) ↔
    Entry.Admissible f ε (pairEntries f l.pairs) :=
  exists_ofInspected (fun d hd => (pairs_inside d hd).1) fun d hd => (pairs_inside d hd).2

theorem exists_record_iff : (∃ n, ofInspected f ε (recordEntries f l.record) = .ok n) ↔
    Entry.Admissible f ε (recordEntries f l.record) :=
  exists_ofInspected (fun d hd => (record_inside d hd).1) fun d hd => (record_inside d hd).2

theorem admissible_iff (hin : l.names.map Hypothesis.name ⊆ f.elements) :
    Entry.Admissible f ε (pairEntries f l.pairs) ↔
      Entry.Admissible f ε (recordEntries f l.record) := by
  have hperm := core_perm hin
  constructor
  · exact fun h => Entry.admissible_core.1 ((Entry.admissible_core.2 h).perm hperm)
  · exact fun h => Entry.admissible_core.1 ((Entry.admissible_core.2 h).perm hperm.symm)

theorem named_of_pairs (h : Entry.Admissible f ε (pairEntries f l.pairs)) :
    l.names.map Hypothesis.name ⊆ f.elements := by
  intro k hk
  obtain ⟨s, hs, rfl⟩ := List.mem_map.1 hk
  obtain ⟨p, hp, hs⟩ := mem_names.1 hs
  obtain ⟨e, he, -⟩ := h.resolves _ (List.mem_map_of_mem (List.mem_map_of_mem hp))
  have hevent : Event.ofValues f (p.1.map .text : List (Value ℚ)) = .ok e := he
  have hsub := (Event.mask_ofValues hevent).1
  rw [(writes_names p.1).written_eq] at hsub
  exact hsub (List.mem_map_of_mem hs)

theorem texts_of_record (h : Entry.Admissible f ε (recordEntries f l.record)) :
    ∀ s ∈ l.names, ∃ k ∈ f.elements, k.text = s := by
  intro s hs
  obtain ⟨p, hp, hs⟩ := mem_names.1 hs
  have hmem : (Label.listing p.1, p.2) ∈ l.record :=
    record_perm.mem_iff.2 (List.mem_map_of_mem hp)
  obtain ⟨e, he, -⟩ := h.resolves _ (List.mem_map_of_mem hmem)
  exact texts_of_ofLabel (l.valid p hp) he s hs

theorem named_iff : l.names.map Hypothesis.name ⊆ f.elements ↔
    (∀ s ∈ l.names, ∃ k ∈ f.elements, k.text = s) ∧
      ∀ s ∈ l.names, ∀ j, .number j ∈ f.elements → (Hypothesis.number j).text ≠ s := by
  constructor
  · intro hin
    have hname : ∀ s ∈ l.names, .name s ∈ f.elements := fun s hs => hin (List.mem_map_of_mem hs)
    refine ⟨fun s hs => ⟨_, hname s hs, rfl⟩, fun s hs j hj htext => ?_⟩
    cases f.distinct _ hj _ (hname s hs) htext
  · rintro ⟨htexts, hnumbers⟩ k hk
    obtain ⟨s, hs, rfl⟩ := List.mem_map.1 hk
    obtain ⟨k, hk, htext⟩ := htexts s hs
    cases k with
    | name t => exact htext ▸ hk
    | number j => exact absurd htext (hnumbers s hs j hk)

/-- Beside what the labels need, the names must not be written like numbers. -/
theorem accepted_iff : (∃ m, ofInspected f ε (pairEntries f l.pairs) = .ok m) ↔
    (∃ n, ofInspected f ε (recordEntries f l.record) = .ok n) ∧
      ∀ s ∈ l.names, ∀ j, .number j ∈ f.elements → (Hypothesis.number j).text ≠ s := by
  rw [exists_pairs_iff, exists_record_iff]
  constructor
  · intro h
    have hin := named_of_pairs h
    exact ⟨(admissible_iff hin).1 h, (named_iff.1 hin).2⟩
  · rintro ⟨h, hnumbers⟩
    exact (admissible_iff (named_iff.2 ⟨texts_of_record h, hnumbers⟩)).2 h

theorem same_of_named (bounds : 0 < ε ∧ ε < 0.1) {m n : MassFunction ℚ}
    (hin : l.names.map Hypothesis.name ⊆ f.elements)
    (hm : ofInspected f ε (pairEntries f l.pairs) = .ok m)
    (hn : ofInspected f ε (recordEntries f l.record) = .ok n) :
    m.frame = n.frame ∧ m.epsilon = n.epsilon ∧ ∀ d : Designation ℚ, m.mass d = n.mass d := by
  obtain ⟨hframe, hε, hmasses⟩ := masses_perm hm hn (core_perm hin)
  have hvalid := valid_of_ofInspected bounds (fun d hd e he => ((pairs_inside d hd).2 e he).2) hm
  have hvalid' := valid_of_ofInspected bounds (fun d hd e he => ((record_inside d hd).2 e he).2) hn
  have hsame : SameEvidence m n := .of_perm hvalid hframe hmasses
  exact ⟨hframe, hε, fun d => (hsame.answers hvalid hvalid' d).1⟩

end Over

/-- Names and labels are accepted alike where the frame is inferred. Over a given frame the names are
accepted just when the labels are and none of the names is written like a number of the frame. The
evidence is then the same, over the frame of all the names where it is inferred, and nothing is
refused there for being outside of it. -/
theorem ofEntries_ofRecord (l : Listing) (options : MassOptions ℚ) :
    (options.frame = none →
      ((∃ m, ofEntries l.pairs options = .ok m) ↔ ∃ n, ofRecord l.record options = .ok n)) ∧
    ((∃ m, ofEntries l.pairs options = .ok m) ↔ ∃ n, ofRecord l.record options = .ok n ∧
      ∀ s ∈ l.names, ∀ j, .number j ∈ n.frame.elements → (Hypothesis.number j).text ≠ s) ∧
    (∀ m n, ofEntries l.pairs options = .ok m → ofRecord l.record options = .ok n →
      m.frame = n.frame ∧ m.epsilon = n.epsilon ∧ ∀ d : Designation ℚ, m.mass d = n.mass d) ∧
    (options.frame = none → ∀ m, ofEntries l.pairs options = .ok m →
      ∀ h, h ∈ m.frame.elements ↔ ∃ s ∈ l.names, h = .name s) ∧
    (options.frame = none → ∀ failure : Failure ℚ,
      ofEntries l.pairs options = .error failure ∨ ofRecord l.record options = .error failure →
      ¬ failure.IsOutside) := by
  cases l.outcomes options with
  | @neither e e' hentries hrecord inside =>
      rw [hentries, hrecord]
      have hm : ¬ ∃ m, (.error e : Except (Failure ℚ) (MassFunction ℚ)) = .ok m := by
        rintro ⟨m, hm⟩
        cases hm
      have hn : ¬ ∃ n, (.error e' : Except (Failure ℚ) (MassFunction ℚ)) = .ok n := by
        rintro ⟨n, hn⟩
        cases hn
      refine ⟨fun _ => iff_of_false hm hn, iff_of_false hm fun ⟨n, h, _⟩ => hn ⟨n, h⟩,
        fun m n h => absurd ⟨m, h⟩ hm, fun _ m h => absurd ⟨m, h⟩ hm, ?_⟩
      rintro hnone failure (h | h)
      · exact Except.error.inj h ▸ (inside hnone).1
      · exact Except.error.inj h ▸ (inside hnone).2
  | @common f ε bounds inferred hentries hrecord =>
      rw [hentries, hrecord]
      have hnamed (hnone : options.frame = none) : l.names.map Hypothesis.name ⊆ f.elements := by
        intro h hh
        obtain ⟨s, hs, rfl⟩ := List.mem_map.1 hh
        exact (inferred hnone _).2 ⟨s, hs, rfl⟩
      have hframe {entries : List (Entry ℚ)} {n : MassFunction ℚ}
          (hn : ofInspected f ε entries = .ok n) : n.frame = f := by
        obtain ⟨-, -, rfl⟩ := of_ofInspected (usable_of_ofInspected hn) hn
        rfl
      refine ⟨fun hnone => ?_, ?_, fun m n hm hn => ?_, fun hnone m hm => ?_, ?_⟩
      · rw [exists_pairs_iff, exists_record_iff, admissible_iff (hnamed hnone)]
      · rw [accepted_iff, ← exists_and_right]
        exact exists_congr fun n => and_congr_right fun hn => by rw [hframe hn]
      · exact same_of_named bounds (named_of_pairs (exists_pairs_iff.1 ⟨m, hm⟩)) hm hn
      · rw [hframe hm]
        exact inferred hnone
      · rintro hnone failure (h | h)
        · exact not_isOutside_of_ofInspected (pairs_resolve (hnamed hnone)) h
        · exact not_isOutside_of_ofInspected (record_resolves (hnamed hnone)) h

/-- Two orders, a name twice, one that looks like an index, an empty set and a mass that is none. -/
def assorted : Listing where
  items := [(["b", "1"], .finite (1 / 2)), (["1"], .finite (1 / 2)), ([], .finite 0),
    (["z", "b", "z"], .finite 0)]
  valid := by decide
  distinct := by decide

theorem ofEntries_ofRecord_assorted : ∃ m n, ofEntries assorted.pairs ⟨none, .absent⟩ = .ok m ∧
    ofRecord assorted.record ⟨none, .absent⟩ = .ok n ∧ m.frame = n.frame ∧
    n.mass (.list [.text "1", .text "b"]) = m.mass (.list [.text "1", .text "b"]) ∧
    .name "z" ∈ m.frame.elements := by
  have hok : (ofEntries assorted.pairs ⟨none, .absent⟩).toBool = true := by decide +kernel
  obtain ⟨m, hm⟩ := Outcome.exists_of_toBool hok
  obtain ⟨halike, -, hsame, hframe, -⟩ := assorted.ofEntries_ofRecord ⟨none, .absent⟩
  obtain ⟨n, hn⟩ := (halike rfl).1 ⟨m, hm⟩
  obtain ⟨hmn, -, hmass⟩ := hsame m n hm hn
  exact ⟨m, n, hm, hn, hmn, (hmass _).symm, (hframe rfl m hm _).2 ⟨"z", by decide, rfl⟩⟩

def numeral : Listing where
  items := [(["1"], .finite 1)]
  valid := by decide
  distinct := by decide

def numeralFrame : Frame where
  elements := [.number 1]
  sorted := by decide
  valid := by decide
  distinct := by decide
  nonempty := by decide

/-- A label names the number of the frame, and the name itself is not in it. -/
theorem ofEntries_ofRecord_numeral :
    (∃ n, ofRecord numeral.record ⟨some (.frame numeralFrame), .absent⟩ = .ok n) ∧
      ¬ ∃ m, ofEntries numeral.pairs ⟨some (.frame numeralFrame), .absent⟩ = .ok m := by
  have hread : (ofRecord numeral.record ⟨some (.frame numeralFrame), .absent⟩).toBool = true := by
    decide +kernel
  have hrefused :
      (ofEntries numeral.pairs ⟨some (.frame numeralFrame), .absent⟩).toBool = false := by
    decide +kernel
  refine ⟨Outcome.exists_of_toBool hread, ?_⟩
  rintro ⟨m, hm⟩
  rw [hm] at hrefused
  cases hrefused

end Listing

end Evidence
