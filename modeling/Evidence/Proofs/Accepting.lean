import Mathlib
import Evidence.Policy
import Evidence.Proofs.Combining
import Evidence.Proofs.Ordering

namespace Evidence

variable {α : Type}

namespace Checked

theorem below_eq_accepted {step : Issue.Step} {c : Checked α} {v : Value α}
    (h : c.below step = accepted v) : c = accepted v := by
  obtain ⟨value, issues⟩ := c
  obtain ⟨hvalue, hissues⟩ := Checked.mk.inj h
  obtain rfl := List.map_eq_nil_iff.1 hissues
  exact congrArg (Checked.mk · []) hvalue

theorem parts_of_gather {κ : Type} {parts : List (κ × Checked α)}
    {whole : List (κ × Value α) → Value α} {w : Value α} (h : gather parts whole = accepted w) :
    ∃ vs, parts = vs.map (fun p => (p.1, accepted p.2)) ∧ w = whole vs := by
  obtain ⟨hvalue, hissues⟩ := Checked.mk.inj h
  obtain ⟨vs, hvs, rfl⟩ := Option.map_eq_some_iff.1 hvalue
  refine ⟨vs, ?_, rfl⟩
  clear h hvalue
  induction parts generalizing vs with
  | nil =>
      rw [List.mapM_nil] at hvs
      obtain rfl := Option.some.inj hvs
      rfl
  | cons part parts ih =>
      obtain ⟨key, value, issues⟩ := part
      rw [List.flatMap_cons, List.append_eq_nil_iff] at hissues
      rw [List.mapM_cons] at hvs
      obtain ⟨q, hq, hvs⟩ := Option.bind_eq_some_iff.1 hvs
      obtain ⟨qs, hqs, hvs⟩ := Option.bind_eq_some_iff.1 hvs
      obtain rfl := Option.some.inj hvs
      obtain ⟨v, rfl, rfl⟩ := Option.map_eq_some_iff.1 hq
      obtain rfl : issues = [] := hissues.1
      rw [List.map_cons, ih hissues.2 qs hqs]
      rfl

theorem gather_accepted {κ : Type} (vs : List (κ × Value α)) (whole : List (κ × Value α) → Value α) :
    gather (vs.map fun p => (p.1, accepted p.2)) whole = accepted (whole vs) := by
  have hvalues : (vs.map fun p => (p.1, accepted p.2)).mapM (fun (p : κ × Checked α) =>
      p.2.value.map (p.1, ·)) = some vs := by
    induction vs with
    | nil => rfl
    | cons v vs ih =>
        rw [List.map_cons, List.mapM_cons, ih]
        rfl
  have hissues : (vs.map fun p => (p.1, accepted p.2)).flatMap (·.2.issues) = [] := by
    rw [List.flatMap_map]
    exact List.flatMap_eq_nil_iff.2 fun _ _ => rfl
  rw [gather, hvalues, hissues]
  rfl

end Checked

namespace Schema

theorem eq_accepted_of_validate {s : Schema α} {v w : Value α} (h : s.validate v = .ok w) :
    s v = .accepted w := by
  unfold validate at h
  split at h
  · next heq =>
    obtain rfl := Except.ok.inj h
    exact heq
  · cases h

theorem optional_accepted {s : Schema α} {v w : Value α} (h : optional s v = .accepted w) :
    v = .absent ∧ w = .absent ∨ s v = .accepted w := by
  unfold optional at h
  split at h
  · exact .inl ⟨rfl, (Option.some.inj (Checked.mk.inj h).1).symm⟩
  · exact .inr h

theorem issues_foldl_note (rs : List (Requirement α)) (c : Checked α) :
    (rs.foldl (fun c r => c.note (.here r.cause)) c).issues =
      c.issues ++ rs.map fun r => .here r.cause := by
  induction rs generalizing c with
  | nil => simp
  | cons r rs ih =>
      rw [List.foldl_cons, ih, List.map_cons, Checked.note, List.append_assoc,
        List.singleton_append]

theorem number_accepts {requirements : List (Requirement α)} {x : Quantity α} (hx : x ≠ .nan)
    (h : ∀ r ∈ requirements, r.holds x = true) :
    number requirements (.number x) = .accepted (.number x) := by
  have hfilter : (requirements.filter fun r => !r.holds x) = [] := by
    rw [List.filter_eq_nil_iff]
    intro r hr
    simp [h r hr]
  unfold number
  split
  · next hnan => exact absurd (Value.number.inj hnan) hx
  · next y _ heq =>
    obtain rfl := Value.number.inj heq
    rw [hfilter]
    rfl
  · next hnumber => exact absurd rfl (hnumber x)

theorem number_accepted {requirements : List (Requirement α)} {v w : Value α}
    (h : number requirements v = .accepted w) :
    v = w ∧ ∃ x, w = .number x ∧ ∀ r ∈ requirements, r.holds x = true := by
  unfold number at h
  split at h
  · cases h
  · next x _ =>
    have hnil := (issues_foldl_note _ _).symm.trans (congrArg Checked.issues h)
    have hfailed : (requirements.filter fun r => !r.holds x) = [] :=
      List.map_eq_nil_iff.1 (List.append_eq_nil_iff.1 hnil).2
    rw [hfailed] at h
    obtain rfl := Option.some.inj (Checked.mk.inj h).1
    refine ⟨rfl, x, rfl, fun r hr => ?_⟩
    simpa using List.filter_eq_nil_iff.1 hfailed r hr
  · cases h

theorem optional_number_accepted {requirements : List (Requirement α)} {v w : Value α}
    (h : optional (number requirements) v = .accepted w) :
    v = w ∧ (w = .absent ∨ ∃ x, w = .number x ∧ ∀ r ∈ requirements, r.holds x = true) := by
  rcases optional_accepted h with ⟨rfl, rfl⟩ | h
  · exact ⟨rfl, .inl rfl⟩
  · exact (number_accepted h).imp_right .inr

theorem refine_accepted {s : Schema α} {condition : Value α → Bool} {issue : Issue} {v w : Value α}
    (h : refine s condition issue v = .accepted w) : s v = .accepted w ∧ condition w = true := by
  unfold refine at h
  split at h
  · next checked issues heq =>
    split_ifs at h with hcondition
    · obtain rfl := Option.some.inj (Checked.mk.inj h).1
      exact ⟨heq.trans h, hcondition⟩
    · obtain ⟨-, hissues⟩ := Checked.mk.inj h
      simp at hissues
  · next hunusable => exact absurd h (hunusable w [])

theorem nonemptyList_accepts {item : Schema α} {items : List (Value α)} (hne : items ≠ [])
    (h : ∀ v ∈ items, item v = .accepted v) :
    nonemptyList item (.list items) = .accepted (.list items) := by
  have hparts : items.mapIdx (fun i v => (i, (item v).below (.item i))) =
      (items.mapIdx fun i v => (i, v)).map fun p => (p.1, Checked.accepted p.2) := by
    apply List.ext_getElem (by simp)
    intro i hi _
    simp only [List.length_mapIdx] at hi
    simp only [List.getElem_mapIdx, List.getElem_map, h _ (List.getElem_mem hi)]
    rfl
  have hvalues : (items.mapIdx fun i v => (i, v)).map (·.2) = items := by
    apply List.ext_getElem (by simp)
    intro i _ _
    simp
  simp only [nonemptyList]
  rw [hparts, Checked.gather_accepted, hvalues, if_neg (by simpa using hne)]

theorem nonemptyList_accepted {item : Schema α} {v w : Value α}
    (h : nonemptyList item v = .accepted w) : ∃ items vs, v = .list items ∧ w = .list vs ∧
      List.Forall₂ (fun v u => item v = .accepted u) items vs := by
  unfold nonemptyList at h
  split at h
  · next items =>
    dsimp only at h
    split_ifs at h
    · have hissues := congrArg Checked.issues h
      simp [Checked.note, Checked.accepted] at hissues
    · obtain ⟨vs, hparts, rfl⟩ := Checked.parts_of_gather h
      refine ⟨items, vs.map (·.2), rfl, rfl, List.forall₂_iff_get.2 ⟨?_, fun i hi hi' => ?_⟩⟩
      · simpa using congrArg List.length hparts
      · have hpart := List.getElem_of_eq hparts (i := i) (by simpa using hi)
        simp only [List.getElem_mapIdx, List.getElem_map] at hpart
        simpa using Checked.below_eq_accepted (Prod.mk.inj hpart).2
  · cases h

section Objects

variable [NatCast α]

theorem record_accepts {item : Schema α} {fields : Record (Value α)}
    (h : ∀ p ∈ fields, item p.2 = .accepted p.2) :
    record item (.object fields) = .accepted (.object (Record.erase Record.unkeptKey fields)) := by
  have hparts : fields.map (fun p => (p.1, (item p.2).below (.field p.1))) =
      fields.map fun p => (p.1, Checked.accepted p.2) := by
    refine List.map_congr_left fun p hp => ?_
    rw [h p hp]
    rfl
  change Checked.gather (fields.map fun p => (p.1, (item p.2).below (.field p.1))) _ = _
  rw [hparts, Checked.gather_accepted]

theorem object_accepts {shape : List (String × Schema α)} {fields vs : Record (Value α)}
    (h : List.Forall₂ (fun p q => p.1 = q.1 ∧
      p.2 ((Record.get? p.1 fields).getD .absent) = .accepted q.2) shape vs) :
    object shape (.object fields) = .accepted
      (.object (vs.filter fun q => (Record.get? q.1 fields).isSome || !q.2.isAbsent)) := by
  have hparts : shape.map (fun p =>
      (p.1, (p.2 ((Record.get? p.1 fields).getD .absent)).below (.field p.1))) =
      vs.map fun q => (q.1, Checked.accepted q.2) := by
    induction h with
    | nil => rfl
    | cons hpq _ ih =>
        rw [List.map_cons, List.map_cons, ih, hpq.2, hpq.1]
        rfl
  change Checked.gather (shape.map fun p =>
    (p.1, (p.2 ((Record.get? p.1 fields).getD .absent)).below (.field p.1))) _ = _
  rw [hparts, Checked.gather_accepted]

end Objects

theorem object_accepted [NatCast α] {shape : List (String × Schema α)} {v w : Value α}
    (h : object shape v = .accepted w) :
    ∃ (fields vs : Record (Value α)), v.record? = some fields ∧
      List.Forall₂ (fun p q => p.1 = q.1 ∧
        p.2 ((Record.get? p.1 fields).getD .absent) = .accepted q.2) shape vs ∧
      w = .object (vs.filter fun q => (Record.get? q.1 fields).isSome || !q.2.isAbsent) := by
  unfold object at h
  split at h
  · next fields hfields =>
    obtain ⟨vs, hparts, rfl⟩ := Checked.parts_of_gather h
    refine ⟨fields, vs, hfields, ?_, rfl⟩
    clear h
    induction shape generalizing vs with
    | nil =>
        obtain rfl := List.map_eq_nil_iff.1 hparts.symm
        exact .nil
    | cons p shape ih =>
        obtain ⟨q, vs, rfl, hq, hvs⟩ := List.map_eq_cons_iff.1 hparts.symm
        obtain ⟨hkey, hvalue⟩ := Prod.mk.inj hq
        exact .cons ⟨hkey.symm, Checked.below_eq_accepted hvalue.symm⟩ (ih vs hvs.symm)
  · cases h

end Schema

namespace Record

theorem get?_of_mem {β : Type} {r : Record β} (h : (keys r).Nodup) {q : String × β} (hq : q ∈ r) :
    get? q.1 r = some q.2 := Tally.get?_of_mem h hq

theorem get?_eq_none {β : Type} {r : Record β} {key : String} (h : key ∉ keys r) :
    get? key r = none := Tally.get?_eq_none h

end Record

namespace Schema

variable [NatCast α]

theorem field_filter {r : Record (Value α)} (h : (Record.keys r).Nodup)
    {keep : String × Value α → Bool} (hkeep : ∀ q ∈ r, keep q = false → q.2 = .absent)
    {q : String × Value α} (hq : q ∈ r) : (Value.object (r.filter keep)).field q.1 = q.2 := by
  have hnodup : (Record.keys (r.filter keep)).Nodup := (List.filter_sublist.map _).nodup h
  change (Record.get? q.1 (r.filter keep)).getD .absent = q.2
  cases hk : keep q with
  | true => rw [Record.get?_of_mem hnodup (List.mem_filter.2 ⟨hq, hk⟩), Option.getD_some]
  | false =>
      have hdropped : q.1 ∉ Record.keys (r.filter keep) := by
        intro hmem
        obtain ⟨d, hd, hdq⟩ := List.mem_map.1 hmem
        obtain ⟨hd, hkeepd⟩ := List.mem_filter.1 hd
        obtain rfl := List.inj_on_of_nodup_map h hd hq hdq
        exact Bool.noConfusion (hkeepd.symm.trans hk)
      rw [Record.get?_eq_none hdropped, hkeep q hq hk, Option.getD_none]

theorem field_accepted {shape : List (String × Schema α)} (hshape : (shape.map (·.1)).Nodup)
    {v w : Value α} (h : object shape v = .accepted w) {p : String × Schema α} (hp : p ∈ shape) :
    p.2 (v.field p.1) = .accepted (w.field p.1) := by
  obtain ⟨fields, vs, hfields, hvs, rfl⟩ := object_accepted h
  have hkeys : shape.map (·.1) = Record.keys vs := by
    clear h hp hshape
    induction hvs with
    | nil => rfl
    | cons hpq _ ih => rw [List.map_cons, ih, hpq.1]; rfl
  obtain ⟨q, hq, hkey, haccepted⟩ := Outcome.exists_of_forall₂ hvs hp
  have hread : v.field p.1 = (Record.get? p.1 fields).getD .absent := by
    rw [Value.field, Value.fields, hfields, Option.getD_some]
  rw [hread, haccepted, hkey]
  refine congrArg Checked.accepted (field_filter (hkeys ▸ hshape) (fun d _ hd => ?_) hq).symm
  have habsent : d.2.isAbsent = true := by simpa using (Bool.or_eq_false_iff.1 hd).2
  cases hd2 : d.2 with
  | absent => rfl
  | _ => rw [hd2] at habsent; cases habsent

end Schema

variable [Scalar α]

namespace Schema

theorem exists_finite_of_below {lower : α} {x : Quantity α}
    (h : (Quantity.finite lower).below x = true) (hne : x ≠ .infinite false) :
    ∃ y, x = .finite y ∧ lower < y := by
  cases x with
  | finite y => exact ⟨y, rfl, of_decide_eq_true h⟩
  | infinite negative =>
      cases negative with
      | false => exact absurd rfl hne
      | true => cases h
  | nan => cases h

theorem between_accepted {lower upper : α} {s t : String} {v w : Value α}
    (h : optional (number [above lower s, below upper t]) v = .accepted w) :
    v = w ∧ (w = .absent ∨ ∃ x, w = .finite x ∧ lower < x ∧ x < upper) := by
  refine (optional_number_accepted h).imp_right fun h => h.imp_right ?_
  rintro ⟨x, rfl, hx⟩
  have hbelow : x.below (.finite upper) = true := hx _ (.tail _ (.head _))
  obtain ⟨y, rfl, hy⟩ := exists_finite_of_below (hx _ (.head _)) fun hinf => by
    rw [hinf] at hbelow
    cases hbelow
  exact ⟨y, rfl, hy, of_decide_eq_true hbelow⟩

theorem share_accepted {v w : Value α}
    (h : optional (number [positive, atMostOne]) v = .accepted w) :
    v = w ∧ (w = .absent ∨ ∃ x, w = .finite x ∧ 0 < x) := by
  refine (optional_number_accepted h).imp_right fun h => h.imp_right ?_
  rintro ⟨x, rfl, hx⟩
  have hone : (!(Quantity.finite 1).below x) = true := hx _ (.tail _ (.head _))
  obtain ⟨y, rfl, hy⟩ := exists_finite_of_below (hx _ (.head _)) fun hinf => by
    rw [hinf] at hone
    cases hone
  exact ⟨y, rfl, hy⟩

structure Bounded (w : Value α) : Prop where
  epsilon : w.field "epsilon" = .absent ∨ ∃ ε, w.field "epsilon" = .finite ε ∧ 0 < ε ∧ ε < 0.1
  hardDriftThreshold : w.field "hardDriftThreshold" = .absent ∨
    ∃ δ, w.field "hardDriftThreshold" = .finite δ ∧ 0 < δ ∧ δ < 1
  conflictThreshold : w.field "conflictThreshold" = .absent ∨
    ∃ t, w.field "conflictThreshold" = .finite t ∧ 0 < t
  room : thresholdExceedsEpsilon w = true

theorem ofValue_of_record? {v : Value α} {fields : Record (Value α)} (h : v.record? = some fields) :
    DriftOptions.ofValue v = .fields (v.field "epsilon") (v.field "hardDriftThreshold") := by
  cases v with
  | null => cases h
  | _ => rfl

theorem fusionOptions_accepted {v w : Value α} (h : fusionOptions v = .accepted w) :
    Bounded w ∧
      DriftOptions.ofValue w = .fields (w.field "epsilon") (w.field "hardDriftThreshold") ∧
      DriftOptions.ofValue v = DriftOptions.ofValue w := by
  obtain ⟨hobject, hroom⟩ := refine_accepted h
  have hkeys : ["epsilon", "hardDriftThreshold", "conflictThreshold", "log"].Nodup := by decide
  have hfield {p : String × Schema α} := field_accepted (p := p) (by exact hkeys) hobject
  obtain ⟨heq, hε⟩ := between_accepted (hfield (.head _))
  obtain ⟨heq', hδ⟩ := between_accepted (hfield (.tail _ (.head _)))
  obtain ⟨-, ht⟩ := share_accepted (hfield (.tail _ (.tail _ (.head _))))
  obtain ⟨fields, vs, hfields, -, rfl⟩ := object_accepted hobject
  refine ⟨⟨hε, hδ, ht, hroom⟩, rfl, ?_⟩
  rw [ofValue_of_record? hfields]
  exact congrArg₂ DriftOptions.fields heq heq'

end Schema

variable [Scalar.Ordered α]

namespace DriftOptions

theorem exists_thresholdFor {ε : α} (h0 : 0 < ε) (h1 : ε < 0.1) :
    ∃ δ, thresholdFor (.finite ε) = .finite δ ∧ ε < δ ∧ δ < 1 := by
  obtain ⟨hlow, hhigh⟩ := Scalar.Ordered.tenfold h0 h1
  refine ⟨_, rfl, ?_⟩
  unfold greater
  split_ifs with hlt
  · exact ⟨hlow, hhigh⟩
  · have hpos := Scalar.Ordered.lt_of_lt_of_le h0 (Scalar.Lawful.le_of_lt hlow)
    have hle := Scalar.Ordered.le_of_not_lt
      (Scalar.Lawful.le_of_lt Scalar.Ordered.defaultHardDriftThreshold_pos)
      (Scalar.Lawful.le_of_lt hpos) hlt
    exact ⟨Scalar.Ordered.lt_of_lt_of_le hlow hle, Scalar.Ordered.defaultHardDriftThreshold_lt⟩

theorem exists_resolve {w : Value α} (h : Schema.Bounded w) :
    ∃ ε δ, (fields (w.field "epsilon") (w.field "hardDriftThreshold")).resolve =
      .ok ⟨.finite ε, .finite δ⟩ ∧ 0 < ε ∧ ε < 0.1 ∧ ε < δ ∧ δ < 1 := by
  obtain ⟨ε, he, h0, h1⟩ : ∃ ε : α,
      (w.field "epsilon").orElse (.finite defaultEpsilon) = .finite ε ∧ 0 < ε ∧ ε < 0.1 := by
    rcases h.epsilon with hε | ⟨ε, hε, h0, h1⟩
    · rw [hε]
      exact ⟨defaultEpsilon, rfl, Scalar.Ordered.defaultEpsilon_pos,
        Scalar.Ordered.defaultEpsilon_lt⟩
    · rw [hε]
      exact ⟨ε, rfl, h0, h1⟩
  obtain ⟨δ, hd, hlt, hδ⟩ : ∃ δ : α, (w.field "hardDriftThreshold").orElse
      (.number (thresholdFor (.finite ε))) = .finite δ ∧ ε < δ ∧ δ < 1 := by
    rcases h.hardDriftThreshold with hδ | ⟨δ, hδ, -, hδ1⟩
    · obtain ⟨δ, hd, hlt, hδ1⟩ := exists_thresholdFor h0 h1
      rw [hδ]
      exact ⟨δ, congrArg Value.number hd, hlt, hδ1⟩
    · refine ⟨δ, by rw [hδ]; rfl, ?_, hδ1⟩
      have hroom := h.room
      rw [Schema.thresholdExceedsEpsilon, hδ] at hroom
      rcases h.epsilon with hε | ⟨_, hε, -, -⟩
      · rw [hε] at he hroom
        obtain rfl := Quantity.finite.inj (Value.number.inj he)
        exact of_decide_eq_true hroom
      · rw [hε] at he hroom
        obtain rfl := Quantity.finite.inj (Value.number.inj he)
        exact of_decide_eq_true hroom
  exact ⟨ε, δ, resolve_eq he hd h0 hlt, h0, h1, hlt, hδ⟩

end DriftOptions

omit [Scalar.Ordered α] in
theorem Policy.ofOptions_eq {options : Value α} (h : options ≠ .null) :
    ofOptions options = ((Schema.fusionOptions.validate (.object options.fields)).mapError
      .rejected).bind (ofChecked · (options.field listenerField)) := by
  have htaking : options.checkTaking "options" listenerField = .ok () := by
    cases options with
    | null => exact absurd rfl h
    | _ => rfl
  unfold ofOptions
  rw [htaking]
  rfl

theorem Policy.exists_ofChecked {v w : Value α} (h : Schema.fusionOptions v = .accepted w)
    (listener : Value α) :
    ∃ p ε δ, ofChecked w listener = .ok p ∧ p.tolerances = ⟨.finite ε, .finite δ⟩ ∧ 0 < ε ∧
      ε < 0.1 ∧ ε < δ ∧ δ < 1 ∧ 0 < p.threshold := by
  obtain ⟨hbounded, hread, -⟩ := Schema.fusionOptions_accepted h
  obtain ⟨ε, δ, hresolve, h0, h1, hδ, hδ1⟩ := DriftOptions.exists_resolve hbounded
  unfold ofChecked
  rw [hread, hresolve]
  refine ⟨_, ε, δ, rfl, rfl, h0, h1, hδ, hδ1, ?_⟩
  rcases hbounded.conflictThreshold with ht | ⟨t, ht, h0⟩
  · simp only [ht]
    exact Scalar.Ordered.defaultConflictThreshold_pos
  · simp only [ht]
    exact h0

theorem Policy.bounds_of_ofOptions {options : Value α} {p : Policy α}
    (h : ofOptions options = .ok p) :
    (∃ ε δ, p.tolerances = ⟨.finite ε, .finite δ⟩ ∧ 0 < ε ∧ ε < 0.1 ∧ ε < δ ∧ δ < 1) ∧
      0 < p.threshold := by
  obtain ⟨_, -, h⟩ := Outcome.bind_eq_ok h
  obtain ⟨checked, hchecked, h⟩ := Outcome.bind_eq_ok h
  have haccepted := Schema.eq_accepted_of_validate (Outcome.mapError_eq_ok hchecked)
  obtain ⟨q, ε, δ, hq, ht, h0, h1, hδ, hδ1, hpos⟩ := exists_ofChecked haccepted
    (options.field listenerField)
  obtain rfl := Except.ok.inj (hq.symm.trans h)
  exact ⟨⟨ε, δ, ht, h0, h1, hδ, hδ1⟩, hpos⟩

theorem Policy.tolerances_of_ofOptions {options : Value ℚ} {p : Policy ℚ}
    (h : ofOptions options = .ok p) :
    ∃ ε δ, p.tolerances = ⟨.finite ε, .finite δ⟩ ∧ 0 < ε ∧ ε < 1 / 10 ∧ ε < δ ∧ δ < 1 := by
  obtain ⟨⟨ε, δ, ht, h0, h1, hδ, hδ1⟩, -⟩ := bounds_of_ofOptions h
  exact ⟨ε, δ, ht, h0, h1.trans_eq (by norm_num), hδ, hδ1⟩

end Evidence
