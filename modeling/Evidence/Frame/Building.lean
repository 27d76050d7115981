import Evidence.Failure

namespace Evidence

namespace Roster

def nil : Roster where
  elements := []
  sorted := .nil
  valid := by simp
  distinct := by simp

def place (h : Hypothesis) : List Hypothesis → List Hypothesis
  | [] => [h]
  | k :: ks =>
      if h < k then h :: k :: ks
      else if k < h then k :: place h ks
      else k :: ks

theorem mem_place {h x : Hypothesis} {ks : List Hypothesis} :
    x ∈ place h ks ↔ x = h ∨ x ∈ ks := by
  induction ks with
  | nil => simp [place]
  | cons k ks ih =>
    unfold place
    split
    · simp
    · split
      · simp only [List.mem_cons, ih]
        exact or_left_comm
      · next hk kh =>
        have e := Hypothesis.eq_of_not_lt hk kh
        simp [e]

theorem sorted_place {h : Hypothesis} {ks : List Hypothesis} (s : ks.Pairwise (· < ·)) :
    (place h ks).Pairwise (· < ·) := by
  induction ks with
  | nil => simp [place]
  | cons k ks ih =>
    obtain ⟨least, rest⟩ := List.pairwise_cons.1 s
    unfold place
    split
    · next hk =>
      refine List.pairwise_cons.2 ⟨fun x hx => ?_, s⟩
      cases List.mem_cons.1 hx with
      | inl e => exact e ▸ hk
      | inr hx => exact Hypothesis.lt_trans hk (least x hx)
    · split
      · next kh =>
        refine List.pairwise_cons.2 ⟨fun x hx => ?_, ih rest⟩
        cases mem_place.1 hx with
        | inl e => exact e ▸ kh
        | inr hx => exact least x hx
      · exact s

def add (r : Roster) (h : Hypothesis) (valid : h.Valid)
    (fresh : ∀ k ∈ r.elements, k.text = h.text → k = h) : Roster where
  elements := place h r.elements
  sorted := sorted_place r.sorted
  valid k hk := by
    cases mem_place.1 hk with
    | inl e => exact e ▸ valid
    | inr old => exact r.valid k old
  distinct k hk l hl t := by
    cases mem_place.1 hk with
    | inl ek =>
      cases mem_place.1 hl with
      | inl el => exact ek.trans el.symm
      | inr old => exact ek.trans (fresh l old (ek ▸ t.symm)).symm
    | inr oldk =>
      cases mem_place.1 hl with
      | inl el => exact (fresh k oldk (el ▸ t)).trans el.symm
      | inr oldl => exact r.distinct k oldk l oldl t

end Roster

variable {α : Type} [Scalar α]

def Hypothesis.ofValue? : Value α → Option Hypothesis
  | .number x => x.toNat?.map number
  | .text s => some (name s)
  | _ => none

def Hypothesis.check (v : Value α) : Except (Fault α) { h : Hypothesis // h.Valid } :=
  match v with
  | .number x =>
      match x.toNat? with
      | some n => if valid : n ≤ greatest then .ok ⟨.number n, valid⟩ else .error (.notNatural x)
      | none => .error (.notNatural x)
  | .text s =>
      if tight : IsTight s then
        if reserved : IsReserved s then .error (.reservedName s)
        else .ok ⟨.name s, tight, reserved⟩
      else .error (.looseName s)
  | other => .error (.notHypothesis other)

namespace Roster

def insert (r : Roster) (v : Value α) : Except (Fault α) Roster := do
  let ⟨h, valid⟩ ← Hypothesis.check v
  match found : r.elements.find? (·.text = h.text) with
  | some k => if k = h then .ok r else .error (.sharedText k h)
  | none =>
      .ok <| r.add h valid fun k hk t => by
        have := List.find?_eq_none.1 found k hk
        simp [t] at this

end Roster

namespace Frame

def ofValues (values : List (Value α)) : Except (Fault α) Frame := do
  let r ← values.foldlM Roster.insert Roster.nil
  if nonempty : r.elements ≠ [] then .ok ⟨r, nonempty⟩ else .error .noHypotheses

def ofValue (v : Value α) : Except (Failure α) Frame := do
  let values ← Failure.ofMisuse (v.iterate "elements")
  Failure.ofFault (ofValues values)

end Frame

end Evidence
