import Mathlib
import Evidence.Cbor.Decoding

namespace Evidence.Cbor

namespace Store

protected def Le (s t : Store) : Prop :=
  ∀ (id : ℕ) (n : Node), s.nodes[id]? = some n → t.nodes[id]? = some n

variable {s t u : Store}

protected theorem Le.refl (s : Store) : s.Le s := fun _ _ h => h

protected theorem Le.trans (h : s.Le t) (k : t.Le u) : s.Le u := fun id n hn => k id n (h id n hn)

theorem le_add (s : Store) (n : Node) : s.Le (s.add n).2 := by
  intro id m hm
  obtain ⟨hlt, hget⟩ := Array.getElem?_eq_some_iff.1 hm
  change (s.nodes.push n)[id]? = some m
  rw [Array.getElem?_push_lt hlt, hget]

theorem Le.node? (h : s.Le t) {d : Datum} {n : Node} (hd : s.node? d = some n) :
    t.node? d = some n := by
  cases d with
  | object id => exact h id n hd
  | _ => cases hd

theorem node?_add (s : Store) (n : Node) : (s.add n).2.node? (s.add n).1 = some n :=
  Array.getElem?_push_size

end Store

/-- From one state to another some bytes are taken off the front and at most so many items are
announced, while no object is lost. -/
structure Reading.Moves (s : Reading) (bytes : List UInt8) (budget : ℕ) (t : Reading) : Prop where
  rest : s.rest = bytes ++ t.rest
  size : t.size = s.size
  keepsKeys : t.keepsKeys = s.keepsKeys
  bundle : t.bundle = s.bundle
  announced : t.announced ≤ s.announced + budget
  store : s.store.Le t.store

namespace Reading

variable {s t u : Reading} {bytes bytes' : List UInt8} {k l : ℕ}

theorem Moves.refl (s : Reading) : s.Moves [] 0 s := ⟨rfl, rfl, rfl, rfl, le_rfl, .refl _⟩

theorem Moves.trans (h : s.Moves bytes k t) (h' : t.Moves bytes' l u) :
    s.Moves (bytes ++ bytes') (k + l) u where
  rest := by rw [h.rest, h'.rest, List.append_assoc]
  size := h'.size.trans h.size
  keepsKeys := h'.keepsKeys.trans h.keepsKeys
  bundle := h'.bundle.trans h.bundle
  announced := by
    have hs := h.announced
    have ht := h'.announced
    omega
  store := h.store.trans h'.store

end Reading

namespace Reader

variable {β γ : Type} {p : Reader β} {bytes bytes' : List UInt8} {k l : ℕ} {P Q : Store → β → Prop}

/-- Where the bytes stand in front, with room left for so many items in lists, the reader takes them
and what it yields has a property in every later store. No header counts `2 ^ 64` bytes. -/
def Yields (p : Reader β) (bytes : List UInt8) (budget : ℕ) (P : Store → β → Prop) : Prop :=
  ∀ s rest, s.rest = bytes ++ rest → s.keepsKeys = false → bytes.length < 2 ^ 64 →
    s.announced + budget ≤ s.size →
    ∃ x t, p.run s = some (x, t) ∧ s.Moves bytes budget t ∧ ∀ st, t.store.Le st → P st x

abbrev Reads (p : Reader β) (bytes : List UInt8) (x : β) : Prop := Yields p bytes 0 fun _ y => y = x

theorem yields_pure {x : β} (h : ∀ st, P st x) : Yields (pure x) [] 0 P :=
  fun s _ _ _ _ _ => ⟨x, s, rfl, .refl s, fun st _ => h st⟩

theorem Yields.bind {f : β → Reader γ} {Q : Store → γ → Prop} (hp : Yields p bytes k P)
    (hf : ∀ x, (∃ st, P st x) → Yields (f x) bytes' l fun st y => P st x → Q st y) :
    Yields (p >>= f) (bytes ++ bytes') (k + l) Q := by
  intro s rest hrest hkeys hlength hroom
  rw [List.length_append] at hlength
  rw [List.append_assoc] at hrest
  obtain ⟨x, t, hx, hmoves, hP⟩ := hp s _ hrest hkeys (by omega) (by omega)
  have hnext : t.rest = bytes' ++ rest := List.append_cancel_left (hmoves.rest.symm.trans hrest)
  have hannounced := hmoves.announced
  have hsize := hmoves.size
  obtain ⟨y, u, hy, hmoves', hQ⟩ := hf x ⟨_, hP _ (.refl _)⟩ t rest hnext
    (hmoves.keepsKeys.trans hkeys) (by omega) (by omega)
  -- What was read first still holds, since the second reading has lost no object.
  refine ⟨y, u, ?_, hmoves.trans hmoves', fun st hst => hQ st hst (hP st (hmoves'.store.trans hst))⟩
  rw [StateT.run_bind, hx]
  exact hy

theorem Reads.bind {x : β} {f : β → Reader γ} {Q : Store → γ → Prop} (hp : Reads p bytes x)
    (hf : Yields (f x) bytes' l Q) : Yields (p >>= f) (bytes ++ bytes') l Q := by
  have h : Yields (p >>= f) (bytes ++ bytes') (0 + l) Q := by
    refine Yields.bind hp ?_
    rintro _ ⟨_, rfl⟩ s rest hrest hkeys hlength hroom
    obtain ⟨y, t, hy, hmoves, hQ⟩ := hf s rest hrest hkeys hlength hroom
    exact ⟨y, t, hy, hmoves, fun st hst _ => hQ st hst⟩
  rwa [Nat.zero_add] at h

theorem Yields.imp (h : Yields p bytes k P) (hPQ : ∀ st x, P st x → Q st x) :
    Yields p bytes k Q := by
  intro s rest hrest hkeys hlength hroom
  obtain ⟨x, t, hx, hmoves, hP⟩ := h s rest hrest hkeys hlength hroom
  exact ⟨x, t, hx, hmoves, fun st hst => hPQ st x (hP st hst)⟩

theorem Yields.mono (h : Yields p bytes k P) (hkl : k ≤ l) : Yields p bytes l P := by
  intro s rest hrest hkeys hlength hroom
  obtain ⟨x, t, hx, hmoves, hP⟩ := h s rest hrest hkeys hlength (by omega)
  exact ⟨x, t, hx, { hmoves with announced := by have := hmoves.announced; omega }, hP⟩

theorem Yields.of_length (h : bytes.length < 2 ^ 64 → Yields p bytes k P) : Yields p bytes k P :=
  fun s rest hrest hkeys hlength => h hlength s rest hrest hkeys hlength

theorem Yields.bind_pure {f : β → γ} {Q : Store → γ → Prop} (h : Yields p bytes k P)
    (hPQ : ∀ st x, P st x → Q st (f x)) : Yields (p >>= fun x => pure (f x)) bytes k Q := by
  have hbind : Yields (p >>= fun x => pure (f x)) (bytes ++ []) (k + 0) Q :=
    h.bind fun x _ => yields_pure fun st hP => hPQ st x hP
  rwa [List.append_nil] at hbind

theorem Yields.map {f : β → γ} {Q : Store → γ → Prop} (h : Yields p bytes k P)
    (hPQ : ∀ st x, P st x → Q st (f x)) : Yields (f <$> p) bytes k Q := by
  rw [map_eq_pure_bind]
  exact h.bind_pure hPQ

theorem Yields.get {f : Reading → Reader β}
    (h : ∀ s : Reading, s.keepsKeys = false → Yields (f s) bytes k P) :
    Yields (get >>= f) bytes k P :=
  fun s rest hrest hkeys => h s hkeys s rest hrest hkeys

theorem reads_byte (b : UInt8) : Reads byte [b] b := by
  intro s rest hrest _ _ _
  refine ⟨b, { s with position := s.position + 1, rest := rest }, ?_, ?_, fun _ _ => rfl⟩
  · have hrest' : s.rest = b :: rest := hrest
    have hs : { s with rest := b :: rest } = s := by rw [← hrest']
    exact (congrArg byte hs).symm.trans rfl
  · exact ⟨hrest, rfl, rfl, rfl, le_rfl, .refl _⟩

theorem reads_take (bytes : List UInt8) : Reads (take bytes.length) bytes bytes := by
  intro s rest hrest _ _ _
  have htaken : s.rest.take bytes.length = bytes := by rw [hrest, List.take_left]
  have hleft : s.rest.drop bytes.length = rest := by rw [hrest, List.drop_left]
  refine ⟨bytes, { s with position := s.position + bytes.length, rest := rest }, ?_, ?_,
    fun _ _ => rfl⟩
  · change (if (s.rest.take bytes.length).length = bytes.length then (do
        modify fun r => { r with
          position := r.position + bytes.length, rest := s.rest.drop bytes.length }
        return s.rest.take bytes.length)
      else failure : Reader (List UInt8)) s = _
    rw [htaken, hleft, if_pos rfl]
    rfl
  · exact ⟨hrest, rfl, rfl, rfl, le_rfl, .refl _⟩

theorem yields_make (form : Form) (fields : Record Datum) :
    Yields (make form fields) [] 0 fun st d => st.node? d = some ⟨form, fields⟩ := by
  intro s _ _ _ _ _
  refine ⟨(s.store.add ⟨form, fields⟩).1, { s with store := (s.store.add ⟨form, fields⟩).2 }, rfl,
    ⟨rfl, rfl, rfl, rfl, le_rfl, Store.le_add s.store _⟩, fun st hst => ?_⟩
  exact hst.node? (Store.node?_add ..)

theorem yields_announce (n width : ℕ) : Yields (announce (.given n width)) [] n fun _ _ => True := by
  intro s _ _ _ _ hroom
  refine ⟨(), { s with announced := s.announced + n }, ?_,
    ⟨rfl, rfl, rfl, rfl, le_rfl, .refl _⟩, fun _ _ => trivial⟩
  change (if s.size < s.announced + n then (do
      let _ ← (failure : Reader PUnit)
      set { s with announced := s.announced + n })
    else set { s with announced := s.announced + n } : Reader Unit) s = _
  rw [if_neg (by omega)]
  rfl

end Reader

end Evidence.Cbor
