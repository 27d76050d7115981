import Mathlib
import Evidence.Proofs.Headers
import Evidence.Proofs.Records

namespace Evidence.Cbor

open Reader

/-- Texts and numbers, and lists and objects of such values down to a depth. -/
inductive Plain : ℕ → Value ℚ → Prop
  | text {depth : ℕ} {s : String} (h : Unmarked s) : Plain depth (.text s)
  | number {depth : ℕ} {x : ℚ} (h : Binary64.Holds x) : Plain depth (.finite x)
  | list {depth : ℕ} {items : List (Value ℚ)} (h : ∀ v ∈ items, Plain depth v) :
      Plain (depth + 1) (.list items)
  | object {depth : ℕ} {fields : Record (Value ℚ)} (hordered : Record.ofPairs fields = fields)
      (hkeys : ∀ p ∈ fields, Unmarked p.1 ∧ p.1 ≠ Record.unkeptKey)
      (h : ∀ p ∈ fields, Plain depth p.2) : Plain (depth + 1) (.object fields)

theorem length_longHeader_pos (major n : ℕ) : 0 < (longHeader major n).length := by
  unfold longHeader
  split_ifs <;> simp

theorem length_header_pos (major n : ℕ) : 0 < (header major n).length := by
  unfold header
  split_ifs
  · simp
  · simp
  · exact length_longHeader_pos major n

theorem length_encodeText_pos (s : String) : 0 < (encodeText s).length := by
  rw [encodeText, List.length_append]
  exact Nat.add_pos_left (length_header_pos ..) _

theorem length_encodeFloat_pos (word : UInt64) : 0 < (encodeFloat word).length := Nat.succ_pos _

theorem length_encodeQuantity_pos (x : Quantity ℚ) : 0 < (encodeQuantity x).length := by
  cases x with
  | infinite => exact length_encodeFloat_pos _
  | nan => exact length_encodeFloat_pos _
  | finite y =>
      simp only [encodeQuantity]
      cases Scalar.toNat? y with
      | none => exact length_encodeFloat_pos _
      | some n =>
          dsimp only
          split_ifs
          · exact length_header_pos 0 n
          · exact length_encodeFloat_pos _

theorem length_encode_pos (v : Value ℚ) : 0 < (encode v).length := by
  cases v with
  | number x => exact length_encodeQuantity_pos x
  | integer n => unfold encode encodeInteger wideHeader; split_ifs <;> simp
  | text s => exact length_encodeText_pos s
  | list items =>
      rw [encode, List.length_append]
      exact Nat.add_pos_left (length_header_pos ..) _
  | object fields =>
      rw [encode, List.length_append]
      exact Nat.add_pos_left (length_longHeader_pos ..) _
  | _ => simp [encode]

theorem length_le_encodeItems (vs : List (Value ℚ)) : vs.length ≤ (encodeItems vs).length := by
  induction vs with
  | nil => exact le_rfl
  | cons v vs ih =>
      have hv := length_encode_pos v
      rw [encodeItems, List.length_append, List.length_cons]
      omega

theorem length_le_encodeFields (fields : Record (Value ℚ)) :
    fields.length ≤ (encodeFields fields).length := by
  induction fields with
  | nil => exact le_rfl
  | cons p fields ih =>
      obtain ⟨key, v⟩ := p
      have hkey := length_encodeText_pos key
      rw [encodeFields, List.length_append, List.length_append, List.length_cons]
      omega

namespace Reader

section Parts

variable {read : Reader Datum} {depth : ℕ}

theorem unlessEnd_false (read : Reader Datum) : (do (← unlessEnd false read).getM) = read := by
  simp only [unlessEnd, Bool.false_and, Bool.false_eq_true, if_false, bind_assoc, pure_bind]
  exact bind_pure read

theorem pair_false {κ : Type} {key? : Datum → Option κ} :
    (do (← pair false key? read).getM) = (do
      let d ← read
      let key ← (key? d).getM
      let x ← read
      return (key, x)) := by
  simp only [pair, unlessEnd, Bool.false_and, Bool.false_eq_true, if_false, bind_assoc, pure_bind]
  rfl

/-- An item stands for a value. Of its bytes all but one are left for what it announces. -/
def Restores (read : Reader Datum) (depth : ℕ) (v : Value ℚ) : Prop :=
  Yields read (encode v) ((encode v).length - 1) fun st d => st.toValue depth d = v

theorem yields_many {vs : List (Value ℚ)} (h : ∀ v ∈ vs, Restores read depth v) :
    Yields (many read vs.length) (encodeItems vs) ((encodeItems vs).length - vs.length)
      fun st ds => ds.map (st.toValue depth) = vs := by
  induction vs with
  | nil => exact yields_pure fun _ => rfl
  | cons v vs ih =>
      obtain ⟨hv, hvs⟩ := List.forall_mem_cons.1 h
      have hpos := length_encode_pos v
      have hlength := length_le_encodeItems vs
      rw [List.length_cons, many, encodeItems]
      refine (hv.bind fun d _ => (ih hvs).bind_pure fun st ds hds hd => ?_).mono ?_
      · rw [List.map_cons, hd, hds]
      · rw [List.length_append]
        omega

theorem yields_fields {fields : Record (Value ℚ)}
    (hkeys : ∀ p ∈ fields, Unmarked p.1 ∧ p.1 ≠ Record.unkeptKey)
    (htext : ∀ s, Unmarked s → Reads read (encodeText s) (.text s))
    (h : ∀ p ∈ fields, Restores read depth p.2) :
    Yields (many (do (← pair false Datum.keyText? read).getM) fields.length) (encodeFields fields)
      (encodeFields fields).length
      fun st ps => ps.map (fun p => (p.1, st.toValue depth p.2)) = fields := by
  rw [pair_false]
  induction fields with
  | nil => exact yields_pure fun _ => rfl
  | cons p fields ih =>
      obtain ⟨key, v⟩ := p
      obtain ⟨⟨hunmarked, hkept⟩, hkeys⟩ := List.forall_mem_cons.1 hkeys
      obtain ⟨hv, hvs⟩ := List.forall_mem_cons.1 h
      have hkey : (Datum.text key).keyText? = some key := congrArg some (if_neg hkept)
      have hpair : Yields (do
          let d ← read
          let key ← (Datum.keyText? d).getM
          let x ← read
          return (key, x)) (encodeText key ++ encode v) ((encode v).length - 1)
          fun st p => (p.1, st.toValue depth p.2) = (key, v) := by
        refine (htext key hunmarked).bind ?_
        rw [hkey]
        exact hv.bind_pure fun st d hd => by rw [hd]
      rw [List.length_cons, many, encodeFields]
      refine (hpair.bind fun q _ => (ih hkeys hvs).bind_pure fun st ps hps hq => ?_).mono ?_
      · rw [List.map_cons, hq, hps]
      · rw [List.length_append, List.length_append]
        omega

end Parts

section Items

variable {n depth : ℕ}

theorem yields_list {items : List (Value ℚ)} (h : ∀ v ∈ items, Restores (anyItem n) depth v)
    (width : ℕ) :
    Yields (list (anyItem n) (.given items.length width)) (encodeItems items)
      (encodeItems items).length fun st d => st.toValue (depth + 1) d = .list items := by
  have hmany := yields_many h
  have hlength := length_le_encodeItems items
  rw [← unlessEnd_false (anyItem n)] at hmany
  have hmake (ds : List Datum) : Yields (makeList ds) [] 0 fun st d =>
      ds.map (st.toValue depth) = items → st.toValue (depth + 1) d = .list items := by
    refine (yields_make (.list ds) []).imp fun st d hd hds => ?_
    rw [Store.toValue, hd]
    exact congrArg Value.list hds
  -- Every item pays with its first byte for being announced, so that the bytes are enough for all.
  have hlist := (yields_announce items.length width).bind fun _ _ =>
    (hmany.bind fun ds _ => hmake ds).imp fun st d hd _ => hd
  rw [List.nil_append, List.append_nil] at hlist
  exact hlist.mono (by omega)

theorem restores_list {items : List (Value ℚ)} (h : ∀ v ∈ items, Restores (anyItem n) depth v) :
    Restores (anyItem (n + 1)) (depth + 1) (.list items) := by
  refine Yields.of_length fun hbytes => ?_
  have hitems := length_le_encodeItems items
  have hheader := length_header_pos 4 items.length
  rw [encode, List.length_append] at hbytes
  obtain ⟨width, hopens, -⟩ := opens_header (by norm_num : 4 < 8)
    (by omega : items.length < 2 ^ 64)
  rw [anyItem, encode, List.length_append]
  refine (hopens.yields fun b hb => ?_).mono (by omega : (encodeItems items).length ≤ _)
  simp only [hb]
  exact yields_list h width

theorem yields_map {fields : Record (Value ℚ)} (hordered : Record.ofPairs fields = fields)
    (hkeys : ∀ p ∈ fields, Unmarked p.1 ∧ p.1 ≠ Record.unkeptKey)
    (h : ∀ p ∈ fields, Restores (anyItem (n + 1)) depth p.2) (width : ℕ) :
    Yields (map (anyItem (n + 1)) (.given fields.length width)) (encodeFields fields)
      (encodeFields fields).length fun st d => st.toValue (depth + 1) d = .object fields := by
  have hfields := yields_fields hkeys (fun s hs => reads_text hs) h
  have hmake (ps : List (String × Datum)) : Yields (makeObject ps) [] 0 fun st d =>
      ps.map (fun p => (p.1, st.toValue depth p.2)) = fields →
        st.toValue (depth + 1) d = .object fields := by
    refine (yields_make .plain (Record.ofPairs ps)).imp fun st d hd hps => ?_
    rw [Store.toValue, hd, ← hordered, ← hps, ← Record.ofPairs_map]
    rfl
  have hmap := hfields.bind fun ps _ => hmake ps
  rw [List.append_nil] at hmap
  refine Yields.get fun s hs => ?_
  rw [if_neg (by simp [hs])]
  exact hmap

theorem restores_object {fields : Record (Value ℚ)} (hordered : Record.ofPairs fields = fields)
    (hkeys : ∀ p ∈ fields, Unmarked p.1 ∧ p.1 ≠ Record.unkeptKey)
    (h : ∀ p ∈ fields, Restores (anyItem (n + 1)) depth p.2) :
    Restores (anyItem (n + 2)) (depth + 1) (.object fields) := by
  refine Yields.of_length fun hbytes => ?_
  have hfields := length_le_encodeFields fields
  have hheader := length_longHeader_pos 5 fields.length
  rw [encode, List.length_append] at hbytes
  obtain ⟨width, hopens, -⟩ := opens_longHeader (by norm_num : 5 < 8)
    (by omega : fields.length < 2 ^ 64)
  rw [anyItem, encode, List.length_append]
  refine (hopens.yields fun b hb => ?_).mono (by omega : (encodeFields fields).length ≤ _)
  simp only [hb]
  exact yields_map hordered hkeys h width

end Items

end Reader

/-- Plain values are restored by readers that look deeper than they nest. -/
theorem Plain.restores {n depth : ℕ} {v : Value ℚ} (h : Plain depth v) (hn : depth ≤ n) :
    Restores (anyItem (n + 1)) depth v := by
  induction h generalizing n with
  | text h =>
      refine ((reads_text h).imp ?_).mono (Nat.zero_le _)
      rintro st _ rfl
      exact st.toValue_of_plain _ rfl
  | number h =>
      obtain ⟨d, hd, hplain, hvalue⟩ := exists_reads_quantity n h
      refine (hd.imp ?_).mono (Nat.zero_le _)
      rintro st _ rfl
      rw [st.toValue_of_plain _ hplain, hvalue]
  | list _ ih =>
      obtain ⟨n, rfl⟩ := Nat.exists_eq_add_of_lt hn
      exact restores_list fun v hv => ih v hv (by omega)
  | object hordered hkeys _ ih =>
      obtain ⟨n, rfl⟩ := Nat.exists_eq_add_of_lt hn
      exact restores_object hordered hkeys fun p hp => ih p hp (by omega)

theorem Reading.Moves.isAtEnd {bytes : List UInt8} {budget : ℕ} {t : Reading}
    (h : (Reading.ofBytes bytes).Moves bytes budget t) : t.isAtEnd = true := by
  have hrest : t.rest = [] := List.self_eq_append_right.1 h.rest
  have hbundle : t.bundle = none := h.bundle
  unfold Reading.isAtEnd
  rw [hbundle, hrest]
  rfl

theorem decode_encode {depth : ℕ} {v : Value ℚ} (h : Plain depth v) (hdepth : depth < greatestDepth)
    (hbytes : (encode v).length < 2 ^ 64) :
    (decode (encode v)).map (fun p => p.2.toValue depth p.1) = some v := by
  have hrestores : Restores (anyItem greatestDepth) depth v := h.restores (Nat.le_pred_of_lt hdepth)
  have hroom : 0 + ((encode v).length - 1) ≤ (encode v).length := by omega
  obtain ⟨d, t, hrun, hmoves, hvalue⟩ := hrestores (.ofBytes (encode v)) []
    (List.append_nil _).symm rfl hbytes hroom
  unfold decode
  rw [hrun]
  change (if t.isAtEnd = true then some (d, t.store) else none).map _ = _
  rw [if_pos hmoves.isAtEnd]
  exact congrArg some (hvalue t.store (.refl _))

end Evidence.Cbor
