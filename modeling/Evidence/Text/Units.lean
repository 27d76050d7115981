namespace Evidence.Text

def unitsOf (c : Char) : List Nat :=
  if c.toNat < 0x10000 then [c.toNat]
  else [0xD800 + (c.toNat - 0x10000) / 0x400, 0xDC00 + (c.toNat - 0x10000) % 0x400]

/-- The UTF-16 units of a text. Lists with an unpaired surrogate are the units of none. -/
def units : List Char → List Nat
  | [] => []
  | c :: cs => unitsOf c ++ units cs

/-- The order by UTF-16 units. It differs from the order by code points where a character beyond the
basic plane, which is written with surrogates, meets one from U+E000 up. -/
def precedes (s t : String) : Prop := units s.toList < units t.toList

instance (s t : String) : Decidable (precedes s t) :=
  inferInstanceAs (Decidable (units s.toList < units t.toList))

theorem toNat_lt_or (c : Char) : c.toNat < 0xD800 ∨ 0xDFFF < c.toNat ∧ c.toNat < 0x110000 := c.valid

theorem unitsOf_append_inj {c d : Char} {us vs : List Nat}
    (h : unitsOf c ++ us = unitsOf d ++ vs) : c = d ∧ us = vs := by
  have hc := toNat_lt_or c
  have hd := toNat_lt_or d
  unfold unitsOf at h
  split at h <;> split at h <;>
    simp only [List.cons_append, List.nil_append, List.cons.injEq] at h
  · exact ⟨Char.toNat_inj.1 h.1, h.2⟩
  · omega
  · omega
  · exact ⟨Char.toNat_inj.1 (by omega), h.2.2⟩

theorem units_inj {cs ds : List Char} (h : units cs = units ds) : cs = ds := by
  have unitsOf_ne_nil (c : Char) : unitsOf c ≠ [] := by
    unfold unitsOf
    split <;> simp
  induction cs generalizing ds with
  | nil =>
    cases ds with
    | nil => rfl
    | cons d ds => simp [units, unitsOf_ne_nil] at h
  | cons c cs ih =>
    cases ds with
    | nil => simp [units, unitsOf_ne_nil] at h
    | cons d ds =>
      obtain ⟨rfl, hs⟩ := unitsOf_append_inj h
      rw [ih hs]

theorem precedes_irrefl (s : String) : ¬ precedes s s := List.lt_irrefl _

theorem precedes_trans {s t u : String} (h : precedes s t) (k : precedes t u) : precedes s u :=
  List.lt_trans h k

theorem eq_of_not_precedes {s t : String} (h : ¬ precedes s t) (k : ¬ precedes t s) : s = t :=
  String.toList_inj.1 (units_inj (List.le_antisymm (List.not_lt.1 k) (List.not_lt.1 h)))

end Evidence.Text
