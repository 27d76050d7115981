namespace Evidence

/-- Positions as bits, finitely many or all but finitely many. As a whole number position `i` weighs
`2 ^ i`; a mask of the second sort is negative, as in two's complement. -/
inductive Mask where
  | finite (bits : Nat)
  | cofinite (gaps : Nat)
  deriving DecidableEq

namespace Mask

def has : Mask → Nat → Bool
  | finite bits, i => bits.testBit i
  | cofinite gaps, i => !gaps.testBit i

def toInt : Mask → Int
  | finite bits => bits
  | cofinite gaps => -1 - gaps

def ofInt : Int → Mask
  | .ofNat bits => finite bits
  | .negSucc gaps => cofinite gaps

def text (m : Mask) : String := toString m.toInt

def empty : Mask := finite 0

def singleton (i : Nat) : Mask := finite (1 <<< i)

def full (n : Nat) : Mask := finite (1 <<< n - 1)

def complement : Mask → Mask
  | finite bits => cofinite bits
  | cofinite gaps => finite gaps

def lacking (m n : Nat) : Nat := m ^^^ (m &&& n)

def inter : Mask → Mask → Mask
  | finite m, finite n => finite (m &&& n)
  | finite m, cofinite n => finite (lacking m n)
  | cofinite m, finite n => finite (lacking n m)
  | cofinite m, cofinite n => cofinite (m ||| n)

def union : Mask → Mask → Mask
  | finite m, finite n => finite (m ||| n)
  | finite m, cofinite n => cofinite (lacking n m)
  | cofinite m, finite n => cofinite (lacking m n)
  | cofinite m, cofinite n => cofinite (m &&& n)

def diff (m n : Mask) : Mask := inter m (complement n)

def card : Mask → Nat
  | finite bits => (List.range (bits.log2 + 1)).countP bits.testBit
  | cofinite _ => 0

def within (n : Nat) : Mask → Bool
  | finite bits => bits < 1 <<< n
  | cofinite _ => false

@[simp] theorem has_empty (i : Nat) : empty.has i = false := Nat.zero_testBit i

@[simp] theorem has_complement (m : Mask) (i : Nat) : m.complement.has i = !m.has i := by
  cases m <;> simp [complement, has]

theorem testBit_lacking (m n i : Nat) :
    (lacking m n).testBit i = (m.testBit i && !n.testBit i) := by
  simp only [lacking, Nat.testBit_xor, Nat.testBit_and]
  cases m.testBit i <;> cases n.testBit i <;> rfl

@[simp] theorem has_inter (m n : Mask) (i : Nat) : (m.inter n).has i = (m.has i && n.has i) := by
  cases m <;> cases n <;> simp [inter, has, testBit_lacking, Bool.and_comm]

@[simp] theorem has_union (m n : Mask) (i : Nat) : (m.union n).has i = (m.has i || n.has i) := by
  cases m <;> cases n <;> simp [union, has, testBit_lacking, Bool.or_comm]

@[simp] theorem has_diff (m n : Mask) (i : Nat) : (m.diff n).has i = (m.has i && !n.has i) := by
  simp [diff]

@[simp] theorem has_singleton (j i : Nat) : (singleton j).has i = decide (j = i) := by
  simp [singleton, has, Nat.one_shiftLeft, Nat.testBit_two_pow]

@[simp] theorem has_full (n i : Nat) : (full n).has i = decide (i < n) := by
  simp [full, has, Nat.one_shiftLeft, Nat.testBit_two_pow_sub_one]

end Mask

end Evidence
