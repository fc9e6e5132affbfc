/-!
Progress values: the doubles from 0 to 100, negative zero among them. Doubles that are not
negative are ordered as their bit patterns, so a value is kept and compared by its bits.
-/

namespace DiskWarden

/-- A double from 0 to 100, by its bits. -/
structure Percent where
  bits : UInt64
  inRange : bits ≤ 0x4059000000000000 ∨ bits = 0x8000000000000000 := by decide
deriving DecidableEq, Repr

namespace Percent

def zero : Percent := ⟨0, by decide⟩

def negativeZero : Percent := ⟨0x8000000000000000, by decide⟩

def hundred : Percent := ⟨0x4059000000000000, by decide⟩

instance : Inhabited Percent := ⟨zero⟩

/-- Whether the bits of a double are those of no number. -/
def bitsAreNaN (bits : UInt64) : Bool :=
  0x7FF0000000000000 < (bits &&& 0x7FFFFFFFFFFFFFFF)

/-- The value nearest to the double with some bits; none for what is no number. -/
def ofBits? (bits : UInt64) : Option Percent :=
  if bitsAreNaN bits then none
  else if bits = 0x8000000000000000 then some negativeZero
  else if 0x8000000000000000 < bits then some zero
  else if h : bits ≤ 0x4059000000000000 then some ⟨bits, .inl h⟩
  else some hundred

/-- The value nearest to a double; none for what is no number. -/
def ofFloat? (value : Float) : Option Percent :=
  ofBits? value.toBits

def toFloat (percent : Percent) : Float := Float.ofBits percent.bits

/-- The place of a value in the order of numbers. Both zeros have the same. -/
def rank (percent : Percent) : Nat :=
  if percent.bits = 0x8000000000000000 then 0 else percent.bits.toNat

/-- The larger of two values, and the second of equal ones. -/
def max (first second : Percent) : Percent :=
  if second.rank < first.rank then first else second

theorem rank_max (first second : Percent) :
    (max first second).rank = Nat.max first.rank second.rank := by
  unfold max
  split
  · next h => exact (Nat.max_eq_left (Nat.le_of_lt h)).symm
  · next h => exact (Nat.max_eq_right (Nat.le_of_not_lt h)).symm

theorem rank_le_hundred (percent : Percent) : percent.rank ≤ hundred.rank := by
  obtain ⟨bits, inRange⟩ := percent
  unfold rank
  rcases inRange with h | h
  · split
    · exact Nat.zero_le _
    · exact UInt64.le_iff_toNat_le.mp h
  · simp [h]

end Percent

end DiskWarden
