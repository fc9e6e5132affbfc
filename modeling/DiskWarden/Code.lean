import DiskWarden.Text.Digits

/-!
Result codes: the integers of 32 bits with a sign that the daemon reports.
-/

namespace DiskWarden

/-- An integer of 32 bits with a sign. -/
structure Code where
  value : Int
  lower : -2147483648 ≤ value := by omega
  upper : value ≤ 2147483647 := by omega
deriving DecidableEq, Repr

namespace Code

def ofSmall (n : UInt8) : Code :=
  ⟨n.toNat, by omega, by have := n.toNat_lt; omega⟩

instance : Inhabited Code := ⟨ofSmall 0⟩

/-- The code with a given value, if the value fits. -/
def ofInt? (value : Int) : Option Code :=
  if h : -2147483648 ≤ value ∧ value ≤ 2147483647 then some ⟨value, h.1, h.2⟩ else none

theorem ofInt?_eq_some_iff {value : Int} {code : Code} :
    ofInt? value = some code ↔ code.value = value := by
  unfold ofInt?
  split
  · constructor
    · intro h
      simp only [Option.some.injEq] at h
      subst h
      rfl
    · intro h
      subst h
      rfl
  · next out =>
      constructor
      · intro h
        exact absurd h (by simp)
      · intro h
        exact absurd ⟨h ▸ code.lower, h ▸ code.upper⟩ out

/-- The distance from zero, which no code's sign changes. -/
def magnitude (code : Code) : Nat := code.value.natAbs

def isNegative (code : Code) : Bool := decide (code.value < 0)

/-- The number that decimal digits write, of which there has to be one at least. -/
def magnitudeOfDigits? (digits : List Char) : Option Nat :=
  if digits.isEmpty || !digits.all Char.isDigit then none
  else some (Text.digitsValue 10 digits)

/-- The code that digits write, after a sign or without one. -/
def ofText? (text : String) : Option Code :=
  match text.toList with
  | '-' :: digits => (magnitudeOfDigits? digits).bind fun magnitude => ofInt? (-magnitude)
  | '+' :: digits => (magnitudeOfDigits? digits).bind fun magnitude => ofInt? magnitude
  | digits => (magnitudeOfDigits? digits).bind fun magnitude => ofInt? magnitude

/-- The decimal digits of a code, with a minus sign before those of a negative one. -/
def text (code : Code) : String := toString code.value

end Code

end DiskWarden
