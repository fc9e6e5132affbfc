import DiskWarden.Text.Digits
import DiskWarden.Text.Utf8

/-!
The SHA-256 digest of a text, by which a secret can be told without being shown.
-/

namespace DiskWarden.Sha256

/-! ## Words -/

/-- A word with its bits moved to the right, where those that fall out come in again. -/
def rotateRight (word count : UInt32) : UInt32 := (word >>> count) ||| (word <<< (32 - count))

/-- The bits of one word where a first one is set, and those of another where it is not. -/
def choose (first onSet onClear : UInt32) : UInt32 := (first &&& onSet) ^^^ (~~~first &&& onClear)

/-- The bits that are set in most of three words. -/
def majority (first second third : UInt32) : UInt32 :=
  (first &&& second) ^^^ (first &&& third) ^^^ (second &&& third)

def largeSigma0 (word : UInt32) : UInt32 :=
  rotateRight word 2 ^^^ rotateRight word 13 ^^^ rotateRight word 22

def largeSigma1 (word : UInt32) : UInt32 :=
  rotateRight word 6 ^^^ rotateRight word 11 ^^^ rotateRight word 25

def smallSigma0 (word : UInt32) : UInt32 :=
  rotateRight word 7 ^^^ rotateRight word 18 ^^^ (word >>> 3)

def smallSigma1 (word : UInt32) : UInt32 :=
  rotateRight word 17 ^^^ rotateRight word 19 ^^^ (word >>> 10)

/-- The words that octets give, four to a word, the most significant first. -/
def words : Text.Octets → List UInt32
  | a :: b :: c :: d :: rest =>
      (a.toUInt32 <<< 24 ||| b.toUInt32 <<< 16 ||| c.toUInt32 <<< 8 ||| d.toUInt32) :: words rest
  | _ => []

/-! ## Padding -/

/-- A number in eight octets, the most significant first. -/
def countOctets (count : Nat) : Text.Octets :=
  (List.range 8).map fun place => (count >>> (8 * (7 - place))).toUInt8

/-- How many zeros fill up a message of a length, with the mark and the count, to whole
blocks. -/
def fillLength (length : Nat) : Nat := (119 - length % 64) % 64

/-- What follows a message of a length: a mark, zeros, and the count of its bits. -/
def padding (length : Nat) : Text.Octets :=
  0x80 :: List.replicate (fillLength length) 0 ++ countOctets (8 * length)

/-! ## Compression -/

/-- The eight words that a message is compressed to. -/
structure State where
  a : UInt32
  b : UInt32
  c : UInt32
  d : UInt32
  e : UInt32
  f : UInt32
  g : UInt32
  h : UInt32
deriving DecidableEq, Repr

namespace State

/-- The state before the first block. -/
def start : State where
  a := 0x6a09e667
  b := 0xbb67ae85
  c := 0x3c6ef372
  d := 0xa54ff53a
  e := 0x510e527f
  f := 0x9b05688c
  g := 0x1f83d9ab
  h := 0x5be0cd19

def toList (state : State) : List UInt32 :=
  [state.a, state.b, state.c, state.d, state.e, state.f, state.g, state.h]

/-- The sum of two states, word by word. -/
def add (first second : State) : State where
  a := first.a + second.a
  b := first.b + second.b
  c := first.c + second.c
  d := first.d + second.d
  e := first.e + second.e
  f := first.f + second.f
  g := first.g + second.g
  h := first.h + second.h

end State

def constants : List UInt32 :=
  [0x428a2f98, 0x71374491, 0xb5c0fbcf, 0xe9b5dba5, 0x3956c25b, 0x59f111f1, 0x923f82a4, 0xab1c5ed5,
   0xd807aa98, 0x12835b01, 0x243185be, 0x550c7dc3, 0x72be5d74, 0x80deb1fe, 0x9bdc06a7, 0xc19bf174,
   0xe49b69c1, 0xefbe4786, 0x0fc19dc6, 0x240ca1cc, 0x2de92c6f, 0x4a7484aa, 0x5cb0a9dc, 0x76f988da,
   0x983e5152, 0xa831c66d, 0xb00327c8, 0xbf597fc7, 0xc6e00bf3, 0xd5a79147, 0x06ca6351, 0x14292967,
   0x27b70a85, 0x2e1b2138, 0x4d2c6dfc, 0x53380d13, 0x650a7354, 0x766a0abb, 0x81c2c92e, 0x92722c85,
   0xa2bfe8a1, 0xa81a664b, 0xc24b8b70, 0xc76c51a3, 0xd192e819, 0xd6990624, 0xf40e3585, 0x106aa070,
   0x19a4c116, 0x1e376c08, 0x2748774c, 0x34b0bcb5, 0x391c0cb3, 0x4ed8aa4a, 0x5b9cca4f, 0x682e6ff3,
   0x748f82ee, 0x78a5636f, 0x84c87814, 0x8cc70208, 0x90befffa, 0xa4506ceb, 0xbef9a3f7, 0xc67178f2]

/-- The word that follows sixteen words of a schedule. -/
def nextWord (window : List UInt32) : UInt32 :=
  window.getD 0 0 + smallSigma0 (window.getD 1 0) + window.getD 9 0 +
    smallSigma1 (window.getD 14 0)

/-- The schedule that goes on for a number of words after its latest sixteen ones. -/
def extend : Nat → List UInt32 → List UInt32
  | 0, window => window
  | _ + 1, [] => []
  | count + 1, oldest :: later => oldest :: extend count (later ++ [nextWord (oldest :: later)])

def schedule (block : List UInt32) : List UInt32 := extend 48 block

/-- One round, with a word of the schedule and a constant. -/
def round (state : State) (input : UInt32 × UInt32) : State :=
  let first :=
    state.h + largeSigma1 state.e + choose state.e state.f state.g + input.1 + input.2
  let second := largeSigma0 state.a + majority state.a state.b state.c
  ⟨first + second, state.a, state.b, state.c, state.d + first, state.e, state.f, state.g⟩

/-- Takes a block of sixteen words into a state. -/
def compress (state : State) (block : List UInt32) : State :=
  state.add (((schedule block).zip constants).foldl round state)

/-- The first blocks of some words. -/
def blocks : Nat → List UInt32 → List (List UInt32)
  | 0, _ => []
  | count + 1, input => input.take 16 :: blocks count (input.drop 16)

/-! ## The digest -/

/-- The state that a message ends in. -/
def digest (message : Text.Octets) : State :=
  let input := words (message ++ padding message.length)
  (blocks (input.length / 16) input).foldl compress .start

/-- The digest of a text in hexadecimal digits. -/
def fingerprint (text : String) : String :=
  String.ofList
    ((digest (Text.encode text)).toList.flatMap fun word => Text.lowerHex 8 word.toNat)

example : fingerprint "abc" =
    "ba7816bf8f01cfea414140de5dae2223b00361a396177a9cb410ff61f20015ad" := by
  decide +kernel

end DiskWarden.Sha256
