/-!
# SHA-256

The digest of a byte sequence: the padded message is cut into blocks of sixteen
words, and each block is mixed into the eight words of the state in sixty-four
rounds.  Word arithmetic is modulo `2 ^ 32` throughout.
-/

namespace RtiAssembly.Sha256

/-- The constants of the sixty-four rounds. -/
def roundConstants : Array UInt32 :=
  #[0x428a2f98, 0x71374491, 0xb5c0fbcf, 0xe9b5dba5, 0x3956c25b, 0x59f111f1,
    0x923f82a4, 0xab1c5ed5, 0xd807aa98, 0x12835b01, 0x243185be, 0x550c7dc3,
    0x72be5d74, 0x80deb1fe, 0x9bdc06a7, 0xc19bf174, 0xe49b69c1, 0xefbe4786,
    0x0fc19dc6, 0x240ca1cc, 0x2de92c6f, 0x4a7484aa, 0x5cb0a9dc, 0x76f988da,
    0x983e5152, 0xa831c66d, 0xb00327c8, 0xbf597fc7, 0xc6e00bf3, 0xd5a79147,
    0x06ca6351, 0x14292967, 0x27b70a85, 0x2e1b2138, 0x4d2c6dfc, 0x53380d13,
    0x650a7354, 0x766a0abb, 0x81c2c92e, 0x92722c85, 0xa2bfe8a1, 0xa81a664b,
    0xc24b8b70, 0xc76c51a3, 0xd192e819, 0xd6990624, 0xf40e3585, 0x106aa070,
    0x19a4c116, 0x1e376c08, 0x2748774c, 0x34b0bcb5, 0x391c0cb3, 0x4ed8aa4a,
    0x5b9cca4f, 0x682e6ff3, 0x748f82ee, 0x78a5636f, 0x84c87814, 0x8cc70208,
    0x90befffa, 0xa4506ceb, 0xbef9a3f7, 0xc67178f2]

/-- The eight words of the running state. -/
structure State where
  a : UInt32
  b : UInt32
  c : UInt32
  d : UInt32
  e : UInt32
  f : UInt32
  g : UInt32
  h : UInt32
  deriving DecidableEq, Repr

namespace State

/-- The state before the first block. -/
def start : State where
  a := 0x6a09e667
  b := 0xbb67ae85
  c := 0x3c6ef372
  d := 0xa54ff53a
  e := 0x510e527f
  f := 0x9b05688c
  g := 0x1f83d9ab
  h := 0x5be0cd19

/-- Wordwise sum of two states. -/
def add (left right : State) : State where
  a := left.a + right.a
  b := left.b + right.b
  c := left.c + right.c
  d := left.d + right.d
  e := left.e + right.e
  f := left.f + right.f
  g := left.g + right.g
  h := left.h + right.h

/-- The words in order. -/
def words (state : State) : List UInt32 :=
  [state.a, state.b, state.c, state.d, state.e, state.f, state.g, state.h]

end State

/-- Rotation to the right. -/
def rotateRight (word : UInt32) (amount : UInt32) : UInt32 :=
  (word >>> amount) ||| (word <<< (32 - amount))

/-- One round with its constant and its schedule word. -/
def round (state : State) (constant word : UInt32) : State :=
  let sum1 :=
    rotateRight state.e 6 ^^^ rotateRight state.e 11 ^^^ rotateRight state.e 25
  let choice := (state.e &&& state.f) ^^^ (~~~state.e &&& state.g)
  let first := state.h + sum1 + choice + constant + word
  let sum0 :=
    rotateRight state.a 2 ^^^ rotateRight state.a 13 ^^^ rotateRight state.a 22
  let majority :=
    (state.a &&& state.b) ^^^ (state.a &&& state.c) ^^^ (state.b &&& state.c)
  { a := first + (sum0 + majority)
    b := state.a
    c := state.b
    d := state.c
    e := state.d + first
    f := state.e
    g := state.f
    h := state.g }

/-- The schedule word at `position`, from the words before it. -/
def scheduleWord (words : Array UInt32) (position : Nat) : UInt32 :=
  let two := words.getD (position - 2) 0
  let fifteen := words.getD (position - 15) 0
  let mixed1 := rotateRight two 17 ^^^ rotateRight two 19 ^^^ (two >>> 10)
  let mixed0 := rotateRight fifteen 7 ^^^ rotateRight fifteen 18 ^^^ (fifteen >>> 3)
  mixed1 + words.getD (position - 7) 0 + mixed0 + words.getD (position - 16) 0

/-- Extend the sixteen words of a block to the sixty-four of its schedule. -/
def schedule (block : Array UInt32) : Array UInt32 :=
  (List.range' 16 48).foldl (fun words position => words.push (scheduleWord words position)) block

/-- Mix one block into the state. -/
def compress (state : State) (block : Array UInt32) : State :=
  let mixed :=
    (roundConstants.zip (schedule block)).foldl (fun state (constant, word) =>
      round state constant word) state
  state.add mixed

/-- The message followed by a set bit, zeros up to eight bytes short of a whole
block, and its length in bits. -/
def padded (message : List UInt8) : List UInt8 :=
  let bits := 8 * message.length
  let zeros : List UInt8 := List.replicate ((119 - message.length % 64) % 64) 0
  let size : List UInt8 :=
    (List.range 8).map fun place => (bits >>> (8 * (7 - place))).toUInt8
  message ++ [0x80] ++ zeros ++ size

/-- Big-endian words of a byte sequence; an incomplete last word is dropped. -/
def wordsOf : List UInt8 → List UInt32
  | a :: b :: c :: d :: rest =>
      (a.toUInt32 <<< 24 ||| b.toUInt32 <<< 16 ||| c.toUInt32 <<< 8 ||| d.toUInt32) ::
        wordsOf rest
  | _ => []

/-- Mix in `count` blocks of sixteen words. -/
def absorb (state : State) (words : List UInt32) : (count : Nat) → State
  | 0 => state
  | count + 1 => absorb (compress state (words.take 16).toArray) (words.drop 16) count

/-- The digest of a byte sequence. -/
def digest (message : List UInt8) : State :=
  let words := wordsOf (padded message)
  absorb State.start words (words.length / 16)

/-- The character of a hexadecimal digit, in lower case. -/
def hexDigit (value : Nat) : Char :=
  if value < 10 then Char.ofNat (48 + value) else Char.ofNat (87 + value)

/-- The eight hexadecimal digits of a word. -/
def hexWord (word : UInt32) : List Char :=
  (List.range 8).map fun place => hexDigit (word.toNat >>> (4 * (7 - place)) % 16)

/-- The digest of a text's UTF-8 bytes as sixty-four hexadecimal digits. -/
def hexDigest (text : String) : String :=
  String.ofList ((digest text.toUTF8.toList).words.flatMap hexWord)

end RtiAssembly.Sha256
