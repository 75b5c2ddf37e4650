import RtiAssembly.Number.Numeral

/-!
# Tokens of JSON texts

A text is first cut into tokens; blanks between tokens leave no trace.  A text
that breaks the token grammar ends in a token that carries the defect, so that
a reader meets the defect at the place where it stands and not before.

Strings keep their escapes.  The same string is read in three ways: as text,
as a node number inside quotes, and as part of a value that is skipped.
-/

namespace RtiAssembly.Json

/-- What is wrong with a text that is no JSON: it goes on wrongly, or it ends
too early. -/
inductive Defect
  | malformed
  | truncated
  deriving DecidableEq, Repr

/-! ## Strings -/

/-- One element of a string between its quotes. -/
inductive StringUnit
  | plain (c : Char)
  | escaped (c : Char)
  /-- Four hexadecimal digits. -/
  | code (unit : Nat)
  deriving DecidableEq, Repr

/-- How a string ends: at its closing quote, or at a defect, together with the
character that stands there. -/
inductive StringEnd
  | closed
  | broken (defect : Defect) (found : Option Char)
  deriving DecidableEq, Repr

/-- A string as it is written. -/
structure Quoted where
  units : List StringUnit
  ending : StringEnd
  deriving DecidableEq, Repr

namespace Quoted

/-- The character of a two-character escape. -/
def escape? : Char → Option Char
  | '"' => some '"'
  | '\\' => some '\\'
  | '/' => some '/'
  | 'b' => some '\x08'
  | 'f' => some '\x0c'
  | 'n' => some '\n'
  | 'r' => some '\r'
  | 't' => some '\t'
  | _ => none

/-- The value of a hexadecimal digit of either case. -/
def hexDigit? (c : Char) : Option Nat :=
  if '0' ≤ c ∧ c ≤ '9' then some (c.toNat - 48)
  else if 'a' ≤ c ∧ c ≤ 'f' then some (c.toNat - 87)
  else if 'A' ≤ c ∧ c ≤ 'F' then some (c.toNat - 55)
  else none

/-- The code unit written by four hexadecimal digits. -/
def codeUnit? (first second third fourth : Char) : Option Nat := do
  let a ← hexDigit? first
  let b ← hexDigit? second
  let c ← hexDigit? third
  let d ← hexDigit? fourth
  pure (((a * 16 + b) * 16 + c) * 16 + d)

/-- Number of bytes of a character sequence. -/
def byteCount (chars : List Char) : Nat :=
  (chars.map Char.utf8Size).foldr (· + ·) 0

/-- The string that breaks off before it has any unit. -/
def brokenAt (defect : Defect) (found : Option Char) : Quoted × List Char :=
  (⟨[], .broken defect found⟩, [])

/-- Put a unit in front. -/
def addUnit (unit : StringUnit) (scanned : Quoted × List Char) : Quoted × List Char :=
  (⟨unit :: scanned.1.units, scanned.1.ending⟩, scanned.2)

/-- A code unit that is not followed by four hexadecimal digits: the text is
too short if fewer than four bytes are left. -/
def brokenCode (rest : List Char) : Quoted × List Char :=
  brokenAt (if byteCount rest < 4 then .truncated else .malformed) (some '\\')

/-- Scan a string from behind its opening quote; returns what follows it. -/
def scan : List Char → Quoted × List Char
  | [] => brokenAt .truncated none
  | c :: rest =>
      if c = '"' then
        (⟨[], .closed⟩, rest)
      else if c = '\\' then
        match rest with
        | [] => brokenAt .truncated (some c)
        | letter :: afterLetter =>
            match escape? letter with
            | some meant => addUnit (.escaped meant) (scan afterLetter)
            | none =>
                if letter = 'u' then
                  match afterLetter with
                  | first :: second :: third :: fourth :: afterCode =>
                      match codeUnit? first second third fourth with
                      | some unit => addUnit (.code unit) (scan afterCode)
                      | none => brokenCode afterLetter
                  | _ => brokenCode afterLetter
                else
                  brokenAt .malformed (some c)
      else if c.toNat < 32 then
        brokenAt .malformed (some c)
      else
        addUnit (.plain c) (scan rest)

/-- Whether a code unit opens a pair. -/
def isLeading (unit : Nat) : Bool :=
  0xD800 ≤ unit && unit ≤ 0xDBFF

/-- Whether a code unit closes a pair. -/
def isTrailing (unit : Nat) : Bool :=
  0xDC00 ≤ unit && unit ≤ 0xDFFF

/-- The characters of a unit sequence.  Code units outside pairs are their own
characters; a pair is one character; half a pair is a defect. -/
def decode (ending : StringEnd) : List StringUnit → Except Defect (List Char)
  | [] =>
      match ending with
      | .closed => .ok []
      | .broken defect _ => .error defect
  | .plain c :: rest => (decode ending rest).map (c :: ·)
  | .escaped c :: rest => (decode ending rest).map (c :: ·)
  | .code unit :: rest =>
      if isTrailing unit then
        .error .malformed
      else if isLeading unit then
        match rest with
        | .code second :: afterPair =>
            if isTrailing second then
              let point := 0x10000 + (unit - 0xD800) * 1024 + (second - 0xDC00)
              (decode ending afterPair).map (Char.ofNat point :: ·)
            else
              .error .malformed
        | [] =>
            match ending with
            | .closed => .error .malformed
            | .broken defect _ => .error defect
        | _ => .error .malformed
      else
        (decode ending rest).map (Char.ofNat unit :: ·)

/-- The text of a string. -/
def text? (quoted : Quoted) : Except Defect String :=
  (decode quoted.ending quoted.units).map String.ofList

/-- The defect of a string that is skipped; pairs are not looked at. -/
def skip (quoted : Quoted) : Except Defect Unit :=
  match quoted.ending with
  | .closed => .ok ()
  | .broken defect _ => .error defect

/-- The unescaped characters behind the opening quote, and the character that
ends them. -/
def leadOf (ending : StringEnd) : List StringUnit → List Char
  | [] =>
      match ending with
      | .closed => ['"']
      | .broken _ found => found.toList
  | .plain c :: rest => c :: leadOf ending rest
  | _ :: _ => ['\\']

/-- The unescaped characters behind the opening quote, and the character that
ends them. -/
def lead (quoted : Quoted) : List Char :=
  leadOf quoted.ending quoted.units

end Quoted

/-! ## Numerals -/

/-- The digits at the front of a text, and what follows them. -/
def takeDigits : List Char → List Digit × List Char
  | [] => ([], [])
  | c :: rest =>
      match Digit.ofChar? c with
      | some digit => (digit :: (takeDigits rest).1, (takeDigits rest).2)
      | none => ([], c :: rest)

/-- Digits that must be there. -/
def requireDigits (chars : List Char) : Except Defect (List Digit × List Char) :=
  match takeDigits chars with
  | ([], []) => .error .truncated
  | ([], _ :: _) => .error .malformed
  | scanned => .ok scanned

/-- The digits before the point: a single zero, or no leading zero. -/
def scanWhole (chars : List Char) : Except Defect (List Digit × List Char) :=
  match requireDigits chars with
  | .error defect => .error defect
  | .ok (digits, rest) =>
      match digits with
      | 0 :: _ :: _ => .error .malformed
      | _ => .ok (digits, rest)

/-- The point and the digits after it, if there is a point. -/
def scanFraction (chars : List Char) : Except Defect (Option (List Digit) × List Char) :=
  match chars with
  | '.' :: rest => (requireDigits rest).map fun (digits, rest) => (some digits, rest)
  | _ => .ok (none, chars)

/-- The sign of an exponent. -/
def scanExponentSign : List Char → ExponentSign × List Char
  | '+' :: rest => (.plus, rest)
  | '-' :: rest => (.minus, rest)
  | chars => (.implicit, chars)

/-- The exponent, if there is one. -/
def scanExponent (chars : List Char) : Except Defect (Option Exponent × List Char) :=
  match chars with
  | [] => .ok (none, [])
  | c :: rest =>
      if c = 'e' ∨ c = 'E' then
        (requireDigits (scanExponentSign rest).2).map fun (digits, afterDigits) =>
          (some ⟨(scanExponentSign rest).1, digits⟩, afterDigits)
      else
        .ok (none, chars)

/-- The sign of a numeral. -/
def scanSign : List Char → Bool × List Char
  | '-' :: rest => (true, rest)
  | chars => (false, chars)

/-- Scan a numeral; returns what follows it. -/
def scanNumeral (chars : List Char) : Except Defect (Numeral × List Char) :=
  match scanWhole (scanSign chars).2 with
  | .error defect => .error defect
  | .ok (whole, afterWhole) =>
      match scanFraction afterWhole with
      | .error defect => .error defect
      | .ok (fraction, afterFraction) =>
          match scanExponent afterFraction with
          | .error defect => .error defect
          | .ok (exponent, rest) => .ok (⟨(scanSign chars).1, whole, fraction, exponent⟩, rest)

/-! ## Tokens -/

/-- A token of a JSON text. -/
inductive Token
  | openArray
  | closeArray
  | openObject
  | closeObject
  | comma
  | colon
  | null
  | boolean (value : Bool)
  | numeral (written : Numeral)
  | string (quoted : Quoted)
  | brokenNumeral (defect : Defect)
  | brokenWord (defect : Defect)
  /-- A character that starts no token. -/
  | stray
  deriving DecidableEq, Repr

/-- Whether a character may stand between tokens. -/
def isBlank (c : Char) : Bool :=
  c == ' ' || c == '\n' || c == '\t' || c == '\r'

/-- Scan the rest of a fixed word. -/
def scanWord (token : Token) : (expected : List Char) → List Char → Token × List Char
  | [], chars => (token, chars)
  | _ :: _, [] => (.brokenWord .truncated, [])
  | c :: expected, found :: rest =>
      if found = c then scanWord token expected rest else (.brokenWord .malformed, [])

/-- Whether a character starts a numeral. -/
def startsNumeral (c : Char) : Bool :=
  c == '-' || (Digit.ofChar? c).isSome

/-- Scan the token that starts with `c`; after a defect nothing follows. -/
def scanToken (c : Char) (rest : List Char) : Token × List Char :=
  match c with
  | '[' => (.openArray, rest)
  | ']' => (.closeArray, rest)
  | '{' => (.openObject, rest)
  | '}' => (.closeObject, rest)
  | ',' => (.comma, rest)
  | ':' => (.colon, rest)
  | '"' => (.string (Quoted.scan rest).1, (Quoted.scan rest).2)
  | 'n' => scanWord .null ['u', 'l', 'l'] rest
  | 't' => scanWord (.boolean true) ['r', 'u', 'e'] rest
  | 'f' => scanWord (.boolean false) ['a', 'l', 's', 'e'] rest
  | _ =>
      if startsNumeral c then
        match scanNumeral (c :: rest) with
        | .ok (written, rest) => (.numeral written, rest)
        | .error defect => (.brokenNumeral defect, [])
      else
        (.stray, [])

/-! ### Scanning makes progress -/

theorem Quoted.length_scan_le (chars : List Char) :
    (Quoted.scan chars).2.length ≤ chars.length := by
  fun_induction Quoted.scan chars <;>
    simp_all [Quoted.addUnit, Quoted.brokenAt, Quoted.brokenCode] <;> omega

theorem length_takeDigits_le (chars : List Char) :
    (takeDigits chars).2.length ≤ chars.length := by
  fun_induction takeDigits chars <;> grind

theorem length_requireDigits_lt {chars : List Char} {scanned : List Digit × List Char}
    (success : requireDigits chars = .ok scanned) : scanned.2.length < chars.length := by
  unfold requireDigits at success
  cases chars with
  | nil => simp [takeDigits] at success
  | cons c rest =>
      have shorter := length_takeDigits_le rest
      cases found : Digit.ofChar? c with
      | none => simp [takeDigits, found] at success
      | some digit =>
          simp only [takeDigits, found] at success
          obtain rfl := Except.ok.inj success
          simp only [List.length_cons]
          omega

theorem length_scanWhole_lt {chars : List Char} {scanned : List Digit × List Char}
    (success : scanWhole chars = .ok scanned) : scanned.2.length < chars.length := by
  unfold scanWhole at success
  split at success
  · simp at success
  · next digits rest required =>
      have shorter := length_requireDigits_lt required
      split at success
      · simp at success
      · obtain rfl := Except.ok.inj success
        exact shorter

theorem length_scanFraction_le {chars : List Char}
    {scanned : Option (List Digit) × List Char}
    (success : scanFraction chars = .ok scanned) : scanned.2.length ≤ chars.length := by
  unfold scanFraction at success
  split at success
  · next rest =>
      cases required : requireDigits rest with
      | error defect => simp [required, Except.map] at success
      | ok found =>
          have shorter := length_requireDigits_lt required
          simp only [required, Except.map] at success
          obtain rfl := Except.ok.inj success
          simp only [List.length_cons]
          omega
  · obtain rfl := Except.ok.inj success
    exact Nat.le_refl _

theorem length_scanExponentSign_le (chars : List Char) :
    (scanExponentSign chars).2.length ≤ chars.length := by
  unfold scanExponentSign
  split <;> simp

theorem length_scanExponent_le {chars : List Char} {scanned : Option Exponent × List Char}
    (success : scanExponent chars = .ok scanned) : scanned.2.length ≤ chars.length := by
  unfold scanExponent at success
  split at success
  · obtain rfl := Except.ok.inj success
    exact Nat.le_refl _
  · next c rest =>
      split at success
      · cases required : requireDigits (scanExponentSign rest).2 with
        | error defect => simp [required, Except.map] at success
        | ok found =>
            have shorter := length_requireDigits_lt required
            have signed := length_scanExponentSign_le rest
            simp only [required, Except.map] at success
            obtain rfl := Except.ok.inj success
            simp only [List.length_cons]
            omega
      · obtain rfl := Except.ok.inj success
        exact Nat.le_refl _

theorem length_scanSign_le (chars : List Char) :
    (scanSign chars).2.length ≤ chars.length := by
  unfold scanSign
  split <;> simp

theorem length_scanNumeral_lt {chars : List Char} {scanned : Numeral × List Char}
    (success : scanNumeral chars = .ok scanned) : scanned.2.length < chars.length := by
  unfold scanNumeral at success
  have signed := length_scanSign_le chars
  split at success
  · simp at success
  · next whole afterWhole foundWhole =>
      have wholeShorter := length_scanWhole_lt foundWhole
      split at success
      · simp at success
      · next fraction afterFraction foundFraction =>
          have fractionShorter := length_scanFraction_le foundFraction
          split at success
          · simp at success
          · next exponent rest foundExponent =>
              have exponentShorter := length_scanExponent_le foundExponent
              obtain rfl := Except.ok.inj success
              simp only at *
              omega

theorem length_scanWord_le (token : Token) (expected chars : List Char) :
    (scanWord token expected chars).2.length ≤ chars.length := by
  fun_induction scanWord token expected chars <;> grind

/-- Scanning a token consumes at least its first character. -/
theorem length_scanToken_le (c : Char) (rest : List Char) :
    (scanToken c rest).2.length ≤ rest.length := by
  unfold scanToken
  split
  case h_7 => exact Quoted.length_scan_le rest
  case h_8 => exact length_scanWord_le _ _ rest
  case h_9 => exact length_scanWord_le _ _ rest
  case h_10 => exact length_scanWord_le _ _ rest
  case h_11 =>
    split
    · split
      · next written after success =>
          have shorter := length_scanNumeral_lt success
          simp only [List.length_cons] at shorter ⊢
          omega
      · simp
    · simp
  all_goals simp

/-- The tokens of a text. -/
def tokens : List Char → List Token
  | [] => []
  | c :: rest =>
      if isBlank c then
        tokens rest
      else
        (scanToken c rest).1 :: tokens (scanToken c rest).2
termination_by chars => chars.length
decreasing_by
  · simp
  · have shorter := length_scanToken_le c rest
    simp only [List.length_cons]
    omega

end RtiAssembly.Json
