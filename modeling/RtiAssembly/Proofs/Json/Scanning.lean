import Mathlib
import RtiAssembly.Json.Token

/-!
# Tokens are scanned as they are written

The grammar of tokens says how each token is written: `TokenText` relates a
token to its texts.  A token can have several, because the case of hexadecimal
digits and of an exponent letter leaves no trace.  Scanning inverts the relation:
a sequence of tokens with blanks in between is scanned as that sequence.
-/

namespace RtiAssembly

/-! ## Digits and numerals -/

namespace Digit

@[simp]
theorem ofChar?_char (digit : Digit) : ofChar? digit.char = some digit := by
  revert digit
  decide

end Digit

namespace Numeral

/-- A numeral of the grammar: there are digits wherever digits are expected, and
no zero leads the whole part of several digits. -/
structure WellFormed (numeral : Numeral) : Prop where
  whole_ne : numeral.whole ≠ []
  leading_ne : ∀ next rest, numeral.whole ≠ 0 :: next :: rest
  fraction_ne : ∀ digits ∈ numeral.fraction, digits ≠ []
  exponent_ne : ∀ exponent ∈ numeral.exponent, exponent.digits ≠ []

/-- The characters of the sign of an exponent. -/
def signChars : ExponentSign → List Char
  | .implicit => []
  | .plus => ['+']
  | .minus => ['-']

/-- The characters of a numeral whose exponent is announced by `letter`. -/
def chars (letter : Char) (numeral : Numeral) : List Char :=
  (if numeral.negative then ['-'] else []) ++ numeral.whole.map Digit.char ++
    numeral.fraction.elim [] (fun digits => '.' :: digits.map Digit.char) ++
    numeral.exponent.elim [] fun exponent =>
      letter :: signChars exponent.sign ++ exponent.digits.map Digit.char

end Numeral

namespace Json

/-- A text that does not go on with a digit. -/
def EndsDigits (rest : List Char) : Prop :=
  ∀ c ∈ rest.head?, Digit.ofChar? c = none

/-- A text that does not go on with a part of a numeral. -/
def EndsNumeral (rest : List Char) : Prop :=
  EndsDigits rest ∧ ∀ c ∈ rest.head?, c ≠ '.' ∧ c ≠ 'e' ∧ c ≠ 'E'

theorem endsDigits_cons {c : Char} {rest : List Char} (isOther : Digit.ofChar? c = none) :
    EndsDigits (c :: rest) := by
  rintro _ ⟨⟩
  exact isOther

theorem takeDigits_append (digits : List Digit) {rest : List Char} (ends : EndsDigits rest) :
    takeDigits (digits.map Digit.char ++ rest) = (digits, rest) := by
  induction digits with
  | nil =>
      cases rest with
      | nil => rfl
      | cons c rest => simp [takeDigits, ends c rfl]
  | cons digit digits ih => simp [takeDigits, ih]

theorem requireDigits_append {digits : List Digit} (digits_ne : digits ≠ []) {rest : List Char}
    (ends : EndsDigits rest) :
    requireDigits (digits.map Digit.char ++ rest) = .ok (digits, rest) := by
  rw [requireDigits, takeDigits_append digits ends]
  cases digits with
  | nil => contradiction
  | cons digit digits => rfl

theorem scanWhole_append {digits : List Digit} (digits_ne : digits ≠ [])
    (leading_ne : ∀ next rest, digits ≠ 0 :: next :: rest) {rest : List Char}
    (ends : EndsDigits rest) :
    scanWhole (digits.map Digit.char ++ rest) = .ok (digits, rest) := by
  rw [scanWhole, requireDigits_append digits_ne ends]
  dsimp only
  split
  · exact absurd rfl (leading_ne _ _)
  · rfl

theorem char_ne_sign (digit : Digit) : digit.char ≠ '+' ∧ digit.char ≠ '-' := by
  revert digit
  decide

/-- The characters of an exponent, or of none, end the digits before them. -/
theorem endsDigits_exponent {letter : Char} (isLetter : letter = 'e' ∨ letter = 'E')
    (exponent : Option Exponent) {rest : List Char} (ends : EndsDigits rest) :
    EndsDigits (exponent.elim [] (fun exponent =>
      letter :: Numeral.signChars exponent.sign ++ exponent.digits.map Digit.char) ++ rest) := by
  cases exponent with
  | none => exact ends
  | some exponent =>
      refine endsDigits_cons ?_
      rcases isLetter with rfl | rfl
      · decide
      · decide

theorem scanExponent_append {letter : Char} (isLetter : letter = 'e' ∨ letter = 'E')
    {exponent : Option Exponent} (digits_ne : ∀ some ∈ exponent, some.digits ≠ [])
    {rest : List Char} (ends : EndsNumeral rest) :
    scanExponent (exponent.elim [] (fun exponent =>
        letter :: Numeral.signChars exponent.sign ++ exponent.digits.map Digit.char) ++ rest) =
      .ok (exponent, rest) := by
  cases exponent with
  | none =>
      cases rest with
      | nil => rfl
      | cons c rest =>
          obtain ⟨_, notLower, notUpper⟩ := ends.2 c rfl
          simp [scanExponent, notLower, notUpper]
  | some exponent =>
      obtain ⟨sign, digits⟩ := exponent
      have some_ne : digits ≠ [] := digits_ne _ rfl
      have required := requireDigits_append some_ne ends.1
      -- Without a sign the first digit stands where the sign is looked for.
      have signed : scanExponentSign (Numeral.signChars sign ++ digits.map Digit.char ++ rest) =
          (sign, digits.map Digit.char ++ rest) := by
        cases sign with
        | plus => rfl
        | minus => rfl
        | implicit =>
            cases digits with
            | nil => contradiction
            | cons digit digits =>
                obtain ⟨notPlus, notMinus⟩ := char_ne_sign digit
                simp only [Numeral.signChars, List.nil_append, List.map_cons, List.cons_append]
                unfold scanExponentSign
                split
                · rename_i chars_eq
                  exact absurd (List.cons.inj chars_eq).1 notPlus
                · rename_i chars_eq
                  exact absurd (List.cons.inj chars_eq).1 notMinus
                · rfl
      simp only [Option.elim_some, List.cons_append, scanExponent, isLetter, if_true, signed,
        required]
      rfl

theorem scanFraction_append {fraction : Option (List Digit)}
    (digits_ne : ∀ digits ∈ fraction, digits ≠ []) {rest : List Char} (ends : EndsDigits rest)
    (noPoint : ∀ c ∈ rest.head?, c ≠ '.') :
    scanFraction (fraction.elim [] (fun digits => '.' :: digits.map Digit.char) ++ rest) =
      .ok (fraction, rest) := by
  cases fraction with
  | none =>
      cases rest with
      | nil => rfl
      | cons c rest =>
          simp only [Option.elim_none, List.nil_append]
          unfold scanFraction
          split
          · rename_i chars_eq
            exact absurd (List.cons.inj chars_eq).1 (noPoint c rfl)
          · rfl
  | some digits =>
      have required := requireDigits_append (digits_ne digits rfl) ends
      simp only [Option.elim_some, List.cons_append, scanFraction, required]
      rfl

theorem scanSign_append (negative : Bool) {chars : List Char} (noSign : ∀ c ∈ chars.head?, c ≠ '-') :
    scanSign ((if negative then ['-'] else []) ++ chars) = (negative, chars) := by
  cases negative with
  | true => rfl
  | false =>
      simp only [Bool.false_eq_true, if_false, List.nil_append]
      unfold scanSign
      split
      · exact absurd rfl (noSign '-' rfl)
      · rfl

/-- A numeral is scanned as it is written, if the text does not go on with a
part of a numeral. -/
theorem scanNumeral_append {numeral : Numeral} (formed : numeral.WellFormed) {letter : Char}
    (isLetter : letter = 'e' ∨ letter = 'E') {rest : List Char} (ends : EndsNumeral rest) :
    scanNumeral (numeral.chars letter ++ rest) = .ok (numeral, rest) := by
  obtain ⟨negative, whole, fraction, exponent⟩ := numeral
  let afterFraction : List Char := exponent.elim [] (fun exponent =>
    letter :: Numeral.signChars exponent.sign ++ exponent.digits.map Digit.char) ++ rest
  let afterWhole : List Char :=
    fraction.elim [] (fun digits => '.' :: digits.map Digit.char) ++ afterFraction
  have text_eq : Numeral.chars letter ⟨negative, whole, fraction, exponent⟩ ++ rest =
      (if negative then ['-'] else []) ++ (whole.map Digit.char ++ afterWhole) := by
    simp only [Numeral.chars, afterWhole, afterFraction, List.append_assoc]
  have fractionEnds : EndsDigits afterFraction := endsDigits_exponent isLetter exponent ends.1
  have noPoint : ∀ c ∈ afterFraction.head?, c ≠ '.' := by
    cases exponent with
    | none => exact fun c mem => (ends.2 c mem).1
    | some exponent =>
        rintro _ ⟨⟩
        rcases isLetter with rfl | rfl
        · decide
        · decide
  have wholeEnds : EndsDigits afterWhole := by
    cases fraction with
    | none => exact fractionEnds
    | some digits => exact endsDigits_cons (by decide)
  have noSign : ∀ c ∈ (whole.map Digit.char ++ afterWhole).head?, c ≠ '-' := by
    cases whole with
    | nil => exact absurd rfl formed.whole_ne
    | cons digit digits =>
        rintro _ ⟨⟩
        exact (char_ne_sign digit).2
  rw [text_eq, scanNumeral, scanSign_append negative noSign]
  simp only [scanWhole_append formed.whole_ne formed.leading_ne wholeEnds, afterWhole,
    scanFraction_append formed.fraction_ne fractionEnds noPoint, afterFraction,
    scanExponent_append isLetter formed.exponent_ne ends]

/-! ## Strings -/

/-- How a unit of a string is written. -/
inductive UnitText : StringUnit → List Char → Prop
  | plain {c : Char} (noQuote : c ≠ '"') (noBackslash : c ≠ '\\') (noControl : 32 ≤ c.toNat) :
      UnitText (.plain c) [c]
  | escaped {letter meant : Char} (means : Quoted.escape? letter = some meant) :
      UnitText (.escaped meant) ['\\', letter]
  | code {first second third fourth : Char} {unit : Nat}
      (means : Quoted.codeUnit? first second third fourth = some unit) :
      UnitText (.code unit) ['\\', 'u', first, second, third, fourth]

/-- How the units of a string are written, one after the other. -/
inductive UnitsText : List StringUnit → List Char → Prop
  | nil : UnitsText [] []
  | cons {unit : StringUnit} {units : List StringUnit} {text rest : List Char}
      (first : UnitText unit text) (others : UnitsText units rest) :
      UnitsText (unit :: units) (text ++ rest)

namespace Quoted

/-- A unit is scanned as it is written. -/
theorem scan_unit {unit : StringUnit} {text : List Char} (written : UnitText unit text)
    (rest : List Char) : scan (text ++ rest) = addUnit unit (scan rest) := by
  have backslash_ne : '\\' ≠ '"' := by decide
  cases written with
  | plain noQuote noBackslash noControl =>
      rw [List.singleton_append, scan.eq_def]
      dsimp only
      rw [if_neg noQuote, if_neg noBackslash, if_neg (Nat.not_lt.2 noControl)]
  | escaped means =>
      rw [List.cons_append, List.singleton_append, scan.eq_def]
      dsimp only
      rw [if_neg backslash_ne, if_pos rfl, means]
  | code means =>
      rw [List.cons_append, List.cons_append, scan.eq_def]
      dsimp only
      rw [if_neg backslash_ne, if_pos rfl]
      have noEscape : escape? 'u' = none := rfl
      simp only [noEscape, if_true, List.cons_append, List.nil_append, means]

/-- A string is scanned as it is written, up to its closing quote. -/
theorem scan_units {units : List StringUnit} {text : List Char} (written : UnitsText units text)
    (rest : List Char) : scan (text ++ '"' :: rest) = (⟨units, .closed⟩, rest) := by
  induction written with
  | nil =>
      rw [List.nil_append, scan.eq_def]
      rfl
  | cons first _ ih => rw [List.append_assoc, scan_unit first, ih, addUnit]

end Quoted

/-! ## Tokens -/

/-- How a token is written. -/
inductive TokenText : Token → List Char → Prop
  | openArray : TokenText .openArray ['[']
  | closeArray : TokenText .closeArray [']']
  | openObject : TokenText .openObject ['\x7b']
  | closeObject : TokenText .closeObject ['\x7d']
  | comma : TokenText .comma [',']
  | colon : TokenText .colon [':']
  | null : TokenText .null ['n', 'u', 'l', 'l']
  | yes : TokenText (.boolean true) ['t', 'r', 'u', 'e']
  | no : TokenText (.boolean false) ['f', 'a', 'l', 's', 'e']
  | numeral {written : Numeral} {letter : Char} (formed : written.WellFormed)
      (isLetter : letter = 'e' ∨ letter = 'E') :
      TokenText (.numeral written) (written.chars letter)
  | string {units : List StringUnit} {text : List Char} (written : UnitsText units text) :
      TokenText (.string ⟨units, .closed⟩) ('"' :: (text ++ ['"']))

/-- Whether a token is a numeral. -/
def Token.isNumeral : Token → Bool
  | .numeral _ => true
  | _ => false

theorem startsNumeral_char (digit : Digit) : startsNumeral digit.char = true := by
  simp [startsNumeral]

/-- The first character of a numeral starts numerals, and no other token. -/
theorem scanToken_of_startsNumeral {c : Char} (starts : startsNumeral c = true)
    (rest : List Char) :
    isBlank c = false ∧ scanToken c rest =
      match scanNumeral (c :: rest) with
      | .ok (written, rest) => (.numeral written, rest)
      | .error defect => (.brokenNumeral defect, []) := by
  constructor
  · by_contra blank
    simp only [isBlank, Bool.not_eq_false, Bool.or_eq_true, beq_iff_eq] at blank
    rcases blank with ((rfl | rfl) | rfl) | rfl <;> revert starts <;> decide
  · unfold scanToken
    split
    case h_11 => exact if_pos starts
    all_goals exact absurd starts (by decide)

/-- The first character of a numeral starts numerals. -/
theorem chars_eq_cons {numeral : Numeral} (formed : numeral.WellFormed) (letter : Char) :
    ∃ c rest, numeral.chars letter = c :: rest ∧ startsNumeral c = true := by
  obtain ⟨negative, whole, fraction, exponent⟩ := numeral
  cases negative with
  | true => exact ⟨'-', _, rfl, rfl⟩
  | false =>
      cases whole with
      | nil => exact absurd rfl formed.whole_ne
      | cons digit digits => exact ⟨digit.char, _, rfl, startsNumeral_char digit⟩

/-- A token is scanned as it is written.  A numeral reaches as far as it can, so
nothing that belongs to a numeral may follow it. -/
theorem scan_token {token : Token} {text : List Char} (written : TokenText token text)
    {rest : List Char} (ends : token.isNumeral = true → EndsNumeral rest) :
    ∃ c others, text = c :: others ∧ isBlank c = false ∧
      scanToken c (others ++ rest) = (token, rest) := by
  cases written with
  | numeral formed isLetter =>
      rename_i numeral letter
      obtain ⟨c, others, chars_eq, starts⟩ := chars_eq_cons formed letter
      obtain ⟨noBlank, scan_eq⟩ := scanToken_of_startsNumeral starts (others ++ rest)
      refine ⟨c, others, chars_eq, noBlank, ?_⟩
      rw [scan_eq, ← List.cons_append, ← chars_eq, scanNumeral_append formed isLetter (ends rfl)]
  | string written =>
      refine ⟨'"', _, rfl, rfl, ?_⟩
      rw [List.append_assoc, List.singleton_append, scanToken, Quoted.scan_units written]
  | null => exact ⟨_, _, rfl, rfl, rfl⟩
  | yes => exact ⟨_, _, rfl, rfl, rfl⟩
  | no => exact ⟨_, _, rfl, rfl, rfl⟩
  | openArray => exact ⟨_, _, rfl, rfl, rfl⟩
  | closeArray => exact ⟨_, _, rfl, rfl, rfl⟩
  | openObject => exact ⟨_, _, rfl, rfl, rfl⟩
  | closeObject => exact ⟨_, _, rfl, rfl, rfl⟩
  | comma => exact ⟨_, _, rfl, rfl, rfl⟩
  | colon => exact ⟨_, _, rfl, rfl, rfl⟩

/-- A text of a token sequence: each token as it is written, with blanks before,
between and behind them. -/
inductive Spaced : List Token → List Char → Prop
  | ends {blanks : List Char} (blank : ∀ c ∈ blanks, isBlank c = true) : Spaced [] blanks
  | next {blanks text rest : List Char} {token : Token} {tokens : List Token}
      (blank : ∀ c ∈ blanks, isBlank c = true) (written : TokenText token text)
      (others : Spaced tokens rest) : Spaced (token :: tokens) (blanks ++ (text ++ rest))

/-- A token sequence in which no numeral follows another. -/
def Separated : List Token → Prop
  | first :: second :: rest =>
      (first.isNumeral = true → second.isNumeral = false) ∧ Separated (second :: rest)
  | _ => True

theorem endsNumeral_nil : EndsNumeral [] := by
  simp [EndsNumeral, EndsDigits]

theorem endsNumeral_cons {c : Char} (rest : List Char)
    (isOther : Digit.ofChar? c = none ∧ c ≠ '.' ∧ c ≠ 'e' ∧ c ≠ 'E') : EndsNumeral (c :: rest) := by
  refine ⟨endsDigits_cons isOther.1, ?_⟩
  rintro _ ⟨⟩
  exact isOther.2

theorem endsNumeral_blank {c : Char} (blank : isBlank c = true) (rest : List Char) :
    EndsNumeral (c :: rest) := by
  simp only [isBlank, Bool.or_eq_true, beq_iff_eq] at blank
  rcases blank with ((rfl | rfl) | rfl) | rfl <;> exact endsNumeral_cons rest (by decide)

/-- A token that is no numeral ends a numeral before it. -/
theorem endsNumeral_token {token : Token} {text : List Char} (written : TokenText token text)
    (noNumeral : token.isNumeral = false) (rest : List Char) : EndsNumeral (text ++ rest) := by
  cases written with
  | numeral formed isLetter => contradiction
  | _ => exact endsNumeral_cons _ (by decide)

/-- A text that starts with no numeral ends a numeral before it. -/
theorem Spaced.endsNumeral {tokens : List Token} {text : List Char} (spaced : Spaced tokens text)
    (noNumeral : ∀ token ∈ tokens.head?, token.isNumeral = false) : EndsNumeral text := by
  cases spaced with
  | ends blank =>
      cases text with
      | nil => exact endsNumeral_nil
      | cons c rest => exact endsNumeral_blank (blank c List.mem_cons_self) rest
  | next blank written others =>
      rename_i blanks text rest token tokens
      cases blanks with
      | nil => exact endsNumeral_token written (noNumeral token rfl) rest
      | cons c blanks => exact endsNumeral_blank (blank c List.mem_cons_self) _

theorem tokens_blanks {blanks : List Char} (blank : ∀ c ∈ blanks, isBlank c = true)
    (rest : List Char) : tokens (blanks ++ rest) = tokens rest := by
  induction blanks with
  | nil => rfl
  | cons c blanks ih =>
      rw [List.cons_append, tokens, if_pos (blank c List.mem_cons_self),
        ih fun other mem => blank other (List.mem_cons_of_mem _ mem)]

/-- A text is cut into the tokens that it was put together from. -/
theorem tokens_of_spaced {sequence : List Token} {text : List Char}
    (spaced : Spaced sequence text) (separated : Separated sequence) : tokens text = sequence := by
  induction spaced with
  | ends blank =>
      rename_i blanks
      have none_left := tokens_blanks blank []
      rw [List.append_nil] at none_left
      rw [none_left, tokens]
  | next blank written others ih =>
      rename_i blanks text rest token sequence
      have rest_separated : Separated sequence := by
        cases sequence with
        | nil => trivial
        | cons second sequence => exact separated.2
      have ends : token.isNumeral = true → EndsNumeral rest := by
        intro isNumeral
        refine others.endsNumeral fun next mem => ?_
        cases sequence with
        | nil => cases mem
        | cons second sequence =>
            cases mem
            exact separated.1 isNumeral
      obtain ⟨c, others, text_eq, noBlank, scan_eq⟩ := scan_token written ends
      rw [tokens_blanks blank, text_eq, List.cons_append, tokens, if_neg (by simp [noBlank]),
        scan_eq, ih rest_separated]

end Json

end RtiAssembly
