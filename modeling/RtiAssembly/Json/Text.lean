import RtiAssembly.Json.Tree

/-!
# Writing JSON

The compact text of a tree: no blanks, members in their order, strings with the
escapes they carry.
-/

namespace RtiAssembly.Json

namespace Quoted

/-- The hexadecimal digit of a number below sixteen, in lower case. -/
def hexDigit (value : Nat) : Char :=
  if value < 10 then Char.ofNat (48 + value) else Char.ofNat (87 + value)

/-- How a character is written between quotes: quotes, backslashes and the
named controls by a two-character escape, other controls by their code unit,
everything else as it is. -/
def unitOf (c : Char) : StringUnit :=
  if c = '"' ∨ c = '\\' ∨ c = '\x08' ∨ c = '\x0c' ∨ c = '\n' ∨ c = '\r' ∨ c = '\t' then
    .escaped c
  else if c.toNat < 32 then
    .code c.toNat
  else
    .plain c

/-- The written form of a text. -/
def ofText (text : String) : Quoted :=
  ⟨text.toList.map unitOf, .closed⟩

/-- The letter of a two-character escape. -/
def escapeLetter : Char → Char
  | '\x08' => 'b'
  | '\x0c' => 'f'
  | '\n' => 'n'
  | '\r' => 'r'
  | '\t' => 't'
  | c => c

/-- The characters of one unit. -/
def unitText : StringUnit → List Char
  | .plain c => [c]
  | .escaped c => ['\\', escapeLetter c]
  | .code unit =>
      '\\' :: 'u' :: [hexDigit (unit / 4096 % 16), hexDigit (unit / 256 % 16),
        hexDigit (unit / 16 % 16), hexDigit (unit % 16)]

/-- The source text of a string, with its quotes. -/
def source (quoted : Quoted) : String :=
  String.ofList ('"' :: quoted.units.flatMap unitText ++ ['"'])

end Quoted

/-- What separates an item or member from the one before it. -/
def separator (isFirst : Bool) : String :=
  if isFirst then "" else ","

mutual

/-- The pieces of the compact text of a tree, in order. -/
def pieces : Json → List String
  | .null => ["null"]
  | .boolean true => ["true"]
  | .boolean false => ["false"]
  | .numeral written => [written.text]
  | .string quoted => [quoted.source]
  | .array items => "[" :: (piecesOfItems true items ++ ["]"])
  | .object members => "\x7b" :: (piecesOfMembers true members ++ ["\x7d"])
  | .absent _ => []
  | .brokenNumeral _ => []
  | .brokenWord _ => []

/-- The pieces of items, separated by commas. -/
def piecesOfItems (isFirst : Bool) : Items → List String
  | .closed => []
  | .broken _ => []
  | .cons head tail => separator isFirst :: (pieces head ++ piecesOfItems false tail)

/-- The pieces of members, separated by commas. -/
def piecesOfMembers (isFirst : Bool) : Members → List String
  | .closed => []
  | .broken _ => []
  | .dangling _ => []
  | .cons key value tail =>
      separator isFirst :: key.source :: ":" :: (pieces value ++ piecesOfMembers false tail)

end

/-- The compact text of a tree. -/
def compact (value : Json) : String :=
  String.join (pieces value)

/-! ## Building trees -/

/-- The array of a list. -/
def ofList (items : List Json) : Json :=
  .array (items.foldr Items.cons .closed)

/-- The object of a list of named values. -/
def ofFields (fields : List (String × Json)) : Json :=
  .object (fields.foldr (fun (name, value) => Members.cons (Quoted.ofText name) value) .closed)

/-- The value of a text. -/
def ofString (text : String) : Json :=
  .string (Quoted.ofText text)

/-- The value of a natural number. -/
def ofNat (n : Nat) : Json :=
  .numeral (Numeral.ofNat n)

/-- Absent values are written as `null`. -/
def ofOption (value : Option Json) : Json :=
  value.getD .null

end RtiAssembly.Json
