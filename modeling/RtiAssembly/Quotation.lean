import RtiAssembly.Text.Printable

/-!
# Quoted names

Names inside messages and listings appear between quotes, with an escape for
quotes, backslashes and characters that are not printable, so that every name
stays on its line and shows what it consists of.
-/

namespace RtiAssembly.Quotation

/-- The hexadecimal digits of a number, in lower case and without leading
zeros. -/
def hexDigits (value : Nat) : List Char :=
  Nat.toDigits 16 value

/-- The characters that stand for `c` between quotes.  Characters that are not
printable show their code point, unless they have a short escape. -/
def escape (c : Char) : List Char :=
  match c with
  | '"' => ['\\', '"']
  | '\\' => ['\\', '\\']
  | '\n' => ['\\', 'n']
  | '\r' => ['\\', 'r']
  | '\t' => ['\\', 't']
  | '\x00' => ['\\', '0']
  | _ =>
      if Printable.isPrintable c then
        [c]
      else
        '\\' :: 'u' :: '\x7b' :: hexDigits c.toNat ++ ['\x7d']

/-- A name between quotes. -/
def quote (name : String) : String :=
  String.ofList ('"' :: name.toList.flatMap escape ++ ['"'])

end RtiAssembly.Quotation
