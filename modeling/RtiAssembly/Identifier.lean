/-!
# Identifiers

Names that enter the generated code must be identifiers of its language.
-/

namespace RtiAssembly

/-- Whether a character may start an identifier: an ASCII letter or an
underscore. -/
def startsIdentifier (c : Char) : Bool :=
  c.isAlpha || c == '_'

/-- Whether a character may go on an identifier. -/
def continuesIdentifier (c : Char) : Bool :=
  c.isAlphanum || c == '_'

/-- Whether a name is an identifier. -/
def isIdentifier (name : String) : Bool :=
  match name.toList with
  | [] => false
  | first :: rest => startsIdentifier first && rest.all continuesIdentifier

end RtiAssembly
