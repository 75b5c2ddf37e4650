import RtiAssembly.Number.Scalar
import RtiAssembly.Routine.Window

/-!
# Scalar terms

Generated code computes one element at a time.  A term is the right-hand side
of one such computation.  Terms are built by functions that fold known numbers:
zero products disappear, and factors one and minus one are not written.

Parentheses are written exactly where a sum or a negative number is a factor,
is subtracted or is negated.
-/

namespace RtiAssembly

/-- An element of an array as generated code addresses it. -/
structure Place where
  base : Base
  index : AffineIndex
  deriving DecidableEq, Repr

/-- How generated code calls an array. -/
structure Symbol where
  name : String
  /-- Whether the array is a single variable, which takes no index. -/
  isSingle : Bool
  deriving DecidableEq, Repr

/-- How generated code calls the arrays that a routine sees. -/
abbrev Symbols := Base → Symbol

/-- The text of an element. -/
def Place.text (symbols : Symbols) (place : Place) : String :=
  let symbol := symbols place.base
  if symbol.isSingle then symbol.name else symbol.name ++ "[" ++ place.index.display ++ "]"

/-- The text of the address of an element. -/
def Place.address (symbols : Symbols) (place : Place) : String :=
  let symbol := symbols place.base
  if symbol.isSingle then
    "&" ++ symbol.name
  else if place.index.isConst && place.index.constant == 0 then
    symbol.name
  else
    "&" ++ symbol.name ++ "[" ++ place.index.display ++ "]"

/-- A scalar right-hand side. -/
inductive Term (α : Type)
  | number (value : α)
  | element (place : Place)
  | magnitude (inner : Term α)
  | negation (inner : Term α)
  | sum (left right : Term α)
  | difference (left right : Term α)
  | product (left right : Term α)

namespace Term

variable {α : Type}

/-- The number that a term is, if it is one. -/
def number? : Term α → Option α
  | .number value => some value
  | _ => none

/-- Whether a term has an additive operator on top. -/
def isSum : Term α → Bool
  | .negation _ => true
  | .sum _ _ => true
  | .difference _ _ => true
  | _ => false

variable [Scalar α]

/-- The value of a term, given the values of elements. -/
def value (read : Place → α) : Term α → α
  | .number value => value
  | .element place => read place
  | .magnitude inner => Scalar.abs (inner.value read)
  | .negation inner => -inner.value read
  | .sum left right => left.value read + right.value read
  | .difference left right => left.value read - right.value read
  | .product left right => left.value read * right.value read

/-! ## Folding -/

/-- Whether a term is a number equal to zero. -/
def isZero (term : Term α) : Bool :=
  term.number?.any Scalar.isZero

/-- Whether a term is a given number. -/
def isNumber (term : Term α) (value : α) : Bool :=
  term.number?.any fun number => Scalar.same number value

/-- Whether a term is a negative number. -/
def isNegative (term : Term α) : Bool :=
  term.number?.any fun number => Scalar.less number 0

/-- The folded sum; a negative number is subtracted. -/
def add (left right : Term α) : Term α :=
  match left.number?, right.number? with
  | some first, some second => .number (first + second)
  | _, other =>
      if left.isZero then
        right
      else if right.isZero then
        left
      else
        match other with
        | some second =>
            if Scalar.less second 0 then
              .difference left (.number (-second))
            else
              .sum left right
        | none => .sum left right

/-- The folded negation. -/
def neg (inner : Term α) : Term α :=
  match inner.number? with
  | some value => .number (-value)
  | none => .negation inner

/-- The folded difference; a negative number is added. -/
def sub (left right : Term α) : Term α :=
  match left.number?, right.number? with
  | some first, some second => .number (first - second)
  | _, other =>
      if right.isZero then
        left
      else if left.isZero then
        right.neg
      else
        match other with
        | some second =>
            if Scalar.less second 0 then
              left.add (.number (-second))
            else
              .difference left right
        | none => .difference left right

/-- The folded product. -/
def mul (left right : Term α) : Term α :=
  if left.isZero || right.isZero then
    .number 0
  else
    match left.number?, right.number? with
    | some first, some second => .number (first * second)
    | _, _ =>
        if left.isNumber 1 then
          right
        else if right.isNumber 1 then
          left
        else if left.isNumber (-1) then
          right.neg
        else if right.isNumber (-1) then
          left.neg
        else
          .product left right

/-- The folded absolute value. -/
def abs (inner : Term α) : Term α :=
  match inner.number? with
  | some value => .number (Scalar.abs value)
  | none => .magnitude inner

end Term

/-! ## Written terms -/

/-- A token of a written term. -/
inductive TermToken (α : Type)
  | number (value : α)
  | element (place : Place)
  | magnitude
  | opening
  | closing
  | plus
  | minus
  /-- A minus sign in front of its only operand. -/
  | negation
  | times

/-- The text of a token. -/
def TermToken.text {α : Type} [Scalar α] (symbols : Symbols) : TermToken α → String
  | .number value => Scalar.text .literal value
  | .element place => place.text symbols
  | .magnitude => "fabs"
  | .opening => "("
  | .closing => ")"
  | .plus => " + "
  | .minus => " - "
  | .negation => "-"
  | .times => " * "

namespace Term

variable {α : Type} [Scalar α]

/-- Whether a term takes parentheses as an operand that binds tightly. -/
def needsParentheses (term : Term α) : Bool :=
  term.isNegative || term.isSum

/-- Tokens between parentheses, if they are needed. -/
def enclose (needed : Bool) (tokens : List (TermToken α)) : List (TermToken α) :=
  if needed then .opening :: tokens ++ [.closing] else tokens

/-- The tokens of a written term. -/
def tokens : Term α → List (TermToken α)
  | .number value => [.number value]
  | .element place => [.element place]
  | .magnitude inner => .magnitude :: .opening :: inner.tokens ++ [.closing]
  | .negation inner => .negation :: enclose inner.needsParentheses inner.tokens
  | .sum left right => left.tokens ++ .plus :: right.tokens
  | .difference left right =>
      left.tokens ++ .minus :: enclose right.needsParentheses right.tokens
  | .product left right =>
      enclose left.needsParentheses left.tokens ++
        .times :: enclose right.needsParentheses right.tokens

/-- The text of a term. -/
def text (symbols : Symbols) (term : Term α) : String :=
  String.join (term.tokens.map (TermToken.text symbols))

end Term

end RtiAssembly
