import RtiAssembly.Proofs.Emission.Terms

/-!
# How C reads a written term

A reader of generated code sees no terms.  It sees lexemes, and the grammar of
C says how these group: a minus sign in front of an operand binds more tightly
than `*`, `*` more tightly than `+` and `-`, and operators of one kind group to
the left.  Nothing else is taken from the writer, so that a missing parenthesis
would change what is read.

The grammar reads a sequence of lexemes in at most one way.  The reason is a
reader that goes over the lexemes once, from left to right, and keeps aside the
operators that still wait for an operand.
-/

namespace RtiAssembly

/-! ## Lexemes -/

/-- A lexeme of a written expression.  A numeral has no sign of its own, and
there is one minus sign, whether it has one operand or two. -/
inductive Lexeme (α : Type)
  | numeral (value : α)
  | access (place : Place)
  | magnitude
  | opening
  | closing
  | plus
  | minus
  | times

/-- Whether a lexeme is a minus sign. -/
def Lexeme.isMinus {α : Type} : Lexeme α → Bool
  | .minus => true
  | _ => false

section Written

variable {α : Type} [Scalar α]

/-- The lexemes of a token; the sign of a negative number is one of its own. -/
def TermToken.lexemes : TermToken α → List (Lexeme α)
  | .number value =>
      if Scalar.less value 0 then [.minus, .numeral (-value)] else [.numeral value]
  | .element place => [.access place]
  | .magnitude => [.magnitude]
  | .opening => [.opening]
  | .closing => [.closing]
  | .plus => [.plus]
  | .minus => [.minus]
  | .negation => [.minus]
  | .times => [.times]

/-- The lexemes of a written term. -/
def Term.lexemes (term : Term α) : List (Lexeme α) :=
  term.tokens.flatMap TermToken.lexemes

/-- The text of a lexeme. -/
def Lexeme.text (symbols : Symbols) : Lexeme α → String
  | .numeral value => Scalar.text .literal value
  | .access place => place.text symbols
  | .magnitude => "fabs"
  | .opening => "("
  | .closing => ")"
  | .plus => "+"
  | .minus => "-"
  | .times => "*"

/-- A text consists of lexemes one after the other, with blanks between some of
them. -/
inductive Spells (symbols : Symbols) : List (Lexeme α) → String → Prop
  | done : Spells symbols [] ""
  | blank {lexemes : List (Lexeme α)} {text : String} (rest : Spells symbols lexemes text) :
      Spells symbols lexemes (" " ++ text)
  | lexeme (first : Lexeme α) {lexemes : List (Lexeme α)} {text : String}
      (rest : Spells symbols lexemes text) :
      Spells symbols (first :: lexemes) (first.text symbols ++ text)

/-- A negative literal is a minus sign and the literal of a number that is not
negative. -/
class SignedLiterals (α : Type) [Scalar α] : Prop where
  text_of_negative : ∀ value : α, Scalar.less value 0 = true →
    Scalar.text .literal value = "-" ++ Scalar.text .literal (-value)
  less_neg : ∀ value : α, Scalar.less value 0 = true → Scalar.less (-value) 0 = false

variable {symbols : Symbols}

/-- Operators between two operands stand between blanks. -/
theorem Spells.operator (operator : Lexeme α) {lexemes : List (Lexeme α)} {text : String}
    (rest : Spells symbols lexemes text) :
    Spells symbols (operator :: lexemes) (" " ++ operator.text symbols ++ " " ++ text) := by
  rw [String.append_assoc, String.append_assoc]
  exact .blank (.lexeme operator (.blank rest))

theorem TermToken.spells [SignedLiterals α] (token : TermToken α) {lexemes : List (Lexeme α)}
    {text : String} (rest : Spells symbols lexemes text) :
    Spells symbols (token.lexemes ++ lexemes) (token.text symbols ++ text) := by
  cases token with
  | number value =>
      rw [TermToken.text, TermToken.lexemes]
      split
      · rename_i negative
        rw [SignedLiterals.text_of_negative value negative, String.append_assoc]
        exact .lexeme .minus (.lexeme (.numeral (-value)) rest)
      · exact .lexeme (.numeral value) rest
  | element place => exact .lexeme (.access place) rest
  | magnitude => exact .lexeme .magnitude rest
  | opening => exact .lexeme .opening rest
  | closing => exact .lexeme .closing rest
  | plus => exact .operator .plus rest
  | minus => exact .operator .minus rest
  | negation => exact .lexeme .minus rest
  | times => exact .operator .times rest

/-- The text of a term consists of its lexemes. -/
theorem Term.spells [SignedLiterals α] (term : Term α) :
    Spells symbols term.lexemes (term.text symbols) := by
  unfold Term.lexemes Term.text
  induction term.tokens with
  | nil => exact .done
  | cons token rest ih =>
      rw [List.flatMap_cons, List.map_cons, String.join_cons]
      exact token.spells ih

/-- No numeral in a written term has a sign. -/
theorem Term.less_of_numeral_mem [SignedLiterals α] {term : Term α} {value : α}
    (mem : .numeral value ∈ term.lexemes) : Scalar.less value 0 = false := by
  obtain ⟨token, _, mem⟩ := List.mem_flatMap.1 mem
  cases token with
  | number other =>
      rw [TermToken.lexemes] at mem
      split at mem
      · rename_i negative
        have value_eq : value = -other := by simpa using mem
        rw [value_eq]
        exact SignedLiterals.less_neg other negative
      · rename_i unsigned
        have value_eq : value = other := by simpa using mem
        rw [value_eq]
        exact Bool.eq_false_of_not_eq_true unsigned
  | _ => simp [TermToken.lexemes] at mem

end Written

/-! ### Literals of rational numbers -/

theorem Numeral.text_negative (whole : List Digit) (fraction : Option (List Digit))
    (exponent : Option Exponent) :
    (Numeral.mk true whole fraction exponent).text =
      "-" ++ (Numeral.mk false whole fraction exponent).text := by
  simp only [Numeral.text, if_true, Bool.false_eq_true, if_false, String.append_assoc,
    String.empty_append]

/-- A negative decimal is spelled like a positive one, with a minus sign. -/
theorem Spelling.text_numeral_negative (spelling : Spelling) (decimal : Decimal) :
    (spelling.numeral true decimal).text = "-" ++ (spelling.numeral false decimal).text := by
  unfold Spelling.numeral
  split
  · exact Numeral.text_negative _ _ _
  · dsimp only
    split
    · unfold Spelling.positional
      split_ifs <;> exact Numeral.text_negative _ _ _
    · exact Numeral.text_negative _ _ _

instance : SignedLiterals ℚ where
  text_of_negative value negative := by
    have below : value < 0 := of_decide_eq_true negative
    have above : ¬-value < 0 := by linarith
    simp only [Scalar.text, Scalar.spell, Spelled.text, decide_eq_true below,
      decide_eq_false above, Rat.num_neg_eq_neg_num, Rat.den_neg_eq_den, Int.natAbs_neg,
      Spelling.text_numeral_negative]
  less_neg value negative := by
    have below : value < 0 := of_decide_eq_true negative
    exact decide_eq_false (by linarith)

/-! ## Grammar -/

/-- What an expression may have on top, the most tightly bound first. -/
inductive Precedence
  | primary
  | unary
  | multiplicative
  | additive

variable {α : Type}

/-- The grammar of C: lexemes that are read as an expression of a precedence,
and the term that is read. -/
inductive Reads : Precedence → List (Lexeme α) → Term α → Prop
  | numeral (value : α) : Reads .primary [.numeral value] (.number value)
  | access (place : Place) : Reads .primary [.access place] (.element place)
  | parenthesized {lexemes : List (Lexeme α)} {term : Term α}
      (inside : Reads .additive lexemes term) :
      Reads .primary (.opening :: (lexemes ++ [.closing])) term
  | magnitude {lexemes : List (Lexeme α)} {term : Term α}
      (argument : Reads .additive lexemes term) :
      Reads .primary (.magnitude :: .opening :: (lexemes ++ [.closing])) (.magnitude term)
  | ofPrimary {lexemes : List (Lexeme α)} {term : Term α} (tight : Reads .primary lexemes term) :
      Reads .unary lexemes term
  | negation {lexemes : List (Lexeme α)} {term : Term α} (operand : Reads .unary lexemes term) :
      Reads .unary (.minus :: lexemes) (.negation term)
  | ofUnary {lexemes : List (Lexeme α)} {term : Term α} (tight : Reads .unary lexemes term) :
      Reads .multiplicative lexemes term
  | product {lexemes rest : List (Lexeme α)} {left right : Term α}
      (first : Reads .multiplicative lexemes left) (second : Reads .unary rest right) :
      Reads .multiplicative (lexemes ++ .times :: rest) (.product left right)
  | ofMultiplicative {lexemes : List (Lexeme α)} {term : Term α}
      (tight : Reads .multiplicative lexemes term) : Reads .additive lexemes term
  | sum {lexemes rest : List (Lexeme α)} {left right : Term α}
      (first : Reads .additive lexemes left) (second : Reads .multiplicative rest right) :
      Reads .additive (lexemes ++ .plus :: rest) (.sum left right)
  | difference {lexemes rest : List (Lexeme α)} {left right : Term α}
      (first : Reads .additive lexemes left) (second : Reads .multiplicative rest right) :
      Reads .additive (lexemes ++ .minus :: rest) (.difference left right)

/-! ## Reading from left to right -/

/-- What waits for an operand. -/
structure Pending (α : Type) where
  /-- The sum in front of the product that the operand belongs to. -/
  sum : Term α → Term α
  /-- The factors in front of the operand. -/
  product : Term α → Term α
  /-- The signs and functions in front of the operand. -/
  sign : Term α → Term α

/-- An operand behind nothing that waits for it. -/
def Pending.nothing : Pending α :=
  ⟨id, id, id⟩

/-- Where a reader of lexemes stands.  What waits for a closing parenthesis is
kept aside, the innermost first. -/
inductive Reader (α : Type)
  /-- An operand is next. -/
  | operand (pending : Pending α) (outer : List (Pending α))
  /-- The parentheses around an argument are next. -/
  | argument (pending : Pending α) (outer : List (Pending α))
  /-- A product has been read, and an operator is next. -/
  | operator (sum : Term α → Term α) (product : Term α) (outer : List (Pending α))

namespace Reader

/-- A reader that has read an operand. -/
def after (pending : Pending α) (outer : List (Pending α)) (operand : Term α) : Reader α :=
  .operator pending.sum (pending.product (pending.sign operand)) outer

/-- Read one lexeme. -/
def step? : Reader α → Lexeme α → Option (Reader α)
  | .operand pending outer, .numeral value => some (after pending outer (.number value))
  | .operand pending outer, .access place => some (after pending outer (.element place))
  | .operand pending outer, .minus =>
      some (.operand { pending with sign := pending.sign ∘ .negation } outer)
  | .operand pending outer, .magnitude =>
      some (.argument { pending with sign := pending.sign ∘ .magnitude } outer)
  | .operand pending outer, .opening => some (.operand .nothing (pending :: outer))
  | .argument pending outer, .opening => some (.operand .nothing (pending :: outer))
  | .operator sum product outer, .closing =>
      match outer with
      | [] => none
      | pending :: outer => some (after pending outer (sum product))
  | .operator sum product outer, .plus =>
      some (.operand { Pending.nothing with sum := .sum (sum product) } outer)
  | .operator sum product outer, .minus =>
      some (.operand { Pending.nothing with sum := .difference (sum product) } outer)
  | .operator sum product outer, .times =>
      some (.operand { Pending.nothing with sum := sum, product := .product product } outer)
  | _, _ => none

/-- Read lexemes one after the other. -/
def run? (reader : Reader α) (lexemes : List (Lexeme α)) : Option (Reader α) :=
  lexemes.foldlM step? reader

/-- The term that has been read, if nothing is open. -/
def finished? : Reader α → Option (Term α)
  | .operator sum product [] => some (sum product)
  | _ => none

theorem run?_cons {reader next : Reader α} {lexeme : Lexeme α}
    (steps : reader.step? lexeme = some next) (rest : List (Lexeme α)) :
    reader.run? (lexeme :: rest) = next.run? rest := by
  rw [run?, List.foldlM_cons, steps]
  rfl

theorem run?_append {reader next : Reader α} {lexemes : List (Lexeme α)}
    (reads : reader.run? lexemes = some next) (rest : List (Lexeme α)) :
    reader.run? (lexemes ++ rest) = next.run? rest := by
  rw [run?, List.foldlM_append, ← run?, reads]
  rfl

/-- What a reader does with lexemes that are read as a term: it completes the
operand, the product or the sum that it has begun. -/
def Follows (lexemes : List (Lexeme α)) (term : Term α) : Precedence → Prop
  | .primary => ∀ pending outer,
      (operand pending outer).run? lexemes = some (after pending outer term)
  | .unary => ∀ pending outer,
      (operand pending outer).run? lexemes = some (after pending outer term)
  | .multiplicative => ∀ sum outer,
      (operand { Pending.nothing with sum := sum } outer).run? lexemes =
        some (operator sum term outer)
  | .additive => ∀ outer, ∃ sum product, sum product = term ∧
      (operand .nothing outer).run? lexemes = some (operator sum product outer)

/-- Parentheses are one operand. -/
theorem follows_parenthesized {lexemes : List (Lexeme α)} {term : Term α}
    (inside : Follows lexemes term .additive) (pending : Pending α) (outer : List (Pending α)) :
    (operand .nothing (pending :: outer)).run? (lexemes ++ [.closing]) =
      some (after pending outer term) := by
  obtain ⟨sum, product, rfl, reads⟩ := inside (pending :: outer)
  rw [run?_append reads]
  rfl

/-- The reader follows the grammar. -/
theorem follows_of_reads {precedence : Precedence} {lexemes : List (Lexeme α)} {term : Term α}
    (reads : Reads precedence lexemes term) : Follows lexemes term precedence := by
  induction reads with
  | numeral value => exact fun _ _ => rfl
  | access place => exact fun _ _ => rfl
  | parenthesized _ inside => exact follows_parenthesized inside
  | magnitude _ argument => exact fun pending outer => follows_parenthesized argument _ outer
  | ofPrimary _ tight => exact tight
  | negation _ operand => exact fun pending outer => operand _ outer
  | ofUnary _ tight => exact fun sum outer => tight _ outer
  | product _ _ first second =>
      intro sum outer
      rw [run?_append (first sum outer)]
      exact (run?_cons rfl _).trans (second _ outer)
  | ofMultiplicative _ tight => exact fun outer => ⟨id, _, rfl, tight id outer⟩
  | sum _ _ first second =>
      intro outer
      obtain ⟨sum, product, rfl, reads⟩ := first outer
      refine ⟨.sum (sum product), _, rfl, ?_⟩
      rw [run?_append reads]
      exact (run?_cons rfl _).trans (second _ outer)
  | difference _ _ first second =>
      intro outer
      obtain ⟨sum, product, rfl, reads⟩ := first outer
      refine ⟨.difference (sum product), _, rfl, ?_⟩
      rw [run?_append reads]
      exact (run?_cons rfl _).trans (second _ outer)

end Reader

/-- The expression that lexemes are read as, if there is one. -/
def readLexemes? (lexemes : List (Lexeme α)) : Option (Term α) :=
  (Reader.operand .nothing []).run? lexemes >>= Reader.finished?

theorem readLexemes?_of_reads {lexemes : List (Lexeme α)} {term : Term α}
    (reads : Reads .additive lexemes term) : readLexemes? lexemes = some term := by
  obtain ⟨sum, product, rfl, follows⟩ := Reader.follows_of_reads reads []
  rw [readLexemes?, follows]
  rfl

/-- Lexemes are read as at most one term. -/
theorem Reads.unique {lexemes : List (Lexeme α)} {first second : Term α}
    (reads : Reads .additive lexemes first) (other : Reads .additive lexemes second) :
    first = second := by
  have same := (readLexemes?_of_reads reads).symm.trans (readLexemes?_of_reads other)
  exact Option.some.inj same

end RtiAssembly
