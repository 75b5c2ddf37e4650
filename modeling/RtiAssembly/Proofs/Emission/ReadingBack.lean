import RtiAssembly.Proofs.Emission.Grammar

/-!
# Reading terms back

What C reads in a written term is not always the term: the terms of a sum behind
a plus sign are added one by one, and a minus sign in front of a product belongs
to its first factor.  In exact arithmetic that has the same value, and a written
term never has two minus signs in a row, which C would take for another
operator.
-/

namespace RtiAssembly

/-! ## Lexemes of terms -/

namespace Term

variable {α : Type} [Scalar α]

/-- The lexemes of a term that is an operand of `*`, or stands behind a minus
sign. -/
def factor (term : Term α) : List (Lexeme α) :=
  (enclose term.needsParentheses term.tokens).flatMap TermToken.lexemes

theorem factor_of_loose {term : Term α} (loose : term.needsParentheses = true) :
    term.factor = .opening :: (term.lexemes ++ [.closing]) := by
  simp [factor, enclose, loose, lexemes, TermToken.lexemes]

theorem factor_of_tight {term : Term α} (tight : term.needsParentheses = false) :
    term.factor = term.lexemes := by
  simp [factor, enclose, tight, lexemes]

theorem lexemes_number (value : α) :
    (Term.number value).lexemes =
      if Scalar.less value 0 then [.minus, .numeral (-value)] else [.numeral value] :=
  List.append_nil _

theorem lexemes_element (place : Place) :
    (Term.element place : Term α).lexemes = [.access place] := rfl

theorem lexemes_magnitude (inner : Term α) :
    (Term.magnitude inner).lexemes =
      .magnitude :: .opening :: (inner.lexemes ++ [.closing]) := by
  simp [lexemes, tokens, TermToken.lexemes]

theorem lexemes_negation (inner : Term α) :
    (Term.negation inner).lexemes = .minus :: inner.factor := rfl

theorem lexemes_sum (left right : Term α) :
    (Term.sum left right).lexemes = left.lexemes ++ .plus :: right.lexemes := by
  simp [lexemes, tokens, TermToken.lexemes]

theorem lexemes_difference (left right : Term α) :
    (Term.difference left right).lexemes = left.lexemes ++ .minus :: right.factor := by
  simp [lexemes, tokens, TermToken.lexemes, factor]

theorem lexemes_product (left right : Term α) :
    (Term.product left right).lexemes = left.factor ++ .times :: right.factor := by
  simp [lexemes, tokens, TermToken.lexemes, factor]

end Term

/-! ## Terms with the same value -/

section Meaning

variable {α : Type} [Scalar α] {term left right other a b c : Term α}

/-- Terms that have the same value, whatever their elements hold. -/
def Term.Equivalent (first second : Term α) : Prop :=
  ∀ read : Place → Option α, first.value? read = second.value? read

namespace Term.Equivalent

theorem refl (term : Term α) : term.Equivalent term :=
  fun _ => rfl

theorem trans (first : a.Equivalent b) (second : b.Equivalent c) : a.Equivalent c :=
  fun read => (first read).trans (second read)

theorem magnitude (same : a.Equivalent b) : (Term.magnitude a).Equivalent (.magnitude b) :=
  fun read => congrArg (Option.map Scalar.abs) (same read)

theorem negation (same : a.Equivalent b) : (Term.negation a).Equivalent (.negation b) :=
  fun read => congrArg (Option.map fun value => -value) (same read)

theorem sum (first : a.Equivalent left) (second : b.Equivalent right) :
    (Term.sum a b).Equivalent (.sum left right) := by
  intro read
  simp only [value?, first read, second read]

theorem difference (first : a.Equivalent left) (second : b.Equivalent right) :
    (Term.difference a b).Equivalent (.difference left right) := by
  intro read
  simp only [value?, first read, second read]

theorem product (first : a.Equivalent left) (second : b.Equivalent right) :
    (Term.product a b).Equivalent (.product left right) := by
  intro read
  simp only [value?, first read, second read]

/-! ### Other groupings -/

section Sums

variable [ExactScalar α]

theorem neg_number (value : α) :
    (Term.negation (.number (-value))).Equivalent (.number value) := by
  intro read
  simp only [value?, Option.map_some, ExactScalar.neg_neg]

theorem sum_sum (a b c : Term α) :
    (Term.sum (.sum a b) c).Equivalent (.sum a (.sum b c)) := by
  intro read
  simp only [value?]
  cases a.value? read <;> cases b.value? read <;> cases c.value? read <;>
    simp [ExactScalar.add_assoc]

theorem difference_sum (a b c : Term α) :
    (Term.difference (.sum a b) c).Equivalent (.sum a (.difference b c)) := by
  intro read
  simp only [value?]
  cases a.value? read <;> cases b.value? read <;> cases c.value? read <;>
    simp [ExactScalar.add_sub]

end Sums

section Products

variable [ExactProducts α]

theorem product_product (a b c : Term α) :
    (Term.product (.product a b) c).Equivalent (.product a (.product b c)) := by
  intro read
  simp only [value?]
  cases a.value? read <;> cases b.value? read <;> cases c.value? read <;>
    simp [ExactProducts.mul_assoc]

theorem product_negation (a b : Term α) :
    (Term.product (.negation a) b).Equivalent (.negation (.product a b)) := by
  intro read
  simp only [value?]
  cases a.value? read <;> cases b.value? read <;> simp [ExactProducts.neg_mul]

end Products

end Term.Equivalent

/-! ## What lexemes mean -/

/-- Lexemes are read as an expression that has the value of a term. -/
def Means (precedence : Precedence) (lexemes : List (Lexeme α)) (term : Term α) : Prop :=
  ∃ tree, Reads precedence lexemes tree ∧ tree.Equivalent term

namespace Means

variable {precedence : Precedence} {lexemes rest : List (Lexeme α)}

theorem congr (means : Means precedence lexemes term) (same : term.Equivalent other) :
    Means precedence lexemes other := by
  obtain ⟨tree, reads, treeSame⟩ := means
  exact ⟨tree, reads, treeSame.trans same⟩

theorem ofUnary (means : Means .unary lexemes term) : Means .multiplicative lexemes term := by
  obtain ⟨tree, reads, same⟩ := means
  exact ⟨tree, .ofUnary reads, same⟩

theorem ofMultiplicative (means : Means .multiplicative lexemes term) :
    Means .additive lexemes term := by
  obtain ⟨tree, reads, same⟩ := means
  exact ⟨tree, .ofMultiplicative reads, same⟩

theorem access (place : Place) : Means .unary [.access place] (.element place : Term α) :=
  ⟨_, .ofPrimary (.access place), .refl _⟩

theorem parenthesized (inside : Means .additive lexemes term) :
    Means .unary (.opening :: (lexemes ++ [.closing])) term := by
  obtain ⟨tree, reads, same⟩ := inside
  exact ⟨tree, .ofPrimary (.parenthesized reads), same⟩

theorem magnitude (argument : Means .additive lexemes term) :
    Means .unary (.magnitude :: .opening :: (lexemes ++ [.closing])) (.magnitude term) := by
  obtain ⟨tree, reads, same⟩ := argument
  exact ⟨_, .ofPrimary (.magnitude reads), same.magnitude⟩

theorem difference (first : Means .additive lexemes left)
    (second : Means .multiplicative rest right) :
    Means .additive (lexemes ++ .minus :: rest) (.difference left right) := by
  obtain ⟨leftTree, leftReads, leftSame⟩ := first
  obtain ⟨rightTree, rightReads, rightSame⟩ := second
  exact ⟨_, .difference leftReads rightReads, leftSame.difference rightSame⟩

/-- The terms of a sum behind a plus sign are added one by one. -/
theorem sum [ExactScalar α] (first : Means .additive lexemes left)
    (second : Means .additive rest right) :
    Means .additive (lexemes ++ .plus :: rest) (.sum left right) := by
  obtain ⟨leftTree, leftReads, leftSame⟩ := first
  obtain ⟨rightTree, rightReads, rightSame⟩ := second
  suffices means : Means .additive (lexemes ++ .plus :: rest) (.sum leftTree rightTree) from
    means.congr (leftSame.sum rightSame)
  clear rightSame
  -- The operand is taken apart at its last operator, which ends up outermost.
  generalize additive : Precedence.additive = precedence at rightReads
  induction rightReads with
  | ofMultiplicative tight _ => exact ⟨_, .sum leftReads tight, .refl _⟩
  | @sum before last b c _ lastReads ih _ =>
      obtain ⟨tree, reads, same⟩ := ih additive
      refine ⟨.sum tree c, ?_, (same.sum (.refl c)).trans (.sum_sum leftTree b c)⟩
      simpa using Reads.sum reads lastReads
  | @difference before last b c _ lastReads ih _ =>
      obtain ⟨tree, reads, same⟩ := ih additive
      refine ⟨.difference tree c, ?_,
        (same.difference (.refl c)).trans (.difference_sum leftTree b c)⟩
      simpa using Reads.difference reads lastReads
  | _ => cases additive

/-- The factors of a product behind a multiplication sign are multiplied one by
one. -/
theorem product [ExactProducts α] (first : Means .multiplicative lexemes left)
    (second : Means .multiplicative rest right) :
    Means .multiplicative (lexemes ++ .times :: rest) (.product left right) := by
  obtain ⟨leftTree, leftReads, leftSame⟩ := first
  obtain ⟨rightTree, rightReads, rightSame⟩ := second
  suffices means : Means .multiplicative (lexemes ++ .times :: rest)
      (.product leftTree rightTree) from means.congr (leftSame.product rightSame)
  clear rightSame
  generalize multiplicative : Precedence.multiplicative = precedence at rightReads
  induction rightReads with
  | ofUnary tight _ => exact ⟨_, .product leftReads tight, .refl _⟩
  | @product before last b c _ lastReads ih _ =>
      obtain ⟨tree, reads, same⟩ := ih multiplicative
      refine ⟨.product tree c, ?_, (same.product (.refl c)).trans (.product_product leftTree b c)⟩
      simpa using Reads.product reads lastReads
  | _ => cases multiplicative

/-- A minus sign in front of a product belongs to its first factor. -/
theorem negation [ExactProducts α] (operand : Means .multiplicative lexemes term) :
    Means .multiplicative (.minus :: lexemes) (.negation term) := by
  obtain ⟨tree, reads, same⟩ := operand
  suffices means : Means .multiplicative (.minus :: lexemes) (.negation tree) from
    means.congr same.negation
  clear same
  -- The sign moves inwards past every factor but the first one.
  generalize multiplicative : Precedence.multiplicative = precedence at reads
  induction reads with
  | ofUnary tight _ => exact ⟨_, .ofUnary (.negation tight), .refl _⟩
  | @product before last b c _ lastReads ih _ =>
      obtain ⟨negated, negatedReads, negatedSame⟩ := ih multiplicative
      exact ⟨.product negated c, Reads.product negatedReads lastReads,
        (negatedSame.product (.refl c)).trans (.product_negation b c)⟩
  | _ => cases multiplicative

theorem number [ExactScalar α] (value : α) :
    Means .unary (Term.number value).lexemes (.number value) := by
  rw [Term.lexemes_number]
  split
  · exact ⟨_, .negation (.ofPrimary (.numeral (-value))), .neg_number value⟩
  · exact ⟨_, .ofPrimary (.numeral value), .refl _⟩

end Means

namespace Term

/-- An operand of `*` or behind a minus sign is read as one product. -/
theorem means_factor (means : Means .additive term.lexemes term)
    (tight : term.needsParentheses = false → Means .multiplicative term.lexemes term) :
    Means .multiplicative term.factor term := by
  cases needs : term.needsParentheses with
  | true =>
      rw [factor_of_loose needs]
      exact means.parenthesized.ofUnary
  | false =>
      rw [factor_of_tight needs]
      exact tight needs

/-- A written term is read as an expression that has its value, and as one
product where no parentheses are needed. -/
theorem means_lexemes [ExactProducts α] (term : Term α) :
    Means .additive term.lexemes term ∧
      (term.needsParentheses = false → Means .multiplicative term.lexemes term) := by
  have both {term : Term α} (means : Means .multiplicative term.lexemes term) :
      Means .additive term.lexemes term ∧
        (term.needsParentheses = false → Means .multiplicative term.lexemes term) :=
    ⟨means.ofMultiplicative, fun _ => means⟩
  induction term with
  | number value => exact both (Means.number value).ofUnary
  | element place => exact both (Means.access place).ofUnary
  | magnitude inner ih =>
      refine both ?_
      rw [lexemes_magnitude]
      exact ih.1.magnitude.ofUnary
  | negation inner ih =>
      refine both ?_
      rw [lexemes_negation]
      exact (means_factor ih.1 ih.2).negation
  | sum left right leftMeans rightMeans =>
      refine ⟨?_, nofun⟩
      rw [lexemes_sum]
      exact leftMeans.1.sum rightMeans.1
  | difference left right leftMeans rightMeans =>
      refine ⟨?_, nofun⟩
      rw [lexemes_difference]
      exact leftMeans.1.difference (means_factor rightMeans.1 rightMeans.2)
  | product left right leftMeans rightMeans =>
      refine both ?_
      rw [lexemes_product]
      exact (means_factor leftMeans.1 leftMeans.2).product
        (means_factor rightMeans.1 rightMeans.2)

end Term

end Meaning

/-! ## Minus signs -/

section Signs

variable {α : Type}

/-- No minus sign stands next to another one: C takes two in a row for an
operator of its own. -/
def Lexeme.Apart (first second : Lexeme α) : Prop :=
  first.isMinus = true → second.isMinus = false

/-- Lexemes among which minus signs stand apart, the last of which is an
operand. -/
structure Separated (lexemes : List (Lexeme α)) : Prop where
  apart : lexemes.IsChain Lexeme.Apart
  last : ∃ last, lexemes.getLast? = some last ∧ last.isMinus = false

/-- Lexemes that may stand behind a minus sign. -/
def StartsUnsigned (lexemes : List (Lexeme α)) : Prop :=
  ∀ first ∈ lexemes.head?, first.isMinus = false

namespace Separated

variable {lexemes rest : List (Lexeme α)}

theorem single {lexeme : Lexeme α} (unsigned : lexeme.isMinus = false) : Separated [lexeme] :=
  ⟨.singleton lexeme, lexeme, rfl, unsigned⟩

theorem cons (separated : Separated lexemes) {lexeme : Lexeme α}
    (apart : lexeme.isMinus = true → StartsUnsigned lexemes) : Separated (lexeme :: lexemes) := by
  obtain ⟨chain, last, last_eq, unsigned⟩ := separated
  refine ⟨List.isChain_cons.2 ⟨fun next mem isMinus => apart isMinus next mem, chain⟩,
    last, ?_, unsigned⟩
  rw [List.getLast?_cons, last_eq]
  rfl

theorem append (first : Separated lexemes) (second : Separated rest) :
    Separated (lexemes ++ rest) := by
  obtain ⟨chain, before, before_eq, operand⟩ := first
  obtain ⟨restChain, last, last_eq, unsigned⟩ := second
  refine ⟨chain.append restChain fun lexeme mem next _ isMinus => ?_, last, ?_, unsigned⟩
  · rw [before_eq] at mem
    cases mem
    rw [operand] at isMinus
    contradiction
  · rw [List.getLast?_append, last_eq]
    rfl

/-- Lexemes between parentheses. -/
theorem enclosed (inside : Separated lexemes) :
    Separated (.opening :: (lexemes ++ [.closing])) :=
  (inside.append (.single rfl)).cons nofun

end Separated

variable [Scalar α]

namespace Term

theorem separated_factor {term : Term α} (separated : Separated term.lexemes)
    (tight : term.needsParentheses = false → StartsUnsigned term.lexemes) :
    Separated term.factor ∧ StartsUnsigned term.factor := by
  cases needs : term.needsParentheses with
  | true =>
      rw [factor_of_loose needs]
      exact ⟨separated.enclosed, by rintro _ ⟨⟩; rfl⟩
  | false =>
      rw [factor_of_tight needs]
      exact ⟨separated, tight needs⟩

/-- Minus signs stand apart in a written term, and a term without parentheses
around it does not start with one. -/
theorem separated_lexemes (term : Term α) :
    Separated term.lexemes ∧ (term.needsParentheses = false → StartsUnsigned term.lexemes) := by
  induction term with
  | number value =>
      rw [lexemes_number]
      split
      · rename_i negative
        refine ⟨(Separated.single rfl).cons fun _ => by rintro _ ⟨⟩; rfl, fun tight => ?_⟩
        simp [needsParentheses, isNegative, number?, negative] at tight
      · exact ⟨.single rfl, fun _ => by rintro _ ⟨⟩; rfl⟩
  | element place => exact ⟨.single rfl, fun _ => by rintro _ ⟨⟩; rfl⟩
  | magnitude inner ih =>
      rw [lexemes_magnitude]
      exact ⟨ih.1.enclosed.cons nofun, fun _ => by rintro _ ⟨⟩; rfl⟩
  | negation inner ih =>
      obtain ⟨separated, unsigned⟩ := separated_factor ih.1 ih.2
      rw [lexemes_negation]
      exact ⟨separated.cons fun _ => unsigned, nofun⟩
  | sum left right leftSeparated rightSeparated =>
      rw [lexemes_sum]
      exact ⟨leftSeparated.1.append (rightSeparated.1.cons nofun), nofun⟩
  | difference left right leftSeparated rightSeparated =>
      obtain ⟨separated, unsigned⟩ := separated_factor rightSeparated.1 rightSeparated.2
      rw [lexemes_difference]
      exact ⟨leftSeparated.1.append (separated.cons fun _ => unsigned), nofun⟩
  | product left right leftSeparated rightSeparated =>
      obtain ⟨separated, unsigned⟩ := separated_factor leftSeparated.1 leftSeparated.2
      obtain ⟨rightFactor, _⟩ := separated_factor rightSeparated.1 rightSeparated.2
      rw [lexemes_product]
      refine ⟨separated.append (rightFactor.cons nofun), fun _ first mem => ?_⟩
      obtain ⟨last, last_eq, _⟩ := separated.last
      cases lexemes_eq : left.factor with
      | nil =>
          rw [lexemes_eq] at last_eq
          contradiction
      | cons lexeme rest =>
          rw [lexemes_eq] at mem unsigned
          exact unsigned first mem

end Term

end Signs

end RtiAssembly
