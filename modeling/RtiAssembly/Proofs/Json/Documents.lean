import RtiAssembly.Json.Text
import RtiAssembly.Proofs.Json.Scanning

/-!
# Documents are read as they are written

A value without defects has a token sequence, and its texts are the texts of
that sequence: blanks may stand before, between and behind the tokens.  Whatever
the blanks are, the reader finds the value again.  The compact text is one of
these texts.
-/

namespace RtiAssembly

theorem Digit.toList_text (digits : List Digit) :
    (Digit.text digits).toList = digits.map Digit.char := by
  simp [Digit.text]

/-- The text of a numeral announces its exponent by a small letter. -/
theorem Numeral.toList_text (numeral : Numeral) : numeral.text.toList = numeral.chars 'e' := by
  obtain ⟨negative, whole, fraction, exponent⟩ := numeral
  cases negative <;> cases fraction <;> rcases exponent with _ | ⟨_ | _ | _, digits⟩ <;>
    simp [Numeral.text, Exponent.text, Numeral.chars, Numeral.signChars, Digit.toList_text]

namespace Json

/-! ## Values without defects -/

/-- A string that can be written. -/
structure Quoted.WellFormed (quoted : Quoted) : Prop where
  closed : quoted.ending = .closed
  writable : ∀ unit ∈ quoted.units, ∃ text, UnitText unit text

mutual

/-- A value without a defect in it. -/
def WellFormed : Json → Prop
  | .null => True
  | .boolean _ => True
  | .numeral written => written.WellFormed
  | .string quoted => quoted.WellFormed
  | .array items => items.WellFormed
  | .object members => members.WellFormed
  | .absent _ => False
  | .brokenNumeral _ => False
  | .brokenWord _ => False

/-- Items without a defect in or between them. -/
def Items.WellFormed : Items → Prop
  | .closed => True
  | .broken _ => False
  | .cons head tail => head.WellFormed ∧ tail.WellFormed

/-- Members without a defect in or between them. -/
def Members.WellFormed : Members → Prop
  | .closed => True
  | .broken _ => False
  | .dangling _ => False
  | .cons key value tail => key.WellFormed ∧ value.WellFormed ∧ tail.WellFormed

end

/-- What separates an item or member from the one before it. -/
def separators (isFirst : Bool) : List Token :=
  if isFirst then [] else [.comma]

mutual

/-- The tokens of a value. -/
def written : Json → List Token
  | .null => [.null]
  | .boolean value => [.boolean value]
  | .numeral decimal => [.numeral decimal]
  | .string quoted => [.string quoted]
  | .array items => .openArray :: items.written true
  | .object members => .openObject :: members.written true
  | .absent _ => []
  | .brokenNumeral _ => []
  | .brokenWord _ => []

/-- The tokens of items, up to the closing bracket. -/
def Items.written (isFirst : Bool) : Items → List Token
  | .closed => [.closeArray]
  | .broken _ => []
  | .cons head tail => separators isFirst ++ (head.written ++ tail.written false)

/-- The tokens of members, up to the closing brace. -/
def Members.written (isFirst : Bool) : Members → List Token
  | .closed => [.closeObject]
  | .broken _ => []
  | .dangling _ => []
  | .cons key value tail =>
      separators isFirst ++ (.string key :: .colon :: (value.written ++ tail.written false))

end

/-- A text of a value: the value has no defect, and the text shows its tokens
with blanks around them. -/
structure IsText (value : Json) (text : String) : Prop where
  formed : value.WellFormed
  spaced : Spaced value.written text.toList

theorem Spaced.padded {tokens : List Token} {text before behind : List Char}
    (spaced : Spaced tokens text) (blankBefore : ∀ c ∈ before, isBlank c = true)
    (blankBehind : ∀ c ∈ behind, isBlank c = true) :
    Spaced tokens (before ++ (text ++ behind)) := by
  induction spaced generalizing before with
  | @ends blanks blank =>
      refine .ends ?_
      simp only [List.forall_mem_append]
      exact ⟨blankBefore, blank, blankBehind⟩
  | @next blanks text rest token tokens blank written others ih =>
      have noBlank : ∀ c ∈ ([] : List Char), isBlank c = true := by simp
      have blankBoth : ∀ c ∈ before ++ blanks, isBlank c = true :=
        List.forall_mem_append.2 ⟨blankBefore, blank⟩
      have spaced := Spaced.next blankBoth written (ih noBlank)
      simpa only [List.append_assoc, List.nil_append] using spaced

/-- Blanks may stand around a text. -/
theorem IsText.padded {value : Json} {text before behind : String} (isText : value.IsText text)
    (blankBefore : ∀ c ∈ before.toList, isBlank c = true)
    (blankBehind : ∀ c ∈ behind.toList, isBlank c = true) :
    value.IsText (before ++ text ++ behind) := by
  refine ⟨isText.formed, ?_⟩
  rw [String.toList_append, String.toList_append, List.append_assoc]
  exact isText.spaced.padded blankBefore blankBehind

/-! ## No numeral follows another -/

/-- A token sequence that may follow a numeral. -/
def Follows (tokens : List Token) : Prop :=
  Separated tokens ∧ ∀ token ∈ tokens.head?, token.isNumeral = false

theorem Follows.after {token : Token} (other : token.isNumeral = false) {tokens : List Token}
    (separated : Separated tokens) : Follows (token :: tokens) := by
  constructor
  · cases tokens with
    | nil => trivial
    | cons second rest => exact ⟨fun isNumeral => by rw [other] at isNumeral; contradiction, separated⟩
  · rintro _ ⟨⟩
    exact other

mutual

theorem separated_written : (value : Json) → {more : List Token} → Follows more →
    Separated (value.written ++ more)
  | .null, _, follows => (Follows.after rfl follows.1).1
  | .boolean _, _, follows => (Follows.after rfl follows.1).1
  | .numeral _, more, follows => by
      cases more with
      | nil => trivial
      | cons second rest => exact ⟨fun _ => follows.2 second rfl, follows.1⟩
  | .string _, _, follows => (Follows.after rfl follows.1).1
  | .array items, _, follows => (Follows.after rfl (follows_items true items follows)).1
  | .object members, _, follows => (Follows.after rfl (follows_members true members follows)).1
  | .absent _, _, follows => follows.1
  | .brokenNumeral _, _, follows => follows.1
  | .brokenWord _, _, follows => follows.1

theorem follows_items : (isFirst : Bool) → (items : Items) → {more : List Token} →
    Follows more → Separated (items.written isFirst ++ more)
  | _, .closed, _, follows => (Follows.after rfl follows.1).1
  | _, .broken _, _, follows => follows.1
  | isFirst, .cons head tail, more, follows => by
      have tail_follows : Follows (tail.written false ++ more) := by
        refine ⟨follows_items false tail follows, ?_⟩
        cases tail with
        | closed => rintro _ ⟨⟩; rfl
        | broken _ => exact follows.2
        | cons _ _ => rintro _ ⟨⟩; rfl
      have rest_separated := separated_written head tail_follows
      rw [Items.written, List.append_assoc, List.append_assoc]
      cases isFirst with
      | true => exact rest_separated
      | false => exact (Follows.after rfl rest_separated).1

theorem follows_members : (isFirst : Bool) → (members : Members) → {more : List Token} →
    Follows more → Separated (members.written isFirst ++ more)
  | _, .closed, _, follows => (Follows.after rfl follows.1).1
  | _, .broken _, _, follows => follows.1
  | _, .dangling _, _, follows => follows.1
  | isFirst, .cons key value tail, more, follows => by
      have tail_follows : Follows (tail.written false ++ more) := by
        refine ⟨follows_members false tail follows, ?_⟩
        cases tail with
        | closed => rintro _ ⟨⟩; rfl
        | broken _ => exact follows.2
        | dangling _ => exact follows.2
        | cons _ _ _ => rintro _ ⟨⟩; rfl
      have valued : Follows (.colon :: (value.written ++ (tail.written false ++ more))) :=
        .after rfl (separated_written value tail_follows)
      have named : Follows (.string key :: .colon ::
          (value.written ++ (tail.written false ++ more))) := .after rfl valued.1
      rw [Members.written, List.append_assoc, List.cons_append, List.cons_append,
        List.append_assoc]
      cases isFirst with
      | true => exact named.1
      | false => exact (Follows.after rfl named.1).1

end

/-! ## The reader finds the value -/

open Position

/-- The first token of a value opens or is the value. -/
theorem written_eq_cons {value : Json} (formed : value.WellFormed) :
    ∃ token rest, value.written = token :: rest ∧ token ≠ .closeArray := by
  cases value with
  | absent _ => contradiction
  | brokenNumeral _ => contradiction
  | brokenWord _ => contradiction
  | _ => exact ⟨_, _, rfl, by simp⟩

/-- Behind an opening bracket a value is read like everywhere else. -/
theorem step_firstItem {token : Token} (other : token ≠ .closeArray) (outer : List Context) :
    step (.firstItem outer) token = step (.beforeValue (.array [] :: outer)) token := by
  simp only [step]

mutual

/-- The reader takes the tokens of a value and stands behind it. -/
theorem read_written : (value : Json) → value.WellFormed → (outer : List Context) →
    value.written.foldl step (.beforeValue outer) = .afterValue value outer
  | .null, _, _ => rfl
  | .boolean _, _, _ => rfl
  | .numeral _, _, _ => rfl
  | .string _, _, _ => rfl
  | .array items, formed, outer => by
      cases items with
      | closed => rfl
      | broken _ => exact formed.elim
      | cons head tail =>
          obtain ⟨token, rest, head_eq, other⟩ := written_eq_cons formed.1
          have head_read := read_written head formed.1 (.array [] :: outer)
          rw [head_eq, List.foldl_cons, ← step_firstItem other] at head_read
          have tail_read := read_items tail formed.2 head [] outer
          rw [written, Items.written, separators, if_pos rfl, List.nil_append, List.foldl_cons,
            List.foldl_append, head_eq, List.foldl_cons]
          change (tail.written false).foldl step
            (rest.foldl step (step (.firstItem outer) token)) = _
          rw [head_read, tail_read]
          rfl
  | .object members, formed, outer => by
      cases members with
      | closed => rfl
      | broken _ => exact formed.elim
      | dangling _ => exact formed.elim
      | cons key value tail =>
          have value_read := read_written value formed.2.1 (.object [] key :: outer)
          have tail_read := read_members tail formed.2.2 key value [] outer
          rw [written, Members.written, separators, if_pos rfl, List.nil_append, List.foldl_cons,
            List.foldl_cons, List.foldl_cons, List.foldl_append]
          change (tail.written false).foldl step
            (value.written.foldl step (.beforeValue (.object [] key :: outer))) = _
          rw [value_read, tail_read]
          rfl

/-- The reader takes the items behind a complete one. -/
theorem read_items : (items : Items) → items.WellFormed → (last : Json) → (before : List Json) →
    (outer : List Context) →
    (items.written false).foldl step (.afterValue last (.array before :: outer)) =
      .afterValue (.array (items.after (last :: before))) outer
  | .closed, _, _, _, _ => rfl
  | .cons head tail, formed, last, before, outer => by
      have head_read := read_written head formed.1 (.array (last :: before) :: outer)
      have tail_read := read_items tail formed.2 head (last :: before) outer
      rw [Items.written, separators, if_neg (by decide), List.foldl_append, List.foldl_append]
      change (tail.written false).foldl step
        (head.written.foldl step (.beforeValue (.array (last :: before) :: outer))) = _
      rw [head_read, tail_read]
      rfl

/-- The reader takes the members behind a complete one. -/
theorem read_members : (members : Members) → members.WellFormed → (key : Quoted) →
    (last : Json) → (before : List (Quoted × Json)) → (outer : List Context) →
    (members.written false).foldl step (.afterValue last (.object before key :: outer)) =
      .afterValue (.object (members.after ((key, last) :: before))) outer
  | .closed, _, _, _, _, _ => rfl
  | .cons name head tail, formed, key, last, before, outer => by
      have head_read := read_written head formed.2.1
        (.object ((key, last) :: before) name :: outer)
      have tail_read := read_members tail formed.2.2 name head ((key, last) :: before) outer
      rw [Members.written, separators, if_neg (by decide), List.foldl_append, List.foldl_cons,
        List.foldl_cons, List.foldl_append]
      change (tail.written false).foldl step
        (head.written.foldl step (.beforeValue (.object ((key, last) :: before) name :: outer))) = _
      rw [head_read, tail_read]
      rfl

end

/-- Every text of a value is read as that value, with nothing behind it. -/
theorem ofText_of_isText {value : Json} {text : String} (isText : value.IsText text) :
    Document.ofText text = ⟨value, false⟩ := by
  have follows : Follows [] := ⟨trivial, by simp⟩
  have separated : Separated value.written := by
    have appended := separated_written value follows
    rwa [List.append_nil] at appended
  rw [Document.ofText, tokens_of_spaced isText.spaced separated, Document.ofTokens,
    read_written value isText.formed]
  rfl

/-! ## The compact text -/

namespace Quoted

theorem hexDigit?_hexDigit {value : Nat} (value_lt : value < 16) :
    hexDigit? (hexDigit value) = some value := by
  have each : ∀ digit : Fin 16, hexDigit? (hexDigit digit.val) = some digit.val := by decide
  exact each ⟨value, value_lt⟩

theorem hexDigit?_lt {c : Char} {value : Nat} (means : hexDigit? c = some value) : value < 16 := by
  unfold hexDigit? at means
  simp only [Char.le_def, UInt32.le_iff_toNat_le] at means
  split at means
  · rename_i inside
    cases means
    have upper : c.toNat ≤ 57 := inside.2
    omega
  · split at means
    · rename_i inside
      cases means
      have upper : c.toNat ≤ 102 := inside.2
      omega
    · split at means
      · rename_i inside
        cases means
        have upper : c.toNat ≤ 70 := inside.2
        omega
      · contradiction

/-- Four digits write a number below `2 ^ 16`. -/
theorem codeUnit?_lt {first second third fourth : Char} {unit : Nat}
    (means : codeUnit? first second third fourth = some unit) : unit < 65536 := by
  simp only [codeUnit?, Option.bind_eq_bind, Option.bind_eq_some_iff] at means
  obtain ⟨a, foundA, b, foundB, c, foundC, d, foundD, unit_eq⟩ := means
  have a_lt := hexDigit?_lt foundA
  have b_lt := hexDigit?_lt foundB
  have c_lt := hexDigit?_lt foundC
  have d_lt := hexDigit?_lt foundD
  cases unit_eq
  omega

theorem codeUnit?_hexDigit {unit : Nat} (unit_lt : unit < 65536) :
    codeUnit? (hexDigit (unit / 4096 % 16)) (hexDigit (unit / 256 % 16))
      (hexDigit (unit / 16 % 16)) (hexDigit (unit % 16)) = some unit := by
  have below (value : Nat) : value % 16 < 16 := Nat.mod_lt value (by decide)
  simp only [codeUnit?, hexDigit?_hexDigit (below _), Option.bind_eq_bind, Option.bind_some,
    Option.pure_def, Option.some.injEq]
  omega

/-- A unit that can be written is written by its own text. -/
theorem unitText_of_written {unit : StringUnit} {text : List Char} (written : UnitText unit text) :
    UnitText unit (unitText unit) := by
  cases written with
  | plain noQuote noBackslash noControl => exact .plain noQuote noBackslash noControl
  | escaped means =>
      refine .escaped ?_
      unfold escape? at means
      split at means
      case h_9 => contradiction
      all_goals
        cases means
        decide
  | code means => exact .code (codeUnit?_hexDigit (codeUnit?_lt means))

theorem unitsText_of_wellFormed {units : List StringUnit}
    (writable : ∀ unit ∈ units, ∃ text, UnitText unit text) :
    UnitsText units (units.flatMap unitText) := by
  induction units with
  | nil => exact .nil
  | cons unit units ih =>
      obtain ⟨text, written⟩ := writable unit List.mem_cons_self
      exact .cons (unitText_of_written written)
        (ih fun other mem => writable other (List.mem_cons_of_mem _ mem))

/-- The source of a string is one of its texts. -/
theorem tokenText_source {quoted : Quoted} (formed : quoted.WellFormed) :
    TokenText (.string quoted) quoted.source.toList := by
  obtain ⟨units, ending⟩ := quoted
  obtain ⟨rfl, writable⟩ := formed
  rw [source, String.toList_ofList, List.cons_append]
  exact .string (unitsText_of_wellFormed writable)

end Quoted

/-- A token without blanks before it. -/
theorem Spaced.tight {token : Token} {tokens : List Token} {text rest : List Char}
    (written : TokenText token text) (others : Spaced tokens rest) :
    Spaced (token :: tokens) (text ++ rest) := by
  have noBlank : ∀ c ∈ ([] : List Char), isBlank c = true := by simp
  exact .next noBlank written others

theorem spaced_separators (isFirst : Bool) {tokens : List Token} {rest : List Char}
    (others : Spaced tokens rest) :
    Spaced (separators isFirst ++ tokens) ((separator isFirst).toList ++ rest) := by
  cases isFirst with
  | true => exact others
  | false => exact .tight .comma others

mutual

/-- The pieces of a value show its tokens. -/
theorem spaced_pieces : (value : Json) → value.WellFormed → {more : List Token} →
    {rest : List Char} → Spaced more rest →
    Spaced (value.written ++ more) ((pieces value).flatMap String.toList ++ rest)
  | .null, _, _, _, others => .tight .null others
  | .boolean true, _, _, _, others => .tight .yes others
  | .boolean false, _, _, _, others => .tight .no others
  | .numeral decimal, formed, _, _, others => by
      rw [pieces, List.flatMap_singleton, Numeral.toList_text]
      exact .tight (.numeral formed (.inl rfl)) others
  | .string quoted, formed, _, _, others => by
      rw [pieces, List.flatMap_singleton]
      exact .tight (Quoted.tokenText_source formed) others
  | .array items, formed, more, rest, others => by
      have inner := spaced_pieces_items true items formed others
      rw [pieces, List.flatMap_cons, List.append_assoc]
      exact .tight .openArray inner
  | .object members, formed, more, rest, others => by
      have inner := spaced_pieces_members true members formed others
      rw [pieces, List.flatMap_cons, List.append_assoc]
      exact .tight .openObject inner

theorem spaced_pieces_items : (isFirst : Bool) → (items : Items) → items.WellFormed →
    {more : List Token} → {rest : List Char} → Spaced more rest →
    Spaced (items.written isFirst ++ more)
      ((piecesOfItems isFirst items ++ ["]"]).flatMap String.toList ++ rest)
  | _, .closed, _, _, _, others => .tight .closeArray others
  | isFirst, .cons head tail, formed, more, rest, others => by
      have inner := spaced_pieces head formed.1 (spaced_pieces_items false tail formed.2 others)
      rw [Items.written, piecesOfItems, List.append_assoc, List.append_assoc, List.cons_append,
        List.append_assoc, List.flatMap_cons, List.flatMap_append, List.append_assoc,
        List.append_assoc]
      exact spaced_separators isFirst inner

theorem spaced_pieces_members : (isFirst : Bool) → (members : Members) → members.WellFormed →
    {more : List Token} → {rest : List Char} → Spaced more rest →
    Spaced (members.written isFirst ++ more)
      ((piecesOfMembers isFirst members ++ ["\x7d"]).flatMap String.toList ++ rest)
  | _, .closed, _, _, _, others => .tight .closeObject others
  | isFirst, .cons key value tail, formed, more, rest, others => by
      have inner := spaced_pieces value formed.2.1
        (spaced_pieces_members false tail formed.2.2 others)
      have named := Spaced.tight (Quoted.tokenText_source formed.1) (.tight .colon inner)
      rw [Members.written, piecesOfMembers, List.append_assoc, List.cons_append, List.cons_append,
        List.append_assoc, List.cons_append, List.cons_append, List.cons_append,
        List.append_assoc, List.flatMap_cons, List.flatMap_cons, List.flatMap_cons,
        List.flatMap_append, List.append_assoc, List.append_assoc, List.append_assoc,
        List.append_assoc]
      exact spaced_separators isFirst named

end

/-- The compact text of a value is one of its texts. -/
theorem isText_compact {value : Json} (formed : value.WellFormed) :
    value.IsText value.compact := by
  refine ⟨formed, ?_⟩
  have nothing : Spaced [] [] := .ends (by simp)
  have spaced := spaced_pieces value formed nothing
  rwa [List.append_nil, List.append_nil, ← String.toList_join] at spaced

end Json

end RtiAssembly
