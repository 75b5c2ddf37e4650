import RtiAssembly.Json.Token

/-!
# Trees of JSON texts

The tree of a text keeps members in the order in which they are written and
keeps a defect at the place where it stands.  Whoever walks a tree in reading
order therefore meets problems of content and problems of form in the order in
which the text shows them.

The tree is built by a reader that takes one token at a time.  Its position is
a stack of open containers, each with the values already complete in it.
-/

namespace RtiAssembly

mutual

/-- A value of a JSON text, possibly with a defect in it. -/
inductive Json
  | null
  | boolean (value : Bool)
  | numeral (written : Numeral)
  | string (quoted : Json.Quoted)
  | array (items : Json.Items)
  | object (members : Json.Members)
  /-- No value starts here. -/
  | absent (defect : Json.Defect)
  | brokenNumeral (defect : Json.Defect)
  | brokenWord (defect : Json.Defect)

/-- The items of an array, up to its end or to a defect between items. -/
inductive Json.Items
  | closed
  | broken (defect : Json.Defect)
  | cons (head : Json) (tail : Json.Items)

/-- The members of an object, up to its end or to a defect between members. -/
inductive Json.Members
  | closed
  /-- A defect in place of the first key, of a comma or of the closing brace. -/
  | broken (defect : Json.Defect)
  /-- A comma without a member behind it. -/
  | dangling (defect : Json.Defect)
  | cons (key : Json.Quoted) (value : Json) (tail : Json.Members)

end

namespace Json

/-- Put complete items, the last one first, in front of an item sequence. -/
def Items.after (tail : Items) (before : List Json) : Items :=
  before.foldl (fun items item => .cons item items) tail

/-- Put complete members, the last one first, in front of a member sequence. -/
def Members.after (tail : Members) (before : List (Quoted × Json)) : Members :=
  before.foldl (fun members member => .cons member.1 member.2 members) tail

/-- An open container, waiting for a value. -/
inductive Context
  | array (before : List Json)
  | object (before : List (Quoted × Json)) (key : Quoted)

/-- The container with the value it was waiting for, and nothing after it. -/
def Context.fill (value : Json) : Context → Json
  | .array before => .array ((Items.cons value (.broken .malformed)).after before)
  | .object before key => .object ((Members.cons key value (.broken .malformed)).after before)

/-- A value inside its open containers. -/
def plug (value : Json) (outer : List Context) : Json :=
  outer.foldl Context.fill value

/-- What a whole text holds: a value, and whether something follows it. -/
structure Document where
  value : Json
  continues : Bool

/-- Where the reader stands. -/
inductive Position
  /-- Before a value. -/
  | beforeValue (outer : List Context)
  /-- Behind an opening bracket. -/
  | firstItem (outer : List Context)
  /-- Behind an opening brace. -/
  | firstKey (outer : List Context)
  /-- Behind a comma in an object. -/
  | nextKey (before : List (Quoted × Json)) (outer : List Context)
  /-- Behind a key. -/
  | colon (before : List (Quoted × Json)) (key : Quoted) (outer : List Context)
  /-- Behind a value. -/
  | afterValue (value : Json) (outer : List Context)
  /-- The rest of the text has no meaning any more. -/
  | stopped (document : Document)

namespace Position

/-- Stop at a defective value. -/
def stop (value : Json) (outer : List Context) : Position :=
  .stopped ⟨plug value outer, false⟩

/-- Take the first token of a value. -/
def startValue (outer : List Context) : Token → Position
  | .openArray => .firstItem outer
  | .openObject => .firstKey outer
  | .null => .afterValue .null outer
  | .boolean value => .afterValue (.boolean value) outer
  | .numeral written => .afterValue (.numeral written) outer
  | .string quoted => .afterValue (.string quoted) outer
  | .brokenNumeral defect => .stop (.brokenNumeral defect) outer
  | .brokenWord defect => .stop (.brokenWord defect) outer
  | _ => .stop (.absent .malformed) outer

/-- Take one token. -/
def step : Position → Token → Position
  | .beforeValue outer, token => startValue outer token
  | .firstItem outer, token =>
      match token with
      | .closeArray => .afterValue (.array .closed) outer
      | _ => startValue (.array [] :: outer) token
  | .firstKey outer, token =>
      match token with
      | .closeObject => .afterValue (.object .closed) outer
      | .string key => .colon [] key outer
      | _ => .stop (.object (.broken .malformed)) outer
  | .nextKey before outer, token =>
      match token with
      | .string key => .colon before key outer
      | _ => .stop (.object ((Members.dangling .malformed).after before)) outer
  | .colon before key outer, token =>
      match token with
      | .colon => .beforeValue (.object before key :: outer)
      | _ => .stop (.absent .malformed) (.object before key :: outer)
  | .afterValue value [], _ => .stopped ⟨value, true⟩
  | .afterValue value (.array before :: outer), token =>
      match token with
      | .comma => .beforeValue (.array (value :: before) :: outer)
      | .closeArray => .afterValue (.array (Items.closed.after (value :: before))) outer
      | _ => .stop (.array ((Items.broken .malformed).after (value :: before))) outer
  | .afterValue value (.object before key :: outer), token =>
      match token with
      | .comma => .nextKey ((key, value) :: before) outer
      | .closeObject => .afterValue (.object (Members.closed.after ((key, value) :: before))) outer
      | _ => .stop (.object ((Members.broken .malformed).after ((key, value) :: before))) outer
  | .stopped document, _ => .stopped document

/-- What the reader has when the text ends. -/
def finish : Position → Document
  | .beforeValue outer => ⟨plug (.absent .truncated) outer, false⟩
  | .firstItem outer => ⟨plug (.array (.broken .truncated)) outer, false⟩
  | .firstKey outer => ⟨plug (.object (.broken .truncated)) outer, false⟩
  | .nextKey before outer =>
      ⟨plug (.object ((Members.dangling .truncated).after before)) outer, false⟩
  | .colon before key outer =>
      ⟨plug (.absent .truncated) (.object before key :: outer), false⟩
  | .afterValue value [] => ⟨value, false⟩
  | .afterValue value (.array before :: outer) =>
      ⟨plug (.array ((Items.broken .truncated).after (value :: before))) outer, false⟩
  | .afterValue value (.object before key :: outer) =>
      ⟨plug (.object ((Members.broken .truncated).after ((key, value) :: before))) outer, false⟩
  | .stopped document => document

end Position

/-- The document of a token sequence. -/
def Document.ofTokens (tokens : List Token) : Document :=
  (tokens.foldl Position.step (.beforeValue [])).finish

/-- The document of a text. -/
def Document.ofText (text : String) : Document :=
  Document.ofTokens (tokens text.toList)

end Json

end RtiAssembly
