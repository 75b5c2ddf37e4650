import RtiAssembly.Json.Record
import RtiAssembly.Proofs.Json.Documents
import RtiAssembly.Proofs.Number.Numerals

/-!
# Reading what was built

Trees that are built from texts, sizes, lists, fields and entries of nodes are
read back by the readers of their forms.  A record is read by one argument for
all records: its fields are filled one after the other, in the order of its
schema.
-/

namespace RtiAssembly

/-! ## Maps over nodes -/

namespace NodeMap

variable {β : Type}

/-- An entry behind all others is put at the end. -/
theorem place_last {entries : List (Nat × β)} {key : Nat}
    (last : ∀ entry ∈ entries, entry.1 < key) (value : β) :
    place key value entries = entries ++ [(key, value)] := by
  induction entries with
  | nil => rfl
  | cons entry entries ih =>
      have before : entry.1 < key := last entry List.mem_cons_self
      rw [place, if_neg (Nat.not_lt_of_lt before), if_neg (Nat.ne_of_gt before),
        ih fun other mem => last other (List.mem_cons_of_mem _ mem), List.cons_append]

theorem ext {map other : NodeMap β} (entries_eq : map.entries = other.entries) : map = other := by
  cases map
  cases other
  cases entries_eq
  rfl

end NodeMap

namespace Json

theorem Reading.ofDefect_ok_bind {β γ : Type} (value : β) (next : β → Reading γ) :
    Reading.ofDefect (.ok value) >>= next = next value := rfl

/-! ## Texts -/

namespace Quoted

theorem unitOf_cases (c : Char) :
    (unitOf c = .escaped c ∧ escape? (escapeLetter c) = some c) ∨
      (unitOf c = .code c.toNat ∧ c.toNat < 32) ∨
      (unitOf c = .plain c ∧ c ≠ '"' ∧ c ≠ '\\' ∧ 32 ≤ c.toNat) := by
  unfold unitOf
  split
  · rename_i named
    refine .inl ⟨rfl, ?_⟩
    rcases named with rfl | rfl | rfl | rfl | rfl | rfl | rfl <;> decide
  · rename_i unnamed
    simp only [not_or] at unnamed
    split
    · rename_i control
      exact .inr (.inl ⟨rfl, control⟩)
    · rename_i printable
      exact .inr (.inr ⟨rfl, unnamed.1, unnamed.2.1, Nat.le_of_not_lt printable⟩)

/-- Every character can be written between quotes. -/
theorem unitText_unitOf (c : Char) : ∃ text, UnitText (unitOf c) text := by
  rcases unitOf_cases c with ⟨unit_eq, means⟩ | ⟨unit_eq, control⟩ | ⟨unit_eq, plain⟩
  · rw [unit_eq]
    exact ⟨_, .escaped means⟩
  · have unit_lt : c.toNat < 65536 := by omega
    rw [unit_eq]
    exact ⟨_, .code (codeUnit?_hexDigit unit_lt)⟩
  · rw [unit_eq]
    exact ⟨_, .plain plain.1 plain.2.1 plain.2.2⟩

theorem wellFormed_ofText (text : String) : (ofText text).WellFormed where
  closed := rfl
  writable := by
    intro unit mem
    obtain ⟨c, _, rfl⟩ := List.mem_map.1 mem
    exact unitText_unitOf c

theorem decode_unitOf (chars : List Char) : decode .closed (chars.map unitOf) = .ok chars := by
  induction chars with
  | nil => rfl
  | cons c chars ih =>
      rw [List.map_cons]
      rcases unitOf_cases c with ⟨unit_eq, _⟩ | ⟨unit_eq, control⟩ | ⟨unit_eq, _⟩
      · rw [unit_eq, decode, ih]
        rfl
      · have noTrailing : isTrailing c.toNat = false := by
          simp only [isTrailing, Bool.and_eq_false_iff, decide_eq_false_iff_not]
          omega
        have noLeading : isLeading c.toNat = false := by
          simp only [isLeading, Bool.and_eq_false_iff, decide_eq_false_iff_not]
          omega
        rw [unit_eq, decode.eq_def]
        dsimp only
        rw [noTrailing, noLeading, ih]
        simp [Except.map]
      · rw [unit_eq, decode, ih]
        rfl

/-- A text is read as it was. -/
theorem text?_ofText (text : String) : (ofText text).text? = .ok text := by
  simp [text?, ofText, decode_unitOf, Except.map]

/-- Characters that are written as they are stand behind the opening quote. -/
theorem lead_ofText {chars : List Char} (plain : ∀ c ∈ chars, unitOf c = .plain c) :
    (ofText (String.ofList chars)).lead = chars ++ ['"'] := by
  have units_eq : chars.map unitOf = chars.map .plain := List.map_congr_left plain
  rw [lead, ofText, String.toList_ofList, units_eq]
  dsimp only
  clear plain units_eq
  induction chars with
  | nil => rfl
  | cons c chars ih => rw [List.map_cons, leadOf, ih, List.cons_append]

end Quoted

/-! ## Values without defects -/

theorem wellFormed_ofList {items : List Json} (each : ∀ item ∈ items, item.WellFormed) :
    (ofList items).WellFormed := by
  have all : (items.foldr Items.cons .closed).WellFormed := by
    induction items with
    | nil => trivial
    | cons item items ih =>
        exact ⟨each item List.mem_cons_self,
          ih fun other mem => each other (List.mem_cons_of_mem _ mem)⟩
  exact all

theorem wellFormed_ofFields {fields : List (String × Json)}
    (each : ∀ field ∈ fields, field.2.WellFormed) : (ofFields fields).WellFormed := by
  have all : (fields.foldr (fun (name, value) => Members.cons (Quoted.ofText name) value)
      .closed).WellFormed := by
    induction fields with
    | nil => trivial
    | cons field fields ih =>
        exact ⟨Quoted.wellFormed_ofText field.1, each field List.mem_cons_self,
          ih fun other mem => each other (List.mem_cons_of_mem _ mem)⟩
  exact all

theorem wellFormed_ofString (text : String) : (ofString text).WellFormed :=
  Quoted.wellFormed_ofText text

theorem wellFormed_ofNat (n : Nat) : (ofNat n).WellFormed :=
  Numeral.wellFormed_ofNat n

theorem wellFormed_ofOption {value : Option Json} (each : ∀ present ∈ value, present.WellFormed) :
    (ofOption value).WellFormed := by
  cases value with
  | none => trivial
  | some present => exact each present rfl

/-! ## Single values -/

section Values

variable {α : Type} [Scalar α]

theorem readString_ofString (text : String) : readString α (ofString text) = .ok text := by
  change Reading.ofDefect (Quoted.ofText text).text? = .ok text
  rw [Quoted.text?_ofText]
  rfl

theorem readSize_ofNat {n : Nat} (fits : n < 2 ^ 64) : readSize α (ofNat n) = .ok n := by
  rw [ofNat, readSize, Numeral.integer?_ofNat fits]

/-- A present value is read if its tree is not that of an absent one. -/
theorem readOption_ofOption {β : Type} {read : Json → Reading β} {toJson : β → Json}
    {value : Option β} (present : ∀ some ∈ value, read (toJson some) = .ok some ∧
      toJson some ≠ .null) :
    readOption read (ofOption (value.map toJson)) = .ok value := by
  cases value with
  | none => rfl
  | some value =>
      obtain ⟨isRead, not_null⟩ := present value rfl
      rw [ofOption, Option.map_some, Option.getD_some]
      unfold readOption
      split
      · rename_i null
        exact absurd null not_null
      · rw [isRead]
        rfl

theorem readList_ofList {β : Type} {read : Json → Reading β} {toJson : β → Json}
    {items : List β} (each : ∀ item ∈ items, read (toJson item) = .ok item) :
    readList α read (ofList (items.map toJson)) = .ok items := by
  have all : Items.readAll read ((items.map toJson).foldr Items.cons .closed) = .ok items := by
    induction items with
    | nil => rfl
    | cons item items ih =>
        rw [List.map_cons, List.foldr_cons, Items.readAll, each item List.mem_cons_self,
          ih fun other mem => each other (List.mem_cons_of_mem _ mem)]
        rfl
  exact all

/-! ## Maps over nodes -/

theorem unitOf_digit (digit : Digit) : Quoted.unitOf digit.char = .plain digit.char := by
  revert digit
  decide

theorem readNode_ofNat {node : Nat} (fits : node < 2 ^ 64) :
    readNode α (Quoted.ofText (Digit.text (Digit.ofNat node))) = .ok node := by
  have chars_eq : (Numeral.ofNat node).chars 'e' = (Digit.ofNat node).map Digit.char := by
    simp [Numeral.ofNat, Numeral.chars]
  have lead_eq : (Quoted.ofText (Digit.text (Digit.ofNat node))).lead =
      (Numeral.ofNat node).chars 'e' ++ ['"'] := by
    rw [chars_eq]
    refine Quoted.lead_ofText fun c mem => ?_
    obtain ⟨digit, _, rfl⟩ := List.mem_map.1 mem
    exact unitOf_digit digit
  have formed := Numeral.wellFormed_ofNat node
  obtain ⟨first, rest, cons_eq, starts⟩ := chars_eq_cons formed 'e'
  have ends : EndsNumeral ['"'] := endsNumeral_cons [] (by decide)
  have head_starts :
      ((Numeral.ofNat node).chars 'e' ++ ['"']).head?.any startsNumeral = true := by
    rw [cons_eq]
    exact starts
  have isRead := readSize_ofNat (α := α) fits
  rw [ofNat] at isRead
  rw [readNode, lead_eq, if_pos head_starts, scanNumeral_append formed (.inl rfl) ends]
  change (do
    let node ← readSize α (.numeral (Numeral.ofNat node))
    if ['"'].head? = some '"' then pure node else .broken .malformed : Reading Nat) = _
  rw [isRead]
  rfl

theorem readNodes_entries {β : Type} {read : Json → Reading β} {toJson : β → Json}
    {entries : List (Nat × β)}
    (each : ∀ entry ∈ entries, entry.1 < 2 ^ 64 ∧ read (toJson entry.2) = .ok entry.2)
    (map : NodeMap β) (joined : NodeMap β) (joined_eq : joined.entries = map.entries ++ entries) :
    Members.readNodes α read map
      ((entries.map fun entry => (Digit.text (Digit.ofNat entry.1), toJson entry.2)).foldr
        (fun (name, value) => Members.cons (Quoted.ofText name) value) .closed) = .ok joined := by
  induction entries generalizing map with
  | nil =>
      rw [List.append_nil] at joined_eq
      rw [NodeMap.ext joined_eq]
      rfl
  | cons entry entries ih =>
      obtain ⟨fits, isRead⟩ := each entry List.mem_cons_self
      have last : ∀ earlier ∈ map.entries, earlier.1 < entry.1 := by
        have ascending := joined.ascending
        rw [joined_eq, List.pairwise_append] at ascending
        exact fun earlier mem => ascending.2.2 earlier mem entry List.mem_cons_self
      have placed : joined.entries = (map.insert entry.1 entry.2).entries ++ entries := by
        have inserted : (map.insert entry.1 entry.2).entries = map.entries ++ [entry] :=
          NodeMap.place_last last entry.2
        rw [joined_eq, inserted, List.append_assoc, List.singleton_append]
      rw [List.map_cons, List.foldr_cons, Members.readNodes, readNode_ofNat fits, isRead]
      exact ih (fun other mem => each other (List.mem_cons_of_mem _ mem)) _ placed

/-! ## Variants -/

theorem findVariant_ofText {β : Type} {variants : List (Variant β)} {name : String}
    {variant : Variant β}
    (found : variants.find? (fun variant => variant.name == name) = some variant) :
    findVariant variants (Quoted.ofText name) = .ok variant := by
  rw [findVariant, Quoted.text?_ofText, Reading.ofDefect_ok_bind, found]
  rfl

theorem readVariant_unit {β : Type} {variants : List (Variant β)} {name : String} {value : β}
    (found : variants.find? (fun variant => variant.name == name) = some (.unit name value)) :
    readVariant α variants (ofString name) = .ok value := by
  rw [ofString, readVariant, readUnitVariant, findVariant_ofText found]
  rfl

theorem readVariant_carrying {β : Type} {variants : List (Variant β)} {name : String}
    {payload : Payload} {read : Json → Reading β} {content : Json} {value : β}
    (found : variants.find? (fun variant => variant.name == name) =
      some (.carrying name payload read)) (isRead : read content = .ok value) :
    readVariant α variants (ofFields [(name, content)]) = .ok value := by
  rw [ofFields, List.foldr_cons, List.foldr_nil, readVariant, findVariant_ofText found]
  change (read content >>= fun result => (pure result : Reading β)) = _
  rw [isRead]
  rfl

end Values

/-! ## Records -/

section Records

variable {ρ : Type}

/-- Filling fields with values, in order, turns one record into another. -/
inductive Fills : List (Field ρ) → List (String × Json) → ρ → ρ → Prop
  | nil (record : ρ) : Fills [] [] record record
  | cons {field : Field ρ} {fields : List (Field ρ)} {value : Json}
      {members : List (String × Json)} {record filled final : ρ}
      (fill_eq : field.fill value record = .ok filled)
      (others : Fills fields members filled final) :
      Fills (field :: fields) ((field.name, value) :: members) record final

theorem fill_storing {β : Type} {name : String} {required : Bool} {read : Json → Reading β}
    {store : β → ρ → ρ} {value : Json} {content : β} (isRead : read value = .ok content)
    (record : ρ) :
    (Field.storing name required read store).fill value record = .ok (store content record) := by
  rw [Field.storing]
  dsimp only
  rw [isRead]
  rfl

namespace Schema

/-- A field is found by its name among fields of different names. -/
theorem field?_eq {schema : Schema ρ} {before after : List (Field ρ)} {field : Field ρ}
    (fields_eq : schema.fields = before ++ field :: after)
    (distinct : (schema.fields.map Field.name).Nodup) : schema.field? field.name = some field := by
  rw [fields_eq, List.map_append, List.map_cons, List.nodup_append] at distinct
  have others : before.find? (fun other => other.name == field.name) = none := by
    rw [List.find?_eq_none]
    intro other mem same
    exact distinct.2.2 other.name (List.mem_map_of_mem mem) field.name List.mem_cons_self
      (beq_iff_eq.1 same)
  rw [field?, fields_eq, List.find?_append, others, Option.none_or, List.find?_cons_of_pos]
  exact beq_self_eq_true _

/-- A record is complete when all its fields have been seen. -/
theorem complete_of_forall {schema : Schema ρ} {seen : List String}
    (all : ∀ field ∈ schema.fields, field.name ∈ seen) (record : ρ) :
    schema.complete seen record = .ok record := by
  have none_left : schema.fields.find? (fun field => field.required && !seen.contains field.name) =
      none := by
    rw [List.find?_eq_none]
    intro field mem
    simp [all field mem]
  rw [complete, none_left]

theorem readMembers_fills {schema : Schema ρ} (distinct : (schema.fields.map Field.name).Nodup)
    {fields : List (Field ρ)} {members : List (String × Json)} {record final : ρ}
    (fills : Fills fields members record final) {before : List (Field ρ)}
    (fields_eq : schema.fields = before ++ fields) {seen : List String}
    (seen_iff : ∀ name, name ∈ seen ↔ name ∈ before.map Field.name) :
    schema.readMembers seen record (members.foldr
      (fun (name, value) => Members.cons (Quoted.ofText name) value) .closed) = .ok final := by
  induction fills generalizing before seen with
  | nil record =>
      rw [List.append_nil] at fields_eq
      refine complete_of_forall (fun field mem => ?_) record
      rw [seen_iff, ← fields_eq]
      exact List.mem_map_of_mem mem
  | cons fill_eq others ih =>
      rename_i field fields value members record filled final
      have fresh : seen.contains field.name = false := by
        rw [fields_eq, List.map_append, List.map_cons, List.nodup_append] at distinct
        rw [Bool.eq_false_iff, ne_eq, List.contains_iff_mem, seen_iff]
        exact fun mem => distinct.2.2 _ mem _ List.mem_cons_self rfl
      have next_eq : schema.fields = (before ++ [field]) ++ fields := by
        rw [fields_eq, List.append_assoc, List.singleton_append]
      have next_iff : ∀ name, name ∈ field.name :: seen ↔
          name ∈ (before ++ [field]).map Field.name := by
        intro name
        simp [seen_iff, or_comm]
      have rest := ih next_eq next_iff
      rw [List.foldr_cons, readMembers, Quoted.text?_ofText, Reading.ofDefect_ok_bind,
        field?_eq fields_eq distinct]
      dsimp only
      rw [fresh, fill_eq]
      exact rest

/-- A record whose fields are written in order is read back. -/
theorem read_ofFields {α : Type} [Scalar α] {schema : Schema ρ}
    (distinct : (schema.fields.map Field.name).Nodup) {members : List (String × Json)}
    {record : ρ} (fills : Fills schema.fields members schema.blank record) :
    schema.read α (ofFields members) = .ok record :=
  readMembers_fills distinct fills (List.nil_append _).symm (by simp)

end Schema

end Records

end Json

end RtiAssembly
