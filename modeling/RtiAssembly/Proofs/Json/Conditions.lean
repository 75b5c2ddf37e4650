import RtiAssembly.Proofs.Json.Records

/-!
# Conditions on what is read

Each reader has a condition that all its results satisfy, and the condition of a
reader follows from those of its parts: a list satisfies that of its items, a
record the one that every field keeps.
-/

namespace RtiAssembly

namespace Json

theorem Reading.bind_eq_ok {β γ : Type} {first : Reading β} {next : β → Reading γ} {result : γ} :
    (first >>= next) = .ok result ↔ ∃ value, first = .ok value ∧ next value = .ok result := by
  cases first with
  | error cause => exact ⟨fun isRead => by contradiction, fun ⟨_, isRead, _⟩ => by contradiction⟩
  | ok value =>
      constructor
      · exact fun isRead => ⟨value, rfl, isRead⟩
      · rintro ⟨_, ⟨⟩, isRead⟩
        exact isRead

theorem Reading.map_eq_ok {ε β γ : Type} {reading : Except ε β} {f : β → γ} {result : γ} :
    reading.map f = .ok result ↔ ∃ value, reading = .ok value ∧ f value = result := by
  cases reading with
  | error cause => exact ⟨fun isRead => by contradiction, fun ⟨_, isRead, _⟩ => by contradiction⟩
  | ok value => simp [Except.map]

/-- Whatever a reader returns satisfies a condition. -/
def Yields {β : Type} (read : Json → Reading β) (condition : β → Prop) : Prop :=
  ∀ value result, read value = .ok result → condition result

section Values

variable {α : Type} [Scalar α] {β : Type} {read : Json → Reading β} {condition : β → Prop}

theorem unexpected_ne_ok (value : Json) (expected : String) (result : β) :
    unexpected α value expected ≠ .ok result := by
  unfold unexpected Reading.refuse Reading.broken
  repeat' split
  all_goals simp

/-- A numeral that is a size is a digit sequence of its value. -/
theorem whole_of_integer? {written : Numeral} {size : Nat}
    (found : written.integer? = some (.ofNat size)) :
    ∃ whole, written = ⟨false, whole, none, none⟩ ∧ Digit.value whole = size ∧ size < 2 ^ 64 := by
  obtain ⟨negative, whole, fraction, exponent⟩ := written
  unfold Numeral.integer? at found
  split at found
  · rename_i fraction_eq exponent_eq
    cases fraction_eq
    cases exponent_eq
    dsimp only at found
    cases negative with
    | true =>
        rw [if_pos rfl] at found
        split at found
        · rw [Option.some.injEq] at found
          have negative : (Int.ofNat size) < 0 := by omega
          exact absurd (Int.natCast_nonneg size) (Int.not_le.2 negative)
        · contradiction
    | false =>
        rw [if_neg Bool.false_ne_true] at found
        split at found
        · rename_i bound
          rw [Option.some.injEq] at found
          have size_eq : Digit.value whole = size := Int.ofNat.inj found
          exact ⟨whole, rfl, size_eq, size_eq ▸ bound⟩
        · contradiction
  · contradiction

theorem yields_readSize : Yields (readSize α) (· < 2 ^ 64) := by
  intro value size isRead
  unfold readSize at isRead
  split at isRead
  · split at isRead
    · rename_i found
      cases isRead
      obtain ⟨_, _, _, fits⟩ := whole_of_integer? found
      exact fits
    · contradiction
    · exact absurd isRead (unexpected_ne_ok _ _ _)
  · exact absurd isRead (unexpected_ne_ok _ _ _)

theorem yields_readScalar
    (readsFinite : ∀ written (value : α), Scalar.ofNumeral? written = some value →
      Scalar.isFinite value = true) :
    Yields (readScalar α) (Scalar.isFinite · = true) := by
  intro value number isRead
  unfold readScalar at isRead
  split at isRead
  · split at isRead
    · rename_i found
      cases isRead
      exact readsFinite _ number found
    · contradiction
  · exact absurd isRead (unexpected_ne_ok _ _ _)

theorem yields_readOption (yields : Yields read condition) :
    Yields (readOption read) (fun result => ∀ present ∈ result, condition present) := by
  intro value result isRead
  unfold readOption at isRead
  split at isRead
  · cases isRead
    simp
  · obtain ⟨present, found, rfl⟩ := Reading.map_eq_ok.1 isRead
    rintro _ ⟨⟩
    exact yields _ present found

theorem yields_readAll (yields : Yields read condition) :
    (items : Items) → (result : List β) → items.readAll read = .ok result →
      ∀ item ∈ result, condition item
  | .closed, _, isRead => by
      cases isRead
      simp
  | .broken _, _, isRead => by contradiction
  | .cons head tail, result, isRead => by
      rw [Items.readAll] at isRead
      obtain ⟨first, firstRead, isRead⟩ := Reading.bind_eq_ok.1 isRead
      obtain ⟨rest, restRead, isRead⟩ := Reading.bind_eq_ok.1 isRead
      cases isRead
      rw [List.forall_mem_cons]
      exact ⟨yields head first firstRead, yields_readAll yields tail rest restRead⟩

theorem yields_readList (yields : Yields read condition) :
    Yields (readList α read) (fun result => ∀ item ∈ result, condition item) := by
  intro value result isRead
  unfold readList at isRead
  split at isRead
  · exact yields_readAll yields _ _ isRead
  · exact absurd isRead (unexpected_ne_ok _ _ _)

theorem fits_of_readNode {key : Quoted} {node : Nat} (isRead : readNode α key = .ok node) :
    node < 2 ^ 64 := by
  unfold readNode at isRead
  dsimp only at isRead
  split at isRead
  · split at isRead
    · contradiction
    · obtain ⟨size, sizeRead, isRead⟩ := Reading.bind_eq_ok.1 isRead
      split at isRead
      · cases isRead
        exact yields_readSize _ _ sizeRead
      · contradiction
  · contradiction

theorem yields_readNodes (yields : Yields read condition) :
    (map : NodeMap β) → (members : Members) → (result : NodeMap β) →
      (∀ entry ∈ map.entries, entry.1 < 2 ^ 64 ∧ condition entry.2) →
      members.readNodes α read map = .ok result →
      ∀ entry ∈ result.entries, entry.1 < 2 ^ 64 ∧ condition entry.2
  | _, .closed, _, before, isRead => by
      cases isRead
      exact before
  | _, .broken _, _, _, isRead => by contradiction
  | _, .dangling _, _, _, isRead => by contradiction
  | map, .cons key value tail, result, before, isRead => by
      rw [Members.readNodes] at isRead
      obtain ⟨node, nodeRead, isRead⟩ := Reading.bind_eq_ok.1 isRead
      obtain ⟨content, contentRead, isRead⟩ := Reading.bind_eq_ok.1 isRead
      refine yields_readNodes yields _ tail result (fun entry mem => ?_) isRead
      rcases NodeMap.mem_place mem with rfl | mem
      · exact ⟨fits_of_readNode nodeRead, yields value content contentRead⟩
      · exact before entry mem

theorem yields_readNodeMap (yields : Yields read condition) :
    Yields (readNodeMap α read) (fun result =>
      ∀ entry ∈ result.entries, entry.1 < 2 ^ 64 ∧ condition entry.2) := by
  intro value result isRead
  unfold readNodeMap at isRead
  split at isRead
  · exact yields_readNodes yields .empty _ result (by simp [NodeMap.empty]) isRead
  · exact absurd isRead (unexpected_ne_ok _ _ _)

/-- Whatever an alternative gives satisfies a condition. -/
def Variant.Yields (condition : β → Prop) : Variant β → Prop
  | .unit _ value => condition value
  | .carrying _ _ read => Json.Yields read condition

theorem mem_of_findVariant {variants : List (Variant β)} {key : Quoted} {variant : Variant β}
    (found : findVariant variants key = .ok variant) : variant ∈ variants := by
  unfold findVariant at found
  obtain ⟨name, _, found⟩ := Reading.bind_eq_ok.1 found
  split at found
  · rename_i isFound
    cases found
    exact List.mem_of_find?_eq_some isFound
  · contradiction

theorem yields_readVariant {variants : List (Variant β)}
    (yields : ∀ variant ∈ variants, variant.Yields condition) :
    Yields (readVariant α variants) condition := by
  intro value result isRead
  unfold readVariant at isRead
  split at isRead
  · obtain ⟨variant, found, isRead⟩ := Reading.bind_eq_ok.1 isRead
    split at isRead
    · cases isRead
      exact yields _ (mem_of_findVariant found)
    · contradiction
  · split at isRead
    · obtain ⟨variant, found, isRead⟩ := Reading.bind_eq_ok.1 isRead
      obtain ⟨content, contentRead, isRead⟩ := Reading.bind_eq_ok.1 isRead
      have given : condition content := by
        have yielded := yields _ (mem_of_findVariant found)
        cases variant with
        | unit name value =>
            unfold Variant.readContent at contentRead
            dsimp only at contentRead
            split at contentRead
            · cases contentRead
              exact yielded
            · exact absurd contentRead (unexpected_ne_ok _ _ _)
        | carrying name payload read => exact yielded _ content contentRead
      split at isRead
      · cases isRead
        exact given
      · contradiction
      · contradiction
    · contradiction
    · contradiction
    · contradiction
  · contradiction
  · contradiction

end Values

/-! ## Records -/

section Records

variable {ρ : Type} {condition : ρ → Prop}

/-- Filling a field keeps a condition on the record. -/
def Field.Keeps (condition : ρ → Prop) (field : Field ρ) : Prop :=
  ∀ value record filled, condition record → field.fill value record = .ok filled →
    condition filled

theorem keeps_storing {β : Type} {name : String} {required : Bool} {read : Json → Reading β}
    {store : β → ρ → ρ} {content : β → Prop} (yields : Yields read content)
    (stores : ∀ value record, content value → condition record → condition (store value record)) :
    (Field.storing name required read store).Keeps condition := by
  intro value record filled before isFilled
  obtain ⟨given, isRead, rfl⟩ := Reading.map_eq_ok.1 isFilled
  exact stores given record (yields value given isRead) before

namespace Schema

variable {schema : Schema ρ}

theorem keeps_readMembers (keeps : ∀ field ∈ schema.fields, field.Keeps condition) :
    (members : Members) → (seen : List String) → (record result : ρ) → condition record →
      schema.readMembers seen record members = .ok result → condition result
  | .closed, seen, record, result, before, isRead => by
      rw [readMembers, complete] at isRead
      split at isRead
      · contradiction
      · cases isRead
        exact before
  | .broken _, _, _, _, _, isRead => by contradiction
  | .dangling _, _, _, _, _, isRead => by contradiction
  | .cons key value tail, seen, record, result, before, isRead => by
      rw [readMembers] at isRead
      obtain ⟨name, _, isRead⟩ := Reading.bind_eq_ok.1 isRead
      split at isRead
      · rename_i field found
        split at isRead
        · contradiction
        · obtain ⟨filled, isFilled, isRead⟩ := Reading.bind_eq_ok.1 isRead
          have field_mem : field ∈ schema.fields := List.mem_of_find?_eq_some found
          exact keeps_readMembers keeps tail _ filled result
            (keeps field field_mem value record filled before isFilled) isRead
      · split at isRead
        · obtain ⟨_, _, isRead⟩ := Reading.bind_eq_ok.1 isRead
          exact keeps_readMembers keeps tail seen record result before isRead
        · contradiction

theorem keeps_readItems (position : Nat) (record result : ρ) (before : condition record)
    (fields : List (Field ρ)) (keeps : ∀ field ∈ fields, field.Keeps condition) (items : Items)
    (isRead : schema.readItems position record fields items = .ok result) : condition result := by
  induction fields generalizing position record items with
  | nil =>
      cases items with
      | closed =>
          cases isRead
          exact before
      | broken _ => contradiction
      | cons _ _ => contradiction
  | cons field fields ih =>
      rw [List.forall_mem_cons] at keeps
      cases items with
      | closed =>
          rw [readItems] at isRead
          split at isRead
          · contradiction
          · exact ih _ record before keeps.2 .closed isRead
      | broken _ => contradiction
      | cons head tail =>
          rw [readItems] at isRead
          obtain ⟨filled, isFilled, isRead⟩ := Reading.bind_eq_ok.1 isRead
          exact ih _ filled (keeps.1 head record filled before isFilled) keeps.2 tail isRead

/-- A condition on records that holds at the start and is kept by every field
holds of what is read. -/
theorem yields_read {α : Type} [Scalar α] (blank : condition schema.blank)
    (keeps : ∀ field ∈ schema.fields, field.Keeps condition) :
    Yields (schema.read α) condition := by
  intro value result isRead
  unfold read at isRead
  split at isRead
  · exact keeps_readMembers keeps _ _ _ result blank isRead
  · exact keeps_readItems _ _ result blank _ keeps _ isRead
  · exact absurd isRead (unexpected_ne_ok _ _ _)

end Schema

end Records

end Json

end RtiAssembly
