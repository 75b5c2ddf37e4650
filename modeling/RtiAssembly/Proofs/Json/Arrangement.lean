import RtiAssembly.Proofs.Json.Conditions
import RtiAssembly.Proofs.Json.Records

/-!
# The order of members does not matter

Members of an object may change places as long as no two of them have the same
name.  A reader takes members one after the other; where taking two members in
either order leads to the same state, the members may come in any order.

Readers of a rearranged text may meet another problem first, so two readings
are compared only by what they accept.
-/

namespace RtiAssembly

namespace Json

/-! ## Readings that accept the same -/

namespace Reading

variable {β γ : Type}

theorem ofDefect_eq_ok {result : Except Defect β} {value : β} :
    ofDefect result = .ok value ↔ result = .ok value := by
  cases result with
  | error defect => exact ⟨nofun, nofun⟩
  | ok found => exact ⟨fun isRead => by cases isRead; rfl, fun isRead => by cases isRead; rfl⟩

/-- Two readings accept the same: the same value, or both none. -/
def Agree (first second : Reading β) : Prop :=
  ∀ value, first = .ok value ↔ second = .ok value

theorem Agree.refl (reading : Reading β) : Agree reading reading :=
  fun _ => .rfl

theorem Agree.trans {first second third : Reading β} (left : Agree first second)
    (right : Agree second third) : Agree first third :=
  fun value => (left value).trans (right value)

theorem Agree.bind {first second : Reading β} {next other : β → Reading γ}
    (agree : Agree first second) (each : ∀ value, Agree (next value) (other value)) :
    Agree (first >>= next) (second >>= other) := by
  intro result
  rw [bind_eq_ok, bind_eq_ok]
  exact exists_congr fun value => and_congr (agree value) (each value result)

theorem Agree.map {first second : Reading β} (agree : Agree first second) (f : β → γ) :
    Agree (first.map f) (second.map f) := by
  intro result
  rw [map_eq_ok, map_eq_ok]
  exact exists_congr fun value => and_congr_left' (agree value)

/-- Readings that refuse whatever they are asked accept the same. -/
theorem agree_of_refused {first second : Reading β} (left : ∀ value, first ≠ .ok value)
    (right : ∀ value, second ≠ .ok value) : Agree first second :=
  fun value => iff_of_false (left value) (right value)

end Reading

open Reading

/-! ## Rearranged values -/

/-- The members of a list. -/
def Members.ofList (members : List (Quoted × Json)) : Members :=
  members.foldr (fun member => .cons member.1 member.2) .closed

/-- Members of different names. -/
def Apart (first second : Quoted × Json) : Prop :=
  ∀ name, first.1.text? = .ok name → second.1.text? ≠ .ok name

theorem Apart.symm {first second : Quoted × Json} (apart : Apart first second) :
    Apart second first :=
  fun name second_eq first_eq => apart name first_eq second_eq

mutual

/-- Values that differ in the order of members inside objects in which no name
is repeated. -/
inductive Rearranged : Json → Json → Prop
  | same (value : Json) : Rearranged value value
  | array {items others : Items} (each : Items.Rearranged items others) :
      Rearranged (.array items) (.array others)
  | object {members others : Members} (each : Members.Rearranged members others) :
      Rearranged (.object members) (.object others)
  | reordered {members arranged : List (Quoted × Json)} {others : Members}
      (distinct : members.Pairwise Apart) (order : members.Perm arranged)
      (each : Members.Rearranged (.ofList arranged) others) :
      Rearranged (.object (.ofList members)) (.object others)

/-- Items that are rearranged one by one. -/
inductive Items.Rearranged : Items → Items → Prop
  | closed : Items.Rearranged .closed .closed
  | cons {head other : Json} {tail others : Items} (first : Rearranged head other)
      (rest : Items.Rearranged tail others) : Items.Rearranged (.cons head tail) (.cons other others)

/-- Members that are rearranged one by one. -/
inductive Members.Rearranged : Members → Members → Prop
  | closed : Members.Rearranged .closed .closed
  | cons {value other : Json} {tail others : Members} (key : Quoted)
      (first : Rearranged value other) (rest : Members.Rearranged tail others) :
      Members.Rearranged (.cons key value tail) (.cons key other others)

end

theorem Members.wellFormed_ofList {members : List (Quoted × Json)} :
    (Members.ofList members).WellFormed ↔
      ∀ member ∈ members, member.1.WellFormed ∧ member.2.WellFormed := by
  induction members with
  | nil => exact iff_of_true trivial (by simp)
  | cons member members ih =>
      rw [List.forall_mem_cons, ← ih, and_assoc]
      rfl

theorem ofFields_eq (fields : List (String × Json)) :
    ofFields fields =
      .object (.ofList (fields.map fun field => (Quoted.ofText field.1, field.2))) := by
  rw [ofFields, Members.ofList, List.foldr_map]

theorem Members.rearranged_ofList (members : List (Quoted × Json)) :
    Members.Rearranged (.ofList members) (.ofList members) := by
  induction members with
  | nil => exact .closed
  | cons member members ih => exact .cons member.1 (.same member.2) ih

/-- An object of fields of different names may be written in any order. -/
theorem rearranged_ofFields {fields arranged : List (String × Json)}
    (distinct : (fields.map Prod.fst).Nodup) (order : fields.Perm arranged) :
    Rearranged (ofFields fields) (ofFields arranged) := by
  rw [ofFields_eq, ofFields_eq]
  refine .reordered ?_ (order.map _) (Members.rearranged_ofList _)
  rw [List.pairwise_map]
  refine (List.pairwise_map.1 distinct).imp fun name_ne name first_eq second_eq => name_ne ?_
  rw [Quoted.text?_ofText] at first_eq second_eq
  exact (Except.ok.inj first_eq).trans (Except.ok.inj second_eq).symm

theorem Quoted.skip_eq_ok {quoted : Quoted} (formed : quoted.WellFormed) :
    quoted.skip = .ok () := by
  rw [skip, formed.closed]

mutual

/-- Values without a defect are skipped. -/
theorem skip_eq_ok : (value : Json) → value.WellFormed → skip value = .ok ()
  | .null, _ => rfl
  | .boolean _, _ => rfl
  | .numeral _, _ => rfl
  | .string _, formed => Quoted.skip_eq_ok formed
  | .array items, formed => skipItems_eq_ok items formed
  | .object members, formed => skipMembers_eq_ok members formed

theorem skipItems_eq_ok : (items : Items) → items.WellFormed → skipItems items = .ok ()
  | .closed, _ => rfl
  | .cons head tail, formed => by
      rw [skipItems, skip_eq_ok head formed.1]
      exact skipItems_eq_ok tail formed.2

theorem skipMembers_eq_ok : (members : Members) → members.WellFormed → skipMembers members = .ok ()
  | .closed, _ => rfl
  | .cons key value tail, formed => by
      rw [skipMembers, Quoted.skip_eq_ok formed.1, skip_eq_ok value formed.2.1]
      exact skipMembers_eq_ok tail formed.2.2

end

/-! ## Members taken one after the other -/

/-- Where two members of different names may change places, all members may.
What is accepted from members depends on the state in which the first is taken. -/
theorem accepts_of_perm {σ β : Type} (accepts : List (Quoted × Json) → σ → β → Prop)
    (taken : ∀ member rest arranged,
      (∀ state result, accepts rest state result → accepts arranged state result) →
      ∀ state result, accepts (member :: rest) state result →
        accepts (member :: arranged) state result)
    (swapped : ∀ first second rest, Apart first second → first.1.WellFormed →
      second.1.WellFormed → ∀ state result, accepts (first :: second :: rest) state result →
        accepts (second :: first :: rest) state result)
    {members arranged : List (Quoted × Json)} (order : members.Perm arranged)
    (distinct : members.Pairwise Apart)
    (formed : ∀ member ∈ members, member.1.WellFormed ∧ member.2.WellFormed) (state : σ)
    {result : β} (accepted : accepts members state result) : accepts arranged state result := by
  induction order generalizing state result with
  | nil => exact accepted
  | cons member order ih =>
      rw [List.forall_mem_cons] at formed
      exact taken member _ _ (fun state _ => ih (List.pairwise_cons.1 distinct).2 formed.2 state) _ _
        accepted
  | swap first second rest =>
      simp only [List.forall_mem_cons] at formed
      have apart : Apart second first := (List.pairwise_cons.1 distinct).1 first List.mem_cons_self
      exact swapped second first rest apart formed.1.1 formed.2.1.1 _ _ accepted
  | trans order _ ih ih' =>
      have distinctThen := (order.pairwise_iff Apart.symm).1 distinct
      exact ih' distinctThen (fun member mem => formed member (order.mem_iff.2 mem))
        state (ih distinct formed state accepted)

/-! ## Readers that accept rearranged values alike -/

/-- A reader that accepts a value and a rearranged one alike. -/
def Stable {β : Type} (read : Json → Reading β) : Prop :=
  ∀ value other, Rearranged value other → value.WellFormed → other.WellFormed →
    Agree (read value) (read other)

section Values

variable {α : Type} [Scalar α] {β : Type}

/-- A reader is stable if it may take items and members one by one, and members
of different names in any order. -/
theorem Stable.of_parts {read : Json → Reading β}
    (array : ∀ items others, Items.Rearranged items others → items.WellFormed →
      others.WellFormed → Agree (read (.array items)) (read (.array others)))
    (object : ∀ members others, Members.Rearranged members others → members.WellFormed →
      others.WellFormed → Agree (read (.object members)) (read (.object others)))
    (reordered : ∀ members arranged, members.Pairwise Apart → members.Perm arranged →
      (∀ member ∈ members, member.1.WellFormed ∧ member.2.WellFormed) →
      ∀ result, read (.object (.ofList members)) = .ok result →
        read (.object (.ofList arranged)) = .ok result) : Stable read := by
  intro value other rearranged formed otherFormed
  cases rearranged with
  | same => exact .refl _
  | array each => exact array _ _ each formed otherFormed
  | object each => exact object _ _ each formed otherFormed
  | @reordered members arranged others distinct order each =>
      have membersFormed := Members.wellFormed_ofList.1 formed
      have arrangedFormed : ∀ member ∈ arranged, member.1.WellFormed ∧ member.2.WellFormed :=
        fun member mem => membersFormed member (order.mem_iff.2 mem)
      have sameMembers : Agree (read (.object (.ofList members)))
          (read (.object (.ofList arranged))) := fun result =>
        ⟨reordered members arranged distinct order membersFormed result,
          reordered arranged members ((order.pairwise_iff Apart.symm).1 distinct) order.symm
            arrangedFormed result⟩
      exact sameMembers.trans
        (object _ _ each (Members.wellFormed_ofList.2 arrangedFormed) otherFormed)

/-- A reader of single values is stable. -/
theorem Stable.of_single {read : Json → Reading β}
    (array : ∀ items result, read (.array items) ≠ .ok result)
    (object : ∀ members result, read (.object members) ≠ .ok result) : Stable read :=
  .of_parts (fun _ _ _ _ _ => agree_of_refused (array _) (array _))
    (fun _ _ _ _ _ => agree_of_refused (object _) (object _))
    fun _ _ _ _ _ result isRead => absurd isRead (object _ result)

theorem stable_readSize : Stable (readSize α) :=
  .of_single (fun _ _ => nofun) fun _ _ => nofun

theorem stable_readScalar : Stable (readScalar (α := α)) :=
  .of_single (fun _ _ => nofun) fun _ _ => nofun

theorem stable_readBool : Stable (readBool α) :=
  .of_single (fun _ _ => nofun) fun _ _ => nofun

theorem stable_readString : Stable (readString α) :=
  .of_single (fun _ _ => nofun) fun _ _ => nofun

theorem Stable.map {γ : Type} {read : Json → Reading β} (stable : Stable read) (f : β → γ) :
    Stable fun value => (read value).map f :=
  fun value other rearranged formed otherFormed =>
    (stable value other rearranged formed otherFormed).map f

theorem stable_readOption {read : Json → Reading β} (stable : Stable read) :
    Stable (readOption read) := by
  intro value other rearranged formed otherFormed
  have agree := (stable value other rearranged formed otherFormed).map some
  cases rearranged with
  | same => exact .refl _
  | array _ => exact agree
  | object _ => exact agree
  | reordered _ _ _ => exact agree

theorem agree_readAll {read : Json → Reading β} (stable : Stable read) :
    (items others : Items) → Items.Rearranged items others → items.WellFormed →
      others.WellFormed → Agree (items.readAll read) (others.readAll read)
  | _, _, .closed, _, _ => .refl _
  | .cons head tail, .cons other others, .cons first rest, formed, otherFormed => by
      have heads := stable head other first formed.1 otherFormed.1
      have tails := agree_readAll stable tail others rest formed.2 otherFormed.2
      exact heads.bind fun _ => tails.bind fun _ => .refl _

theorem stable_readList {read : Json → Reading β} (stable : Stable read) :
    Stable (readList α read) :=
  .of_parts (fun items others => agree_readAll stable items others)
    (fun _ _ _ _ _ => agree_of_refused (fun _ => nofun) fun _ => nofun)
    fun _ _ _ _ _ _ isRead => nomatch isRead

/-! ## Variants -/

/-- An alternative whose content is read by a stable reader. -/
def Variant.Stable : Variant β → Prop
  | .unit _ _ => True
  | .carrying _ _ read => Json.Stable read

theorem Variant.stable_readContent {variant : Variant β} (stable : variant.Stable) :
    Json.Stable (variant.readContent α) := by
  cases variant with
  | unit name value =>
      exact .of_parts (fun _ _ _ _ _ => agree_of_refused (fun _ => nofun) fun _ => nofun)
        (fun _ _ _ _ _ => agree_of_refused (fun _ => nofun) fun _ => nofun)
        fun _ _ _ _ _ _ isRead => nomatch isRead
  | carrying name payload read => exact stable

/-- A choice is read from an object of one member. -/
theorem readVariant_object_eq_ok {variants : List (Variant β)} {members : Members} {result : β} :
    readVariant α variants (.object members) = .ok result ↔
      ∃ key content variant, members = .cons key content .closed ∧
        findVariant variants key = .ok variant ∧ variant.readContent α content = .ok result := by
  cases members with
  | closed => exact ⟨nofun, nofun⟩
  | broken _ => exact ⟨nofun, nofun⟩
  | dangling _ => exact ⟨nofun, nofun⟩
  | cons key content tail =>
      rw [readVariant, bind_eq_ok]
      constructor
      · rintro ⟨variant, found, isRead⟩
        obtain ⟨value, contentRead, isRead⟩ := bind_eq_ok.1 isRead
        cases tail with
        | closed =>
            cases isRead
            exact ⟨key, content, variant, rfl, found, contentRead⟩
        | broken _ => contradiction
        | dangling _ => contradiction
        | cons _ _ _ => contradiction
      · rintro ⟨_, _, variant, ⟨⟩, found, contentRead⟩
        exact ⟨variant, found, bind_eq_ok.2 ⟨result, contentRead, rfl⟩⟩

theorem stable_readVariant {variants : List (Variant β)}
    (stable : ∀ variant ∈ variants, variant.Stable) : Stable (readVariant α variants) := by
  refine .of_parts (fun _ _ _ _ _ => agree_of_refused (fun _ => nofun) fun _ => nofun) ?_ ?_
  · intro members others each formed otherFormed result
    rw [readVariant_object_eq_ok, readVariant_object_eq_ok]
    constructor
    · rintro ⟨key, content, variant, rfl, found, contentRead⟩
      obtain _ | ⟨_, first, ⟨⟩⟩ := each
      have agree := Variant.stable_readContent (α := α) (stable variant (mem_of_findVariant found)) content _
        first formed.2.1 otherFormed.2.1
      exact ⟨key, _, variant, rfl, found, (agree result).1 contentRead⟩
    · rintro ⟨key, content, variant, rfl, found, contentRead⟩
      obtain _ | ⟨_, first, ⟨⟩⟩ := each
      have agree := Variant.stable_readContent (α := α) (stable variant (mem_of_findVariant found)) _ content
        first formed.2.1 otherFormed.2.1
      exact ⟨key, _, variant, rfl, found, (agree result).2 contentRead⟩
  · intro members arranged _ order _ result isRead
    -- an object that is read as a choice has one member, which has no other place
    obtain ⟨key, content, _, members_eq, _⟩ := readVariant_object_eq_ok.1 isRead
    cases members with
    | nil => contradiction
    | cons member rest =>
        cases rest with
        | nil =>
            rw [List.perm_singleton.1 order.symm]
            exact isRead
        | cons _ _ => simp [Members.ofList] at members_eq

end Values

/-! ## Records -/

section Records

variable {ρ : Type}

/-- A field that is filled alike from a value and a rearranged one. -/
def Field.Stable (field : Field ρ) : Prop :=
  ∀ record, Json.Stable fun value => field.fill value record

theorem stable_storing {β : Type} {name : String} {required : Bool} {read : Json → Reading β}
    {store : β → ρ → ρ} (stable : Stable read) :
    (Field.storing name required read store).Stable :=
  fun record => stable.map (store · record)

/-- Two fields that may be filled in any order. -/
def Field.Commute (first second : Field ρ) : Prop :=
  ∀ value other record, Agree (first.fill value record >>= second.fill other)
    (second.fill other record >>= first.fill value)

instance : Std.Symm (@Field.Commute ρ) where
  symm _ _ commute value other record result := (commute other value record result).symm

/-- Fields that store in different places may be filled in any order. -/
theorem commute_storing {β γ : Type} {name other : String} {required needed : Bool}
    {read : Json → Reading β} {readOther : Json → Reading γ} {store : β → ρ → ρ}
    {storeOther : γ → ρ → ρ}
    (stores : ∀ value content record,
      storeOther content (store value record) = store value (storeOther content record)) :
    (Field.storing name required read store).Commute
      (.storing other needed readOther storeOther) := by
  intro value content record result
  simp only [Field.storing, bind_eq_ok, map_eq_ok]
  constructor
  · rintro ⟨_, ⟨given, givenRead, rfl⟩, taken, takenRead, rfl⟩
    exact ⟨_, ⟨taken, takenRead, rfl⟩, given, givenRead, (stores given taken record).symm⟩
  · rintro ⟨_, ⟨taken, takenRead, rfl⟩, given, givenRead, rfl⟩
    exact ⟨_, ⟨given, givenRead, rfl⟩, taken, takenRead, stores given taken record⟩

namespace Schema

/-- A record whose fields are read alike and may be filled in any order. -/
structure Orderly (schema : Schema ρ) : Prop where
  stable : ∀ field ∈ schema.fields, field.Stable
  commute : schema.fields.Pairwise Field.Commute

variable {schema : Schema ρ}

theorem mem_of_field? {name : String} {field : Field ρ} (found : schema.field? name = some field) :
    field ∈ schema.fields ∧ field.name = name := by
  unfold field? at found
  exact ⟨List.mem_of_find?_eq_some found, by simpa using List.find?_some found⟩

/-- Fields that are found under different names may be filled in any order. -/
theorem Orderly.commute_found (orderly : schema.Orderly) {name other : String}
    (name_ne : name ≠ other) {first second : Field ρ} (found : schema.field? name = some first)
    (foundOther : schema.field? other = some second) : first.Commute second := by
  obtain ⟨first_mem, first_name⟩ := mem_of_field? found
  obtain ⟨second_mem, second_name⟩ := mem_of_field? foundOther
  refine orderly.commute.forall first_mem second_mem ?_
  rintro rfl
  exact name_ne (first_name.symm.trans second_name)

/-- One member takes the names seen so far and the record further: it fills the
field of its name, or it is skipped. -/
inductive Takes (schema : Schema ρ) (member : Quoted × Json) :
    List String × ρ → List String × ρ → Prop
  | fills {name : String} {field : Field ρ} {seen : List String} {record filled : ρ}
      (named : member.1.text? = .ok name) (found : schema.field? name = some field)
      (fresh : name ∉ seen) (fill_eq : field.fill member.2 record = .ok filled) :
      Takes schema member (seen, record) (name :: seen, filled)
  | skips {name : String} {state : List String × ρ} (named : member.1.text? = .ok name)
      (unknown : schema.field? name = none) (allowed : schema.skipsUnknown = true)
      (skipped : skip member.2 = .ok ()) : Takes schema member state state

theorem readMembers_cons_eq_ok {key : Quoted} {value : Json} {tail : Members} {seen : List String}
    {record result : ρ} :
    schema.readMembers seen record (.cons key value tail) = .ok result ↔
      ∃ next, schema.Takes (key, value) (seen, record) next ∧
        schema.readMembers next.1 next.2 tail = .ok result := by
  rw [readMembers, bind_eq_ok]
  constructor
  · rintro ⟨name, named, isRead⟩
    rw [ofDefect_eq_ok] at named
    split at isRead
    · rename_i field found
      split at isRead
      · contradiction
      · rename_i unseen
        obtain ⟨filled, fill_eq, isRead⟩ := bind_eq_ok.1 isRead
        have fresh : name ∉ seen := fun mem => unseen (List.contains_iff_mem.2 mem)
        exact ⟨_, .fills named found fresh fill_eq, isRead⟩
    · rename_i unknown
      split at isRead
      · rename_i allowed
        obtain ⟨_, skipped, isRead⟩ := bind_eq_ok.1 isRead
        exact ⟨_, .skips named unknown allowed (ofDefect_eq_ok.1 skipped), isRead⟩
      · contradiction
  · rintro ⟨next, taken, isRead⟩
    cases taken with
    | @fills name field _ _ filled named found fresh fill_eq =>
        refine ⟨name, ofDefect_eq_ok.2 named, ?_⟩
        rw [found]
        dsimp only
        rw [if_neg fun mem => fresh (List.contains_iff_mem.1 mem)]
        exact bind_eq_ok.2 ⟨filled, fill_eq, isRead⟩
    | @skips name _ named unknown allowed skipped =>
        refine ⟨name, ofDefect_eq_ok.2 named, ?_⟩
        rw [unknown]
        dsimp only
        rw [if_pos allowed]
        exact bind_eq_ok.2 ⟨(), ofDefect_eq_ok.2 skipped, isRead⟩

/-- Only which names have been seen counts, not in which order. -/
theorem readMembers_seen (members : Members) {seen other : List String}
    (same : seen.Perm other) (record : ρ) :
    schema.readMembers seen record members = schema.readMembers other record members := by
  have contains_eq (name : String) : seen.contains name = other.contains name := by
    rw [Bool.eq_iff_iff, List.contains_iff_mem, List.contains_iff_mem, same.mem_iff]
  cases members with
  | closed => simp only [readMembers, complete, contains_eq]
  | broken _ => rfl
  | dangling _ => rfl
  | cons key value tail =>
      have filled (name : String) (record : ρ) :=
        readMembers_seen tail (same.cons name) record
      have skipped := readMembers_seen tail same record
      simp only [readMembers, contains_eq, filled, skipped]

/-- Two members may change places. -/
theorem readMembers_swap (orderly : schema.Orderly) {first second : Quoted × Json}
    {rest : List (Quoted × Json)} {seen : List String} {record result : ρ}
    (isRead : schema.readMembers seen record (.ofList (first :: second :: rest)) = .ok result) :
    schema.readMembers seen record (.ofList (second :: first :: rest)) = .ok result := by
  obtain ⟨next, taken, isRead⟩ := readMembers_cons_eq_ok.1 isRead
  obtain ⟨final, takenNext, isRead⟩ := readMembers_cons_eq_ok.1 isRead
  refine readMembers_cons_eq_ok.2 ?_
  cases taken with
  | @fills name field _ _ filled named found fresh fill_eq =>
      cases takenNext with
      | @fills other fieldOther _ _ both namedOther foundOther freshOther fillOther =>
          rw [List.mem_cons, not_or] at freshOther
          have commute := orderly.commute_found (Ne.symm freshOther.1) found foundOther
          have filledBoth := bind_eq_ok.2 ⟨filled, fill_eq, fillOther⟩
          obtain ⟨filledOther, fillOther, fill_eq⟩ :=
            bind_eq_ok.1 ((commute first.2 second.2 record both).1 filledBoth)
          have freshStill : name ∉ other :: seen := by
            rw [List.mem_cons, not_or]
            exact ⟨Ne.symm freshOther.1, fresh⟩
          refine ⟨_, .fills namedOther foundOther freshOther.2 fillOther,
            readMembers_cons_eq_ok.2 ⟨_, .fills named found freshStill fill_eq, ?_⟩⟩
          rw [← isRead]
          exact readMembers_seen _ (.swap other name seen) both
      | skips namedOther unknown allowed skipped =>
          exact ⟨_, .skips namedOther unknown allowed skipped,
            readMembers_cons_eq_ok.2 ⟨_, .fills named found fresh fill_eq, isRead⟩⟩
  | skips named unknown allowed skipped =>
      cases takenNext with
      | fills namedOther found fresh fill_eq =>
          exact ⟨_, .fills namedOther found fresh fill_eq,
            readMembers_cons_eq_ok.2 ⟨_, .skips named unknown allowed skipped, isRead⟩⟩
      | skips namedOther unknownOther _ skippedOther =>
          exact ⟨_, .skips namedOther unknownOther allowed skippedOther,
            readMembers_cons_eq_ok.2 ⟨_, .skips named unknown allowed skipped, isRead⟩⟩

/-- Members of different names may come in any order. -/
theorem readMembers_perm (orderly : schema.Orderly) {members arranged : List (Quoted × Json)}
    (distinct : members.Pairwise Apart) (order : members.Perm arranged)
    (formed : ∀ member ∈ members, member.1.WellFormed ∧ member.2.WellFormed) {seen : List String}
    {record result : ρ} (isRead : schema.readMembers seen record (.ofList members) = .ok result) :
    schema.readMembers seen record (.ofList arranged) = .ok result := by
  refine accepts_of_perm (fun members (state : List String × ρ) result =>
    schema.readMembers state.1 state.2 (.ofList members) = .ok result) ?_ ?_ order distinct formed
    (seen, record) isRead
  · intro member rest arranged each state result isRead
    obtain ⟨next, taken, isRead⟩ := readMembers_cons_eq_ok.1 isRead
    exact readMembers_cons_eq_ok.2 ⟨next, taken, each next result isRead⟩
  · intro first second rest _ _ _ state result isRead
    exact readMembers_swap orderly isRead

/-- A value and a rearranged one are taken alike. -/
theorem takes_iff (orderly : schema.Orderly) {key : Quoted} {value other : Json}
    (rearranged : Rearranged value other) (formed : value.WellFormed)
    (otherFormed : other.WellFormed) {state next : List String × ρ} :
    schema.Takes (key, value) state next ↔ schema.Takes (key, other) state next := by
  constructor
  · intro taken
    cases taken with
    | @fills name field seen record filled named found fresh fill_eq =>
        have stable := orderly.stable field (mem_of_field? found).1 record
        exact .fills named found fresh
          ((stable value other rearranged formed otherFormed filled).1 fill_eq)
    | skips named unknown allowed _ =>
        exact .skips named unknown allowed (skip_eq_ok other otherFormed)
  · intro taken
    cases taken with
    | @fills name field seen record filled named found fresh fill_eq =>
        have stable := orderly.stable field (mem_of_field? found).1 record
        exact .fills named found fresh
          ((stable value other rearranged formed otherFormed filled).2 fill_eq)
    | skips named unknown allowed _ =>
        exact .skips named unknown allowed (skip_eq_ok value formed)

theorem agree_readMembers (orderly : schema.Orderly) :
    (members others : Members) → Members.Rearranged members others → members.WellFormed →
      others.WellFormed → (seen : List String) → (record : ρ) →
      Agree (schema.readMembers seen record members) (schema.readMembers seen record others)
  | _, _, .closed, _, _, _, _ => .refl _
  | .cons _ value tail, .cons _ other others, .cons key first rest, formed, otherFormed, seen,
      record => by
      intro result
      rw [readMembers_cons_eq_ok, readMembers_cons_eq_ok]
      refine exists_congr fun next => and_congr ?_ ?_
      · exact takes_iff orderly first formed.2.1 otherFormed.2.1
      · exact agree_readMembers orderly tail others rest formed.2.2 otherFormed.2.2 next.1 next.2
          result

theorem agree_readItems (fields : List (Field ρ)) (stable : ∀ field ∈ fields, field.Stable)
    (items others : Items) (each : Items.Rearranged items others) (formed : items.WellFormed)
    (otherFormed : others.WellFormed) (position : Nat) (record : ρ) :
    Agree (schema.readItems position record fields items)
      (schema.readItems position record fields others) := by
  induction fields generalizing items others position record with
  | nil =>
      cases each with
      | closed => exact .refl _
      | cons _ _ => exact agree_of_refused (fun _ => nofun) fun _ => nofun
  | cons field fields ih =>
      rw [List.forall_mem_cons] at stable
      cases each with
      | closed => exact .refl _
      | cons first rest =>
          refine (stable.1 record _ _ first formed.1 otherFormed.1).bind fun filled => ?_
          exact ih stable.2 _ _ rest formed.2 otherFormed.2 (position + 1) filled

/-- Records are read alike from rearranged values. -/
theorem Orderly.stable_read {α : Type} [Scalar α] (orderly : schema.Orderly) :
    Json.Stable (schema.read α) :=
  .of_parts
    (fun items others each formed otherFormed =>
      agree_readItems schema.fields orderly.stable items others each formed otherFormed 0
        schema.blank)
    (fun members others each formed otherFormed =>
      agree_readMembers orderly members others each formed otherFormed [] schema.blank)
    fun _ _ distinct order formed _ isRead =>
      readMembers_perm orderly distinct order formed isRead

end Schema

end Records

end Json

end RtiAssembly
