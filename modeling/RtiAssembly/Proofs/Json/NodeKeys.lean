import RtiAssembly.Proofs.Json.Arrangement

/-!
# Maps over nodes in any order

A node has one spelling between quotes, so members of different names give
values to different nodes.  Entries of different nodes may be put into a map in
any order.
-/

namespace RtiAssembly

/-! ## Entries of different nodes -/

namespace NodeMap

variable {β : Type}

theorem place_comm {key other : Nat} (key_ne : key ≠ other) (value content : β)
    (entries : List (Nat × β)) :
    place key value (place other content entries) =
      place other content (place key value entries) := by
  induction entries with
  | nil => grind [place]
  | cons entry entries ih => grind [place]

theorem insert_comm {key other : Nat} (key_ne : key ≠ other) (value content : β)
    (map : NodeMap β) :
    (map.insert other content).insert key value = (map.insert key value).insert other content :=
  ext (place_comm key_ne value content map.entries)

end NodeMap

/-! ## Digits of a number -/

namespace Digit

theorem char_of_ofChar? {c : Char} {digit : Digit} (means : ofChar? c = some digit) :
    digit.char = c := by
  unfold ofChar? at means
  split at means
  · rename_i bounds
    cases means
    have sum_eq : 48 + (c.toNat - 48) = c.toNat := by omega
    rw [char, sum_eq, Char.ofNat_toNat]
  · contradiction

theorem value_ne_zero {digits : List Digit} (digits_ne : digits ≠ [])
    (head_ne : digits.head? ≠ some 0) : value digits ≠ 0 := by
  induction digits using List.reverseRecOn with
  | nil => contradiction
  | append_singleton digits digit ih =>
      rw [value_concat]
      cases digits with
      | nil =>
          have digit_ne : digit ≠ 0 := by
            rintro rfl
            exact head_ne rfl
          have val_ne : digit.val ≠ 0 := fun val_eq => digit_ne (Fin.ext val_eq)
          omega
      | cons first digits =>
          have positive := ih (List.cons_ne_nil _ _) head_ne
          omega

/-- Digits without a leading zero are those of the number that they denote. -/
theorem ofNat_value {digits : List Digit} (digits_ne : digits ≠ [])
    (leading_ne : ∀ next rest, digits ≠ 0 :: next :: rest) : ofNat (value digits) = digits := by
  induction digits using List.reverseRecOn with
  | nil => contradiction
  | append_singleton digits digit ih =>
      have digit_lt := digit.isLt
      rw [value_concat]
      cases digits with
      | nil =>
          unfold ofNat
          simp [value]
      | cons first digits =>
          have head_ne : first ≠ 0 := by
            rintro rfl
            cases digits with
            | nil => exact leading_ne digit [] rfl
            | cons second digits => exact leading_ne second (digits ++ [digit]) rfl
          have positive : value (first :: digits) ≠ 0 :=
            value_ne_zero (List.cons_ne_nil _ _) (by simpa using head_ne)
          have front : ofNat (value (first :: digits)) = first :: digits := by
            refine ih (List.cons_ne_nil _ _) fun next rest digits_eq => head_ne ?_
            exact (List.cons.inj digits_eq).1
          have quotient : (10 * value (first :: digits) + digit.val) / 10 =
              value (first :: digits) := by omega
          have remainder : (10 * value (first :: digits) + digit.val) % 10 = digit.val := by omega
          rw [ofNat, dif_neg (by omega)]
          simp only [quotient, remainder, front]

end Digit

namespace Json

/-! ## The spelling of a node -/

theorem takeDigits_spec (chars : List Char) :
    chars = (takeDigits chars).1.map Digit.char ++ (takeDigits chars).2 := by
  fun_induction takeDigits chars with
  | case1 => rfl
  | case2 c rest digit means ih =>
      rw [List.map_cons, List.cons_append, Digit.char_of_ofChar? means, ← ih]
  | case3 c rest _ => rfl

theorem scanSign_of_positive {chars : List Char} (positive : (scanSign chars).1 = false) :
    (scanSign chars).2 = chars := by
  unfold scanSign at positive ⊢
  split at positive
  · contradiction
  · rfl

theorem scanWhole_eq_ok {chars rest : List Char} {whole : List Digit}
    (scanned : scanWhole chars = .ok (whole, rest)) :
    chars = whole.map Digit.char ++ rest ∧ whole ≠ [] ∧
      ∀ next others, whole ≠ 0 :: next :: others := by
  have split_eq := takeDigits_spec chars
  unfold scanWhole requireDigits at scanned
  generalize takeDigits chars = taken at split_eq scanned
  obtain ⟨digits, behind⟩ := taken
  cases digits with
  | nil => cases behind <;> contradiction
  | cons first digits =>
      dsimp only at scanned
      split at scanned
      · contradiction
      · rename_i leading_ne
        cases scanned
        exact ⟨split_eq, List.cons_ne_nil _ _, leading_ne⟩

theorem scanFraction_none {chars rest : List Char}
    (scanned : scanFraction chars = .ok (none, rest)) : rest = chars := by
  unfold scanFraction at scanned
  split at scanned
  · obtain ⟨⟨_, _⟩, _, ⟨⟩⟩ := Reading.map_eq_ok.1 scanned
  · cases scanned
    rfl

theorem scanExponent_none {chars rest : List Char}
    (scanned : scanExponent chars = .ok (none, rest)) : rest = chars := by
  unfold scanExponent at scanned
  split at scanned
  · cases scanned
    rfl
  · split at scanned
    · obtain ⟨⟨_, _⟩, _, ⟨⟩⟩ := Reading.map_eq_ok.1 scanned
    · cases scanned
      rfl

/-- A numeral without sign, point and exponent is a digit sequence. -/
theorem scanNumeral_whole {chars rest : List Char} {whole : List Digit}
    (scanned : scanNumeral chars = .ok (⟨false, whole, none, none⟩, rest)) :
    chars = whole.map Digit.char ++ rest ∧ whole ≠ [] ∧
      ∀ next others, whole ≠ 0 :: next :: others := by
  unfold scanNumeral at scanned
  split at scanned
  · contradiction
  · rename_i digits afterWhole wholeScanned
    split at scanned
    · contradiction
    · rename_i fraction afterFraction fractionScanned
      split at scanned
      · contradiction
      · rename_i exponent behind exponentScanned
        obtain ⟨numeral_eq, rfl⟩ := Prod.mk.inj (Except.ok.inj scanned)
        obtain ⟨positive, rfl, rfl, rfl⟩ := Numeral.mk.inj numeral_eq
        rw [scanSign_of_positive positive] at wholeScanned
        rw [scanExponent_none exponentScanned, scanFraction_none fractionScanned]
        exact scanWhole_eq_ok wholeScanned

namespace Quoted

/-- A string that starts with digits up to its end is these digits. -/
theorem units_of_leadOf {digits : List Digit} {rest : List Char} {units : List StringUnit}
    (writable : ∀ unit ∈ units, ∃ text, UnitText unit text)
    (lead_eq : leadOf .closed units = digits.map Digit.char ++ '"' :: rest) :
    units = digits.map fun digit => .plain digit.char := by
  have other (digit : Digit) : digit.char ≠ '"' ∧ digit.char ≠ '\\' := by
    revert digit
    decide
  induction digits generalizing units with
  | nil =>
      cases units with
      | nil => rfl
      | cons unit units =>
          cases unit with
          | plain c =>
              obtain ⟨_, ⟨noQuote, _, _⟩⟩ := writable _ List.mem_cons_self
              exact absurd (List.cons.inj lead_eq).1 noQuote
          | escaped c => exact absurd (List.cons.inj lead_eq).1 (by decide)
          | code c => exact absurd (List.cons.inj lead_eq).1 (by decide)
  | cons digit digits ih =>
      cases units with
      | nil => exact absurd (List.cons.inj lead_eq).1.symm (other digit).1
      | cons unit units =>
          cases unit with
          | plain c =>
              obtain ⟨head_eq, tail_eq⟩ := List.cons.inj lead_eq
              have rest_eq := ih (fun unit mem => writable unit (List.mem_cons_of_mem _ mem)) tail_eq
              rw [List.map_cons, head_eq, ← rest_eq]
          | escaped c => exact absurd (List.cons.inj lead_eq).1.symm (other digit).2
          | code c => exact absurd (List.cons.inj lead_eq).1.symm (other digit).2

theorem decode_plain (chars : List Char) :
    decode .closed (chars.map .plain) = .ok chars := by
  induction chars with
  | nil => rfl
  | cons c chars ih =>
      rw [List.map_cons, decode, ih]
      rfl

end Quoted

section Values

variable {α : Type} [Scalar α]

theorem integer?_of_readSize {written : Numeral} {size : Nat}
    (isRead : readSize α (.numeral written) = .ok size) :
    written.integer? = some (.ofNat size) := by
  unfold readSize at isRead
  dsimp only at isRead
  split at isRead
  · cases isRead
    assumption
  · contradiction
  · exact absurd isRead (unexpected_ne_ok _ _ _)

/-- The name of a member that gives a value to a node is the number of the node. -/
theorem text?_of_readNode {key : Quoted} (formed : key.WellFormed) {node : Nat}
    (isRead : readNode α key = .ok node) :
    key.text? = .ok (Digit.text (Digit.ofNat node)) := by
  obtain ⟨units, ending⟩ := key
  obtain ⟨rfl, writable⟩ := formed
  unfold readNode at isRead
  dsimp only at isRead
  split at isRead
  · split at isRead
    · contradiction
    · rename_i written rest scanned
      obtain ⟨size, sizeRead, isRead⟩ := Reading.bind_eq_ok.1 isRead
      split at isRead
      · rename_i closes
        cases isRead
        obtain ⟨tail, rfl⟩ : ∃ tail, rest = '"' :: tail := by
          cases rest with
          | nil => contradiction
          | cons c tail =>
              cases closes
              exact ⟨tail, rfl⟩
        obtain ⟨whole, rfl, value_eq, _⟩ := whole_of_integer? (integer?_of_readSize sizeRead)
        obtain ⟨lead_eq, whole_ne, leading_ne⟩ := scanNumeral_whole scanned
        have units_eq := Quoted.units_of_leadOf writable lead_eq
        have decoded := Quoted.decode_plain (whole.map Digit.char)
        rw [List.map_map] at decoded
        rw [Quoted.text?, units_eq]
        change (Quoted.decode .closed (whole.map (.plain ∘ Digit.char))).map String.ofList = _
        rw [decoded, ← value_eq, Digit.ofNat_value whole_ne leading_ne]
        rfl
      · contradiction
  · contradiction

/-- Members of different names give values to different nodes. -/
theorem node_ne {first second : Quoted × Json} (apart : Apart first second)
    (formed : first.1.WellFormed) (otherFormed : second.1.WellFormed) {node other : Nat}
    (isRead : readNode α first.1 = .ok node) (otherRead : readNode α second.1 = .ok other) :
    node ≠ other := by
  rintro rfl
  exact apart _ (text?_of_readNode formed isRead) (text?_of_readNode otherFormed otherRead)

/-! ## Reading the members -/

variable {β : Type} {read : Json → Reading β}

theorem readNodes_cons_eq_ok {map result : NodeMap β} {key : Quoted} {value : Json}
    {tail : Members} :
    Members.readNodes α read map (.cons key value tail) = .ok result ↔
      ∃ node, readNode α key = .ok node ∧ ∃ entry, read value = .ok entry ∧
        Members.readNodes α read (map.insert node entry) tail = .ok result := by
  simp only [Members.readNodes, Reading.bind_eq_ok]

/-- Members of different names may come in any order. -/
theorem readNodes_perm {members arranged : List (Quoted × Json)}
    (distinct : members.Pairwise Apart) (order : members.Perm arranged)
    (formed : ∀ member ∈ members, member.1.WellFormed ∧ member.2.WellFormed)
    {map result : NodeMap β}
    (isRead : Members.readNodes α read map (.ofList members) = .ok result) :
    Members.readNodes α read map (.ofList arranged) = .ok result := by
  refine accepts_of_perm (fun members (map : NodeMap β) result =>
    Members.readNodes α read map (.ofList members) = .ok result) ?_ ?_ order distinct formed map
    isRead
  · intro member rest arranged each map result isRead
    obtain ⟨node, nodeRead, entry, entryRead, isRead⟩ := readNodes_cons_eq_ok.1 isRead
    exact readNodes_cons_eq_ok.2 ⟨node, nodeRead, entry, entryRead, each _ result isRead⟩
  · intro first second rest apart formed otherFormed map result isRead
    obtain ⟨node, nodeRead, entry, entryRead, isRead⟩ := readNodes_cons_eq_ok.1 isRead
    obtain ⟨other, otherRead, content, contentRead, isRead⟩ := readNodes_cons_eq_ok.1 isRead
    refine readNodes_cons_eq_ok.2 ⟨other, otherRead, content, contentRead,
      readNodes_cons_eq_ok.2 ⟨node, nodeRead, entry, entryRead, ?_⟩⟩
    rw [NodeMap.insert_comm (node_ne apart formed otherFormed nodeRead otherRead)]
    exact isRead

theorem agree_readNodes (stable : Stable read) :
    (members others : Members) → Members.Rearranged members others → members.WellFormed →
      others.WellFormed → (map : NodeMap β) →
      Reading.Agree (members.readNodes α read map) (others.readNodes α read map)
  | _, _, .closed, _, _, _ => .refl _
  | .cons _ value tail, .cons _ other others, .cons key first rest, formed, otherFormed, map => by
      refine (Reading.Agree.refl (readNode α key)).bind fun node => ?_
      refine (stable value other first formed.2.1 otherFormed.2.1).bind fun entry => ?_
      exact agree_readNodes stable tail others rest formed.2.2 otherFormed.2.2 _

/-- Maps over nodes are read alike from rearranged values. -/
theorem stable_readNodeMap (stable : Stable read) : Stable (readNodeMap α read) :=
  .of_parts (fun _ _ _ _ _ => Reading.agree_of_refused (fun _ => nofun) fun _ => nofun)
    (fun members others each formed otherFormed =>
      agree_readNodes stable members others each formed otherFormed .empty)
    fun _ _ distinct order formed _ isRead => readNodes_perm distinct order formed isRead

end Values

end Json

end RtiAssembly
