/-!
# Maps over the nodes of the horizon

A finite map from node numbers, kept in ascending order of its keys.
-/

namespace RtiAssembly

/-- A finite map from node numbers. -/
structure NodeMap (β : Type) where
  entries : List (Nat × β)
  ascending : entries.Pairwise fun left right => left.1 < right.1

namespace NodeMap

variable {β γ : Type}

/-- The map without entries. -/
def empty : NodeMap β :=
  ⟨[], .nil⟩

/-- Put an entry at its place; an entry of the same key is replaced. -/
def place (key : Nat) (value : β) : List (Nat × β) → List (Nat × β)
  | [] => [(key, value)]
  | entry :: rest =>
      if key < entry.1 then
        (key, value) :: entry :: rest
      else if key = entry.1 then
        (key, value) :: rest
      else
        entry :: place key value rest

theorem mem_place {key : Nat} {value : β} {entries : List (Nat × β)} {entry : Nat × β}
    (mem : entry ∈ place key value entries) : entry = (key, value) ∨ entry ∈ entries := by
  induction entries with
  | nil => simpa [place] using mem
  | cons head rest ih =>
      unfold place at mem
      grind

theorem place_ascending (key : Nat) (value : β) {entries : List (Nat × β)}
    (ascending : entries.Pairwise fun left right => left.1 < right.1) :
    (place key value entries).Pairwise fun left right => left.1 < right.1 := by
  induction entries with
  | nil => simp [place]
  | cons head rest ih =>
      rw [List.pairwise_cons] at ascending
      unfold place
      split
      · next before =>
          refine List.pairwise_cons.2 ⟨fun entry mem => ?_, List.pairwise_cons.2 ascending⟩
          rcases List.mem_cons.1 mem with rfl | mem
          · exact before
          · exact Nat.lt_trans before (ascending.1 entry mem)
      · split
        · next same =>
            refine List.pairwise_cons.2 ⟨fun entry mem => ?_, ascending.2⟩
            rw [same]
            exact ascending.1 entry mem
        · refine List.pairwise_cons.2 ⟨fun entry mem => ?_, ih ascending.2⟩
          rcases mem_place mem with rfl | mem
          · show head.1 < key
            omega
          · exact ascending.1 entry mem

/-- The map with one entry put in or replaced. -/
def insert (map : NodeMap β) (key : Nat) (value : β) : NodeMap β :=
  ⟨place key value map.entries, place_ascending key value map.ascending⟩

/-- The value of a node. -/
def get? (map : NodeMap β) (key : Nat) : Option β :=
  (map.entries.find? fun entry => entry.1 == key).map Prod.snd

/-- The values in ascending order of their nodes. -/
def values (map : NodeMap β) : List β :=
  map.entries.map Prod.snd

/-- Whether the map has no entry. -/
def isEmpty (map : NodeMap β) : Bool :=
  map.entries.isEmpty

/-- The map with a function applied to every value that may also drop it. -/
def filterMap (f : Nat → β → Option γ) (map : NodeMap β) : NodeMap γ where
  entries := map.entries.filterMap fun entry => (f entry.1 entry.2).map (entry.1, ·)
  ascending := by
    refine List.Pairwise.filterMap _ (fun first second before => ?_) map.ascending
    intro left leftFrom right rightFrom
    obtain ⟨_, _, rfl⟩ := Option.map_eq_some_iff.1 leftFrom
    obtain ⟨_, _, rfl⟩ := Option.map_eq_some_iff.1 rightFrom
    exact before

/-- The map with a function applied to the value of one node, if it has one. -/
def modify (map : NodeMap β) (key : Nat) (f : β → β) : NodeMap β :=
  map.filterMap fun node value => some (if node = key then f value else value)

end NodeMap

end RtiAssembly
