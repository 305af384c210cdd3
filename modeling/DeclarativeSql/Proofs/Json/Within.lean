import DeclarativeSql.Proofs.Json.Values

/-!
# Bounds on trees

`Node.Within limit`: at most `limit` containers stand inside each other and every whole number
has 64 bits. `read_within` says that every tree that is read is so, and `Within.depth_le` and
`Within.held` what that means for a value that is written.
-/

namespace DeclarativeSql

/-- A whole number has 64 bits, with or without a sign. -/
def Number.IsHeld : Number → Prop
  | .int value => IsWord value
  | .float _ => True

inductive Node.Within : Nat → Node → Prop
  | null : Within limit .null
  | bool (value : Bool) : Within limit (.bool value)
  | number (h : value.IsHeld) : Within limit (.number value)
  | string (value : String) : Within limit (.string value)
  | unreadable : Within limit .unreadable
  | broken : Within limit .broken
  | array (h : ∀ item ∈ items, Within limit item) : Within (limit + 1) (.array items)
  | object (h : ∀ member ∈ members, Within limit member.2) : Within (limit + 1) (.object members)

namespace Node

/-- The trees directly inside a container. -/
def children : Node → List Node
  | .array items => items
  | .object members => members.map Prod.snd
  | _ => []

def isContainer : Node → Bool
  | .array _ | .object _ => true
  | _ => false

theorem Within.inside {node : Node} (h : node.Within limit) (hc : node.isContainer = true) :
    ∃ inner, limit = inner + 1 ∧ ∀ child ∈ node.children, child.Within inner := by
  cases h with
  | array h => exact ⟨_, rfl, h⟩
  | object h => exact ⟨_, rfl, List.forall_mem_map.mpr h⟩
  | _ => simp [isContainer] at hc

theorem within_array {items : List Node} :
    (Node.array items).Within (limit + 1) ↔ ∀ item ∈ items, item.Within limit :=
  ⟨fun | .array h => h, .array⟩

theorem within_object {members : List Member} :
    (Node.object members).Within (limit + 1) ↔ ∀ member ∈ members, member.2.Within limit :=
  ⟨fun | .object h => h, .object⟩

end Node

namespace Json

-- ---------------------------------------------------------------------------
-- Trees that are read
-- ---------------------------------------------------------------------------

theorem close_within {level : Nat} {node : Node} (rest : Option (List Char))
    (h : level < Node.maxNesting → node.Within (Node.maxNesting - level)) :
    (close level node rest).1.Within (Node.maxNesting - level) := by
  unfold close
  split
  · exact h ‹_›
  · split
    · exact .unreadable
    · exact .broken

theorem readString_within (s : List Char) (limit : Nat) : (readString s).1.Within limit := by
  unfold readString
  split
  · exact .broken
  · split
    · exact .string _
    · exact .unreadable

theorem readNumber_within (s : List Char) (limit : Nat) : (readNumber s).1.Within limit := by
  unfold readNumber
  split
  · exact .broken
  · split
    · rename_i value h
      cases value with
      | int value => exact .number (Number.isWord_of_ofLiteral? h)
      | float value => exact .number trivial
    · exact .unreadable

-- the limit of a container is one more than that of what stands in it
theorem inner_limit {level : Nat} (h : level < Node.maxNesting) :
    Node.maxNesting - level = Node.maxNesting - (level + 1) + 1 := by
  omega

mutual
theorem readValue_within : (fuel level : Nat) → (s : List Char) →
    (readValue fuel level s).1.Within (Node.maxNesting - level)
  | 0, _, _ => .broken
  | fuel + 1, level, s => by
    rw [readValue]
    split
    · exact .null
    · exact .bool true
    · exact .bool false
    · exact readString_within _ _
    · split
      · exact close_within _ fun h => inner_limit h ▸ .array nofun
      · exact close_within _ fun h => inner_limit h ▸ .array (readItems_within fuel (level + 1) _)
    · split
      · exact close_within _ fun h => inner_limit h ▸ .object nofun
      · exact close_within _ fun h =>
          inner_limit h ▸ .object (readMembers_within fuel (level + 1) _)
    · exact readNumber_within _ _
theorem readItems_within : (fuel level : Nat) → (s : List Char) →
    ∀ item ∈ (readItems fuel level s).1, item.Within (Node.maxNesting - level)
  | 0, _, _ => List.forall_mem_singleton.mpr .broken
  | fuel + 1, level, s => by
    have hv := readValue_within fuel level s
    rw [readItems]
    dsimp only
    split
    · exact List.forall_mem_singleton.mpr hv
    · split
      · exact List.forall_mem_cons.mpr ⟨hv, readItems_within fuel level _⟩
      · exact List.forall_mem_singleton.mpr hv
      · exact List.forall_mem_cons.mpr ⟨hv, List.forall_mem_singleton.mpr .broken⟩
theorem readMembers_within : (fuel level : Nat) → (s : List Char) →
    ∀ member ∈ (readMembers fuel level s).1, member.2.Within (Node.maxNesting - level)
  | 0, _, _ => List.forall_mem_singleton.mpr .broken
  | fuel + 1, level, s => by
    rw [readMembers]
    split
    · split
      · exact List.forall_mem_singleton.mpr .broken
      · split
        · rename_i rest _
          have hv := readValue_within fuel level rest
          dsimp only
          split
          · exact List.forall_mem_singleton.mpr hv
          · split
            · exact List.forall_mem_cons.mpr ⟨hv, readMembers_within fuel level _⟩
            · exact List.forall_mem_singleton.mpr hv
            · exact List.forall_mem_cons.mpr ⟨hv, List.forall_mem_singleton.mpr .broken⟩
        · exact List.forall_mem_singleton.mpr .broken
    · exact List.forall_mem_singleton.mpr .broken
end

theorem read_within (text : String) : (read text).1.Within Node.maxNesting :=
  readValue_within (fuelFor text.toList) 0 text.toList

-- ---------------------------------------------------------------------------
-- Values that are written
-- ---------------------------------------------------------------------------

@[simp] theorem within_null : Json.null.node.Within limit := .null

@[simp] theorem within_bool (value : Bool) : (Json.bool value).node.Within limit := .bool value

@[simp] theorem within_string (value : String) : (Json.string value).node.Within limit :=
  .string value

theorem within_number {value : Number} : (Json.number value).node.Within limit ↔ value.IsHeld :=
  ⟨fun | .number h => h, .number⟩

theorem within_array {items : List Json} :
    (Json.array items).node.Within (limit + 1) ↔ ∀ item ∈ items, item.node.Within limit := by
  rw [node, nodes_eq_map, Node.within_array, List.forall_mem_map]

theorem within_object {members : List (String × Json)} :
    (Json.object members).node.Within (limit + 1) ↔
      ∀ member ∈ members, member.2.node.Within limit := by
  rw [node, memberNodes_eq_map, Node.within_object, List.forall_mem_map]

mutual
theorem depth_le_of_within : (value : Json) → value.node.Within limit → value.depth ≤ limit
  | .null, _ | .bool _, _ | .number _, _ | .string _, _ => Nat.zero_le _
  | .array items, .array h => Nat.succ_le_succ (depthOfItems_le_of_within items h)
  | .object members, .object h => Nat.succ_le_succ (depthOfMembers_le_of_within members h)
theorem depthOfItems_le_of_within : (items : List Json) →
    (∀ node ∈ nodes items, node.Within limit) → depthOfItems items ≤ limit
  | [], _ => Nat.zero_le _
  | item :: rest, h =>
    have ⟨hi, hr⟩ := List.forall_mem_cons.mp h
    Nat.max_le.mpr ⟨depth_le_of_within item hi, depthOfItems_le_of_within rest hr⟩
theorem depthOfMembers_le_of_within : (members : List (String × Json)) →
    (∀ member ∈ memberNodes members, member.2.Within limit) → depthOfMembers members ≤ limit
  | [], _ => Nat.zero_le _
  | member :: rest, h =>
    have ⟨hm, hr⟩ := List.forall_mem_cons.mp h
    Nat.max_le.mpr ⟨depth_le_of_within member.2 hm, depthOfMembers_le_of_within rest hr⟩
end

mutual
theorem held_of_within : (value : Json) → value.node.Within limit →
    ∀ number ∈ value.numbers, number.IsHeld
  | .null, _ | .bool _, _ | .string _, _ => nofun
  | .number _, .number h => List.forall_mem_singleton.mpr h
  | .array items, .array h => heldOfItems_of_within items h
  | .object members, .object h => heldOfMembers_of_within members h
theorem heldOfItems_of_within : (items : List Json) →
    (∀ node ∈ nodes items, node.Within limit) →
      ∀ number ∈ numbersOfItems items, number.IsHeld
  | [], _ => nofun
  | item :: rest, h =>
    have ⟨hi, hr⟩ := List.forall_mem_cons.mp h
    List.forall_mem_append.mpr ⟨held_of_within item hi, heldOfItems_of_within rest hr⟩
theorem heldOfMembers_of_within : (members : List (String × Json)) →
    (∀ member ∈ memberNodes members, member.2.Within limit) →
      ∀ number ∈ numbersOfMembers members, number.IsHeld
  | [], _ => nofun
  | member :: rest, h =>
    have ⟨hm, hr⟩ := List.forall_mem_cons.mp h
    List.forall_mem_append.mpr ⟨held_of_within member.2 hm, heldOfMembers_of_within rest hr⟩
end

end Json

end DeclarativeSql
