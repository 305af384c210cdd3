import DeclarativeSql.Proofs.Json.Records

/-!
# Decoding what was written

Two things are shown of every decoder. It undoes the writing of its values, which is stated for
each where it is proved. And its values are written no deeper than the tree they were decoded
from, `NoDeeper`, up to the containers that are written even for what was absent.
-/

namespace DeclarativeSql

/-- Decoded values stay within the limit of their tree, if that is not below `least`. -/
structure NoDeeper (least : Nat) (decode : Node → Decoded α) (encode : α → Json) : Prop where
  within : ∀ {node value limit}, decode node = .ok value → node.Within limit → least ≤ limit →
    (encode value).node.Within limit

namespace Node

theorem asNumber_ok {node : Node} {value : Number} :
    node.asNumber = .ok value ↔ node = .number value := by
  cases node <;> simp [asNumber]

theorem asOption_none {decode : Node → Decoded α} {node : Node}
    (h : node.asOption decode = .ok none) : node = .null := by
  unfold asOption at h
  split at h
  · rfl
  · obtain ⟨value, _, hv⟩ := map_ok.mp h
    cases hv

theorem asOption_some {decode : Node → Decoded α} {node : Node} {value : α} :
    node.asOption decode = .ok (some value) ↔ node ≠ .null ∧ decode node = .ok value := by
  unfold asOption
  split
  · simp
  · rename_i hn
    have hne : node ≠ .null := hn
    simp [map_ok, hne]

theorem asOption_container {decode : Node → Decoded α} {node : Node} {value : α}
    (hc : node.isContainer = true) (h : decode node = .ok value) :
    node.asOption decode = .ok (some value) := by
  refine asOption_some.mpr ⟨?_, h⟩
  rintro rfl
  cases hc

theorem asList_ok {decode : Node → Decoded α} {node : Node} {values : List α} :
    node.asList decode = .ok values ↔
      ∃ items, node = .array items ∧ List.Forall₂ (fun item value => decode item = .ok value)
        items values := by
  cases node <;> simp [asList, mapM_ok]

theorem asList_mem {decode : Node → Decoded α} {node : Node} {values : List α}
    (h : node.asList decode = .ok values) {value : α} (hm : value ∈ values) :
    ∃ item ∈ node.children, decode item = .ok value := by
  obtain ⟨items, rfl, hv⟩ := asList_ok.mp h
  clear h
  induction hv with
  | nil => cases hm
  | cons hd _ ih =>
    obtain rfl | hm := List.mem_cons.mp hm
    · exact ⟨_, List.mem_cons_self, hd⟩
    · obtain ⟨item, hi, hd⟩ := ih hm
      exact ⟨item, List.mem_cons_of_mem _ hi, hd⟩

/-- The decoder of the items need only undo the writing of these values. -/
theorem asList_nodes {decode : Node → Decoded α} {encode : α → Json} {values : List α}
    (h : ∀ value ∈ values, decode (encode value).node = .ok value) :
    (Json.array (values.map encode)).node.asList decode = .ok values := by
  refine asList_ok.mpr ⟨_, rfl, ?_⟩
  rw [Json.nodes_eq_map, List.map_map, List.forall₂_map_left_iff, List.forall₂_same]
  exact h

end Node

theorem NoDeeper.option {decode : Node → Decoded α} {encode : α → Json}
    (h : NoDeeper least decode encode) :
    NoDeeper least (Node.asOption decode) fun value => value.elim .null encode := by
  refine ⟨fun {node value limit} hd hw hl => ?_⟩
  cases value with
  | none => exact .null
  | some value => exact h.within (Node.asOption_some.mp hd).2 hw hl

theorem NoDeeper.list {decode : Node → Decoded α} {encode : α → Json}
    (h : NoDeeper 0 decode encode) :
    NoDeeper 0 (Node.asList decode) fun values => .array (values.map encode) := by
  refine ⟨fun {node values limit} hd hw _ => ?_⟩
  obtain ⟨items, rfl, _⟩ := Node.asList_ok.mp hd
  obtain ⟨inner, rfl, hi⟩ := hw.inside rfl
  rw [Json.within_array, List.forall_mem_map]
  intro value hm
  obtain ⟨item, hitem, hd⟩ := Node.asList_mem hd hm
  exact h.within hd (hi item hitem) (Nat.zero_le _)

-- ---------------------------------------------------------------------------
-- Fields
-- ---------------------------------------------------------------------------

theorem Field.Yields.of_required {name : String} {decode : Node → Decoded α}
    {trees : List Node} {value : α} (h : (required name decode).Yields trees value) :
    ∃ tree ∈ trees, decode tree = .ok value := by
  obtain h | h := h
  · cases h
  · exact h

/-- A value of an optional field is decoded from a tree that is not `null`. -/
theorem Field.Yields.of_some {name : String} {decode : Node → Decoded α} {trees : List Node}
    {value : α} (h : (optional name (Node.asOption decode) none).Yields trees (some value)) :
    ∃ tree ∈ trees, tree ≠ .null ∧ decode tree = .ok value := by
  obtain h | ⟨tree, ht, h⟩ := h
  · cases h
  · exact ⟨tree, ht, Node.asOption_some.mp h⟩

/-- A field is written no deeper than the trees its value was looked for in. -/
theorem NoDeeper.yields {field : Field α} {encode : α → Json} {trees : List Node} {value : α}
    (h : NoDeeper least field.decode encode) (hy : field.Yields trees value)
    (ht : ∀ tree ∈ trees, tree.Within limit) (hl : least ≤ limit)
    (ha : ∀ value, field.absent = some value → (encode value).node.Within limit) :
    (encode value).node.Within limit := by
  obtain hv | ⟨tree, hm, hd⟩ := hy
  · exact ha value hv
  · exact h.within hd (ht tree hm) hl

theorem NoDeeper.yields_some {name : String} {decode : Node → Decoded α} {encode : α → Json}
    {trees : List Node} {value : α} (h : NoDeeper least decode encode)
    (hy : (optional name (Node.asOption decode) none).Yields trees (some value))
    (ht : ∀ tree ∈ trees, tree.Within limit) (hl : least ≤ limit) :
    (encode value).node.Within limit := by
  obtain ⟨tree, hm, -, hd⟩ := hy.of_some
  exact h.within hd (ht tree hm) hl

end DeclarativeSql
