import DeclarativeSql.Proofs.Json.Decoding
import DeclarativeSql.Wire.Predicate

/-!
# Conditions and predicates read again

Conditions and predicates, in both of their written forms, are decoded to what they were
written from, and are written no deeper than they were read.
-/

namespace DeclarativeSql

open Fields (decode_ok ofMembers_of_written)

-- ---------------------------------------------------------------------------
-- Conditions
-- ---------------------------------------------------------------------------

namespace Value

/-- A value has only one tree. -/
theorem ofNode_ok {node : Node} {value : Value} :
    ofNode node = .ok value ↔ node = value.toJson.node := by
  constructor
  · intro h
    obtain ⟨_, _, h⟩ := bind_ok.mp h
    cases node <;> cases h <;> rfl
  · rintro rfl
    cases value <;> rfl

theorem noDeeper : NoDeeper 0 ofNode toJson :=
  ⟨fun hd hw _ => ofNode_ok.mp hd ▸ hw⟩

end Value

namespace ConditionOptions

theorem ofNode_toJson (options : ConditionOptions) : ofNode options.toJson.node = .ok options :=
  rfl

theorem noDeeper : NoDeeper 0 ofNode toJson := by
  refine ⟨fun {node options limit} hd hw _ => ?_⟩
  obtain ⟨row, hr, _⟩ := bind_ok.mp hd
  obtain ⟨inner, rfl, _⟩ := hw.inside (decode_ok hr).1
  rw [toJson, Json.within_object]
  simp

end ConditionOptions

namespace Condition

theorem written_members (condition : Condition) :
    Fields.Written fields (Json.memberNodes condition.members)
      (condition.column, condition.operator, condition.value, condition.options, ()) := by
  obtain ⟨column, operator, value, options⟩ := condition
  have hv : Value.ofNode value.toJson.node = .ok value := Value.ofNode_ok.mpr rfl
  cases options with
  | none => exact .present rfl <| .present rfl <| .present hv <| .absent rfl .nil
  | some options =>
    have ho : options.toJson.node.asOption ConditionOptions.ofNode = .ok (some options) :=
      Node.asOption_container rfl options.ofNode_toJson
    exact .present rfl <| .present rfl <| .present hv <| .present ho .nil

theorem ofNode_toJson (condition : Condition) : ofNode condition.toJson.node = .ok condition := by
  have hm := ofMembers_of_written condition.written_members (by decide) false
  rw [ofNode, toJson, Json.node, Fields.decode, hm]
  rfl

theorem noDeeper : NoDeeper 0 ofNode toJson := by
  refine ⟨fun {node condition limit} hd hw _ => ?_⟩
  obtain ⟨⟨column, operator, value, options, _⟩, hr, hd⟩ := bind_ok.mp hd
  cases hd
  obtain ⟨hc, -, -, hv, ho, -⟩ := decode_ok hr
  obtain ⟨inner, rfl, hi⟩ := hw.inside hc
  have hvalue := Value.noDeeper.yields hv hi (Nat.zero_le _) fun _ h => by cases h; exact .null
  rw [toJson, Json.within_object]
  cases options with
  | none => simp [members, hvalue]
  | some options =>
    have hoptions := ConditionOptions.noDeeper.yields_some ho hi (Nat.zero_le _)
    simp [members, hvalue, hoptions]

end Condition

-- ---------------------------------------------------------------------------
-- Under `when`, `and` and `or`
-- ---------------------------------------------------------------------------

namespace Predicate

theorem ofNode_when (value : Node) :
    ofNode (.object [(some "when", value)]) = (Condition.ofNode value).map .leaf := by
  rw [ofNode, if_pos rfl]
  cases Condition.ofNode value <;> rfl

theorem ofNode_connective (connective : Connective) (value : Node) :
    ofNode (.object [(some connective.name, value)]) =
      (groupOfNode value).map (.group connective) := by
  cases connective <;> simp only [Connective.name, ofNode] <;> cases groupOfNode value <;> rfl

mutual
theorem ofNode_toJson : (predicate : Predicate) → ofNode predicate.toJson.node = .ok predicate
  | .leaf condition => by
    rw [toJson, Json.node, Json.memberNodes, Json.memberNodes, ofNode_when,
      condition.ofNode_toJson]
    rfl
  | .group connective children => by
    rw [toJson, Json.node, Json.memberNodes, Json.memberNodes, ofNode_connective,
      groupOfNode_toJson children]
    rfl
theorem groupOfNode_toJson : (children : List Predicate) →
    groupOfNode (Json.array (allToJson children)).node = .ok children
  | [] => rfl
  | child :: rest => by
    have hr := groupOfNode_toJson rest
    rw [Json.node, groupOfNode] at hr ⊢
    rw [allToJson, Json.nodes, ofNodes, ofNode_toJson child, hr]
    rfl
end

/-- What follows the only member may refuse the value but does not change it. -/
theorem ok_of_only {x : Decoded α} {rest : List Member} {value : α}
    (h : (x >>= fun value => if rest.isEmpty then pure value else throw .malformed) =
      .ok value) : x = .ok value := by
  obtain ⟨other, hx, h⟩ := bind_ok.mp h
  split at h
  · cases h
    exact hx
  · cases h

theorem ofNode_ok {name : String} {value : Node} {rest : List Member} {predicate : Predicate}
    (h : ofNode (.object ((some name, value) :: rest)) = .ok predicate) :
    (∃ condition, Condition.ofNode value = .ok condition ∧ predicate = .leaf condition) ∨
      ∃ connective children, groupOfNode value = .ok children ∧
        predicate = .group connective children := by
  rw [ofNode] at h
  split at h
  · obtain ⟨condition, hc, rfl⟩ := map_ok.mp (ok_of_only h)
    exact .inl ⟨condition, hc, rfl⟩
  · split at h
    · obtain ⟨children, hc, rfl⟩ := map_ok.mp (ok_of_only h)
      exact .inr ⟨.and, children, hc, rfl⟩
    · split at h
      · obtain ⟨children, hc, rfl⟩ := map_ok.mp (ok_of_only h)
        exact .inr ⟨.or, children, hc, rfl⟩
      · cases h

mutual
theorem ofNode_within : (node : Node) → (limit : Nat) → (predicate : Predicate) →
    ofNode node = .ok predicate → node.Within limit → predicate.toJson.node.Within limit
  | .object ((some name, value) :: rest), limit, predicate, h, hw => by
    obtain ⟨inner, rfl, hi⟩ := hw.inside rfl
    have hv : value.Within inner := hi value List.mem_cons_self
    obtain ⟨condition, hc, rfl⟩ | ⟨connective, children, hc, rfl⟩ := ofNode_ok h
    · rw [toJson, Json.within_object, List.forall_mem_singleton]
      exact Condition.noDeeper.within hc hv (Nat.zero_le _)
    · rw [toJson, Json.within_object, List.forall_mem_singleton]
      exact groupOfNode_within value inner children hc hv
  | .object [], _, _, h, _ | .object ((none, _) :: _), _, _, h, _ | .null, _, _, h, _
  | .bool _, _, _, h, _ | .number _, _, _, h, _ | .array _, _, _, h, _ | .unreadable, _, _, h, _
  | .broken, _, _, h, _ => by cases h
  | .string name, _, _, h, _ => by
    rw [ofNode] at h
    split at h <;> cases h
theorem groupOfNode_within : (node : Node) → (limit : Nat) → (children : List Predicate) →
    groupOfNode node = .ok children → node.Within limit →
      (Json.array (allToJson children)).node.Within limit
  | .array items, limit, children, h, hw => by
    obtain ⟨inner, rfl, hi⟩ := hw.inside rfl
    exact Json.within_array.mpr (ofNodes_within items inner children h hi)
  | .object _, _, _, h, _ | .null, _, _, h, _ | .bool _, _, _, h, _ | .number _, _, _, h, _
  | .string _, _, _, h, _ | .unreadable, _, _, h, _ | .broken, _, _, h, _ => by cases h
theorem ofNodes_within : (items : List Node) → (limit : Nat) → (children : List Predicate) →
    ofNodes items = .ok children → (∀ item ∈ items, item.Within limit) →
      ∀ child ∈ allToJson children, child.node.Within limit
  | [], _, children, h, _ => by
    cases h
    nofun
  | item :: rest, limit, children, h, hi => by
    rw [ofNodes] at h
    obtain ⟨child, hc, h⟩ := bind_ok.mp h
    obtain ⟨others, ho, h⟩ := bind_ok.mp h
    cases h
    obtain ⟨hitem, hi⟩ := List.forall_mem_cons.mp hi
    exact List.forall_mem_cons.mpr
      ⟨ofNode_within item limit child hc hitem, ofNodes_within rest limit others ho hi⟩
end

theorem group_noDeeper : NoDeeper 0 groupOfNode fun children => .array (allToJson children) :=
  ⟨fun hd hw _ => groupOfNode_within _ _ _ hd hw⟩

-- ---------------------------------------------------------------------------
-- In row filters
-- ---------------------------------------------------------------------------

theorem membersGroup?_none {name : String} {members : List Member}
    (h : ∀ node, (some name, node) ∉ members) : membersGroup? name members = none := by
  induction members with
  | nil => rfl
  | cons member rest ih =>
    obtain ⟨key, node⟩ := member
    have hk : key ≠ some name := fun he => h node (he ▸ List.mem_cons_self)
    rw [membersGroup?, if_neg hk]
    exact ih fun node hm => h node (List.mem_cons_of_mem _ hm)

theorem membersGroup?_only (name : String) (value : Node) :
    membersGroup? name [(some name, value)] = filterGroup? value := by
  rw [membersGroup?, if_pos rfl]
  rfl

/-- The members of a condition are not taken for those of a group. -/
theorem filterOfNode?_condition (condition : Condition) :
    filterOfNode? condition.toJson.node = some (.leaf condition) := by
  have hnone : ∀ name, name ∉ Condition.fields.names →
      membersGroup? name (Json.memberNodes condition.members) = none := fun name hn =>
    membersGroup?_none fun _ hm => hn (condition.written_members.name_mem hm)
  have hc := condition.ofNode_toJson
  rw [Condition.toJson, Json.node] at hc ⊢
  rw [filterOfNode?, hnone "and" (by decide), hnone "or" (by decide), hc]
  rfl

mutual
theorem filterOfNode?_filterToJson : (predicate : Predicate) →
    filterOfNode? predicate.filterToJson.node = some predicate
  | .leaf condition => filterOfNode?_condition condition
  | .group .and children => by
    have hc := filterGroup?_filtersToJson children
    simp only [filterToJson, filterMembers, Connective.name, Json.node, Json.memberNodes,
      filterOfNode?, membersGroup?_only] at hc ⊢
    rw [hc]
  | .group .or children => by
    have hc := filterGroup?_filtersToJson children
    have hand : membersGroup? "and" [(some "or", (Json.array (filtersToJson children)).node)] =
        none := membersGroup?_none (by simp)
    simp only [filterToJson, filterMembers, Connective.name, Json.node, Json.memberNodes,
      filterOfNode?, membersGroup?_only] at hc hand ⊢
    rw [hand, hc]
theorem filterGroup?_filtersToJson : (children : List Predicate) →
    filterGroup? (Json.array (filtersToJson children)).node = some children
  | [] => rfl
  | child :: rest => by
    have hc := filterOfNode?_filterToJson child
    have hr := filterGroup?_filtersToJson rest
    rw [Json.node, filterGroup?] at hr ⊢
    rw [filtersToJson, Json.nodes, filtersOfNodes?, ← filterToJson, hc, hr]
    rfl
end

theorem leaf_of_toOption {x : Decoded Condition} {predicate : Predicate}
    (h : x.toOption.map .leaf = some predicate) :
    ∃ condition, x = .ok condition ∧ predicate = .leaf condition := by
  cases x with
  | error error => cases h
  | ok condition =>
    cases h
    exact ⟨condition, rfl, rfl⟩

theorem filterOfNode?_some {node : Node} {predicate : Predicate}
    (h : filterOfNode? node = some predicate) :
    (∃ condition, Condition.ofNode node = .ok condition ∧ predicate = .leaf condition) ∨
      ∃ members connective children, node = .object members ∧
        membersGroup? connective.name members = some children ∧
          predicate = .group connective children := by
  cases node with
  | object members =>
    rw [filterOfNode?] at h
    split at h
    · cases h
      exact .inr ⟨members, .and, _, rfl, ‹_›, rfl⟩
    · split at h
      · cases h
        exact .inr ⟨members, .or, _, rfl, ‹_›, rfl⟩
      · exact .inl (leaf_of_toOption h)
  | _ => exact .inl (leaf_of_toOption h)

mutual
theorem filterOfNode?_within : (node : Node) → (limit : Nat) → (predicate : Predicate) →
    filterOfNode? node = some predicate → node.Within limit →
      predicate.filterToJson.node.Within limit
  | .object members, limit, predicate, h, hw => by
    obtain ⟨condition, hc, rfl⟩ | ⟨_, connective, children, he, hc, rfl⟩ := filterOfNode?_some h
    · exact Condition.noDeeper.within hc hw (Nat.zero_le _)
    · cases he
      obtain ⟨inner, rfl, hi⟩ := hw.inside rfl
      rw [filterToJson, Json.within_object, filterMembers, List.forall_mem_singleton]
      exact membersGroup?_within _ members inner children hc (List.forall_mem_map.mp hi)
  | .array _, _, _, h, hw | .null, _, _, h, hw | .bool _, _, _, h, hw | .number _, _, _, h, hw
  | .string _, _, _, h, hw | .unreadable, _, _, h, hw | .broken, _, _, h, hw => by
    obtain ⟨condition, hc, rfl⟩ | ⟨_, _, _, he, _, _⟩ := filterOfNode?_some h
    · exact Condition.noDeeper.within hc hw (Nat.zero_le _)
    · cases he
theorem membersGroup?_within : (name : String) → (members : List Member) → (limit : Nat) →
    (children : List Predicate) → membersGroup? name members = some children →
      (∀ member ∈ members, member.2.Within limit) →
        (Json.array (filtersToJson children)).node.Within limit
  | _, [], _, _, h, _ => by cases h
  | name, (key, value) :: rest, limit, children, h, hm => by
    obtain ⟨hv, hr⟩ := List.forall_mem_cons.mp hm
    rw [membersGroup?] at h
    split at h
    · split at h
      · cases h
      · exact filterGroup?_within value limit children h hv
    · exact membersGroup?_within name rest limit children h hr
theorem filterGroup?_within : (node : Node) → (limit : Nat) → (children : List Predicate) →
    filterGroup? node = some children → node.Within limit →
      (Json.array (filtersToJson children)).node.Within limit
  | .array items, limit, children, h, hw => by
    obtain ⟨inner, rfl, hi⟩ := hw.inside rfl
    exact Json.within_array.mpr (filtersOfNodes?_within items inner children h hi)
  | .object _, _, _, h, _ | .null, _, _, h, _ | .bool _, _, _, h, _ | .number _, _, _, h, _
  | .string _, _, _, h, _ | .unreadable, _, _, h, _ | .broken, _, _, h, _ => by cases h
theorem filtersOfNodes?_within : (items : List Node) → (limit : Nat) →
    (children : List Predicate) → filtersOfNodes? items = some children →
      (∀ item ∈ items, item.Within limit) →
        ∀ child ∈ filtersToJson children, child.node.Within limit
  | [], _, children, h, _ => by
    cases h
    nofun
  | item :: rest, limit, children, h, hi => by
    rw [filtersOfNodes?] at h
    obtain ⟨child, hc, h⟩ := Option.bind_eq_some_iff.mp h
    obtain ⟨others, ho, h⟩ := Option.bind_eq_some_iff.mp h
    cases h
    obtain ⟨hitem, hi⟩ := List.forall_mem_cons.mp hi
    exact List.forall_mem_cons.mpr ⟨filterOfNode?_within item limit child hc hitem,
      filtersOfNodes?_within rest limit others ho hi⟩
end

end Predicate

end DeclarativeSql
