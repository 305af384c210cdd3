import DeclarativeSql.Proofs.Wire.Predicates
import DeclarativeSql.Wire.RowFilter

/-!
# Row filters read again

The metadata of a row filter stand beside the members of its predicate, and are found there
again. A version is written as a number, so it has to be one of 64 bits.
-/

namespace DeclarativeSql

open Fields (decode_ok ofMembers_of_written)

theorem Node.asNatural_ok {node : Node} {n : Nat} :
    node.asNatural = .ok n ↔ node = .number (.int n) ∧ n < Nat.pow 2 64 := by
  constructor
  · intro h
    unfold asNatural at h
    split at h
    · rename_i value
      split at h
      · rename_i hv
        simp only [Bool.and_eq_true, decide_eq_true_eq] at hv
        cases h
        exact ⟨by rw [Int.toNat_of_nonneg hv.1], hv.2⟩
      · cases h
    · cases h
  · rintro ⟨rfl, hn⟩
    exact if_pos (by simpa using hn)

/-- The written form of a version. -/
theorem within_version {n : Nat} (h : n < Nat.pow 2 64) :
    (Json.number (.int n)).node.Within limit := by
  refine Json.within_number.mpr ⟨?_, ?_⟩ <;> omega

namespace FilterMetadata

def Survives (metadata : FilterMetadata) : Prop :=
  ∀ version ∈ metadata.version, version < Nat.pow 2 64

theorem Survives.ofNode_toJson {metadata : FilterMetadata} (h : metadata.Survives) :
    ofNode metadata.toJson.node = .ok metadata := by
  obtain ⟨templateType, identifier, version⟩ := metadata
  have hw : Fields.Written fields
      (Json.memberNodes ([("templateType", .string templateType),
        ("identifier", .string identifier)] ++
          (version.map fun version => ("version", Json.number (.int version))).toList))
      (templateType, identifier, version, ()) := by
    refine .present rfl <| .present rfl ?_
    cases version with
    | none => exact .absent rfl .nil
    | some version =>
      have hv : (Node.number (.int version)).asOption Node.asNatural = .ok (some version) :=
        Node.asOption_some.mpr ⟨nofun, Node.asNatural_ok.mpr ⟨rfl, h version rfl⟩⟩
      exact .present hv .nil
  rw [ofNode, toJson, Json.node, Fields.decode, ofMembers_of_written hw (by decide) false]
  rfl

theorem survives_of_ofNode {node : Node} {metadata : FilterMetadata}
    (h : ofNode node = .ok metadata) : metadata.Survives := by
  obtain ⟨⟨templateType, identifier, version, _⟩, hr, h⟩ := bind_ok.mp h
  cases h
  obtain ⟨-, -, -, hv, -⟩ := decode_ok hr
  rintro version rfl
  obtain ⟨tree, _, _, hn⟩ := hv.of_some
  exact (Node.asNatural_ok.mp hn).2

theorem noDeeper : NoDeeper 0 ofNode toJson := by
  refine ⟨fun {node metadata limit} hd hw _ => ?_⟩
  have hs := survives_of_ofNode hd
  obtain ⟨row, hr, _⟩ := bind_ok.mp hd
  obtain ⟨inner, rfl, _⟩ := hw.inside (decode_ok hr).1
  rw [toJson, Json.within_object]
  cases hv : metadata.version with
  | none => simp
  | some version => simp [within_version (hs version hv)]

end FilterMetadata

namespace RowFilter

def Survives (filter : RowFilter) : Prop :=
  filter.metadata.Survives

/-- Members that are not the metadata are left for the predicate. -/
theorem splitMembers_others {members : List (String × Json)}
    (h : ∀ member ∈ members, member.1 ≠ "metadata") (metadata : Option FilterMetadata) :
    splitMembers metadata (Json.memberNodes members) =
      .ok (metadata, Json.memberNodes members) := by
  induction members with
  | nil => rfl
  | cons member rest ih =>
    obtain ⟨hm, hr⟩ := List.forall_mem_cons.mp h
    have hf : member.2.node.inFull = .ok () := if_pos (Json.isReadable_node _)
    rw [Json.memberNodes, splitMembers, if_neg hm, hf]
    exact bind_ok.mpr ⟨(), rfl, bind_ok.mpr ⟨_, ih hr, rfl⟩⟩

theorem filterMembers_names (predicate : Predicate) :
    ∀ member ∈ predicate.filterMembers, member.1 ≠ "metadata" := by
  cases predicate with
  | leaf condition =>
    intro member hm he
    have hn : (some member.1, member.2.node) ∈ Json.memberNodes condition.members := by
      rw [Json.memberNodes_eq_map]
      exact List.mem_map_of_mem hm
    have := condition.written_members.name_mem hn
    rw [he] at this
    exact absurd this (by decide)
  | group connective children =>
    cases connective <;> simp [Predicate.filterMembers, Connective.name]

theorem ofFilterNode_filterMembers (predicate : Predicate) :
    Predicate.ofFilterNode (.object (Json.memberNodes predicate.filterMembers)) =
      .ok predicate := by
  have hf := predicate.filterOfNode?_filterToJson
  rw [Predicate.filterToJson, Json.node] at hf
  rw [Predicate.ofFilterNode, hf]

theorem Survives.ofNode_toJson {filter : RowFilter} (h : filter.Survives) :
    ofNode filter.toJson.node = .ok filter := by
  have hs := splitMembers_others (filterMembers_names filter.predicate) (some filter.metadata)
  have hm : splitMembers none (Json.memberNodes
      (("metadata", filter.metadata.toJson) :: filter.predicate.filterMembers)) =
        .ok (some filter.metadata, Json.memberNodes filter.predicate.filterMembers) := by
    rw [Json.memberNodes, splitMembers, if_pos rfl, FilterMetadata.Survives.ofNode_toJson h]
    exact hs
  refine bind_ok.mpr ⟨_, hm, ?_⟩
  exact bind_ok.mpr ⟨_, ofFilterNode_filterMembers filter.predicate, rfl⟩

/-- The metadata are decoded from a member, and what is left are members too. -/
theorem splitMembers_ok {members others : List Member} {metadata found : Option FilterMetadata}
    (h : splitMembers metadata members = .ok (found, others)) :
    (∀ member ∈ others, member ∈ members) ∧
      (found = metadata ∨ ∃ member ∈ members, ∃ value,
        FilterMetadata.ofNode member.2 = .ok value ∧ found = some value) := by
  induction members generalizing metadata others with
  | nil =>
    cases h
    exact ⟨nofun, .inl rfl⟩
  | cons member rest ih =>
    obtain ⟨name, node⟩ := member
    cases name with
    | none => cases h
    | some name =>
      rw [splitMembers] at h
      split at h
      · split at h
        · cases h
        · obtain ⟨value, hv, h⟩ := bind_ok.mp h
          obtain ⟨ho, hf⟩ := ih h
          refine ⟨fun member hm => List.mem_cons_of_mem _ (ho member hm), .inr ?_⟩
          obtain rfl | ⟨member, hm, hd⟩ := hf
          · exact ⟨_, List.mem_cons_self, value, hv, rfl⟩
          · exact ⟨member, List.mem_cons_of_mem _ hm, hd⟩
      · obtain ⟨_, _, h⟩ := bind_ok.mp h
        obtain ⟨⟨found', others'⟩, hs, h⟩ := bind_ok.mp h
        cases h
        obtain ⟨ho, hf⟩ := ih hs
        refine ⟨List.forall_mem_cons.mpr ⟨List.mem_cons_self, fun member hm =>
          List.mem_cons_of_mem _ (ho member hm)⟩, hf.imp_right ?_⟩
        rintro ⟨member, hm, hd⟩
        exact ⟨member, List.mem_cons_of_mem _ hm, hd⟩

theorem ofNode_ok {node : Node} {filter : RowFilter} (h : ofNode node = .ok filter) :
    ∃ members others, node = .object members ∧ (∀ member ∈ others, member ∈ members) ∧
      (∃ member ∈ members, FilterMetadata.ofNode member.2 = .ok filter.metadata) ∧
        Predicate.filterOfNode? (.object others) = some filter.predicate := by
  cases node with
  | object members =>
    obtain ⟨⟨found, others⟩, hs, h⟩ := bind_ok.mp h
    obtain ⟨ho, hf⟩ := splitMembers_ok hs
    obtain rfl | ⟨member, hm, metadata, hd, rfl⟩ := hf
    · cases h
    · obtain ⟨predicate, hp, h⟩ := bind_ok.mp h
      cases h
      refine ⟨members, others, rfl, ho, ⟨member, hm, hd⟩, ?_⟩
      unfold Predicate.ofFilterNode at hp
      split at hp
      · cases hp
        exact ‹_›
      · cases hp
  | _ => cases h

theorem survives_of_ofNode {node : Node} {filter : RowFilter} (h : ofNode node = .ok filter) :
    filter.Survives := by
  obtain ⟨_, _, _, _, ⟨_, _, hd⟩, _⟩ := ofNode_ok h
  exact FilterMetadata.survives_of_ofNode hd

theorem noDeeper : NoDeeper 0 ofNode toJson := by
  refine ⟨fun {node filter limit} hd hw _ => ?_⟩
  obtain ⟨members, others, rfl, ho, ⟨member, hm, hd⟩, hp⟩ := ofNode_ok hd
  obtain ⟨inner, rfl, hi⟩ := hw.inside rfl
  replace hi : ∀ member ∈ members, member.2.Within inner := List.forall_mem_map.mp hi
  have hmetadata := FilterMetadata.noDeeper.within hd (hi member hm) (Nat.zero_le _)
  have hothers : (Node.object others).Within (inner + 1) :=
    .object fun member hm => hi member (ho member hm)
  have hpredicate := Predicate.filterOfNode?_within _ _ _ hp hothers
  rw [Predicate.filterToJson, Json.within_object] at hpredicate
  rw [toJson, Json.within_object, List.forall_mem_cons]
  exact ⟨hmetadata, hpredicate⟩

end RowFilter

end DeclarativeSql
