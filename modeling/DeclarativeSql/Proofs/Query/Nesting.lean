import DeclarativeSql.Proofs.Wire.Documents

/-!
# How deep a query may be nested

A level of a predicate is an object and an array in the text of a document, and the reader
cuts out what stands in more than `Node.maxNesting` containers. The first part counts the levels
of what is written. The second shows that nothing was cut out of a tree that is decoded: what is
cut is in a column or a row filter, and both are read in full.
-/

namespace DeclarativeSql

-- ---------------------------------------------------------------------------
-- Predicates
-- ---------------------------------------------------------------------------

theorem Value.depth_toJson (value : Value) : value.toJson.depth = 0 := by
  cases value <;> rfl

/-- The options are the only object inside a condition. -/
theorem Condition.depth_toJson (condition : Condition) :
    1 ≤ condition.toJson.depth ∧ condition.toJson.depth ≤ 2 := by
  obtain ⟨column, operator, value, options⟩ := condition
  cases options <;>
    simp [toJson, members, Json.depth, Json.depthOfMembers, Value.depth_toJson,
      ConditionOptions.toJson]

namespace Predicate

mutual
/-- In a row filter a condition takes a level or two, and a group two more than its members. -/
theorem depth_filterToJson : (predicate : Predicate) →
    2 * predicate.height ≤ predicate.filterToJson.depth + 1 ∧
      predicate.filterToJson.depth ≤ 2 * predicate.height
  | .leaf condition => by
    have hc : 1 ≤ (Predicate.leaf condition).filterToJson.depth ∧
        (Predicate.leaf condition).filterToJson.depth ≤ 2 := condition.depth_toJson
    rw [height]
    omega
  | .group connective children => by
    have hc := depth_filtersToJson children
    have hd : (Predicate.group connective children).filterToJson.depth =
        Json.depthOfItems (filtersToJson children) + 2 := by
      simp [filterToJson, filterMembers, Json.depth, Json.depthOfMembers]
    rw [hd, height]
    omega
theorem depth_filtersToJson : (children : List Predicate) →
    2 * maxHeight children ≤ Json.depthOfItems (filtersToJson children) + 1 ∧
      Json.depthOfItems (filtersToJson children) ≤ 2 * maxHeight children
  | [] => ⟨Nat.zero_le _, Nat.zero_le _⟩
  | child :: rest => by
    have hc := depth_filterToJson child
    have hr := depth_filtersToJson rest
    rw [filtersToJson, Json.depthOfItems, maxHeight, ← filterToJson]
    omega
end

mutual
/-- In a column a condition takes a level more. -/
theorem depth_toJson : (predicate : Predicate) →
    2 * predicate.height ≤ predicate.toJson.depth ∧
      predicate.toJson.depth ≤ 2 * predicate.height + 1
  | .leaf condition => by
    have hc := condition.depth_toJson
    have hd : (Predicate.leaf condition).toJson.depth = condition.toJson.depth + 1 := by
      simp [toJson, Json.depth, Json.depthOfMembers]
    rw [hd, height]
    omega
  | .group connective children => by
    have hc := depth_allToJson children
    have hd : (Predicate.group connective children).toJson.depth =
        Json.depthOfItems (allToJson children) + 2 := by
      simp [toJson, Json.depth, Json.depthOfMembers]
    rw [hd, height]
    omega
theorem depth_allToJson : (children : List Predicate) →
    2 * maxHeight children ≤ Json.depthOfItems (allToJson children) ∧
      Json.depthOfItems (allToJson children) ≤ 2 * maxHeight children + 1
  | [] => ⟨Nat.zero_le _, Nat.zero_le _⟩
  | child :: rest => by
    have hc := depth_toJson child
    have hr := depth_allToJson rest
    rw [allToJson, Json.depthOfItems, maxHeight]
    omega
end

/-- The only member of a predicate is the one that a clause writes beside its outcome. -/
theorem toJson_eq (predicate : Predicate) :
    predicate.toJson = .object [CaseClause.conditionMember predicate] := by
  cases predicate <;> rfl

end Predicate

-- ---------------------------------------------------------------------------
-- Documents
-- ---------------------------------------------------------------------------

def CaseClause.condition? : CaseClause → Option Predicate
  | .branch condition _ => some condition
  | .otherwise _ => none

/-- The conditions of the branches. -/
def Column.conditions : Column → List Predicate
  | .raw _ => []
  | .cased clauses => clauses.filterMap CaseClause.condition?

def Columns.conditions (columns : Columns) : List Predicate :=
  columns.entries.flatMap fun entry => entry.2.conditions

theorem Outcome.depth_toJson (outcome : Outcome) : outcome.toJson.depth = 1 := by
  cases outcome <;> simp [toJson, Json.depth, Json.depthOfMembers, Value.depth_toJson]

theorem CaseClause.depth_toJson_le (clause : CaseClause) :
    clause.toJson.depth ≤ limit + 2 ↔
      ∀ predicate ∈ clause.condition?, predicate.toJson.depth ≤ limit + 2 := by
  cases clause with
  | branch condition outcome =>
    simp [toJson, condition?, Predicate.toJson_eq, Json.depth_object_le, Outcome.depth_toJson]
  | otherwise outcome =>
    simp [toJson, condition?, Json.depth_object_le, Outcome.depth_toJson]

theorem Column.depth_toJson_le (column : Column) :
    column.toJson.depth ≤ limit + 4 ↔
      ∀ predicate ∈ column.conditions, predicate.toJson.depth ≤ limit + 2 := by
  cases column with
  | raw sql => simp [toJson, conditions, Json.depth, Json.depthOfMembers]
  | cased clauses =>
    rw [toJson, Json.depth_object_le, List.forall_mem_singleton, Json.depth_array_le,
      List.forall_mem_map]
    simp only [CaseClause.depth_toJson_le, conditions, List.mem_filterMap]
    constructor
    · rintro h predicate ⟨clause, hm, hc⟩
      exact h clause hm predicate hc
    · exact fun h clause hm predicate hc => h predicate ⟨clause, hm, hc⟩

theorem Columns.depth_toJson_le (columns : Columns) :
    columns.toJson.depth ≤ limit + 5 ↔
      ∀ predicate ∈ columns.conditions, predicate.toJson.depth ≤ limit + 2 := by
  rw [toJson, Json.depth_object_le, List.forall_mem_map]
  simp only [Column.depth_toJson_le, conditions, List.forall_mem_flatMap]

theorem FilterMetadata.depth_toJson (metadata : FilterMetadata) : metadata.toJson.depth = 1 := by
  obtain ⟨templateType, identifier, version⟩ := metadata
  cases version <;> simp [toJson, Json.depth, Json.depthOfMembers]

theorem RowFilter.depth_toJson_le (filter : RowFilter) :
    filter.toJson.depth ≤ limit + 2 ↔ filter.predicate.filterToJson.depth ≤ limit + 2 := by
  rw [toJson, Predicate.filterToJson, Json.depth_object_le, Json.depth_object_le,
    List.forall_mem_cons, FilterMetadata.depth_toJson]
  simp

theorem Interval.depth_optionToJson (interval : Option Interval) :
    (optionToJson interval).depth ≤ 2 := by
  rcases interval with _ | ⟨count⟩ | ⟨bounds⟩ <;>
    simp [optionToJson, toJson, DateRange.toJson, Json.depth, Json.depthOfMembers]

theorem Parameters.depth_toJson_le (parameters : Parameters) :
    parameters.toJson.depth ≤ limit + 5 ↔
      ∀ filter ∈ parameters.rowFilters, filter.predicate.filterToJson.depth ≤ limit + 3 := by
  have hi : (Interval.optionToJson parameters.interval).depth ≤ limit + 4 :=
    Nat.le_trans (Interval.depth_optionToJson _) (by omega)
  rw [toJson, Json.depth_object_le, List.forall_mem_cons, List.forall_mem_singleton,
    RowFilter.listToJson, Json.depth_array_le, List.forall_mem_map]
  simp only [hi, true_and, RowFilter.depth_toJson_le]

theorem CompositionMetadata.depth_toJson (metadata : CompositionMetadata) :
    metadata.toJson.depth = 1 := by
  simp [toJson, Json.depth, Json.depthOfMembers]

theorem Composition.depth_toJson_le (composition : Composition) :
    composition.toJson.depth ≤ limit + 6 ↔
      (∀ predicate ∈ composition.columns.conditions, predicate.toJson.depth ≤ limit + 2) ∧
        ∀ filter ∈ composition.parameters.rowFilters,
          filter.predicate.filterToJson.depth ≤ limit + 3 := by
  have hschema : ∀ member ∈ memberIfSome "schema" Json.string composition.schema,
      member.2.depth ≤ limit + 5 :=
    (forall_memberIfSome (·.depth ≤ limit + 5)).mpr fun _ _ => Nat.zero_le _
  have hmetadata : ∀ member ∈ memberIfSome "metadata" CompositionMetadata.toJson
      composition.metadata, member.2.depth ≤ limit + 5 :=
    (forall_memberIfSome (·.depth ≤ limit + 5)).mpr fun metadata _ =>
      metadata.depth_toJson ▸ Nat.le_add_left 1 _
  rw [toJson, Json.depth_object_le, List.forall_mem_append, List.forall_mem_append,
    and_iff_left hmetadata, and_iff_left hschema]
  simp [Columns.depth_toJson_le, Parameters.depth_toJson_le, Json.depth]

/-- Five containers stand around the predicate of a clause and four around that of a filter. -/
theorem Query.depth_toJson_le (query : Query) :
    query.toJson.depth ≤ limit + 7 ↔ ∀ composition ∈ query.composition?,
      (∀ predicate ∈ composition.columns.conditions, predicate.toJson.depth ≤ limit + 2) ∧
        ∀ filter ∈ composition.parameters.rowFilters,
          filter.predicate.filterToJson.depth ≤ limit + 3 := by
  have hdescription : ∀ member ∈ memberIfSome "description" Json.string query.description,
      member.2.depth ≤ limit + 6 :=
    (forall_memberIfSome (·.depth ≤ limit + 6)).mpr fun _ _ => Nat.zero_le _
  obtain ⟨sql | composition, description⟩ := query
  all_goals
    rw [toJson, Query.document, Document.toJson, Json.depth_object_le, List.forall_mem_append,
      List.forall_mem_append, and_iff_left hdescription]
  · simp [memberIfSome, composition?, Json.depth]
  · simp [memberIfSome, composition?, Composition.depth_toJson_le]

-- ---------------------------------------------------------------------------
-- Documents that are cut
-- ---------------------------------------------------------------------------

theorem Json.nodeAt_object {members : List (String × Json)} {level : Nat}
    (h : level < Node.maxNesting) :
    (Json.object members).nodeAt level = .object (membersAt (level + 1) members) :=
  if_pos h

theorem Json.mem_membersAt {members : List (String × Json)} {member : String × Json}
    (h : member ∈ members) (level : Nat) :
    (some member.1, member.2.nodeAt level) ∈ membersAt level members := by
  rw [membersAt_eq_map]
  exact List.mem_map_of_mem h

theorem Node.isReadable_of_inFull {node : Node} (h : node.inFull = .ok done) :
    node.isReadable = true := by
  unfold inFull at h
  split at h
  · assumption
  · cases h

/-- A column is read in full. -/
theorem Column.depth_le_of_ofNode {column other : Column} {level : Nat}
    (hl : level ≤ Node.maxNesting) (h : ofNode (column.toJson.nodeAt level) = .ok other) :
    level + column.toJson.depth ≤ Node.maxNesting := by
  obtain ⟨_, hf, _⟩ := bind_ok.mp h
  exact (Json.isReadable_nodeAt hl).mp (Node.isReadable_of_inFull hf)

/-- No member that is a column is passed over. -/
theorem Columns.takeMembers_takes {members : List Member} {columns taken : Columns}
    (h : takeMembers columns members = .ok taken) :
    ∀ member ∈ members, ∃ column, Column.ofNode member.2 = .ok column := by
  induction members generalizing columns with
  | nil => nofun
  | cons member rest ih =>
    obtain ⟨name, node⟩ := member
    cases name with
    | none => cases h
    | some name =>
      obtain ⟨column, hc, h⟩ := bind_ok.mp h
      exact List.forall_mem_cons.mpr ⟨⟨column, hc⟩, ih h⟩

theorem RowFilter.isReadable_of_splitMembers {members : List Member}
    {metadata : Option FilterMetadata} {split : Option FilterMetadata × List Member}
    (h : splitMembers metadata members = .ok split) {name : String} {node : Node}
    (hm : (some name, node) ∈ members) (hn : name ≠ "metadata") : node.isReadable = true := by
  induction members generalizing metadata split with
  | nil => cases hm
  | cons member rest ih =>
    obtain ⟨other, value⟩ := member
    cases other with
    | none => cases h
    | some other =>
      rw [splitMembers] at h
      split at h
      · split at h
        · cases h
        · obtain ⟨_, _, h⟩ := bind_ok.mp h
          obtain hm | hm := List.mem_cons.mp hm
          · cases hm
            contradiction
          · exact ih h hm
      · obtain ⟨_, hf, h⟩ := bind_ok.mp h
        obtain ⟨_, hs, _⟩ := bind_ok.mp h
        obtain hm | hm := List.mem_cons.mp hm
        · cases hm
          exact Node.isReadable_of_inFull hf
        · exact ih hs hm

/-- A value of a container has at most the levels that are left for its members. -/
theorem Json.depth_object_le_left {members : List (String × Json)} {level : Nat}
    (hl : level < Node.maxNesting)
    (h : ∀ member ∈ members, level + 1 + member.2.depth ≤ Node.maxNesting) :
    level + (Json.object members).depth ≤ Node.maxNesting := by
  have hd : (Json.object members).depth ≤ Node.maxNesting - (level + 1) + 1 :=
    depth_object_le.mpr fun member hm => by
      have := h member hm
      omega
  omega

theorem Columns.depth_le_of_ofNode {columns other : Columns} {level : Nat}
    (hl : level < Node.maxNesting) (h : ofNode (columns.toJson.nodeAt level) = .ok other) :
    level + columns.toJson.depth ≤ Node.maxNesting := by
  rw [toJson, Json.nodeAt_object hl] at h
  refine Json.depth_object_le_left hl fun member hm => ?_
  obtain ⟨column, hc⟩ := takeMembers_takes h _ (Json.mem_membersAt hm _)
  obtain ⟨entry, _, rfl⟩ := List.mem_map.mp hm
  exact Column.depth_le_of_ofNode hl hc

/-- The members of the predicate are read in full. -/
theorem RowFilter.depth_le_of_ofNode {filter other : RowFilter} {level : Nat}
    (hl : level < Node.maxNesting) (h : ofNode (filter.toJson.nodeAt level) = .ok other) :
    level + filter.predicate.filterToJson.depth ≤ Node.maxNesting := by
  rw [toJson, Json.nodeAt_object hl] at h
  obtain ⟨_, hs, _⟩ := bind_ok.mp h
  refine Json.depth_object_le_left hl fun member hm => ?_
  refine (Json.isReadable_nodeAt hl).mp ?_
  exact isReadable_of_splitMembers hs (Json.mem_membersAt (List.mem_cons_of_mem _ hm) _)
    (filterMembers_names filter.predicate member hm)

theorem Node.asList_items {decode : Node → Decoded α} {items : List Node} {values : List α}
    (h : (Node.array items).asList decode = .ok values) :
    ∀ item ∈ items, ∃ value, decode item = .ok value := by
  obtain ⟨_, ⟨⟩, hv⟩ := asList_ok.mp h
  clear h
  induction hv with
  | nil => exact List.forall_mem_nil _
  | cons hd _ ih => exact List.forall_mem_cons.mpr ⟨⟨_, hd⟩, ih⟩

/-- No member of a record is passed over. -/
theorem Json.takes_of_decode {fields : Fields types} {refuseUnknown : Bool} {row : Row types}
    {members : List (String × Json)} {level : Nat} (hl : level < Node.maxNesting)
    (h : fields.decode refuseUnknown ((Json.object members).nodeAt level) = .ok row) :
    ∀ member ∈ members, fields.Takes member.1 (member.2.nodeAt (level + 1)) := by
  intro member hm
  rw [nodeAt_object hl] at h
  exact Fields.ofMembers_takes h (mem_membersAt hm _)

theorem RowFilter.depth_le_of_asList {filters others : List RowFilter} {level : Nat}
    (hl : level + 1 < Node.maxNesting)
    (h : ((listToJson filters).nodeAt level).asList ofNode = .ok others) :
    ∀ filter ∈ filters, level + 1 + filter.predicate.filterToJson.depth ≤ Node.maxNesting := by
  intro filter hm
  rw [listToJson, Json.nodeAt, if_pos (Nat.lt_of_succ_lt hl), Json.nodesAt_eq_map,
    List.map_map] at h
  obtain ⟨other, ho⟩ := Node.asList_items h _ (List.mem_map_of_mem hm)
  exact depth_le_of_ofNode hl ho

theorem Parameters.depth_le_of_ofNode {parameters other : Parameters} {level : Nat}
    (hl : level + 2 < Node.maxNesting) (h : ofNode (parameters.toJson.nodeAt level) = .ok other) :
    ∀ filter ∈ parameters.rowFilters,
      level + 2 + filter.predicate.filterToJson.depth ≤ Node.maxNesting := by
  obtain ⟨_, hr, _⟩ := bind_ok.mp h
  have ht := Json.takes_of_decode (by omega) hr
    ("rowFilters", RowFilter.listToJson parameters.rowFilters) (by simp)
  obtain ⟨_, hf⟩ : ∃ filters,
      ((RowFilter.listToJson parameters.rowFilters).nodeAt (level + 1)).asList RowFilter.ofNode =
        .ok filters := by
    simpa [Fields.Takes, fields, optional] using ht
  exact RowFilter.depth_le_of_asList hl hf

theorem Composition.depth_le_of_ofNode {composition other : Composition} {level : Nat}
    (hl : level + 3 < Node.maxNesting)
    (h : ofNode (composition.toJson.nodeAt level) = .ok other) :
    level + 1 + composition.columns.toJson.depth ≤ Node.maxNesting ∧
      ∀ filter ∈ composition.parameters.rowFilters,
        level + 3 + filter.predicate.filterToJson.depth ≤ Node.maxNesting := by
  obtain ⟨_, hr, _⟩ := bind_ok.mp h
  have ht := Json.takes_of_decode (by omega) hr
  obtain ⟨_, hc⟩ : ∃ columns,
      Columns.ofNode (composition.columns.toJson.nodeAt (level + 1)) = .ok columns := by
    simpa [Fields.Takes, fields, optional] using ht ("columns", _) (by simp)
  obtain ⟨_, hp⟩ : ∃ parameters,
      Parameters.ofNode (composition.parameters.toJson.nodeAt (level + 1)) = .ok parameters := by
    simpa [Fields.Takes, fields, optional] using
      ht ("parameters", composition.parameters.toJson) (by simp)
  exact ⟨Columns.depth_le_of_ofNode (by omega) hc, Parameters.depth_le_of_ofNode (by omega) hp⟩

theorem Query.depth_le_of_ofNode {query : Query} {document : Document}
    (h : Document.ofNode (query.toJson.nodeAt 0) = .ok document) :
    query.toJson.depth ≤ Node.maxNesting := by
  have hm : Node.maxNesting = 120 + 7 := rfl
  obtain ⟨sql | composition, description⟩ := query
  · exact hm ▸ (depth_toJson_le _).mpr nofun
  · obtain ⟨_, hr, _⟩ := bind_ok.mp h
    have ht := Json.takes_of_decode (by decide) hr ("composition", composition.toJson)
      (by simp [memberIfSome, Query.document])
    obtain ⟨found, hc⟩ : ∃ found,
        (composition.toJson.nodeAt 1).asOption Composition.ofNode = .ok found := by
      simpa [Fields.Takes, Document.fields, optional] using ht
    cases found with
    | none => cases Node.asOption_none hc
    | some other =>
      obtain ⟨hcolumns, hfilters⟩ :=
        Composition.depth_le_of_ofNode (by decide) (Node.asOption_some.mp hc).2
      rw [hm, depth_toJson_le]
      rintro _ ⟨⟩
      rw [← Columns.depth_toJson_le]
      exact ⟨by omega, fun filter hf => by have := hfilters filter hf; omega⟩

end DeclarativeSql
