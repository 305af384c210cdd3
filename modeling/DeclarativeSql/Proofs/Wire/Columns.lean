import DeclarativeSql.Proofs.Wire.Predicates
import DeclarativeSql.Wire.Column

/-!
# Columns read again

A column is decoded to what it was written from unless it yields the literal `null`, which is
written like an absent one. No column is decoded with such a literal. Columns keep their order.
-/

namespace DeclarativeSql

open Fields (decode_ok ofMembers_of_written ofMembers_yield)

namespace Outcome

/-- Writing keeps the outcome apart from an absent one. -/
def Survives : Outcome → Prop
  | .value literal => literal ≠ .null
  | .column _ => True

theorem Survives.ofNode_toJson {outcome : Outcome} (h : outcome.Survives) :
    ofNode outcome.toJson.node = .ok outcome := by
  cases outcome with
  | value literal =>
    have hn : literal.toJson.node ≠ .null := by
      cases literal with
      | null => exact absurd rfl h
      | _ => simp [Value.toJson, Json.node]
    have hv : literal.toJson.node.asOption Value.ofNode = .ok (some literal) :=
      Node.asOption_some.mpr ⟨hn, Value.ofNode_ok.mpr rfl⟩
    have hw : Fields.Written fields [(some "value", literal.toJson.node)]
        (some literal, none, ()) := .present hv <| .absent rfl .nil
    rw [ofNode, toJson, Json.node, Fields.decode, Json.memberNodes, Json.memberNodes,
      ofMembers_of_written hw (by decide) true]
    rfl
  | column name =>
    have hw : Fields.Written fields [(some "column", .string name)] (none, some name, ()) :=
      .absent rfl <| .present rfl .nil
    rw [ofNode, toJson, Json.node, Fields.decode, Json.memberNodes, Json.memberNodes, Json.node,
      ofMembers_of_written hw (by decide) true]
    rfl

theorem ofNode_ok {node : Node} {outcome : Outcome} (h : ofNode node = .ok outcome) :
    node.isContainer = true ∧ ((∃ name, outcome = .column name) ∨
      ∃ literal, outcome = .value literal ∧ literal ≠ .null ∧
        literal.toJson.node ∈ node.children) := by
  obtain ⟨⟨literal, name, _⟩, hr, h⟩ := bind_ok.mp h
  obtain ⟨hc, hv, -⟩ := decode_ok hr
  refine ⟨hc, ?_⟩
  cases literal with
  | none =>
    cases name with
    | none => cases h
    | some name =>
      cases h
      exact .inl ⟨name, rfl⟩
  | some literal =>
    cases name with
    | some name => cases h
    | none =>
      cases h
      obtain hv | ⟨tree, ht, hv⟩ := hv
      · cases hv
      · obtain ⟨hn, hv⟩ := Node.asOption_some.mp hv
        obtain rfl := Value.ofNode_ok.mp hv
        refine .inr ⟨literal, rfl, ?_, ht⟩
        rintro rfl
        exact hn rfl

theorem survives_of_ofNode {node : Node} {outcome : Outcome} (h : ofNode node = .ok outcome) :
    outcome.Survives := by
  obtain ⟨-, ⟨name, rfl⟩ | ⟨literal, rfl, hn, -⟩⟩ := ofNode_ok h
  · trivial
  · exact hn

theorem noDeeper : NoDeeper 0 ofNode toJson := by
  refine ⟨fun {node outcome limit} hd hw _ => ?_⟩
  obtain ⟨hc, hcases⟩ := ofNode_ok hd
  obtain ⟨inner, rfl, hi⟩ := hw.inside hc
  obtain ⟨name, rfl⟩ | ⟨literal, rfl, -, ht⟩ := hcases
  · rw [toJson, Json.within_object]
    simp
  · rw [toJson, Json.within_object]
    simpa using hi _ ht

end Outcome

namespace CaseClause

def outcome : CaseClause → Outcome
  | .branch _ outcome => outcome
  | .otherwise outcome => outcome

/-- The three forms of a predicate in a clause. -/
theorem predicateOfParts_some {condition : Option Condition}
    {conjuncts disjuncts : Option (List Predicate)} {predicate : Predicate}
    (h : predicateOfParts condition conjuncts disjuncts = .ok (some predicate)) :
    (∃ leaf, condition = some leaf ∧ predicate = .leaf leaf) ∨
      (∃ children, conjuncts = some children ∧ predicate = .group .and children) ∨
        ∃ children, disjuncts = some children ∧ predicate = .group .or children := by
  unfold predicateOfParts at h
  split at h <;> cases h
  · exact .inl ⟨_, rfl, rfl⟩
  · exact .inr (.inl ⟨_, rfl, rfl⟩)
  · exact .inr (.inr ⟨_, rfl, rfl⟩)

theorem ofParts_ok {condition : Option Predicate} {outcome fallback : Option Outcome}
    {clause : CaseClause} (h : ofParts condition outcome fallback = .ok clause) :
    (∃ predicate yielded, condition = some predicate ∧ outcome = some yielded ∧
      clause = .branch predicate yielded) ∨
        ∃ yielded, fallback = some yielded ∧ clause = .otherwise yielded := by
  unfold ofParts at h
  split at h <;> cases h
  · exact .inl ⟨_, _, rfl, rfl, rfl⟩
  · exact .inr ⟨_, rfl, rfl⟩

theorem ofNode_toJson {clause : CaseClause} (h : clause.outcome.Survives) :
    ofNode clause.toJson.node = .ok clause := by
  cases clause with
  | branch condition outcome =>
    have ho : outcome.toJson.node.asOption Outcome.ofNode = .ok (some outcome) :=
      Node.asOption_container (by cases outcome <;> rfl) (Outcome.Survives.ofNode_toJson h)
    cases condition with
    | leaf condition =>
      have hc : condition.toJson.node.asOption Condition.ofNode = .ok (some condition) :=
        Node.asOption_container rfl condition.ofNode_toJson
      have hw : Fields.Written fields
          [(some "when", condition.toJson.node), (some "then", outcome.toJson.node)]
          (some condition, none, none, some outcome, none, ()) :=
        .present hc <| .absent rfl <| .absent rfl <| .present ho <| .absent rfl .nil
      exact bind_ok.mpr ⟨_, ofMembers_of_written hw (by decide) true, rfl⟩
    | group connective children =>
      have hc : (Json.array (Predicate.allToJson children)).node.asOption Predicate.groupOfNode =
          .ok (some children) :=
        Node.asOption_container rfl (Predicate.groupOfNode_toJson children)
      cases connective with
      | and =>
        have hw : Fields.Written fields
            [(some "and", (Json.array (Predicate.allToJson children)).node),
              (some "then", outcome.toJson.node)]
            (none, some children, none, some outcome, none, ()) :=
          .absent rfl <| .present hc <| .absent rfl <| .present ho <| .absent rfl .nil
        exact bind_ok.mpr ⟨_, ofMembers_of_written hw (by decide) true, rfl⟩
      | or =>
        have hw : Fields.Written fields
            [(some "or", (Json.array (Predicate.allToJson children)).node),
              (some "then", outcome.toJson.node)]
            (none, none, some children, some outcome, none, ()) :=
          .absent rfl <| .absent rfl <| .present hc <| .present ho <| .absent rfl .nil
        exact bind_ok.mpr ⟨_, ofMembers_of_written hw (by decide) true, rfl⟩
  | otherwise outcome =>
    have ho : outcome.toJson.node.asOption Outcome.ofNode = .ok (some outcome) :=
      Node.asOption_container (by cases outcome <;> rfl) (Outcome.Survives.ofNode_toJson h)
    have hw : Fields.Written fields [(some "default", outcome.toJson.node)]
        (none, none, none, none, some outcome, ()) :=
      .absent rfl <| .absent rfl <| .absent rfl <| .absent rfl <| .present ho .nil
    exact bind_ok.mpr ⟨_, ofMembers_of_written hw (by decide) true, rfl⟩

theorem survives_of_ofNode {node : Node} {clause : CaseClause} (h : ofNode node = .ok clause) :
    clause.outcome.Survives := by
  obtain ⟨⟨condition, conjuncts, disjuncts, outcome, fallback, _⟩, hr, h⟩ := bind_ok.mp h
  obtain ⟨_, _, h⟩ := bind_ok.mp h
  obtain ⟨-, -, -, -, hyielded, hfallback, -⟩ := decode_ok hr
  obtain ⟨_, yielded, -, rfl, rfl⟩ | ⟨yielded, rfl, rfl⟩ := ofParts_ok h
  · obtain ⟨_, _, _, ho⟩ := hyielded.of_some
    exact Outcome.survives_of_ofNode ho
  · obtain ⟨_, _, _, ho⟩ := hfallback.of_some
    exact Outcome.survives_of_ofNode ho

theorem noDeeper : NoDeeper 0 ofNode toJson := by
  refine ⟨fun {node clause limit} hd hw _ => ?_⟩
  obtain ⟨⟨condition, conjuncts, disjuncts, outcome, fallback, _⟩, hr, hd⟩ := bind_ok.mp hd
  obtain ⟨_, hp, hd⟩ := bind_ok.mp hd
  obtain ⟨hc, hcondition, hconjuncts, hdisjuncts, hyielded, hfallback, -⟩ := decode_ok hr
  obtain ⟨inner, rfl, hi⟩ := hw.inside hc
  obtain ⟨predicate, yielded, rfl, rfl, rfl⟩ | ⟨yielded, rfl, rfl⟩ := ofParts_ok hd
  · have ho := Outcome.noDeeper.yields_some hyielded hi (Nat.zero_le _)
    have hm : (conditionMember predicate).2.node.Within inner := by
      obtain ⟨leaf, rfl, rfl⟩ | ⟨children, rfl, rfl⟩ | ⟨children, rfl, rfl⟩ :=
        predicateOfParts_some hp
      · exact Condition.noDeeper.yields_some hcondition hi (Nat.zero_le _)
      · exact Predicate.group_noDeeper.yields_some hconjuncts hi (Nat.zero_le _)
      · exact Predicate.group_noDeeper.yields_some hdisjuncts hi (Nat.zero_le _)
    rw [toJson, Json.within_object]
    simp [ho, hm]
  · have ho := Outcome.noDeeper.yields_some hfallback hi (Nat.zero_le _)
    rw [toJson, Json.within_object]
    simp [ho]

end CaseClause

namespace Column

def Survives : Column → Prop
  | .raw _ => True
  | .cased clauses => ∀ clause ∈ clauses, clause.outcome.Survives

theorem ofMembers?_some {members : List Member} {column : Column}
    (h : ofMembers? members = some column) :
    (∃ sql, rawFields.ofMembers false members = .ok (sql, ()) ∧ column = .raw sql) ∨
      ∃ clauses, casedFields.ofMembers false members = .ok (clauses, ()) ∧
        column = .cased clauses := by
  unfold ofMembers? at h
  split at h
  · cases h
    exact .inl ⟨_, ‹_›, rfl⟩
  · split at h
    · cases h
      exact .inr ⟨_, ‹_›, rfl⟩
    · cases h

/-- A list of clauses is no piece of SQL. -/
theorem rawFields_array (name : String) (items : List Node) (row : Row [String]) :
    rawFields.ofMembers false [(some name, .array items)] ≠ .ok row := by
  intro h
  obtain ⟨hs, -⟩ := ofMembers_yield h
  obtain ⟨tree, ht, hs⟩ := hs.of_required
  cases List.mem_singleton.mp ht
  cases hs

theorem ofMembers?_cased {clauses : List CaseClause}
    (h : ∀ clause ∈ clauses, clause.outcome.Survives) :
    ofMembers? [(some "cases", (Json.array (clauses.map CaseClause.toJson)).node)] =
      some (.cased clauses) := by
  have hc : (Json.array (clauses.map CaseClause.toJson)).node.asList CaseClause.ofNode =
      .ok clauses :=
    Node.asList_nodes fun clause hm => CaseClause.ofNode_toJson (h clause hm)
  have hw : Fields.Written casedFields
      [(some "cases", (Json.array (clauses.map CaseClause.toJson)).node)] (clauses, ()) :=
    .present hc .nil
  unfold ofMembers?
  split
  · rename_i hr
    exact absurd hr (rawFields_array _ _ _)
  · rw [ofMembers_of_written hw (by decide) false]

theorem Survives.ofNode_toJson {column : Column} (h : column.Survives) :
    ofNode column.toJson.node = .ok column := by
  have hf : column.toJson.node.inFull = .ok () := if_pos (Json.isReadable_node _)
  refine bind_ok.mpr ⟨(), hf, ?_⟩
  cases column with
  | raw sql => rfl
  | cased clauses =>
    have hm := ofMembers?_cased h
    simp only [toJson, Json.node, Json.memberNodes] at hm ⊢
    rw [hm]
    rfl

theorem ofNode_ok {node : Node} {column : Column} (h : ofNode node = .ok column) :
    ∃ members, node = .object members ∧ ofMembers? members = some column := by
  obtain ⟨_, _, h⟩ := bind_ok.mp h
  cases node with
  | object members =>
    dsimp only at h
    split at h
    · cases h
      exact ⟨members, rfl, ‹_›⟩
    · cases h
  | _ => cases h

theorem survives_of_ofNode {node : Node} {column : Column} (h : ofNode node = .ok column) :
    column.Survives := by
  obtain ⟨members, rfl, hm⟩ := ofNode_ok h
  obtain ⟨sql, -, rfl⟩ | ⟨clauses, hr, rfl⟩ := ofMembers?_some hm
  · trivial
  · obtain ⟨hc, -⟩ := ofMembers_yield hr
    obtain ⟨tree, -, hc⟩ := hc.of_required
    intro clause hclause
    obtain ⟨item, -, hd⟩ := Node.asList_mem hc hclause
    exact CaseClause.survives_of_ofNode hd

theorem noDeeper : NoDeeper 0 ofNode toJson := by
  refine ⟨fun {node column limit} hd hw _ => ?_⟩
  obtain ⟨members, rfl, hm⟩ := ofNode_ok hd
  obtain ⟨inner, rfl, hi⟩ := hw.inside rfl
  obtain ⟨sql, -, rfl⟩ | ⟨clauses, hr, rfl⟩ := ofMembers?_some hm
  · rw [toJson, Json.within_object]
    simp
  · obtain ⟨hc, -⟩ := ofMembers_yield hr
    obtain ⟨tree, ht, hc⟩ := hc.of_required
    have hw := CaseClause.noDeeper.list.within hc (hi tree ht) (Nat.zero_le _)
    rw [toJson, Json.within_object]
    simpa using hw

end Column

namespace Columns

def Survives (columns : Columns) : Prop :=
  ∀ entry ∈ columns.entries, entry.2.Survives

-- ---------------------------------------------------------------------------
-- Columns one by one
-- ---------------------------------------------------------------------------

theorem put_new {name : String} {column : Column} {entries : List (String × Column)}
    (h : name ∉ entries.map Prod.fst) : put name column entries = entries ++ [(name, column)] := by
  induction entries with
  | nil => rfl
  | cons entry rest ih =>
    obtain ⟨hn, hr⟩ := not_or.mp (List.mem_cons.not.mp h)
    rw [put, if_neg (Ne.symm hn), ih hr]
    rfl

theorem mem_put {name : String} {column : Column} {entries : List (String × Column)}
    {entry : String × Column} (h : entry ∈ put name column entries) :
    entry ∈ entries ∨ entry = (name, column) := by
  induction entries with
  | nil => exact .inr (List.mem_singleton.mp h)
  | cons first rest ih =>
    rw [put] at h
    split at h
    · obtain h | h := List.mem_cons.mp h
      · exact .inr h
      · exact .inl (List.mem_cons_of_mem _ h)
    · obtain h | h := List.mem_cons.mp h
      · exact .inl (h ▸ List.mem_cons_self)
      · exact (ih h).imp_left (List.mem_cons_of_mem _)

/-- Columns that are written one after another are put one after another. -/
theorem takeMembers_entries {entries : List (String × Column)}
    (h : ∀ entry ∈ entries, entry.2.Survives) (columns : Columns)
    (hd : ((columns.entries ++ entries).map Prod.fst).Nodup) :
    ∃ taken, taken.entries = columns.entries ++ entries ∧
      takeMembers columns
        (Json.memberNodes (entries.map fun entry => (entry.1, entry.2.toJson))) = .ok taken := by
  induction entries generalizing columns with
  | nil => exact ⟨columns, (List.append_nil _).symm, rfl⟩
  | cons entry rest ih =>
    obtain ⟨he, hr⟩ := List.forall_mem_cons.mp h
    have hnew : entry.1 ∉ columns.entries.map Prod.fst := by
      rw [List.map_append, List.nodup_append] at hd
      exact fun hm => hd.2.2 entry.1 hm entry.1 List.mem_cons_self rfl
    have hput : (columns.insert entry.1 entry.2).entries = columns.entries ++ [entry] :=
      put_new hnew
    have happend : (columns.insert entry.1 entry.2).entries ++ rest =
        columns.entries ++ entry :: rest := by
      rw [hput, List.append_assoc, List.singleton_append]
    obtain ⟨taken, ht, hm⟩ := ih hr (columns.insert entry.1 entry.2) (happend ▸ hd)
    exact ⟨taken, ht.trans happend, bind_ok.mpr ⟨_, he.ofNode_toJson, hm⟩⟩

theorem Survives.ofNode_toJson {columns : Columns} (h : columns.Survives) :
    ofNode columns.toJson.node = .ok columns := by
  obtain ⟨⟨entries, distinct⟩, rfl, hm⟩ := takeMembers_entries h .empty columns.distinct
  exact hm

/-- Every column is one that stood there before or is decoded from a member. -/
theorem mem_takeMembers {members : List Member} {columns taken : Columns}
    (h : takeMembers columns members = .ok taken) {entry : String × Column}
    (he : entry ∈ taken.entries) :
    entry ∈ columns.entries ∨ ∃ member ∈ members, Column.ofNode member.2 = .ok entry.2 := by
  induction members generalizing columns with
  | nil =>
    cases h
    exact .inl he
  | cons member rest ih =>
    obtain ⟨name, node⟩ := member
    cases name with
    | none => cases h
    | some name =>
      obtain ⟨column, hc, h⟩ := bind_ok.mp h
      obtain hm | ⟨member, hm, hd⟩ := ih h
      · obtain hm | rfl := mem_put hm
        · exact .inl hm
        · exact .inr ⟨_, List.mem_cons_self, hc⟩
      · exact .inr ⟨member, List.mem_cons_of_mem _ hm, hd⟩

theorem ofNode_ok {node : Node} {columns : Columns} (h : ofNode node = .ok columns) :
    node.isContainer = true ∧
      ∀ entry ∈ columns.entries, ∃ tree ∈ node.children, Column.ofNode tree = .ok entry.2 := by
  cases node with
  | object members =>
    refine ⟨rfl, fun entry he => ?_⟩
    obtain hm | ⟨member, hm, hd⟩ := mem_takeMembers h he
    · cases hm
    · exact ⟨member.2, List.mem_map_of_mem hm, hd⟩
  | _ => cases h

theorem survives_of_ofNode {node : Node} {columns : Columns} (h : ofNode node = .ok columns) :
    columns.Survives := by
  intro entry he
  obtain ⟨tree, _, hd⟩ := (ofNode_ok h).2 entry he
  exact Column.survives_of_ofNode hd

theorem noDeeper : NoDeeper 0 ofNode toJson := by
  refine ⟨fun {node columns limit} hd hw _ => ?_⟩
  obtain ⟨hc, he⟩ := ofNode_ok hd
  obtain ⟨inner, rfl, hi⟩ := hw.inside hc
  rw [toJson, Json.within_object, List.forall_mem_map]
  intro entry hm
  obtain ⟨tree, ht, hd⟩ := he entry hm
  exact Column.noDeeper.within hd (hi tree ht) (Nat.zero_le _)

end Columns

end DeclarativeSql
