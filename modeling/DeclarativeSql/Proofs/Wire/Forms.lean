import DeclarativeSql.Proofs.Json.Members
import DeclarativeSql.Proofs.Query.Nesting

/-!
# Expressions and their forms

Filters, columns and clauses are objects that may be written in several forms, told apart by the
names of their members. What is accepted has at least one form (`Expression.Accepts.formsOf_pos`),
and exactly one where others are refused (`Expression.Accepts.formsOf_eq_one`). The expressions in
the lists of an accepted one are accepted too, unless a form beside a list hides it
(`Expression.Accepts.items`).
-/

namespace DeclarativeSql

def Node.isNull : Node → Bool
  | .null => true
  | _ => false

/-- A form is told by its marks, and others of its members may stand beside them. -/
structure Form where
  marks : List String
  others : List String

namespace Form

/-- A member under one of the marks is not `null`. -/
def isCarriedBy (members : List Member) (form : Form) : Bool :=
  members.any fun member => member.1.any (· ∈ form.marks) && !member.2.isNull

def names (form : Form) : List String :=
  form.marks ++ form.others

/-- The members that belong to the form. -/
def only (form : Form) (members : List Member) : List Member :=
  members.filter fun member => member.1.any (· ∈ form.names)

def group (connective : Connective) : Form :=
  ⟨[connective.name], []⟩

def condition : Form :=
  ⟨["column", "operator"], ["value", "options"]⟩

/-- A form that may have one more member. -/
def beside (name : String) (form : Form) : Form :=
  ⟨form.marks, name :: form.others⟩

end Form

/-- What may be written in several forms. -/
inductive Expression
  | rowFilter
  | filter
  | column
  | clause
  | predicate

namespace Expression

abbrev Value : Expression → Type
  | rowFilter => RowFilter
  | filter | predicate => Predicate
  | column => Column
  | clause => CaseClause

def decode : (kind : Expression) → Node → Decoded kind.Value
  | rowFilter => RowFilter.ofNode
  | filter => Predicate.ofFilter
  | column => Column.ofNode
  | clause => CaseClause.ofNode
  | predicate => Predicate.ofNode

def filterForms : List Form :=
  [.group .and, .group .or, .condition]

def forms : Expression → List Form
  | rowFilter => filterForms.map (.beside "metadata")
  | filter => filterForms
  | column => [⟨["sql"], []⟩, ⟨["cases"], []⟩]
  | clause => [⟨["when"], ["then"]⟩, ⟨["and"], ["then"]⟩, ⟨["or"], ["then"]⟩, ⟨["default"], []⟩]
  | predicate => [⟨["when"], []⟩, .group .and, .group .or]

/-- Whether members that belong to no form, or to another form, may stand in the object. -/
def isOpen : Expression → Bool
  | rowFilter | filter | column => true
  | clause | predicate => false

/-- Under this name stands a list of such expressions. -/
inductive Lists : Expression → String → Expression → Prop
  | rowFilter (connective : Connective) : Lists rowFilter connective.name filter
  | filter (connective : Connective) : Lists filter connective.name filter
  | column : Lists column "cases" clause
  | clause (connective : Connective) : Lists clause connective.name predicate
  | predicate (connective : Connective) : Lists predicate connective.name predicate

/-- What stands under a name. A clause may be an array of its fields in their order. -/
inductive Has : Expression → Node → String → Node → Prop
  | member : (some name, value) ∈ members → Has kind (.object members) name value
  | item {items : List Node} {i : Nat} : CaseClause.fields.names[i]? = some name →
      items[i]? = some value → Has clause (.array items) name value

/-- An expression contains itself and what the expressions in its lists contain. -/
inductive Contains : Expression → Node → Expression → Node → Prop
  | here : Contains kind node kind node
  | further : kind.Has node name (.array items) → kind.Lists name next → item ∈ items →
      Contains next item part tree → Contains kind node part tree

/-- How many forms an object has. -/
def formsOf (kind : Expression) (members : List Member) : Nat :=
  kind.forms.countP (Form.isCarriedBy members)

/-- No object that may have several forms does. -/
def Uncombined (kind : Expression) (node : Node) : Prop :=
  ∀ part members, kind.Contains node part (.object members) → part.isOpen = true →
    part.formsOf members ≤ 1

def Accepts (kind : Expression) (node : Node) : Prop :=
  ∃ value, kind.decode node = .ok value

end Expression

-- ---------------------------------------------------------------------------
-- Forms
-- ---------------------------------------------------------------------------

theorem Node.isNull_eq_false {node : Node} : node.isNull = false ↔ node ≠ .null := by
  cases node <;> simp [isNull]

namespace Form

theorem isCarriedBy_iff {form : Form} {members : List Member} :
    form.isCarriedBy members = true ↔
      ∃ name ∈ form.marks, ∃ node, (some name, node) ∈ members ∧ node ≠ .null := by
  simp only [isCarriedBy, List.any_eq_true, Bool.and_eq_true, Option.any_eq_true,
    decide_eq_true_eq, Bool.not_eq_true', Node.isNull_eq_false]
  constructor
  · rintro ⟨⟨key, node⟩, hm, ⟨name, rfl, hn⟩, hv⟩
    exact ⟨name, hn, node, hm, hv⟩
  · rintro ⟨name, hn, node, hm, hv⟩
    exact ⟨_, hm, ⟨name, rfl, hn⟩, hv⟩

theorem isCarriedBy_of_required {form : Form} {name : String} {decode : Node → Decoded α}
    {members : List Member} {value : α} (h : (required name decode).Reads members value)
    (hn : name ∈ form.marks) (hnull : ∀ value, decode .null ≠ .ok value) :
    form.isCarriedBy members = true := by
  obtain ⟨node, hm, hd⟩ := h.of_required
  refine isCarriedBy_iff.mpr ⟨name, hn, node, hm, ?_⟩
  rintro rfl
  exact hnull value hd

theorem isCarriedBy_eq {name : String} {decode : Node → Decoded α} {members : List Member}
    {value : Option α} (h : (optional name (Node.asOption decode) none).Reads members value)
    (others : List String) : isCarriedBy members ⟨[name], others⟩ = value.isSome := by
  rw [Bool.eq_iff_iff, isCarriedBy_iff, h.isSome_iff]
  simp

theorem group_isCarriedBy {connective : Connective} {items : List Node} {members : List Member}
    (h : (some connective.name, .array items) ∈ members) :
    (group connective).isCarriedBy members = true :=
  isCarriedBy_iff.mpr ⟨_, List.mem_singleton_self _, _, h, nofun⟩

/-- Of forms that are counted once at most there are no two. -/
theorem eq_of_isCarriedBy {forms : List Form} {members : List Member}
    (h : forms.countP (isCarriedBy members) ≤ 1) {first second : Form} (hf : first ∈ forms)
    (hs : second ∈ forms) (hfirst : first.isCarriedBy members = true)
    (hsecond : second.isCarriedBy members = true) : first = second := by
  rw [List.countP_eq_length_filter] at h
  have hf := List.mem_filter.mpr ⟨hf, hfirst⟩
  have hs := List.mem_filter.mpr ⟨hs, hsecond⟩
  generalize forms.filter (isCarriedBy members) = carried at h hf hs
  match carried, h with
  | [form], _ => rw [List.mem_singleton.mp hf, List.mem_singleton.mp hs]

theorem group_injective {connective other : Connective} (h : group connective = group other) :
    connective = other := by
  cases connective <;> cases other <;> simp_all [group, Connective.name]

theorem condition_ne_group (connective : Connective) : condition ≠ group connective := by
  simp [condition, group]

theorem group_mem_filterForms (connective : Connective) :
    group connective ∈ Expression.filterForms := by
  cases connective <;> simp [Expression.filterForms]

theorem condition_mem_filterForms : condition ∈ Expression.filterForms := by
  simp [Expression.filterForms]

end Form

-- ---------------------------------------------------------------------------
-- Filters
-- ---------------------------------------------------------------------------

namespace Predicate

/-- A group that is taken is the only member under its name. -/
theorem membersGroup?_some {name : String} {members : List Member} {children : List Predicate}
    (h : membersGroup? name members = some children) :
    ∃ items, (some name, .array items) ∈ members ∧ filtersOfNodes? items = some children ∧
      ∀ node, (some name, node) ∈ members → node = .array items := by
  induction members with
  | nil => cases h
  | cons member rest ih =>
    obtain ⟨key, value⟩ := member
    rw [membersGroup?] at h
    split at h
    · rename_i hk
      split at h
      · cases h
      · rename_i hnamed
        cases value with
        | array items =>
          refine ⟨items, by simp [hk], h, fun node hm => ?_⟩
          obtain hm | hm := List.mem_cons.mp hm
          · cases hm
            rfl
          · exact absurd (List.any_eq_true.mpr ⟨_, hm, by simp⟩) hnamed
        | _ => cases h
    · rename_i hk
      obtain ⟨items, hm, hc, hu⟩ := ih h
      refine ⟨items, List.mem_cons_of_mem _ hm, hc, fun node hn => ?_⟩
      obtain hn | hn := List.mem_cons.mp hn
      · cases hn
        exact absurd rfl hk
      · exact hu node hn

theorem filtersOfNodes?_mem {items : List Node} {children : List Predicate}
    (h : filtersOfNodes? items = some children) :
    ∀ item ∈ items, ∃ child, filterOfNode? item = some child := by
  induction items generalizing children with
  | nil => exact List.forall_mem_nil _
  | cons item rest ih =>
    rw [filtersOfNodes?] at h
    obtain ⟨child, hc, h⟩ := Option.bind_eq_some_iff.mp h
    obtain ⟨others, ho, -⟩ := Option.bind_eq_some_iff.mp h
    exact List.forall_mem_cons.mpr ⟨⟨child, hc⟩, ih ho⟩

theorem ofFilter_ok {node : Node} {predicate : Predicate} :
    ofFilter node = .ok predicate ↔
      node.isReadable = true ∧ filterOfNode? node = some predicate := by
  rw [ofFilter, bind_ok, ofFilterNode]
  constructor
  · rintro ⟨_, hf, h⟩
    refine ⟨Node.isReadable_of_inFull hf, ?_⟩
    split at h
    · cases h
      assumption
    · cases h
  · rintro ⟨hr, h⟩
    exact ⟨(), if_pos hr, by rw [h]⟩

end Predicate

theorem Condition.isCarriedBy_of_ofNode {members : List Member} {condition : Condition}
    (h : ofNode (.object members) = .ok condition) :
    Form.condition.isCarriedBy members = true := by
  obtain ⟨row, hr, -⟩ := bind_ok.mp h
  obtain ⟨hcolumn, -⟩ := Fields.ofMembers_reads hr (by decide)
  exact Form.isCarriedBy_of_required hcolumn (by decide) nofun

/-- The filters of a list are accepted when no form beside it was taken. -/
theorem Predicate.filtersOfNodes?_of_uncombined {members : List Member} {predicate : Predicate}
    {connective : Connective} {items : List Node}
    (h : filterOfNode? (.object members) = some predicate)
    (hu : Expression.filterForms.countP (Form.isCarriedBy members) ≤ 1)
    (hm : (some connective.name, .array items) ∈ members) :
    ∃ children, filtersOfNodes? items = some children := by
  have hgroup := Form.group_isCarriedBy hm
  obtain ⟨condition, hc, rfl⟩ | ⟨_, other, children, ⟨⟩, hc, rfl⟩ := filterOfNode?_some h
  · have hsame := Form.eq_of_isCarriedBy hu Form.condition_mem_filterForms
      (Form.group_mem_filterForms connective) (Condition.isCarriedBy_of_ofNode hc) hgroup
    exact absurd hsame (Form.condition_ne_group connective)
  · obtain ⟨taken, ht, hchildren, hunique⟩ := membersGroup?_some hc
    have hsame := Form.eq_of_isCarriedBy hu (Form.group_mem_filterForms other)
      (Form.group_mem_filterForms connective) (Form.group_isCarriedBy ht) hgroup
    obtain rfl := Form.group_injective hsame
    cases hunique _ hm
    exact ⟨children, hchildren⟩

theorem Predicate.countP_filterForms_pos {members : List Member} {predicate : Predicate}
    (h : filterOfNode? (.object members) = some predicate) :
    0 < Expression.filterForms.countP (Form.isCarriedBy members) := by
  rw [List.countP_pos_iff]
  obtain ⟨condition, hc, rfl⟩ | ⟨_, connective, children, ⟨⟩, hc, rfl⟩ := filterOfNode?_some h
  · exact ⟨_, Form.condition_mem_filterForms, Condition.isCarriedBy_of_ofNode hc⟩
  · obtain ⟨items, hm, -⟩ := membersGroup?_some hc
    exact ⟨_, Form.group_mem_filterForms connective, Form.group_isCarriedBy hm⟩

-- ---------------------------------------------------------------------------
-- Row filters
-- ---------------------------------------------------------------------------

namespace RowFilter

/-- What is left of the members beside the metadata has been read in full. -/
theorem splitMembers_eq {members others : List Member} {metadata found : Option FilterMetadata}
    (h : splitMembers metadata members = .ok (found, others)) :
    others = members.filter (fun member => member.1 ≠ some "metadata") ∧
      Node.membersReadable others = true := by
  induction members generalizing metadata others with
  | nil =>
    cases h
    exact ⟨rfl, rfl⟩
  | cons member rest ih =>
    obtain ⟨name, node⟩ := member
    cases name with
    | none => cases h
    | some name =>
      rw [splitMembers] at h
      split at h
      · rename_i hn
        split at h
        · cases h
        · obtain ⟨value, -, h⟩ := bind_ok.mp h
          simpa [hn] using ih h
      · rename_i hn
        obtain ⟨_, hf, h⟩ := bind_ok.mp h
        obtain ⟨⟨found', others'⟩, hs, h⟩ := bind_ok.mp h
        cases h
        obtain ⟨rfl, hr⟩ := ih hs
        refine ⟨by simp [hn], ?_⟩
        rw [Node.membersReadable, Node.isReadable_of_inFull hf, hr]
        rfl

/-- The predicate of a row filter is the filter that stands beside the metadata. -/
theorem ofNode_object_ok {members : List Member} {filter : RowFilter}
    (h : ofNode (.object members) = .ok filter) :
    ∃ others, splitMembers none members = .ok (some filter.metadata, others) ∧
      Predicate.ofFilter (.object others) = .ok filter.predicate := by
  obtain ⟨⟨found, others⟩, hs, h⟩ := bind_ok.mp h
  cases found with
  | none => cases h
  | some metadata =>
    obtain ⟨predicate, hp, h⟩ := bind_ok.mp h
    cases h
    have hr : (Node.object others).isReadable = true := (splitMembers_eq hs).2
    exact ⟨others, hs, bind_ok.mpr ⟨(), if_pos hr, hp⟩⟩

end RowFilter

theorem Form.isCarriedBy_filter {form : Form} {members : List Member} {keep : Member → Bool}
    (h : ∀ name ∈ form.marks, ∀ node, keep (some name, node) = true) :
    form.isCarriedBy (members.filter keep) = form.isCarriedBy members := by
  rw [Bool.eq_iff_iff, isCarriedBy_iff, isCarriedBy_iff]
  constructor
  · rintro ⟨name, hn, node, hm, hv⟩
    exact ⟨name, hn, node, List.mem_of_mem_filter hm, hv⟩
  · rintro ⟨name, hn, node, hm, hv⟩
    exact ⟨name, hn, node, List.mem_filter.mpr ⟨hm, h name hn node⟩, hv⟩

namespace Expression

theorem formsOf_rowFilter (members : List Member) :
    rowFilter.formsOf members =
      filter.formsOf (members.filter fun member => member.1 ≠ some "metadata") := by
  have hm : ∀ form ∈ filterForms, "metadata" ∉ form.marks := by decide
  rw [formsOf, forms, List.countP_map, formsOf, forms]
  refine List.countP_congr fun form hf => ?_
  rw [Form.isCarriedBy_filter]
  · rfl
  · intro name hn node
    have hne : name ≠ "metadata" := fun he => hm form hf (he ▸ hn)
    simp [hne]

end Expression

-- ---------------------------------------------------------------------------
-- Columns
-- ---------------------------------------------------------------------------

namespace Column

theorem rawFields_isCarriedBy {members : List Member} {row : Row [String]}
    (h : rawFields.ofMembers false members = .ok row) :
    Form.isCarriedBy members ⟨["sql"], []⟩ = true := by
  obtain ⟨hsql, -⟩ := Fields.ofMembers_reads h (by decide)
  exact Form.isCarriedBy_of_required hsql (List.mem_singleton_self _) nofun

theorem casedFields_isCarriedBy {members : List Member} {row : Row [List CaseClause]}
    (h : casedFields.ofMembers false members = .ok row) :
    Form.isCarriedBy members ⟨["cases"], []⟩ = true := by
  obtain ⟨hcases, -⟩ := Fields.ofMembers_reads h (by decide)
  exact Form.isCarriedBy_of_required hcases (List.mem_singleton_self _) nofun

theorem formsOf_pos {members : List Member} {column : Column}
    (h : ofNode (.object members) = .ok column) : 0 < Expression.column.formsOf members := by
  obtain ⟨_, ⟨⟩, hm⟩ := ofNode_ok h
  refine List.countP_pos_iff.mpr ?_
  obtain ⟨sql, hr, -⟩ | ⟨clauses, hr, -⟩ := ofMembers?_some hm
  · exact ⟨_, by simp [Expression.forms], rawFields_isCarriedBy hr⟩
  · exact ⟨_, by simp [Expression.forms], casedFields_isCarriedBy hr⟩

theorem clauses_of_uncombined {members : List Member} {column : Column} {items : List Node}
    (h : ofNode (.object members) = .ok column) (hu : Expression.column.formsOf members ≤ 1)
    (hm : (some "cases", .array items) ∈ members) :
    ∀ item ∈ items, ∃ clause, CaseClause.ofNode item = .ok clause := by
  obtain ⟨_, ⟨⟩, hc⟩ := ofNode_ok h
  obtain ⟨sql, hr, -⟩ | ⟨clauses, hr, -⟩ := ofMembers?_some hc
  · have hcases : Form.isCarriedBy members ⟨["cases"], []⟩ = true :=
      Form.isCarriedBy_iff.mpr ⟨_, List.mem_singleton_self _, _, hm, nofun⟩
    have hsame := Form.eq_of_isCarriedBy hu (by simp [Expression.forms])
      (by simp [Expression.forms]) (rawFields_isCarriedBy hr) hcases
    simp at hsame
  · obtain ⟨hcases, -⟩ := Fields.ofMembers_reads hr (by decide)
    exact Node.asList_items (hcases.present _ hm)

end Column

-- ---------------------------------------------------------------------------
-- Predicates
-- ---------------------------------------------------------------------------

namespace Predicate

/-- Nothing follows the only member. -/
theorem nil_of_only {x : Decoded α} {rest : List Member} {value : α}
    (h : (x >>= fun value => if rest.isEmpty then pure value else throw .malformed) =
      .ok value) : rest = [] := by
  obtain ⟨_, -, h⟩ := bind_ok.mp h
  split at h
  · exact List.isEmpty_iff.mp ‹_›
  · cases h

/-- The only member of an object is a condition or a group. -/
theorem ofNode_object_ok {members : List Member} {predicate : Predicate}
    (h : ofNode (.object members) = .ok predicate) :
    (∃ value condition, members = [(some "when", value)] ∧
        Condition.ofNode value = .ok condition) ∨
      ∃ connective value children, members = [(some (Connective.name connective), value)] ∧
        groupOfNode value = .ok children := by
  match members with
  | [] | (none, _) :: _ => cases h
  | (some name, value) :: rest =>
    rw [ofNode] at h
    split at h
    · rename_i hn
      obtain ⟨condition, hc, -⟩ := map_ok.mp (ok_of_only h)
      exact .inl ⟨value, condition, by rw [hn, nil_of_only h], hc⟩
    · split at h
      · rename_i hn
        obtain ⟨children, hc, -⟩ := map_ok.mp (ok_of_only h)
        exact .inr ⟨.and, value, children, by rw [hn, nil_of_only h, Connective.name], hc⟩
      · split at h
        · rename_i hn
          obtain ⟨children, hc, -⟩ := map_ok.mp (ok_of_only h)
          exact .inr ⟨.or, value, children, by rw [hn, nil_of_only h, Connective.name], hc⟩
        · cases h

theorem groupOfNode_array {items : List Node} {children : List Predicate}
    (h : groupOfNode (.array items) = .ok children) :
    ∀ item ∈ items, ∃ child, ofNode item = .ok child := by
  rw [groupOfNode] at h
  induction items generalizing children with
  | nil => exact List.forall_mem_nil _
  | cons item rest ih =>
    rw [ofNodes] at h
    obtain ⟨child, hc, h⟩ := bind_ok.mp h
    obtain ⟨others, ho, -⟩ := bind_ok.mp h
    exact List.forall_mem_cons.mpr ⟨⟨child, hc⟩, ih ho⟩

theorem formsOf_ofNode {members : List Member} {predicate : Predicate}
    (h : ofNode (.object members) = .ok predicate) : Expression.predicate.formsOf members = 1 := by
  have hcount (name : String) (hn : name ∈ caseNames) {value : Node} (hv : value.isNull = false) :
      Expression.predicate.formsOf [(some name, value)] = 1 := by
    simp only [caseNames, List.mem_cons, List.not_mem_nil, or_false] at hn
    obtain rfl | rfl | rfl := hn <;>
      simp [Expression.formsOf, Expression.forms, Form.isCarriedBy, Form.group, Connective.name, hv]
  obtain ⟨value, condition, rfl, hc⟩ | ⟨connective, value, children, rfl, hc⟩ :=
    ofNode_object_ok h
  · refine hcount _ (by decide) (Node.isNull_eq_false.mpr ?_)
    rintro rfl
    cases hc
  · refine hcount _ (by cases connective <;> decide) (Node.isNull_eq_false.mpr ?_)
    rintro rfl
    cases hc

end Predicate

-- ---------------------------------------------------------------------------
-- Clauses
-- ---------------------------------------------------------------------------

namespace CaseClause

/-- The parts of a clause are those of one of its forms. -/
theorem parts_once {condition : Option Condition} {conjuncts disjuncts : Option (List Predicate)}
    {predicate : Option Predicate} {outcome fallback : Option Outcome} {clause : CaseClause}
    (hp : predicateOfParts condition conjuncts disjuncts = .ok predicate)
    (hc : ofParts predicate outcome fallback = .ok clause) :
    [condition.isSome, conjuncts.isSome, disjuncts.isSome, fallback.isSome].countP id = 1 := by
  unfold predicateOfParts at hp
  split at hp <;> cases hp <;> cases outcome <;> cases fallback <;> first | rfl | cases hc

theorem formsOf_ofNode {members : List Member} {clause : CaseClause}
    (h : ofNode (.object members) = .ok clause) : Expression.clause.formsOf members = 1 := by
  obtain ⟨⟨condition, conjuncts, disjuncts, outcome, fallback, _⟩, hr, h⟩ := bind_ok.mp h
  obtain ⟨predicate, hp, h⟩ := bind_ok.mp h
  obtain ⟨hcondition, hconjuncts, hdisjuncts, -, hfallback, -⟩ :=
    Fields.ofMembers_reads hr (by decide)
  rw [← parts_once hp h, ← Form.isCarriedBy_eq hcondition ["then"],
    ← Form.isCarriedBy_eq hconjuncts ["then"], ← Form.isCarriedBy_eq hdisjuncts ["then"],
    ← Form.isCarriedBy_eq hfallback []]
  rfl

theorem takes_of_has {node : Node} {clause : CaseClause} {name : String} {value : Node}
    (h : ofNode node = .ok clause) (hh : Expression.clause.Has node name value) :
    fields.Takes name value := by
  obtain ⟨row, hr, -⟩ := bind_ok.mp h
  cases hh with
  | member hm => exact Fields.ofMembers_takes hr hm
  | item hname hitem => exact Fields.ofItems_takes hr (by decide) hname hitem

theorem group_of_has {node : Node} {clause : CaseClause} {connective : Connective}
    {items : List Node} (h : ofNode node = .ok clause)
    (hh : Expression.clause.Has node connective.name (.array items)) :
    ∀ item ∈ items, ∃ child, Predicate.ofNode item = .ok child := by
  have ht := takes_of_has h hh
  have hgroup : ∃ children, (Node.array items).asOption Predicate.groupOfNode = .ok children := by
    cases connective <;>
      simpa [fields, Fields.Takes, Connective.name, optional] using ht
  obtain ⟨children, hc⟩ := hgroup
  cases children with
  | none => cases Node.asOption_none hc
  | some children => exact Predicate.groupOfNode_array (Node.asOption_some.mp hc).2

end CaseClause

-- ---------------------------------------------------------------------------
-- Expressions
-- ---------------------------------------------------------------------------

namespace Expression

variable {kind next part : Expression} {node tree : Node} {members : List Member}

theorem Accepts.formsOf_pos (h : kind.Accepts (.object members)) : 0 < kind.formsOf members := by
  obtain ⟨value, h⟩ := h
  cases kind with
  | rowFilter =>
    obtain ⟨others, hs, hf⟩ := RowFilter.ofNode_object_ok h
    rw [formsOf_rowFilter, ← (RowFilter.splitMembers_eq hs).1]
    exact Predicate.countP_filterForms_pos (Predicate.ofFilter_ok.mp hf).2
  | filter => exact Predicate.countP_filterForms_pos (Predicate.ofFilter_ok.mp h).2
  | column => exact Column.formsOf_pos h
  | clause => exact (CaseClause.formsOf_ofNode h).symm ▸ Nat.one_pos
  | predicate => exact (Predicate.formsOf_ofNode h).symm ▸ Nat.one_pos

theorem Accepts.formsOf_eq_one (h : kind.Accepts (.object members))
    (hu : kind.isOpen = true → kind.formsOf members ≤ 1) : kind.formsOf members = 1 := by
  cases kind with
  | rowFilter | filter | column => exact Nat.le_antisymm (hu rfl) h.formsOf_pos
  | clause => exact CaseClause.formsOf_ofNode h.choose_spec
  | predicate => exact Predicate.formsOf_ofNode h.choose_spec

theorem filter_accepts_items {value : Predicate} {connective : Connective} {items : List Node}
    (h : Predicate.ofFilter (.object members) = .ok value) (hu : filter.formsOf members ≤ 1)
    (hm : (some connective.name, .array items) ∈ members) :
    ∀ item ∈ items, filter.Accepts item := by
  intro item hi
  obtain ⟨hr, hf⟩ := Predicate.ofFilter_ok.mp h
  obtain ⟨children, hc⟩ := Predicate.filtersOfNodes?_of_uncombined hf hu hm
  obtain ⟨child, hc⟩ := Predicate.filtersOfNodes?_mem hc item hi
  have harray : (Node.array items).isReadable = true := (Node.membersReadable_iff.mp hr _ hm).2
  exact ⟨child, Predicate.ofFilter_ok.mpr ⟨Node.allReadable_iff.mp harray item hi, hc⟩⟩

/-- What stands under a form of an accepted expression is accepted. -/
theorem Accepts.items {name : String} {items : List Node} (h : kind.Accepts node)
    (hu : ∀ members, node = .object members → kind.isOpen = true → kind.formsOf members ≤ 1)
    (hh : kind.Has node name (.array items)) (hl : kind.Lists name next) :
    ∀ item ∈ items, next.Accepts item := by
  obtain ⟨value, h⟩ := h
  cases hl with
  | rowFilter connective =>
    cases hh with
    | member hm =>
      obtain ⟨others, hs, hf⟩ := RowFilter.ofNode_object_ok h
      replace hu := hu _ rfl rfl
      rw [formsOf_rowFilter, ← (RowFilter.splitMembers_eq hs).1] at hu
      have hothers : (some connective.name, .array items) ∈ others := by
        rw [(RowFilter.splitMembers_eq hs).1, List.mem_filter]
        exact ⟨hm, by cases connective <;> rfl⟩
      exact filter_accepts_items hf hu hothers
  | filter connective =>
    cases hh with
    | member hm => exact filter_accepts_items h (hu _ rfl rfl) hm
  | column =>
    cases hh with
    | member hm => exact Column.clauses_of_uncombined h (hu _ rfl rfl) hm
  | clause connective => exact CaseClause.group_of_has h hh
  | predicate connective =>
    cases hh with
    | member hm =>
      obtain ⟨_, _, rfl, _⟩ | ⟨_, _, children, rfl, hc⟩ := Predicate.ofNode_object_ok h
      · cases connective <;> simp [Connective.name] at hm
      · obtain ⟨-, rfl⟩ := Prod.mk.inj (List.mem_singleton.mp hm)
        exact Predicate.groupOfNode_array hc

theorem Accepts.contains (h : kind.Accepts node) (hu : kind.Uncombined node)
    (hc : kind.Contains node part tree) : part.Accepts tree := by
  induction hc with
  | here => exact h
  | further hh hl hi _ ih =>
    refine ih (h.items (fun members he hopen => ?_) hh hl _ hi) fun part members hc => ?_
    · exact hu _ members (he ▸ .here) hopen
    · exact hu part members (.further hh hl hi hc)

theorem not_lists_open (hl : kind.Lists name next) (hk : kind.isOpen = false) :
    next.isOpen = false := by
  cases hl with
  | rowFilter | filter | column => cases hk
  | clause | predicate => rfl

/-- An expression that refuses other members contains only such expressions. -/
theorem uncombined_of_closed (hk : kind.isOpen = false) (node : Node) : kind.Uncombined node := by
  intro part members hc
  generalize Node.object members = tree at hc
  induction hc with
  | here => simp [hk]
  | further _ hl _ _ ih => exact ih (not_lists_open hl hk)

end Expression

end DeclarativeSql
