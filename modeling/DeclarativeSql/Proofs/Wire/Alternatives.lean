import DeclarativeSql.Proofs.Query.Reload
import DeclarativeSql.Proofs.Wire.Forms

/-!
# One form of an expression is taken

`expressions_take_one_form`: every object in an accepted clause has exactly one form, at every
level, and so has every object in any other accepted expression if none has several. An object
with several forms is what the first one is that is accepted by itself, and the others are
dropped.
-/

namespace DeclarativeSql

open Expression (filterForms)

-- ---------------------------------------------------------------------------
-- Members that belong to a form
-- ---------------------------------------------------------------------------

theorem Form.mem_only {form : Form} {members : List Member} {name : String} {node : Node} :
    (some name, node) ∈ form.only members ↔
      (some name, node) ∈ members ∧ name ∈ form.names := by
  simp [only]

theorem Form.only_readable {members : List Member} (form : Form)
    (h : Node.membersReadable members = true) :
    Node.membersReadable (form.only members) = true := by
  rw [Node.membersReadable_iff] at h ⊢
  exact fun member hm => h member (List.mem_of_mem_filter hm)

/-- A record reads the same from the members of a form that has all its fields. -/
theorem Form.ofMembers_only {fields : Fields types} {form : Form} {members : List Member}
    (h : Node.membersReadable members = true)
    (hn : ∀ name ∈ fields.names, name ∈ form.names) :
    fields.ofMembers false (form.only members) = fields.ofMembers false members := by
  refine Fields.ofMembers_filter fun member hm hk => ?_
  obtain ⟨hname, hr⟩ := Node.membersReadable_iff.mp h member hm
  obtain ⟨name, hname⟩ := Option.isSome_iff_exists.mp hname
  refine ⟨name, hname, fun hf => ?_, Node.isWellFormed_of_isReadable _ hr⟩
  simp [hname, hn name hf] at hk

theorem Form.not_isCarriedBy_only {form other : Form} (members : List Member)
    (hd : ∀ name ∈ other.marks, name ∉ form.names) :
    ¬ other.isCarriedBy (form.only members) = true := by
  rw [isCarriedBy_iff]
  rintro ⟨name, hn, node, hm, -⟩
  exact hd name hn (mem_only.mp hm).2

-- ---------------------------------------------------------------------------
-- Filters
-- ---------------------------------------------------------------------------

namespace Predicate

theorem isNamed_only {form : Form} {name : String} (members : List Member)
    (hn : name ∈ form.names) :
    isNamed name (form.only members) = isNamed name members := by
  rw [isNamed, Form.only, List.any_filter, isNamed]
  refine List.any_congr rfl fun member => ?_
  by_cases hm : member.1 = some name <;> simp [hm, hn]

theorem membersGroup?_only_form {form : Form} {name : String} (members : List Member)
    (hn : name ∈ form.names) :
    membersGroup? name (form.only members) = membersGroup? name members := by
  induction members with
  | nil => rfl
  | cons member rest ih =>
    obtain ⟨key, value⟩ := member
    have hrest := isNamed_only rest hn
    rw [Form.only] at ih hrest ⊢
    by_cases hk : key = some name
    · rw [List.filter_cons_of_pos (by simp [hk, hn]), membersGroup?,
        membersGroup?, if_pos hk, if_pos hk, hrest]
    · rw [membersGroup?, if_neg hk, ← ih, List.filter_cons]
      split
      · rw [membersGroup?, if_neg hk]
      · rfl

theorem membersGroup?_only_other {form : Form} {name : String} (members : List Member)
    (hn : name ∉ form.names) : membersGroup? name (form.only members) = none :=
  membersGroup?_none fun _ hm => hn (Form.mem_only.mp hm).2

theorem condition_only_group (connective : Connective) (members : List Member) :
    (Condition.ofNode (.object ((Form.group connective).only members))).toOption = none := by
  cases hc : Condition.ofNode (.object ((Form.group connective).only members)) with
  | error => rfl
  | ok condition =>
    refine absurd (Condition.isCarriedBy_of_ofNode hc) (Form.not_isCarriedBy_only members ?_)
    cases connective <;> decide

theorem filterOfNode?_only_group (connective : Connective) (members : List Member) :
    filterOfNode? (.object ((Form.group connective).only members)) =
      (membersGroup? connective.name members).map (.group connective) := by
  have hsame : membersGroup? connective.name ((Form.group connective).only members) =
      membersGroup? connective.name members :=
    membersGroup?_only_form members (by simp [Form.names, Form.group])
  have hother (other : Connective) (hne : other ≠ connective) :
      membersGroup? other.name ((Form.group connective).only members) = none := by
    refine membersGroup?_only_other members ?_
    cases other <;> cases connective <;> simp_all [Form.names, Form.group, Connective.name]
  rw [filterOfNode?, condition_only_group]
  cases connective with
  | and =>
    have hor := hother .or (by decide)
    simp only [Connective.name] at hsame hor ⊢
    rw [hsame, hor]
    cases membersGroup? "and" members <;> rfl
  | or =>
    have hand := hother .and (by decide)
    simp only [Connective.name] at hsame hand ⊢
    rw [hsame, hand]
    cases membersGroup? "or" members <;> rfl

theorem filterOfNode?_only_condition {members : List Member}
    (h : Node.membersReadable members = true) :
    filterOfNode? (.object (Form.condition.only members)) =
      (Condition.ofNode (.object members)).toOption.map .leaf := by
  have hfields : Condition.fields.ofMembers false (Form.condition.only members) =
      Condition.fields.ofMembers false members := Form.ofMembers_only h (by decide)
  rw [filterOfNode?, membersGroup?_only_other members (by decide),
    membersGroup?_only_other members (by decide)]
  simp only [Condition.ofNode, Fields.decode, hfields]

/-- A filter is what the first of its forms is that is accepted by itself. -/
theorem findSome?_filterForms {members : List Member}
    (h : Node.membersReadable members = true) :
    (filterForms.findSome? fun form => filterOfNode? (.object (form.only members))) =
      filterOfNode? (.object members) := by
  simp only [filterForms, List.findSome?_cons, List.findSome?_nil, filterOfNode?_only_group,
    filterOfNode?_only_condition h, Connective.name]
  rw [filterOfNode?]
  cases membersGroup? "and" members with
  | some children => rfl
  | none =>
    cases membersGroup? "or" members with
    | some children => rfl
    | none => cases (Condition.ofNode (.object members)).toOption <;> rfl

theorem toOption_ofFilter {node : Node} (h : node.isReadable = true) :
    (ofFilter node).toOption = filterOfNode? node := by
  have hf : node.inFull = .ok () := if_pos h
  rw [ofFilter, hf, ofFilterNode]
  cases filterOfNode? node <;> rfl

end Predicate

-- ---------------------------------------------------------------------------
-- Row filters
-- ---------------------------------------------------------------------------

namespace RowFilter

/-- The metadata may be split off before other members are dropped. -/
theorem splitMembers_filter {keep : Member → Bool} {members others : List Member}
    {metadata found : Option FilterMetadata}
    (h : splitMembers metadata members = .ok (found, others))
    (hk : ∀ node, keep (some "metadata", node) = true) :
    splitMembers metadata (members.filter keep) = .ok (found, others.filter keep) := by
  induction members generalizing metadata others with
  | nil =>
    cases h
    rfl
  | cons member rest ih =>
    obtain ⟨name, node⟩ := member
    cases name with
    | none => cases h
    | some name =>
      rw [splitMembers] at h
      split at h
      · rename_i hn
        subst hn
        rw [List.filter_cons_of_pos (hk node), splitMembers, if_pos rfl]
        split at h
        · cases h
        · rename_i hm
          obtain ⟨value, hv, h⟩ := bind_ok.mp h
          rw [if_neg hm]
          exact bind_ok.mpr ⟨value, hv, ih h⟩
      · rename_i hn
        obtain ⟨_, hf, h⟩ := bind_ok.mp h
        obtain ⟨⟨found', others'⟩, hs, h⟩ := bind_ok.mp h
        cases h
        rw [List.filter_cons, List.filter_cons]
        split
        · rw [splitMembers, if_neg hn]
          exact bind_ok.mpr ⟨(), hf, bind_ok.mpr ⟨_, ih hs, rfl⟩⟩
        · exact ih hs

theorem ofNode_only {members others : List Member} {metadata : FilterMetadata}
    (h : splitMembers none members = .ok (some metadata, others)) (form : Form) :
    (ofNode (.object ((form.beside "metadata").only members))).toOption =
      (Predicate.filterOfNode? (.object (form.only others))).map (⟨metadata, ·⟩) := by
  have hs : splitMembers none ((form.beside "metadata").only members) =
      .ok (some metadata, form.only others) := by
    rw [Form.only, splitMembers_filter h (fun _ => by simp [Form.names, Form.beside]), Form.only]
    congr 2
    refine List.filter_congr fun member hm => ?_
    rw [(splitMembers_eq h).1, List.mem_filter] at hm
    obtain ⟨name, node⟩ := member
    cases name with
    | none => rfl
    | some name =>
      have hn : name ≠ "metadata" := by simpa using hm.2
      simp [Form.names, Form.beside, hn]
  rw [ofNode, hs]
  simp only [bind, Except.bind, Predicate.ofFilterNode]
  cases Predicate.filterOfNode? (.object (form.only others)) <;> rfl

end RowFilter

-- ---------------------------------------------------------------------------
-- Columns
-- ---------------------------------------------------------------------------

namespace Column

theorem toOption_ofNode {members : List Member} (h : Node.membersReadable members = true) :
    (ofNode (.object members)).toOption = ofMembers? members := by
  have hf : (Node.object members).inFull = .ok () := if_pos h
  rw [ofNode, hf]
  simp only [bind, Except.bind]
  cases ofMembers? members <;> rfl

theorem ofMembers?_only_sql {members : List Member} (h : Node.membersReadable members = true) :
    ofMembers? (Form.only ⟨["sql"], []⟩ members) =
      (rawFields.ofMembers false members).toOption.map fun (sql, _) => .raw sql := by
  have hraw : rawFields.ofMembers false (Form.only ⟨["sql"], []⟩ members) =
      rawFields.ofMembers false members := Form.ofMembers_only h (by decide)
  rw [ofMembers?, hraw]
  cases rawFields.ofMembers false members with
  | ok row => rfl
  | error =>
    cases hc : casedFields.ofMembers false (Form.only ⟨["sql"], []⟩ members) with
    | error => rfl
    | ok row =>
      exact absurd (casedFields_isCarriedBy hc) (Form.not_isCarriedBy_only members (by decide))

theorem ofMembers?_only_cases {members : List Member} (h : Node.membersReadable members = true) :
    ofMembers? (Form.only ⟨["cases"], []⟩ members) =
      (casedFields.ofMembers false members).toOption.map fun (clauses, _) => .cased clauses := by
  have hcased : casedFields.ofMembers false (Form.only ⟨["cases"], []⟩ members) =
      casedFields.ofMembers false members := Form.ofMembers_only h (by decide)
  rw [ofMembers?, hcased]
  cases hr : rawFields.ofMembers false (Form.only ⟨["cases"], []⟩ members) with
  | ok row =>
    exact absurd (rawFields_isCarriedBy hr) (Form.not_isCarriedBy_only members (by decide))
  | error => cases casedFields.ofMembers false members <;> rfl

theorem findSome?_forms {members : List Member} (h : Node.membersReadable members = true) :
    (Expression.column.forms.findSome? fun form => ofMembers? (form.only members)) =
      ofMembers? members := by
  simp only [Expression.forms, List.findSome?_cons, List.findSome?_nil, ofMembers?_only_sql h,
    ofMembers?_only_cases h]
  rw [ofMembers?]
  cases rawFields.ofMembers false members with
  | ok row => rfl
  | error => cases casedFields.ofMembers false members <;> rfl

end Column

-- ---------------------------------------------------------------------------
-- Expressions
-- ---------------------------------------------------------------------------

/-- What may have several forms is what the first of them is that is accepted by itself. -/
theorem Expression.findSome?_forms {kind : Expression} {members : List Member}
    {value : kind.Value} (hk : kind.isOpen = true)
    (h : kind.decode (.object members) = .ok value) :
    (kind.forms.findSome? fun form => (kind.decode (.object (form.only members))).toOption) =
      some value := by
  cases kind with
  | rowFilter =>
    obtain ⟨others, hs, hf⟩ := RowFilter.ofNode_object_ok h
    obtain ⟨hr, hf⟩ := Predicate.ofFilter_ok.mp hf
    simp only [forms, decode, List.findSome?_map, Function.comp_def, RowFilter.ofNode_only hs]
    rw [← Function.comp_def (Option.map _), ← List.map_findSome?,
      Predicate.findSome?_filterForms hr, hf]
    rfl
  | filter =>
    obtain ⟨hr, hf⟩ := Predicate.ofFilter_ok.mp h
    have hforms (form : Form) : (Predicate.ofFilter (.object (form.only members))).toOption =
        Predicate.filterOfNode? (.object (form.only members)) :=
      Predicate.toOption_ofFilter (form.only_readable hr)
    simp only [forms, decode, hforms]
    rw [Predicate.findSome?_filterForms hr, hf]
  | column =>
    obtain ⟨_, hf, _⟩ := bind_ok.mp h
    have hr := Node.isReadable_of_inFull hf
    have hforms (form : Form) := Column.toOption_ofNode (form.only_readable hr)
    have hc : (Column.ofNode (.object members)).toOption = some value := by
      rw [show Column.ofNode (.object members) = .ok value from h]
      rfl
    simp only [decode, hforms]
    rw [Column.findSome?_forms hr, ← Column.toOption_ofNode hr, hc]
  | clause | predicate => cases hk

theorem expressions_take_one_form (kind : Expression) {text : String} {value : kind.Value}
    (h : decodeText kind.decode text = .ok value) :
    (kind.isOpen = false ∨ kind.Uncombined (Json.read text).1 →
      ∀ part members, kind.Contains (Json.read text).1 part (.object members) →
        part.formsOf members = 1) ∧
    (kind.isOpen = true → ∀ members, (Json.read text).1 = .object members →
      (kind.forms.findSome? fun form =>
        (kind.decode (.object (form.only members))).toOption) = some value) := by
  obtain ⟨hd, -⟩ := decodeText_ok.mp h
  constructor
  · intro hu part members hc
    replace hu : kind.Uncombined (Json.read text).1 :=
      hu.elim (fun hk => Expression.uncombined_of_closed hk _) id
    have haccepts : kind.Accepts (Json.read text).1 := ⟨value, hd⟩
    exact (haccepts.contains hu hc).formsOf_eq_one (hu part members hc)
  · intro hk members hm
    rw [hm] at hd
    exact Expression.findSome?_forms hk hd

def isUnpaid : Condition :=
  ⟨"paid", "is_null", .null, none⟩

/-- An empty group beside a condition. -/
def unpaidClauseText : String :=
  "\x7b\"or\":[\x7b\"when\":\x7b\"column\":\"paid\",\"operator\":\"is_null\"\x7d\x7d," ++
    "\x7b\"and\":[]\x7d],\"then\":\x7b\"value\":\"free\"\x7d\x7d"

theorem decodeText_unpaidClauseText : decodeText CaseClause.ofNode unpaidClauseText =
    .ok (.branch (.group .or [.leaf isUnpaid, .group .and []]) (.value (.text "free"))) := by
  decide +kernel

/-- A connective without filters, and a member of no form. -/
def unpaidFilterText : String :=
  "\x7b\"or\":[\x7b\"column\":\"paid\",\"operator\":\"is_null\",\"and\":null\x7d],\"note\":true\x7d"

theorem read_unpaidFilterText : Json.read unpaidFilterText =
    (.object
      [(some "or", .array
        [.object [(some "column", .string "paid"), (some "operator", .string "is_null"),
          (some "and", .null)]]),
        (some "note", .bool true)], true) := by
  cbv

theorem decodeText_unpaidFilterText : decodeText Predicate.ofFilter unpaidFilterText =
    .ok (.group .or [.leaf isUnpaid]) := by
  rw [decodeText, read_unpaidFilterText]
  rfl

theorem uncombined_unpaidFilterText :
    Expression.filter.Uncombined (Json.read unpaidFilterText).1 := by
  rw [read_unpaidFilterText]
  intro part members hc _
  -- The one list is under `or`, and the filter in it holds none: its `and` is `null`.
  cases hc with
  | here => decide
  | further hh hl hi hc =>
    cases hl with
    | filter connective =>
      cases hh with
      | member hm =>
        obtain ⟨-, rfl⟩ : connective.name = "or" ∧ _ := by simpa using hm
        obtain rfl := List.mem_singleton.mp hi
        cases hc with
        | here => decide
        | further hh hl =>
          cases hl with
          | filter connective =>
            cases hh with
            | member hm => simp at hm

/-- A row filter with both connectives. -/
def twofoldText : String :=
  "\x7b\"metadata\":\x7b\"templateType\":\"row_filter\",\"identifier\":\"paid\"\x7d," ++
    "\"and\":[\x7b\"column\":\"paid\",\"operator\":\"is_null\"\x7d]," ++
    "\"or\":[\x7b\"column\":\"spend\",\"operator\":\"is_null\"\x7d]\x7d"

def twofoldMembers : List Member :=
  [(some "metadata", .object
      [(some "templateType", .string "row_filter"), (some "identifier", .string "paid")]),
    (some "and", .array
      [.object [(some "column", .string "paid"), (some "operator", .string "is_null")]]),
    (some "or", .array
      [.object [(some "column", .string "spend"), (some "operator", .string "is_null")]])]

theorem read_twofoldText : Json.read twofoldText = (.object twofoldMembers, true) := by
  cbv

theorem decodeText_twofoldText : decodeText RowFilter.ofNode twofoldText =
    .ok (.named "paid" (.group .and [.leaf isUnpaid])) := by
  rw [decodeText, read_twofoldText]
  rfl

theorem expressions_take_one_form_of_unpaid :
    decodeText CaseClause.ofNode unpaidClauseText =
        .ok (.branch (.group .or [.leaf isUnpaid, .group .and []]) (.value (.text "free"))) ∧
      (∀ part members,
        Expression.clause.Contains (Json.read unpaidClauseText).1 part (.object members) →
          part.formsOf members = 1) ∧
      decodeText Predicate.ofFilter unpaidFilterText = .ok (.group .or [.leaf isUnpaid]) ∧
      Expression.filter.Uncombined (Json.read unpaidFilterText).1 ∧
      (∀ part members,
        Expression.filter.Contains (Json.read unpaidFilterText).1 part (.object members) →
          part.formsOf members = 1) ∧
      decodeText RowFilter.ofNode twofoldText =
        .ok (.named "paid" (.group .and [.leaf isUnpaid])) ∧
      (Expression.rowFilter.forms.findSome? fun form =>
        (RowFilter.ofNode (.object (form.only twofoldMembers))).toOption) =
          some (.named "paid" (.group .and [.leaf isUnpaid])) :=
  ⟨decodeText_unpaidClauseText,
    (expressions_take_one_form .clause decodeText_unpaidClauseText).1 (.inl rfl),
    decodeText_unpaidFilterText, uncombined_unpaidFilterText,
    (expressions_take_one_form .filter decodeText_unpaidFilterText).1
      (.inr uncombined_unpaidFilterText),
    decodeText_twofoldText,
    (expressions_take_one_form .rowFilter decodeText_twofoldText).2 rfl _
      (congrArg Prod.fst read_twofoldText)⟩

/-- The second connective is dropped without a word. -/
theorem accepted_row_filter_with_two_forms :
    ¬ ∀ (kind : Expression) (text : String) (value : kind.Value),
      decodeText kind.decode text = .ok value →
        ∀ part members, kind.Contains (Json.read text).1 part (.object members) →
          part.formsOf members = 1 := by
  intro h
  have hone := h .rowFilter twofoldText _ decodeText_twofoldText .rowFilter twofoldMembers
    (read_twofoldText ▸ .here)
  have htwo : Expression.rowFilter.formsOf twofoldMembers = 2 := by decide
  rw [htwo] at hone
  cases hone

end DeclarativeSql
