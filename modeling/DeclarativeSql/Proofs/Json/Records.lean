import DeclarativeSql.Json.Record
import DeclarativeSql.Proofs.Json.Within
import DeclarativeSql.Proofs.Statement.Compiled

/-!
# Records, decoded and written

`Fields.decode_ok` says where the values of a decoded record come from, `Fields.ofMembers_takes`
that no member with a value of its own is passed over, and `Fields.ofMembers_of_written` that
members written in the order of the fields are decoded to the values they were written from.
-/

namespace DeclarativeSql

/-- The value stands for an absent field or is decoded from one of the trees. -/
def Field.Yields (field : Field α) (trees : List Node) (value : α) : Prop :=
  field.absent = some value ∨ ∃ tree ∈ trees, field.decode tree = .ok value

namespace Fields

-- ---------------------------------------------------------------------------
-- Members taken one by one
-- ---------------------------------------------------------------------------

theorem take?_same (field : Field α) (rest : Fields types) (slots : Slots types) (node : Node) :
    (Fields.cons field rest).take? (none, slots) field.name node =
      some ((field.decode node).map fun value => (some value, slots)) := by
  simp [take?]

theorem take?_other {field : Field α} {name : String} (h : name ≠ field.name)
    (rest : Fields types) (slot : Option α) (slots : Slots types) (node : Node) :
    (Fields.cons field rest).take? (slot, slots) name node =
      (rest.take? slots name node).map fun taken => taken.map fun slots => (slot, slots) := by
  simp [take?, h]

theorem take?_cons_ok {field : Field α} {rest : Fields types} {slot : Option α}
    {slots : Slots types} {taken : Slots (α :: types)} {name : String} {node : Node}
    (h : (Fields.cons field rest).take? (slot, slots) name node = some (.ok taken)) :
    (name = field.name ∧ ∃ value, field.decode node = .ok value ∧ taken = (some value, slots)) ∨
      (name ≠ field.name ∧
        ∃ others, rest.take? slots name node = some (.ok others) ∧ taken = (slot, others)) := by
  by_cases hn : name = field.name
  · subst hn
    cases slot with
    | some value => simp [take?] at h
    | none =>
      rw [take?_same] at h
      obtain ⟨value, hv, ht⟩ := map_ok.mp (Option.some.inj h)
      exact .inl ⟨rfl, value, hv, ht.symm⟩
  · rw [take?_other hn] at h
    obtain ⟨decoded, hd, hm⟩ := Option.map_eq_some_iff.mp h
    obtain ⟨others, rfl, ht⟩ := map_ok.mp hm
    exact .inr ⟨hn, others, hd, ht.symm⟩

theorem take?_cons_none {field : Field α} {rest : Fields types} {slot : Option α}
    {slots : Slots types} {name : String} {node : Node}
    (h : (Fields.cons field rest).take? (slot, slots) name node = none) :
    name ≠ field.name ∧ rest.take? slots name node = none := by
  by_cases hn : name = field.name
  · subst hn
    cases slot <;> simp [take?] at h
  · rw [take?_other hn] at h
    exact ⟨hn, Option.map_eq_none_iff.mp h⟩

/-- A member is taken into a slot, or is no field's and is skipped. -/
theorem takeMembers_cons_ok {fields : Fields types} {refuseUnknown : Bool} {member : Member}
    {members : List Member} {slots taken : Slots types}
    (h : fields.takeMembers refuseUnknown slots (member :: members) = .ok taken) :
    ∃ name, member.1 = some name ∧ ∃ next,
      (fields.take? slots name member.2 = some (.ok next) ∨
        fields.take? slots name member.2 = none ∧ next = slots) ∧
      fields.takeMembers refuseUnknown next members = .ok taken := by
  obtain ⟨name, node⟩ := member
  cases name with
  | none => cases h
  | some name =>
    refine ⟨name, rfl, ?_⟩
    rw [takeMembers] at h
    split at h
    · rename_i decoded hd
      obtain ⟨next, rfl, h⟩ := bind_ok.mp h
      exact ⟨next, .inl hd, h⟩
    · rename_i hd
      cases refuseUnknown with
      | true => cases h
      | false =>
        obtain ⟨_, _, h⟩ := bind_ok.mp h
        exact ⟨slots, .inr ⟨hd, rfl⟩, h⟩

-- ---------------------------------------------------------------------------
-- Where the values come from
-- ---------------------------------------------------------------------------

def Yield : Fields types → List Node → Row types → Prop
  | .nil, _, _ => True
  | .cons field rest, trees, (value, row) => field.Yields trees value ∧ rest.Yield trees row

/-- What is in the slots is decoded from one of the trees. -/
def Filled : Fields types → List Node → Slots types → Prop
  | .nil, _, _ => True
  | .cons field rest, trees, (slot, slots) =>
    (∀ value ∈ slot, ∃ tree ∈ trees, field.decode tree = .ok value) ∧ rest.Filled trees slots

theorem filled_empty (fields : Fields types) (trees : List Node) :
    fields.Filled trees fields.empty := by
  induction fields with
  | nil => trivial
  | cons field rest ih => exact ⟨nofun, ih⟩

theorem take?_filled {fields : Fields types} {slots taken : Slots types} {name : String}
    {node : Node} {trees : List Node} (h : fields.take? slots name node = some (.ok taken))
    (hn : node ∈ trees) (hs : fields.Filled trees slots) : fields.Filled trees taken := by
  induction fields with
  | nil => cases h
  | cons field rest ih =>
    obtain ⟨hslot, hs⟩ := hs
    obtain ⟨-, value, hv, rfl⟩ | ⟨-, others, ho, rfl⟩ := take?_cons_ok h
    · refine ⟨fun other he => ?_, hs⟩
      cases he
      exact ⟨node, hn, hv⟩
    · exact ⟨hslot, ih ho hs⟩

theorem takeMembers_filled {fields : Fields types} {refuseUnknown : Bool} {members : List Member}
    {slots taken : Slots types} {trees : List Node}
    (h : fields.takeMembers refuseUnknown slots members = .ok taken)
    (hm : ∀ member ∈ members, member.2 ∈ trees) (hs : fields.Filled trees slots) :
    fields.Filled trees taken := by
  induction members generalizing slots with
  | nil =>
    cases h
    exact hs
  | cons member members ih =>
    obtain ⟨hn, hm⟩ := List.forall_mem_cons.mp hm
    obtain ⟨name, -, next, ht | ⟨-, rfl⟩, hr⟩ := takeMembers_cons_ok h
    · exact ih hr hm (take?_filled ht hn hs)
    · exact ih hr hm hs

theorem finish_yield {fields : Fields types} {slots : Slots types} {row : Row types}
    {trees : List Node} (h : fields.finish slots = .ok row) (hs : fields.Filled trees slots) :
    fields.Yield trees row := by
  induction fields with
  | nil => trivial
  | cons field rest ih =>
    obtain ⟨slot, slots⟩ := slots
    obtain ⟨hslot, hs⟩ := hs
    rw [finish] at h
    split at h
    · rename_i value hv
      obtain ⟨row, hr, h⟩ := bind_ok.mp h
      obtain rfl := pure_ok.mp h
      refine ⟨?_, ih hr hs⟩
      cases slot with
      | none => exact .inl hv
      | some _ => exact .inr (hslot value hv)
    · cases h

theorem ofItems_yield {fields : Fields types} {items : List Node} {row : Row types}
    {trees : List Node} (h : fields.ofItems items = .ok row) (hi : ∀ item ∈ items, item ∈ trees) :
    fields.Yield trees row := by
  induction fields generalizing items with
  | nil => trivial
  | cons field rest ih =>
    cases items with
    | nil =>
      rw [ofItems] at h
      split at h
      · rename_i value hv
        obtain ⟨row, hr, h⟩ := bind_ok.mp h
        obtain rfl := pure_ok.mp h
        exact ⟨.inl hv, ih hr hi⟩
      · cases h
    | cons item items =>
      obtain ⟨hitem, hi⟩ := List.forall_mem_cons.mp hi
      rw [ofItems] at h
      obtain ⟨value, hv, h⟩ := bind_ok.mp h
      obtain ⟨row, hr, h⟩ := bind_ok.mp h
      obtain rfl := pure_ok.mp h
      exact ⟨.inr ⟨item, hitem, hv⟩, ih hr hi⟩

theorem ofMembers_yield {fields : Fields types} {refuseUnknown : Bool} {members : List Member}
    {row : Row types} (h : fields.ofMembers refuseUnknown members = .ok row) :
    fields.Yield (members.map Prod.snd) row := by
  obtain ⟨slots, hs, h⟩ := bind_ok.mp h
  exact finish_yield h
    (takeMembers_filled hs (fun _ => List.mem_map_of_mem) (filled_empty _ _))

theorem decode_ok {fields : Fields types} {refuseUnknown : Bool} {node : Node} {row : Row types}
    (h : fields.decode refuseUnknown node = .ok row) :
    node.isContainer = true ∧ fields.Yield node.children row := by
  unfold decode at h
  split at h
  · exact ⟨rfl, ofMembers_yield h⟩
  · exact ⟨rfl, ofItems_yield h fun _ => id⟩
  · cases h

-- ---------------------------------------------------------------------------
-- No member is passed over
-- ---------------------------------------------------------------------------

/-- A tree under a name that is a field's can be decoded. -/
def Takes : Fields types → String → Node → Prop
  | .nil, _, _ => True
  | .cons field rest, name, node =>
    if name = field.name then ∃ value, field.decode node = .ok value else rest.Takes name node

theorem take?_takes {fields : Fields types} {slots : Slots types} {name : String} {node : Node}
    (h : (∃ next, fields.take? slots name node = some (.ok next)) ∨
      fields.take? slots name node = none) : fields.Takes name node := by
  induction fields with
  | nil => trivial
  | cons field rest ih =>
    rw [Takes]
    obtain ⟨next, h⟩ | h := h
    · obtain ⟨rfl, value, hv, -⟩ | ⟨hn, others, ho, -⟩ := take?_cons_ok h
      · rw [if_pos rfl]
        exact ⟨value, hv⟩
      · rw [if_neg hn]
        exact ih (.inl ⟨others, ho⟩)
    · obtain ⟨hn, ho⟩ := take?_cons_none h
      rw [if_neg hn]
      exact ih (.inr ho)

theorem takeMembers_takes {fields : Fields types} {refuseUnknown : Bool} {members : List Member}
    {slots taken : Slots types} (h : fields.takeMembers refuseUnknown slots members = .ok taken)
    {name : String} {node : Node} (hm : (some name, node) ∈ members) : fields.Takes name node := by
  induction members generalizing slots with
  | nil => cases hm
  | cons member members ih =>
    obtain ⟨other, ho, next, ht, h⟩ := takeMembers_cons_ok h
    obtain rfl | hm := List.mem_cons.mp hm
    · cases ho
      exact take?_takes (ht.imp (fun h => ⟨next, h⟩) And.left)
    · exact ih h hm

theorem ofMembers_takes {fields : Fields types} {refuseUnknown : Bool} {members : List Member}
    {row : Row types} (h : fields.ofMembers refuseUnknown members = .ok row) {name : String}
    {node : Node} (hm : (some name, node) ∈ members) : fields.Takes name node := by
  obtain ⟨slots, hs, _⟩ := bind_ok.mp h
  exact takeMembers_takes hs hm

-- ---------------------------------------------------------------------------
-- Written members
-- ---------------------------------------------------------------------------

/-- Members in the order of the fields that stand for the values of a row. -/
inductive Written : Fields types → List Member → Row types → Prop
  | nil : Written .nil [] ()
  | present {field : Field α} (hv : field.decode node = .ok value)
    (hr : Written rest members row) :
    Written (.cons field rest) ((some field.name, node) :: members) (value, row)
  | absent {field : Field α} (hv : field.absent = some value) (hr : Written rest members row) :
    Written (.cons field rest) members (value, row)

theorem Written.name_mem {fields : Fields types} {members : List Member} {row : Row types}
    (h : Written fields members row) {name : String} {node : Node}
    (hm : (some name, node) ∈ members) : name ∈ fields.names := by
  induction h with
  | nil => cases hm
  | present _ _ ih =>
    obtain hm | hm := List.mem_cons.mp hm
    · cases hm
      exact List.mem_cons_self
    · exact List.mem_cons_of_mem _ (ih hm)
  | absent _ _ ih => exact List.mem_cons_of_mem _ (ih hm)

/-- Members with other names leave the first slot as it is. -/
theorem takeMembers_cons {field : Field α} {rest : Fields types} {refuseUnknown : Bool}
    {members : List Member} {slots taken : Slots types}
    (h : rest.takeMembers refuseUnknown slots members = .ok taken)
    (hm : ∀ node, (some field.name, node) ∉ members) (slot : Option α) :
    (Fields.cons field rest).takeMembers refuseUnknown (slot, slots) members =
      .ok (slot, taken) := by
  induction members generalizing slots with
  | nil =>
    cases h
    rfl
  | cons member members ih =>
    obtain ⟨name, node⟩ := member
    have hm' : ∀ node, (some field.name, node) ∉ members := fun node h =>
      hm node (List.mem_cons_of_mem _ h)
    cases name with
    | none => cases h
    | some name =>
      have hn : name ≠ field.name := fun he => hm node (he ▸ List.mem_cons_self)
      rw [takeMembers] at h ⊢
      rw [take?_other hn]
      split at h
      · rename_i decoded hd
        obtain ⟨next, rfl, h⟩ := bind_ok.mp h
        rw [hd]
        exact ih h hm'
      · rename_i hd
        cases refuseUnknown with
        | true => cases h
        | false =>
          obtain ⟨_, hskip, h⟩ := bind_ok.mp h
          rw [hd]
          exact bind_ok.mpr ⟨_, hskip, ih h hm'⟩

theorem Written.exists_takeMembers {fields : Fields types} {members : List Member}
    {row : Row types} (h : Written fields members row) (hn : fields.names.Nodup)
    (refuseUnknown : Bool) :
    ∃ slots, fields.takeMembers refuseUnknown fields.empty members = .ok slots ∧
      fields.finish slots = .ok row := by
  induction h with
  | nil => exact ⟨(), rfl, rfl⟩
  | @present α node value types rest members row field hv hr ih =>
    obtain ⟨hf, hn⟩ := List.nodup_cons.mp hn
    obtain ⟨slots, ht, hfin⟩ := ih hn
    refine ⟨(some value, slots), ?_, ?_⟩
    · rw [takeMembers, empty, take?_same, hv]
      exact takeMembers_cons ht (fun node hm => hf (hr.name_mem hm)) _
    · rw [finish, hfin]
      rfl
  | @absent α value types rest members row field hv hr ih =>
    obtain ⟨hf, hn⟩ := List.nodup_cons.mp hn
    obtain ⟨slots, ht, hfin⟩ := ih hn
    refine ⟨(none, slots), takeMembers_cons ht (fun node hm => hf (hr.name_mem hm)) none, ?_⟩
    rw [finish, Option.none_or, hv, hfin]
    rfl

theorem ofMembers_of_written {fields : Fields types} {members : List Member} {row : Row types}
    (h : Written fields members row) (hn : fields.names.Nodup) (refuseUnknown : Bool) :
    fields.ofMembers refuseUnknown members = .ok row := by
  obtain ⟨slots, ht, hf⟩ := h.exists_takeMembers hn refuseUnknown
  exact bind_ok.mpr ⟨slots, ht, hf⟩

end Fields

end DeclarativeSql
