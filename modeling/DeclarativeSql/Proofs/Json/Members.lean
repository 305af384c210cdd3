import DeclarativeSql.Proofs.Json.Decoding

/-!
# Records by name

`Fields.ofMembers_reads` and `Fields.ofItems_takes` say which tree a field of a decoded record is
read from: the members under its name, or the item in its position. Members under other names do
not matter where they are not refused, which is `Fields.ofMembers_filter`.
-/

namespace DeclarativeSql

/-- The members under the name of a field all have its value; without any it is absent. -/
structure Field.Reads (field : Field α) (members : List Member) (value : α) : Prop where
  present : ∀ node, (some field.name, node) ∈ members → field.decode node = .ok value
  absent : (∀ node, (some field.name, node) ∉ members) → field.absent = some value

/-- What a slot holds once these members are taken. -/
def Field.Holds (field : Field α) (members : List Member) : Option α → Prop
  | none => ∀ node, (some field.name, node) ∉ members
  | some value => field.Reads members value ∧ ∃ node, (some field.name, node) ∈ members

-- ---------------------------------------------------------------------------
-- Single fields
-- ---------------------------------------------------------------------------

namespace Field

theorem Reads.of_required {name : String} {decode : Node → Decoded α} {members : List Member}
    {value : α} (h : (required name decode).Reads members value) :
    ∃ node, (some name, node) ∈ members ∧ decode node = .ok value := by
  by_contra hn
  rw [not_exists] at hn
  have habsent := h.absent fun node hm => hn node ⟨hm, h.present node hm⟩
  cases habsent

/-- An optional field has a value when a member under its name is not `null`. -/
theorem Reads.isSome_iff {name : String} {decode : Node → Decoded α} {members : List Member}
    {value : Option α} (h : (optional name (Node.asOption decode) none).Reads members value) :
    value.isSome = true ↔ ∃ node, (some name, node) ∈ members ∧ node ≠ .null := by
  constructor
  · intro hv
    obtain ⟨value, rfl⟩ := Option.isSome_iff_exists.mp hv
    by_contra hn
    rw [not_exists] at hn
    have habsent := h.absent fun node hm =>
      hn node ⟨hm, (Node.asOption_some.mp (h.present node hm)).1⟩
    cases habsent
  · rintro ⟨node, hm, hnode⟩
    cases value with
    | some value => rfl
    | none => exact absurd (Node.asOption_none (h.present node hm)) hnode

theorem Holds.other {field : Field α} {members : List Member} {slot : Option α}
    (h : field.Holds members slot) {name : String} (hn : name ≠ field.name) (node : Node) :
    field.Holds (members ++ [(some name, node)]) slot := by
  have hm (other : Node) : (some field.name, other) ∈ members ++ [(some name, node)] ↔
      (some field.name, other) ∈ members := by
    simp [Ne.symm hn]
  cases slot with
  | none => exact fun other ho => h other ((hm other).mp ho)
  | some value =>
    obtain ⟨hr, other, ho⟩ := h
    refine ⟨⟨fun other ho => hr.present other ((hm other).mp ho), fun hnone => ?_⟩, ?_⟩
    · exact hr.absent fun other ho => hnone other ((hm other).mpr ho)
    · exact ⟨other, (hm other).mpr ho⟩

theorem Holds.taken {field : Field α} {members : List Member} {node : Node} {value : α}
    (h : field.Holds members none) (hv : field.decode node = .ok value) :
    field.Holds (members ++ [(some field.name, node)]) (some value) := by
  have hm : (some field.name, node) ∈ members ++ [(some field.name, node)] := by simp
  refine ⟨⟨fun other ho => ?_, fun hnone => absurd hm (hnone node)⟩, node, hm⟩
  obtain ho | ho := List.mem_append.mp ho
  · exact absurd ho (h other)
  · cases List.mem_singleton.mp ho
    exact hv

theorem Holds.reads {field : Field α} {members : List Member} {slot : Option α} {value : α}
    (h : field.Holds members slot) (hv : slot.or field.absent = some value) :
    field.Reads members value := by
  cases slot with
  | none => exact ⟨fun node hm => absurd hm (h node), fun _ => hv⟩
  | some other =>
    cases hv
    exact h.1

end Field

-- ---------------------------------------------------------------------------
-- All the fields
-- ---------------------------------------------------------------------------

namespace Fields

def Reads : Fields types → List Member → Row types → Prop
  | .nil, _, _ => True
  | .cons field rest, members, (value, row) => field.Reads members value ∧ rest.Reads members row

def Holds : Fields types → List Member → Slots types → Prop
  | .nil, _, _ => True
  | .cons field rest, members, (slot, slots) =>
    field.Holds members slot ∧ rest.Holds members slots

theorem holds_empty (fields : Fields types) : fields.Holds [] fields.empty := by
  induction fields with
  | nil => trivial
  | cons field rest ih => exact ⟨nofun, ih⟩

theorem take?_eq_none {fields : Fields types} {slots : Slots types} {name : String}
    {node : Node} : fields.take? slots name node = none ↔ name ∉ fields.names := by
  induction fields with
  | nil => simp [take?, names]
  | cons field rest ih =>
    obtain ⟨slot, slots⟩ := slots
    rw [names, List.mem_cons, not_or]
    constructor
    · intro h
      obtain ⟨hn, hr⟩ := take?_cons_none h
      exact ⟨hn, ih.mp hr⟩
    · rintro ⟨hn, hr⟩
      rw [take?_other hn, ih.mpr hr, Option.map_none]

theorem Holds.other {fields : Fields types} {members : List Member} {slots : Slots types}
    (h : fields.Holds members slots) {name : String} (hn : name ∉ fields.names) (node : Node) :
    fields.Holds (members ++ [(some name, node)]) slots := by
  induction fields with
  | nil => trivial
  | cons field rest ih =>
    obtain ⟨hf, hr⟩ := h
    obtain ⟨hne, hn⟩ := not_or.mp (List.mem_cons.not.mp hn)
    exact ⟨hf.other hne node, ih hr hn⟩

/-- A member that is taken goes into an empty slot, and no other field has its name. -/
theorem take?_holds {fields : Fields types} {members : List Member} {slots next : Slots types}
    {name : String} {node : Node} (hn : fields.names.Nodup)
    (h : fields.take? slots name node = some (.ok next)) (hs : fields.Holds members slots) :
    fields.Holds (members ++ [(some name, node)]) next := by
  induction fields with
  | nil => cases h
  | cons field rest ih =>
    obtain ⟨slot, slots⟩ := slots
    obtain ⟨hf, hr⟩ := hs
    obtain ⟨hd, hn⟩ := List.nodup_cons.mp hn
    obtain ⟨rfl, value, hv, rfl⟩ | ⟨hne, others, ho, rfl⟩ := take?_cons_ok h
    · cases slot with
      | some other => simp [take?] at h
      | none => exact ⟨hf.taken hv, hr.other hd node⟩
    · exact ⟨hf.other hne node, ih hn ho hr⟩

theorem takeMembers_holds {fields : Fields types} {refuseUnknown : Bool}
    {seen members : List Member} {slots taken : Slots types} (hn : fields.names.Nodup)
    (h : fields.takeMembers refuseUnknown slots members = .ok taken)
    (hs : fields.Holds seen slots) : fields.Holds (seen ++ members) taken := by
  induction members generalizing seen slots with
  | nil =>
    cases h
    rwa [List.append_nil]
  | cons member members ih =>
    obtain ⟨name, node⟩ := member
    obtain ⟨_, rfl, next, ht, hr⟩ := takeMembers_cons_ok h
    rw [List.append_cons]
    obtain ht | ⟨hnone, rfl⟩ := ht
    · exact ih hr (take?_holds hn ht hs)
    · exact ih hr (hs.other (take?_eq_none.mp hnone) node)

theorem finish_reads {fields : Fields types} {members : List Member} {slots : Slots types}
    {row : Row types} (h : fields.finish slots = .ok row) (hs : fields.Holds members slots) :
    fields.Reads members row := by
  induction fields with
  | nil => trivial
  | cons field rest ih =>
    obtain ⟨slot, slots⟩ := slots
    rw [finish] at h
    split at h
    · rename_i value hv
      obtain ⟨row, hr, h⟩ := bind_ok.mp h
      obtain rfl := pure_ok.mp h
      exact ⟨hs.1.reads hv, ih hr hs.2⟩
    · cases h

theorem ofMembers_reads {fields : Fields types} {refuseUnknown : Bool} {members : List Member}
    {row : Row types} (h : fields.ofMembers refuseUnknown members = .ok row)
    (hn : fields.names.Nodup) : fields.Reads members row := by
  obtain ⟨slots, hs, h⟩ := bind_ok.mp h
  exact finish_reads h (takeMembers_holds hn hs fields.holds_empty)

theorem ofItems_takes {fields : Fields types} {items : List Node} {row : Row types} {i : Nat}
    {name : String} {node : Node} (h : fields.ofItems items = .ok row) (hn : fields.names.Nodup)
    (hname : fields.names[i]? = some name) (hnode : items[i]? = some node) :
    fields.Takes name node := by
  induction fields generalizing items i with
  | nil => trivial
  | cons field rest ih =>
    obtain ⟨hd, hn⟩ := List.nodup_cons.mp hn
    cases items with
    | nil => cases hnode
    | cons item items =>
      rw [ofItems] at h
      obtain ⟨value, hv, h⟩ := bind_ok.mp h
      obtain ⟨row, hr, -⟩ := bind_ok.mp h
      rw [Takes]
      cases i with
      | zero =>
        cases hname
        cases hnode
        rw [if_pos rfl]
        exact ⟨value, hv⟩
      | succ i =>
        have hm : name ∈ rest.names := List.mem_of_getElem? hname
        have hne : name ≠ field.name := fun he => hd (he ▸ hm)
        rw [if_neg hne]
        exact ih hr hn hname hnode

-- ---------------------------------------------------------------------------
-- Members that are no field's
-- ---------------------------------------------------------------------------

theorem takeMembers_filter {fields : Fields types} {keep : Member → Bool}
    {members : List Member} (h : ∀ member ∈ members, keep member = false →
      ∃ name, member.1 = some name ∧ name ∉ fields.names ∧ member.2.isWellFormed = true)
    (slots : Slots types) :
    fields.takeMembers false slots (members.filter keep) =
      fields.takeMembers false slots members := by
  induction members generalizing slots with
  | nil => rfl
  | cons member members ih =>
    obtain ⟨hmember, hmembers⟩ := List.forall_mem_cons.mp h
    replace ih := ih hmembers
    obtain ⟨key, node⟩ := member
    cases hk : keep (key, node) with
    | true =>
      rw [List.filter_cons_of_pos hk]
      cases key with
      | none => rfl
      | some name => simp only [takeMembers, ih]
    | false =>
      obtain ⟨name, ⟨⟩, hn, hw⟩ := hmember hk
      rw [List.filter_cons_of_neg (by simp [hk]), ih, takeMembers, take?_eq_none.mpr hn, Node.skip,
        if_pos hw]
      rfl

theorem ofMembers_filter {fields : Fields types} {keep : Member → Bool} {members : List Member}
    (h : ∀ member ∈ members, keep member = false →
      ∃ name, member.1 = some name ∧ name ∉ fields.names ∧ member.2.isWellFormed = true) :
    fields.ofMembers false (members.filter keep) = fields.ofMembers false members := by
  rw [ofMembers, takeMembers_filter h, ofMembers]

end Fields

-- ---------------------------------------------------------------------------
-- Readable trees
-- ---------------------------------------------------------------------------

namespace Node

theorem allReadable_iff {items : List Node} :
    allReadable items = true ↔ ∀ item ∈ items, item.isReadable = true := by
  induction items with
  | nil => simp [allReadable]
  | cons item rest ih => simp [allReadable, ih]

theorem membersReadable_iff {members : List Member} :
    membersReadable members = true ↔
      ∀ member ∈ members, member.1.isSome = true ∧ member.2.isReadable = true := by
  induction members with
  | nil => simp [membersReadable]
  | cons member rest ih => simp [membersReadable, ih]

mutual
/-- What has a value may be skipped. -/
theorem isWellFormed_of_isReadable : (node : Node) → node.isReadable = true →
    node.isWellFormed = true
  | .array items, h => allWellFormed_of_allReadable items h
  | .object members, h => membersWellFormed_of_membersReadable members h
  | .null, _ | .bool _, _ | .number _, _ | .string _, _ => rfl
  | .unreadable, h | .broken, h => by cases h
theorem allWellFormed_of_allReadable : (items : List Node) → allReadable items = true →
    allWellFormed items = true
  | [], _ => rfl
  | item :: rest, h => by
    rw [allReadable, Bool.and_eq_true] at h
    rw [allWellFormed, isWellFormed_of_isReadable item h.1, allWellFormed_of_allReadable rest h.2]
    rfl
theorem membersWellFormed_of_membersReadable : (members : List Member) →
    membersReadable members = true → membersWellFormed members = true
  | [], _ => rfl
  | (_, node) :: rest, h => by
    rw [membersReadable, Bool.and_eq_true, Bool.and_eq_true] at h
    rw [membersWellFormed, isWellFormed_of_isReadable node h.1.2,
      membersWellFormed_of_membersReadable rest h.2]
    rfl
end

end Node

end DeclarativeSql
