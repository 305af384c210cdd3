import DeclarativeSql.Proofs.Json.Numbers
import DeclarativeSql.Proofs.Json.Strings

/-!
# Written values read back

`Json.read_compact`: the text of a value whose numbers read back is read as the tree of that
value, except that the containers nested too deeply are cut out of it. `Json.nodeAt` says which
tree this is, and `isReadable_nodeAt` when nothing is cut.
-/

namespace DeclarativeSql

namespace Json

-- ---------------------------------------------------------------------------
-- Numbers, nesting and trees of values
-- ---------------------------------------------------------------------------

mutual
def numbers : Json → List Number
  | .number value => [value]
  | .array items => numbersOfItems items
  | .object members => numbersOfMembers members
  | _ => []
def numbersOfItems : List Json → List Number
  | [] => []
  | item :: rest => item.numbers ++ numbersOfItems rest
def numbersOfMembers : List (String × Json) → List Number
  | [] => []
  | member :: rest => member.2.numbers ++ numbersOfMembers rest
end

/-- All numbers in the value are read as they are written. -/
def NumbersReadBack (value : Json) : Prop :=
  ∀ number ∈ value.numbers, number.ReadsBack

theorem numbersReadBack_array {items : List Json} :
    (Json.array items).NumbersReadBack ↔ ∀ item ∈ items, item.NumbersReadBack := by
  induction items with
  | nil => simp [NumbersReadBack, numbers, numbersOfItems]
  | cons item rest ih =>
    rw [List.forall_mem_cons, ← ih]
    exact List.forall_mem_append

theorem numbersReadBack_object {members : List (String × Json)} :
    (Json.object members).NumbersReadBack ↔ ∀ member ∈ members, member.2.NumbersReadBack := by
  induction members with
  | nil => simp [NumbersReadBack, numbers, numbersOfMembers]
  | cons member rest ih =>
    rw [List.forall_mem_cons, ← ih]
    exact List.forall_mem_append

mutual
/-- How many containers stand inside each other. -/
def depth : Json → Nat
  | .array items => depthOfItems items + 1
  | .object members => depthOfMembers members + 1
  | _ => 0
def depthOfItems : List Json → Nat
  | [] => 0
  | item :: rest => max item.depth (depthOfItems rest)
def depthOfMembers : List (String × Json) → Nat
  | [] => 0
  | member :: rest => max member.2.depth (depthOfMembers rest)
end

theorem depth_array_le {items : List Json} :
    (Json.array items).depth ≤ limit + 1 ↔ ∀ item ∈ items, item.depth ≤ limit := by
  rw [depth, Nat.add_le_add_iff_right]
  induction items with
  | nil => simp [depthOfItems]
  | cons item rest ih => rw [depthOfItems, Nat.max_le, ih, List.forall_mem_cons]

theorem depth_object_le {members : List (String × Json)} :
    (Json.object members).depth ≤ limit + 1 ↔ ∀ member ∈ members, member.2.depth ≤ limit := by
  rw [depth, Nat.add_le_add_iff_right]
  induction members with
  | nil => simp [depthOfMembers]
  | cons member rest ih => rw [depthOfMembers, Nat.max_le, ih, List.forall_mem_cons]

mutual
/-- The tree of a value inside `level` open containers. -/
def nodeAt (level : Nat) : Json → Node
  | .null => .null
  | .bool value => .bool value
  | .number value => .number value
  | .string value => .string value
  | .array items =>
    if level < Node.maxNesting then .array (nodesAt (level + 1) items) else .unreadable
  | .object members =>
    if level < Node.maxNesting then .object (membersAt (level + 1) members) else .unreadable
def nodesAt (level : Nat) : List Json → List Node
  | [] => []
  | item :: rest => item.nodeAt level :: nodesAt level rest
def membersAt (level : Nat) : List (String × Json) → List Member
  | [] => []
  | member :: rest => (some member.1, member.2.nodeAt level) :: membersAt level rest
end

-- ---------------------------------------------------------------------------
-- The reader at the first character
-- ---------------------------------------------------------------------------

theorem skipSpace_cons {c : Char} (h : isSpace c = false) (s : List Char) :
    skipSpace (c :: s) = c :: s := by
  simp [skipSpace, h]

/-- The characters that a value may start with inside a container. -/
def startsValue (c : Char) : Bool :=
  !isSpace c && c != ']'

theorem readValue_array (fuel level : Nat) {c : Char} (h : startsValue c = true) (s : List Char) :
    readValue (fuel + 1) level ('[' :: c :: s) =
      close level (.array (readItems fuel (level + 1) (c :: s)).1)
        (readItems fuel (level + 1) (c :: s)).2 := by
  simp only [startsValue, Bool.and_eq_true, Bool.not_eq_true', bne_iff_ne] at h
  obtain ⟨hs, hc⟩ := h
  simp only [readValue, skipSpace_cons (c := '[') rfl, skipSpace_cons hs]
  split
  · simp_all
  · rfl

theorem readValue_object (fuel level : Nat) (s : List Char) :
    readValue (fuel + 1) level ('\x7b' :: '"' :: s) =
      close level (.object (readMembers fuel (level + 1) ('"' :: s)).1)
        (readMembers fuel (level + 1) ('"' :: s)).2 := by
  simp only [readValue, skipSpace_cons (c := '\x7b') rfl, skipSpace_cons (c := '"') rfl]
  rfl

theorem readValue_string (fuel level : Nat) (s : List Char) :
    readValue (fuel + 1) level ('"' :: s) = readString s := by
  simp only [readValue, skipSpace_cons (c := '"') rfl]

theorem ne_of_number {c other : Char} (h : c = '-' ∨ c.isDigit = true) (hm : other ≠ '-')
    (hd : other.isDigit = false) : c ≠ other := by
  rintro rfl
  simp [hm, hd] at h

theorem startsValue_of_number {c : Char} (h : c = '-' ∨ c.isDigit = true) :
    startsValue c = true := by
  simp [startsValue, isSpace, ne_of_number h]

theorem readValue_number (fuel level : Nat) {c : Char} (h : c = '-' ∨ c.isDigit = true)
    (s : List Char) : readValue (fuel + 1) level (c :: s) = readNumber (c :: s) := by
  have hs := startsValue_of_number h
  simp only [startsValue, Bool.and_eq_true, Bool.not_eq_true'] at hs
  rw [readValue, skipSpace_cons hs.1]
  split <;> simp_all

/-- No written value is taken for the end of an array. -/
theorem compactChars_start {value : Json} (h : value.NumbersReadBack) :
    ∃ c s, value.compactChars = c :: s ∧ startsValue c = true := by
  cases value with
  | null => exact ⟨'n', _, rfl, rfl⟩
  | bool value => cases value <;> exact ⟨_, _, rfl, rfl⟩
  | number value =>
    obtain ⟨c, s, hs, hc⟩ := (h value (List.mem_singleton_self value)).start
    exact ⟨c, s, hs, startsValue_of_number hc⟩
  | string value => exact ⟨'"', _, rfl, rfl⟩
  | array items => cases items <;> exact ⟨'[', _, rfl, rfl⟩
  | object members => rcases members with _ | ⟨⟨name, value⟩, rest⟩ <;> exact ⟨'\x7b', _, rfl, rfl⟩

theorem close_some (level : Nat) (node : Node) (rest : List Char) :
    close level node (some rest) =
      (if level < Node.maxNesting then node else .unreadable, some rest) := by
  unfold close
  split <;> rfl

theorem readString_quote (s : String) (rest : List Char) :
    readString (s.toList.flatMap escapeChar ++ '"' :: rest) = (.string s, some rest) := by
  obtain ⟨pieces, hb, hs⟩ := stringBody?_quote s rest
  simp only [readString, hb, hs]

/-- The text of items up to the closing bracket. -/
def itemsText : List Json → List Char
  | [] => []
  | item :: rest => item.compactChars ++ compactItems rest

/-- The text of members up to the closing brace. -/
def membersText : List (String × Json) → List Char
  | [] => []
  | member :: rest => quote member.1 ++ ':' :: member.2.compactChars ++ compactMembers rest

theorem compactChars_array (item : Json) (items : List Json) :
    (Json.array (item :: items)).compactChars = '[' :: itemsText (item :: items) := by
  simp [compactChars, itemsText]

theorem compactChars_object (member : String × Json) (members : List (String × Json)) :
    (Json.object (member :: members)).compactChars = '\x7b' :: membersText (member :: members) := by
  simp [compactChars, membersText]

theorem itemsText_cons (item next : Json) (items : List Json) (rest : List Char) :
    itemsText (item :: next :: items) ++ rest =
      item.compactChars ++ ',' :: (itemsText (next :: items) ++ rest) := by
  simp [itemsText, compactItems]

theorem itemsText_singleton (item : Json) (rest : List Char) :
    itemsText [item] ++ rest = item.compactChars ++ ']' :: rest := by
  simp [itemsText, compactItems]

theorem membersText_cons (member next : String × Json) (members : List (String × Json))
    (rest : List Char) :
    membersText (member :: next :: members) ++ rest =
      '"' :: (member.1.toList.flatMap escapeChar ++ '"' :: ':' :: (member.2.compactChars ++
        ',' :: (membersText (next :: members) ++ rest))) := by
  simp [membersText, compactMembers, quote]

theorem membersText_singleton (member : String × Json) (rest : List Char) :
    membersText [member] ++ rest =
      '"' :: (member.1.toList.flatMap escapeChar ++ '"' :: ':' :: (member.2.compactChars ++
        '\x7d' :: rest)) := by
  simp [membersText, compactMembers, quote]

theorem membersText_start (member : String × Json) (members : List (String × Json))
    (rest : List Char) : ∃ s, membersText (member :: members) ++ rest = '"' :: s :=
  ⟨_, rfl⟩

theorem readItems_next {fuel level : Nat} {s rest : List Char} {item : Node}
    (h : readValue fuel level s = (item, some (',' :: rest))) :
    readItems (fuel + 1) level s =
      (item :: (readItems fuel level rest).1, (readItems fuel level rest).2) := by
  simp only [readItems, h, skipSpace_cons (c := ',') rfl]

theorem readItems_last {fuel level : Nat} {s rest : List Char} {item : Node}
    (h : readValue fuel level s = (item, some (']' :: rest))) :
    readItems (fuel + 1) level s = ([item], some rest) := by
  simp only [readItems, h, skipSpace_cons (c := ']') rfl]

/-- A name in quotes, a colon and a value, and what is left of the members then. -/
theorem readMembers_next {fuel level : Nat} {name : String} {s rest : List Char} {value : Node}
    (h : readValue fuel level s = (value, some (',' :: rest))) :
    readMembers (fuel + 1) level ('"' :: (name.toList.flatMap escapeChar ++ '"' :: ':' :: s)) =
      ((some name, value) :: (readMembers fuel level rest).1, (readMembers fuel level rest).2) := by
  obtain ⟨pieces, hb, hs⟩ := stringBody?_quote name (':' :: s)
  simp only [readMembers, skipSpace_cons (c := '"') rfl, hb, hs, skipSpace_cons (c := ':') rfl, h,
    skipSpace_cons (c := ',') rfl]

theorem readMembers_last {fuel level : Nat} {name : String} {s rest : List Char} {value : Node}
    (h : readValue fuel level s = (value, some ('\x7d' :: rest))) :
    readMembers (fuel + 1) level ('"' :: (name.toList.flatMap escapeChar ++ '"' :: ':' :: s)) =
      ([(some name, value)], some rest) := by
  obtain ⟨pieces, hb, hs⟩ := stringBody?_quote name (':' :: s)
  simp only [readMembers, skipSpace_cons (c := '"') rfl, hb, hs, skipSpace_cons (c := ':') rfl, h,
    skipSpace_cons (c := '\x7d') rfl]

-- ---------------------------------------------------------------------------
-- Values
-- ---------------------------------------------------------------------------

theorem compactChars_length_pos {value : Json} (h : value.NumbersReadBack) :
    0 < value.compactChars.length := by
  obtain ⟨c, s, hs, _⟩ := compactChars_start h
  simp [hs]

-- every value takes a step or two for each of its characters, so fuel is counted in these
mutual
theorem readValue_compact : (value : Json) → (fuel level : Nat) → (rest : List Char) →
    (∀ number ∈ value.numbers, number.ReadsBack) → Ends rest →
      2 * value.compactChars.length ≤ fuel →
        readValue fuel level (value.compactChars ++ rest) = (value.nodeAt level, some rest)
  | value, 0, _, _, hn, _, hf => by
    have := compactChars_length_pos hn
    omega
  | .null, fuel + 1, level, rest, _, _, _ => rfl
  | .bool true, fuel + 1, level, rest, _, _, _ => rfl
  | .bool false, fuel + 1, level, rest, _, _, _ => rfl
  | .number value, fuel + 1, level, rest, hn, he, _ => by
    have hr := hn value (List.mem_singleton_self value)
    obtain ⟨c, s, hs, hc⟩ := hr.start
    rw [compactChars, nodeAt, ← hr.readNumber_append he, hs, List.cons_append,
      readValue_number fuel level hc]
  | .string value, fuel + 1, level, rest, _, _, _ => by
    rw [compactChars, quote, nodeAt, List.cons_append, List.cons_append, List.append_assoc,
      readValue_string]
    exact readString_quote value rest
  | .array [], fuel + 1, level, rest, _, _, _ => close_some level (.array []) rest
  | .array (item :: items), fuel + 1, level, rest, hn, _, hf => by
    rw [compactChars_array, List.length_cons] at hf
    have hi := readItems_compact (item :: items) nofun fuel (level + 1) rest hn (by omega)
    have hitem : item.NumbersReadBack := fun number hm =>
      hn number (List.mem_append_left _ hm)
    obtain ⟨c, s, hs, hc⟩ := compactChars_start hitem
    rw [itemsText, hs, List.cons_append, List.cons_append] at hi
    rw [compactChars_array, itemsText, hs, List.cons_append, List.cons_append, List.cons_append,
      readValue_array fuel level hc, hi, close_some, nodeAt]
  | .object [], fuel + 1, level, rest, _, _, _ => close_some level (.object []) rest
  | .object (member :: members), fuel + 1, level, rest, hn, _, hf => by
    rw [compactChars_object, List.length_cons] at hf
    have hm := readMembers_compact (member :: members) nofun fuel (level + 1) rest hn (by omega)
    obtain ⟨s, hs⟩ := membersText_start member members rest
    rw [hs] at hm
    rw [compactChars_object, List.cons_append, hs, readValue_object, hm, close_some, nodeAt]
theorem readItems_compact : (items : List Json) → items ≠ [] → (fuel level : Nat) →
    (rest : List Char) → (∀ number ∈ numbersOfItems items, number.ReadsBack) →
      2 * (itemsText items).length ≤ fuel + 1 →
        readItems fuel level (itemsText items ++ rest) = (nodesAt level items, some rest)
  | [], he, _, _, _, _, _ => absurd rfl he
  | item :: items, _, 0, _, _, hn, hf => by
    have hitem : item.NumbersReadBack := fun number hm =>
      hn number (List.mem_append_left _ hm)
    have := compactChars_length_pos hitem
    simp only [itemsText, List.length_append] at hf
    omega
  | [item], _, fuel + 1, level, rest, hn, hf => by
    have hl := congrArg List.length (itemsText_singleton item [])
    simp only [List.length_append, List.length_cons, List.length_nil] at hl
    have hi := readValue_compact item fuel level (']' :: rest)
      (fun number hm => hn number (List.mem_append_left _ hm)) (by simp [Ends]) (by omega)
    rw [itemsText_singleton, readItems_last hi]
    rfl
  | item :: next :: items, _, fuel + 1, level, rest, hn, hf => by
    have hl := congrArg List.length (itemsText_cons item next items [])
    simp only [List.length_append, List.length_cons, List.length_nil] at hl
    have hi := readValue_compact item fuel level (',' :: (itemsText (next :: items) ++ rest))
      (fun number hm => hn number (List.mem_append_left _ hm)) (by simp [Ends]) (by omega)
    have hr := readItems_compact (next :: items) nofun fuel level rest
      (fun number hm => hn number (List.mem_append_right _ hm)) (by omega)
    rw [itemsText_cons, readItems_next hi, hr]
    rfl
theorem readMembers_compact : (members : List (String × Json)) → members ≠ [] →
    (fuel level : Nat) → (rest : List Char) →
      (∀ number ∈ numbersOfMembers members, number.ReadsBack) →
        2 * (membersText members).length ≤ fuel + 1 →
          readMembers fuel level (membersText members ++ rest) =
            (membersAt level members, some rest)
  | [], he, _, _, _, _, _ => absurd rfl he
  | member :: members, _, 0, _, _, hn, hf => by
    simp only [membersText, quote, List.length_append, List.length_cons] at hf
    omega
  | [member], _, fuel + 1, level, rest, hn, hf => by
    have hl := congrArg List.length (membersText_singleton member [])
    simp only [List.length_append, List.length_cons, List.length_nil] at hl
    have hv := readValue_compact member.2 fuel level ('\x7d' :: rest)
      (fun number hm => hn number (List.mem_append_left _ hm)) (by simp [Ends]) (by omega)
    rw [membersText_singleton, readMembers_last hv]
    rfl
  | member :: next :: members, _, fuel + 1, level, rest, hn, hf => by
    have hl := congrArg List.length (membersText_cons member next members [])
    simp only [List.length_append, List.length_cons, List.length_nil] at hl
    have hv := readValue_compact member.2 fuel level
      (',' :: (membersText (next :: members) ++ rest))
      (fun number hm => hn number (List.mem_append_left _ hm)) (by simp [Ends]) (by omega)
    have hr := readMembers_compact (next :: members) nofun fuel level rest
      (fun number hm => hn number (List.mem_append_right _ hm)) (by omega)
    rw [membersText_cons, readMembers_next hv, hr]
    rfl
end

theorem read_compact {value : Json} (h : value.NumbersReadBack) :
    read value.compact = (value.nodeAt 0, true) := by
  have hv := readValue_compact value (fuelFor value.compactChars) 0 [] h (by simp [Ends])
    (by simp [fuelFor])
  rw [List.append_nil] at hv
  simp only [read, compact, String.toList_ofList, hv]
  rfl

-- ---------------------------------------------------------------------------
-- What is cut out
-- ---------------------------------------------------------------------------

theorem membersAt_eq_map (level : Nat) (members : List (String × Json)) :
    membersAt level members = members.map fun member => (some member.1, member.2.nodeAt level) := by
  induction members with
  | nil => rfl
  | cons member rest ih => rw [membersAt, ih, List.map_cons]

theorem nodesAt_eq_map (level : Nat) (items : List Json) :
    nodesAt level items = items.map (nodeAt level) := by
  induction items with
  | nil => rfl
  | cons item rest ih => rw [nodesAt, ih, List.map_cons]

mutual
/-- The tree of a value in full, whatever its depth. -/
def node : Json → Node
  | .null => .null
  | .bool value => .bool value
  | .number value => .number value
  | .string value => .string value
  | .array items => .array (nodes items)
  | .object members => .object (memberNodes members)
def nodes : List Json → List Node
  | [] => []
  | item :: rest => item.node :: nodes rest
def memberNodes : List (String × Json) → List Member
  | [] => []
  | member :: rest => (some member.1, member.2.node) :: memberNodes rest
end

theorem nodes_eq_map (items : List Json) : nodes items = items.map node := by
  induction items with
  | nil => rfl
  | cons item rest ih => rw [nodes, ih, List.map_cons]

theorem memberNodes_eq_map (members : List (String × Json)) :
    memberNodes members = members.map fun member => (some member.1, member.2.node) := by
  induction members with
  | nil => rfl
  | cons member rest ih => rw [memberNodes, ih, List.map_cons]

theorem memberNodes_append (members others : List (String × Json)) :
    memberNodes (members ++ others) = memberNodes members ++ memberNodes others := by
  simp only [memberNodes_eq_map, List.map_append]

mutual
theorem isReadable_node : (value : Json) → value.node.isReadable = true
  | .null | .bool _ | .number _ | .string _ => rfl
  | .array items => allReadable_nodes items
  | .object members => membersReadable_memberNodes members
theorem allReadable_nodes : (items : List Json) → Node.allReadable (nodes items) = true
  | [] => rfl
  | item :: rest => by
    rw [nodes, Node.allReadable, isReadable_node item, allReadable_nodes rest]
    rfl
theorem membersReadable_memberNodes : (members : List (String × Json)) →
    Node.membersReadable (memberNodes members) = true
  | [] => rfl
  | member :: rest => by
    rw [memberNodes, Node.membersReadable, isReadable_node member.2,
      membersReadable_memberNodes rest]
    rfl
end

mutual
theorem nodeAt_eq_node : (value : Json) → (level : Nat) → level + value.depth ≤ Node.maxNesting →
    value.nodeAt level = value.node
  | .null, _, _ | .bool _, _, _ | .number _, _, _ | .string _, _, _ => rfl
  | .array items, level, h => by
    rw [depth] at h
    rw [nodeAt, if_pos (by omega), nodesAt_eq_nodes items (level + 1) (by omega), node]
  | .object members, level, h => by
    rw [depth] at h
    rw [nodeAt, if_pos (by omega), membersAt_eq_memberNodes members (level + 1) (by omega), node]
theorem nodesAt_eq_nodes : (items : List Json) → (level : Nat) →
    level + depthOfItems items ≤ Node.maxNesting → nodesAt level items = nodes items
  | [], _, _ => rfl
  | item :: rest, level, h => by
    rw [depthOfItems] at h
    rw [nodesAt, nodeAt_eq_node item level (by omega), nodesAt_eq_nodes rest level (by omega),
      nodes]
theorem membersAt_eq_memberNodes : (members : List (String × Json)) → (level : Nat) →
    level + depthOfMembers members ≤ Node.maxNesting →
      membersAt level members = memberNodes members
  | [], _, _ => rfl
  | member :: rest, level, h => by
    rw [depthOfMembers] at h
    rw [membersAt, nodeAt_eq_node member.2 level (by omega),
      membersAt_eq_memberNodes rest level (by omega), memberNodes]
end

mutual
theorem depth_le_of_isReadable : (value : Json) → (level : Nat) → level ≤ Node.maxNesting →
    (value.nodeAt level).isReadable = true → level + value.depth ≤ Node.maxNesting
  | .null, _, hl, _ | .bool _, _, hl, _ | .number _, _, hl, _ | .string _, _, hl, _ => hl
  | .array items, level, _, hr => by
    rw [nodeAt] at hr
    split at hr
    · have := depthOfItems_le_of_allReadable items (level + 1) ‹_› hr
      rw [depth]
      omega
    · simp [Node.isReadable] at hr
  | .object members, level, _, hr => by
    rw [nodeAt] at hr
    split at hr
    · have := depthOfMembers_le_of_membersReadable members (level + 1) ‹_› hr
      rw [depth]
      omega
    · simp [Node.isReadable] at hr
theorem depthOfItems_le_of_allReadable : (items : List Json) → (level : Nat) →
    level ≤ Node.maxNesting → Node.allReadable (nodesAt level items) = true →
      level + depthOfItems items ≤ Node.maxNesting
  | [], _, hl, _ => hl
  | item :: rest, level, hl, hr => by
    rw [nodesAt, Node.allReadable, Bool.and_eq_true] at hr
    have := depth_le_of_isReadable item level hl hr.1
    have := depthOfItems_le_of_allReadable rest level hl hr.2
    rw [depthOfItems]
    omega
theorem depthOfMembers_le_of_membersReadable : (members : List (String × Json)) →
    (level : Nat) → level ≤ Node.maxNesting →
      Node.membersReadable (membersAt level members) = true →
        level + depthOfMembers members ≤ Node.maxNesting
  | [], _, hl, _ => hl
  | member :: rest, level, hl, hr => by
    rw [membersAt, Node.membersReadable, Bool.and_eq_true, Bool.and_eq_true] at hr
    have := depth_le_of_isReadable member.2 level hl hr.1.2
    have := depthOfMembers_le_of_membersReadable rest level hl hr.2
    rw [depthOfMembers]
    omega
end

/-- The tree of a value has nothing cut out of it where the value is not nested too deeply. -/
theorem isReadable_nodeAt {value : Json} {level : Nat} (hl : level ≤ Node.maxNesting) :
    (value.nodeAt level).isReadable = true ↔ level + value.depth ≤ Node.maxNesting := by
  constructor
  · exact depth_le_of_isReadable value level hl
  · intro h
    rw [nodeAt_eq_node value level h, isReadable_node]

end Json

end DeclarativeSql
