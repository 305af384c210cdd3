import DeclarativeSql.Proofs.Wire.Columns
import DeclarativeSql.Proofs.Wire.Intervals
import DeclarativeSql.Proofs.Wire.RowFilters
import DeclarativeSql.Wire.Document

/-!
# Documents and overrides read again

What survives writing is said for each part and put together here: `Overrides.Survives` and
`Document.Survives`. Whatever is decoded survives.
-/

namespace DeclarativeSql

open Fields (decode_ok ofMembers_of_written)

-- ---------------------------------------------------------------------------
-- Members that may be absent
-- ---------------------------------------------------------------------------

theorem Fields.Written.memberIfSome {field : Field (Option α)} {value : Option α}
    (encode : α → Json) (ha : field.absent = some none)
    (hv : ∀ a ∈ value, field.decode (encode a).node = .ok (some a))
    (hr : Written rest members row) :
    Written (.cons field rest)
      (Json.memberNodes (memberIfSome field.name encode value) ++ members) (value, row) := by
  cases value with
  | none => exact .absent ha hr
  | some a => exact .present (hv a rfl) hr

theorem forall_memberIfSome (P : Json → Prop) {name : String} {encode : α → Json}
    {value : Option α} :
    (∀ member ∈ memberIfSome name encode value, P member.2) ↔ ∀ a ∈ value, P (encode a) := by
  cases value <;> simp [memberIfSome]

theorem within_memberIfSome {name : String} {encode : α → Json} {value : Option α}
    (h : ∀ a ∈ value, (encode a).node.Within limit) :
    ∀ member ∈ memberIfSome name encode value, member.2.node.Within limit :=
  (forall_memberIfSome fun value => value.node.Within limit).mpr h

theorem Node.asOption_string (s : String) :
    (Json.string s).node.asOption Node.asString = .ok (some s) :=
  rfl

namespace CompositionMetadata

def Survives (metadata : CompositionMetadata) : Prop :=
  metadata.version < Nat.pow 2 64

theorem Survives.ofNode_toJson {metadata : CompositionMetadata} (h : metadata.Survives) :
    ofNode metadata.toJson.node = .ok metadata := by
  obtain ⟨templateType, ⟨⟩, identifier, version⟩ := metadata
  have hv : (Node.number (.int version)).asNatural = .ok version :=
    Node.asNatural_ok.mpr ⟨rfl, h⟩
  have hw : Fields.Written fields (Json.memberNodes
      [("templateType", .string templateType), ("queryType", .string QueryKind.cube.name),
       ("identifier", .string identifier), ("version", .number (.int version))])
      (templateType, .cube, identifier, version, ()) :=
    .present rfl <| .present rfl <| .present rfl <| .present hv .nil
  rw [ofNode, toJson, Json.node, Fields.decode, ofMembers_of_written hw (by decide) false]
  rfl

theorem survives_of_ofNode {node : Node} {metadata : CompositionMetadata}
    (h : ofNode node = .ok metadata) : metadata.Survives := by
  obtain ⟨⟨templateType, queryKind, identifier, version, _⟩, hr, h⟩ := bind_ok.mp h
  cases h
  obtain ⟨-, -, -, -, hv | ⟨_, _, hv⟩, -⟩ := decode_ok hr
  · cases hv
    exact Nat.two_pow_pos 64
  · exact (Node.asNatural_ok.mp hv).2

theorem noDeeper : NoDeeper 0 ofNode toJson := by
  refine ⟨fun {node metadata limit} hd hw _ => ?_⟩
  have hs := survives_of_ofNode hd
  obtain ⟨row, hr, _⟩ := bind_ok.mp hd
  obtain ⟨inner, rfl, _⟩ := hw.inside (decode_ok hr).1
  rw [toJson, Json.within_object]
  simp [within_version hs]

end CompositionMetadata

-- ---------------------------------------------------------------------------
-- Parameters and overrides
-- ---------------------------------------------------------------------------

namespace Interval

theorem optionToJson_asOption {interval : Option Interval}
    (h : ∀ value ∈ interval, value.ReadsBack) :
    (optionToJson interval).node.asOption ofNode = .ok interval := by
  cases interval with
  | none => rfl
  | some interval =>
    exact Node.asOption_container (by cases interval <;> rfl) (h interval rfl).ofNode_toJson

theorem readsBack_of_asOption {node : Node} {interval : Option Interval}
    (h : node.asOption ofNode = .ok interval) : ∀ value ∈ interval, value.ReadsBack := by
  rintro value rfl
  exact readsBack_of_ofNode (Node.asOption_some.mp h).2

theorem option_noDeeper : NoDeeper 0 (Node.asOption ofNode) optionToJson :=
  noDeeper.option

end Interval

namespace RowFilter

theorem listToJson_asList {filters : List RowFilter} (h : ∀ filter ∈ filters, filter.Survives) :
    (listToJson filters).node.asList ofNode = .ok filters :=
  Node.asList_nodes fun filter hm => (h filter hm).ofNode_toJson

theorem survives_of_asList {node : Node} {filters : List RowFilter}
    (h : node.asList ofNode = .ok filters) : ∀ filter ∈ filters, filter.Survives := by
  intro filter hm
  obtain ⟨_, _, hd⟩ := Node.asList_mem h hm
  exact survives_of_ofNode hd

theorem list_noDeeper : NoDeeper 0 (Node.asList ofNode) listToJson :=
  noDeeper.list

end RowFilter

namespace Parameters

structure Survives (parameters : Parameters) : Prop where
  interval : ∀ interval ∈ parameters.interval, interval.ReadsBack
  rowFilters : ∀ filter ∈ parameters.rowFilters, filter.Survives

theorem Survives.ofNode_toJson {parameters : Parameters} (h : parameters.Survives) :
    ofNode parameters.toJson.node = .ok parameters := by
  have hw : Fields.Written fields (Json.memberNodes
      [("interval", Interval.optionToJson parameters.interval),
       ("rowFilters", RowFilter.listToJson parameters.rowFilters)])
      (parameters.interval, parameters.rowFilters, ()) :=
    .present (Interval.optionToJson_asOption h.interval) <|
      .present (RowFilter.listToJson_asList h.rowFilters) .nil
  rw [ofNode, toJson, Json.node, Fields.decode, ofMembers_of_written hw (by decide) false]
  rfl

theorem survives_of_ofNode {node : Node} {parameters : Parameters}
    (h : ofNode node = .ok parameters) : parameters.Survives := by
  obtain ⟨⟨interval, rowFilters, _⟩, hr, h⟩ := bind_ok.mp h
  cases h
  obtain ⟨-, hi, hf, -⟩ := decode_ok hr
  constructor
  · obtain hi | ⟨_, _, hi⟩ := hi
    · cases hi
      nofun
    · exact Interval.readsBack_of_asOption hi
  · obtain hf | ⟨_, _, hf⟩ := hf
    · cases hf
      nofun
    · exact RowFilter.survives_of_asList hf

-- an absent list is written as an empty one
theorem noDeeper : NoDeeper 2 ofNode toJson := by
  refine ⟨fun {node parameters limit} hd hw hl => ?_⟩
  obtain ⟨⟨interval, rowFilters, _⟩, hr, hd⟩ := bind_ok.mp hd
  cases hd
  obtain ⟨hc, hinterval, hfilters, -⟩ := decode_ok hr
  obtain ⟨inner, rfl, hi⟩ := hw.inside hc
  have hinterval := Interval.option_noDeeper.yields hinterval hi (Nat.zero_le _) fun _ h => by
    cases h
    exact .null
  have hfilters := RowFilter.list_noDeeper.yields hfilters hi (Nat.zero_le _) fun _ h => by
    cases h
    obtain ⟨deeper, rfl⟩ := Nat.exists_eq_add_of_le' (Nat.le_of_succ_le_succ hl)
    exact .array nofun
  rw [toJson, Json.within_object]
  simp [hinterval, hfilters]

end Parameters

namespace Overrides

structure Survives (overrides : Overrides) : Prop where
  interval : ∀ value ∈ overrides.interval, ∀ interval ∈ value, interval.ReadsBack
  rowFilters : ∀ filters ∈ overrides.rowFilters, ∀ filter ∈ filters, filter.Survives

theorem Survives.ofNode_toJson {overrides : Overrides} (h : overrides.Survives) :
    ofNode overrides.toJson.node = .ok overrides := by
  have hi : ∀ interval ∈ overrides.interval,
      intervalOfNode (Interval.optionToJson interval).node = .ok (some interval) := by
    intro interval hm
    rw [intervalOfNode, Interval.optionToJson_asOption (h.interval interval hm)]
    rfl
  have hf : ∀ filters ∈ overrides.rowFilters,
      (RowFilter.listToJson filters).node.asOption (Node.asList RowFilter.ofNode) =
        .ok (some filters) := fun filters hm =>
    Node.asOption_container rfl (RowFilter.listToJson_asList (h.rowFilters filters hm))
  have hw : Fields.Written fields _ (overrides.interval, overrides.rowFilters, ()) :=
    .memberIfSome Interval.optionToJson rfl hi <|
      .memberIfSome RowFilter.listToJson rfl hf .nil
  rw [List.append_nil, ← Json.memberNodes_append] at hw
  exact bind_ok.mpr ⟨_, ofMembers_of_written hw (by decide) false, rfl⟩

theorem survives_of_ofNode {node : Node} {overrides : Overrides}
    (h : ofNode node = .ok overrides) : overrides.Survives := by
  obtain ⟨⟨interval, rowFilters, _⟩, hr, h⟩ := bind_ok.mp h
  cases h
  obtain ⟨-, hi, hf, -⟩ := decode_ok hr
  constructor
  · rintro value rfl
    obtain hi | ⟨_, _, hi⟩ := hi
    · cases hi
    · obtain ⟨other, ho, he⟩ := map_ok.mp hi
      cases he
      exact Interval.readsBack_of_asOption ho
  · rintro filters rfl
    obtain ⟨_, _, _, hf⟩ := hf.of_some
    exact RowFilter.survives_of_asList hf

theorem noDeeper : NoDeeper 0 ofNode toJson := by
  refine ⟨fun {node overrides limit} hd hw _ => ?_⟩
  obtain ⟨⟨interval, rowFilters, _⟩, hr, hd⟩ := bind_ok.mp hd
  cases hd
  obtain ⟨hc, hinterval, hfilters, -⟩ := decode_ok hr
  obtain ⟨inner, rfl, hi⟩ := hw.inside hc
  rw [toJson, Json.within_object, List.forall_mem_append]
  refine ⟨within_memberIfSome ?_, within_memberIfSome ?_⟩
  · rintro value rfl
    obtain hv | ⟨tree, ht, hv⟩ := hinterval
    · cases hv
    · obtain ⟨other, ho, he⟩ := map_ok.mp hv
      cases he
      exact Interval.option_noDeeper.within ho (hi tree ht) (Nat.zero_le _)
  · rintro filters rfl
    exact RowFilter.list_noDeeper.yields_some hfilters hi (Nat.zero_le _)

end Overrides

-- ---------------------------------------------------------------------------
-- Compositions and documents
-- ---------------------------------------------------------------------------

/-- What stands for absent parameters. -/
theorem empty_parameters_within : ({} : Parameters).toJson.node.Within (limit + 2) := by
  rw [Parameters.toJson, Json.within_object]
  simpa [Interval.optionToJson] using .array nofun

namespace Composition

structure Survives (composition : Composition) : Prop where
  columns : composition.columns.Survives
  parameters : composition.parameters.Survives
  metadata : ∀ metadata ∈ composition.metadata, metadata.Survives

theorem Survives.ofNode_toJson {composition : Composition} (h : composition.Survives) :
    ofNode composition.toJson.node = .ok composition := by
  obtain ⟨table, columns, ⟨⟩, parameters, schema, metadata⟩ := composition
  have hm : ∀ value ∈ metadata,
      value.toJson.node.asOption CompositionMetadata.ofNode = .ok (some value) := fun value hm =>
    Node.asOption_container rfl (h.metadata value hm).ofNode_toJson
  have hw : Fields.Written fields
      ((some "table", .string table) :: (some "columns", columns.toJson.node) ::
        (some "queryType", .string QueryKind.cube.name) ::
        (some "parameters", parameters.toJson.node) ::
        (Json.memberNodes (memberIfSome "schema" .string schema) ++
          (Json.memberNodes (memberIfSome "metadata" CompositionMetadata.toJson metadata) ++ [])))
      (table, columns, .cube, parameters, schema, metadata, ()) :=
    .present rfl <| .present (Columns.Survives.ofNode_toJson h.columns) <| .present rfl <|
      .present (Parameters.Survives.ofNode_toJson h.parameters) <|
        .memberIfSome .string rfl (fun schema _ => Node.asOption_string schema) <|
          .memberIfSome CompositionMetadata.toJson rfl hm .nil
  rw [List.append_nil, ← Json.memberNodes_append] at hw
  exact bind_ok.mpr ⟨_, ofMembers_of_written hw (by decide) false, rfl⟩

theorem survives_of_ofNode {node : Node} {composition : Composition}
    (h : ofNode node = .ok composition) : composition.Survives := by
  obtain ⟨⟨table, columns, queryKind, parameters, schema, metadata, _⟩, hr, h⟩ := bind_ok.mp h
  cases h
  obtain ⟨-, -, hcolumns, -, hparameters, -, hmetadata, -⟩ := decode_ok hr
  constructor
  · obtain hc | ⟨_, _, hc⟩ := hcolumns
    · cases hc
      nofun
    · exact Columns.survives_of_ofNode hc
  · obtain hp | ⟨_, _, hp⟩ := hparameters
    · cases hp
      exact ⟨nofun, nofun⟩
    · exact Parameters.survives_of_ofNode hp
  · rintro metadata rfl
    obtain ⟨_, _, _, hm⟩ := hmetadata.of_some
    exact CompositionMetadata.survives_of_ofNode hm

theorem noDeeper : NoDeeper 3 ofNode toJson := by
  refine ⟨fun {node composition limit} hd hw hl => ?_⟩
  obtain ⟨⟨table, columns, queryKind, parameters, schema, metadata, _⟩, hr, hd⟩ := bind_ok.mp hd
  cases hd
  obtain ⟨hc, -, hcolumns, -, hparameters, -, hmetadata, -⟩ := decode_ok hr
  obtain ⟨inner, rfl, hi⟩ := hw.inside hc
  obtain ⟨deeper, rfl⟩ := Nat.exists_eq_add_of_le' (Nat.le_of_succ_le_succ hl)
  have hcolumns := Columns.noDeeper.yields hcolumns hi (Nat.zero_le _) fun _ h => by
    cases h
    exact .object nofun
  have hparameters := Parameters.noDeeper.yields hparameters hi (Nat.le_add_left 2 deeper)
    fun _ h => by
      cases h
      exact empty_parameters_within
  have hmetadata : ∀ value ∈ metadata, value.toJson.node.Within (deeper + 2) := by
    rintro value rfl
    exact CompositionMetadata.noDeeper.yields_some hmetadata hi (Nat.zero_le _)
  rw [toJson, Json.within_object, List.forall_mem_append, List.forall_mem_append]
  refine ⟨⟨?_, within_memberIfSome fun _ _ => .string _⟩, within_memberIfSome hmetadata⟩
  simp [hcolumns, hparameters]

end Composition

namespace Document

def Survives (document : Document) : Prop :=
  ∀ composition ∈ document.composition, composition.Survives

theorem Survives.ofNode_toJson {document : Document} (h : document.Survives) :
    ofNode document.toJson.node = .ok document := by
  have hc : ∀ value ∈ document.composition,
      value.toJson.node.asOption Composition.ofNode = .ok (some value) := fun value hm =>
    Node.asOption_container rfl (h value hm).ofNode_toJson
  have hw : Fields.Written fields _
      (document.query, document.composition, document.description, ()) :=
    .memberIfSome .string rfl (fun s _ => Node.asOption_string s) <|
      .memberIfSome Composition.toJson rfl hc <|
        .memberIfSome .string rfl (fun s _ => Node.asOption_string s) .nil
  rw [List.append_nil, ← Json.memberNodes_append, ← Json.memberNodes_append,
    ← List.append_assoc] at hw
  exact bind_ok.mpr ⟨_, ofMembers_of_written hw (by decide) false, rfl⟩

theorem survives_of_ofNode {node : Node} {document : Document}
    (h : ofNode node = .ok document) : document.Survives := by
  obtain ⟨⟨query, composition, description, _⟩, hr, h⟩ := bind_ok.mp h
  cases h
  obtain ⟨-, -, hc, -⟩ := decode_ok hr
  rintro composition rfl
  obtain ⟨_, _, _, hc⟩ := hc.of_some
  exact Composition.survives_of_ofNode hc

theorem noDeeper : NoDeeper 4 ofNode toJson := by
  refine ⟨fun {node document limit} hd hw hl => ?_⟩
  obtain ⟨⟨query, composition, description, _⟩, hr, hd⟩ := bind_ok.mp hd
  cases hd
  obtain ⟨hc, -, hcomposition, -⟩ := decode_ok hr
  obtain ⟨inner, rfl, hi⟩ := hw.inside hc
  have hcomposition : ∀ value ∈ composition, value.toJson.node.Within inner := by
    rintro value rfl
    exact Composition.noDeeper.yields_some hcomposition hi (Nat.le_of_succ_le_succ hl)
  rw [toJson, Json.within_object, List.forall_mem_append, List.forall_mem_append]
  exact ⟨⟨within_memberIfSome fun _ _ => .string _, within_memberIfSome hcomposition⟩,
    within_memberIfSome fun _ _ => .string _⟩

end Document

end DeclarativeSql
