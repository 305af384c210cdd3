import DeclarativeSql.Proofs.Statement.Acceptance
import DeclarativeSql.Proofs.Wire.Documents

/-!
# Saving and loading

`documents_and_overrides_reload`: a query that was loaded from a text is loaded again from the
text it is saved as, under the same limit, and so are the overrides of a request. The numbers in
them that are not whole are assumed to be read as they are written.
-/

namespace DeclarativeSql

/-- The numbers of the value that are not whole are read as they are written. -/
def Json.FloatsReadBack (value : Json) : Prop :=
  ∀ x, .float x ∈ value.numbers → (Number.float x).ReadsBack

/-- A value within the limit of the reader is read in full from its text. -/
theorem Json.read_of_within {value : Json} (hw : value.node.Within Node.maxNesting)
    (hf : value.FloatsReadBack) : read value.compact = (value.node, true) := by
  have hn : value.NumbersReadBack := by
    intro number hm
    cases number with
    | int word => exact Number.readsBack_int (held_of_within value hw _ hm)
    | float x => exact hf x hm
  rw [read_compact hn, nodeAt_eq_node value 0 (by simpa using depth_le_of_within value hw)]

theorem decodeText_ok {decode : Node → Decoded α} {text : String} {value : α} :
    decodeText decode text = .ok value ↔
      decode (Json.read text).1 = .ok value ∧ (Json.read text).2 = true := by
  unfold decodeText
  obtain ⟨node, isComplete⟩ := Json.read text
  cases isComplete <;> simp [bind_ok]

/-- What was decoded from a text is decoded again from its own text. -/
theorem decodeText_compact {decode : Node → Decoded α} {encode : α → Json} {text : String}
    {value : α} (hd : NoDeeper least decode encode) (hl : least ≤ Node.maxNesting)
    (hr : decode (encode value).node = .ok value) (hf : (encode value).FloatsReadBack)
    (h : decodeText decode text = .ok value) :
    decodeText decode (encode value).compact = .ok value := by
  have hw := hd.within (decodeText_ok.mp h).1 (Json.read_within text) hl
  rw [decodeText_ok, Json.read_of_within hw hf]
  exact ⟨hr, rfl⟩

/-- A query keeps the document that it was made of. -/
theorem Query.document_of_ofDocument {document : Document} {query : Query}
    (h : Query.ofDocument limit document = .ok query) : query.document = document := by
  have hs := (Query.ofDocument_ok h).2
  have hdescription : query.description = document.description := by
    unfold Query.ofDocument at h
    split at h <;> cases h
    rfl
  obtain ⟨source, description⟩ := query
  obtain ⟨sql, composition, _⟩ := document
  cases hdescription
  unfold Document.source? at hs
  split at hs <;> cases hs <;> simp_all [Query.document]

theorem Query.ofText_ok {text : String} {query : Query} :
    Query.ofText limit text = .ok query ↔
      decodeText Document.ofNode text = .ok query.document ∧
        Query.ofDocument limit query.document = .ok query := by
  unfold Query.ofText
  constructor
  · intro h
    split at h
    · rename_i document hd
      rw [Query.document_of_ofDocument h]
      exact ⟨hd, h⟩
    · cases h
  · rintro ⟨hd, h⟩
    rw [hd]
    exact h

theorem documents_and_overrides_reload :
    (∀ limit text query, Query.ofText limit text = .ok query → query.toJson.FloatsReadBack →
      Query.ofText limit query.text = .ok query) ∧
    (∀ text overrides, decodeText Overrides.ofNode text = .ok overrides →
      overrides.toJson.FloatsReadBack →
        decodeText Overrides.ofNode overrides.toJson.compact = .ok overrides) := by
  constructor
  · intro limit text query h hf
    obtain ⟨hd, hq⟩ := Query.ofText_ok.mp h
    have hs := Document.survives_of_ofNode (decodeText_ok.mp hd).1
    exact Query.ofText_ok.mpr
      ⟨decodeText_compact Document.noDeeper (by decide) hs.ofNode_toJson hf hd, hq⟩
  · intro text overrides h hf
    have hs := Overrides.survives_of_ofNode (decodeText_ok.mp h).1
    exact decodeText_compact Overrides.noDeeper (by decide) hs.ofNode_toJson hf h

/-- Records as arrays, and timestamps that are not written in this form. -/
def datedText : String :=
  "\x7b\"composition\":[\"cube\",\x7b\"spend\":\x7b\"sql\":\"spend\"\x7d\x7d,\"cube\"," ++
    "[[\"range\",[\"2024-02-29t23:59:60.5+0530\",\"2024-3-1 0:0:0Z\"]]]]\x7d"

def dated : Composition where
  table := "cube"
  columns := .ofEntries [("spend", .raw "spend")]
  parameters :=
    { interval := some (.range
        ⟨⟨1709231399, 1500000000, 19800, by decide⟩, ⟨1709251200, 0, 0, by decide⟩⟩) }

theorem ofText_datedText : Query.ofText 1 datedText = .ok (.composed dated) := by
  decide +kernel

def clearingText : String :=
  "\x7b\"rowFilters\":[],\"interval\":null\x7d"

/-- No interval at all, rather than the one that a query has by default. -/
def clearing : Overrides where
  interval := some none
  rowFilters := some []

theorem decodeText_clearingText :
    decodeText Overrides.ofNode clearingText = .ok clearing := by
  decide +kernel

theorem documents_and_overrides_reload_dated :
    Query.ofText 1 datedText = .ok (.composed dated) ∧
      Query.ofText 1 (Query.composed dated).text = .ok (.composed dated) ∧
        decodeText Overrides.ofNode clearingText = .ok clearing ∧
          decodeText Overrides.ofNode clearing.toJson.compact = .ok clearing :=
  ⟨ofText_datedText, documents_and_overrides_reload.1 1 datedText _ ofText_datedText nofun,
    decodeText_clearingText,
    documents_and_overrides_reload.2 clearingText _ decodeText_clearingText nofun⟩

end DeclarativeSql
