import DeclarativeSql.Proofs.Statement.Parts

/-!
# One statement, bound or plain

`bound_and_plain_statements_agree`: a bound statement and a plain one are the same texts with
something in between, numbered placeholders in the one and quoted parameters in the other. The
texts are those of the pieces of the statement between its string literals, so nothing else of
the statement becomes a parameter.
-/

namespace DeclarativeSql

/-- The items of two lists in turn, from the first list on. -/
def alternate : List α → List α → List α
  | item :: rest, other :: others => item :: other :: alternate rest others
  | items, others => items ++ others

theorem join_alternate_append (text first : String) (texts fillers : List String) :
    String.join (alternate ((text ++ first) :: texts) fillers) =
      text ++ String.join (alternate (first :: texts) fillers) := by
  cases fillers <;> simp [alternate, String.append_assoc]

theorem join_alternate_empty (filler : String) (texts fillers : List String) :
    String.join (alternate ("" :: texts) (filler :: fillers)) =
      filler ++ String.join (alternate texts fillers) := by
  simp [alternate]

theorem flatten_alternate_cons (item : α) (first : List α) (rest fillers : List (List α)) :
    (alternate ((item :: first) :: rest) fillers).flatten =
      item :: (alternate (first :: rest) fillers).flatten := by
  cases fillers <;> simp [alternate]

-- ---------------------------------------------------------------------------
-- Pieces and parameters
-- ---------------------------------------------------------------------------

/-- The value of a token that is bound. -/
def Token.parameter? : Token → Option String
  | .string value => some value
  | _ => none

namespace Fragment

def parameters (fragment : Fragment) : List String :=
  fragment.filterMap Token.parameter?

/-- What stands before the first parameter, and what follows each of them. -/
def cut : Fragment → Fragment × List Fragment
  | [] => ([], [])
  | .string _ :: rest => ([], (cut rest).1 :: (cut rest).2)
  | token :: rest => (token :: (cut rest).1, (cut rest).2)

/-- The pieces between the parameters. -/
def pieces (fragment : Fragment) : List Fragment :=
  fragment.cut.1 :: fragment.cut.2

/-- A token is a parameter and opens a piece, or it belongs to the first piece. -/
theorem pieces_cons (token : Token) (rest : Fragment) :
    (∃ value, token = .string value ∧ parameters (token :: rest) = value :: rest.parameters ∧
      pieces (token :: rest) = [] :: rest.pieces) ∨
    (token.parameter? = none ∧ parameters (token :: rest) = rest.parameters ∧
      pieces (token :: rest) = (token :: rest.cut.1) :: rest.cut.2) := by
  cases token with
  | string value => exact .inl ⟨value, rfl, rfl, rfl⟩
  | _ => exact .inr ⟨rfl, rfl, rfl⟩

theorem length_pieces (fragment : Fragment) :
    fragment.pieces.length = fragment.parameters.length + 1 := by
  induction fragment with
  | nil => rfl
  | cons token rest ih =>
    rcases pieces_cons token rest with ⟨value, rfl, hv, hp⟩ | ⟨_, hv, hp⟩
    · rw [hv, hp, List.length_cons, List.length_cons, ih]
    · rw [hv, hp, ← ih]
      rfl

theorem parameters_pieces (fragment : Fragment) :
    ∀ piece ∈ fragment.pieces, piece.parameters = [] := by
  induction fragment with
  | nil => exact List.forall_mem_singleton.mpr rfl
  | cons token rest ih =>
    rcases pieces_cons token rest with ⟨value, rfl, _, hp⟩ | ⟨ht, _, hp⟩
    · rw [hp, List.forall_mem_cons]
      exact ⟨rfl, ih⟩
    · rw [hp, List.forall_mem_cons]
      rw [pieces, List.forall_mem_cons] at ih
      refine ⟨?_, ih.2⟩
      rw [← ih.1, parameters, List.filterMap_cons, ht]
      rfl

theorem eq_flatten_pieces (fragment : Fragment) :
    fragment =
      (alternate fragment.pieces
        (fragment.parameters.map fun value => [.string value])).flatten := by
  induction fragment with
  | nil => rfl
  | cons token rest ih =>
    rcases pieces_cons token rest with ⟨value, rfl, hv, hp⟩ | ⟨_, hv, hp⟩
    · rw [hv, hp, List.map_cons, alternate, List.flatten_cons, List.flatten_cons, ← ih]
      rfl
    · rw [hv, hp, flatten_alternate_cons, ← pieces, ← ih]

theorem text_eq_join (dialect : Dialect) (fragment : Fragment) :
    fragment.text dialect =
      String.join (alternate (fragment.pieces.map (text dialect))
        (fragment.parameters.map dialect.quoteString)) := by
  induction fragment with
  | nil => rfl
  | cons token rest ih =>
    rw [text_cons, ih]
    rcases pieces_cons token rest with ⟨value, rfl, hv, hp⟩ | ⟨_, hv, hp⟩
    · rw [hv, hp, List.map_cons, List.map_cons]
      exact (join_alternate_empty _ _ _).symm
    · rw [hv, hp, List.map_cons, text_cons, join_alternate_append]
      rfl

theorem bindAfter_eq (dialect : Dialect) (count : Nat) (fragment : Fragment) :
    fragment.bindAfter dialect count =
      ⟨String.join (alternate (fragment.pieces.map (text dialect))
        ((List.range' (count + 1) fragment.parameters.length).map dialect.placeholder)),
        fragment.parameters⟩ := by
  induction fragment generalizing count with
  | nil => rfl
  | cons token rest ih =>
    rcases pieces_cons token rest with ⟨value, rfl, hv, hp⟩ | ⟨ht, hv, hp⟩
    · rw [hv, hp, List.length_cons, List.range'_succ, List.map_cons, List.map_cons, bindAfter, ih]
      exact congrArg (BoundSql.mk · _) (join_alternate_empty _ _ _).symm
    · have hb : bindAfter dialect count (token :: rest) =
          ⟨token.text dialect ++ (bindAfter dialect count rest).sql,
            (bindAfter dialect count rest).parameters⟩ := by
        cases token <;> first | rfl | cases ht
      rw [hb, hv, hp, List.map_cons, text_cons, join_alternate_append, ih]
      rfl

end Fragment

-- ---------------------------------------------------------------------------
-- Statements
-- ---------------------------------------------------------------------------

/-- The tokens of a statement; a raw query is one of them. -/
def Query.tokens (options : StatementOptions) (schema : Option String) (overrides : Overrides)
    (query : Query) : Composed Fragment :=
  match query.source with
  | .raw sql => .ok [.raw sql]
  | .composition composition => (composition.compose options schema overrides).map Prod.snd

theorem Query.compose_eq_text (options : StatementOptions) (schema : Option String)
    (overrides : Overrides) (query : Query) :
    query.compose options schema overrides =
      (query.tokens options schema overrides).map (Fragment.text options.dialect) := by
  rw [Query.compose, Query.tokens]
  cases query.source with
  | raw sql => simp [Except.map, Token.text]
  | composition composition =>
    dsimp only
    cases composition.compose options schema overrides <;> rfl

theorem Query.composeBound_eq_bind (options : StatementOptions) (schema : Option String)
    (overrides : Overrides) (query : Query) :
    query.composeBound options schema overrides =
      (query.tokens options schema overrides).map (Fragment.bind options.dialect) := by
  rw [Query.composeBound, Query.tokens]
  cases query.source with
  | raw sql => simp [Except.map, Fragment.bind, Fragment.bindAfter, Token.text]
  | composition composition =>
    dsimp only
    cases composition.compose options schema overrides <;> rfl

theorem bound_and_plain_statements_agree (options : StatementOptions) (schema : Option String)
    (overrides : Overrides) (query : Query) :
    (∃ error, query.compose options schema overrides = .error error ∧
      query.composeBound options schema overrides = .error error) ∨
    ∃ (statement : Fragment) (pieces : List Fragment),
      query.tokens options schema overrides = .ok statement ∧
      pieces.length = statement.parameters.length + 1 ∧
      (∀ piece ∈ pieces, piece.parameters = []) ∧
      statement =
        (alternate pieces (statement.parameters.map fun value => [.string value])).flatten ∧
      query.compose options schema overrides =
        .ok (String.join (alternate (pieces.map (Fragment.text options.dialect))
          (statement.parameters.map options.dialect.quoteString))) ∧
      query.composeBound options schema overrides =
        .ok ⟨String.join (alternate (pieces.map (Fragment.text options.dialect))
          ((List.range' 1 statement.parameters.length).map fun position =>
            "$" ++ toString position)), statement.parameters⟩ := by
  rw [Query.compose_eq_text, Query.composeBound_eq_bind]
  cases query.tokens options schema overrides with
  | error error => exact .inl ⟨error, rfl, rfl⟩
  | ok statement =>
    refine .inr ⟨statement, statement.pieces, rfl, statement.length_pieces,
      statement.parameters_pieces, statement.eq_flatten_pieces, ?_, ?_⟩
    · exact congrArg Except.ok (statement.text_eq_join options.dialect)
    · exact congrArg Except.ok (statement.bindAfter_eq options.dialect 0)

end DeclarativeSql
