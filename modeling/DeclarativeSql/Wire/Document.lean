import DeclarativeSql.Check.Rules
import DeclarativeSql.Wire.Composition

/-!
# The written form of documents and queries

A query is read as a document and has to meet the rules for documents.
-/

namespace DeclarativeSql

namespace Document

def fields : Fields [Option String, Option Composition, Option String] :=
  .cons (optional "query" (Node.asOption Node.asString) none) <|
  .cons (optional "composition" (Node.asOption Composition.ofNode) none) <|
  .cons (optional "description" (Node.asOption Node.asString) none) .nil

def ofNode (node : Node) : Decoded Document := do
  let (query, composition, description, ()) ← fields.decode false node
  return ⟨query, composition, description⟩

def toJson (document : Document) : Json :=
  .object <|
    memberIfSome "query" .string document.query ++
      memberIfSome "composition" Composition.toJson document.composition ++
      memberIfSome "description" .string document.description

end Document

namespace Query

/-- A query inside another value: its problems are one fault of the whole. -/
def ofNode (node : Node) : Decoded Query := do
  match ofDocument Check.defaultDepth (← Document.ofNode node) with
  | .ok query => return query
  | .error problems => throw (.rejected (Problem.summary problems))

/-- Reads a text and checks it, with predicates of at most `limit` levels. -/
def ofText (limit : Nat) (text : String) : Except (List Problem) Query :=
  match decodeText Document.ofNode text with
  | .ok document => ofDocument limit document
  | .error error => .error [.malformed error]

def toJson (query : Query) : Json :=
  query.document.toJson

def text (query : Query) : String :=
  query.toJson.compact

end Query

end DeclarativeSql
