import DeclarativeSql.Proofs.Query.Trees
import DeclarativeSql.Sql.Fragment

/-!
# How SQL reads a condition

The words of a fragment are its tokens without the spaces between them. `Reads words formula`
is the grammar of conditions: parentheses group, `AND` in either case binds tighter than `OR`,
and a run of other words is an atom. Members under one connective are kept in one list, so a
formula shows which parentheses were written.

`Reads.unique`: no words have two readings. The reader that finds the reading keeps the open
parentheses on a stack and goes through the words once.
-/

namespace DeclarativeSql

def Fragment.words (fragment : Fragment) : Fragment :=
  fragment.filter fun token => token ≠ .space

@[simp] theorem Fragment.words_append (first second : Fragment) :
    Fragment.words (first ++ second) = first.words ++ second.words :=
  List.filter_append ..

/-- A condition as it is read; atoms are not looked into. -/
inductive Formula
  | atom (words : Fragment)
  | group (connective : Connective) (members : List Formula)

/-- Members under a connective. One member alone stands for itself. -/
def Formula.of (connective : Connective) : List Formula → Formula
  | [member] => member
  | members => .group connective members

namespace Token

def isConjunction : Token → Bool
  | .and | .lowerAnd => true
  | _ => false

/-- Connectives and parentheses, which are no part of an atom. -/
def isMark : Token → Bool
  | .and | .lowerAnd | .or | .openParen | .closeParen => true
  | _ => false

end Token

-- ---------------------------------------------------------------------------
-- The grammar
-- ---------------------------------------------------------------------------

mutual
/-- An atom, or a condition in parentheses. -/
inductive Operand : Fragment → Formula → Prop
  | atom : words ≠ [] → (∀ word ∈ words, word.isMark = false) → Operand words (.atom words)
  | enclosed : Alternatives words members →
      Operand (.openParen :: words ++ [.closeParen]) (.of .or members)
/-- Operands with `AND` between them. -/
inductive Conjuncts : Fragment → List Formula → Prop
  | last : Operand words formula → Conjuncts words [formula]
  | more : Operand words formula → word.isConjunction = true → Conjuncts rest formulas →
      Conjuncts (words ++ word :: rest) (formula :: formulas)
/-- Conjunctions with `OR` between them. -/
inductive Alternatives : Fragment → List Formula → Prop
  | last : Conjuncts words conjuncts → Alternatives words [.of .and conjuncts]
  | more : Conjuncts words conjuncts → Alternatives rest formulas →
      Alternatives (words ++ .or :: rest) (.of .and conjuncts :: formulas)
end

def Reads (words : Fragment) (formula : Formula) : Prop :=
  ∃ members, Alternatives words members ∧ formula = .of .or members

-- ---------------------------------------------------------------------------
-- The reader
-- ---------------------------------------------------------------------------

/-- One level of parentheses: the conjunctions that an `OR` has ended, and the operands of the
conjunction that is being read. -/
structure Reader.Level where
  alternatives : List Formula := []
  conjuncts : List Formula := []

/-- What stands behind the last connective or opening parenthesis: nothing yet, an atom that
has begun, or a condition in parentheses. -/
inductive Reader.Pending
  | nothing
  | begun (words : Fragment)
  | closed (formula : Formula)

structure Reader where
  outer : List Reader.Level
  level : Reader.Level
  pending : Reader.Pending

namespace Reader

def Pending.operand? : Pending → Option Formula
  | .nothing => none
  | .begun words => some (.atom words)
  | .closed formula => some formula

def Level.and (level : Level) (operand : Formula) : Level :=
  { level with conjuncts := level.conjuncts ++ [operand] }

def Level.or (level : Level) (operand : Formula) : Level where
  alternatives := level.alternatives ++ [.of .and (level.conjuncts ++ [operand])]

theorem Level.or_eq (level : Level) (operand : Formula) :
    level.or operand =
      ⟨(level.and operand).alternatives ++ [.of .and (level.and operand).conjuncts], []⟩ := rfl

def Level.formula (level : Level) (operand : Formula) : Formula :=
  .of .or (level.or operand).alternatives

def Pending.add (word : Token) : Pending → Option Pending
  | .nothing => some (.begun [word])
  | .begun words => some (.begun (words ++ [word]))
  | .closed _ => none

def step (reader : Reader) (word : Token) : Option Reader :=
  match word with
  | .openParen =>
    match reader.pending with
    | .nothing => some ⟨reader.level :: reader.outer, {}, .nothing⟩
    | _ => none
  | .closeParen =>
    match reader.outer, reader.pending.operand? with
    | level :: outer, some operand => some ⟨outer, level, .closed (reader.level.formula operand)⟩
    | _, _ => none
  | .and | .lowerAnd =>
    reader.pending.operand?.map fun operand => ⟨reader.outer, reader.level.and operand, .nothing⟩
  | .or =>
    reader.pending.operand?.map fun operand => ⟨reader.outer, reader.level.or operand, .nothing⟩
  | word => (reader.pending.add word).map fun pending => { reader with pending := pending }

def run (reader : Reader) (words : Fragment) : Option Reader :=
  words.foldlM step reader

theorem run_append (reader : Reader) (first second : Fragment) :
    reader.run (first ++ second) = (reader.run first).bind fun next => next.run second :=
  List.foldlM_append

theorem run_cons (reader : Reader) (word : Token) (rest : Fragment) :
    reader.run (word :: rest) = (reader.step word).bind fun next => next.run rest :=
  List.foldlM_cons

theorem step_word (reader : Reader) {word : Token} (h : word.isMark = false) :
    reader.step word =
      (reader.pending.add word).map fun pending => { reader with pending := pending } := by
  cases word <;> first | rfl | cases h

theorem step_conjunction (reader : Reader) {word : Token} (h : word.isConjunction = true) :
    reader.step word = reader.pending.operand?.map fun operand =>
      ⟨reader.outer, reader.level.and operand, .nothing⟩ := by
  cases word <;> first | rfl | cases h

/-- The formula of a text, when all of its parentheses are closed. -/
def read? (words : Fragment) : Option Formula :=
  match run ⟨[], {}, .nothing⟩ words with
  | some ⟨[], level, pending⟩ => pending.operand?.map level.formula
  | _ => none

-- ---------------------------------------------------------------------------
-- The reader follows the grammar
-- ---------------------------------------------------------------------------

theorem run_begun (outer : List Level) (level : Level) (begun : Fragment) {words : Fragment}
    (h : ∀ word ∈ words, word.isMark = false) :
    run ⟨outer, level, .begun begun⟩ words = some ⟨outer, level, .begun (begun ++ words)⟩ := by
  induction words generalizing begun with
  | nil =>
    rw [List.append_nil]
    rfl
  | cons word rest ih =>
    rw [run_cons, step_word _ (h word List.mem_cons_self)]
    show run ⟨outer, level, .begun (begun ++ [word])⟩ rest = _
    rw [ih (begun ++ [word]) fun other ho => h other (List.mem_cons_of_mem _ ho),
      List.append_assoc]
    rfl

theorem run_atom (outer : List Level) (level : Level) {words : Fragment} (hn : words ≠ [])
    (h : ∀ word ∈ words, word.isMark = false) :
    run ⟨outer, level, .nothing⟩ words = some ⟨outer, level, .begun words⟩ := by
  cases words with
  | nil => exact absurd rfl hn
  | cons word rest =>
    rw [run_cons, step_word _ (h word List.mem_cons_self)]
    exact run_begun outer level [word] fun other ho => h other (List.mem_cons_of_mem _ ho)

end Reader

open Reader (Level Pending)

mutual
theorem Operand.run : Operand words formula → ∀ outer level, ∃ pending : Pending,
    pending.operand? = some formula ∧
      Reader.run ⟨outer, level, .nothing⟩ words = some ⟨outer, level, pending⟩
  | .atom hn h, outer, level => ⟨.begun _, rfl, Reader.run_atom outer level hn h⟩
  | .enclosed h, outer, level => by
    obtain ⟨next, pending, last, hp, ho, hr⟩ := h.run (level :: outer) []
    refine ⟨.closed (next.formula last), ?_, ?_⟩
    · rw [Level.formula, ho]
      rfl
    · have hs : Reader.step ⟨outer, level, .nothing⟩ .openParen =
          some ⟨level :: outer, ⟨[], []⟩, .nothing⟩ := rfl
      rw [List.cons_append, Reader.run_cons, hs, Option.bind_some, Reader.run_append, hr,
        Option.bind_some, Reader.run_cons]
      simp only [Reader.step, hp]
      rfl
theorem Conjuncts.run : Conjuncts words formulas → ∀ outer (level : Level),
    ∃ (next : Level) (pending : Pending) (last : Formula), pending.operand? = some last ∧
      next.and last = { level with conjuncts := level.conjuncts ++ formulas } ∧
      Reader.run ⟨outer, level, .nothing⟩ words = some ⟨outer, next, pending⟩
  | .last h, outer, level => by
    obtain ⟨pending, hp, hr⟩ := h.run outer level
    exact ⟨level, pending, _, hp, rfl, hr⟩
  | .more h hw hm, outer, level => by
    obtain ⟨pending, hp, hr⟩ := h.run outer level
    obtain ⟨next, pending', last, hp', ha, hr'⟩ := hm.run outer (level.and _)
    refine ⟨next, pending', last, hp', ?_, ?_⟩
    · rw [ha, Level.and, List.append_assoc]
      rfl
    · rw [Reader.run_append, hr, Option.bind_some, Reader.run_cons,
        Reader.step_conjunction _ hw, hp]
      exact hr'
theorem Alternatives.run : Alternatives words formulas → ∀ outer alternatives,
    ∃ (next : Level) (pending : Pending) (last : Formula), pending.operand? = some last ∧
      next.or last = ⟨alternatives ++ formulas, []⟩ ∧
      Reader.run ⟨outer, ⟨alternatives, []⟩, .nothing⟩ words = some ⟨outer, next, pending⟩
  | .last h, outer, alternatives => by
    obtain ⟨next, pending, last, hp, ha, hr⟩ := h.run outer ⟨alternatives, []⟩
    refine ⟨next, pending, last, hp, ?_, hr⟩
    rw [Level.or_eq, ha]
    rfl
  | .more h hm, outer, alternatives => by
    obtain ⟨next, pending, last, hp, ha, hr⟩ := h.run outer ⟨alternatives, []⟩
    obtain ⟨next', pending', last', hp', ho', hr'⟩ := hm.run outer (alternatives ++ [_])
    refine ⟨next', pending', last', hp', ?_, ?_⟩
    · rw [ho', List.append_assoc]
      rfl
    · rw [Reader.run_append, hr, Option.bind_some, Reader.run_cons]
      simp only [Reader.step, hp, Option.map_some, Option.bind_some, Level.or_eq, ha]
      exact hr'
end

theorem Reads.read? {words : Fragment} {formula : Formula} (h : Reads words formula) :
    Reader.read? words = some formula := by
  obtain ⟨members, ha, rfl⟩ := h
  obtain ⟨next, pending, last, hp, ho, hr⟩ := ha.run [] []
  rw [Reader.read?]
  simp only [hr, hp, Option.map_some, Level.formula, ho]
  rfl

/-- No words have two readings. -/
theorem Reads.unique {words : Fragment} {first second : Formula} (h : Reads words first)
    (h' : Reads words second) : first = second :=
  Option.some.inj (h.read?.symm.trans h'.read?)

-- ---------------------------------------------------------------------------
-- Values
-- ---------------------------------------------------------------------------

section
variable [Lattice α] [BoundedOrder α]

mutual
/-- The value of a formula whose atoms have the values of `truth`. -/
def Formula.value (truth : Fragment → α) : Formula → α
  | .atom words => truth words
  | .group connective members => connective.combine (Formula.values truth members)
def Formula.values (truth : Fragment → α) : List Formula → List α
  | [] => []
  | member :: rest => member.value truth :: Formula.values truth rest
end

theorem Formula.values_eq_map (truth : Fragment → α) (members : List Formula) :
    Formula.values truth members = members.map (Formula.value truth) := by
  induction members with
  | nil => rfl
  | cons member rest ih => rw [Formula.values, ih, List.map_cons]

theorem Formula.value_of (truth : Fragment → α) (connective : Connective)
    (members : List Formula) :
    (Formula.of connective members).value truth =
      connective.combine (members.map (Formula.value truth)) := by
  rw [← Formula.values_eq_map]
  cases members with
  | nil => rfl
  | cons member rest =>
    cases rest with
    | nil => exact (connective.combine_singleton _).symm
    | cons next rest => rfl

end

end DeclarativeSql
