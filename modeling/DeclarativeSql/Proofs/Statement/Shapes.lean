import DeclarativeSql.Proofs.Statement.Restriction

/-!
# The shape of a predicate in its tokens

`compiled_predicates_keep_their_shape`: a predicate whose groups have two members or more can be
read back from its tokens, up to what its conditions compile to. So two such predicates with the
same tokens have the same groups, whatever limits they were compiled under. The words of a
condition stand one space apart, which is why reading may leave the spaces out.
-/

namespace DeclarativeSql

-- ---------------------------------------------------------------------------
-- Trees of compiled conditions
-- ---------------------------------------------------------------------------

/-- The same connective and as many members in each group, and the same tokens in each leaf. -/
inductive Predicate.SameShape : Predicate → Predicate → Prop
  | leaf {condition other : Condition} : condition.compile = .ok tokens →
      other.compile = .ok tokens → SameShape (.leaf condition) (.leaf other)
  | group (connective : Connective) : List.Forall₂ SameShape children others →
      SameShape (.group connective children) (.group connective others)

def Condition.tokens (condition : Condition) : Fragment :=
  match condition.compile with
  | .ok fragment => fragment
  | .error _ => []

mutual
/-- The tree of a predicate with the tokens of its conditions as leaves. -/
def Predicate.skeleton : Predicate → Formula
  | .leaf condition => .atom condition.tokens
  | .group connective children => .group connective (Predicate.skeletons children)
def Predicate.skeletons : List Predicate → List Formula
  | [] => []
  | child :: rest => child.skeleton :: Predicate.skeletons rest
end

mutual
/-- Puts a space between the words of each atom. -/
def Formula.spaced : Formula → Formula
  | .atom words => .atom (words.intersperse .space)
  | .group connective members => .group connective (Formula.allSpaced members)
def Formula.allSpaced : List Formula → List Formula
  | [] => []
  | member :: rest => member.spaced :: Formula.allSpaced rest
end

/-- The tree that tokens are read as. -/
def Fragment.skeleton? (fragment : Fragment) : Option Formula :=
  (Reader.read? fragment.words).map Formula.spaced

-- ---------------------------------------------------------------------------
-- Reading a tree back
-- ---------------------------------------------------------------------------

theorem Grammar.Comparison.intersperse_words (h : Grammar.Comparison fragment) :
    fragment.words.intersperse .space = fragment := by
  cases h with
  | null ht => rcases ht with rfl | rfl <;> rfl
  | number => rfl
  | text => rfl
  | pattern ht => rcases ht with rfl | rfl <;> rfl

theorem Condition.intersperse_words (condition : Condition) :
    condition.words.intersperse .space = condition.tokens := by
  rw [Condition.words, Condition.tokens]
  cases hc : condition.compile with
  | error => rfl
  | ok fragment => exact (Condition.compile_derives hc).intersperse_words

theorem Formula.of_of_two_le {connective : Connective} {members : List Formula}
    (h : 2 ≤ members.length) : Formula.of connective members = .group connective members := by
  match members, h with
  | _ :: _ :: _, _ => rfl

theorem Predicate.length_formulas (children : List Predicate) :
    (Predicate.formulas children).length = children.length := by
  induction children with
  | nil => rfl
  | cons child rest ih => exact congrArg (· + 1) ih

mutual
/-- With two members or more no group is read as one of its members. -/
theorem Predicate.spaced_formula : (p : Predicate) → (∀ members ∈ p.groups, 2 ≤ members.length) →
    p.formula.spaced = p.skeleton
  | .leaf condition, _ => congrArg Formula.atom condition.intersperse_words
  | .group connective children, hg => by
    rw [Predicate.groups, List.forall_mem_cons] at hg
    have hs : 2 ≤ (Predicate.formulas children).length := by
      rw [Predicate.length_formulas]
      exact hg.1
    rw [Predicate.formula, Formula.of_of_two_le hs, Formula.spaced, Predicate.skeleton,
      Predicate.allSpaced_formulas children hg.2]
theorem Predicate.allSpaced_formulas : (children : List Predicate) →
    (∀ members ∈ Predicate.allGroups children, 2 ≤ members.length) →
    Formula.allSpaced (Predicate.formulas children) = Predicate.skeletons children
  | [], _ => rfl
  | child :: rest, hg => by
    rw [Predicate.allGroups, List.forall_mem_append] at hg
    rw [Predicate.formulas, Formula.allSpaced, Predicate.skeletons,
      Predicate.spaced_formula child hg.1, Predicate.allSpaced_formulas rest hg.2]
end

theorem Predicate.skeleton?_compile {p : Predicate}
    (hg : ∀ members ∈ p.groups, 2 ≤ members.length) (h : p.compile limit = .ok fragment) :
    Fragment.skeleton? fragment = some p.skeleton := by
  have hn : ∀ members ∈ p.groups, members ≠ [] := fun members hm =>
    List.ne_nil_of_length_pos (Nat.lt_of_lt_of_le Nat.two_pos (hg members hm))
  rw [Fragment.skeleton?, (Predicate.reads_formula hn h).read?, Option.map_some,
    p.spaced_formula hg]

-- ---------------------------------------------------------------------------
-- Predicates with one tree
-- ---------------------------------------------------------------------------

theorem Condition.compile_eq_tokens {condition : Condition}
    (h : condition.compile = .ok fragment) : condition.compile = .ok condition.tokens := by
  rw [Condition.tokens, h]

mutual
theorem Predicate.sameShape_of_skeleton_eq (depth level : Nat) : (p q : Predicate) →
    p.compileAt limit depth = .ok fragment → q.compileAt other level = .ok fragment' →
      p.skeleton = q.skeleton → p.SameShape q
  | .leaf condition, .leaf last, hp, hq, h => by
    have hc := Condition.compile_eq_tokens (Predicate.compileAt_leaf_ok.mp hp).2
    have hl := Condition.compile_eq_tokens (Predicate.compileAt_leaf_ok.mp hq).2
    have ht : condition.tokens = last.tokens := Formula.atom.inj h
    exact .leaf hc (ht ▸ hl)
  | .group connective children, .group _ others, hp, hq, h => by
    obtain ⟨-, members, hm, -⟩ := Predicate.compileAt_group_ok.mp hp
    obtain ⟨-, members', hm', -⟩ := Predicate.compileAt_group_ok.mp hq
    obtain ⟨rfl, hs⟩ := Formula.group.inj h
    exact .group connective
      (Predicate.sameShapes_of_skeletons_eq (depth + 1) (level + 1) children others hm hm' hs)
  | .leaf _, .group _ _, _, _, h => nomatch h
  | .group _ _, .leaf _, _, _, h => nomatch h
theorem Predicate.sameShapes_of_skeletons_eq (depth level : Nat) :
    (children others : List Predicate) →
    Predicate.compileAllAt limit depth children = .ok fragments →
    Predicate.compileAllAt other level others = .ok fragments' →
      Predicate.skeletons children = Predicate.skeletons others →
        List.Forall₂ Predicate.SameShape children others
  | [], [], _, _, _ => .nil
  | child :: rest, next :: others, hc, ho, h => by
    obtain ⟨_, hf, _, hr, -⟩ := Predicate.compileAllAt_cons_ok.mp hc
    obtain ⟨_, hf', _, hr', -⟩ := Predicate.compileAllAt_cons_ok.mp ho
    obtain ⟨hs, ht⟩ := List.cons.inj h
    exact .cons (Predicate.sameShape_of_skeleton_eq depth level child next hf hf' hs)
      (Predicate.sameShapes_of_skeletons_eq depth level rest others hr hr' ht)
  | [], _ :: _, _, _, h => nomatch h
  | _ :: _, [], _, _, h => nomatch h
end

theorem compiled_predicates_keep_their_shape {p q : Predicate}
    (hp : ∀ members ∈ p.groups, 2 ≤ members.length)
    (hq : ∀ members ∈ q.groups, 2 ≤ members.length)
    (h : p.compile limit = .ok fragment) (h' : q.compile other = .ok fragment) :
    p.SameShape q ∧ fragment.skeleton? = some p.skeleton := by
  have hr := Predicate.skeleton?_compile hp h
  refine ⟨?_, hr⟩
  have hs : p.skeleton = q.skeleton :=
    Option.some.inj (hr.symm.trans (Predicate.skeleton?_compile hq h'))
  exact p.sameShape_of_skeleton_eq 1 1 q h h' hs

/-- Free, or large and named. -/
def freeOrLarge (free : Condition) : Predicate :=
  .group .or
    [.leaf free,
      .group .and
        [.leaf ⟨"size", "greater_than", .number (.int 9), none⟩,
          .leaf ⟨"name", "starts_with", .text "(a AND b)", none⟩]]

def unpaid : Condition where
  column := "paid"
  operator := "is_null"

/-- A test for null does not look at its value. -/
def unpaidOfNothing : Condition :=
  { unpaid with value := .text "nothing", options := some ⟨true⟩ }

def freeOrLargeTokens : Fragment :=
  [.openParen, .column "paid", .space, .isNull, .space, .or, .space, .openParen, .column "size",
    .space, .comparison .greater, .space, .number (.int 9), .space, .and, .space, .column "name",
    .space, .ilike, .space, .string "(a AND b)%", .closeParen, .closeParen]

theorem compiled_predicates_keep_their_shape_of_unpaid :
    (∀ members ∈ (freeOrLarge unpaid).groups, 2 ≤ members.length) ∧
      (∀ members ∈ (freeOrLarge unpaidOfNothing).groups, 2 ≤ members.length) ∧
      (freeOrLarge unpaid).compile 3 = .ok freeOrLargeTokens ∧
      (freeOrLarge unpaidOfNothing).compile 64 = .ok freeOrLargeTokens ∧
      (freeOrLarge unpaid).SameShape (freeOrLarge unpaidOfNothing) ∧
      freeOrLargeTokens.skeleton? = some (freeOrLarge unpaid).skeleton := by
  have hp : ∀ members ∈ (freeOrLarge unpaid).groups, 2 ≤ members.length := by decide
  have hq : ∀ members ∈ (freeOrLarge unpaidOfNothing).groups, 2 ≤ members.length := by decide
  have h : (freeOrLarge unpaid).compile 3 = .ok freeOrLargeTokens := rfl
  have h' : (freeOrLarge unpaidOfNothing).compile 64 = .ok freeOrLargeTokens := rfl
  exact ⟨hp, hq, h, h', compiled_predicates_keep_their_shape hp hq h h'⟩

end DeclarativeSql
