import DeclarativeSql.Proofs.Sql.Reading

/-!
# How SQL reads a case expression

`ReadsCase words reading` is the grammar of case expressions: branches, each a condition and its
result, and then what holds otherwise. Conditions are read by `Reads` and hold no word of a case
expression, so the words of the expression itself show where each part ends
(`ReadsCase.unique`). The result is that of the first branch whose condition is true.
-/

namespace DeclarativeSql

/-- The words that a case expression itself has. -/
def Token.isCaseWord : Token → Bool
  | .caseStart | .caseWhen | .caseThen | .caseElse | .caseEnd => true
  | _ => false

/-- A case expression as it is read. -/
structure CaseReading where
  branches : List (Formula × Token)
  otherwise : Token

/-- Branches in a row, each with its condition and its result. -/
inductive ReadsBranches : Fragment → List (Formula × Token) → Prop
  | nil : ReadsBranches [] []
  | cons : Reads condition formula → (∀ word ∈ condition, word.isCaseWord = false) →
      result.isCaseWord = false → ReadsBranches rest branches →
      ReadsBranches (.caseWhen :: condition ++ .caseThen :: result :: rest)
        ((formula, result) :: branches)

/-- What stands behind the branches. Without an `ELSE` the result is `NULL`. -/
inductive ReadsOtherwise : Fragment → Token → Prop
  | given : result.isCaseWord = false → ReadsOtherwise [.caseElse, result, .caseEnd] result
  | nothing : ReadsOtherwise [.caseEnd] .null

inductive ReadsCase : Fragment → CaseReading → Prop
  | of : ReadsBranches words branches → ReadsOtherwise tail result →
      ReadsCase (.caseStart :: words ++ tail) ⟨branches, result⟩

-- ---------------------------------------------------------------------------
-- No words have two readings
-- ---------------------------------------------------------------------------

/-- A condition ends where the first case word stands. -/
theorem Fragment.append_caseThen_inj {first second rest others : Fragment}
    (hf : ∀ word ∈ first, word.isCaseWord = false)
    (hs : ∀ word ∈ second, word.isCaseWord = false)
    (h : first ++ .caseThen :: rest = second ++ .caseThen :: others) :
    first = second ∧ rest = others := by
  have front (words tail : Fragment) (hw : ∀ word ∈ words, word.isCaseWord = false) :
      (words ++ .caseThen :: tail).takeWhile (fun word => !word.isCaseWord) = words := by
    rw [List.takeWhile_append_of_pos fun word hm => by rw [hw word hm, Bool.not_false]]
    exact List.append_nil words
  have he : first = second := by
    rw [← front first rest hf, h, front second others hs]
  subst he
  exact ⟨rfl, (List.cons.inj (List.append_cancel_left h)).2⟩

theorem ReadsOtherwise.head_ne (h : ReadsOtherwise words result) (rest : Fragment) :
    words ≠ .caseWhen :: rest := by
  cases h <;> nofun

theorem ReadsOtherwise.unique (h : ReadsOtherwise words first)
    (h' : ReadsOtherwise words second) : first = second := by
  cases h with
  | given =>
    cases h' with
    | given => rfl
  | nothing =>
    cases h' with
    | nothing => rfl

/-- The induction is on the branches of the first reading; what stands behind them is no branch,
so the second reading has as many. -/
theorem ReadsBranches.append_inj (h : ReadsBranches words branches)
    (h' : ReadsBranches words' branches') (ht : ReadsOtherwise tail result)
    (ht' : ReadsOtherwise tail' result') (he : words ++ tail = words' ++ tail') :
    branches = branches' ∧ tail = tail' := by
  induction h generalizing words' branches' with
  | nil =>
    cases h' with
    | nil => exact ⟨rfl, he⟩
    | cons => exact absurd he (ht.head_ne _)
  | cons hr hw _ _ ih =>
    cases h' with
    | nil => exact absurd he.symm (ht'.head_ne _)
    | cons hr' hw' _ hb' =>
      simp only [List.cons_append, List.append_assoc, List.cons.injEq, true_and] at he
      obtain ⟨rfl, hrest⟩ := Fragment.append_caseThen_inj hw hw' he
      obtain ⟨rfl, htail⟩ := List.cons.inj hrest
      obtain ⟨rfl, rfl⟩ := ih hb' htail
      rw [hr.unique hr']
      exact ⟨rfl, rfl⟩

theorem ReadsCase.unique (h : ReadsCase words first) (h' : ReadsCase words second) :
    first = second := by
  obtain ⟨hb, ho⟩ := h
  generalize hw : Token.caseStart :: _ ++ _ = words at h'
  obtain ⟨hb', ho'⟩ := h'
  obtain ⟨rfl, rfl⟩ := hb.append_inj hb' ho ho' (List.cons.inj hw).2
  rw [ho.unique ho']

-- ---------------------------------------------------------------------------
-- Values
-- ---------------------------------------------------------------------------

/-- The result of the first branch whose condition is true; a condition that is unknown counts
as one that is not. -/
def CaseReading.selected [Lattice α] [BoundedOrder α] [DecidableEq α] (truth : Fragment → α)
    (reading : CaseReading) : Token :=
  ((reading.branches.find? fun branch => branch.1.value truth = ⊤).map Prod.snd).getD
    reading.otherwise

end DeclarativeSql
