import Mathlib.Data.List.Forall2
import DeclarativeSql.Statement.Options

/-!
# Compilations that succeed, and the fault of those that do not

`bind_ok`, `map_ok` and `mapM_ok` take the success of a composed compilation apart. `fault?`
is the other side: of two steps in a row the fault of the first counts.
-/

namespace DeclarativeSql

-- ---------------------------------------------------------------------------
-- Success
-- ---------------------------------------------------------------------------

theorem bind_ok {x : Except ε α} {f : α → Except ε β} :
    x >>= f = .ok b ↔ ∃ a, x = .ok a ∧ f a = .ok b := by
  cases x <;> simp [bind, Except.bind]

@[simp] theorem pure_ok : (pure a : Except ε α) = .ok b ↔ a = b := by
  simp [pure, Except.pure]

theorem map_ok {x : Except ε α} {f : α → β} : x.map f = .ok b ↔ ∃ a, x = .ok a ∧ f a = b := by
  cases x <;> simp [Except.map]

theorem returning_ok {error : ε → δ} {x : Except ε α} : returning error x = .ok a ↔ x = .ok a := by
  cases x <;> simp [returning, Except.mapError]

theorem mapM_ok {f : α → Except ε β} :
    l.mapM f = .ok r ↔ List.Forall₂ (fun a b => f a = .ok b) l r := by
  induction l generalizing r with
  | nil =>
    simp only [List.mapM_nil, pure_ok, List.forall₂_nil_left_iff]
    exact eq_comm
  | cons a rest ih =>
    simp only [List.mapM_cons, bind_ok, pure_ok, ih, List.forall₂_cons_left_iff]
    constructor
    · rintro ⟨b, hb, bs, hbs, rfl⟩
      exact ⟨b, bs, hb, hbs, rfl⟩
    · rintro ⟨b, bs, hb, hbs, rfl⟩
      exact ⟨b, hb, bs, hbs, rfl⟩

theorem forall_mem_of_forall₂ {R : α → β → Prop} {P : β → Prop} (h : List.Forall₂ R l r)
    (hp : ∀ {a b}, R a b → P b) : ∀ b ∈ r, P b := by
  induction h with
  | nil => exact List.forall_mem_nil P
  | cons hr _ ih => exact List.forall_mem_cons.mpr ⟨hp hr, ih⟩

-- ---------------------------------------------------------------------------
-- The fault of a compilation
-- ---------------------------------------------------------------------------

def fault? : Except ε α → Option ε
  | .ok _ => none
  | .error e => some e

@[simp] theorem fault?_ok : fault? (.ok a : Except ε α) = none := rfl
@[simp] theorem fault?_error : fault? (.error e : Except ε α) = some e := rfl

theorem fault?_eq_none {x : Except ε α} : fault? x = none ↔ ∃ a, x = .ok a := by
  cases x <;> simp

theorem fault?_eq_some {x : Except ε α} : fault? x = some e ↔ x = .error e := by
  cases x <;> simp

@[simp] theorem fault?_map (f : α → β) (x : Except ε α) : fault? (x.map f) = fault? x := by
  cases x <;> rfl

@[simp] theorem fault?_returning (error : ε → δ) (x : Except ε α) :
    fault? (returning error x) = (fault? x).map fun fault => .returned (error fault) := by
  cases x <;> rfl

/-- Of two steps that do not depend on each other the first fault counts. -/
@[simp] theorem fault?_bind_bind_pure (x : Except ε α) (y : Except ε β) (f : α → β → γ) :
    fault? (x >>= fun a => y >>= fun b => pure (f a b)) = (fault? x).or (fault? y) := by
  cases x <;> cases y <;> rfl

theorem fault?_mapM (f : α → Except ε β) (l : List α) :
    fault? (l.mapM f) = l.findSome? fun a => fault? (f a) := by
  induction l with
  | nil => rfl
  | cons a rest ih =>
    rw [List.mapM_cons, fault?_bind_bind_pure, ih, List.findSome?_cons]
    cases fault? (f a) <;> rfl

-- ---------------------------------------------------------------------------
-- Compilations that look the same
-- ---------------------------------------------------------------------------

/-- Both fail with the same fault, or both succeed and `view` sees no difference. -/
inductive Alike (view : α → β) : Except ε α → Except ε α → Prop
  | ok : view a = view b → Alike view (.ok a) (.ok b)
  | error (e : ε) : Alike view (.error e) (.error e)

namespace Alike

theorem refl (view : α → β) (x : Except ε α) : Alike view x x := by
  cases x with
  | ok a => exact .ok rfl
  | error e => exact .error e

theorem symm {view : α → β} {x y : Except ε α} (h : Alike view x y) : Alike view y x := by
  cases h with
  | ok h => exact .ok h.symm
  | error e => exact .error e

theorem trans {view : α → β} {x y z : Except ε α} (hxy : Alike view x y) (hyz : Alike view y z) :
    Alike view x z := by
  cases hxy with
  | ok hxy =>
    cases hyz with
    | ok hyz => exact .ok (hxy.trans hyz)
  | error e => exact hyz

theorem map {view : α → β} {view' : α' → β'} {f g : α → α'} {x y : Except ε α}
    (hf : ∀ a b, view a = view b → view' (f a) = view' (g b)) (h : Alike view x y) :
    Alike view' (x.map f) (y.map g) := by
  cases h with
  | ok h => exact .ok (hf _ _ h)
  | error e => exact .error e

theorem returning {view : α → β} {x y : Except ε α} (error : ε → δ) (h : Alike view x y) :
    Alike view (returning error x) (returning error y) := by
  cases h with
  | ok h => exact .ok h
  | error e => exact .error _

/-- Of two steps each may be replaced by one that looks the same. -/
theorem both {first : α → α'} {second : β → β'} {view : γ → δ} {f g : α → β → γ}
    {x x' : Except ε α} {y y' : Except ε β}
    (hf : ∀ a a' b b', first a = first a' → second b = second b' → view (f a b) = view (g a' b'))
    (hx : Alike first x x') (hy : Alike second y y') :
    Alike view (x >>= fun a => y >>= fun b => pure (f a b))
      (x' >>= fun a => y' >>= fun b => pure (g a b)) := by
  cases hx with
  | error e => exact .error e
  | ok ha =>
    cases hy with
    | error e => exact .error e
    | ok hb => exact .ok (hf _ _ _ _ ha hb)

theorem mapM {view : α → β} {change : ι → ι} {f : ι → Except ε α}
    (h : ∀ item, Alike view (f (change item)) (f item)) (items : List ι) :
    Alike (List.map view) ((items.map change).mapM f) (items.mapM f) := by
  induction items with
  | nil => exact .ok rfl
  | cons item rest ih =>
    rw [List.map_cons, List.mapM_cons, List.mapM_cons]
    refine both ?_ (h item) ih
    intro a a' l l' ha hl
    rw [List.map_cons, List.map_cons, ha, hl]

end Alike

end DeclarativeSql
