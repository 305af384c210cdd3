import DeclarativeSql.Proofs.Catalog.History
import DeclarativeSql.Proofs.Catalog.Paths

/-!
# Owners do not see each other's queries

A query is created for all companies or for one. In a run that reaches the store only through
the requests of owners, and through paths for a replacement or a deletion, the queries under
the start of an owner are those that were created for that owner (`isolated_of_scoped`).

The path of a query has the components of its owner in front, and these tell owners apart, so
the text of a start needs no further look.
-/

namespace DeclarativeSql.Store

inductive Owner
  | global
  | company (name : String)

namespace Owner

def path : Owner → String → String
  | .global, identifier => Path.global identifier
  | .company name, identifier => Path.company name identifier

def start : Owner → String
  | .global => Path.globalStart
  | .company name => Path.companyStart name

def components : Owner → List String
  | .global => ["global"]
  | .company name => ["companies", name]

theorem components_ne_nil (owner : Owner) : owner.components ≠ [] := by
  cases owner <;> simp [components]

theorem components_inj {owner other : Owner} (h : owner.components = other.components) :
    owner = other := by
  cases owner <;> cases other <;> simp_all [components]

theorem path_eq (owner : Owner) (identifier : String) :
    owner.path identifier = Path.ofComponents (owner.components ++ ["queries", identifier]) := by
  cases owner <;> rfl

theorem start_eq (owner : Owner) :
    owner.start = (Path.ofComponents owner.components).push Path.separator := by
  cases owner <;> rfl

/-- Two creations share a path only when they are for one owner and have one identifier. -/
theorem path_inj {owner other : Owner} :
    owner.path identifier = other.path name ↔ owner = other ∧ identifier = name := by
  constructor
  · intro h
    rw [path_eq, path_eq, Path.ofComponents_inj (by simp) (by simp)] at h
    obtain ⟨ho, hi⟩ := List.append_inj' h rfl
    exact ⟨components_inj ho, by simpa using hi⟩
  · rintro ⟨rfl, rfl⟩
    rfl

theorem path_startsWith {owner other : Owner} (identifier : String) :
    (∃ rest, owner.path identifier = other.start ++ rest) ↔ owner = other := by
  rw [path_eq, start_eq, Path.startsWith_iff other.components_ne_nil (by simp)]
  constructor
  · rintro ⟨more, -, h⟩
    cases owner <;> cases other <;> simp_all [components]
  · rintro rfl
    exact ⟨["queries", identifier], by simp, rfl⟩

end Owner

/-- The requests that leave the choice of paths and of starts to the store. -/
def Request.isScoped : Request → Bool
  | .create .. | .deleteStart .. => false
  | _ => true

def Owner.create : Owner → String → Query → Request
  | .global, identifier, query => .createGlobal identifier query
  | .company name, identifier, query => .createCompany name identifier query

def Event.CreatesFor (event : Event) (owner : Owner) (path : String) : Prop :=
  event.Succeeded ∧ ∃ identifier query,
    event.request = owner.create identifier query ∧ path = owner.path identifier

/-- The query is deleted, or with it all queries of the company that it was created for. -/
def Event.Ends (event : Event) (owner : Owner) (path : String) : Prop :=
  event.Succeeded ∧ (event.request = .delete path ∨
    ∃ company, owner = .company company ∧ event.request = .deleteAllByCompany company)

/-- The path was created for the owner and its query was not ended since. -/
def LiveFor (events : List Event) (owner : Owner) (path : String) : Prop :=
  Since (·.CreatesFor owner path) (fun later => ¬ later.Ends owner path) events

def listFor (store : Store) : Owner → List StoredQuery
  | .global => store.listGlobals
  | .company name => store.listByCompany name

theorem listFor_eq (store : Store) (owner : Owner) :
    store.listFor owner = store.listStart owner.start := by
  cases owner <;> rfl

-- ---------------------------------------------------------------------------
-- Scoped requests
-- ---------------------------------------------------------------------------

theorem action_create (owner : Owner) (identifier : String) (query : Query) :
    ∃ written, (owner.create identifier query).action =
      .create (owner.path identifier) written := by
  cases owner with
  | global => exact ⟨globalCopy identifier query, rfl⟩
  | company name => exact ⟨query, rfl⟩

theorem owner_of_action {request : Request} (h : request.isScoped = true)
    (ha : request.action = .create path query) :
    ∃ owner identifier written,
      request = Owner.create owner identifier written ∧ path = owner.path identifier := by
  cases request with
  | createGlobal identifier written =>
    cases ha
    exact ⟨.global, identifier, written, rfl, rfl⟩
  | createCompany company identifier written =>
    cases ha
    exact ⟨.company company, identifier, query, rfl, rfl⟩
  | create path query => cases h
  | _ => cases ha

variable {event : Event} {events : List Event}

theorem createsFor_iff (h : event.request.isScoped = true) (owner : Owner) :
    event.CreatesFor owner (owner.path identifier) ↔
      ∃ query, event.Creates (owner.path identifier) query := by
  constructor
  · rintro ⟨hs, name, query, hr, hp⟩
    obtain ⟨written, ha⟩ := action_create owner name query
    exact ⟨written, hs, by rw [hr, hp, ha]⟩
  · rintro ⟨query, hs, ha⟩
    obtain ⟨other, name, written, hr, hp⟩ := owner_of_action h ha
    obtain ⟨rfl, rfl⟩ := Owner.path_inj.mp hp
    exact ⟨hs, identifier, written, hr, rfl⟩

theorem company_of_clear {request : Request} (h : request.isScoped = true)
    (ha : request.action = .clear start) :
    ∃ company, request = .deleteAllByCompany company ∧ start = (Owner.company company).start := by
  cases request with
  | deleteAllByCompany company =>
    cases ha
    exact ⟨company, rfl, rfl⟩
  | deleteStart start => cases h
  | _ => cases ha

theorem delete_of_action {request : Request} (ha : request.action = .delete path) :
    request = .delete path := by
  cases request <;> cases ha
  rfl

theorem ends_iff (h : event.request.isScoped = true) (owner : Owner) :
    event.Ends owner (owner.path identifier) ↔ event.Removes (owner.path identifier) := by
  refine and_congr_right fun _ => or_congr ⟨fun hr => by rw [hr]; rfl, delete_of_action⟩ ?_
  constructor
  · rintro ⟨company, rfl, hr⟩
    obtain ⟨rest, hp⟩ :=
      (Owner.path_startsWith identifier).mpr (rfl : Owner.company company = .company company)
    exact ⟨_, rest, by rw [hr]; rfl, hp⟩
  · rintro ⟨start, rest, ha, hp⟩
    obtain ⟨company, hr, rfl⟩ := company_of_clear h ha
    exact ⟨company, (Owner.path_startsWith _).mp ⟨rest, hp⟩, hr⟩

-- ---------------------------------------------------------------------------
-- Scoped histories
-- ---------------------------------------------------------------------------

variable (h : ∀ event ∈ events, event.request.isScoped = true)

include h

theorem liveFor_path (owner : Owner) (identifier : String) :
    LiveFor events owner (owner.path identifier) ↔ Live events (owner.path identifier) := by
  constructor
  · intro hl
    exact hl.imp (fun event he => (createsFor_iff (h event he) owner).mp)
      fun event he => mt (ends_iff (h event he) owner).mpr
  · intro hl
    exact hl.imp (fun event he => (createsFor_iff (h event he) owner).mpr)
      fun event he => mt (ends_iff (h event he) owner).mp

theorem owner_of_live (hl : Live events path) :
    ∃ owner identifier, path = Owner.path owner identifier := by
  obtain ⟨earlier, event, later, rfl, ⟨query, -, ha⟩, -⟩ := hl
  obtain ⟨owner, identifier, -, -, hp⟩ := owner_of_action (h event (by simp)) ha
  exact ⟨owner, identifier, hp⟩

/-- The live paths under the start of an owner. -/
theorem liveFor_iff (owner : Owner) (path : String) :
    LiveFor events owner path ↔ (∃ rest, path = owner.start ++ rest) ∧ Live events path := by
  constructor
  · intro hl
    obtain ⟨identifier, rfl⟩ : ∃ identifier, path = owner.path identifier := by
      obtain ⟨earlier, event, later, -, ⟨-, identifier, query, -, hp⟩, -⟩ := hl
      exact ⟨identifier, hp⟩
    exact ⟨(Owner.path_startsWith identifier).mpr rfl, (liveFor_path h owner identifier).mp hl⟩
  · rintro ⟨hs, hl⟩
    obtain ⟨other, identifier, rfl⟩ := owner_of_live h hl
    obtain rfl := (Owner.path_startsWith _).mp hs
    exact (liveFor_path h other identifier).mpr hl

omit h

/-- The store keeps the queries of every owner apart. -/
structure Isolates (store : Store) (events : List Event) : Prop where
  listed (owner : Owner) (stored : StoredQuery) : stored ∈ store.listFor owner ↔
    LiveFor events owner stored.path ∧ LastWrite events stored.path stored.query
  sorted (owner : Owner) :
    (store.listFor owner).Pairwise fun first second => first.path < second.path
  counted (company : String) : ((store.deleteAllByCompany company).1 : ℕ∞) =
    Set.encard {path | LiveFor events (.company company) path}
  deleted (company path : String) : LiveFor events (.company company) path →
    (store.deleteAllByCompany company).2.get? path = none
  kept (company path : String) : ¬ LiveFor events (.company company) path →
    (store.deleteAllByCompany company).2.get? path = store.get? path
  unshared (owner other : Owner) (identifier name : String) :
    owner.path identifier = other.path name → owner = other ∧ identifier = name

theorem scoped_history {requests : List Request}
    (h : ∀ request ∈ requests, request.isScoped = true) :
    ∀ event ∈ history requests, event.request.isScoped = true := by
  intro event he
  refine h _ ?_
  rw [← map_request_history requests]
  exact List.mem_map_of_mem he

theorem isolated_of_scoped (requests : List Request)
    (h : ∀ request ∈ requests, request.isScoped = true) :
    (after requests).Isolates (history requests) where
  listed owner stored := by
    rw [listFor_eq, mem_listStart, get?_after, liveFor_iff (scoped_history h)]
    simp [and_assoc]
  sorted owner := by
    rw [listFor_eq]
    exact listStart_sorted _ _
  counted company := by
    have hp : ∀ path, LiveFor (history requests) (.company company) path ↔
        path ∈ ((after requests).listStart (Path.companyStart company)).map StoredQuery.path := by
      intro path
      rw [liveFor_iff (scoped_history h), mem_map_path_listStart, mem_paths_after, Owner.start]
    simp only [hp]
    rw [encard_of_nodup (nodup_map_path_listStart _ _), List.length_map, deleteAllByCompany,
      count_deleteStart]
  deleted company path hl := by
    obtain ⟨hs, -⟩ := (liveFor_iff (scoped_history h) _ _).mp hl
    rw [deleteAllByCompany, get?_deleteStart]
    exact if_pos (startsWith_iff.mpr hs)
  kept company path hl := by
    rw [deleteAllByCompany, get?_deleteStart]
    split
    · next hs =>
      -- Nothing is stored there: a live path under the start would be the company's.
      have hn : ¬ Live (history requests) path := fun hlive =>
        hl ((liveFor_iff (scoped_history h) _ _).mpr ⟨startsWith_iff.mp hs, hlive⟩)
      exact (get?_of_notMem_paths fun hm => hn ((mem_paths_after requests).mp hm)).symm
    · rfl
  unshared owner other identifier name := Owner.path_inj.mp

/-- Names that are empty, that hold the separator, or that look like an escape or a component. -/
theorem isolated_under_hostile_names :
    let query : Query := ⟨.raw "SELECT 1", none⟩
    let requests : List Request :=
      [.createCompany "" "" query, .createCompany "_" "-5F" query,
        .createCompany "-5F" "_" query, .createCompany "acme_queries" "x" query,
        .createGlobal "queries_x" query, .createGlobal "" query,
        .replace (Path.company "_" "-5F") query, .deleteAllByCompany "", .listByCompany "-5F",
        .createCompany "" "" query, .delete (Path.global ""), .listGlobals]
    (∀ request ∈ requests, request.isScoped = true) ∧
      (after requests).Isolates (history requests) :=
  ⟨by simp [Request.isScoped], isolated_of_scoped _ (by simp [Request.isScoped])⟩

end DeclarativeSql.Store
