import Mathlib.Data.Set.Card
import DeclarativeSql.Proofs.Catalog.Contents

/-!
# Runs of a store

A run is a list of requests to a store that is empty at first, and its history pairs each
request with the reply. A path is live when some request created it and no later one removed
it; this is said of the history alone. `after_reflects_history`: after every run, and so after
every part of a run, the store holds the live paths with what was written there last.

`Step` says once what a request can do to a store. What one step does to the live paths and to
the last writes is read off it, and the rest is induction along the run.
-/

namespace DeclarativeSql.Store

-- ---------------------------------------------------------------------------
-- Requests
-- ---------------------------------------------------------------------------

inductive Request
  | create (path : String) (query : Query)
  | createGlobal (identifier : String) (query : Query)
  | createCompany (company identifier : String) (query : Query)
  | replace (path : String) (query : Query)
  | delete (path : String)
  | deleteStart (start : String)
  | deleteAllByCompany (company : String)
  | listStart (start : String)
  | listGlobals
  | listByCompany (company : String)

inductive Reply
  | stored (query : StoredQuery)
  | refused (error : StoreError)
  | removed (count : Nat)
  | listed (queries : List StoredQuery)

/-- What a store replies to a change, and the store behind it. -/
def settle (store : Store) : Change → Reply × Store
  | .ok (query, next) => (.stored query, next)
  | .error error => (.refused error, store)

def serve (store : Store) : Request → Reply × Store
  | .create path query => store.settle (store.create path query)
  | .createGlobal identifier query => store.settle (store.createGlobal identifier query)
  | .createCompany company identifier query =>
    store.settle (store.createCompany company identifier query)
  | .replace path query => store.settle (store.replace path query)
  | .delete path => store.settle (store.delete path)
  | .deleteStart start => (.removed (store.deleteStart start).1, (store.deleteStart start).2)
  | .deleteAllByCompany company =>
    (.removed (store.deleteAllByCompany company).1, (store.deleteAllByCompany company).2)
  | .listStart start => (.listed (store.listStart start), store)
  | .listGlobals => (.listed store.listGlobals, store)
  | .listByCompany company => (.listed (store.listByCompany company), store)

/-- A composition that is kept for all companies carries the stamp of a template. -/
def globalCopy (identifier : String) (query : Query) : Query :=
  match query.source with
  | .raw _ => query
  | .composition composition =>
    let stamp : CompositionMetadata := ⟨"query", composition.queryKind, identifier, 0⟩
    ⟨.composition { composition with metadata := some stamp }, query.description⟩

theorem stampGlobal_eq (identifier : String) (query : Query) :
    stampGlobal identifier query = globalCopy identifier query := by
  cases query with
  | mk source description => cases source <;> rfl

/-- What a request comes to. -/
inductive Action
  | create (path : String) (query : Query)
  | replace (path : String) (query : Query)
  | delete (path : String)
  | clear (start : String)
  | list (start : String)

def Request.action : Request → Action
  | .create path query => .create path query
  | .createGlobal identifier query =>
    .create (Path.global identifier) (globalCopy identifier query)
  | .createCompany company identifier query => .create (Path.company company identifier) query
  | .replace path query => .replace path query
  | .delete path => .delete path
  | .deleteStart start => .clear start
  | .deleteAllByCompany company => .clear (Path.companyStart company)
  | .listStart start => .list start
  | .listGlobals => .list Path.globalStart
  | .listByCompany company => .list (Path.companyStart company)

/-- What a request is refused for when these are the paths in use. -/
inductive Refusal (InUse : String → Prop) : Action → StoreError → Prop
  | taken : InUse path → Refusal InUse (.create path query) (.duplicatePath path)
  | noneToReplace : ¬ InUse path → Refusal InUse (.replace path query) (.notFound path)
  | noneToDelete : ¬ InUse path → Refusal InUse (.delete path) (.notFound path)

-- ---------------------------------------------------------------------------
-- Histories
-- ---------------------------------------------------------------------------

structure Event where
  request : Request
  reply : Reply

namespace Event

def Succeeded (event : Event) : Prop :=
  ∀ error, event.reply ≠ .refused error

def Creates (event : Event) (path : String) (query : Query) : Prop :=
  event.Succeeded ∧ event.request.action = .create path query

def Writes (event : Event) (path : String) (query : Query) : Prop :=
  event.Creates path query ∨ event.Succeeded ∧ event.request.action = .replace path query

theorem Writes.unique {event : Event} (h : event.Writes path query)
    (ho : event.Writes path other) : query = other := by
  rcases h with ⟨-, h⟩ | ⟨-, h⟩ <;> rcases ho with ⟨-, ho⟩ | ⟨-, ho⟩ <;>
    simp_all

def Removes (event : Event) (path : String) : Prop :=
  event.Succeeded ∧
    (event.request.action = .delete path ∨
      ∃ start rest, event.request.action = .clear start ∧ path = start ++ rest)

end Event

/-- Some event begins it and every later one keeps it. -/
def Since (Begins Keeps : Event → Prop) (events : List Event) : Prop :=
  ∃ earlier event later, events = earlier ++ event :: later ∧ Begins event ∧
    ∀ other ∈ later, Keeps other

/-- A create succeeded on the path and nothing removed it since. -/
def Live (events : List Event) (path : String) : Prop :=
  Since (fun event => ∃ query, event.Creates path query) (fun later => ¬ later.Removes path) events

def LastWrite (events : List Event) (path : String) (query : Query) : Prop :=
  Since (·.Writes path query) (fun later => ∀ other, ¬ later.Writes path other) events

def event (store : Store) (request : Request) : Event :=
  ⟨request, (store.serve request).1⟩

def historyFrom (store : Store) : List Request → List Event
  | [] => []
  | request :: rest => store.event request :: historyFrom (store.serve request).2 rest

def history (requests : List Request) : List Event :=
  historyFrom .empty requests

/-- The store behind a run. -/
def after (requests : List Request) : Store :=
  requests.foldl (fun store request => (store.serve request).2) .empty

theorem after_append (requests : List Request) (request : Request) :
    after (requests ++ [request]) = ((after requests).serve request).2 := by
  simp [after]

theorem historyFrom_append (store : Store) (requests : List Request) (request : Request) :
    historyFrom store (requests ++ [request]) =
      historyFrom store requests ++
        [(requests.foldl (fun store request => (store.serve request).2) store).event request] := by
  induction requests generalizing store with
  | nil => rfl
  | cons first rest ih => simp [historyFrom, ih]

theorem history_append (requests : List Request) (request : Request) :
    history (requests ++ [request]) = history requests ++ [(after requests).event request] :=
  historyFrom_append .empty requests request

theorem map_request_history (requests : List Request) :
    (history requests).map Event.request = requests := by
  suffices h : ∀ store, (historyFrom store requests).map Event.request = requests from h .empty
  induction requests with
  | nil => exact fun _ => rfl
  | cons request rest ih => exact fun store => by simp [historyFrom, event, ih]

theorem Since.imp (h : Since Begins Keeps events)
    (hb : ∀ event ∈ events, Begins event → Begins' event)
    (hk : ∀ event ∈ events, Keeps event → Keeps' event) : Since Begins' Keeps' events := by
  obtain ⟨earlier, event, later, rfl, hbegins, hkeeps⟩ := h
  refine ⟨earlier, event, later, rfl, hb event (by simp) hbegins, ?_⟩
  intro other ho
  exact hk other (by simp [ho]) (hkeeps other ho)

theorem not_since_nil : ¬ Since Begins Keeps [] := by
  rintro ⟨earlier, event, later, h, -⟩
  simp at h

theorem since_append {last : Event} :
    Since Begins Keeps (events ++ [last]) ↔
      Begins last ∨ Keeps last ∧ Since Begins Keeps events := by
  constructor
  · rintro ⟨earlier, event, later, he, hb, hk⟩
    -- What begins it is the last event when nothing is later, and stands before it otherwise.
    rcases List.eq_nil_or_concat later with rfl | ⟨later, final, rfl⟩
    · obtain ⟨-, hl⟩ := List.append_inj' he rfl
      obtain rfl : last = event := by simpa using hl
      exact .inl hb
    · have he' : events ++ [last] = (earlier ++ event :: later) ++ [final] := by simpa using he
      obtain ⟨rfl, hl⟩ := List.append_inj' he' rfl
      obtain rfl : last = final := by simpa using hl
      exact .inr ⟨hk _ (by simp), earlier, event, later, rfl, hb, fun other ho =>
        hk other (by simp [ho])⟩
  · rintro (hb | ⟨hk, earlier, event, later, rfl, hb, hks⟩)
    · exact ⟨events, last, [], rfl, hb, by simp⟩
    · refine ⟨earlier, event, later ++ [last], by simp, hb, ?_⟩
      intro other ho
      rcases List.mem_append.mp ho with ho | ho
      · exact hks other ho
      · rwa [List.mem_singleton.mp ho]

-- ---------------------------------------------------------------------------
-- One step
-- ---------------------------------------------------------------------------

/-- Everything an action can lead to. -/
inductive Step (store : Store) : Action → Reply → Store → Prop
  | created : path ∉ store.paths →
      Step store (.create path query) (.stored ⟨path, query⟩) (store.put path query)
  | taken : path ∈ store.paths →
      Step store (.create path query) (.refused (.duplicatePath path)) store
  | replaced : path ∈ store.paths →
      Step store (.replace path query) (.stored ⟨path, query⟩) (store.put path query)
  | noneToReplace : path ∉ store.paths →
      Step store (.replace path query) (.refused (.notFound path)) store
  | deleted : store.get? path = some stored →
      Step store (.delete path) (.stored stored) (store.without path)
  | noneToDelete : path ∉ store.paths →
      Step store (.delete path) (.refused (.notFound path)) store
  | cleared :
      Step store (.clear start) (.removed (store.listStart start).length)
        (store.deleteStart start).2
  | listed : Step store (.list start) (.listed (store.listStart start)) store

theorem step_create (store : Store) (path : String) (query : Query) :
    store.Step (.create path query) (store.settle (store.create path query)).1
      (store.settle (store.create path query)).2 := by
  by_cases hp : path ∈ store.paths
  · rw [create_of_mem hp]
    exact .taken hp
  · rw [create_of_notMem hp]
    exact .created hp

theorem step_clear (store : Store) (start : String) :
    store.Step (.clear start) (.removed (store.deleteStart start).1)
      (store.deleteStart start).2 := by
  rw [count_deleteStart]
  exact .cleared

theorem step_serve (store : Store) (request : Request) :
    store.Step request.action (store.serve request).1 (store.serve request).2 := by
  cases request with
  | create path query => exact step_create store path query
  | createGlobal identifier query =>
    rw [Request.action, ← stampGlobal_eq]
    exact step_create store (Path.global identifier) (stampGlobal identifier query)
  | createCompany company identifier query =>
    exact step_create store (Path.company company identifier) query
  | replace path query =>
    by_cases hp : path ∈ store.paths
    · rw [serve, replace_of_mem hp]
      exact .replaced hp
    · rw [serve, replace_of_notMem hp]
      exact .noneToReplace hp
  | delete path =>
    by_cases hp : path ∈ store.paths
    · obtain ⟨stored, hs⟩ := mem_paths.mp hp
      rw [serve, delete_of_get? hs]
      exact .deleted hs
    · rw [serve, delete_of_notMem hp]
      exact .noneToDelete hp
  | deleteStart start => exact step_clear store start
  | deleteAllByCompany company => exact step_clear store (Path.companyStart company)
  | listStart start => exact .listed
  | listGlobals => exact .listed
  | listByCompany company => exact .listed

namespace Step

variable {store next : Store}

theorem refused_iff (h : store.Step action reply next) :
    reply = .refused error ↔ Refusal (· ∈ store.paths) action error := by
  constructor
  · rintro rfl
    cases h with
    | taken hp => exact .taken hp
    | noneToReplace hp => exact .noneToReplace hp
    | noneToDelete hp => exact .noneToDelete hp
  · intro hr
    cases hr with
    | taken hp =>
      cases h with
      | created hn => exact absurd hp hn
      | taken => rfl
    | noneToReplace hn =>
      cases h with
      | replaced hp => exact absurd hp hn
      | noneToReplace => rfl
    | noneToDelete hn =>
      cases h with
      | deleted hs => exact absurd (mem_paths.mpr ⟨_, hs⟩) hn
      | noneToDelete => rfl

theorem unchanged (h : store.Step action (.refused error) next) : next = store := by
  cases h <;> rfl

theorem of_clear (h : store.Step (.clear start) reply next) :
    reply = .removed (store.listStart start).length ∧ next = (store.deleteStart start).2 := by
  cases h
  exact ⟨rfl, rfl⟩

theorem mem_paths_iff (h : store.Step request.action reply next) :
    path ∈ next.paths ↔
      (∃ query, (Event.mk request reply).Creates path query) ∨
        ¬ (Event.mk request reply).Removes path ∧ path ∈ store.paths := by
  simp only [Event.Creates, Event.Removes, Event.Succeeded]
  generalize request.action = action at h
  cases h with
  | created hn => simp [mem_paths_put, eq_comm]
  | taken hp => simp
  | replaced hp => simpa [mem_paths_put] using fun h => h ▸ hp
  | noneToReplace hn => simp
  | deleted hs => simp [mem_paths_without, eq_comm]
  | noneToDelete hn => simp
  | cleared => simp [mem_paths_deleteStart]
  | listed => simp

/-- What is found behind a step was written by it, or was there and was not written over. -/
theorem writes_of_get? (h : store.Step request.action reply next)
    (hg : next.get? path = some stored) :
    (Event.mk request reply).Writes path stored.query ∨
      (∀ query, ¬ (Event.mk request reply).Writes path query) ∧
        store.get? path = some stored := by
  simp only [Event.Writes, Event.Creates, Event.Succeeded]
  generalize request.action = action at h
  cases h with
  | created hn => simpa using of_get?_put hg
  | taken hp => simp [hg]
  | replaced hp => simpa using of_get?_put hg
  | noneToReplace hn => simp [hg]
  | deleted hs =>
    rw [get?_without] at hg
    split at hg
    · cases hg
    · simp [hg]
  | noneToDelete hn => simp [hg]
  | cleared =>
    rw [get?_deleteStart] at hg
    split at hg
    · cases hg
    · simp [hg]
  | listed => simp [hg]

end Step

-- ---------------------------------------------------------------------------
-- Whole runs
-- ---------------------------------------------------------------------------

theorem mem_paths_after (requests : List Request) :
    path ∈ (after requests).paths ↔ Live (history requests) path := by
  induction requests using List.reverseRecOn with
  | nil => simp [mem_paths, after, Live, history, historyFrom, not_since_nil]
  | append_singleton requests request ih =>
    rw [after_append, history_append, Live, since_append, ← Live, ← ih]
    exact (step_serve (after requests) request).mem_paths_iff

theorem lastWrite_of_get?_after (requests : List Request)
    (h : (after requests).get? path = some stored) :
    LastWrite (history requests) path stored.query := by
  induction requests using List.reverseRecOn with
  | nil => simp [after] at h
  | append_singleton requests request ih =>
    rw [after_append] at h
    rw [history_append, LastWrite, since_append, ← LastWrite]
    exact ((step_serve (after requests) request).writes_of_get? h).imp_right fun ⟨hn, hg⟩ =>
      ⟨hn, ih hg⟩

theorem LastWrite.unique (h : LastWrite events path query) (ho : LastWrite events path other) :
    query = other := by
  induction events using List.reverseRecOn with
  | nil => exact absurd h not_since_nil
  | append_singleton events last ih =>
    rw [LastWrite, since_append, ← LastWrite] at h ho
    rcases h with hw | ⟨hn, h⟩ <;> rcases ho with hw' | ⟨hn', ho⟩
    · exact hw.unique hw'
    · exact absurd hw (hn' _)
    · exact absurd hw' (hn _)
    · exact ih h ho

theorem get?_after (requests : List Request) :
    (after requests).get? path = some stored ↔
      stored.path = path ∧ Live (history requests) path ∧
        LastWrite (history requests) path stored.query := by
  constructor
  · intro h
    exact ⟨(get?_eq_some.mp h).1, (mem_paths_after requests).mp (mem_paths.mpr ⟨stored, h⟩),
      lastWrite_of_get?_after requests h⟩
  · rintro ⟨rfl, hl, hw⟩
    obtain ⟨found, hf⟩ := mem_paths.mp ((mem_paths_after requests).mpr hl)
    have hp : found.path = stored.path := (get?_eq_some.mp hf).1
    have hq : found.query = stored.query := (lastWrite_of_get?_after requests hf).unique hw
    obtain rfl : found = stored := by
      cases found
      cases stored
      simp_all
    exact hf

/-- The store is what its history says it is. -/
structure Reflects (store : Store) (events : List Event) : Prop where
  get (path : String) (stored : StoredQuery) : store.get? path = some stored ↔
    stored.path = path ∧ Live events path ∧ LastWrite events path stored.query
  found (path : String) : (∃ stored, store.get? path = some stored) ↔ Live events path
  refused (request : Request) (error : StoreError) :
    (store.serve request).1 = .refused error ↔ Refusal (Live events) request.action error
  unchanged (request : Request) (error : StoreError) :
    (store.serve request).1 = .refused error → (store.serve request).2 = store
  listed (start : String) (stored : StoredQuery) : stored ∈ store.listStart start ↔
    (∃ rest, stored.path = start ++ rest) ∧ Live events stored.path ∧
      LastWrite events stored.path stored.query
  sorted (start : String) :
    (store.listStart start).Pairwise fun first second => first.path < second.path
  cleared (request : Request) (start : String) : request.action = .clear start →
    (store.serve request).1 = .removed (store.listStart start).length ∧
      ∀ path, (∀ rest, path ≠ start ++ rest) →
        (store.serve request).2.get? path = store.get? path
  size : (store.size : ℕ∞) = Set.encard {path | Live events path}

theorem encard_of_nodup {paths : List String} (h : paths.Nodup) :
    Set.encard {path | path ∈ paths} = paths.length := by
  rw [← List.toFinset_card_of_nodup h, ← Set.encard_coe_eq_coe_finsetCard, List.coe_toFinset]

theorem encard_live (requests : List Request) :
    Set.encard {path | Live (history requests) path} = (after requests).size := by
  simp only [← mem_paths_after]
  rw [encard_of_nodup (nodup_paths _), length_paths]

theorem after_reflects_history (requests : List Request) :
    (after requests).Reflects (history requests) where
  get path stored := get?_after requests
  found path := mem_paths.symm.trans (mem_paths_after requests)
  refused request error := by
    rw [(step_serve (after requests) request).refused_iff]
    simp only [mem_paths_after]
  unchanged request error h := by
    have hs := step_serve (after requests) request
    rw [h] at hs
    exact hs.unchanged
  listed start stored := by
    rw [mem_listStart, get?_after]
    simp
  sorted start := listStart_sorted _ start
  cleared request start h := by
    have hs := step_serve (after requests) request
    rw [h] at hs
    refine ⟨hs.of_clear.1, ?_⟩
    intro path hp
    rw [hs.of_clear.2, get?_deleteStart, if_neg]
    intro hst
    obtain ⟨rest, hr⟩ := startsWith_iff.mp hst
    exact hp rest hr
  size := (encard_live requests).symm

end DeclarativeSql.Store
