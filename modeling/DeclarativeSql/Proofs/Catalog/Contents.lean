import Mathlib.Data.List.Basic
import DeclarativeSql.Catalog.Store

/-!
# The contents of a store

A store is looked at through `get?`. Each step says what it changes there, and listings and
counts are read off it. What is collected has no order of its own; a listing is sorted because it
is sorted last, and strictly because no path occurs twice (`listStart_sorted`). A deletion counts
what it removes on the way, which is what would have been listed (`count_deleteStart`).
-/

namespace DeclarativeSql.Store

variable {store : Store}

theorem startsWith_iff : startsWith start path = true ↔ ∃ rest, path = start ++ rest := by
  rw [startsWith, List.isPrefixOf_iff_prefix]
  constructor
  · rintro ⟨rest, h⟩
    exact ⟨String.ofList rest, String.toList_injective (by simp [h])⟩
  · rintro ⟨rest, rfl⟩
    simp

-- ---------------------------------------------------------------------------
-- Looking up
-- ---------------------------------------------------------------------------

theorem get?_eq_some :
    store.get? path = some stored ↔
      stored.path = path ∧ store.queries[path]? = some stored.query := by
  rw [get?, Option.map_eq_some_iff]
  constructor
  · rintro ⟨query, hq, rfl⟩
    exact ⟨rfl, hq⟩
  · rintro ⟨rfl, hq⟩
    exact ⟨stored.query, hq, rfl⟩

theorem get?_eq_none : store.get? path = none ↔ store.queries[path]? = none := by
  simp [get?]

@[simp] theorem get?_empty (path : String) : empty.get? path = none := by
  simp [get?, empty]

theorem mem_paths : path ∈ store.paths ↔ ∃ stored, store.get? path = some stored := by
  rw [paths, Std.HashMap.mem_keys, Std.HashMap.mem_iff_isSome_getElem?, Option.isSome_iff_exists]
  constructor
  · rintro ⟨query, hq⟩
    exact ⟨⟨path, query⟩, get?_eq_some.mpr ⟨rfl, hq⟩⟩
  · rintro ⟨stored, h⟩
    exact ⟨stored.query, (get?_eq_some.mp h).2⟩

theorem get?_of_notMem_paths (h : path ∉ store.paths) : store.get? path = none := by
  rw [mem_paths] at h
  simpa [Option.eq_none_iff_forall_not_mem] using h

theorem nodup_paths (store : Store) : store.paths.Nodup :=
  Std.HashMap.nodup_keys

theorem length_paths (store : Store) : store.paths.length = store.size :=
  Std.HashMap.length_keys

-- ---------------------------------------------------------------------------
-- Steps
-- ---------------------------------------------------------------------------

/-- The store with a query at a path, whatever was there before. -/
def put (store : Store) (path : String) (query : Query) : Store :=
  ⟨store.queries.insert path query⟩

def without (store : Store) (path : String) : Store :=
  (store.remove path).2

theorem get?_put (store : Store) (path other : String) (query : Query) :
    (store.put path query).get? other =
      if other = path then some ⟨path, query⟩ else store.get? other := by
  by_cases h : other = path
  · simp [get?, put, h]
  · have hp : path ≠ other := fun hp => h hp.symm
    simp [get?, put, Std.HashMap.getElem?_insert, h, hp]

theorem of_get?_put (h : (store.put other query).get? path = some stored) :
    other = path ∧ query = stored.query ∨ other ≠ path ∧ store.get? path = some stored := by
  rw [get?_put] at h
  split at h
  · next hp =>
    obtain rfl := Option.some.inj h
    exact .inl ⟨hp.symm, rfl⟩
  · next hp => exact .inr ⟨fun ho => hp ho.symm, h⟩

theorem get?_without (store : Store) (path other : String) :
    (store.without path).get? other = if other = path then none else store.get? other := by
  by_cases h : other = path
  · simp [get?, without, remove, h]
  · have hp : path ≠ other := fun hp => h hp.symm
    simp [get?, without, remove, Std.HashMap.getElem?_erase, h, hp]

theorem mem_paths_put :
    path ∈ (store.put other query).paths ↔ path = other ∨ path ∈ store.paths := by
  simp only [mem_paths, get?_put]
  by_cases h : path = other <;> simp [h]

theorem mem_paths_without :
    path ∈ (store.without other).paths ↔ path ≠ other ∧ path ∈ store.paths := by
  simp only [mem_paths, get?_without]
  by_cases h : path = other <;> simp [h]

theorem create_of_mem (h : path ∈ store.paths) (query : Query) :
    store.create path query = .error (.duplicatePath path) := by
  obtain ⟨stored, hs⟩ := mem_paths.mp h
  simp [create, (get?_eq_some.mp hs).2]

theorem create_of_notMem (h : path ∉ store.paths) (query : Query) :
    store.create path query = .ok (⟨path, query⟩, store.put path query) := by
  simp [create, put, get?_eq_none.mp (get?_of_notMem_paths h)]

theorem replace_of_mem (h : path ∈ store.paths) (query : Query) :
    store.replace path query = .ok (⟨path, query⟩, store.put path query) := by
  obtain ⟨stored, hs⟩ := mem_paths.mp h
  simp [replace, put, (get?_eq_some.mp hs).2]

theorem replace_of_notMem (h : path ∉ store.paths) (query : Query) :
    store.replace path query = .error (.notFound path) := by
  simp [replace, get?_eq_none.mp (get?_of_notMem_paths h)]

theorem delete_of_get? (h : store.get? path = some stored) :
    store.delete path = .ok (stored, store.without path) := by
  obtain ⟨rfl, hq⟩ := get?_eq_some.mp h
  simp [delete, without, remove, hq]

theorem delete_of_notMem (h : path ∉ store.paths) :
    store.delete path = .error (.notFound path) := by
  simp [delete, remove, get?_eq_none.mp (get?_of_notMem_paths h)]

-- ---------------------------------------------------------------------------
-- Paths with a common start
-- ---------------------------------------------------------------------------

theorem mem_collectStart :
    stored ∈ store.collectStart start ↔
      (∃ rest, stored.path = start ++ rest) ∧ store.get? stored.path = some stored := by
  rw [← startsWith_iff, get?_eq_some, collectStart, List.mem_map]
  constructor
  · rintro ⟨⟨path, query⟩, he, rfl⟩
    rw [List.mem_filter, Std.HashMap.mem_toList_iff_getElem?_eq_some] at he
    exact ⟨he.2, rfl, he.1⟩
  · rintro ⟨hs, -, hq⟩
    refine ⟨(stored.path, stored.query), List.mem_filter.mpr ⟨?_, hs⟩, rfl⟩
    exact Std.HashMap.mem_toList_iff_getElem?_eq_some.mpr hq

/-- No path is collected twice. -/
theorem nodup_map_path_collectStart (store : Store) (start : String) :
    ((store.collectStart start).map StoredQuery.path).Nodup := by
  have hk : (store.queries.toList.map Prod.fst).Nodup := by
    rw [Std.HashMap.map_fst_toList_eq_keys]
    exact Std.HashMap.nodup_keys
  rw [collectStart, List.map_map]
  exact (List.filter_sublist.map Prod.fst).nodup hk

theorem listStart_perm (store : Store) (start : String) :
    (store.listStart start).Perm (store.collectStart start) :=
  List.mergeSort_perm _ _

theorem mem_listStart :
    stored ∈ store.listStart start ↔
      (∃ rest, stored.path = start ++ rest) ∧ store.get? stored.path = some stored := by
  rw [(listStart_perm store start).mem_iff, mem_collectStart]

theorem nodup_map_path_listStart (store : Store) (start : String) :
    ((store.listStart start).map StoredQuery.path).Nodup :=
  ((listStart_perm store start).map StoredQuery.path).nodup_iff.mpr
    (nodup_map_path_collectStart store start)

theorem listStart_sorted (store : Store) (start : String) :
    (store.listStart start).Pairwise fun first second => first.path < second.path := by
  have hle : (store.listStart start).Pairwise fun first second => first.path ≤ second.path := by
    have hs := @List.pairwise_mergeSort StoredQuery
      (fun first second => first.path ≤ second.path)
      (by simpa using fun _ _ _ => String.le_trans)
      (by simpa using fun _ _ => String.le_total _ _) (store.collectStart start)
    exact hs.imp of_decide_eq_true
  have hne := List.pairwise_map.mp (nodup_map_path_listStart store start)
  exact hle.imp₂ (fun _ _ h hn => String.not_le.mp fun h' => hn (String.le_antisymm h h')) hne

theorem mem_map_path_listStart :
    path ∈ (store.listStart start).map StoredQuery.path ↔
      (∃ rest, path = start ++ rest) ∧ path ∈ store.paths := by
  rw [List.mem_map, mem_paths]
  constructor
  · rintro ⟨stored, hs, rfl⟩
    exact (mem_listStart.mp hs).imp_right fun hg => ⟨stored, hg⟩
  · rintro ⟨hs, stored, hg⟩
    obtain ⟨rfl, -⟩ := get?_eq_some.mp hg
    exact ⟨stored, mem_listStart.mpr ⟨hs, hg⟩, rfl⟩

theorem mem_map_path_collectStart :
    path ∈ (store.collectStart start).map StoredQuery.path ↔
      (∃ rest, path = start ++ rest) ∧ path ∈ store.paths := by
  rw [← ((listStart_perm store start).map StoredQuery.path).mem_iff, mem_map_path_listStart]

theorem get?_removeAll (store : Store) (paths : List String) (path : String) :
    (store.removeAll paths).2.get? path = if path ∈ paths then none else store.get? path := by
  induction paths generalizing store with
  | nil => simp [removeAll]
  | cons first rest ih =>
    have hr : (store.removeAll (first :: rest)).2 = ((store.without first).removeAll rest).2 := rfl
    rw [hr, ih, get?_without]
    by_cases hf : path = first <;> by_cases hm : path ∈ rest <;> simp [hf, hm]

theorem fst_removeAll_cons (h : path ∈ store.paths) (rest : List String) :
    (store.removeAll (path :: rest)).1 = ((store.without path).removeAll rest).1 + 1 := by
  obtain ⟨stored, hs⟩ := mem_paths.mp h
  have hr : (store.remove path).1.isSome = true := by
    rw [remove, (get?_eq_some.mp hs).2]
    rfl
  exact if_pos hr

/-- Different paths that are all taken are all counted: removing one leaves the others. -/
theorem count_removeAll (store : Store) {paths : List String} (hn : paths.Nodup)
    (hm : ∀ path ∈ paths, path ∈ store.paths) : (store.removeAll paths).1 = paths.length := by
  induction paths generalizing store with
  | nil => rfl
  | cons first rest ih =>
    rw [List.nodup_cons] at hn
    rw [List.forall_mem_cons] at hm
    have hrest : ∀ path ∈ rest, path ∈ (store.without first).paths := by
      intro path hp
      refine mem_paths_without.mpr ⟨?_, hm.2 path hp⟩
      rintro rfl
      exact hn.1 hp
    rw [fst_removeAll_cons hm.1, ih _ hn.2 hrest, List.length_cons]

theorem get?_deleteStart (store : Store) (start path : String) :
    (store.deleteStart start).2.get? path =
      if startsWith start path then none else store.get? path := by
  rw [deleteStart, get?_removeAll]
  by_cases hs : startsWith start path = true
  · rw [if_pos hs]
    split
    · rfl
    · next hm =>
      refine get?_of_notMem_paths fun hp => hm ?_
      exact mem_map_path_collectStart.mpr ⟨startsWith_iff.mp hs, hp⟩
  · rw [if_neg hs, if_neg]
    exact fun hm => hs (startsWith_iff.mpr (mem_map_path_collectStart.mp hm).1)

theorem mem_paths_deleteStart :
    path ∈ (store.deleteStart start).2.paths ↔
      (∀ rest, path ≠ start ++ rest) ∧ path ∈ store.paths := by
  simp only [mem_paths, get?_deleteStart]
  by_cases h : startsWith start path = true
  · obtain ⟨rest, rfl⟩ := startsWith_iff.mp h
    simp [h]
  · have hn : ∀ rest, path ≠ start ++ rest := fun rest hr => h (startsWith_iff.mpr ⟨rest, hr⟩)
    simp [h, hn]

/-- As many paths are deleted as would have been listed. -/
theorem count_deleteStart (store : Store) (start : String) :
    (store.deleteStart start).1 = (store.listStart start).length := by
  rw [deleteStart, count_removeAll store (nodup_map_path_collectStart store start),
    List.length_map, (listStart_perm store start).length_eq]
  exact fun path hp => (mem_map_path_collectStart.mp hp).2

end DeclarativeSql.Store
