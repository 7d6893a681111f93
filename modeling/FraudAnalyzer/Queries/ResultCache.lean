import FraudAnalyzer.Clock
import FraudAnalyzer.Lib.BudgetCache

/-!
# The last result of each query

`app/features/queries/result_cache.py`. Every function holds the lock throughout, so each is one
step of a concurrent run. The payload is a parameter; its length in JSON is given by the caller and
is `none` when it cannot be encoded.
-/

namespace FraudAnalyzer.Queries

structure CacheEntry (P : Type) where
  dataHash : String
  payload : P
  stored : Clock
  ttlMs : Int
  sizeBytes : Nat

namespace CacheEntry

variable {P : Type}

def ageMs (entry : CacheEntry P) (now : Clock) : Int := entry.stored.elapsedMs now

def isFresh (entry : CacheEntry P) (now : Clock) : Bool := entry.ageMs now < entry.ttlMs

end CacheEntry

/-- `_entries` and `_total_bytes` -/
abbrev ResultCache (P : Type) := BudgetCache String (CacheEntry P)

/-- `cache_max_bytes` and `cache_stale_grace_ms` -/
structure ResultCacheSettings where
  maxBytes : Int
  staleGraceMs : Int

/-- `MAX_ENTRIES` -/
def maxEntries : Nat := 256

namespace ResultCache

variable {P : Type}

/-- `get`: an entry past its time is left in place for `get_stale`. -/
def getFresh (c : ResultCache P) (queryId : String) (now : Clock) :
    Option (CacheEntry P) × ResultCache P :=
  match c.get queryId with
  | none => (none, c)
  | some entry => if entry.isFresh now then (some entry, c.touch queryId) else (none, c)

def getStale (settings : ResultCacheSettings) (c : ResultCache P) (queryId : String)
    (now : Clock) : Option (CacheEntry P) × ResultCache P :=
  match c.get queryId with
  | none => (none, c)
  | some entry =>
    if entry.ttlMs + settings.staleGraceMs < entry.ageMs now then
      (none, c.drop CacheEntry.sizeBytes queryId)
    else (some entry, c.touch queryId)

/-- `set`; it raises before the lock when the payload cannot be encoded. -/
def set (settings : ResultCacheSettings) (size : P → Option Nat) (c : ResultCache P)
    (queryId dataHash : String) (payload : P) (ttlMs : Int) (now : Clock) :
    Option (ResultCache P) :=
  (size payload).map fun sizeBytes =>
    c.put CacheEntry.sizeBytes settings.maxBytes maxEntries queryId
      ⟨dataHash, payload, now, ttlMs, sizeBytes⟩

/-- `invalidate`, as far as this cache goes. -/
def invalidate (c : ResultCache P) (queryId : String) : ResultCache P :=
  c.drop CacheEntry.sizeBytes queryId

/-- `patch_charts`, as far as this cache goes. `redraw` builds the charts for the payload's columns
and puts them in; it is `none` when that raises. The entry keeps its place, its hash and its age. -/
def patchCharts (size : P → Option Nat) (c : ResultCache P) (queryId : String)
    (redraw : P → Option P) : ResultCache P :=
  match c.get queryId with
  | none => c
  | some entry =>
    match (redraw entry.payload).bind fun payload => (size payload).map fun n => (payload, n) with
    | none => c.drop CacheEntry.sizeBytes queryId
    | some (payload, n) =>
      ⟨c.entries.replace queryId { entry with payload := payload, sizeBytes := n },
        c.totalBytes + n - entry.sizeBytes⟩

section Lemmas

variable {settings : ResultCacheSettings} {size : P → Option Nat} {c c' : ResultCache P}
  {queryId id : String} {entry : CacheEntry P} {now : Clock}

/-- A lookup that finds something has used it. -/
theorem getFresh_some (h : c.getFresh queryId now = (some entry, c')) :
    c.get queryId = some entry ∧ c' = c.touch queryId := by
  unfold getFresh at h
  split at h
  · cases h
  next e he =>
    split at h
    · obtain ⟨hentry, rfl⟩ := Prod.mk.inj h
      obtain rfl := Option.some.inj hentry
      exact ⟨he, rfl⟩
    · cases h

/-- A lookup returns what is held and holds nothing new. -/
theorem getFresh_spec (h : c.getFresh queryId now = (some entry, c')) :
    c.get queryId = some entry ∧ ∀ id, c'.get id = c.get id := by
  obtain ⟨hget, rfl⟩ := getFresh_some h
  exact ⟨hget, fun id => BudgetCache.get_touch _ _ _⟩

theorem getFresh_none (h : c.getFresh queryId now = (none, c')) : c' = c := by
  unfold getFresh at h
  split at h
  · exact (Prod.mk.inj h).2.symm
  · split at h
    · cases h
    · exact (Prod.mk.inj h).2.symm

/-- A lookup holds and loses nothing. -/
theorem get_getFresh (c : ResultCache P) (queryId : String) (now : Clock) (id : String) :
    (c.getFresh queryId now).2.get id = c.get id := by
  unfold getFresh
  split
  · rfl
  · split
    · exact BudgetCache.get_touch _ _ _
    · rfl

/-- What a lookup finds depends on what is held under its key. -/
theorem getFresh_congr (h : c.get queryId = c'.get queryId) :
    (c.getFresh queryId now).1 = (c'.getFresh queryId now).1 := by
  unfold getFresh
  rw [h]
  split
  · rfl
  · split
    · rfl
    · rfl

theorem getStale_some (h : c.getStale settings queryId now = (some entry, c')) :
    c.get queryId = some entry ∧ c' = c.touch queryId := by
  unfold getStale at h
  split at h
  · cases h
  next e he =>
    split at h
    · cases h
    · obtain ⟨hentry, rfl⟩ := Prod.mk.inj h
      obtain rfl := Option.some.inj hentry
      exact ⟨he, rfl⟩

theorem getStale_spec (h : c.getStale settings queryId now = (some entry, c')) :
    c.get queryId = some entry ∧ ∀ id, c'.get id = c.get id := by
  obtain ⟨hget, rfl⟩ := getStale_some h
  exact ⟨hget, fun id => BudgetCache.get_touch _ _ _⟩

/-- A lookup that finds nothing may drop an entry that is too old. -/
theorem getStale_none_eq (h : c.getStale settings queryId now = (none, c')) :
    c' = c ∨ c' = c.drop CacheEntry.sizeBytes queryId := by
  unfold getStale at h
  split at h
  · exact .inl (Prod.mk.inj h).2.symm
  · split at h
    · exact .inr (Prod.mk.inj h).2.symm
    · cases h

theorem getStale_none (h : c.getStale settings queryId now = (none, c')) (id : String)
    (hget : c'.get id = some entry) : c.get id = some entry := by
  rcases getStale_none_eq h with rfl | rfl
  · exact hget
  · rw [BudgetCache.get_drop] at hget
    split at hget
    · cases hget
    · exact hget

/-- A payload that can be encoded is put. -/
theorem set_eq {dataHash : String} {payload : P} {ttlMs : Int} {n : Nat}
    (h : size payload = some n) :
    c.set settings size queryId dataHash payload ttlMs now =
      some (c.put CacheEntry.sizeBytes settings.maxBytes maxEntries queryId
        ⟨dataHash, payload, now, ttlMs, n⟩) := by
  unfold set
  rw [h]
  rfl

theorem get_of_set {dataHash : String} {payload : P} {ttlMs : Int}
    (h : c.set settings size queryId dataHash payload ttlMs now = some c')
    (hget : c'.get id = some entry) :
    (id = queryId ∧ entry.payload = payload) ∨ (id ≠ queryId ∧ c.get id = some entry) := by
  obtain ⟨n, -, rfl⟩ := Option.map_eq_some_iff.mp h
  rcases BudgetCache.get_of_put hget with ⟨hid, rfl⟩ | hold
  · exact .inl ⟨hid, rfl⟩
  · exact .inr hold

/-- A new entry has the time and the interval it was stored with. -/
theorem entry_of_set {dataHash : String} {payload : P} {ttlMs : Int}
    (h : c.set settings size queryId dataHash payload ttlMs now = some c')
    (hget : c'.get id = some entry) :
    (id = queryId ∧ entry.stored = now ∧ entry.ttlMs = ttlMs) ∨
      (id ≠ queryId ∧ c.get id = some entry) := by
  obtain ⟨n, -, rfl⟩ := Option.map_eq_some_iff.mp h
  rcases BudgetCache.get_of_put hget with ⟨hid, rfl⟩ | hold
  · exact .inl ⟨hid, rfl, rfl⟩
  · exact .inr hold

theorem get_invalidate (c : ResultCache P) (queryId id : String) :
    (c.invalidate queryId).get id = if id = queryId then none else c.get id :=
  BudgetCache.get_drop _ _ _ _

theorem get_of_patchCharts {redraw : P → Option P}
    (h : (c.patchCharts size queryId redraw).get id = some entry) :
    (id = queryId ∧ ∃ old, c.get id = some old ∧ redraw old.payload = some entry.payload) ∨
      (id ≠ queryId ∧ c.get id = some entry) := by
  unfold patchCharts at h
  split at h
  next hnone =>
    refine .inr ⟨?_, h⟩
    rintro rfl
    rw [hnone] at h
    cases h
  next old hold =>
    split at h
    · rw [BudgetCache.get_drop] at h
      split at h
      · cases h
      next hid => exact .inr ⟨hid, h⟩
    next payload n hredraw =>
      unfold BudgetCache.get at h
      rw [OrderedDict.get_replace] at h
      split at h
      next hid =>
        obtain ⟨-, -, rfl⟩ := Option.map_eq_some_iff.mp h
        obtain ⟨p, hp, hsize⟩ := Option.bind_eq_some_iff.mp hredraw
        obtain ⟨m, -, heq⟩ := Option.map_eq_some_iff.mp hsize
        obtain ⟨rfl, -⟩ := Prod.mk.inj heq
        exact .inl ⟨hid, old, hid ▸ hold, hp⟩
      next hid => exact .inr ⟨hid, h⟩

end Lemmas

end ResultCache

end FraudAnalyzer.Queries
