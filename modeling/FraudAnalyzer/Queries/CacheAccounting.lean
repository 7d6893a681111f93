import FraudAnalyzer.FlagRules.Dismissals
import FraudAnalyzer.Lib.Run
import FraudAnalyzer.Queries.ResultCache

/-!
# What the result cache counts

Any sequence of calls of the result cache. The running total is the bytes of what is held, and what
goes is what was used least recently (`keepsBooks_of_run`). The total stays within the budget as
long as the charts that `patch_charts` puts into an entry leave it there: a growing entry evicts
nothing (`withinBudget_iff`, `patch_over_budget`).
-/

namespace FraudAnalyzer.Queries.Accounting

open Machine

/-- A call, with the clocks and the settings as they are at it. `build` is `none` when it raises. -/
inductive CacheCall where
  | get (queryId : String) (now : Clock)
  | getStale (settings : ResultCacheSettings) (queryId : String) (now : Clock)
  | set (settings : ResultCacheSettings) (queryId dataHash : String) (payload : Body) (ttlMs : Int)
    (now : Clock)
  | invalidate (queryId : String)
  | patchCharts (queryId : String) (build : List String → Option (List ChartSpec))
  | clear

/-- `lastUse` is the number of the call that used an entry last, for the statements only. -/
structure CacheState where
  cache : ResultCache Body
  calls : Nat
  lastUse : String → Nat

namespace CacheState

def start : CacheState := ⟨.empty, 0, fun _ => 0⟩

/-- A call that uses the entry of a query. -/
def use (s : CacheState) (cache : ResultCache Body) (queryId : String) : CacheState :=
  ⟨cache, s.calls + 1, Function.update s.lastUse queryId s.calls⟩

end CacheState

/-- A body with the charts of `build`. -/
def redrawWith (build : List String → Option (List ChartSpec)) (body : Body) : Option Body :=
  (build body.result.columns).map fun charts => { body with charts := charts }

/-- `size` is `len(orjson.dumps(payload))`. -/
def step (size : Body → Option Nat) (s : CacheState) : CacheCall → Option CacheState
  | .get queryId now =>
    match s.cache.getFresh queryId now with
    | (some _, cache) => some (s.use cache queryId)
    | (none, cache) => some { s with cache := cache }
  | .getStale settings queryId now =>
    match s.cache.getStale settings queryId now with
    | (some _, cache) => some (s.use cache queryId)
    | (none, cache) => some { s with cache := cache }
  | .set settings queryId dataHash payload ttlMs now =>
    match s.cache.set settings size queryId dataHash payload ttlMs now with
    | none => some s
    | some cache => some (s.use cache queryId)
  | .invalidate queryId => some { s with cache := s.cache.invalidate queryId }
  | .patchCharts queryId build =>
    some { s with cache := s.cache.patchCharts size queryId (redrawWith build) }
  | .clear => some { s with cache := .empty }

/-! ## The books -/

/-- The entries of the other queries, in their order. -/
def others (cache : ResultCache Body) (queryId : String) : List (String × CacheEntry Body) :=
  cache.entries.entries.filter fun e => e.1 ≠ queryId

/-- What the cache says of itself is so; the entry at the front is the one used least recently. -/
structure Sound (size : Body → Option Nat) (s : CacheState) : Prop where
  total : s.cache.totalBytes = ((s.cache.entries.entries.map fun e => e.2.sizeBytes).sum : Nat)
  sizes : ∀ e ∈ s.cache.entries.entries, size e.2.payload = some e.2.sizeBytes
  count : s.cache.entries.size ≤ maxEntries
  recency : s.cache.entries.entries.Pairwise fun a b => s.lastUse a.1 < s.lastUse b.1
  used : ∀ e ∈ s.cache.entries.entries, s.lastUse e.1 < s.calls

/-- The new entry is held at the end; from the front of the others, as many are evicted as it takes
for both bounds. -/
def EvictsAsNeeded (maxBytes : Int) (before after : ResultCache Body) (queryId : String)
    (entry : CacheEntry Body) : Prop :=
  ∃ n, after.entries.entries = (others before queryId).drop n ++ [(queryId, entry)] ∧
    ∀ m < n, ¬ BudgetCache.Fits CacheEntry.sizeBytes maxBytes maxEntries
      ((others before queryId).drop m ++ [(queryId, entry)])

/-- What the next call does. -/
structure KeepsBooks (size : Body → Option Nat) (s : CacheState) : Prop where
  sound : Sound size s
  set_fits : ∀ settings queryId dataHash payload ttlMs now n, size payload = some n →
    (n : Int) ≤ settings.maxBytes →
      ∃ cache, s.cache.set settings size queryId dataHash payload ttlMs now = some cache ∧
        cache.get queryId = some ⟨dataHash, payload, now, ttlMs, n⟩ ∧
          EvictsAsNeeded settings.maxBytes s.cache cache queryId ⟨dataHash, payload, now, ttlMs, n⟩
  set_over : ∀ settings queryId dataHash payload ttlMs now n, size payload = some n →
    settings.maxBytes < (n : Int) →
      ∃ cache, s.cache.set settings size queryId dataHash payload ttlMs now = some cache ∧
        cache.entries.entries = others s.cache queryId
  patch : ∀ queryId build id,
    (s.cache.patchCharts size queryId (redrawWith build)).get id =
      if id = queryId then
        (s.cache.get queryId).bind fun entry =>
          (build entry.payload.result.columns).bind fun charts =>
            (size { entry.payload with charts := charts }).map fun n =>
              { entry with payload := { entry.payload with charts := charts }, sizeBytes := n }
      else s.cache.get id

/-! ## Each call keeps them -/

section Sound

variable {size : Body → Option Nat} {s t : CacheState} {cache : ResultCache Body} {id : String}
  {entry : CacheEntry Body}

theorem sound_start : Sound size .start where
  total := rfl
  sizes _ h := absurd h List.not_mem_nil
  count := Nat.zero_le _
  recency := List.Pairwise.nil
  used _ h := absurd h List.not_mem_nil

/-- Entries may go, as long as the total is right. -/
theorem Sound.shrink (h : Sound size s) (hacc : cache.Accounted CacheEntry.sizeBytes)
    (hsub : cache.entries.entries.Sublist s.cache.entries.entries) :
    Sound size { s with cache := cache } where
  total := hacc
  sizes e he := h.sizes e (hsub.subset he)
  count := Nat.le_trans hsub.length_le h.count
  recency := h.recency.sublist hsub
  used e he := h.used e (hsub.subset he)

theorem others_sublist (cache : ResultCache Body) (id : String) :
    (others cache id).Sublist cache.entries.entries := List.filter_sublist

theorem ne_of_mem_others {e : String × CacheEntry Body} (h : e ∈ others cache id) : e.1 ≠ id := by
  simpa using (List.mem_filter.mp h).2

/-- The last use of the other queries is what it was. -/
theorem lastUse_others {front : List (String × CacheEntry Body)}
    (hfront : front.Sublist (others s.cache id)) :
    ∀ e ∈ front, (s.use cache id).lastUse e.1 = s.lastUse e.1 := by
  intro e he
  exact Function.update_of_ne (ne_of_mem_others (hfront.subset he)) _ _

/-- The query of the call is not held any more. -/
theorem Sound.useGone (h : Sound size s) (hacc : cache.Accounted CacheEntry.sizeBytes)
    (hsub : cache.entries.entries.Sublist (others s.cache id)) : Sound size (s.use cache id) where
  total := hacc
  sizes e he := h.sizes e ((hsub.trans (others_sublist _ _)).subset he)
  count := Nat.le_trans (hsub.trans (others_sublist _ _)).length_le h.count
  recency := by
    refine (h.recency.sublist (hsub.trans (others_sublist _ _))).imp_of_mem ?_
    intro a b ha hb hab
    rwa [lastUse_others hsub a ha, lastUse_others hsub b hb]
  used e he := by
    rw [lastUse_others hsub e he]
    exact Nat.lt_succ_of_lt (h.used e ((hsub.trans (others_sublist _ _)).subset he))

/-- The query of the call is the one used last. -/
theorem Sound.useHeld (h : Sound size s) (hacc : cache.Accounted CacheEntry.sizeBytes)
    {front : List (String × CacheEntry Body)}
    (hentries : cache.entries.entries = front ++ [(id, entry)])
    (hfront : front.Sublist (others s.cache id)) (hsize : size entry.payload = some entry.sizeBytes)
    (hcount : cache.entries.size ≤ maxEntries) : Sound size (s.use cache id) where
  total := hacc
  sizes := by
    intro e he
    change e ∈ cache.entries.entries at he
    rw [hentries, List.mem_append, List.mem_singleton] at he
    rcases he with hold | rfl
    · exact h.sizes e ((hfront.trans (others_sublist _ _)).subset hold)
    · exact hsize
  count := hcount
  recency := by
    have hsub := hfront.trans (others_sublist _ _)
    change cache.entries.entries.Pairwise _
    rw [hentries, List.pairwise_append]
    refine ⟨?_, List.pairwise_singleton _ _, ?_⟩
    · refine (h.recency.sublist hsub).imp_of_mem ?_
      intro a b ha hb hab
      rwa [lastUse_others hfront a ha, lastUse_others hfront b hb]
    · intro a ha b hb
      rw [List.mem_singleton.mp hb, lastUse_others hfront a ha]
      have hlast : (s.use cache id).lastUse id = s.calls := Function.update_self _ _ _
      rw [hlast]
      exact h.used a (hsub.subset ha)
  used := by
    intro e he
    change e ∈ cache.entries.entries at he
    rw [hentries, List.mem_append, List.mem_singleton] at he
    rcases he with hold | rfl
    · rw [lastUse_others hfront e hold]
      exact Nat.lt_succ_of_lt (h.used e ((hfront.trans (others_sublist _ _)).subset hold))
    · have hlast : (s.use cache id).lastUse id = s.calls := Function.update_self _ _ _
      rw [hlast]
      exact Nat.lt_succ_self _

/-- A lookup that finds an entry moves it to the end. -/
theorem Sound.touch (h : Sound size s) (hget : s.cache.get id = some entry) :
    Sound size (s.use (s.cache.touch id) id) := by
  have hacc : s.cache.Accounted CacheEntry.sizeBytes := h.total
  have hentries : (s.cache.touch id).entries.entries = others s.cache id ++ [(id, entry)] := by
    have hmoved : s.cache.entries.moveToEnd id = s.cache.entries.setLast id entry := by
      unfold OrderedDict.moveToEnd
      rw [show s.cache.entries.get id = some entry from hget]
    change (s.cache.entries.moveToEnd id).entries = _
    rw [hmoved, OrderedDict.entries_setLast, OrderedDict.entries_erase]
    rfl
  refine h.useHeld (hacc.touch id) hentries (List.Sublist.refl _) ?_ ?_
  · exact h.sizes _ (OrderedDict.get_iff_mem.mp hget)
  · exact (OrderedDict.size_moveToEnd _ _).trans_le h.count

theorem Sound.drop (h : Sound size s) (id : String) :
    Sound size { s with cache := s.cache.drop CacheEntry.sizeBytes id } := by
  have hacc : s.cache.Accounted CacheEntry.sizeBytes := h.total
  refine h.shrink (hacc.drop id) ?_
  rw [BudgetCache.entries_drop]
  exact List.filter_sublist

theorem Sound.put (h : Sound size s) {maxBytes : Int}
    (hsize : size entry.payload = some entry.sizeBytes) :
    Sound size (s.use (s.cache.put CacheEntry.sizeBytes maxBytes maxEntries id entry) id) := by
  have hacc : s.cache.Accounted CacheEntry.sizeBytes := h.total
  have hmax : 1 ≤ maxEntries := by decide
  by_cases hfits : (entry.sizeBytes : Int) ≤ maxBytes
  · obtain ⟨hput, n, -, hentries, hbounds, -⟩ :=
      BudgetCache.put_spec (k := id) hacc hfits hmax
    rw [BudgetCache.entries_drop] at hentries
    refine h.useHeld hput hentries (List.drop_sublist _ _) hsize ?_
    exact BudgetCache.size_put_le hacc hmax h.count id entry
  · rw [BudgetCache.put_over (Int.not_le.mp hfits)]
    refine h.useGone (hacc.drop id) ?_
    rw [BudgetCache.entries_drop]
    exact List.Sublist.refl _

/-- A body changed in place keeps the entry where it is. -/
theorem Sound.replace (h : Sound size s) (hget : s.cache.get id = some entry) {payload : Body}
    {n : Nat} (hsize : size payload = some n) :
    Sound size { s with
      cache := ⟨s.cache.entries.replace id { entry with payload := payload, sizeBytes := n },
        s.cache.totalBytes + n - entry.sizeBytes⟩ } := by
  have hacc : s.cache.Accounted CacheEntry.sizeBytes := h.total
  have hkey : ∀ e : String × CacheEntry Body,
      (if e.1 = id then (id, { entry with payload := payload, sizeBytes := n }) else e).1 =
        e.1 := by
    intro e
    split
    next heq => exact heq.symm
    · rfl
  refine ⟨hacc.replace hget { entry with payload := payload, sizeBytes := n }, ?_, ?_, ?_, ?_⟩
  · intro e he
    obtain ⟨old, hold, rfl⟩ := List.mem_map.mp he
    split
    · exact hsize
    · exact h.sizes old hold
  · exact (List.length_map _).trans_le h.count
  · refine List.pairwise_map.mpr (h.recency.imp ?_)
    intro a b hab
    rwa [hkey, hkey]
  · intro e he
    obtain ⟨old, hold, rfl⟩ := List.mem_map.mp he
    rw [hkey]
    exact h.used old hold

theorem Sound.step {a : CacheCall} (h : Sound size s) (hstep : step size s a = some t) :
    Sound size t := by
  cases a with
  | get id now =>
    simp only [Accounting.step] at hstep
    split at hstep
    next hfind =>
      obtain rfl := Option.some.inj hstep
      obtain ⟨hget, rfl⟩ := ResultCache.getFresh_some hfind
      exact h.touch hget
    next hfind =>
      obtain rfl := Option.some.inj hstep
      obtain rfl := ResultCache.getFresh_none hfind
      exact h
  | getStale settings id now =>
    simp only [Accounting.step] at hstep
    split at hstep
    next hfind =>
      obtain rfl := Option.some.inj hstep
      obtain ⟨hget, rfl⟩ := ResultCache.getStale_some hfind
      exact h.touch hget
    next hfind =>
      obtain rfl := Option.some.inj hstep
      rcases ResultCache.getStale_none_eq hfind with rfl | rfl
      · exact h
      · exact h.drop id
  | set settings id dataHash payload ttlMs now =>
    simp only [Accounting.step] at hstep
    split at hstep
    · exact Option.some.inj hstep ▸ h
    next hset =>
      obtain rfl := Option.some.inj hstep
      obtain ⟨n, hn, rfl⟩ := Option.map_eq_some_iff.mp hset
      exact h.put hn
  | invalidate id => exact Option.some.inj hstep ▸ h.drop id
  | patchCharts id build =>
    obtain rfl := Option.some.inj hstep
    unfold ResultCache.patchCharts
    split
    · exact h
    next entry hget =>
      split
      · exact h.drop id
      next payload n hredraw =>
        obtain ⟨body, -, hsize⟩ := Option.bind_eq_some_iff.mp hredraw
        obtain ⟨m, hm, heq⟩ := Option.map_eq_some_iff.mp hsize
        obtain ⟨rfl, rfl⟩ := Prod.mk.inj heq
        exact h.replace hget hm
  | clear =>
    obtain rfl := Option.some.inj hstep
    exact h.shrink BudgetCache.Accounted.empty (List.nil_sublist _)

theorem Sound.run {as : List CacheCall} (h : Run (Accounting.step size) Always .start as s) :
    Sound size s :=
  h.invariant (fun _ _ _ hsound hstep _ => hsound.step hstep) sound_start

/-! ## What one call does -/

/-- `set` of a payload that fits. -/
theorem Sound.evictsAsNeeded (h : Sound size s) {maxBytes : Int}
    (hfits : (entry.sizeBytes : Int) ≤ maxBytes) :
    EvictsAsNeeded maxBytes s.cache (s.cache.put CacheEntry.sizeBytes maxBytes maxEntries id entry)
      id entry := by
  have hacc : s.cache.Accounted CacheEntry.sizeBytes := h.total
  obtain ⟨-, n, -, hentries, -, hneeded⟩ :=
    BudgetCache.put_spec (k := id) hacc hfits (show 1 ≤ maxEntries by decide)
  rw [BudgetCache.entries_drop] at hentries hneeded
  exact ⟨n, hentries, hneeded⟩

/-- `patch_charts`, as one equation. -/
theorem get_patchCharts (size : Body → Option Nat) (cache : ResultCache Body) (queryId : String)
    (build : List String → Option (List ChartSpec)) (id : String) :
    (cache.patchCharts size queryId (redrawWith build)).get id =
      if id = queryId then
        (cache.get queryId).bind fun entry =>
          (build entry.payload.result.columns).bind fun charts =>
            (size { entry.payload with charts := charts }).map fun n =>
              { entry with payload := { entry.payload with charts := charts }, sizeBytes := n }
      else cache.get id := by
  unfold ResultCache.patchCharts
  cases hget : cache.get queryId with
  | none =>
    simp only [Option.bind_none]
    by_cases hid : id = queryId
    · rw [if_pos hid, hid, hget]
    · rw [if_neg hid]
  | some entry =>
    simp only [redrawWith, Option.bind_some]
    cases build entry.payload.result.columns with
    | none =>
      simp only [Option.map_none, Option.bind_none, BudgetCache.get_drop]
    | some charts =>
      simp only [Option.map_some, Option.bind_some]
      cases size { entry.payload with charts := charts } with
      | none => simp only [Option.map_none, BudgetCache.get_drop]
      | some n =>
        simp only [Option.map_some]
        unfold BudgetCache.get at hget ⊢
        rw [OrderedDict.get_replace, hget]
        rfl

/-- **The books of the result cache**, after any calls. -/
theorem keepsBooks_of_run {as : List CacheCall}
    (h : Run (Accounting.step size) Always .start as s) : KeepsBooks size s where
  sound := Sound.run h
  set_fits settings id dataHash payload ttlMs now n hn hfits := by
    have hsound := Sound.run h
    have hacc : s.cache.Accounted CacheEntry.sizeBytes := hsound.total
    exact ⟨_, ResultCache.set_eq hn, BudgetCache.get_put_self hacc hfits (by decide),
      hsound.evictsAsNeeded hfits⟩
  set_over settings id dataHash payload ttlMs now n hn hover := by
    refine ⟨_, ResultCache.set_eq hn, ?_⟩
    rw [BudgetCache.put_over hover, BudgetCache.entries_drop]
    rfl
  patch := get_patchCharts size s.cache

end Sound

namespace Sample

def chart : ChartSpec where
  id := "c"
  name := "C"
  chartType := .table
  xField := none
  yField := none
  seriesField := none
  surgeThresholdPct := Settings.default.defaultSurgeThresholdPct
  warnings := []

/-- An empty result without charts: 252 bytes. -/
def body : Body where
  queryId := "q"
  executedAt := 0
  result := ⟨[], [], false, 1⟩
  dataHash := "sha256:0f"
  charts := []
  flags := ⟨0, [], [], []⟩
  dismissedCount := none
  pollIntervalMs := 5000

/-- The length of `body` with copies of `chart`, which has 127 bytes and is followed by a comma. -/
def size (payload : Body) : Option Nat := some (252 + (128 * payload.charts.length - 1))

def settings : ResultCacheSettings := ⟨300, 300000⟩

/-- A result is stored, and then its query gets a chart. -/
def calls : List CacheCall :=
  [.set settings "q" "sha256:0f" body 5000 ⟨0, 0⟩, .patchCharts "q" fun _ => some [chart]]

end Sample

theorem keepsBooks_of_run_patched :
    ∃ s, Run (step Sample.size) Always .start Sample.calls s ∧ KeepsBooks Sample.size s := by
  have hrun : ∃ s, Run (step Sample.size) Always .start Sample.calls s := ⟨_, run_of_exec rfl⟩
  obtain ⟨s, hrun⟩ := hrun
  exact ⟨s, hrun, keepsBooks_of_run hrun⟩

/-! ## The budget -/

/-- `cache_max_bytes` is the same at every call. -/
def HasBudget (budget : Int) (_ : CacheState) : CacheCall → Prop
  | .set settings _ _ _ _ _ => settings.maxBytes = budget
  | _ => True

/-- By how much an entry grows when its charts are replaced is left of the budget. -/
def RoomToGrow (size : Body → Option Nat) (budget : Int) (s : CacheState) : CacheCall → Prop
  | .patchCharts id build =>
    ∀ entry charts n, s.cache.get id = some entry →
      build entry.payload.result.columns = some charts →
        size { entry.payload with charts := charts } = some n →
          s.cache.totalBytes + n - entry.sizeBytes ≤ budget
  | _ => True

def WithinBudget (budget : Int) (s : CacheState) : Prop := s.cache.totalBytes ≤ budget

instance (budget : Int) (s : CacheState) : Decidable (WithinBudget budget s) := Int.decLe _ _

section Budget

variable {size : Body → Option Nat} {budget : Int} {s t : CacheState}

theorem WithinBudget.patchCharts_iff (h : WithinBudget budget s) (id : String)
    (build : List String → Option (List ChartSpec)) :
    WithinBudget budget
        { s with cache := s.cache.patchCharts size id (redrawWith build) } ↔
      RoomToGrow size budget s (.patchCharts id build) := by
  unfold RoomToGrow ResultCache.patchCharts
  cases hget : s.cache.get id with
  | none => exact ⟨fun _ _ _ _ hentry => absurd (hget.symm.trans hentry) nofun, fun _ => h⟩
  | some entry =>
    have hdrop : WithinBudget budget
        { s with cache := s.cache.drop CacheEntry.sizeBytes id } :=
      Int.le_trans (BudgetCache.totalBytes_drop_le _ _ _) h
    simp only [redrawWith]
    cases hbuild : build entry.payload.result.columns with
    | none =>
      refine ⟨fun _ _ _ _ hentry hcharts => ?_, fun _ => hdrop⟩
      obtain rfl := Option.some.inj (hget.symm.trans hentry)
      cases hbuild.symm.trans hcharts
    | some charts =>
      simp only [Option.map_some, Option.bind_some]
      cases hsize : size { entry.payload with charts := charts } with
      | none =>
        refine ⟨fun _ _ _ _ hentry hcharts hn => ?_, fun _ => hdrop⟩
        obtain rfl := Option.some.inj (hget.symm.trans hentry)
        obtain rfl := Option.some.inj (hbuild.symm.trans hcharts)
        cases hsize.symm.trans hn
      | some n =>
        constructor
        · intro hafter _ _ _ hentry hcharts hn
          obtain rfl := Option.some.inj (hget.symm.trans hentry)
          obtain rfl := Option.some.inj (hbuild.symm.trans hcharts)
          obtain rfl := Option.some.inj (hsize.symm.trans hn)
          exact hafter
        · intro hroom
          exact hroom entry charts n hget hbuild hsize

/-- The step lemma: no other call takes the total over the budget. -/
theorem WithinBudget.step_iff {a : CacheCall} (hsound : Sound size s) (hpos : 0 < budget)
    (h : WithinBudget budget s) (hbudget : HasBudget budget s a)
    (hstep : step size s a = some t) : WithinBudget budget t ↔ RoomToGrow size budget s a := by
  cases a with
  | patchCharts id build =>
    obtain rfl := Option.some.inj hstep
    exact h.patchCharts_iff id build
  | get id now =>
    refine iff_of_true ?_ trivial
    simp only [step] at hstep
    split at hstep
    next hfind =>
      obtain rfl := Option.some.inj hstep
      obtain ⟨-, rfl⟩ := ResultCache.getFresh_some hfind
      exact h
    next hfind =>
      obtain rfl := Option.some.inj hstep
      obtain rfl := ResultCache.getFresh_none hfind
      exact h
  | getStale settings id now =>
    refine iff_of_true ?_ trivial
    simp only [step] at hstep
    split at hstep
    next hfind =>
      obtain rfl := Option.some.inj hstep
      obtain ⟨-, rfl⟩ := ResultCache.getStale_some hfind
      exact h
    next hfind =>
      obtain rfl := Option.some.inj hstep
      rcases ResultCache.getStale_none_eq hfind with rfl | rfl
      · exact h
      · exact Int.le_trans (BudgetCache.totalBytes_drop_le _ _ _) h
  | set settings id dataHash payload ttlMs now =>
    refine iff_of_true ?_ trivial
    obtain rfl : settings.maxBytes = budget := hbudget
    simp only [step] at hstep
    split at hstep
    · exact Option.some.inj hstep ▸ h
    next hset =>
      obtain rfl := Option.some.inj hstep
      obtain ⟨n, -, rfl⟩ := Option.map_eq_some_iff.mp hset
      exact BudgetCache.totalBytes_put_le hsound.total (by decide) h _ _
  | invalidate id =>
    obtain rfl := Option.some.inj hstep
    exact iff_of_true (Int.le_trans (BudgetCache.totalBytes_drop_le _ _ _) h) trivial
  | clear =>
    obtain rfl := Option.some.inj hstep
    exact iff_of_true (Int.le_of_lt hpos) trivial

/-- **The total stays within the budget** exactly as long as every entry whose charts are replaced
has room to grow. -/
theorem withinBudget_iff {as : List CacheCall} (hpos : 0 < budget)
    (h : Run (step size) (HasBudget budget) .start as s) :
    Throughout (step size) (WithinBudget budget) .start as ↔
      Run (step size) (RoomToGrow size budget) .start as s :=
  throughout_iff_of (fun _ _ _ hsound hstep => hsound.step hstep)
    (fun _ _ _ hsound hwithin hbudget hstep => hwithin.step_iff hsound hpos hbudget hstep) h
    sound_start (Int.le_of_lt hpos)

end Budget

theorem hasBudget_calls : ∀ a ∈ Sample.calls, ∀ s, HasBudget 300 s a := by
  intro a ha s
  rcases List.mem_cons.mp ha with rfl | ha
  · rfl
  · rw [List.mem_singleton.mp ha]
    trivial

/-- A chart is added to a result that takes up most of the budget. -/
theorem patch_over_budget :
    ∃ s, Run (step Sample.size) (HasBudget 300) .start Sample.calls s ∧ ¬ WithinBudget 300 s :=
  ⟨_, run_of_exec_of_forall hasBudget_calls rfl, by decide⟩

theorem withinBudget_iff_patched :
    ∃ s, Run (step Sample.size) (HasBudget 300) .start Sample.calls s ∧
      (Throughout (step Sample.size) (WithinBudget 300) .start Sample.calls ↔
        Run (step Sample.size) (RoomToGrow Sample.size 300) .start Sample.calls s) := by
  have hrun : ∃ s, Run (step Sample.size) (HasBudget 300) .start Sample.calls s :=
    ⟨_, run_of_exec_of_forall hasBudget_calls rfl⟩
  obtain ⟨s, hrun⟩ := hrun
  exact ⟨s, hrun, withinBudget_iff (by decide) hrun⟩

end FraudAnalyzer.Queries.Accounting
