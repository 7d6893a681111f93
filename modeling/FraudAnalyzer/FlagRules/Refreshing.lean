import FraudAnalyzer.FlagRules.Badge
import FraudAnalyzer.Queries.Limits

/-!
# Refreshing the flagged view

`_run_one` and `flagged_for_connection` with `refresh=True`. A refresh runs the queries of the view
that the caller may run, at most `flagged_refresh_max_queries` of them, and builds the sections on
the way. Past the cap the sections are left out, and what is cached for one query may push out the
cached result of another: `hidesNothing_iff` says when the refreshed view has what the plain one
has.
-/

namespace FraudAnalyzer.FlagRules

open Python Policy Queries

/-! ## The refresh -/

/-- What a refresh takes from its surroundings; its rows in the execution log are left out. For each
query the clocks are read when the result is cached, when the findings are stored and when the
section is built. -/
structure RefreshEnv (X : Type) where
  settings : Settings
  /-- `flagged_refresh_max_queries` -/
  maxQueries : Nat
  cache : ResultCacheSettings
  sha256Hex : Sha256Hex
  /-- The length of a body in JSON; what a run returns has been encoded before, for its hash. -/
  size : Body → Nat
  /-- `translate_db_error` -/
  translate : X → AppError
  /-- `run_saved_query` -/
  run : SavedQuery → Except (Raised X) RunPayload
  cachedAt : String → Clock
  syncedAt : String → Instant
  shownAt : String → Clock

/-- What a refresh writes, and the queries it has run. -/
structure Refresh where
  flaggedRows : Table FlaggedRow.key
  results : ResultCache Body
  executed : List String

variable {X : Type}

/-- `result_cache.set` in `_run_one` -/
def RefreshEnv.store (R : RefreshEnv X) (results : ResultCache Body) (query : SavedQuery)
    (payload : RunPayload) : ResultCache Body :=
  let interval := pollIntervalFor R.settings query
  let body := payload.asDict interval
  results.put CacheEntry.sizeBytes R.cache.maxBytes maxEntries query.id
    ⟨payload.dataHash, body, R.cachedAt query.id, interval, R.size body⟩

/-- `except AppError`, then `except Exception` -/
def RefreshEnv.errorOf (R : RefreshEnv X) : Raised X → AppError
  | .appError error => error
  | .other error => R.translate error

/-- `_run_one`: the code and the message of what was raised. -/
def runOne (R : RefreshEnv X) (c : Refresh) (query : SavedQuery) :
    Option (ErrorCode × String) × Refresh :=
  match R.run query with
  | .error raised =>
    (some ((R.errorOf raised).errorCode, (R.errorOf raised).message),
      { c with executed := c.executed ++ [query.id] })
  | .ok payload =>
    (none,
      { flaggedRows := (sync R.sha256Hex c.flaggedRows query.id payload.result.columns
          (payload.result.rows.map Subtype.val) payload.flags (R.syncedAt query.id)).1
        results := R.store c.results query payload
        executed := c.executed ++ [query.id] })

/-- One turn of the loop. -/
def visit (R : RefreshEnv X) (s : Store) (user : User) (runnable : List String) (c : Refresh)
    (query : SavedQuery) : Section × Refresh :=
  let (error, c) := if query.id ∈ runnable then runOne R c query else (none, c)
  let now := R.shownAt query.id
  ({ sectionOf { s with flaggedRows := c.flaggedRows } c.results now query user with
      errorCode := error.map Prod.fst
      errorMessage := error.map Prod.snd },
    { c with results := (c.results.getFresh query.id now).2 })

def visitAll (R : RefreshEnv X) (s : Store) (user : User) (runnable : List String) :
    List SavedQuery → Refresh → List Section × Refresh
  | [], c => ([], c)
  | query :: queries, c =>
    let (head, c) := visit R s user runnable c query
    let (sections, c) := visitAll R s user runnable queries c
    (head :: sections, c)

/-- A refresh by the user runs the query. -/
def mayRun (user : User) (query : SavedQuery) : Bool :=
  user.isAdmin || query.ownerId = some user.id

/-- `runnable`, before the cap -/
def runnableIds (user : User) (queries : List SavedQuery) : List String :=
  (queries.filter (mayRun user)).map SavedQuery.id

/-- `mine` -/
def runnableOf (user : User) (queries : List SavedQuery) : List SavedQuery :=
  queries.filter fun query => query.id ∈ runnableIds user queries

/-- The cap applies: `truncated`. -/
def overCap (maxQueries : Nat) (user : User) (queries : List SavedQuery) : Bool :=
  maxQueries < (runnableOf user queries).length

/-- `keep` -/
def keptIds (maxQueries : Nat) (user : User) (queries : List SavedQuery) : List String :=
  ((runnableOf user queries).take maxQueries).map SavedQuery.id

/-- `queries`, after the cap -/
def shownQueries (maxQueries : Nat) (user : User) (queries : List SavedQuery) : List SavedQuery :=
  if overCap maxQueries user queries then
    queries.filter fun query =>
      query.id ∈ keptIds maxQueries user queries || query.id ∉ runnableIds user queries
  else queries

/-- `runnable`, after the cap -/
def cappedIds (maxQueries : Nat) (user : User) (queries : List SavedQuery) : List String :=
  if overCap maxQueries user queries then keptIds maxQueries user queries
  else runnableIds user queries

/-- `flagged_for_connection` with a refresh. -/
def refreshFlagged (R : RefreshEnv X) (s : Store) (results : ResultCache Body)
    (connectionId : String) (user : User) : ConnectionFlagged × Refresh :=
  let queries := queriesWithRules s connectionId user
  let (sections, c) := visitAll R s user (cappedIds R.maxQueries user queries)
    (shownQueries R.maxQueries user queries) ⟨s.flaggedRows, results, []⟩
  ({ connectionId := connectionId
     queries := sections
     flaggedCount := (sections.map Section.flaggedCount).sum
     dismissedCount := (sections.map Section.dismissedCount).sum
     refreshed := true
     refreshTruncated := overCap R.maxQueries user queries },
    c)

/-! ## The property -/

/-- A refresh hides no findings: the view has the sections of the plain one, in their order, at most
`flagged_refresh_max_queries` queries of the caller are run, and the sections of the others are as
in the plain view. -/
structure HidesNothing (R : RefreshEnv X) (s : Store) (results : ResultCache Body)
    (connectionId : String) (user : User) : Prop where
  sections : ∀ now,
    ((flaggedForConnection s results now connectionId user).queries.map Section.queryId).Sublist
      ((refreshFlagged R s results connectionId user).1.queries.map Section.queryId)
  bounded : (refreshFlagged R s results connectionId user).2.executed.length ≤ R.maxQueries
  owned : ∀ id ∈ (refreshFlagged R s results connectionId user).2.executed,
    user.isAdmin = true ∨ ∃ query ∈ s.db.queries.rows, query.id = id ∧ query.ownerId = some user.id
  unexecuted : ∀ shown ∈ (refreshFlagged R s results connectionId user).1.queries,
    shown.queryId ∉ (refreshFlagged R s results connectionId user).2.executed →
      shown ∈ (flaggedForConnection s results (R.shownAt shown.queryId) connectionId user).queries

/-- What the refresh of a query leaves in the cache: its result is stored if it was run and has one,
and then looked up. -/
def RefreshEnv.cacheVisit (R : RefreshEnv X) (user : User) (results : ResultCache Body)
    (query : SavedQuery) : ResultCache Body :=
  let results :=
    if mayRun user query then
      match R.run query with
      | .error _ => results
      | .ok payload => R.store results query payload
    else results
  (results.getFresh query.id (R.shownAt query.id)).2

/-- The refreshed results push no fresh result of a query that is not run out of the cache before
its section is built, except one without warnings of a query with findings to show. -/
def KeepsCached (R : RefreshEnv X) (s : Store) (results : ResultCache Body) (connectionId : String)
    (user : User) : Prop :=
  ∀ before query after, queriesWithRules s connectionId user = before ++ query :: after →
    mayRun user query = false →
      ∀ entry ∈ (results.getFresh query.id (R.shownAt query.id)).1,
        (before.foldl (R.cacheVisit user) results).get query.id = none →
          entry.payload.flags.warnings = [] ∧ undismissed s query user ≠ []

/-! ## The loop -/

section Loop

variable {R : RefreshEnv X} {s : Store} {user : User} {runnable : List String} {c : Refresh}
  {query : SavedQuery} {queries : List SavedQuery}

/-- A result is stored by the cache's own `set`. -/
theorem set_eq_store (results : ResultCache Body) (payload : RunPayload) :
    results.set R.cache (fun body => some (R.size body)) query.id payload.dataHash
        (payload.asDict (pollIntervalFor R.settings query)) (pollIntervalFor R.settings query)
        (R.cachedAt query.id) =
      some (R.store results query payload) :=
  ResultCache.set_eq rfl

theorem executed_runOne : (runOne R c query).2.executed = c.executed ++ [query.id] := by
  unfold runOne
  split
  · rfl
  · rfl

theorem executed_visit :
    (visit R s user runnable c query).2.executed =
      c.executed ++ [query.id].filter (· ∈ runnable) := by
  unfold visit
  by_cases hrun : query.id ∈ runnable
  · simp [hrun, executed_runOne]
  · simp [hrun]

theorem executed_visitAll :
    (visitAll R s user runnable queries c).2.executed =
      c.executed ++ (queries.map SavedQuery.id).filter (· ∈ runnable) := by
  induction queries generalizing c with
  | nil => simp [visitAll]
  | cons query queries ih =>
    rw [visitAll, ih, executed_visit, List.append_assoc, ← List.filter_append]
    rfl

theorem queryId_visit : (visit R s user runnable c query).1.queryId = query.id := by
  unfold visit
  split
  rfl

theorem map_queryId_visitAll :
    (visitAll R s user runnable queries c).1.map Section.queryId = queries.map SavedQuery.id := by
  induction queries generalizing c with
  | nil => rfl
  | cons query queries ih => rw [visitAll, List.map_cons, ih, queryId_visit, List.map_cons]

/-- Each section is built after the queries before it were visited. -/
theorem mem_visitAll {shown : Section} :
    shown ∈ (visitAll R s user runnable queries c).1 ↔
      ∃ before query after, queries = before ++ query :: after ∧
        shown = (visit R s user runnable (visitAll R s user runnable before c).2 query).1 := by
  induction queries generalizing c with
  | nil => simp [visitAll]
  | cons first queries ih =>
    rw [visitAll, List.mem_cons, ih]
    constructor
    · rintro (rfl | ⟨before, query, after, rfl, rfl⟩)
      · exact ⟨[], first, queries, rfl, rfl⟩
      · exact ⟨first :: before, query, after, rfl, rfl⟩
    · rintro ⟨before, query, after, heq, rfl⟩
      cases before with
      | nil =>
        obtain ⟨rfl, -⟩ := List.cons.inj heq
        exact .inl rfl
      | cons head before =>
        obtain ⟨rfl, rfl⟩ := List.cons.inj heq
        exact .inr ⟨before, query, after, rfl, rfl⟩

end Loop

/-! ## What a visit leaves alone -/

section Frame

variable {R : RefreshEnv X} {s : Store} {user : User} {runnable : List String} {c : Refresh}
  {query : SavedQuery} {queries : List SavedQuery} {results : ResultCache Body} {id : String}

theorem filter_runOne (hid : id ≠ query.id) :
    ((runOne R c query).2.flaggedRows.rows.filter fun row => row.queryId = id) =
      c.flaggedRows.rows.filter fun row => row.queryId = id := by
  unfold runOne
  split
  · rfl
  · exact filter_sync hid

theorem filter_visit (hid : id ∉ runnable) :
    ((visit R s user runnable c query).2.flaggedRows.rows.filter fun row => row.queryId = id) =
      c.flaggedRows.rows.filter fun row => row.queryId = id := by
  unfold visit
  by_cases hrun : query.id ∈ runnable
  · rw [if_pos hrun]
    exact filter_runOne fun h => hid (h ▸ hrun)
  · rw [if_neg hrun]

/-- The findings of a query that is not run stay as they are. -/
theorem filter_visitAll (hid : id ∉ runnable) :
    ((visitAll R s user runnable queries c).2.flaggedRows.rows.filter fun row =>
        row.queryId = id) =
      c.flaggedRows.rows.filter fun row => row.queryId = id := by
  induction queries generalizing c with
  | nil => rfl
  | cons query queries ih => rw [visitAll, ih, filter_visit hid]

theorem results_visit (hrun : query.id ∈ runnable ↔ mayRun user query = true) :
    (visit R s user runnable c query).2.results = R.cacheVisit user c.results query := by
  unfold visit RefreshEnv.cacheVisit
  by_cases hmay : mayRun user query = true
  · rw [if_pos (hrun.mpr hmay), if_pos hmay]
    unfold runOne
    cases R.run query with
    | error raised => rfl
    | ok payload => rfl
  · rw [if_neg fun h => hmay (hrun.mp h), if_neg hmay]

theorem results_visitAll
    (hrun : ∀ query ∈ queries, query.id ∈ runnable ↔ mayRun user query = true) :
    (visitAll R s user runnable queries c).2.results =
      queries.foldl (R.cacheVisit user) c.results := by
  induction queries generalizing c with
  | nil => rfl
  | cons query queries ih =>
    rw [visitAll, ih fun q hq => hrun q (List.mem_cons_of_mem _ hq),
      results_visit (hrun query List.mem_cons_self), List.foldl_cons]

/-- Of another query the cache has what it had, or nothing. -/
theorem get_cacheVisit (hid : id ≠ query.id) :
    (R.cacheVisit user results query).get id = none ∨
      (R.cacheVisit user results query).get id = results.get id := by
  unfold RefreshEnv.cacheVisit
  rw [ResultCache.get_getFresh]
  split
  · split
    · exact .inr rfl
    next payload _ =>
      cases hget : (R.store results query payload).get id with
      | none => exact .inl rfl
      | some entry =>
        obtain ⟨heq, -⟩ | ⟨-, hold⟩ := BudgetCache.get_of_put hget
        · exact absurd heq hid
        · exact .inr hold.symm
  · exact .inr rfl

theorem get_foldl_cacheVisit (hid : ∀ query ∈ queries, id ≠ query.id) :
    (queries.foldl (R.cacheVisit user) results).get id = none ∨
      (queries.foldl (R.cacheVisit user) results).get id = results.get id := by
  induction queries generalizing results with
  | nil => exact .inr rfl
  | cons query queries ih =>
    rw [List.foldl_cons]
    obtain hnone | heq := @ih (R.cacheVisit user results query)
      fun q hq => hid q (List.mem_cons_of_mem _ hq)
    · exact .inl hnone
    · rw [heq]
      exact get_cacheVisit (hid query List.mem_cons_self)

end Frame

/-! ## Sections -/

section Sections

variable {s : Store} {results cache : ResultCache Body} {now : Clock} {query : SavedQuery}
  {user : User}

/-- A section has the findings of its own query. -/
theorem sectionOf_congr_rows {rows : Table FlaggedRow.key}
    (hrows : (rows.rows.filter fun row => row.queryId = query.id) =
      s.flaggedRows.rows.filter fun row => row.queryId = query.id) :
    sectionOf { s with flaggedRows := rows } results now query user =
      sectionOf s results now query user := by
  have hundismissed : undismissed { s with flaggedRows := rows } query user =
      undismissed s query user := by
    unfold undismissed rowsForQuery
    rw [hrows]
  unfold sectionOf
  rw [hundismissed]
  rfl

theorem sectionOf_congr_cache (h : cache.get query.id = results.get query.id) :
    sectionOf s cache now query user = sectionOf s results now query user := by
  unfold sectionOf
  rw [ResultCache.getFresh_congr h]

/-- Without its cached result a section has no warnings, and without findings it is stale. -/
theorem sectionOf_eq_iff (h : cache.get query.id = none) :
    sectionOf s cache now query user = sectionOf s results now query user ↔
      ∀ entry ∈ (results.getFresh query.id now).1,
        entry.payload.flags.warnings = [] ∧ undismissed s query user ≠ [] := by
  have hnone : (cache.getFresh query.id now).1 = none := by
    unfold ResultCache.getFresh
    rw [h]
  unfold sectionOf
  rw [hnone]
  cases (results.getFresh query.id now).1 with
  | none => exact ⟨fun _ _ hentry => absurd hentry nofun, fun _ => rfl⟩
  | some entry =>
    constructor
    · intro heq entry' hentry
      obtain rfl := Option.some.inj hentry
      have hwarnings := congrArg Section.warnings heq
      have hstale := congrArg Section.stale heq
      refine ⟨hwarnings.symm, fun hnil => ?_⟩
      simp [hnil] at hstale
    · intro hunseen
      obtain ⟨hwarnings, hfindings⟩ := hunseen entry rfl
      simp [hwarnings, hfindings]

end Sections

/-! ## The cap -/

section Cap

variable {maxQueries : Nat} {user : User} {queries : List SavedQuery}
  (hids : (queries.map SavedQuery.id).Nodup)

include hids in
theorem mem_runnableIds {query : SavedQuery} (hquery : query ∈ queries) :
    query.id ∈ runnableIds user queries ↔ mayRun user query = true := by
  unfold runnableIds
  rw [List.mem_map]
  constructor
  · rintro ⟨other, hother, heq⟩
    obtain ⟨hmem, hmay⟩ := List.mem_filter.mp hother
    exact List.inj_on_of_nodup_map hids hmem hquery heq ▸ hmay
  · exact fun hmay => ⟨query, List.mem_filter.mpr ⟨hquery, hmay⟩, rfl⟩

include hids in
theorem runnableOf_eq : runnableOf user queries = queries.filter (mayRun user) := by
  refine List.filter_congr fun query hquery => ?_
  rw [Bool.eq_iff_iff, decide_eq_true_eq, mem_runnableIds hids hquery]

include hids in
theorem overCap_iff :
    overCap maxQueries user queries = true ↔ maxQueries < queries.countP (mayRun user) := by
  unfold overCap
  rw [decide_eq_true_eq, runnableOf_eq hids, List.countP_eq_length_filter]

theorem mem_runnableIds_of_cappedIds {id : String} (h : id ∈ cappedIds maxQueries user queries) :
    id ∈ runnableIds user queries := by
  unfold cappedIds at h
  split at h
  · obtain ⟨query, hquery, rfl⟩ := List.mem_map.mp h
    exact of_decide_eq_true (List.mem_filter.mp (List.mem_of_mem_take hquery)).2
  · exact h

include hids in
/-- However many queries are shown, the cap bounds those that are run. -/
theorem length_run_le :
    (((shownQueries maxQueries user queries).map SavedQuery.id).filter
      (· ∈ cappedIds maxQueries user queries)).length ≤ maxQueries := by
  by_cases hover : overCap maxQueries user queries = true
  · have hnodup : (((shownQueries maxQueries user queries).map SavedQuery.id).filter
        (· ∈ cappedIds maxQueries user queries)).Nodup := by
      refine List.Nodup.filter _ (hids.sublist (List.Sublist.map _ ?_))
      rw [shownQueries, if_pos hover]
      exact List.filter_sublist
    have hsubset : (((shownQueries maxQueries user queries).map SavedQuery.id).filter
        (· ∈ cappedIds maxQueries user queries)) ⊆ keptIds maxQueries user queries := by
      intro id hid
      have hcapped := of_decide_eq_true (List.mem_filter.mp hid).2
      rwa [cappedIds, if_pos hover] at hcapped
    refine (List.Nodup.length_le_of_subset hnodup hsubset).trans ?_
    rw [keptIds, List.length_map]
    exact List.length_take_le _ _
  · rw [shownQueries, if_neg hover, cappedIds, if_neg hover, List.filter_map, List.length_map]
    exact Nat.le_of_not_lt fun hlt => hover (decide_eq_true hlt)

include hids in
/-- Past the cap a query is not shown. -/
theorem length_shownQueries_lt (hover : overCap maxQueries user queries = true) :
    (shownQueries maxQueries user queries).length < queries.length := by
  rw [shownQueries, if_pos hover, List.length_filter_lt_length_iff_exists]
  have hlt : maxQueries < (runnableOf user queries).length := of_decide_eq_true hover
  -- the first of the caller's queries past the cap
  refine ⟨(runnableOf user queries)[maxQueries], ?_, ?_⟩
  · exact List.mem_of_mem_filter (List.getElem_mem hlt)
  · have hrunnable : (runnableOf user queries)[maxQueries].id ∈ runnableIds user queries :=
      of_decide_eq_true (List.mem_filter.mp (List.getElem_mem hlt)).2
    have hkept : (runnableOf user queries)[maxQueries].id ∉ keptIds maxQueries user queries := by
      have hnodup : ((runnableOf user queries).map SavedQuery.id).Nodup :=
        hids.sublist (List.filter_sublist.map _)
      intro hmem
      rw [keptIds, List.map_take, List.mem_take_iff_getElem] at hmem
      obtain ⟨i, hi, heq⟩ := hmem
      have hmax : maxQueries < ((runnableOf user queries).map SavedQuery.id).length := by
        rwa [List.length_map]
      have hmapped : ((runnableOf user queries).map SavedQuery.id)[maxQueries] =
          (runnableOf user queries)[maxQueries].id := List.getElem_map SavedQuery.id
      have hsame : i = maxQueries := hnodup.getElem_inj_iff.mp (heq.trans hmapped.symm)
      omega
    simp [hkept, hrunnable]

end Cap

/-! ## The refreshed view and the plain one -/

section View

variable {R : RefreshEnv X} {s : Store} {results : ResultCache Body} {connectionId : String}
  {user : User}

theorem nodup_queriesWithRules :
    ((queriesWithRules s connectionId user).map SavedQuery.id).Nodup := by
  refine ((queriesWithRules_perm connectionId).map SavedQuery.id).nodup_iff.mpr ?_
  exact s.db.queries.nodup.sublist ((List.filter_sublist.trans List.filter_sublist).map _)

theorem mem_of_eq_append_cons {α : Type} {l before after : List α} {a : α}
    (h : l = before ++ a :: after) : a ∈ l :=
  h ▸ List.mem_append_right _ List.mem_cons_self

theorem mem_queries_of_queriesWithRules {query : SavedQuery}
    (h : query ∈ queriesWithRules s connectionId user) : query ∈ s.db.queries.rows :=
  (mem_selectQueries.mp (List.mem_of_mem_filter h)).1

/-- A query has one section in the plain view. -/
theorem mem_flaggedForConnection_iff {query : SavedQuery} {shown : Section} {now : Clock}
    (hquery : query ∈ queriesWithRules s connectionId user) (hid : shown.queryId = query.id) :
    shown ∈ (flaggedForConnection s results now connectionId user).queries ↔
      shown = sectionOf s results now query user := by
  constructor
  · intro hmem
    obtain ⟨other, hother, rfl⟩ := List.mem_map.mp hmem
    rw [List.inj_on_of_nodup_map nodup_queriesWithRules hother hquery hid]
  · rintro rfl
    exact List.mem_map_of_mem hquery

theorem map_queryId_flaggedForConnection (now : Clock) :
    (flaggedForConnection s results now connectionId user).queries.map Section.queryId =
      (queriesWithRules s connectionId user).map SavedQuery.id :=
  List.map_map

theorem map_queryId_refreshFlagged :
    (refreshFlagged R s results connectionId user).1.queries.map Section.queryId =
      (shownQueries R.maxQueries user (queriesWithRules s connectionId user)).map
        SavedQuery.id :=
  map_queryId_visitAll

theorem executed_refreshFlagged :
    (refreshFlagged R s results connectionId user).2.executed =
      ((shownQueries R.maxQueries user (queriesWithRules s connectionId user)).map
        SavedQuery.id).filter
          (· ∈ cappedIds R.maxQueries user (queriesWithRules s connectionId user)) :=
  executed_visitAll

/-- Every refresh is bounded. -/
theorem length_executed_le :
    (refreshFlagged R s results connectionId user).2.executed.length ≤ R.maxQueries := by
  rw [executed_refreshFlagged]
  exact length_run_le nodup_queriesWithRules

/-- Every refresh keeps to the queries that the caller may run. -/
theorem owned_of_executed {id : String}
    (h : id ∈ (refreshFlagged R s results connectionId user).2.executed) :
    user.isAdmin = true ∨
      ∃ query ∈ s.db.queries.rows, query.id = id ∧ query.ownerId = some user.id := by
  rw [executed_refreshFlagged] at h
  have hcapped := of_decide_eq_true (List.mem_filter.mp h).2
  obtain ⟨query, hquery, rfl⟩ := List.mem_map.mp (mem_runnableIds_of_cappedIds hcapped)
  obtain ⟨hmem, hmay⟩ := List.mem_filter.mp hquery
  obtain hadmin | howner := Bool.or_eq_true_iff.mp hmay
  · exact .inl hadmin
  · exact .inr ⟨query, mem_queries_of_queriesWithRules hmem, rfl, of_decide_eq_true howner⟩

section Below

variable (hcap : (queriesWithRules s connectionId user).countP (mayRun user) ≤ R.maxQueries)

include hcap in
theorem shownQueries_of_le :
    shownQueries R.maxQueries user (queriesWithRules s connectionId user) =
      queriesWithRules s connectionId user :=
  if_neg fun h => Nat.not_lt_of_le hcap ((overCap_iff nodup_queriesWithRules).mp h)

include hcap in
theorem cappedIds_of_le :
    cappedIds R.maxQueries user (queriesWithRules s connectionId user) =
      runnableIds user (queriesWithRules s connectionId user) :=
  if_neg fun h => Nat.not_lt_of_le hcap ((overCap_iff nodup_queriesWithRules).mp h)

include hcap in
/-- The cap does not apply: every query is visited. -/
theorem queries_refreshFlagged_of_le :
    (refreshFlagged R s results connectionId user).1.queries =
      (visitAll R s user (runnableIds user (queriesWithRules s connectionId user))
        (queriesWithRules s connectionId user) ⟨s.flaggedRows, results, []⟩).1 := by
  have hqueries : (refreshFlagged R s results connectionId user).1.queries =
      (visitAll R s user
        (cappedIds R.maxQueries user (queriesWithRules s connectionId user))
        (shownQueries R.maxQueries user (queriesWithRules s connectionId user))
        ⟨s.flaggedRows, results, []⟩).1 := rfl
  rw [hqueries, shownQueries_of_le hcap, cappedIds_of_le hcap]

include hcap in
theorem mem_executed_iff {query : SavedQuery}
    (hquery : query ∈ queriesWithRules s connectionId user) :
    query.id ∈ (refreshFlagged R s results connectionId user).2.executed ↔
      mayRun user query = true := by
  rw [executed_refreshFlagged, shownQueries_of_le hcap, cappedIds_of_le hcap, List.mem_filter,
    decide_eq_true_eq, mem_runnableIds nodup_queriesWithRules hquery]
  exact and_iff_right (List.mem_map_of_mem hquery)

end Below

/-- The section of a query that is not run has its findings as they were, and what is left in the
cache. -/
theorem visit_of_mayRun_false {before after : List SavedQuery} {query : SavedQuery}
    (hsplit : queriesWithRules s connectionId user = before ++ query :: after)
    (hmay : mayRun user query = false) :
    (visit R s user (runnableIds user (queriesWithRules s connectionId user))
        (visitAll R s user (runnableIds user (queriesWithRules s connectionId user)) before
          ⟨s.flaggedRows, results, []⟩).2 query).1 =
      sectionOf s (before.foldl (R.cacheVisit user) results) (R.shownAt query.id) query user := by
  have hquery : query ∈ queriesWithRules s connectionId user := mem_of_eq_append_cons hsplit
  have hid : query.id ∉ runnableIds user (queriesWithRules s connectionId user) := by
    rw [mem_runnableIds nodup_queriesWithRules hquery, hmay]
    exact Bool.false_ne_true
  have hbefore : ∀ q ∈ before,
      q.id ∈ runnableIds user (queriesWithRules s connectionId user) ↔ mayRun user q = true := by
    intro q hq
    refine mem_runnableIds nodup_queriesWithRules ?_
    rw [hsplit]
    exact List.mem_append_left _ hq
  have hresults := results_visitAll (R := R) (s := s) (c := ⟨s.flaggedRows, results, []⟩) hbefore
  unfold visit
  rw [if_neg hid]
  refine (sectionOf_congr_rows (filter_visitAll hid)).trans ?_
  rw [hresults]

/-- The section of a query that is not run is in the view. -/
theorem mem_refreshFlagged_of_mayRun_false
    (hcap : (queriesWithRules s connectionId user).countP (mayRun user) ≤ R.maxQueries)
    {before after : List SavedQuery} {query : SavedQuery}
    (hsplit : queriesWithRules s connectionId user = before ++ query :: after)
    (hmay : mayRun user query = false) :
    sectionOf s (before.foldl (R.cacheVisit user) results) (R.shownAt query.id) query user ∈
      (refreshFlagged R s results connectionId user).1.queries := by
  rw [queries_refreshFlagged_of_le hcap, ← visit_of_mayRun_false hsplit hmay]
  exact mem_visitAll.mpr ⟨before, query, after, hsplit, rfl⟩

end View

/-- **A refresh hides no findings** exactly when the caller may run no more of the queries in the
view than the cap allows, and the refreshed results push no fresh result out of the cache that a
query which is not run has to show. -/
theorem hidesNothing_iff (R : RefreshEnv X) (s : Store) (results : ResultCache Body)
    (connectionId : String) (user : User) :
    HidesNothing R s results connectionId user ↔
      (queriesWithRules s connectionId user).countP (mayRun user) ≤ R.maxQueries ∧
        KeepsCached R s results connectionId user := by
  constructor
  · intro h
    have hcap : (queriesWithRules s connectionId user).countP (mayRun user) ≤ R.maxQueries := by
      by_contra hlt
      have hover : overCap R.maxQueries user (queriesWithRules s connectionId user) = true :=
        (overCap_iff nodup_queriesWithRules).mpr (Nat.lt_of_not_le hlt)
      have hsub := (h.sections ⟨0, 0⟩).length_le
      rw [map_queryId_flaggedForConnection, map_queryId_refreshFlagged, List.length_map,
        List.length_map] at hsub
      exact absurd (length_shownQueries_lt nodup_queriesWithRules hover) (Nat.not_lt_of_le hsub)
    refine ⟨hcap, ?_⟩
    intro before query after hsplit hmay entry hentry hnone
    have hquery : query ∈ queriesWithRules s connectionId user := mem_of_eq_append_cons hsplit
    have hrun : query.id ∉ (refreshFlagged R s results connectionId user).2.executed := by
      rw [mem_executed_iff hcap hquery, hmay]
      exact Bool.false_ne_true
    have hplain := h.unexecuted _ (mem_refreshFlagged_of_mayRun_false hcap hsplit hmay) hrun
    have hsame := (mem_flaggedForConnection_iff hquery rfl).mp hplain
    exact (sectionOf_eq_iff hnone).mp hsame entry hentry
  · rintro ⟨hcap, hkeeps⟩
    refine ⟨?_, length_executed_le, fun id => owned_of_executed, ?_⟩
    · intro now
      rw [map_queryId_flaggedForConnection, map_queryId_refreshFlagged, shownQueries_of_le hcap]
    · intro shown hshown hrun
      rw [queries_refreshFlagged_of_le hcap] at hshown
      obtain ⟨before, query, after, hsplit, rfl⟩ := mem_visitAll.mp hshown
      have hquery : query ∈ queriesWithRules s connectionId user := mem_of_eq_append_cons hsplit
      rw [queryId_visit, mem_executed_iff hcap hquery, Bool.not_eq_true] at hrun
      rw [mem_flaggedForConnection_iff hquery queryId_visit, queryId_visit,
        visit_of_mayRun_false hsplit hrun]
      have hother : ∀ q ∈ before, query.id ≠ q.id := by
        intro q hq heq
        have hnodup : ((before ++ query :: after).map SavedQuery.id).Nodup :=
          hsplit ▸ nodup_queriesWithRules
        rw [List.map_append, List.map_cons] at hnodup
        exact (List.nodup_append.mp hnodup).2.2 q.id (List.mem_map_of_mem hq) query.id
          List.mem_cons_self heq.symm
      have hcached : (before.foldl (R.cacheVisit user) results).get query.id = none ∨
          (before.foldl (R.cacheVisit user) results).get query.id = results.get query.id :=
        get_foldl_cacheVisit hother
      obtain hnone | hheld := hcached
      · exact (sectionOf_eq_iff hnone).mpr fun entry hentry =>
          hkeeps before query after hsplit hrun entry hentry hnone
      · exact sectionOf_congr_cache hheld

namespace TwoQueries

def query (id : String) : SavedQuery :=
  ⟨id, "c", "Payments", none, "SELECT 1", none, 100, none, some "ana"⟩

def rule (id queryId : String) : FlagRule :=
  ⟨id, queryId, "Large", .high, true, 0, [⟨0, "amount", .gt, some "500", none, none⟩]⟩

/-- Two queries of one user with a rule each, and a finding of the second. -/
def store : Store where
  db :=
    { queries := ⟨[query "one", query "two"], by decide⟩
      charts := .empty
      flagRules := ⟨[rule "r" "one", rule "t" "two"], by decide⟩
      auditLogs := [] }
  connections := .empty
  users := .empty
  created := fun _ => 0
  flaggedRows :=
    ⟨[⟨"two", "f", [.int 900], ["amount"], ["t"], ["Large"], .high, 5, 5⟩], by decide⟩
  dismissals := []

/-- A refresh that may run one query. -/
def env : RefreshEnv Unit where
  settings := .default
  maxQueries := 1
  cache := ⟨1000, 0⟩
  sha256Hex := fun _ => "f"
  size := fun _ => 1
  translate := fun _ => ⟨.queryExecutionError, "The query failed.", []⟩
  run := fun _ => .error (.other ())
  cachedAt := fun _ => ⟨0, 0⟩
  syncedAt := fun _ => 7
  shownAt := fun _ => ⟨0, 0⟩

end TwoQueries

/-- The section of the query past the cap is left out, with its finding. -/
theorem refresh_hides_second :
    ¬ HidesNothing TwoQueries.env TwoQueries.store .empty "c" ⟨"ana", false⟩ := by
  intro h
  have hsub := h.sections ⟨0, 0⟩
  rw [map_queryId_flaggedForConnection, map_queryId_refreshFlagged] at hsub
  exact absurd hsub (by decide)

end FraudAnalyzer.FlagRules
