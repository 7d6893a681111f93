import FraudAnalyzer.FlagRules.FlaggedView

/-!
# The badge and the view

What `summary` counts for a connection and for a query, and what the flagged view of the connection
counts. The one is an aggregate over the stored findings, the other goes through the queries that
have rules; they agree when no query without rules has a finding to show (`agrees_iff`).
-/

namespace FraudAnalyzer.FlagRules

open Policy Queries

/-- `flagged_count` of a connection in the summary, 0 when it is absent. -/
def Summary.connectionCount (summary : Summary) (connectionId : String) : Nat :=
  ((summary.connections.find? fun e => e.connectionId = connectionId).map fun e =>
    e.flaggedCount).getD 0

/-- `flagged_count` of a query in the summary, 0 when it is absent. -/
def Summary.queryCount (summary : Summary) (queryId : String) : Nat :=
  ((summary.queries.find? fun e => e.queryId = queryId).map fun e => e.flaggedCount).getD 0

/-- `flagged_count` of the section of a query, 0 when it is absent. -/
def ConnectionFlagged.queryCount (view : ConnectionFlagged) (queryId : String) : Nat :=
  ((view.queries.find? fun e => e.queryId = queryId).map Section.flaggedCount).getD 0

/-- The badge of the user shows what the view of each connection has. -/
structure Agrees (s : Store) (results : ResultCache Body) (now : Clock) (user : User) : Prop where
  connection : ∀ conn ∈ s.connections.rows,
    (summary s user).connectionCount conn.id =
      (flaggedForConnection s results now conn.id user).flaggedCount
  query : ∀ conn ∈ s.connections.rows, ∀ query ∈ s.db.queries.rows, query.connectionId = conn.id →
    (summary s user).queryCount query.id =
      (flaggedForConnection s results now conn.id user).queryCount query.id

/-! ## The summary -/

section Summary

variable (rows : List Joined) (user : User)

/-- The groups of some keys have the rows with these keys. -/
theorem sum_total_groups (p : GroupKey → Bool) :
    (((groups rows).filter fun g => p g.key).map Group.total).sum =
      rows.countP fun row => p row.key := by
  have hfilter : ((groups rows).filter fun g => p g.key).map Group.total =
      (((rows.map Joined.key).dedup.filter p).map fun key => (rows.map Joined.key).count key) := by
    simp only [groups, List.filter_map, List.map_map]
    rfl
  rw [hfilter, List.sum_map_count_dedup_filter_eq_countP, List.countP_map]
  rfl

theorem connectionCount_summarize (connectionId : String) :
    (summarize user (groups rows)).connectionCount connectionId =
      rows.countP fun row => row.key.connectionId = connectionId := by
  have hkey : ∀ id e, (perConnection (groups rows)).get id = some e → e.connectionId = id := by
    intro id e h
    refine OrderedDict.key_of_tally ConnectionEntry.connectionId ?_ ?_ h
    · exact fun _ => rfl
    · exact fun _ _ => rfl
  have hfind := OrderedDict.find?_values ConnectionEntry.connectionId
    (sortedBy_perm (fun e => -(e.flaggedCount : Int)) _) hkey connectionId
  rw [Summary.connectionCount, summarize, hfind, perConnection,
    OrderedDict.count_tally (fun e : ConnectionEntry => e.flaggedCount) Group.total]
  · exact sum_total_groups rows fun key => key.connectionId = connectionId
  · exact fun _ => rfl
  · exact fun _ _ => rfl

theorem queryCount_summarize (queryId : String) :
    (summarize user (groups rows)).queryCount queryId =
      rows.countP fun row => row.key.queryId = queryId := by
  have hkey : ∀ id e, (perQuery user (groups rows)).get id = some e → e.queryId = id := by
    intro id e h
    refine OrderedDict.key_of_tally QueryEntry.queryId ?_ ?_ h
    · exact fun _ => rfl
    · exact fun _ _ => rfl
  have hfind := OrderedDict.find?_values QueryEntry.queryId
    (sortedBy_perm (fun e => -(e.flaggedCount : Int)) _) hkey queryId
  rw [Summary.queryCount, summarize, hfind, perQuery,
    OrderedDict.count_tally (fun e : QueryEntry => e.flaggedCount) Group.total]
  · exact sum_total_groups rows fun key => key.queryId = queryId
  · exact fun _ => rfl
  · exact fun _ _ => rfl

end Summary

section Joined

variable {s : Store} {user : User}

theorem isDismissed_iff {row : FlaggedRow} :
    isDismissed s user row = true ↔
      row.rowFingerprint ∈ dismissedFingerprints s.dismissals row.queryId user.id := by
  rw [mem_dismissedFingerprints, isDismissed, List.any_eq_true]
  constructor
  · rintro ⟨d, hd, hrow⟩
    simp only [Bool.and_eq_true, decide_eq_true_eq] at hrow
    obtain ⟨⟨hquery, hfingerprint⟩, huser⟩ := hrow
    rw [← hquery, ← hfingerprint, ← huser]
    exact hd
  · intro hmem
    exact ⟨_, hmem, by simp⟩

/-- The findings to show of a query, counted. -/
theorem length_undismissed (query : SavedQuery) :
    (undismissed s query user).length =
      s.flaggedRows.rows.countP fun row => row.queryId = query.id && !isDismissed s user row := by
  have hsame : ∀ row ∈ rowsForQuery s query.id,
      decide (row.rowFingerprint ∉ dismissedFingerprints s.dismissals query.id user.id) =
        !isDismissed s user row := by
    intro row hrow
    have hid : row.queryId = query.id := by
      rw [rowsForQuery, List.mem_insertionSort] at hrow
      simpa using (List.mem_filter.mp hrow).2
    rw [Bool.eq_iff_iff, decide_eq_true_eq, ← hid, ← isDismissed_iff, Bool.not_eq_true',
      Bool.not_eq_true]
  rw [undismissed, List.filter_congr hsame, ← List.countP_eq_length_filter, rowsForQuery,
    (List.perm_insertionSort _ _).countP_eq, List.countP_filter]
  refine List.countP_congr fun row _ => ?_
  rw [Bool.and_comm]

/-- The `WHERE` of the statement. -/
theorem joined_eq_some {row : FlaggedRow} {r : Joined} :
    joined s user row = some r ↔
      ∃ query conn, s.db.queries.get row.queryId = some query ∧
        s.connections.get query.connectionId = some conn ∧
        alertVisibleTo s.db user query = true ∧ isDismissed s user row = false ∧
        r = ⟨⟨query.connectionId, conn.name, row.queryId, row.severity, query.ownerId⟩,
          row.firstSeenAt⟩ := by
  simp only [joined, Option.bind_eq_some_iff]
  constructor
  · rintro ⟨query, hquery, conn, hconn, hrow⟩
    split at hrow
    next hclause =>
      rw [Bool.and_eq_true, Bool.not_eq_true'] at hclause
      exact ⟨query, conn, hquery, hconn, hclause.1, hclause.2, (Option.some.inj hrow).symm⟩
    · cases hrow
  · rintro ⟨query, conn, hquery, hconn, hvisible, hdismissed, rfl⟩
    exact ⟨query, hquery, conn, hconn, by simp [hvisible, hdismissed]⟩

/-- The rows of the statement that are of one query. -/
theorem countP_joinedRows {query : SavedQuery} (hquery : query ∈ s.db.queries.rows)
    {conn : Connections.Connection} (hconn : s.connections.get query.connectionId = some conn) :
    ((joinedRows s user).countP fun row => row.key.queryId = query.id) =
      if alertVisibleTo s.db user query then (undismissed s query user).length else 0 := by
  have hget : s.db.queries.get query.id = some query := Table.get_of_mem hquery
  have hrow : ∀ row,
      ((joined s user row).map fun r => decide (r.key.queryId = query.id)).getD false =
      (row.queryId = query.id && !isDismissed s user row && alertVisibleTo s.db user query) := by
    intro row
    rw [getD_map_false, Bool.eq_iff_iff, Option.any_eq_true]
    simp only [Bool.and_eq_true, decide_eq_true_eq, Bool.not_eq_true']
    constructor
    · rintro ⟨r, hr, hid⟩
      obtain ⟨query', conn', hquery', -, hvisible, hdismissed, rfl⟩ := joined_eq_some.mp hr
      replace hid : row.queryId = query.id := hid
      rw [hid, hget] at hquery'
      obtain rfl := Option.some.inj hquery'
      exact ⟨⟨hid, hdismissed⟩, hvisible⟩
    · rintro ⟨⟨hid, hdismissed⟩, hvisible⟩
      exact ⟨_, joined_eq_some.mpr ⟨query, conn, hid ▸ hget, hconn, hvisible, hdismissed, rfl⟩, hid⟩
  rw [joinedRows, List.countP_filterMap, length_undismissed]
  simp only [hrow]
  cases alertVisibleTo s.db user query with
  | true => simp
  | false => simp

/-- The rows of the statement that are on one connection, query by query. -/
theorem countP_connection (connectionId : String) :
    ((joinedRows s user).countP fun row => row.key.connectionId = connectionId) =
      ((s.db.queries.rows.filter fun query => query.connectionId = connectionId).map fun query =>
        (joinedRows s user).countP fun row => row.key.queryId = query.id).sum := by
  have hnodup : ((s.db.queries.rows.filter fun query =>
      query.connectionId = connectionId).map SavedQuery.id).Nodup :=
    s.db.queries.nodup.sublist (List.filter_sublist.map _)
  have hsplit := countP_mem_eq_sum (joinedRows s user) (fun row => row.key.queryId) hnodup
  rw [List.map_map] at hsplit
  refine Eq.trans (List.countP_congr fun r hr => ?_) hsplit
  obtain ⟨row, -, hrow⟩ := List.mem_filterMap.mp hr
  obtain ⟨query, conn, hquery, -, -, -, rfl⟩ := joined_eq_some.mp hrow
  obtain ⟨hmem, hid⟩ := Table.get_iff_mem.mp hquery
  simp only [decide_eq_true_eq, List.mem_map, List.mem_filter]
  constructor
  · intro hconnection
    exact ⟨query, ⟨hmem, hconnection⟩, hid⟩
  · rintro ⟨query', ⟨hmem', hconnection⟩, hid'⟩
    have hget' : s.db.queries.get row.queryId = some query' := hid' ▸ Table.get_of_mem hmem'
    obtain rfl := Option.some.inj (hquery.symm.trans hget')
    exact hconnection

end Joined

/-! ## The view -/

section View

variable {s : Store} {results : ResultCache Body} {now : Clock} {user : User}

/-- The query has a section in the view of its connection. -/
def hasSection (s : Store) (user : User) (query : SavedQuery) : Bool :=
  alertVisibleTo s.db user query && decide (s.db.rulesOf query.id ≠ [])

theorem queriesWithRules_perm (connectionId : String) :
    (queriesWithRules s connectionId user).Perm
      ((s.db.queries.rows.filter fun query => query.connectionId = connectionId).filter
        (hasSection s user)) := by
  have hperm := (sortedBy_perm (fun query : SavedQuery => s.created query.id)
    (s.db.queries.rows.filter fun query =>
      query.connectionId = connectionId && alertVisibleTo s.db user query)).filter
        fun query => s.db.rulesOf query.id ≠ []
  refine hperm.trans (List.Perm.of_eq ?_)
  rw [List.filter_filter, List.filter_filter]
  refine List.filter_congr fun query _ => ?_
  rw [hasSection, Bool.and_comm, Bool.and_assoc, Bool.and_comm]

theorem flaggedCount_flaggedForConnection (connectionId : String) :
    (flaggedForConnection s results now connectionId user).flaggedCount =
      ((s.db.queries.rows.filter fun query => query.connectionId = connectionId).map fun query =>
        if hasSection s user query then (undismissed s query user).length else 0).sum := by
  rw [← sum_map_filter]
  simp only [flaggedForConnection, List.map_map]
  exact ((queriesWithRules_perm connectionId).map _).sum_eq

theorem queryCount_flaggedForConnection {query : SavedQuery} (hquery : query ∈ s.db.queries.rows) :
    (flaggedForConnection s results now query.connectionId user).queryCount query.id =
      if hasSection s user query then (undismissed s query user).length else 0 := by
  have hmem : ∀ q, q ∈ queriesWithRules s query.connectionId user ∧ q.id = query.id ↔
      q = query ∧ hasSection s user query = true := by
    intro q
    rw [(queriesWithRules_perm query.connectionId).mem_iff, List.mem_filter, List.mem_filter]
    constructor
    · rintro ⟨⟨⟨hq, -⟩, hsection⟩, hid⟩
      have hget : s.db.queries.get query.id = some q := hid ▸ Table.get_of_mem hq
      obtain rfl := Option.some.inj (hget.symm.trans (Table.get_of_mem hquery))
      exact ⟨rfl, hsection⟩
    · rintro ⟨rfl, hsection⟩
      exact ⟨⟨⟨hquery, by simp⟩, hsection⟩, rfl⟩
  have hfind : (queriesWithRules s query.connectionId user).find? (fun q => q.id = query.id) =
      if hasSection s user query then some query else none := by
    cases hfound : (queriesWithRules s query.connectionId user).find? fun q => q.id = query.id with
    | some q =>
      obtain ⟨rfl, hsection⟩ := (hmem q).mp
        ⟨List.mem_of_find?_eq_some hfound, by simpa using List.find?_some hfound⟩
      rw [if_pos hsection]
    | none =>
      rw [if_neg]
      intro hsection
      have hnot := List.find?_eq_none.mp hfound query ((hmem query).mpr ⟨rfl, hsection⟩).1
      simp at hnot
  have hsections : (flaggedForConnection s results now query.connectionId user).queries.find?
      (fun e => e.queryId = query.id) =
      ((queriesWithRules s query.connectionId user).find? fun q => q.id = query.id).map fun q =>
        sectionOf s results now q user := by
    simp only [flaggedForConnection, List.find?_map]
    rfl
  rw [ConnectionFlagged.queryCount, hsections, hfind]
  split
  · rfl
  · rfl

end View

/-! ## Together -/

/-- **The badge and the view agree** exactly when no query without rules, of those whose alerts the
user sees, has a finding that the user has not dismissed. -/
theorem agrees_iff {s : Store} {results : ResultCache Body} {now : Clock} {user : User} :
    Agrees s results now user ↔
      ∀ query ∈ s.db.queries.rows, (s.connections.get query.connectionId).isSome = true →
        alertVisibleTo s.db user query = true → s.db.rulesOf query.id = [] →
          undismissed s query user = [] := by
  constructor
  · intro h query hquery hconn hvisible hrules
    obtain ⟨conn, hconn⟩ := Option.isSome_iff_exists.mp hconn
    obtain ⟨hmem, hid⟩ := Table.get_iff_mem.mp hconn
    have hcount := h.query conn hmem query hquery hid.symm
    rw [hid, queryCount_flaggedForConnection hquery, summary, queryCount_summarize,
      countP_joinedRows hquery hconn, if_pos hvisible,
        if_neg (by simp [hasSection, hrules])] at hcount
    exact List.eq_nil_of_length_eq_zero hcount
  · intro h
    -- a query counts as much in the summary as in the view
    have hquery : ∀ conn ∈ s.connections.rows, ∀ query ∈ s.db.queries.rows,
        query.connectionId = conn.id →
        ((joinedRows s user).countP fun row => row.key.queryId = query.id) =
          if hasSection s user query then (undismissed s query user).length else 0 := by
      intro conn hconn query hquery hid
      have hget : s.connections.get query.connectionId = some conn := hid ▸ Table.get_of_mem hconn
      rw [countP_joinedRows hquery hget]
      by_cases hvisible : alertVisibleTo s.db user query = true
      · by_cases hrules : s.db.rulesOf query.id = []
        · simp [hasSection, hvisible, hrules, h query hquery (by rw [hget]; rfl) hvisible hrules]
        · simp [hasSection, hvisible, hrules]
      · simp [hasSection, hvisible]
    refine ⟨?_, ?_⟩
    · intro conn hconn
      rw [summary, connectionCount_summarize, countP_connection, flaggedCount_flaggedForConnection]
      refine congrArg List.sum (List.map_congr_left fun query hmem => ?_)
      obtain ⟨hrow, hid⟩ := List.mem_filter.mp hmem
      exact hquery conn hconn query hrow (by simpa using hid)
    · intro conn hconn query hrow hid
      rw [summary, queryCount_summarize, hquery conn hconn query hrow hid, ← hid,
        queryCount_flaggedForConnection hrow]

end FraudAnalyzer.FlagRules
