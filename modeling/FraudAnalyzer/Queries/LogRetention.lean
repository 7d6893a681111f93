import FraudAnalyzer.Lib.Cutoff
import FraudAnalyzer.Queries.ExecutionLog
import Mathlib.Data.List.Dedup

/-!
# Pruning the execution log

`prune_execution_logs` with its two limits, by age and by rows per query. The second one reads the
time of the first row past the quota and deletes what is not newer, so that rows of one time go
together.
-/

namespace FraudAnalyzer.Queries.Logging

/-- `QueryExecutionLog` -/
structure StoredLog extends LogRow where
  id : String
  executedAt : Instant
  deriving DecidableEq

abbrev LogTable := Table StoredLog.id

/-- The rows of a query. -/
def logsOf (logs : LogTable) (queryId : String) : List StoredLog :=
  logs.rows.filter fun r => r.queryId = some queryId

/-- The rows of previews. -/
def previewLogs (logs : LogTable) : List StoredLog := logs.rows.filter fun r => r.queryId = none

/-- `ORDER BY executed_at DESC` -/
def newestFirst (rows : List StoredLog) : List StoredLog := sortedBy (fun r => -r.executedAt) rows

/-- `GROUP BY query_id HAVING count(id) > keep`, without the group of the previews. -/
def overQuota (keep : Nat) (logs : LogTable) : List String :=
  (logs.rows.filterMap fun r => r.queryId).dedup.filter fun q => keep < (logsOf logs q).length

/-- One turn of the loop, with the number of rows it deletes. -/
def trimQuery (keep : Nat) (logs : LogTable) (queryId : String) : LogTable × Nat :=
  match (newestFirst (logsOf logs queryId))[keep]? with
  | none => (logs, 0)
  | some cutoffRow =>
    let old (r : StoredLog) : Bool :=
      r.queryId = some queryId ∧ r.executedAt ≤ cutoffRow.executedAt
    (logs.deleteWhere old, (logs.rows.filter old).length)

/-- The loop over the groups, which come back in an order of the database's choosing. -/
def trimQueries (keep : Nat) : List String → LogTable → LogTable × Nat
  | [], logs => (logs, 0)
  | queryId :: rest, logs =>
    let (trimmed, removed) := trimQuery keep logs queryId
    let (final, more) := trimQueries keep rest trimmed
    (final, removed + more)

/-- `_trim_per_query` -/
def trimPerQuery (keep : Nat) (logs : LogTable) : LogTable × Nat :=
  trimQueries keep (overQuota keep logs) logs

structure RetentionSettings where
  logRetentionDays : Nat
  maxLogsPerQuery : Nat

/-- `utcnow() - timedelta(days=..)` -/
def RetentionSettings.cutoff (settings : RetentionSettings) (now : Instant) : Instant :=
  now - settings.logRetentionDays * (24 * 60 * 60 * 1000000)

/-- The deletion by age. -/
def deleteExpired (settings : RetentionSettings) (now : Instant) (logs : LogTable) :
    LogTable × Nat :=
  if 0 < settings.logRetentionDays then
    let expired (r : StoredLog) : Bool := r.executedAt < settings.cutoff now
    (logs.deleteWhere expired, (logs.rows.filter expired).length)
  else (logs, 0)

/-- `prune_execution_logs` -/
def pruneExecutionLogs (settings : RetentionSettings) (now : Instant) (logs : LogTable) :
    LogTable × Nat :=
  let (recent, expired) := deleteExpired settings now logs
  if 0 < settings.maxLogsPerQuery then
    let (trimmed, removed) := trimPerQuery settings.maxLogsPerQuery recent
    (trimmed, expired + removed)
  else (recent, expired)

/-- What is kept of the rows of one query. -/
def kept (keep : Nat) (rows : List StoredLog) : List StoredLog :=
  match (newestFirst rows)[keep]? with
  | none => rows
  | some cutoffRow => rows.filter fun r => cutoffRow.executedAt < r.executedAt

/-- The newest rows of each query are kept, `keep` of them where there are as many. -/
structure TrimsExactly (keep : Nat) (logs after : LogTable) (removed : Nat) : Prop where
  length : ∀ q, (logsOf after q).length = min (logsOf logs q).length keep
  newest : ∀ q, ∀ r ∈ logsOf after q, ∀ s ∈ logsOf logs q, s ∉ logsOf after q →
    s.executedAt ≤ r.executedAt
  previews : previewLogs after = previewLogs logs
  underQuota : ∀ q, (logsOf logs q).length ≤ keep → logsOf after q = logsOf logs q
  sublist : after.rows.Sublist logs.rows
  removed : removed + after.rows.length = logs.rows.length
  again : ∀ groups, groups.Perm (overQuota keep after) → trimQueries keep groups after = (after, 0)

/-- A query has more than `keep` rows, and the last of those to keep is as old as the next one. -/
def TiedAtQuota (keep : Nat) (rows : List StoredLog) : Prop :=
  ∃ last next, (newestFirst rows)[keep - 1]? = some last ∧ (newestFirst rows)[keep]? = some next ∧
    last.executedAt = next.executedAt

section Trimming

variable {keep : Nat} {rows : List StoredLog} {logs : LogTable} {groups : List String} {q : String}

/-! ## The rows of one query -/

theorem falling_newestFirst (rows : List StoredLog) :
    Cutoff.Falling StoredLog.executedAt (newestFirst rows) := by
  have hsorted := List.pairwise_insertionSort
    (fun a b : StoredLog => -a.executedAt ≤ -b.executedAt) rows
  exact hsorted.imp fun h => Int.neg_le_neg_iff.mp h

theorem newestFirst_perm (rows : List StoredLog) : (newestFirst rows).Perm rows :=
  sortedBy_perm _ rows

theorem getElem?_newestFirst_eq_none : (newestFirst rows)[keep]? = none ↔ rows.length ≤ keep := by
  rw [List.getElem?_eq_none_iff, (newestFirst_perm rows).length_eq]

/-- Rows at or under the quota are kept. -/
theorem kept_eq_self (h : rows.length ≤ keep) : kept keep rows = rows := by
  unfold kept
  rw [getElem?_newestFirst_eq_none.mpr h]

/-- What is kept can be counted in the sorted list. -/
theorem length_above (c : StoredLog) :
    (rows.filter fun r => c.executedAt < r.executedAt).length =
      ((newestFirst rows).filter fun r => c.executedAt < r.executedAt).length :=
  ((newestFirst_perm rows).filter _).length_eq.symm

theorem length_kept_le (keep : Nat) (rows : List StoredLog) : (kept keep rows).length ≤ keep := by
  unfold kept
  split
  next hnone => exact getElem?_newestFirst_eq_none.mp hnone
  next c hc =>
    rw [length_above]
    exact Cutoff.length_filter_above_le (falling_newestFirst rows) hc

/-- No row that is kept is older than one that is not. -/
theorem executedAt_le_of_kept {r s : StoredLog} (hr : r ∈ kept keep rows) (hs : s ∈ rows)
    (hgone : s ∉ kept keep rows) : s.executedAt ≤ r.executedAt := by
  cases hc : (newestFirst rows)[keep]? with
  | none =>
    rw [kept_eq_self (getElem?_newestFirst_eq_none.mp hc)] at hgone
    exact absurd hs hgone
  | some c =>
    simp only [kept, hc, List.mem_filter, decide_eq_true_iff] at hr hgone
    have hold : ¬ c.executedAt < s.executedAt := fun h => hgone ⟨hs, h⟩
    exact (not_lt.mp hold).trans hr.2.le

/-- The quota is filled exactly when no tie crosses it. -/
theorem length_kept_iff (hkeep : 0 < keep) (rows : List StoredLog) :
    (kept keep rows).length = min rows.length keep ↔ ¬ TiedAtQuota keep rows := by
  unfold kept
  split
  next hnone =>
    have hle := getElem?_newestFirst_eq_none.mp hnone
    refine iff_of_true (by omega) ?_
    rintro ⟨last, next, -, hnext, -⟩
    rw [hnone] at hnext
    cases hnext
  next c hc =>
    have hlt : keep < rows.length := by
      by_contra hle
      rw [getElem?_newestFirst_eq_none.mpr (by omega)] at hc
      cases hc
    rw [Nat.min_eq_right hlt.le, length_above,
      Cutoff.length_filter_above_iff (falling_newestFirst rows) hc hkeep]
    constructor
    · rintro hdrops ⟨last, next, hlast, hnext, heq⟩
      exact absurd heq (hdrops last next hlast hnext).ne'
    · intro htied last next hlast hnext
      have hle := (falling_newestFirst rows).le_of_lt hlast hnext (by omega)
      exact lt_of_le_of_ne hle fun heq => htied ⟨last, next, hlast, hnext, heq.symm⟩

/-! ## One turn of the loop -/

theorem logsOf_deleteWhere (logs : LogTable) (p : StoredLog → Bool) (q : String) :
    logsOf (logs.deleteWhere p) q = (logsOf logs q).filter fun r => !p r := by
  unfold logsOf Table.deleteWhere
  exact List.filter_comm _ _ _

theorem previewLogs_deleteWhere {p : StoredLog → Bool}
    (hp : ∀ r : StoredLog, r.queryId = none → p r = false) (logs : LogTable) :
    previewLogs (logs.deleteWhere p) = previewLogs logs := by
  unfold previewLogs Table.deleteWhere
  rw [List.filter_filter]
  refine List.filter_congr fun r _ => ?_
  by_cases hr : r.queryId = none
  · simp [hr, hp r hr]
  · simp [hr]

/-- `rowcount` -/
theorem length_deleteWhere (logs : LogTable) (p : StoredLog → Bool) :
    (logs.rows.filter p).length + (logs.deleteWhere p).rows.length = logs.rows.length := by
  unfold Table.deleteWhere
  exact (List.length_eq_length_filter_add p).symm

/-- What a step does to the table, whichever rows it deletes. -/
structure Deletes (logs after : LogTable) (removed : Nat) : Prop where
  sublist : after.rows.Sublist logs.rows
  removed : removed + after.rows.length = logs.rows.length

theorem Deletes.none (logs : LogTable) : Deletes logs logs 0 :=
  ⟨.refl _, Nat.zero_add _⟩

theorem Deletes.trans {mid after : LogTable} {m n : Nat} (h : Deletes logs mid m)
    (h' : Deletes mid after n) : Deletes logs after (m + n) := by
  have hm := h.removed
  have hn := h'.removed
  exact ⟨h'.sublist.trans h.sublist, by omega⟩

theorem deletes_deleteWhere (logs : LogTable) (p : StoredLog → Bool) :
    Deletes logs (logs.deleteWhere p) (logs.rows.filter p).length :=
  ⟨List.filter_sublist, length_deleteWhere logs p⟩

theorem deletes_trimQuery (keep : Nat) (logs : LogTable) (q : String) :
    Deletes logs (trimQuery keep logs q).1 (trimQuery keep logs q).2 := by
  unfold trimQuery
  split
  · exact .none logs
  · exact deletes_deleteWhere logs _

/-- A turn keeps what is to be kept of its query, and the other queries as they are. -/
theorem logsOf_trimQuery (keep : Nat) (logs : LogTable) (q q' : String) :
    logsOf (trimQuery keep logs q).1 q' =
      if q' = q then kept keep (logsOf logs q') else logsOf logs q' := by
  have hquery : ∀ r ∈ logsOf logs q', r.queryId = some q' := fun r hr =>
    decide_eq_true_iff.mp (List.mem_filter.mp hr).2
  unfold trimQuery
  split
  next hnone =>
    split
    next heq =>
      subst heq
      exact (kept_eq_self (getElem?_newestFirst_eq_none.mp hnone)).symm
    next => rfl
  next c hc =>
    rw [logsOf_deleteWhere]
    split
    next heq =>
      subst heq
      simp only [kept, hc]
      refine List.filter_congr fun r hr => ?_
      rw [hquery r hr, ← decide_not]
      simp
    next hne =>
      refine List.filter_eq_self.mpr fun r hr => ?_
      simp [hquery r hr, hne]

theorem previewLogs_trimQuery (keep : Nat) (logs : LogTable) (q : String) :
    previewLogs (trimQuery keep logs q).1 = previewLogs logs := by
  unfold trimQuery
  split
  · rfl
  · exact previewLogs_deleteWhere (fun r hr => by simp [hr]) logs

/-! ## The loop -/

theorem deletes_trimQueries (keep : Nat) (groups : List String) (logs : LogTable) :
    Deletes logs (trimQueries keep groups logs).1 (trimQueries keep groups logs).2 := by
  induction groups generalizing logs with
  | nil => exact .none logs
  | cons q rest ih => exact (deletes_trimQuery keep logs q).trans (ih _)

theorem previewLogs_trimQueries (keep : Nat) (groups : List String) (logs : LogTable) :
    previewLogs (trimQueries keep groups logs).1 = previewLogs logs := by
  induction groups generalizing logs with
  | nil => rfl
  | cons q rest ih => exact (ih _).trans (previewLogs_trimQuery keep logs q)

theorem logsOf_trimQueries (keep : Nat) (hgroups : groups.Nodup) (logs : LogTable) (q : String) :
    logsOf (trimQueries keep groups logs).1 q =
      if q ∈ groups then kept keep (logsOf logs q) else logsOf logs q := by
  induction groups generalizing logs with
  | nil => rfl
  | cons q' rest ih =>
    obtain ⟨hnew, hrest⟩ := List.nodup_cons.mp hgroups
    rw [trimQueries, ih hrest, logsOf_trimQuery]
    by_cases heq : q = q'
    · subst heq
      rw [if_neg hnew, if_pos rfl, if_pos List.mem_cons_self]
    · simp only [heq, List.mem_cons, false_or, if_false]

theorem nodup_overQuota (keep : Nat) (logs : LogTable) : (overQuota keep logs).Nodup :=
  (List.nodup_dedup _).filter _

theorem mem_overQuota : q ∈ overQuota keep logs ↔ keep < (logsOf logs q).length := by
  unfold overQuota
  rw [List.mem_filter, List.mem_dedup, List.mem_filterMap, decide_eq_true_iff,
    and_iff_right_iff_imp]
  intro hlt
  obtain ⟨r, hr⟩ := List.exists_mem_of_length_pos (Nat.zero_lt_of_lt hlt)
  obtain ⟨hmem, hquery⟩ := List.mem_filter.mp hr
  exact ⟨r, hmem, decide_eq_true_iff.mp hquery⟩

/-- After the loop over the groups each query has what is to be kept of it. -/
theorem logsOf_trimmed (hgroups : groups.Perm (overQuota keep logs)) (q : String) :
    logsOf (trimQueries keep groups logs).1 q = kept keep (logsOf logs q) := by
  rw [logsOf_trimQueries keep (hgroups.nodup_iff.mpr (nodup_overQuota keep logs))]
  split
  next => rfl
  next hnot =>
    rw [hgroups.mem_iff, mem_overQuota, Nat.not_lt] at hnot
    exact (kept_eq_self hnot).symm

/-- No query is left above the quota, so that there is no group to come back to. -/
theorem overQuota_trimmed (hgroups : groups.Perm (overQuota keep logs)) :
    overQuota keep (trimQueries keep groups logs).1 = [] := by
  refine List.eq_nil_iff_forall_not_mem.mpr fun q hq => ?_
  rw [mem_overQuota, logsOf_trimmed hgroups] at hq
  exact absurd (length_kept_le keep (logsOf logs q)) (Nat.not_le.mpr hq)

/-- **Trimming keeps exactly the newest rows** of each query, when no query has the last row to keep
and the first one past the quota at one time. -/
theorem trimsExactly_iff (keep : Nat) (hkeep : 0 < keep) (logs : LogTable) (groups : List String)
    (hgroups : groups.Perm (overQuota keep logs)) :
    TrimsExactly keep logs (trimQueries keep groups logs).1 (trimQueries keep groups logs).2 ↔
      ∀ q, ¬ TiedAtQuota keep (logsOf logs q) := by
  have hlogs := logsOf_trimmed hgroups
  have hdeletes := deletes_trimQueries keep groups logs
  constructor
  · intro h q
    have hlength := h.length q
    rw [hlogs] at hlength
    exact (length_kept_iff hkeep _).mp hlength
  · intro hties
    refine ⟨fun q => ?_, fun q r hr s hs hgone => ?_, previewLogs_trimQueries keep groups logs,
      fun q hunder => ?_, hdeletes.sublist, hdeletes.removed, fun again hagain => ?_⟩
    · rw [hlogs]
      exact (length_kept_iff hkeep _).mpr (hties q)
    · rw [hlogs] at hr hgone
      exact executedAt_le_of_kept hr hs hgone
    · rw [hlogs]
      exact kept_eq_self hunder
    · rw [overQuota_trimmed hgroups, List.perm_nil] at hagain
      subst hagain
      rfl

/-! ## Both limits -/

theorem deletes_deleteExpired (settings : RetentionSettings) (now : Instant) (logs : LogTable) :
    Deletes logs (deleteExpired settings now logs).1 (deleteExpired settings now logs).2 := by
  unfold deleteExpired
  split
  · exact deletes_deleteWhere logs _
  · exact .none logs

/-- What pruning guarantees, ties or not: both limits hold and the deleted rows are counted. -/
theorem pruneExecutionLogs_spec (settings : RetentionSettings) (now : Instant) (logs : LogTable) :
    Deletes logs (pruneExecutionLogs settings now logs).1 (pruneExecutionLogs settings now logs).2 ∧
      (0 < settings.logRetentionDays → ∀ r ∈ (pruneExecutionLogs settings now logs).1.rows,
        settings.cutoff now ≤ r.executedAt) ∧
      (0 < settings.maxLogsPerQuery → ∀ q,
        (logsOf (pruneExecutionLogs settings now logs).1 q).length ≤ settings.maxLogsPerQuery) := by
  have hexpired := deletes_deleteExpired settings now logs
  have hrecent : 0 < settings.logRetentionDays →
      ∀ r ∈ (deleteExpired settings now logs).1.rows, settings.cutoff now ≤ r.executedAt := by
    intro hdays r hr
    rw [deleteExpired, if_pos hdays] at hr
    simpa using (List.mem_filter.mp hr).2
  unfold pruneExecutionLogs
  by_cases hmax : 0 < settings.maxLogsPerQuery
  · have htrim := deletes_trimQueries settings.maxLogsPerQuery
      (overQuota settings.maxLogsPerQuery (deleteExpired settings now logs).1)
      (deleteExpired settings now logs).1
    simp only [hmax, if_true]
    refine ⟨hexpired.trans htrim, fun hdays r hr => hrecent hdays r (htrim.sublist.subset hr),
      fun _ q => ?_⟩
    rw [trimPerQuery, logsOf_trimmed (.refl _)]
    exact length_kept_le _ _
  · simp only [hmax, if_false]
    exact ⟨hexpired, hrecent, fun h => absurd h id⟩

end Trimming

section Examples

/-- A row of a successful run. -/
def ranAt (id queryId : String) (executedAt : Instant) : StoredLog :=
  { logSuccess (some queryId) none 1 1 none with id, executedAt }

/-- Two runs at one time that the quota does not separate, and an older one. -/
def separated : LogTable := ⟨[ranAt "1" "q" 5, ranAt "2" "q" 3, ranAt "3" "q" 5], by decide⟩

/-- Three runs at one time. -/
def tied : LogTable := ⟨[ranAt "1" "q" 5, ranAt "2" "q" 5, ranAt "3" "q" 5], by decide⟩

theorem separated_trimmed :
    TrimsExactly 2 separated (trimQueries 2 ["q"] separated).1
      (trimQueries 2 ["q"] separated).2 := by
  have hgroups : List.Perm ["q"] (overQuota 2 separated) := by decide
  refine (trimsExactly_iff 2 (by decide) separated ["q"] hgroups).mpr fun q => ?_
  by_cases hq : q = "q"
  · subst hq
    rintro ⟨last, next, hlast, hnext, htime⟩
    cases hlast
    cases hnext
    exact absurd htime (by decide)
  · have hnone : logsOf separated q = [] := by
      simp [logsOf, separated, ranAt, logSuccess, Ne.symm hq]
    rw [hnone]
    rintro ⟨last, next, hlast, -, -⟩
    cases hlast

/-- Two of three runs at one time are to be kept, and none is. -/
theorem tied_all_removed :
    (trimPerQuery 2 tied).1.rows = [] ∧
      ¬ TrimsExactly 2 tied (trimPerQuery 2 tied).1 (trimPerQuery 2 tied).2 := by
  have hnone : (trimPerQuery 2 tied).1.rows = [] := by decide
  refine ⟨hnone, fun h => ?_⟩
  have hlength := h.length "q"
  rw [logsOf, hnone] at hlength
  revert hlength
  decide

end Examples

end FraudAnalyzer.Queries.Logging
