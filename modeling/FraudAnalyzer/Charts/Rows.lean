import FraudAnalyzer.Charts.Machine

/-!
# Which rows a step leaves

A step of publishing or editing makes no chart appear under an id that was given out before, moves
no chart to another query and changes no owner.
-/

namespace FraudAnalyzer.Charts

open Python

section Commits

variable {db db' : Db} {id : String} {query' : SavedQuery}

/-- The queries that are left have the owners they had. -/
def KeepsOwners (db db' : Db) : Prop :=
  ∀ id query', db'.queries.get id = some query' →
    ∃ query, db.queries.get id = some query ∧ query'.ownerId = query.ownerId

theorem keepsOwners_of_queries_eq (h : db'.queries = db.queries) : KeepsOwners db db' := by
  intro id query' hquery
  exact ⟨query', h ▸ hquery, rfl⟩

theorem keepsOwners_commitUpdate {loaded : SavedQuery} {payload : SavedQueryUpdate}
    (h : commitUpdate db loaded payload = some db') : KeepsOwners db db' := by
  unfold commitUpdate at h
  obtain ⟨new, -, h⟩ := Option.bind_eq_some_iff.mp h
  split at h
  · obtain rfl := Option.some.inj h
    exact keepsOwners_of_queries_eq rfl
  obtain ⟨stored, -, h⟩ := Option.bind_eq_some_iff.mp h
  split at h
  · cases h
  obtain rfl := Option.some.inj h
  intro id query' hquery
  simp only [Table.get_modify] at hquery
  split at hquery
  · obtain ⟨query, hget, rfl⟩ := Option.map_eq_some_iff.mp hquery
    exact ⟨query, hget, rfl⟩
  · exact ⟨query', hquery, rfl⟩

theorem keepsOwners_commitDelete (queryId : String) : KeepsOwners db (commitDelete db queryId) := by
  intro id query' hquery
  simp only [commitDelete, Table.get_deleteWhere] at hquery
  exact ⟨query', (Option.filter_eq_some_iff.mp hquery).1, rfl⟩

theorem EditOp.keepsOwners {u : Unicode} {op : EditOp} {loaded : Loaded} {ids : List String}
    (h : op.commit u loaded db ids = some db') : KeepsOwners db db' := by
  unfold EditOp.commit at h
  split at h
  · exact keepsOwners_commitUpdate h
  · refine keepsOwners_of_queries_eq ?_
    obtain ⟨rules, rfl, -⟩ := commitRules_spec h
    rfl
  · refine keepsOwners_of_queries_eq ?_
    obtain ⟨updated, inserted, -, -, -, rfl⟩ := commitCharts_spec h
    rfl
  · obtain rfl := Option.some.inj h
    exact keepsOwners_commitDelete op.query.id

end Commits

/-- What a step leaves of the rows. -/
structure RowsKept (s t : State) : Prop where
  known : Known t
  issued : ∀ id ∈ s.issued, id ∈ t.issued
  charts : ∀ id chart', t.db.charts.get id = some chart' → id ∈ s.issued →
    ∃ chart, s.db.charts.get id = some chart ∧ chart'.queryId = chart.queryId
  owners : KeepsOwners s.db t.db
  referential : Referential s.db → Referential t.db

theorem rowsKept_of_step {E : Env} {s t : State} {a : Action} (hknown : Known s)
    (h : step E s a = some t) : RowsKept s t := by
  have heff := effect_of_step h
  refine ⟨hknown.effect heff, ?_, ?_, ?_, ?_⟩
  · cases heff with
    | idle _ hissued _ _ => exact hissued ▸ fun _ hid => hid
    | write _ _ => exact fun _ hid => hid
    | edit _ _ _ => exact fun _ hid => List.mem_append_left _ hid
  · intro id chart' hchart hid
    cases heff with
    | idle hdb _ _ _ => exact ⟨chart', hdb ▸ hchart, rfl⟩
    | write _ happly =>
      obtain ⟨chart, hget, hquery, -⟩ := (PublishWrite.writeEffect happly).get_charts hchart
      exact ⟨chart, hget, hquery⟩
    | edit hop hids hcommit =>
      have hstored := (hknown.loaded _ _ _ _ hop).stored
      obtain ⟨chart, hget, -, hquery⟩ := (EditOp.commit_effect hstored hcommit).get_charts
        (fun hnew => hids id hnew hid) hchart
      exact ⟨chart, hget, hquery⟩
  · cases heff with
    | idle hdb _ _ _ => exact keepsOwners_of_queries_eq (congrArg Db.queries hdb)
    | write _ happly => exact keepsOwners_of_queries_eq (PublishWrite.writeEffect happly).queries
    | edit _ _ hcommit => exact EditOp.keepsOwners hcommit
  · intro href
    cases heff with
    | idle hdb _ _ _ => exact hdb ▸ href
    | write _ happly =>
      have hwrite := PublishWrite.writeEffect happly
      intro id chart' hchart
      obtain ⟨chart, hget, hquery, -⟩ := hwrite.get_charts hchart
      rw [hwrite.queries, hquery]
      exact href id chart hget
    | edit hop _ hcommit =>
      exact (EditOp.commit_effect (hknown.loaded _ _ _ _ hop).stored hcommit).referential href

end FraudAnalyzer.Charts
