import FraudAnalyzer.Charts.Machine
import FraudAnalyzer.Connections.Coherence
import FraudAnalyzer.FlagRules.Badge
import FraudAnalyzer.Queries.Creating

/-!
# Findings in every run

The edits and publications of the charts machine, together with what creates and removes queries,
connections, findings and dismissals. A run of a query reads its rules when it starts and stores its
findings when it ends, and anything may be committed in between. The badge and the view agree in
every state of a run whose steps leave no findings without rules (`agrees_of_run`); a rule edit that
removes the last rule of a query with findings breaks them apart (`last_rule_removed`).
-/

namespace FraudAnalyzer.FlagRules

open Python Queries Charts

/-! ## The commit that removes queries -/

/-- `delete_connection`: its queries go with it, and their charts and rules. -/
def deleteConnection (db : Db) (connectionId : String) : Db :=
  let gone := fun queryId =>
    (db.queries.get queryId).any fun query => query.connectionId = connectionId
  { db with
    queries := db.queries.deleteWhere fun query => query.connectionId = connectionId
    charts := db.charts.deleteWhere fun chart => gone chart.queryId
    flagRules := db.flagRules.deleteWhere fun rule => gone rule.queryId }

namespace Findings

/-- A run in progress, with the rules it loaded. -/
structure PendingRun where
  queryId : String
  rules : List FlagRule

/-- What the target returned, and the lists as they were when it was judged. -/
structure RunResult where
  columns : List String
  rows : List (Row columns)
  lists : String → Option (List String)

structure State where
  app : Charts.State
  connections : Table Connections.Connection.id
  users : Table Users.User.id
  created : String → Instant
  flaggedRows : Table FlaggedRow.key
  dismissals : List FlagDismissal
  runs : Nat → Option PendingRun

def State.store (s : State) : Store :=
  ⟨s.app.db, s.connections, s.users, s.created, s.flaggedRows, s.dismissals⟩

/-- Nothing is in progress, and there are no findings. -/
def State.start (db : Db) (connections : Table Connections.Connection.id)
    (users : Table Users.User.id) (created : String → Instant) (dismissals : List FlagDismissal) :
    State :=
  ⟨Charts.State.start db, connections, users, created, Table.empty, dismissals, fun _ => none⟩

/-- A commit. The findings and the dismissals of a query go with it. -/
def State.withApp (s : State) (app : Charts.State) : State :=
  { s with
    app := app
    flaggedRows := s.flaggedRows.deleteWhere fun row => (app.db.queries.get row.queryId).isNone
    dismissals := s.dismissals.filter fun d => (app.db.queries.get d.queryId).isSome }

/-- `evaluate_flags` at the end of a run. -/
def PendingRun.flags (run : PendingRun) (E : Charts.Env) (result : RunResult) : Flags :=
  evaluateFlags E.unicode E.sha256Hex result.lists run.rules result.columns result.rows

/-- `sync` at the end of a run. -/
def State.synced (s : State) (E : Charts.Env) (run : PendingRun) (result : RunResult)
    (now : Instant) : Table FlaggedRow.key :=
  (sync E.sha256Hex s.flaggedRows run.queryId result.columns (result.rows.map fun row => row.val)
    (run.flags E result) now).1

inductive Action where
  /-- A step of an edit or of a publication. -/
  | app (a : Charts.Action)
  /-- `create_query`, once its statement has been tried. -/
  | createQuery (query : SavedQuery) (chartId : String) (now : Instant)
  | createConnection (conn : Connections.Connection)
  | deleteConnection (connectionId : String)
  | startRun (i : Nat) (queryId : String)
  | finishRun (i : Nat) (result : RunResult) (now : Instant)
  | deleteRows (user : User) (queryId : String) (fingerprints : Option (List String))
  | dismiss (user : User) (queryId : String) (fingerprints : List String)
  | restore (user : User) (queryId : String) (fingerprints : Option (List String))

/-- One step. A run that fails does not finish; one whose query is gone stores nothing. -/
def step (E : Charts.Env) (s : State) : Action → Option State
  | .app a => (Charts.step E s.app a).map s.withApp
  | .createQuery query chartId now =>
    if chartId ∈ s.app.issued ∨ s.connections.get query.connectionId = none then none
    else
      match Creating.commitCreate s.app.db query chartId with
      | none => some s
      | some db =>
        some { s with
          app := { s.app with db := db, issued := s.app.issued ++ [chartId] }
          created := Function.update s.created query.id now }
  | .createConnection conn =>
    (s.connections.insert conn).map fun connections => { s with connections := connections }
  | .deleteConnection connectionId =>
    some { s.withApp { s.app with db := FlagRules.deleteConnection s.app.db connectionId } with
      connections := s.connections.deleteWhere fun conn => conn.id = connectionId }
  | .startRun i queryId =>
    (s.app.db.queries.get queryId).map fun query =>
      { s with runs := Function.update s.runs i (some ⟨query.id, s.app.db.rulesOf query.id⟩) }
  | .finishRun i result now =>
    (s.runs i).map fun run =>
      { s with
        flaggedRows :=
          if s.app.db.queries.get run.queryId = none then s.flaggedRows
          else s.synced E run result now
        runs := Function.update s.runs i none }
  | .deleteRows user queryId fingerprints =>
    match getOwned s.app.db queryId user with
    | .error _ => some s
    | .ok _ =>
      some { s with flaggedRows := (FlagRules.deleteRows s.flaggedRows queryId fingerprints).1 }
  | .dismiss user queryId fingerprints =>
    match getViewable s.app.db queryId user with
    | .error _ => some s
    | .ok query =>
      some { s with
        dismissals := FlagRules.dismiss s.dismissals query.id user.id
          (fingerprints.filter fun f => (s.flaggedRows.get (query.id, f)).isSome) }
  | .restore user queryId fingerprints =>
    match getViewable s.app.db queryId user with
    | .error _ => some s
    | .ok query =>
      some { s with dismissals := FlagRules.restore s.dismissals query.id user.id fingerprints }

/-! ## Findings belong to queries with rules -/

/-- A query without rules has no findings. -/
def Ruled (s : State) : Prop :=
  ∀ id fingerprint, s.app.db.rulesOf id = [] → s.flaggedRows.get (id, fingerprint) = none

/-- The step leaves no findings without rules: an edit after which a query has no rule is of a
query without findings, and a run that flags a row ends while its query has rules. -/
def KeepsRules (E : Charts.Env) (s : State) : Action → Prop
  | .app (.commitEdit i ids) =>
    ∀ since op loaded specs, s.app.operations i = some ⟨since, .prepared op loaded⟩ →
      op.edit = .replaceRules specs → buildRules op.query.id ids specs = [] →
        (∀ rule ∈ s.app.db.rulesOf op.query.id, rule.id ∈ loaded.rules.map FlagRule.id) →
          ∀ fingerprint, s.flaggedRows.get (op.query.id, fingerprint) = none
  | .finishRun i result _ =>
    ∀ run, s.runs i = some run → s.app.db.queries.get run.queryId ≠ none →
      s.app.db.rulesOf run.queryId = [] → (run.flags E result).rows = []
  | _ => True

section Commits

variable {u : Unicode} {db db' : Db} {queryId : String} {ids : List String}

/-- The commits of an edit that touch no rule. -/
theorem flagRules_of_commit {op : EditOp} {loaded : Loaded}
    (h : op.commit u loaded db ids = some db')
    (hedit : (∃ payload, op.edit = .updateQuery payload) ∨
      ∃ charts, op.edit = .replaceCharts charts) :
    db'.flagRules = db.flagRules := by
  unfold EditOp.commit at h
  rcases hedit with ⟨payload, hedit⟩ | ⟨charts, hedit⟩
  · rw [hedit] at h
    simp only at h
    unfold commitUpdate at h
    obtain ⟨new, -, h⟩ := Option.bind_eq_some_iff.mp h
    split at h
    · obtain rfl := Option.some.inj h
      rfl
    obtain ⟨stored, -, h⟩ := Option.bind_eq_some_iff.mp h
    split at h
    · cases h
    · obtain rfl := Option.some.inj h
      rfl
  · rw [hedit] at h
    simp only at h
    obtain ⟨updated, inserted, -, -, -, rfl⟩ := commitCharts_spec h
    rfl

/-- After the commit there are the new rules, and those that were not loaded. -/
theorem eq_nil_of_commitRules {loaded : List FlagRule} {specs : List FlagRuleSpec}
    (h : commitRules db queryId loaded specs ids = some db') (hnone : db'.rulesOf queryId = []) :
    buildRules queryId ids specs = [] ∧
      ∀ rule ∈ db.rulesOf queryId, rule.id ∈ loaded.map FlagRule.id := by
  obtain ⟨rules, rfl, hrows⟩ := commitRules_spec h
  have hnot : ∀ rule ∈ rules.rows, rule.queryId ≠ queryId := by
    intro rule hrule hid
    have hmem : rule ∈ Db.rulesOf { db with flagRules := rules } queryId :=
      Db.mem_rulesOf.mpr ⟨hrule, hid⟩
    rw [hnone] at hmem
    exact absurd hmem List.not_mem_nil
  rw [hrows] at hnot
  refine ⟨List.eq_nil_iff_forall_not_mem.mpr fun rule hrule => ?_, fun rule hrule => ?_⟩
  · exact hnot rule (List.mem_append_right _ hrule) (queryId_of_mem_buildRules hrule).1
  · obtain ⟨hrow, hid⟩ := Db.mem_rulesOf.mp hrule
    by_contra hkept
    refine hnot rule (List.mem_append_left _ ?_) hid
    exact List.mem_filter.mpr ⟨hrow, by simpa using hkept⟩

theorem get_queries_commitDelete : (commitDelete db queryId).queries.get queryId = none :=
  db.queries.get_delete queryId

/-- After a connection is gone, a query of it is gone, and any other has its rules. -/
theorem rulesOf_deleteConnection (db : Db) (connectionId id : String) :
    (deleteConnection db connectionId).queries.get id = none ∨
      (deleteConnection db connectionId).rulesOf id = db.rulesOf id := by
  by_cases hgone : ((db.queries.get id).any fun query => query.connectionId = connectionId) = true
  · refine .inl ?_
    have hget := db.queries.get_deleteWhere (fun query => query.connectionId = connectionId) id
    refine hget.trans ?_
    obtain ⟨query, hquery, hconnection⟩ := (Option.any_eq_true _ _).mp hgone
    rw [hquery, Option.filter_some_neg]
    simpa using hconnection
  · refine .inr ?_
    unfold Db.rulesOf deleteConnection Table.deleteWhere
    dsimp only
    rw [List.filter_filter]
    refine congrArg (sortedBy FlagRule.position) (List.filter_congr fun rule _ => ?_)
    by_cases hid : rule.queryId = id
    · rw [hid]
      simp [hgone]
    · simp [hid]

end Commits

/-! ## One step -/

section Steps

variable {E : Charts.Env} {s t : State}

/-- What is known of the operations stays known when charts and rules go, and charts with new ids
come. -/
theorem known_of_tables {app app' : Charts.State} (h : Known app) (ids : List String)
    (hops : app'.operations = app.operations) (hissued : app'.issued = app.issued ++ ids)
    (hids : ∀ id ∈ ids, id ∉ app.issued)
    (hcharts : ∀ id c, app'.db.charts.get id = some c → app.db.charts.get id = some c ∨ id ∈ ids)
    (hrules : ∀ id r, app'.db.flagRules.get id = some r → app.db.flagRules.get id = some r) :
    Known app' := by
  refine ⟨?_, ?_, ?_⟩
  · intro id c hc
    rw [hissued, List.mem_append]
    exact (hcharts id c hc).imp_left (h.charts id c)
  · intro id r hr
    rw [hissued, List.mem_append]
    exact .inl (h.rules id r (hrules id r hr))
  · intro i since op loaded hop
    refine (h.loaded i since op loaded (hops ▸ hop)).mono ?_ ?_ fun id _ r => hrules id r
    · intro id hid
      rw [hissued, List.mem_append]
      exact .inl hid
    · intro id hid c hc
      rcases hcharts id c hc with hold | hnew
      · exact ⟨c, hold, rfl⟩
      · exact absurd hid (hids id hnew)

theorem get_withApp (app : Charts.State) (id fingerprint : String) :
    (s.withApp app).flaggedRows.get (id, fingerprint) =
      if app.db.queries.get id = none then none else s.flaggedRows.get (id, fingerprint) := by
  have hget := s.flaggedRows.get_deleteWhere
    (fun row => (app.db.queries.get row.queryId).isNone) (id, fingerprint)
  refine hget.trans ?_
  cases hrow : s.flaggedRows.get (id, fingerprint) with
  | none => simp
  | some row =>
    have hkey : row.key = (id, fingerprint) := Table.key_of_get hrow
    obtain ⟨rfl, rfl⟩ := Prod.mk.inj hkey
    cases hquery : app.db.queries.get row.queryId with
    | none => simp [hquery]
    | some query => simp [hquery]

/-- A commit keeps findings and rules together when each query is gone, or has its rules, or has
no findings. -/
theorem Ruled.withApp (h : Ruled s) {app : Charts.State}
    (hrules : ∀ id, app.db.queries.get id = none ∨
      (app.db.rulesOf id = [] → s.app.db.rulesOf id = []) ∨
        ∀ fingerprint, s.flaggedRows.get (id, fingerprint) = none) : Ruled (s.withApp app) := by
  intro id fingerprint hid
  rw [get_withApp]
  split
  · rfl
  next hthere =>
    rcases hrules id with hgone | hsame | hnone
    · exact absurd hgone hthere
    · exact h id fingerprint (hsame hid)
    · exact hnone fingerprint

/-- The edits and publications. -/
theorem Ruled.app (h : Ruled s) (hknown : Known s.app) {a : Charts.Action} {app : Charts.State}
    (hstep : Charts.step E s.app a = some app) (hok : KeepsRules E s (.app a)) :
    Ruled (s.withApp app) := by
  refine h.withApp fun id => ?_
  cases effect_of_step hstep with
  | idle hdb =>
    rw [hdb]
    exact .inr (.inl fun h => h)
  | write hop happly =>
    refine .inr (.inl fun hid => ?_)
    rw [← (PublishWrite.writeEffect happly).rulesOf id]
    exact hid
  | @edit i since op loaded ids db hop hids hcommit =>
    have heff := EditOp.commit_effect (hknown.loaded _ _ _ _ hop).stored hcommit
    by_cases hid : id = op.query.id
    · subst hid
      cases hedit : op.edit with
      | updateQuery payload =>
        rw [Db.rulesOf_congr (flagRules_of_commit hcommit (.inl ⟨payload, hedit⟩))]
        exact .inr (.inl fun h => h)
      | replaceCharts charts =>
        rw [Db.rulesOf_congr (flagRules_of_commit hcommit (.inr ⟨charts, hedit⟩))]
        exact .inr (.inl fun h => h)
      | deleteQuery =>
        unfold EditOp.commit at hcommit
        rw [hedit] at hcommit
        obtain rfl := Option.some.inj hcommit
        exact .inl get_queries_commitDelete
      | replaceRules specs =>
        by_cases hnone : db.rulesOf op.query.id = []
        · unfold EditOp.commit at hcommit
          rw [hedit] at hcommit
          obtain ⟨hbuilt, hloaded⟩ := eq_nil_of_commitRules hcommit hnone
          exact .inr (.inr (hok since op loaded specs hop hedit hbuilt hloaded))
        · exact .inr (.inl fun h => absurd h hnone)
    · rw [heff.other_rules id hid]
      exact .inr (.inl fun h => h)

/-- A run that ends. -/
theorem Ruled.synced (h : Ruled s) {run : PendingRun} {result : RunResult} {now : Instant}
    (hok : s.app.db.rulesOf run.queryId = [] → (run.flags E result).rows = [])
    {id fingerprint : String}
    (hid : s.app.db.rulesOf id = []) :
    (s.synced E run result now).get (id, fingerprint) = none := by
  unfold State.synced
  rw [get_sync]
  split
  next hrun =>
    subst hrun
    rw [matchedBy, hok hid]
    rfl
  next => exact h id fingerprint hid

/-- What every state has that keeps rules and findings together. -/
structure Inv (s : State) : Prop where
  known : Known s.app
  ruled : Ruled s

theorem inv_start (db : Db) (connections : Table Connections.Connection.id)
    (users : Table Users.User.id) (created : String → Instant) (dismissals : List FlagDismissal) :
    Inv (State.start db connections users created dismissals) where
  known := known_start db
  ruled _ _ _ := rfl

/-- A step that commits nothing, and stores no finding where there was none. -/
theorem Inv.of_app_eq (h : Inv s) (happ : t.app = s.app)
    (hrows : ∀ id fingerprint, s.app.db.rulesOf id = [] →
      t.flaggedRows.get (id, fingerprint) = none) : Inv t where
  known := happ ▸ h.known
  ruled id fingerprint hid := hrows id fingerprint (happ ▸ hid)

theorem Inv.createQuery (h : Inv s) {query : SavedQuery} {chartId : String} {now : Instant}
    (hstep : step E s (.createQuery query chartId now) = some t) : Inv t := by
  unfold Findings.step at hstep
  simp only at hstep
  split at hstep
  · cases hstep
  next hnew =>
    split at hstep
    · obtain rfl := Option.some.inj hstep
      exact h
    next db hcreate =>
      obtain rfl := Option.some.inj hstep
      have hcreated := Creating.created_of_commitCreate hcreate
      refine ⟨?_, ?_⟩
      · refine known_of_tables h.known [chartId] rfl rfl ?_ ?_ ?_
        · intro id hid
          rw [List.mem_singleton.mp hid]
          exact fun hissued => hnew (.inl hissued)
        · intro id c hc
          rw [hcreated.charts] at hc
          split at hc
          next hid => exact .inr (List.mem_singleton.mpr hid)
          · exact .inl hc
        · intro id r hr
          exact hcreated.flagRules ▸ hr
      · intro id fingerprint hid
        exact h.ruled id fingerprint ((Db.rulesOf_congr hcreated.flagRules id).symm.trans hid)

theorem Inv.deleteConnection (h : Inv s) {connectionId : String}
    (hstep : step E s (.deleteConnection connectionId) = some t) : Inv t := by
  obtain rfl := Option.some.inj hstep
  refine ⟨?_, ?_⟩
  · refine known_of_tables h.known [] rfl (List.append_nil _).symm nofun ?_ ?_
    · intro id c hc
      have hget := s.app.db.charts.get_deleteWhere (fun chart =>
        (s.app.db.queries.get chart.queryId).any fun query => query.connectionId = connectionId) id
      exact .inl (Option.filter_eq_some_iff.mp (hget.symm.trans hc)).1
    · intro id r hr
      have hget := s.app.db.flagRules.get_deleteWhere (fun rule =>
        (s.app.db.queries.get rule.queryId).any fun query => query.connectionId = connectionId) id
      exact (Option.filter_eq_some_iff.mp (hget.symm.trans hr)).1
  · have hruled : Ruled (s.withApp { s.app with
        db := FlagRules.deleteConnection s.app.db connectionId }) := by
      refine h.ruled.withApp fun id => ?_
      rcases rulesOf_deleteConnection s.app.db connectionId id with hgone | hsame
      · exact .inl hgone
      · exact .inr (.inl fun hid => hsame ▸ hid)
    exact hruled

/-- **One step** that leaves no findings without rules. -/
theorem Inv.step (h : Inv s) {a : Action} (hstep : step E s a = some t) (hok : KeepsRules E s a) :
    Inv t := by
  cases a with
  | app a =>
    obtain ⟨app, happ, rfl⟩ := Option.map_eq_some_iff.mp hstep
    exact ⟨h.known.effect (effect_of_step happ), h.ruled.app h.known happ hok⟩
  | createQuery query chartId now => exact h.createQuery hstep
  | createConnection conn =>
    obtain ⟨connections, -, rfl⟩ := Option.map_eq_some_iff.mp hstep
    exact h.of_app_eq rfl h.ruled
  | deleteConnection connectionId => exact h.deleteConnection hstep
  | startRun i queryId =>
    obtain ⟨query, -, rfl⟩ := Option.map_eq_some_iff.mp hstep
    exact h.of_app_eq rfl h.ruled
  | finishRun i result now =>
    obtain ⟨run, hrun, rfl⟩ := Option.map_eq_some_iff.mp hstep
    refine h.of_app_eq rfl fun id fingerprint hid => ?_
    dsimp only
    split
    · exact h.ruled id fingerprint hid
    next hthere => exact h.ruled.synced (hok run hrun hthere) hid
  | deleteRows user queryId fingerprints =>
    unfold Findings.step at hstep
    simp only at hstep
    split at hstep
    · obtain rfl := Option.some.inj hstep
      exact h
    · obtain rfl := Option.some.inj hstep
      refine h.of_app_eq rfl fun id fingerprint hid => ?_
      dsimp only
      rw [get_deleteRows, h.ruled id fingerprint hid]
      split
      · rfl
      · rfl
  | dismiss user queryId fingerprints =>
    unfold Findings.step at hstep
    simp only at hstep
    split at hstep
    · obtain rfl := Option.some.inj hstep
      exact h
    · obtain rfl := Option.some.inj hstep
      exact h.of_app_eq rfl h.ruled
  | restore user queryId fingerprints =>
    unfold Findings.step at hstep
    simp only at hstep
    split at hstep
    · obtain rfl := Option.some.inj hstep
      exact h
    · obtain rfl := Option.some.inj hstep
      exact h.of_app_eq rfl h.ruled

/-- Without findings there is nothing to show. -/
theorem Ruled.agrees (h : Ruled s) (results : ResultCache Body) (now : Clock) (user : User) :
    Agrees s.store results now user := by
  rw [agrees_iff]
  intro query _ _ _ hrules
  have hnone : s.flaggedRows.rows.filter (fun row => row.queryId = query.id) = [] := by
    rw [List.filter_eq_nil_iff]
    intro row hrow hid
    have hid : row.queryId = query.id := by simpa using hid
    have hget := h query.id row.rowFingerprint hrules
    rw [← hid] at hget
    exact absurd (hget.symm.trans (Table.get_of_mem hrow)) nofun
  unfold undismissed rowsForQuery
  rw [show s.store.flaggedRows.rows.filter (fun row => row.queryId = query.id) = [] from hnone]
  rfl

end Steps

/-- **The badge and the view agree** for every user in every state of a run that leaves no findings
without rules. -/
theorem agrees_of_run {E : Charts.Env} {db : Db} {connections : Table Connections.Connection.id}
    {users : Table Users.User.id} {created : String → Instant} {dismissals : List FlagDismissal}
    {s : State} {as : List Action}
    (h : Machine.Run (step E) (KeepsRules E)
      (State.start db connections users created dismissals) as s)
    (results : ResultCache Body) (now : Clock) (user : User) : Agrees s.store results now user := by
  have hinv : Inv s := h.invariant (fun _ _ _ hI hstep hok => hI.step hstep hok)
    (inv_start db connections users created dismissals)
  exact hinv.ruled.agrees results now user

namespace Sample

/-- A fingerprint for every row is enough here. -/
def env : Charts.Env := ⟨.ascii, fun _ => "x", .default⟩

/-- A query of an analyst, with one rule. -/
def db : Db where
  queries := Charts.Sample.db.queries
  charts := Table.empty
  flagRules := ⟨[⟨"r", "q", "Present", .high, true, 0,
    [⟨0, "amount", .isNotNull, none, none, none⟩]⟩], by simp⟩
  auditLogs := []

def start : State := State.start db Connections.Sample.rows Table.empty (fun _ => 0) []

def oneRow : RunResult := ⟨["amount"], [.single (.int 900)], fun _ => none⟩

/-- A run that flags a row, and an edit that takes the last rule away. -/
def lastRuleRemoved : List Action :=
  [.startRun 0 "q", .finishRun 0 oneRow 1,
    .app (.openEdit 0 Charts.Sample.author "q" (.replaceRules [])), .app (.guardEdit 0),
    .app (.prepareEdit 0), .app (.commitEdit 0 [])]

end Sample

/-- One run. -/
theorem agrees_of_run_once :
    ∃ s, Machine.Run (step Sample.env) (KeepsRules Sample.env) Sample.start
        [.startRun 0 "q", .finishRun 0 Sample.oneRow 1] s ∧
      (summary s.store Charts.Sample.author).connectionCount "db" = 1 ∧
      Agrees s.store .empty ⟨0, 0⟩ Charts.Sample.author := by
  have hrun : ∃ s, Machine.Run (step Sample.env) (KeepsRules Sample.env) Sample.start
      [.startRun 0 "q", .finishRun 0 Sample.oneRow 1] s ∧
      (summary s.store Charts.Sample.author).connectionCount "db" = 1 := by
    refine ⟨_, .cons rfl trivial (.cons rfl ?_ (.nil _)), rfl⟩
    intro run hrun _ hrules
    obtain rfl := Option.some.inj hrun
    exact absurd hrules (by decide)
  obtain ⟨s, hrun, hcount⟩ := hrun
  exact ⟨s, hrun, hcount, agrees_of_run hrun .empty ⟨0, 0⟩ Charts.Sample.author⟩

/-- The summary still counts the finding, and the view has no section for it. -/
theorem last_rule_removed :
    ∃ as s, Machine.Run (step Sample.env) Machine.Always Sample.start as s ∧
      (summary s.store Charts.Sample.author).connectionCount "db" = 1 ∧
      (flaggedForConnection s.store .empty ⟨0, 0⟩ "db" Charts.Sample.author).flaggedCount = 0 ∧
      ¬ Agrees s.store .empty ⟨0, 0⟩ Charts.Sample.author := by
  have hrun : ∃ s, Machine.Run (step Sample.env) Machine.Always Sample.start
      Sample.lastRuleRemoved s ∧
      (summary s.store Charts.Sample.author).connectionCount "db" = 1 ∧
      (flaggedForConnection s.store .empty ⟨0, 0⟩ "db" Charts.Sample.author).flaggedCount = 0 ∧
      Connections.Sample.connection ∈ s.store.connections.rows :=
    ⟨_, Machine.run_of_exec rfl, rfl, rfl, List.mem_cons_self⟩
  obtain ⟨s, hrun, hbadge, hview, hconn⟩ := hrun
  refine ⟨_, s, hrun, hbadge, hview, fun h => ?_⟩
  have hsame : (summary s.store Charts.Sample.author).connectionCount "db" =
      (flaggedForConnection s.store .empty ⟨0, 0⟩ "db" Charts.Sample.author).flaggedCount :=
    h.connection _ hconn
  rw [hbadge, hview] at hsame
  cases hsame

end Findings

end FraudAnalyzer.FlagRules
