import FraudAnalyzer.Charts.Editing
import FraudAnalyzer.Lib.Run
import Mathlib.Logic.Function.Basic

/-!
# Publishing and editing together

The operations of any number of requests, interleaved at every read and every commit. The app
database is read one statement at a time, so an operation sees what is committed at each read; a
conditional `UPDATE` with its audit entry, and the flush of an edit, are one transaction each.

`step` is what one request does next. `Effect` says all that a step can do; the invariants of the
later modules are proved from it and never from `step`. `history` and `since` are for the
statements only: no step reads them.
-/

namespace FraudAnalyzer.Charts

open Python Queries

structure Env where
  unicode : Unicode
  sha256Hex : Sha256Hex
  settings : Settings

/-- What the statements refer to of a run's past. -/
inductive Event where
  /-- A request or a publication of the chart took effect. -/
  | frozen (chartId : String)
  /-- An edit changed or removed the definition of the chart. -/
  | changed (chartId : String)
  deriving DecidableEq

/-- Where an operation stands. -/
inductive Stage where
  | write (user : User) (chart : QueryChart) (call : PublishCall)
  | approveQuery (user : User) (read : ApproveRead)
  | approveRules (user : User) (read : ApproveRead) (query : SavedQuery)
  | opened (op : EditOp)
  | guarded (op : EditOp)
  | prepared (op : EditOp) (loaded : Loaded)

/-- An operation, with how long the history was when it read the charts it decides from. -/
structure Operation where
  since : Nat
  stage : Stage

structure State where
  db : Db
  operations : Nat → Option Operation
  /-- The row ids given out so far, which are never given out again. -/
  issued : List String
  history : List Event

/-- No operation is in progress. -/
def State.start (db : Db) : State :=
  ⟨db, fun _ => none, db.charts.rows.map QueryChart.id ++ db.flagRules.rows.map FlagRule.id, []⟩

def State.put (s : State) (i : Nat) (op : Operation) : State :=
  { s with operations := Function.update s.operations i (some op) }

def State.drop (s : State) (i : Nat) : State :=
  { s with operations := Function.update s.operations i none }

def Begun.stage (user : User) : Begun → Stage
  | .write chart call => .write user chart call
  | .approveQuery read => .approveQuery user read

def PublishCall.events (call : PublishCall) (chartId : String) : List Event :=
  match call with
  | .publish _ => [.frozen chartId]
  | _ => []

/-- The charts whose stored definition differs between two databases. -/
def changedEvents (db db' : Db) : List Event :=
  ((db.charts.rows.map QueryChart.id).filter fun id => coveredOf db' id ≠ coveredOf db id).map
    .changed

/-- The row limit of an update, resolved before the dry run. -/
def Edit.resolve (settings : Settings) : Edit → Except AppError Edit
  | .updateQuery payload =>
    match payload.rowLimit with
    | some (some limit) =>
      (resolveRowLimit settings (some limit)).map fun limit =>
        .updateQuery { payload with rowLimit := some (some limit) }
    | _ => .ok (.updateQuery payload)
  | edit => .ok edit

inductive Action where
  | beginPublish (i : Nat) (user : User) (chartId : String) (request : PublishRequest)
  | readQuery (i : Nat)
  | readRules (i : Nat)
  | write (i : Nat) (now : Instant)
  | openEdit (i : Nat) (user : User) (queryId : String) (edit : Edit)
  | guardEdit (i : Nat)
  | prepareEdit (i : Nat)
  | commitEdit (i : Nat) (ids : List String)
  | abort (i : Nat)

/-- One step of one request. A call that is refused ends; starting a call under a number in use
abandons the call that had it. `abort` is a dry run that fails, or a client that goes away. -/
def step (E : Env) (s : State) : Action → Option State
  | .beginPublish i user chartId request =>
    match beginRequest E.unicode s.db user chartId request with
    | .error _ => some s
    | .ok begun => some (s.put i ⟨s.history.length, begun.stage user⟩)
  | .readQuery i =>
    match s.operations i with
    | some ⟨since, .approveQuery user read⟩ =>
      match s.db.queries.get read.chart.queryId with
      | none => some (s.drop i)
      | some query => some (s.put i ⟨since, .approveRules user read query⟩)
    | _ => none
  | .readRules i =>
    match s.operations i with
    | some ⟨since, .approveRules user read query⟩ =>
      match compareFingerprint E.sha256Hex read query (s.db.rulesOf read.chart.queryId) with
      | .error _ => some (s.drop i)
      | .ok () => some (s.put i ⟨since, .write user read.chart (.approve read)⟩)
    | _ => none
  | .write i now =>
    match s.operations i with
    | some ⟨since, .write user chart call⟩ =>
      match (call.write user now).applyIf s.db user chart with
      | some db => some { s.drop i with db := db, history := s.history ++ call.events chart.id }
      | none =>
        match call with
        | .cancelRequest => some (s.put i ⟨since, .write user chart .dismissRejection⟩)
        | _ => some (s.drop i)
    | _ => none
  | .openEdit i user queryId edit =>
    match getOwned s.db queryId user with
    | .error _ => some s
    | .ok query => some (s.put i ⟨s.history.length, .opened ⟨user, query, edit⟩⟩)
  | .guardEdit i =>
    match s.operations i with
    | some ⟨_, .opened op⟩ =>
      match guardFrozen s.db op.query op.user with
      | .error _ => some (s.drop i)
      | .ok () => some (s.put i ⟨s.history.length, .guarded op⟩)
    | _ => none
  | .prepareEdit i =>
    match s.operations i with
    | some ⟨since, .guarded op⟩ =>
      match op.edit.resolve E.settings with
      | .error _ => some (s.drop i)
      | .ok edit =>
        some (s.put i ⟨since, .prepared { op with edit := edit }
          ⟨s.db.rulesOf op.query.id, s.db.chartsOf op.query.id⟩⟩)
    | _ => none
  | .commitEdit i ids =>
    match s.operations i with
    | some ⟨_, .prepared op loaded⟩ =>
      if ∀ id ∈ ids, id ∉ s.issued then
        match op.commit E.unicode loaded s.db ids with
        | none => some (s.drop i)
        | some db =>
          some
            { s.drop i with
              db := db, issued := s.issued ++ ids,
              history := s.history ++ changedEvents s.db db }
      else none
    | _ => none
  | .abort i => some (s.drop i)

/-! ## What a step can do -/

/-- How an operation comes to its stage, out of the one that was in its place. -/
inductive Advance (E : Env) (s : State) : Option Operation → Operation → Prop
  | decided {old user chartId request chart call}
      (h : beginRequest E.unicode s.db user chartId request = .ok (.write chart call)) :
      Advance E s old ⟨s.history.length, .write user chart call⟩
  | reviewing {old user chartId request read}
      (h : beginRequest E.unicode s.db user chartId request = .ok (.approveQuery read)) :
      Advance E s old ⟨s.history.length, .approveQuery user read⟩
  | query {since user read query} (h : s.db.queries.get read.chart.queryId = some query) :
      Advance E s (some ⟨since, .approveQuery user read⟩) ⟨since, .approveRules user read query⟩
  | compared {since user read query}
      (h : compareFingerprint E.sha256Hex read query (s.db.rulesOf read.chart.queryId) = .ok ()) :
      Advance E s (some ⟨since, .approveRules user read query⟩)
        ⟨since, .write user read.chart (.approve read)⟩
  | dismiss {since user chart} :
      Advance E s (some ⟨since, .write user chart .cancelRequest⟩)
        ⟨since, .write user chart .dismissRejection⟩
  | opened {old user queryId edit query} (h : getOwned s.db queryId user = .ok query) :
      Advance E s old ⟨s.history.length, .opened ⟨user, query, edit⟩⟩
  | guarded {since op} (h : guardFrozen s.db op.query op.user = .ok ()) :
      Advance E s (some ⟨since, .opened op⟩) ⟨s.history.length, .guarded op⟩
  | prepared {since op edit} (h : op.edit.resolve E.settings = .ok edit) :
      Advance E s (some ⟨since, .guarded op⟩)
        ⟨since, .prepared { op with edit := edit }
          ⟨s.db.rulesOf op.query.id, s.db.chartsOf op.query.id⟩⟩

/-- Every operation of `t` is one of `s`, or has advanced. -/
def Operations (E : Env) (s t : State) : Prop :=
  ∀ j op, t.operations j = some op →
    s.operations j = some op ∨ Advance E s (s.operations j) op

/-- All that one step can do: nothing is committed, or one conditional write is, or one edit. -/
inductive Effect (E : Env) (s : State) : Action → State → Prop
  | idle {a : Action} {t : State} (hdb : t.db = s.db) (hissued : t.issued = s.issued)
      (hhistory : t.history = s.history) (hops : Operations E s t) : Effect E s a t
  | write {i since user chart call now db}
      (hop : s.operations i = some ⟨since, .write user chart call⟩)
      (happly : (call.write user now).applyIf s.db user chart = some db) :
      Effect E s (.write i now)
        { s.drop i with db := db, history := s.history ++ call.events chart.id }
  | edit {i since op loaded ids db} (hop : s.operations i = some ⟨since, .prepared op loaded⟩)
      (hids : ∀ id ∈ ids, id ∉ s.issued)
      (hcommit : op.commit E.unicode loaded s.db ids = some db) :
      Effect E s (.commitEdit i ids)
        { s.drop i with
          db := db, issued := s.issued ++ ids, history := s.history ++ changedEvents s.db db }

section Steps

variable {E : Env} {s t : State} {a : Action}

theorem of_operations_drop {i j : Nat} {op : Operation} (h : (s.drop i).operations j = some op) :
    s.operations j = some op := by
  simp only [State.drop, Function.update_apply] at h
  split at h
  · cases h
  · exact h

theorem operations_put {i : Nat} {op : Operation} (h : Advance E s (s.operations i) op) :
    Operations E s (s.put i op) := by
  intro j op' hop
  simp only [State.put, Function.update_apply] at hop
  split at hop
  next hj =>
    obtain rfl := Option.some.inj hop
    exact .inr (hj ▸ h)
  · exact .inl hop

theorem Effect.refl : Effect E s a s := .idle rfl rfl rfl fun _ _ h => .inl h

theorem Effect.drop (i : Nat) : Effect E s a (s.drop i) :=
  .idle rfl rfl rfl fun _ _ h => .inl (of_operations_drop h)

theorem Effect.put {i : Nat} {op : Operation} (h : Advance E s (s.operations i) op) :
    Effect E s a (s.put i op) :=
  .idle rfl rfl rfl (operations_put h)

end Steps

/-- **Inversion of `step`.** -/
theorem effect_of_step {E : Env} {s t : State} {a : Action} (h : step E s a = some t) :
    Effect E s a t := by
  unfold step at h
  split at h
  case h_1 i user chartId request =>
    split at h
    · obtain rfl := Option.some.inj h
      exact .refl
    next begun hbegin =>
      obtain rfl := Option.some.inj h
      cases begun with
      | write chart call => exact .put (.decided hbegin)
      | approveQuery read => exact .put (.reviewing hbegin)
  case h_2 i =>
    split at h
    next hop =>
      split at h
      · obtain rfl := Option.some.inj h
        exact .drop i
      next hquery =>
        obtain rfl := Option.some.inj h
        exact .put (hop ▸ .query hquery)
    · cases h
  case h_3 i =>
    split at h
    next hop =>
      split at h
      · obtain rfl := Option.some.inj h
        exact .drop i
      next hsame =>
        obtain rfl := Option.some.inj h
        exact .put (hop ▸ .compared hsame)
    · cases h
  case h_4 i now =>
    split at h
    next hop =>
      split at h
      next happly =>
        obtain rfl := Option.some.inj h
        exact .write hop happly
      · split at h
        · obtain rfl := Option.some.inj h
          exact .put (hop ▸ .dismiss)
        · obtain rfl := Option.some.inj h
          exact .drop i
    · cases h
  case h_5 i user queryId edit =>
    split at h
    · obtain rfl := Option.some.inj h
      exact .refl
    next howned =>
      obtain rfl := Option.some.inj h
      exact .put (.opened howned)
  case h_6 i =>
    split at h
    next hop =>
      split at h
      · obtain rfl := Option.some.inj h
        exact .drop i
      next hguard =>
        obtain rfl := Option.some.inj h
        exact .put (hop ▸ .guarded hguard)
    · cases h
  case h_7 i =>
    split at h
    next hop =>
      split at h
      · obtain rfl := Option.some.inj h
        exact .drop i
      next hresolve =>
        obtain rfl := Option.some.inj h
        exact .put (hop ▸ .prepared hresolve)
    · cases h
  case h_8 i ids =>
    split at h
    next hop =>
      split at h
      next hids =>
        split at h
        · obtain rfl := Option.some.inj h
          exact .drop i
        next hcommit =>
          obtain rfl := Option.some.inj h
          exact .edit hop hids hcommit
      · cases h
    · cases h
  case h_9 i =>
    obtain rfl := Option.some.inj h
    exact .drop i

/-! ## Conditional writes -/

/-- What a conditional write that matched does. -/
structure WriteEffect (w : PublishWrite) (user : User) (chart : QueryChart) (db db' : Db) :
    Prop where
  row : ∃ row, db.charts.get chart.id = some row ∧ w.conditions row.toPublishColumns = true
  charts : ∀ id, db'.charts.get id =
    if id = chart.id then (db.charts.get id).map (setPublish w.values) else db.charts.get id
  queries : db'.queries = db.queries
  flagRules : db'.flagRules = db.flagRules
  audit : db'.auditLogs =
    db.auditLogs ++ (w.audit.map fun a => auditEntry user chart a.1 a.2).toList

section Writes

variable {w : PublishWrite} {user : User} {chart : QueryChart} {db db' : Db}

theorem PublishWrite.writeEffect (h : w.applyIf db user chart = some db') :
    WriteEffect w user chart db db' := by
  unfold PublishWrite.applyIf at h
  split at h
  · cases h
  next row hrow =>
    split at h
    next hcond =>
      obtain rfl := Option.some.inj h
      exact ⟨⟨row, hrow, hcond⟩,
        fun id => Table.get_modify _ chart.id id (setPublish w.values) (setPublish_id w.values),
        rfl, rfl, rfl⟩
    · cases h

/-- A conditional write takes place exactly when its row is in the expected state. -/
theorem PublishWrite.applyIf_eq_none :
    w.applyIf db user chart = none ↔
      ¬ ∃ row, db.charts.get chart.id = some row ∧ w.conditions row.toPublishColumns = true := by
  unfold PublishWrite.applyIf
  split
  next hnone => simp [hnone]
  next row hrow =>
    split
    next hcond => simp [hrow, hcond]
    next hcond => simp [hrow, hcond]

theorem WriteEffect.get_charts (h : WriteEffect w user chart db db') {id : String}
    {row' : QueryChart} (hrow : db'.charts.get id = some row') :
    ∃ row, db.charts.get id = some row ∧ row'.queryId = row.queryId ∧
      row'.toChartMapping = row.toChartMapping := by
  rw [h.charts id] at hrow
  split at hrow
  · obtain ⟨row, hget, rfl⟩ := Option.map_eq_some_iff.mp hrow
    exact ⟨row, hget, rfl, rfl⟩
  · exact ⟨row', hrow, rfl, rfl⟩

theorem WriteEffect.rulesOf (h : WriteEffect w user chart db db') (queryId : String) :
    db'.rulesOf queryId = db.rulesOf queryId := by
  unfold Db.rulesOf
  rw [h.flagRules]

/-- Publishing changes no definition. -/
theorem WriteEffect.coveredOf (h : WriteEffect w user chart db db') (id : String) :
    coveredOf db' id = coveredOf db id := by
  unfold Charts.coveredOf
  rw [h.charts id, h.queries]
  simp only [h.rulesOf]
  split
  · rw [Option.bind_map]
    rfl
  · rfl

end Writes

/-! ## Row ids -/

/-- The rows a session loaded have ids that were given out, and the rows that have these ids now
belong to the same query. -/
structure LoadedKnown (s : State) (queryId : String) (loaded : Loaded) : Prop where
  charts : ∀ l ∈ loaded.charts, l.id ∈ s.issued
  rules : ∀ l ∈ loaded.rules, l.id ∈ s.issued
  stored : LoadedFor s.db queryId loaded

/-- Every row's id was given out. -/
structure Known (s : State) : Prop where
  charts : ∀ id c, s.db.charts.get id = some c → id ∈ s.issued
  rules : ∀ id r, s.db.flagRules.get id = some r → id ∈ s.issued
  loaded : ∀ i since op loaded, s.operations i = some ⟨since, .prepared op loaded⟩ →
    LoadedKnown s op.query.id loaded

section Known

variable {E : Env} {s t : State} {db : Db}

theorem known_start (db : Db) : Known (State.start db) where
  charts id c h := by
    refine List.mem_append_left _ (List.mem_map.mpr ⟨c, Table.mem_of_get h, Table.key_of_get h⟩)
  rules id r h := by
    refine List.mem_append_right _ (List.mem_map.mpr ⟨r, Table.mem_of_get h, Table.key_of_get h⟩)
  loaded i since op loaded h := by cases h

/-- What a session loads now is known. -/
theorem Known.loadedKnown (h : Known s) (queryId : String) :
    LoadedKnown s queryId ⟨s.db.rulesOf queryId, s.db.chartsOf queryId⟩ := by
  refine ⟨?_, ?_, ?_, ?_⟩
  · intro l hl
    exact h.charts l.id l (Table.get_of_mem (Db.mem_chartsOf.mp hl).1)
  · intro l hl
    exact h.rules l.id l (Table.get_of_mem (Db.mem_rulesOf.mp hl).1)
  · intro l hl c hc
    obtain ⟨hmem, hquery⟩ := Db.mem_chartsOf.mp hl
    rw [Table.get_of_mem hmem] at hc
    exact Option.some.inj hc ▸ hquery
  · intro l hl r hr
    obtain ⟨hmem, hquery⟩ := Db.mem_rulesOf.mp hl
    rw [Table.get_of_mem hmem] at hr
    exact Option.some.inj hr ▸ hquery

/-- The rows of an operation stay known as long as no stored row takes one of their ids, or moves
to another query. -/
theorem LoadedKnown.mono {queryId : String} {loaded : Loaded} (h : LoadedKnown s queryId loaded)
    (hissued : ∀ id ∈ s.issued, id ∈ t.issued)
    (hcharts : ∀ id ∈ s.issued, ∀ c', t.db.charts.get id = some c' →
      ∃ c, s.db.charts.get id = some c ∧ c'.queryId = c.queryId)
    (hrules : ∀ id ∈ s.issued, ∀ r, t.db.flagRules.get id = some r →
      s.db.flagRules.get id = some r) : LoadedKnown t queryId loaded := by
  refine ⟨fun l hl => hissued _ (h.charts l hl), fun l hl => hissued _ (h.rules l hl), ?_, ?_⟩
  · intro l hl c' hc'
    obtain ⟨c, hc, hquery⟩ := hcharts _ (h.charts l hl) c' hc'
    exact hquery.trans (h.stored.charts l hl c hc)
  · intro l hl r hr
    exact h.stored.rules l hl r (hrules _ (h.rules l hl) r hr)

theorem EditEffect.get_charts {queryId : String} {ids : List String} {db db' : Db}
    (h : EditEffect queryId ids db db') {id : String} (hid : id ∉ ids) {c' : QueryChart}
    (hc' : db'.charts.get id = some c') :
    ∃ c, db.charts.get id = some c ∧ c'.toPublishColumns = c.toPublishColumns ∧
      c'.queryId = c.queryId := by
  rcases h.chart_of id c' hc' with hold | ⟨hnew, -, -⟩
  · exact hold
  · exact absurd hnew hid

theorem Known.of_advance (h : Known s) {old : Option Operation} {since : Nat} {op : EditOp}
    {loaded : Loaded} (hadv : Advance E s old ⟨since, .prepared op loaded⟩) :
    LoadedKnown s op.query.id loaded := by
  cases hadv with
  | prepared => exact h.loadedKnown _

theorem Known.effect (h : Known s) {a : Action} (he : Effect E s a t) : Known t := by
  cases he with
  | idle hdb hissued _ hops =>
    refine ⟨by rw [hdb, hissued]; exact h.charts, by rw [hdb, hissued]; exact h.rules, ?_⟩
    intro i since op loaded hop
    have hold : LoadedKnown s op.query.id loaded := by
      rcases hops i _ hop with hsame | hadv
      · exact h.loaded i since op loaded hsame
      · exact h.of_advance hadv
    refine hold.mono (by rw [hissued]; exact fun _ hid => hid) ?_
      (by rw [hdb]; exact fun _ _ _ => id)
    intro id _ c hc
    exact ⟨c, hdb ▸ hc, rfl⟩
  | write hop happly =>
    have hw := PublishWrite.writeEffect happly
    refine ⟨?_, ?_, ?_⟩
    · intro id c' hc'
      obtain ⟨c, hc, -⟩ := hw.get_charts hc'
      exact h.charts id c hc
    · intro id r hr
      exact h.rules id r (hw.flagRules ▸ hr)
    · intro i since op loaded hop'
      refine (h.loaded i since op loaded (of_operations_drop hop')).mono (fun _ hid => hid) ?_ ?_
      · intro id _ c' hc'
        obtain ⟨c, hc, hquery, -⟩ := hw.get_charts hc'
        exact ⟨c, hc, hquery⟩
      · intro id _ r hr
        exact hw.flagRules ▸ hr
  | edit hop hids hcommit =>
    have hknown := h.loaded _ _ _ _ hop
    have heff := EditOp.commit_effect hknown.stored hcommit
    refine ⟨?_, ?_, ?_⟩
    · intro id c' hc'
      rcases heff.chart_of id c' hc' with ⟨c, hc, -⟩ | ⟨hnew, -⟩
      · exact List.mem_append_left _ (h.charts id c hc)
      · exact List.mem_append_right _ hnew
    · intro id r hr
      rcases heff.rule_of id r hr with hold | ⟨hnew, -⟩
      · exact List.mem_append_left _ (h.rules id r hold)
      · exact List.mem_append_right _ hnew
    · intro i since op loaded hop'
      refine (h.loaded i since op loaded (of_operations_drop hop')).mono
        (fun _ hid => List.mem_append_left _ hid) ?_ ?_
      · intro id hid c' hc'
        obtain ⟨c, hc, -, hquery⟩ := heff.get_charts (fun hnew => hids id hnew hid) hc'
        exact ⟨c, hc, hquery⟩
      · intro id hid r hr
        rcases heff.rule_of id r hr with hold | ⟨hnew, -⟩
        · exact hold
        · exact absurd hid (hids id hnew)

end Known

/-! ## A small database -/

namespace Sample

def author : User := ⟨"ann", false⟩

def admin : User := ⟨"root", true⟩

def query : SavedQuery :=
  ⟨"q", "db", "Transfers", none, "SELECT 1", none, 100, none, some "ann"⟩

def chart : QueryChart :=
  { PublishColumns.initial with
    id := "c", queryId := "q", name := "Trend", position := 0, chartType := .table
    xField := none, yField := none, seriesField := none, surgeThresholdPct := none }

/-- One private chart on a query of an analyst. -/
def db : Db := ⟨⟨[query], by decide⟩, ⟨[chart], by decide⟩, Table.empty, []⟩

/-- The same chart, which its author has asked to publish. -/
def pendingDb : Db :=
  { db with
    charts := db.charts.modify "c" (setPublish (requestPublish author 5).values) (setPublish_id _) }

def env : Env := ⟨.ascii, bytesDigest, .default⟩

end Sample

end FraudAnalyzer.Charts
