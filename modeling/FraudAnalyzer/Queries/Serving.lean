import FraudAnalyzer.Charts.Machine
import FraudAnalyzer.Lib.Ledger
import FraudAnalyzer.Lib.Run
import FraudAnalyzer.Queries.RenderedCache
import FraudAnalyzer.Queries.ResultCache

/-!
# Serving results while definitions change

Polls, background runs and edits of saved queries, interleaved at every read of the database, every
commit and every call of a cache. `poll_one` and the route behind it, the refresher and the
scheduler go through the same stages; an edit commits, brings the result cache up to date, then the
rendered cache, and then answers.

A background run has no caller: the refresher and the refresh of the flagged view read the rules
after the execution, the scheduler before it. They read the interval again before they store, so
theirs is an input. When one starts is left open; what it writes besides the cache is left out.

The ledgers, the tags of a cached body, `drawn`, `executions`, `seen`, `hits` and `polls` are for
the statements only.
-/

namespace FraudAnalyzer.Queries

open Charts FlagRules Python

structure ServingEnv (β : Type) where
  unicode : Unicode
  sha256Hex : Sha256Hex
  settings : Settings
  cache : ResultCacheSettings
  /-- `rendered_cache_max_bytes` -/
  renderedMaxBytes : Int
  /-- `len(orjson.dumps(body))`, or `none` when that raises -/
  size : Body → Option Nat
  codec : Codec β
  time : TimeText

/-- A body in the result cache, with what it was computed from: the statement, the rules, and the
version of the charts it shows. -/
structure Tagged where
  body : Body
  sqlText : String
  rules : List FlagRule
  version : Nat

/-- A poll, with the chart edits that had returned when it started. -/
structure Request where
  user : User
  queryId : String
  sinceHash : Option String
  force : Bool
  /-- Whether it is one of a batch, whose bodies are not rendered here. -/
  batch : Bool
  started : List Nat

structure Caller where
  request : Request
  dismissed : List String

structure QueryRun where
  query : SavedQuery
  caller : Option Caller
  /-- The rules, if they were loaded with the query. -/
  loaded : Option (List FlagRule)

/-- What an edit replaces. -/
inductive EditKind where
  | sql | rules | charts | all
  deriving DecidableEq

/-- Where a request stands. An edit carries the number of the version it committed. -/
inductive Stage where
  | opened (request : Request) (query : SavedQuery)
  | looking (caller : Caller) (query : SavedQuery)
  | lookingStale (caller : Caller) (query : SavedQuery)
  | preloading (query : SavedQuery)
  | executing (run : QueryRun)
  | flagging (run : QueryRun) (result : ExecutionResult)
  | charting (run : QueryRun) (result : ExecutionResult) (rules : List FlagRule) (flags : Flags)
  | storing (run : QueryRun) (tagged : Tagged)
  | rendering (request : Request) (answer : PollChanged) (version : Nat)
  | keeping (request : Request) (answer : PollChanged) (version : Nat)
  | editing (op : EditOp)
  | guarded (op : EditOp)
  | prepared (op : EditOp) (loaded : Loaded)
  | invalidating (queryId : String) (kind : EditKind) (version : Nat)
  | refreshing (queryId : String) (version : Nat)
  /-- The charts as they were read again, and their version. -/
  | patching (queryId : String) (version : Nat) (charts : List QueryChart) (read : Nat)
  | droppingBytes (queryId : String) (kind : EditKind) (version read : Nat)
  | answering (queryId : String) (kind : EditKind) (version : Nat)

/-- An execution, as its body was first built, with the version of the charts it was built from. -/
structure Execution where
  body : Body
  first : Nat

/-- An entry that a lookup of the result cache returned, with the ledgers at that time. -/
structure Hit where
  payload : Tagged
  sql : Ledger (Option String)
  rules : Ledger (List FlagRule)

/-- A poll that was answered with a body: from pre-encoded bytes, unless it was in a batch. -/
structure Polled (β : Type) where
  started : List Nat
  answer : PollChanged
  version : Nat
  response : Option (Rendered β)

structure State (β : Type) where
  db : Db
  dismissals : List FlagDismissal
  results : ResultCache Tagged
  rendered : RenderedCache β
  operations : Nat → Option Stage
  sqlLedger : String → Ledger (Option String)
  ruleLedger : String → Ledger (List FlagRule)
  chartLedger : String → Ledger (List QueryChart)
  /-- The versions of the charts for which the rendered bytes were dropped. -/
  bytesCleared : String → List Nat
  /-- The version of the charts in the bytes last stored under a key. -/
  drawn : String → Nat
  executions : List Execution
  /-- The sets of dismissals that polls of the query have read. -/
  seen : String → List (List String)
  hits : List Hit
  polls : List (Polled β)

def sqlOf (db : Db) (queryId : String) : Option String :=
  (db.queries.get queryId).map SavedQuery.sqlText

namespace State

variable {β : Type}

/-- Empty caches and no request. -/
def start (db : Db) (dismissals : List FlagDismissal) : State β where
  db := db
  dismissals := dismissals
  results := .empty
  rendered := .empty
  operations _ := none
  sqlLedger id := .start (sqlOf db id)
  ruleLedger id := .start (db.rulesOf id)
  chartLedger id := .start (db.chartsOf id)
  bytesCleared _ := []
  drawn _ := 0
  executions := []
  seen _ := []
  hits := []
  polls := []

def put (s : State β) (i : Nat) (stage : Stage) : State β :=
  { s with operations := Function.update s.operations i (some stage) }

def drop (s : State β) (i : Nat) : State β :=
  { s with operations := Function.update s.operations i none }

/-- A commit: what it changed becomes a version. -/
def commit (s : State β) (db : Db) : State β :=
  { s with
    db := db
    sqlLedger := fun id => (s.sqlLedger id).observe (sqlOf db id)
    ruleLedger := fun id => (s.ruleLedger id).observe (db.rulesOf id)
    chartLedger := fun id => (s.chartLedger id).observe (db.chartsOf id) }

/-- The number of what an edit of the kind has just committed. -/
def current (s : State β) (queryId : String) : EditKind → Nat
  | .sql => (s.sqlLedger queryId).current
  | .rules => (s.ruleLedger queryId).current
  | .charts => (s.chartLedger queryId).current
  | .all => 0

/-- Note on the ledgers that the result cache was brought up to date. -/
def noteClear (s : State β) (queryId : String) (kind : EditKind) (version : Nat) : State β :=
  match kind with
  | .sql => { s with
      sqlLedger := Function.update s.sqlLedger queryId ((s.sqlLedger queryId).clear version) }
  | .rules => { s with
      ruleLedger := Function.update s.ruleLedger queryId ((s.ruleLedger queryId).clear version) }
  | .charts => { s with
      chartLedger := Function.update s.chartLedger queryId ((s.chartLedger queryId).clear version) }
  | .all => s

/-- Note on the ledgers that the edit has returned. -/
def noteAnswer (s : State β) (queryId : String) (kind : EditKind) (version : Nat) : State β :=
  match kind with
  | .sql => { s with
      sqlLedger := Function.update s.sqlLedger queryId ((s.sqlLedger queryId).answer version) }
  | .rules => { s with
      ruleLedger := Function.update s.ruleLedger queryId ((s.ruleLedger queryId).answer version) }
  | .charts => { s with
      chartLedger :=
        Function.update s.chartLedger queryId ((s.chartLedger queryId).answer version) }
  | .all => s

def noteBytes (s : State β) (queryId : String) (kind : EditKind) (read : Nat) : State β :=
  match kind with
  | .charts => { s with
      bytesCleared := Function.update s.bytesCleared queryId (read :: s.bytesCleared queryId) }
  | _ => s

def noteSeen (s : State β) (queryId : String) (dismissed : List String) : State β :=
  { s with seen := Function.update s.seen queryId (dismissed :: s.seen queryId) }

/-- A lookup that returned an entry. -/
def noteHit (s : State β) (results : ResultCache Tagged) (queryId : String) (tagged : Tagged) :
    State β :=
  { s with
    results := results
    hits := ⟨tagged, s.sqlLedger queryId, s.ruleLedger queryId⟩ :: s.hits }

def notePoll (s : State β) (request : Request) (answer : PollChanged) (version : Nat)
    (response : Option (Rendered β)) : State β :=
  { s with polls := ⟨request.started, answer, version, response⟩ :: s.polls }

end State

/-- The answer of `poll_one` for a body: `none` when the client has it already. -/
def answerFor (sha256Hex : Sha256Hex) (caller : Caller) (body : Body) (fromCache : Bool) :
    Option PollChanged :=
  let body := applyDismissals sha256Hex body caller.dismissed
  match caller.request.sinceHash with
  | some sinceHash =>
    if sinceHash ≠ "" ∧ body.dataHash = sinceHash then none else some ⟨body, fromCache⟩
  | none => some ⟨body, fromCache⟩

def Edit.kind : Edit → EditKind
  | .updateQuery _ => .sql
  | .replaceRules _ => .rules
  | .replaceCharts _ => .charts
  | .deleteQuery => .all

/-- What a step takes from outside: the clocks, the target and the lists as they are now, the time
of an execution, the interval of a background run, the ids of new rows. -/
structure Input where
  clock : Clock
  target : Target
  lists : String → Option (List String)
  executedAt : Instant
  intervalMs : Int
  ids : List String

inductive Action where
  | poll (i : Nat) (user : User) (queryId : String) (sinceHash : Option String) (force batch : Bool)
  | run (i : Nat) (queryId : String)
  | schedule (i : Nat) (queryId : String)
  /-- `result_cache.get` by the scheduler or the flagged view. -/
  | look (queryId : String) (clock : Clock)
  | edit (i : Nat) (user : User) (queryId : String) (edit : Edit)
  /-- `invalidate`, for a query that uses a list which was edited. -/
  | relist (i : Nat) (queryId : String)
  | advance (i : Nat) (input : Input)
  | dismiss (user : User) (queryId : String) (fingerprints : List String)
  | restore (user : User) (queryId : String) (fingerprints : Option (List String))
  | abort (i : Nat)

section Step

variable {β : Type}

/-- `poll_one` has a body: an unchanged one ends the poll, one of a batch goes out as it is, and the
route renders the others. -/
def respond (E : ServingEnv β) (s : State β) (i : Nat) (caller : Caller) (tagged : Tagged)
    (fromCache : Bool) : State β :=
  match answerFor E.sha256Hex caller tagged.body fromCache with
  | none => s.drop i
  | some answer =>
    if caller.request.batch then (s.notePoll caller.request answer tagged.version none).drop i
    else s.put i (.rendering caller.request answer tagged.version)

/-- The payload of a run, once its charts are read. -/
def finishRun (E : ServingEnv β) (run : QueryRun) (result : ExecutionResult) (flags : Flags)
    (charts : List QueryChart) (executedAt : Instant) : RunPayload where
  queryId := run.query.id
  executedAt := executedAt
  result := result
  dataHash := canonicalHash E.sha256Hex result.columns (result.rows.map Subtype.val) flags
  charts := buildCharts E.unicode E.settings charts result.columns
  flags := flags

/-- The poll interval of a run. -/
def intervalOf (E : ServingEnv β) (run : QueryRun) (input : Input) : Int :=
  match run.caller with
  | some _ => pollIntervalFor E.settings run.query
  | none => input.intervalMs

/-- A body with its charts built anew. -/
def Body.draw (E : ServingEnv β) (charts : List QueryChart) (body : Body) : Body :=
  { body with charts := buildCharts E.unicode E.settings charts body.result.columns }

/-- What `patch_charts` puts into an entry. -/
def redraw (E : ServingEnv β) (charts : List QueryChart) (read : Nat) (tagged : Tagged) :
    Option Tagged :=
  some { tagged with body := tagged.body.draw E charts, version := read }

/-- The next step of a request. Executions have different times, so a time that was used is not one
for a new execution. -/
def perform (E : ServingEnv β) (s : State β) (i : Nat) (input : Input) : Stage → Option (State β)
  | .opened request query =>
    let dismissed := dismissedFingerprints s.dismissals query.id request.user.id
    let caller : Caller := ⟨request, dismissed⟩
    some ((s.noteSeen query.id dismissed).put i
      (if request.force then .executing ⟨query, some caller, none⟩ else .looking caller query))
  | .looking caller query =>
    match s.results.getFresh query.id input.clock with
    | (some entry, results) =>
      some (respond E (s.noteHit results query.id entry.payload) i caller entry.payload true)
    | (none, results) => some ({ s with results := results }.put i (.lookingStale caller query))
  | .lookingStale caller query =>
    match s.results.getStale E.cache query.id input.clock with
    | (some entry, results) =>
      some (respond E (s.noteHit results query.id entry.payload) i caller entry.payload true)
    | (none, results) =>
      some ({ s with results := results }.put i (.executing ⟨query, some caller, none⟩))
  | .preloading query =>
    let rules := s.db.rulesOf query.id
    some (if rules = [] then s.drop i else s.put i (.executing ⟨query, none, some rules⟩))
  | .executing run =>
    match executeSql E.settings input.target run.query.sqlText run.query.rowLimit with
    | .error _ => some (s.drop i)
    | .ok result => some (s.put i (.flagging run result))
  | .flagging run result =>
    let rules := run.loaded.getD (s.db.rulesOf run.query.id)
    some (s.put i (.charting run result rules
      (evaluateFlags E.unicode E.sha256Hex input.lists rules result.columns result.rows)))
  | .charting run result rules flags =>
    if ∀ e ∈ s.executions, e.body.executedAt ≠ input.executedAt then
      let payload := finishRun E run result flags (s.db.chartsOf run.query.id) input.executedAt
      let body := payload.asDict (intervalOf E run input)
      let version := (s.chartLedger run.query.id).current
      some ({ s with executions := ⟨body, version⟩ :: s.executions }.put i
        (.storing run ⟨body, run.query.sqlText, rules, version⟩))
    else none
  | .storing run tagged =>
    match s.results.set E.cache (fun t => E.size t.body) run.query.id tagged.body.dataHash tagged
        tagged.body.pollIntervalMs input.clock with
    | none => some (s.drop i)
    | some results =>
      match run.caller with
      | none => some ({ s with results := results }.drop i)
      | some caller => some (respond E { s with results := results } i caller tagged false)
  | .rendering request answer version =>
    match s.rendered.find (keyFor E.time request.queryId answer) with
    | (some found, rendered) =>
      some (({ s with rendered := rendered }.notePoll request answer version (some found)).drop i)
    | (none, rendered) =>
      some ({ s with rendered := rendered }.put i (.keeping request answer version))
  | .keeping request answer version =>
    let bytes := Rendered.render E.codec answer
    let key := keyFor E.time request.queryId answer
    some (({ s with
      rendered := s.rendered.store E.codec E.renderedMaxBytes maxEntries key bytes
      drawn := Function.update s.drawn key version
      }.notePoll request answer version (some bytes)).drop i)
  | .editing op =>
    match guardFrozen s.db op.query op.user with
    | .error _ => some (s.drop i)
    | .ok () => some (s.put i (.guarded op))
  | .guarded op =>
    match op.edit.resolve E.settings with
    | .error _ => some (s.drop i)
    | .ok edit =>
      some (s.put i (.prepared { op with edit := edit }
        ⟨s.db.rulesOf op.query.id, s.db.chartsOf op.query.id⟩))
  | .prepared op loaded =>
    match op.commit E.unicode loaded s.db input.ids with
    | none => some (s.drop i)
    | some db =>
      let t := s.commit db
      let version := t.current op.query.id (Edit.kind op.edit)
      some (t.put i
        (match Edit.kind op.edit with
        | .charts => .refreshing op.query.id version
        | kind => .invalidating op.query.id kind version))
  | .invalidating queryId kind version =>
    some (({ s with results := s.results.invalidate queryId }.noteClear queryId kind version).put i
      (.droppingBytes queryId kind version version))
  | .refreshing queryId version =>
    some (s.put i
      (match s.db.queries.get queryId with
      | none => .invalidating queryId .charts version
      | some _ =>
        .patching queryId version (s.db.chartsOf queryId) (s.chartLedger queryId).current))
  | .patching queryId version charts read =>
    some (({ s with
      results := s.results.patchCharts (fun t => E.size t.body) queryId (redraw E charts read)
      }.noteClear queryId .charts read).put i (.droppingBytes queryId .charts version read))
  | .droppingBytes queryId kind version read =>
    some (({ s with rendered := s.rendered.invalidateQuery E.codec queryId }.noteBytes queryId kind
      read).put i (.answering queryId kind version))
  | .answering queryId kind version => some ((s.noteAnswer queryId kind version).drop i)

def step (E : ServingEnv β) (s : State β) : Action → Option (State β)
  | .poll i user queryId sinceHash force batch =>
    match getOwned s.db queryId user with
    | .error _ => some s
    | .ok query =>
      some (s.put i (.opened
        ⟨user, queryId, sinceHash, force, batch, (s.chartLedger queryId).answered⟩ query))
  | .run i queryId =>
    match s.db.queries.get queryId with
    | none => some s
    | some query => some (s.put i (.executing ⟨query, none, none⟩))
  | .schedule i queryId =>
    match s.db.queries.get queryId with
    | none => some s
    | some query => some (s.put i (.preloading query))
  | .look queryId clock =>
    match s.results.getFresh queryId clock with
    | (none, _) => some s
    | (some entry, results) => some (s.noteHit results queryId entry.payload)
  | .edit i user queryId edit =>
    match getOwned s.db queryId user with
    | .error _ => some s
    | .ok query => some (s.put i (.editing ⟨user, query, edit⟩))
  | .relist i queryId => some (s.put i (.invalidating queryId .all 0))
  | .advance i input =>
    match s.operations i with
    | none => none
    | some stage => perform E s i input stage
  | .dismiss user queryId fingerprints =>
    some { s with dismissals := FlagRules.dismiss s.dismissals queryId user.id fingerprints }
  | .restore user queryId fingerprints =>
    some { s with dismissals := FlagRules.restore s.dismissals queryId user.id fingerprints }
  | .abort i => some (s.drop i)

/-- What the step of a run stores in the result cache. -/
def State.stores (s : State β) : Action → Option (QueryRun × Tagged)
  | .advance i _ =>
    match s.operations i with
    | some (.storing run tagged) => some (run, tagged)
    | _ => none
  | _ => none

/-- The ways through a stage: what the step has found, and the state it leaves. -/
inductive Performed (E : ServingEnv β) (s : State β) (i : Nat) (input : Input) :
    Stage → State β → Prop where
  /-- The request ends here: there is nothing to do, or something raised. -/
  | ended (stage : Stage) : Performed E s i input stage (s.drop i)
  | opened (request : Request) (query : SavedQuery) (dismissed : List String)
    (hread : dismissed = dismissedFingerprints s.dismissals query.id request.user.id) :
    Performed E s i input (.opened request query) ((s.noteSeen query.id dismissed).put i
      (if request.force then .executing ⟨query, some ⟨request, dismissed⟩, none⟩
        else .looking ⟨request, dismissed⟩ query))
  | hit (caller : Caller) (query : SavedQuery) (entry : CacheEntry Tagged)
    (results : ResultCache Tagged) (hget : s.results.get query.id = some entry)
    (hresults : ∀ id, results.get id = s.results.get id) :
    Performed E s i input (.looking caller query)
      (respond E (s.noteHit results query.id entry.payload) i caller entry.payload true)
  | missed (caller : Caller) (query : SavedQuery) :
    Performed E s i input (.looking caller query) (s.put i (.lookingStale caller query))
  | hitStale (caller : Caller) (query : SavedQuery) (entry : CacheEntry Tagged)
    (results : ResultCache Tagged) (hget : s.results.get query.id = some entry)
    (hresults : ∀ id, results.get id = s.results.get id) :
    Performed E s i input (.lookingStale caller query)
      (respond E (s.noteHit results query.id entry.payload) i caller entry.payload true)
  | missedStale (caller : Caller) (query : SavedQuery) (results : ResultCache Tagged)
    (hkept : ∀ id entry, results.get id = some entry → s.results.get id = some entry) :
    Performed E s i input (.lookingStale caller query)
      ({ s with results := results }.put i (.executing ⟨query, some caller, none⟩))
  | preloaded (query : SavedQuery) :
    Performed E s i input (.preloading query)
      (s.put i (.executing ⟨query, none, some (s.db.rulesOf query.id)⟩))
  | executed (run : QueryRun) (result : ExecutionResult)
    (hresult :
      executeSql E.settings input.target run.query.sqlText run.query.rowLimit = .ok result) :
    Performed E s i input (.executing run) (s.put i (.flagging run result))
  | flagged (run : QueryRun) (result : ExecutionResult) (rules : List FlagRule)
    (hrules : rules = run.loaded.getD (s.db.rulesOf run.query.id)) :
    Performed E s i input (.flagging run result) (s.put i (.charting run result rules
      (evaluateFlags E.unicode E.sha256Hex input.lists rules result.columns result.rows)))
  | charted (run : QueryRun) (result : ExecutionResult) (rules : List FlagRule) (flags : Flags)
    (body : Body) (version : Nat)
    (hbody : body = (finishRun E run result flags (s.db.chartsOf run.query.id)
      input.executedAt).asDict (intervalOf E run input))
    (hversion : version = (s.chartLedger run.query.id).current)
    (hnew : ∀ e ∈ s.executions, e.body.executedAt ≠ body.executedAt) :
    Performed E s i input (.charting run result rules flags)
      ({ s with executions := ⟨body, version⟩ :: s.executions }.put i
        (.storing run ⟨body, run.query.sqlText, rules, version⟩))
  | stored (run : QueryRun) (tagged : Tagged) (results : ResultCache Tagged)
    (hset : s.results.set E.cache (fun t => E.size t.body) run.query.id tagged.body.dataHash tagged
      tagged.body.pollIntervalMs input.clock = some results) :
    Performed E s i input (.storing run tagged) ({ s with results := results }.drop i)
  | returned (run : QueryRun) (tagged : Tagged) (results : ResultCache Tagged) (caller : Caller)
    (hset : s.results.set E.cache (fun t => E.size t.body) run.query.id tagged.body.dataHash tagged
      tagged.body.pollIntervalMs input.clock = some results)
    (hcaller : run.caller = some caller) :
    Performed E s i input (.storing run tagged)
      (respond E { s with results := results } i caller tagged false)
  | found (request : Request) (answer : PollChanged) (version : Nat) (bytes : Rendered β)
    (rendered : RenderedCache β)
    (hget : s.rendered.get (keyFor E.time request.queryId answer) = some bytes)
    (hrendered : ∀ key, rendered.get key = s.rendered.get key) :
    Performed E s i input (.rendering request answer version)
      (({ s with rendered := rendered }.notePoll request answer version (some bytes)).drop i)
  | unrendered (request : Request) (answer : PollChanged) (version : Nat) :
    Performed E s i input (.rendering request answer version)
      (s.put i (.keeping request answer version))
  | kept (request : Request) (answer : PollChanged) (version : Nat) :
    Performed E s i input (.keeping request answer version) (({ s with
      rendered := s.rendered.store E.codec E.renderedMaxBytes maxEntries
        (keyFor E.time request.queryId answer) (Rendered.render E.codec answer)
      drawn := Function.update s.drawn (keyFor E.time request.queryId answer) version
      }.notePoll request answer version (some (Rendered.render E.codec answer))).drop i)
  | guarded (op : EditOp) (hguard : guardFrozen s.db op.query op.user = .ok ()) :
    Performed E s i input (.editing op) (s.put i (.guarded op))
  | resolved (op : EditOp) (edit : Edit) (hedit : op.edit.resolve E.settings = .ok edit) :
    Performed E s i input (.guarded op) (s.put i (.prepared { op with edit := edit }
      ⟨s.db.rulesOf op.query.id, s.db.chartsOf op.query.id⟩))
  | committed (op : EditOp) (loaded : Loaded) (db : Db)
    (hdb : op.commit E.unicode loaded s.db input.ids = some db) :
    Performed E s i input (.prepared op loaded) ((s.commit db).put i
      (match Edit.kind op.edit with
      | .charts => .refreshing op.query.id ((s.commit db).current op.query.id (Edit.kind op.edit))
      | kind =>
        .invalidating op.query.id kind ((s.commit db).current op.query.id (Edit.kind op.edit))))
  | invalidated (queryId : String) (kind : EditKind) (version : Nat) :
    Performed E s i input (.invalidating queryId kind version)
      (({ s with results := s.results.invalidate queryId }.noteClear queryId kind version).put i
        (.droppingBytes queryId kind version version))
  | deleted (queryId : String) (version : Nat) (hgone : s.db.queries.get queryId = none) :
    Performed E s i input (.refreshing queryId version)
      (s.put i (.invalidating queryId .charts version))
  | refreshed (queryId : String) (version : Nat) :
    Performed E s i input (.refreshing queryId version) (s.put i
      (.patching queryId version (s.db.chartsOf queryId) (s.chartLedger queryId).current))
  | patched (queryId : String) (version : Nat) (charts : List QueryChart) (read : Nat) :
    Performed E s i input (.patching queryId version charts read) (({ s with
      results := s.results.patchCharts (fun t => E.size t.body) queryId (redraw E charts read)
      }.noteClear queryId .charts read).put i (.droppingBytes queryId .charts version read))
  | dropped (queryId : String) (kind : EditKind) (version read : Nat) :
    Performed E s i input (.droppingBytes queryId kind version read)
      (({ s with rendered := s.rendered.invalidateQuery E.codec queryId }.noteBytes queryId kind
        read).put i (.answering queryId kind version))
  | answered (queryId : String) (kind : EditKind) (version : Nat) :
    Performed E s i input (.answering queryId kind version)
      ((s.noteAnswer queryId kind version).drop i)

/-- The inversion of `perform`: the one place where its branches are gone through. -/
theorem performed_of_perform {E : ServingEnv β} {s t : State β} {i : Nat} {input : Input}
    {stage : Stage} (h : perform E s i input stage = some t) : Performed E s i input stage t := by
  cases stage with
  | opened request query =>
    obtain rfl := Option.some.inj h
    exact .opened request query _ rfl
  | looking caller query =>
    simp only [perform] at h
    split at h
    next hfind =>
      obtain rfl := Option.some.inj h
      obtain ⟨hget, hresults⟩ := ResultCache.getFresh_spec hfind
      exact .hit caller query _ _ hget hresults
    next hfind =>
      obtain rfl := Option.some.inj h
      obtain rfl := ResultCache.getFresh_none hfind
      exact .missed caller query
  | lookingStale caller query =>
    simp only [perform] at h
    split at h
    next hfind =>
      obtain rfl := Option.some.inj h
      obtain ⟨hget, hresults⟩ := ResultCache.getStale_spec hfind
      exact .hitStale caller query _ _ hget hresults
    next hfind =>
      obtain rfl := Option.some.inj h
      exact .missedStale caller query _ fun id _ hget => ResultCache.getStale_none hfind id hget
  | preloading query =>
    obtain rfl := Option.some.inj h
    split
    · exact .ended _
    · exact .preloaded query
  | executing run =>
    simp only [perform] at h
    split at h
    · exact Option.some.inj h ▸ .ended _
    next hresult => exact Option.some.inj h ▸ .executed run _ hresult
  | flagging run result => exact Option.some.inj h ▸ .flagged run result _ rfl
  | charting run result rules flags =>
    simp only [perform] at h
    split at h
    next hnew => exact Option.some.inj h ▸ .charted run result rules flags _ _ rfl rfl hnew
    · cases h
  | storing run tagged =>
    simp only [perform] at h
    split at h
    · exact Option.some.inj h ▸ .ended _
    next hset =>
      split at h
      · exact Option.some.inj h ▸ .stored run tagged _ hset
      next hcaller => exact Option.some.inj h ▸ .returned run tagged _ _ hset hcaller
  | rendering request answer version =>
    simp only [perform] at h
    split at h
    next hfind =>
      obtain rfl := Option.some.inj h
      obtain ⟨hget, hrendered⟩ := RenderedCache.find_spec hfind
      exact .found request answer version _ _ hget hrendered
    next hfind =>
      obtain rfl := Option.some.inj h
      obtain rfl := RenderedCache.find_none hfind
      exact .unrendered request answer version
  | keeping request answer version => exact Option.some.inj h ▸ .kept request answer version
  | editing op =>
    simp only [perform] at h
    split at h
    · exact Option.some.inj h ▸ .ended _
    next hguard => exact Option.some.inj h ▸ .guarded op hguard
  | guarded op =>
    simp only [perform] at h
    split at h
    · exact Option.some.inj h ▸ .ended _
    next hedit => exact Option.some.inj h ▸ .resolved op _ hedit
  | prepared op loaded =>
    simp only [perform] at h
    split at h
    · exact Option.some.inj h ▸ .ended _
    next hdb => exact Option.some.inj h ▸ .committed op loaded _ hdb
  | invalidating queryId kind version =>
    exact Option.some.inj h ▸ .invalidated queryId kind version
  | refreshing queryId version =>
    obtain rfl := Option.some.inj h
    split
    next hgone => exact .deleted queryId version hgone
    · exact .refreshed queryId version
  | patching queryId version charts read =>
    exact Option.some.inj h ▸ .patched queryId version charts read
  | droppingBytes queryId kind version read =>
    exact Option.some.inj h ▸ .dropped queryId kind version read
  | answering queryId kind version => exact Option.some.inj h ▸ .answered queryId kind version

/-- The stages of a run are `run_saved_query`. -/
theorem runSavedQuery_eq (E : ServingEnv β) (run : QueryRun) (rules : List FlagRule)
    (charts : List QueryChart) (input : Input) :
    runSavedQuery
        ⟨E.unicode, E.sha256Hex, E.settings, fun _ => input.target, input.lists⟩ run.query rules
        charts input.executedAt =
      (executeSql E.settings input.target run.query.sqlText run.query.rowLimit).map fun result =>
        finishRun E run result
          (evaluateFlags E.unicode E.sha256Hex input.lists rules result.columns result.rows) charts
          input.executedAt := by
  unfold runSavedQuery
  cases executeSql E.settings input.target run.query.sqlText run.query.rowLimit with
  | error e => rfl
  | ok result => rfl

end Step

/-! ## A small installation -/

namespace Sample

/-- Encoded bytes, as far as anyone can tell: the text of an answer, or bytes in an envelope. -/
inductive Frame where
  | json (answer : PollChanged)
  | gzip (frame : Frame)

def Frame.loads : Frame → Option PollChanged
  | .json answer => some answer
  | .gzip _ => none

def Frame.content : Frame → Frame
  | .json answer => .json answer
  | .gzip frame => frame

def codec : Codec Frame where
  dumps := .json
  loads := Frame.loads
  compress := .gzip
  decompress := Frame.content
  length _ := 2048
  loads_dumps _ := rfl
  decompress_compress _ := rfl

def time : TimeText where
  text t := String.ofList (Json.intToken t).chars
  injective := by
    intro t t' h
    apply Json.ofInt_injective
    have hchars := String.ofList_injective h
    unfold Json.ofInt
    congr 1
    cases ht : Json.intToken t
    cases ht' : Json.intToken t'
    simp only [ht, ht'] at hchars
    subst hchars
    rfl
  plain t := by
    rw [String.toList_ofList]
    intro hbar
    exact absurd ((Json.intToken t).all_number _ hbar) (by decide)

def servingEnv : ServingEnv Frame where
  unicode := .ascii
  sha256Hex _ := "0f1e2d3c4b5a69788796a5b4c3d2e1f0"
  settings := .default
  cache := ⟨64 * 1024 * 1024, 300000⟩
  renderedMaxBytes := 32 * 1024 * 1024
  size _ := some 4096
  codec := codec
  time := time

/-- One column with one row, whatever is asked. -/
def target : Target where
  run _ _ := .ok ⟨["amount"], [.single (.int 900)], 1⟩
  encodedSize := List.length

/-- A step at a time in milliseconds; an execution gets that time. -/
def input (t : Int) : Input where
  clock := ⟨1000 * t, 1000 * t⟩
  target := target
  lists _ := none
  executedAt := t
  intervalMs := 5000
  ids := []

end Sample

end FraudAnalyzer.Queries
