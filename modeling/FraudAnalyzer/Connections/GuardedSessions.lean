import FraudAnalyzer.Connections.Coherence

/-!
# What every session on a target is limited by

The guards of a session come from two places: from the connection the engine was built from, on each
database connection it opens, and from the connection the caller holds, when one is checked out. A
PostgreSQL endpoint behind a pooler takes no startup options, so there the two have to agree: an
engine of a pooled endpoint that is handed to a caller who holds a direct one sets nothing at all.

Whether an endpoint is pooled is read off its host name. In the runs where no update moves a
connection between the two kinds, every session is read-only and bounded in time.
-/

namespace FraudAnalyzer.Connections

open Db
open Charts (flushed)

/-! ## The guards -/

inductive Guard where
  | readOnly
  | statementTimeout (ms : Nat)
  | idleTimeout (ms : Nat)
  /-- The progress handler of sqlite. -/
  | deadline (ms : Nat)
  deriving DecidableEq

def Guard.isTimeout : Guard → Bool
  | .statementTimeout _ => true
  | .deadline _ => true
  | _ => false

/-- `"-pooler" in text` -/
def hasPooler (text : String) : Bool := decide ("-pooler".toList <:+: text.toList)

/-- `is_pooled_postgres` -/
def isPooledPostgres (u : Python.Unicode) (conn : Profile) : Bool :=
  conn.dbType = .postgres && conn.host.any fun host =>
    host ≠ "" && hasPooler (u.lower (String.ofList (host.toList.takeWhile (· ≠ '.'))))

/-- The settings of `postgres_connect_args`' options, in their order. -/
def postgresOptions (queryTimeoutMs : Nat) : List Guard :=
  [.readOnly, .statementTimeout queryTimeoutMs, .idleTimeout queryTimeoutMs]

/-- `_mysql_read_only` -/
def mysqlReadOnly (queryTimeoutMs : Nat) : List Guard :=
  [.statementTimeout queryTimeoutMs, .readOnly]

/-- `_guard_pooled_transaction` -/
def guardPooledTransaction (timeoutMs : Nat) : List Guard :=
  [.readOnly, .statementTimeout timeoutMs, .idleTimeout timeoutMs]

/-- What each connection of an engine is opened with, by the row the engine was built from. -/
def engineGuards (u : Python.Unicode) (queryTimeoutMs : Nat) (builtFrom : Profile) : List Guard :=
  match builtFrom.dbType with
  | .sqlite => []
  | .postgres => if isPooledPostgres u builtFrom then [] else postgresOptions queryTimeoutMs
  | .mysql => mysqlReadOnly queryTimeoutMs

/-- What `read_only_connection` sets up for the caller, by the row the caller has loaded. -/
def checkoutGuards (u : Python.Unicode) (timeoutMs : Nat) (conn : Profile) : List Guard :=
  if conn.dbType = .sqlite then [.deadline timeoutMs]
  else if isPooledPostgres u conn then guardPooledTransaction timeoutMs
  else []

/-- The guards in force when the caller's statement runs. The mode of a sqlite file is part of its
URI, and not among them. -/
def sessionGuards (u : Python.Unicode) (queryTimeoutMs timeoutMs : Nat) (engine : Engine)
    (conn : Connection) : List Guard :=
  engineGuards u queryTimeoutMs engine.builtFrom ++ checkoutGuards u timeoutMs conn.toProfile

structure Guarded (guards : List Guard) (dbType : DbType) : Prop where
  readOnly : dbType ≠ .sqlite → Guard.readOnly ∈ guards
  bounded : ∃ g ∈ guards, g.isTimeout = true

/-! ## Rows of one kind -/

/-- What decides which guards apply. -/
def Profile.kind (u : Python.Unicode) (conn : Profile) : DbType × Bool :=
  (conn.dbType, isPooledPostgres u conn)

/-- An engine and a caller that agree on the kind leave no session without its guards. -/
theorem guarded_of_kind_eq {u : Python.Unicode} {queryTimeoutMs timeoutMs : Nat} {engine : Engine}
    {conn : Connection} (h : engine.builtFrom.kind u = conn.toProfile.kind u) :
    Guarded (sessionGuards u queryTimeoutMs timeoutMs engine conn) conn.dbType := by
  obtain ⟨htype, hpooled⟩ := Prod.mk.inj h
  unfold sessionGuards engineGuards checkoutGuards
  rw [htype, hpooled]
  cases hdb : conn.dbType with
  | sqlite => exact ⟨fun hne => absurd rfl hne, .deadline timeoutMs, by simp, rfl⟩
  | mysql => exact ⟨fun _ => by simp [mysqlReadOnly], .statementTimeout queryTimeoutMs,
      by simp [mysqlReadOnly], rfl⟩
  | postgres =>
    cases isPooledPostgres u conn.toProfile with
    | false => exact ⟨fun _ => by simp [postgresOptions], .statementTimeout queryTimeoutMs,
        by simp [postgresOptions], rfl⟩
    | true => exact ⟨fun _ => by simp [guardPooledTransaction], .statementTimeout timeoutMs,
        by simp [guardPooledTransaction], rfl⟩

/-- No update that begins would move a connection to a database of another kind. -/
def KeepsKind (u : Python.Unicode) (s : State) : Action → Prop
  | .begin _ (.update payload token) id => ∀ conn, s.rows.get id = some conn →
      ∀ new, (Change.update payload token).apply conn = some new →
        new.toProfile.kind u = conn.toProfile.kind u
  | _ => True

/-- All that a connection is held as, under its id, is of one kind. -/
structure OneKind (u : Python.Unicode) (kind : String → DbType × Bool) (s : State) : Prop where
  rows : ∀ id conn, s.rows.get id = some conn → conn.toProfile.kind u = kind id
  engines : ∀ id engine, s.engines.get id = some engine → engine.builtFrom.kind u = kind id
  operations : ∀ i op, s.operations i = some op → op.conn.toProfile.kind u = kind op.conn.id
  writing : ∀ i op change, s.operations i = some op → op.stage = .writing change →
    ∀ new, change.apply op.conn = some new → new.toProfile.kind u = kind op.conn.id

section Runs

variable {E : TargetEnv} {kind : String → DbType × Bool} {s t : State} {u : Python.Unicode}

/-- A row that is flushed from an object of its kind stays of its kind. -/
theorem kind_flushConnection {loaded new stored : Connection} {k : DbType × Bool}
    (hnew : new.toProfile.kind u = k) (hstored : stored.toProfile.kind u = k) :
    (flushConnection loaded new stored).toProfile.kind u = k := by
  have htype : ∀ {a : Connection}, a.toProfile.kind u = k → a.dbType = k.1 :=
    fun h => congrArg Prod.fst h
  have hdb : (flushConnection loaded new stored).dbType = k.1 := by
    show flushed loaded.dbType new.dbType stored.dbType = k.1
    unfold flushed
    split
    · exact htype hstored
    · exact htype hnew
  have hpooled : ∀ {a : Connection}, a.toProfile.kind u = k →
      (flushConnection loaded new stored).host = a.host →
      isPooledPostgres u (flushConnection loaded new stored).toProfile = k.2 := by
    intro a ha hhost
    have := congrArg Prod.snd ha
    rw [← this]
    show (decide (_ = DbType.postgres) && Option.any _ _) = (decide (_ = DbType.postgres) && _)
    rw [hdb, hhost, htype ha]
  refine Prod.ext hdb ?_
  have hhost : (flushConnection loaded new stored).host =
      flushed loaded.host new.host stored.host := rfl
  by_cases hsame : new.host = loaded.host
  · exact hpooled hstored (by rw [hhost, flushed, if_pos hsame])
  · exact hpooled hnew (by rw [hhost, flushed, if_neg hsame])

theorem OneKind.drop (h : OneKind u kind s) (i : Nat) : OneKind u kind (s.drop i) where
  rows := h.rows
  engines := h.engines
  operations j op hj := by
    simp only [State.drop, Function.update_apply] at hj
    split at hj
    · cases hj
    · exact h.operations j op hj
  writing j op change hj := by
    simp only [State.drop, Function.update_apply] at hj
    split at hj
    · cases hj
    · exact h.writing j op change hj

theorem OneKind.put (h : OneKind u kind s) (i : Nat) {op : Operation}
    (hop : op.conn.toProfile.kind u = kind op.conn.id)
    (hwriting : ∀ change, op.stage = .writing change → ∀ new, change.apply op.conn = some new →
      new.toProfile.kind u = kind op.conn.id) : OneKind u kind (s.put i op) where
  rows := h.rows
  engines := h.engines
  operations j op' hj := by
    simp only [State.put, Function.update_apply] at hj
    split at hj
    · obtain rfl := Option.some.inj hj
      exact hop
    · exact h.operations j op' hj
  writing j op' change hj := by
    simp only [State.put, Function.update_apply] at hj
    split at hj
    · obtain rfl := Option.some.inj hj
      exact hwriting change
    · exact h.writing j op' change hj

/-- A call that goes on to a stage that writes nothing. -/
theorem OneKind.putOrDrop (h : OneKind u kind s) (i : Nat) {conn : Connection}
    (hconn : conn.toProfile.kind u = kind conn.id) {stage : Option Stage}
    (hstage : ∀ change, stage ≠ some (.writing change)) :
    OneKind u kind (s.putOrDrop i conn stage) := by
  cases stage with
  | none => exact h.drop i
  | some st =>
    exact h.put i hconn fun change hchange => absurd (congrArg some hchange) (hstage change)

theorem OneKind.dispose (h : OneKind u kind s) (id : String) :
    OneKind u kind { s with engines := disposeEngine s.engines id } where
  rows := h.rows
  engines id' engine he := by
    simp only [disposeEngine, OrderedDict.get_erase] at he
    split at he
    · cases he
    · exact h.engines id' engine he
  operations := h.operations
  writing := h.writing

/-- An engine for a caller is of the caller's kind, whether it was held or is built now. -/
theorem OneKind.opened (h : OneKind u kind s) {conn : Connection}
    (hconn : conn.toProfile.kind u = kind conn.id) {engine : Engine} {engines : Registry}
    (hopened : Opened s.engines conn engine engines) :
    engine.builtFrom.kind u = kind conn.id ∧
      ∀ id e, engines.get id = some e → e.builtFrom.kind u = kind id := by
  cases hopened with
  | held hget hkeep =>
    exact ⟨h.engines conn.id engine hget, fun id e he => h.engines id e (hkeep id e he)⟩
  | built _ hfrom hkeep =>
    refine ⟨hfrom ▸ hconn, fun id e he => ?_⟩
    rcases hkeep id e he with hold | ⟨rfl, rfl⟩
    · exact h.engines id e hold
    · exact hfrom ▸ hconn

theorem OneKind.serve (h : OneKind u kind s) {conn : Connection}
    (hconn : conn.toProfile.kind u = kind conn.id) {engine : Engine} {engines : Registry}
    (hopened : Opened s.engines conn engine engines) :
    OneKind u kind (s.serve conn engine engines) where
  rows := h.rows
  engines := (h.opened hconn hopened).2
  operations := h.operations
  writing := h.writing

/-- A commit of an object of its kind. -/
theorem OneKind.commit (h : OneKind u kind s) {loaded new : Connection} {rows : Rows}
    (hnew : new.toProfile.kind u = kind loaded.id)
    (hcommit : commitConnection s.rows loaded new = some rows) :
    OneKind u kind { s with rows := rows } where
  rows id conn hget := by
    by_cases hid : id = loaded.id
    · subst hid
      obtain ⟨-, old, hold, rfl⟩ := flushed_of_commit hcommit hget
      exact kind_flushConnection hnew (h.rows _ old hold)
    · exact h.rows id conn (get_commit_of_ne hcommit id hid ▸ hget)
  engines := h.engines
  operations := h.operations
  writing := h.writing

/-- The ledgers and what else is only noted do not matter. -/
theorem OneKind.of_eq (h : OneKind u kind s) (hrows : t.rows = s.rows)
    (hengines : t.engines = s.engines) (hops : t.operations = s.operations) : OneKind u kind t where
  rows := hrows ▸ h.rows
  engines := hengines ▸ h.engines
  operations := hops ▸ h.operations
  writing := hops ▸ h.writing

theorem OneKind.commitChange (h : OneKind u kind s) (i : Nat) {conn : Connection} {change : Change}
    (hnew : ∀ new, change.apply conn = some new → new.toProfile.kind u = kind conn.id) :
    OneKind u kind (commitChange s i conn change) := by
  unfold Connections.commitChange
  split
  · exact h.drop i
  next new happly =>
    split
    · exact h.drop i
    next rows hcommit =>
      split
      · exact h.drop i
      next row hrow =>
        have hkind := hnew new happly
        have hid : new.id = conn.id := (Change.apply_eq happly).1
        have hstored : OneKind u kind (s.store rows row) :=
          (h.commit hkind hcommit).of_eq rfl rfl rfl
        have hput : ∀ stage : Stage, (∀ change, stage ≠ .writing change) → ∀ s', OneKind u kind s' →
            OneKind u kind (s'.put i ⟨new, stage⟩) :=
          fun stage hstage s' hs' => hs'.put i (hid ▸ hkind)
            fun change hchange => absurd hchange (hstage change)
        cases change with
        | update payload token => exact hput _ (fun _ h => by cases h) _ hstored
        | pause => exact hput _ (fun _ h => by cases h) _ hstored
        | resume =>
          exact hput _ (fun _ h => by cases h) _
            (hstored.of_eq (t := (s.noteResume row.id).store rows row) rfl rfl rfl)

/-- The step lemma. -/
theorem OneKind.step {a : Action} (h : OneKind u kind s) (hstep : step E s a = some t)
    (hok : KeepsKind u s a) : OneKind u kind t := by
  cases a with
  | begin i call id =>
    simp only [Connections.step] at hstep
    split at hstep
    · obtain rfl := Option.some.inj hstep
      exact h
    next conn hconn =>
      obtain rfl := Option.some.inj hstep
      have hid : conn.id = id := Table.key_of_get hconn
      have hkind : conn.toProfile.kind u = kind conn.id := hid ▸ h.rows id conn hconn
      refine h.put i hkind fun change hchange new hnew => ?_
      cases call with
      | run => cases hchange
      | test => cases hchange
      | update payload token =>
        obtain rfl := Stage.writing.inj hchange
        exact (hok conn hconn new hnew).trans hkind
      | pause =>
        obtain rfl := Stage.writing.inj hchange
        obtain rfl := Option.some.inj hnew
        exact hkind
      | resume =>
        obtain rfl := Stage.writing.inj hchange
        obtain rfl := Option.some.inj hnew
        exact hkind
  | abort i =>
    obtain rfl := Option.some.inj hstep
    exact h.drop i
  | advance i outcome now =>
    simp only [Connections.step] at hstep
    split at hstep
    case h_2 => cases hstep
    next op hop =>
      obtain rfl := Option.some.inj hstep
      have hconn := h.operations i op hop
      have hwriting := h.writing i op
      obtain ⟨conn, stage⟩ := op
      cases stage with
      | connecting =>
        simp only [perform]
        split
        · exact h.drop i
        next hopen => exact (h.serve hconn (openTarget_opened hopen).2).drop i
      | writing change => exact h.commitChange i (hwriting change hop rfl)
      | disposing disposed version =>
        have hcleared : OneKind u kind (s.clear conn.id version) :=
          (h.dispose conn.id).of_eq rfl rfl rfl
        refine hcleared.put i hconn fun change hchange => ?_
        cases disposed <;> cases hchange
      | testing update =>
        simp only [perform]
        split
        · exact h.put i hconn fun _ hchange => by cases hchange
        next hopen =>
          exact (h.serve hconn (openTarget_opened hopen).2).put i hconn
            fun _ hchange => by cases hchange
      | recording update error =>
        simp only [perform]
        split
        · exact h.drop i
        next rows hcommit =>
          have htested : (recordTest conn error now).toProfile.kind u = kind conn.id := hconn
          refine (h.commit htested hcommit).putOrDrop i htested fun change hchange => ?_
          cases error <;> cases update <;> cases hchange
      | discarding update =>
        refine (h.dispose conn.id).putOrDrop i hconn fun change hchange => ?_
        cases update <;> cases hchange
      | answering disposed version =>
        have hanswered : OneKind u kind (s.answer conn.id version) := h.of_eq rfl rfl rfl
        cases disposed with
        | update => exact hanswered.drop i
        | pause =>
          have hnoted : OneKind u kind ((s.answer conn.id version).notePause conn.id version) :=
            hanswered.of_eq rfl rfl rfl
          exact hnoted.drop i

end Runs

/-- **Every session is limited**, whatever executions, tests, edits, pauses and evictions
interleave: as long as no edit moves a database between pooled and direct endpoints, the engine a
call gets is never one that leaves the session without its guards. -/
theorem guarded_of_run {E : TargetEnv} {rows : Rows} {as : List Action} {s : State}
    (h : Machine.Run (step E) (KeepsKind E.unicode) (State.start rows) as s)
    (queryTimeoutMs timeoutMs : Nat) {i : Nat} {op : Operation} (hop : s.operations i = some op)
    {engine : Engine} {engines : Registry}
    (hopen : openTarget E s.engines op.conn = .ok (engine, engines)) :
    Guarded (sessionGuards E.unicode queryTimeoutMs timeoutMs engine op.conn) op.conn.dbType := by
  let kind : String → DbType × Bool := fun id =>
    ((rows.get id).map fun conn => conn.toProfile.kind E.unicode).getD (.sqlite, false)
  have hstart : OneKind E.unicode kind (State.start rows) := by
    refine ⟨fun id conn hget => ?_, fun id engine he => (by cases he),
      fun i op hop => (by cases hop), fun i op change hop => (by cases hop)⟩
    have hrow : rows.get id = some conn := hget
    simp only [kind, hrow, Option.map_some, Option.getD_some]
  have hinv : OneKind E.unicode kind s :=
    h.invariant (fun _ _ _ hI hstep hok => hI.step hstep hok) hstart
  have hconn := hinv.operations i op hop
  have hkind := (hinv.opened hconn (openTarget_opened hopen).2).1
  exact guarded_of_kind_eq (hkind.trans hconn.symm)

namespace Sample

/-- An update to another direct endpoint while an execution has the old row. -/
def directEdit : List Action :=
  [.begin 0 .run "db", .begin 1 (.update { host := some (some "new.example") } "") "db",
    .advance 1 none 1, .advance 1 none 1]

theorem kind_of_directEdit {new : Connection}
    (h : (Change.update { host := some (some "new.example") } "").apply connection = some new) :
    new.toProfile.kind .ascii = connection.toProfile.kind .ascii := by
  have happly : (Change.update { host := some (some "new.example") } "").apply connection =
      some { connection with host := some "new.example" } := rfl
  obtain rfl := Option.some.inj (happly.symm.trans h)
  decide

def engine : Engine where
  builtFrom := connection.toProfile
  address := .server ⟨"postgresql+psycopg", some "reader", none, "old.example", 5432, "sales"⟩

end Sample

/-- The execution builds an engine of the old row, and its session is read-only. -/
theorem guarded_of_directEdit :
    ∃ s, Machine.Run (step Sample.env) (KeepsKind .ascii) (State.start Sample.rows)
        Sample.directEdit s ∧
      Guarded (sessionGuards .ascii 10000 2000 Sample.engine Sample.connection) .postgres := by
  have hrun : ∃ s, Machine.Run (step Sample.env) (KeepsKind .ascii) (State.start Sample.rows)
      Sample.directEdit s ∧ s.operations 0 = some ⟨Sample.connection, .connecting⟩ ∧
      (openTarget Sample.env s.engines Sample.connection).map Prod.fst = .ok Sample.engine := by
    refine ⟨_, .cons rfl trivial (.cons rfl ?_ (.cons rfl trivial (.cons rfl trivial (.nil _)))),
      rfl, rfl⟩
    intro conn hconn new hnew
    obtain rfl : Sample.connection = conn := Option.some.inj hconn
    exact Sample.kind_of_directEdit hnew
  obtain ⟨s, hs, hop, hopen⟩ := hrun
  obtain ⟨⟨engine, engines⟩, hopened, rfl⟩ := map_eq_ok.mp hopen
  exact ⟨s, hs, guarded_of_run hs 10000 2000 hop hopened⟩

/-- The update makes a pooled endpoint a direct one. An execution that begins before the engine is
disposed is handed the engine of the pooled one, and nothing limits its session. -/
example : (Machine.exec (step Sample.env)
    (State.start ⟨[{ Sample.connection with host := some "ep-x-pooler.example" }], by decide⟩)
    [.begin 0 .run "db", .advance 0 none 1,
      .begin 1 (.update { host := some (some "ep-x.example") } "") "db", .advance 1 none 2,
      .begin 2 .run "db"]).map (fun s => match s.operations 2 with
        | some op => (openTarget Sample.env s.engines op.conn).toOption.map fun opened =>
          sessionGuards .ascii 10000 2000 opened.1 op.conn
        | none => none) = some (some []) := rfl

end FraudAnalyzer.Connections
