import FraudAnalyzer.Db.TargetRegistry
import FraudAnalyzer.Lib.Ledger
import FraudAnalyzer.Lib.Run
import Mathlib.Logic.Function.Basic

/-!
# Editing connections while they are in use

`app/features/connections/service.py` next to everything that runs on a target. A call loads the
row into its own session and works on that object from then on; a commit, a registry call and the
probe are steps of their own, and the steps of different calls interleave freely.

`step` is one step of one call, `Effect` says all that it can do. The ledgers, `pauses`, `resumes`
and `served` are for the statements only: no step reads them.
-/

namespace FraudAnalyzer.Connections

open Db

/-- What of a row decides the engine and whether one may be had. -/
structure Version where
  profile : Profile
  paused : Bool
  deriving DecidableEq

def Connection.version (conn : Connection) : Version := ⟨conn.toProfile, conn.paused⟩

/-- A change that is committed to the row. -/
inductive Change where
  | update (payload : ConnectionUpdate) (token : String)
  | pause
  | resume

/-- The object before its commit; `none` if the payload is refused or nulls a required column. -/
def Change.apply : Change → Connection → Option Connection
  | .update payload token, conn =>
    match payload.check conn with
    | .error _ => none
    | .ok () => payload.assign token conn
  | .pause, conn => some { conn with paused := true }
  | .resume, conn => some { conn with paused := false }

/-- The calls that dispose the engine of what they changed, and then answer. -/
inductive Kind where
  | update | pause
  deriving DecidableEq

/-- Where a call stands. A version is the number of the row the call has committed. -/
inductive Stage where
  /-- `read_only_connection` of an execution -/
  | connecting
  | writing (change : Change)
  | disposing (kind : Kind) (version : Nat)
  /-- `test_connection`, for the update that committed the version -/
  | testing (update : Option Nat)
  | recording (update : Option Nat) (error : Option AppError)
  | discarding (update : Option Nat)
  | answering (kind : Kind) (version : Nat)

structure Operation where
  conn : Connection
  stage : Stage

/-- An engine that `get_engine` returned, with the ledger of the connection at that time. -/
structure Served where
  connectionId : String
  engine : Engine
  ledger : Ledger Version

structure State where
  rows : Rows
  engines : Registry
  operations : Nat → Option Operation
  ledgers : String → Ledger Version
  /-- The versions whose `pause_connection` has returned. -/
  pauses : String → List Nat
  /-- The versions that `resume_connection` has committed. -/
  resumes : String → List Nat
  served : List Served

namespace State

/-- Nothing runs and no engine is held. -/
def start (rows : Rows) : State where
  rows := rows
  engines := .empty
  operations _ := none
  ledgers id := ⟨((rows.get id).map Connection.version).toList, [], []⟩
  pauses _ := []
  resumes _ := []
  served := []

def put (s : State) (i : Nat) (op : Operation) : State :=
  { s with operations := Function.update s.operations i (some op) }

def drop (s : State) (i : Nat) : State :=
  { s with operations := Function.update s.operations i none }

/-- The call goes on with the engine it got. -/
def serve (s : State) (conn : Connection) (engine : Engine) (engines : Registry) : State :=
  { s with engines := engines, served := ⟨conn.id, engine, s.ledgers conn.id⟩ :: s.served }

/-- The row of a commit becomes a version. -/
def store (s : State) (rows : Rows) (row : Connection) : State :=
  { s with
    rows := rows
    ledgers := Function.update s.ledgers row.id ((s.ledgers row.id).store row.version) }

def noteResume (s : State) (id : String) : State :=
  { s with resumes := Function.update s.resumes id ((s.ledgers id).next :: s.resumes id) }

/-- `dispose_engine` after a commit. -/
def clear (s : State) (id : String) (version : Nat) : State :=
  { s with
    engines := disposeEngine s.engines id
    ledgers := Function.update s.ledgers id ((s.ledgers id).clear version) }

def answer (s : State) (id : String) (version : Nat) : State :=
  { s with ledgers := Function.update s.ledgers id ((s.ledgers id).answer version) }

def notePause (s : State) (id : String) (version : Nat) : State :=
  { s with pauses := Function.update s.pauses id (version :: s.pauses id) }

end State

/-- The calls: an execution of any kind, and the endpoints of a connection. -/
inductive Call where
  | run
  | test
  | update (payload : ConnectionUpdate) (token : String)
  | pause
  | resume

def Call.stage : Call → Stage
  | .run => .connecting
  | .test => .testing none
  | .update payload token => .writing (.update payload token)
  | .pause => .writing .pause
  | .resume => .writing .resume

/-- What follows the test of a connection. -/
def Stage.afterTest : Option Nat → Option Stage
  | some version => some (.answering .update version)
  | none => none

def State.putOrDrop (s : State) (i : Nat) (conn : Connection) : Option Stage → State
  | some stage => s.put i ⟨conn, stage⟩
  | none => s.drop i

/-- The columns `test_connection` sets. -/
def recordTest (conn : Connection) (error : Option AppError) (now : Instant) : Connection :=
  { conn with
    status := if error.isSome then .failed else .ok
    lastTestedAt := some now
    lastTestError := error.map AppError.message }

inductive Action where
  | begin (i : Nat) (call : Call) (connectionId : String)
  /-- The next step of a call. `outcome` is the failure of the target, if it is asked. -/
  | advance (i : Nat) (outcome : Option AppError) (now : Instant)
  | abort (i : Nat)

/-- The commit of a change. An update and a pause go on to dispose the engine, a resume to the
test. -/
def commitChange (s : State) (i : Nat) (conn : Connection) (change : Change) : State :=
  match change.apply conn with
  | none => s.drop i
  | some new =>
    match commitConnection s.rows conn new with
    | none => s.drop i
    | some rows =>
      match rows.get conn.id with
      | none => s.drop i
      | some row =>
        let version := (s.ledgers row.id).next
        match change with
        | .update _ _ => (s.store rows row).put i ⟨new, .disposing .update version⟩
        | .pause => (s.store rows row).put i ⟨new, .disposing .pause version⟩
        | .resume => ((s.noteResume row.id).store rows row).put i ⟨new, .testing none⟩

/-- One step of one call. -/
def perform (E : TargetEnv) (s : State) (i : Nat) (outcome : Option AppError) (now : Instant)
    (conn : Connection) : Stage → State
  | .connecting =>
    match openTarget E s.engines conn with
    | .error _ => s.drop i
    | .ok (engine, engines) => (s.serve conn engine engines).drop i
  | .writing change => commitChange s i conn change
  | .disposing kind version =>
    (s.clear conn.id version).put i
      ⟨conn, match kind with
        | .update => .testing (some version)
        | .pause => .answering .pause version⟩
  | .testing update =>
    match openTarget E s.engines conn with
    | .error error => s.put i ⟨conn, .recording update (some error)⟩
    | .ok (engine, engines) => (s.serve conn engine engines).put i ⟨conn, .recording update outcome⟩
  | .recording update error =>
    match commitConnection s.rows conn (recordTest conn error now) with
    | none => s.drop i
    | some rows =>
      { s with rows := rows }.putOrDrop i (recordTest conn error now)
        (if error.isSome then some (.discarding update) else Stage.afterTest update)
  | .discarding update =>
    { s with engines := disposeEngine s.engines conn.id }.putOrDrop i conn (Stage.afterTest update)
  | .answering kind version =>
    match kind with
    | .update => (s.answer conn.id version).drop i
    | .pause => ((s.answer conn.id version).notePause conn.id version).drop i

def step (E : TargetEnv) (s : State) : Action → Option State
  | .begin i call connectionId =>
    match s.rows.get connectionId with
    | none => some s
    | some conn => some (s.put i ⟨conn, call.stage⟩)
  | .advance i outcome now =>
    match s.operations i with
    | some op => some (perform E s i outcome now op.conn op.stage)
    | none => none
  | .abort i => some (s.drop i)

/-! ## The registry's bound -/

section Bound

variable {E : TargetEnv} {s t : State}

theorem engines_commitChange (s : State) (i : Nat) (conn : Connection) (change : Change) :
    (commitChange s i conn change).engines = s.engines := by
  unfold commitChange
  split
  · rfl
  split
  · rfl
  split
  · rfl
  cases change <;> rfl

theorem engines_putOrDrop (s : State) (i : Nat) (conn : Connection) (stage : Option Stage) :
    (s.putOrDrop i conn stage).engines = s.engines := by
  cases stage <;> rfl

/-- A step keeps the registry within `max_target_engines`. -/
theorem size_engines_step {a : Action} (h : step E s a = some t)
    (hsize : s.engines.size ≤ E.maxTargetEngines) : t.engines.size ≤ E.maxTargetEngines := by
  have herase : ∀ id, (disposeEngine s.engines id).size ≤ E.maxTargetEngines :=
    fun id => Nat.le_trans (OrderedDict.size_erase_le _ _) hsize
  cases a with
  | begin i call id =>
    simp only [step] at h
    split at h
    · exact Option.some.inj h ▸ hsize
    · exact Option.some.inj h ▸ hsize
  | abort i => exact Option.some.inj h ▸ hsize
  | advance i outcome now =>
    simp only [step] at h
    split at h
    case h_2 => cases h
    next op _ =>
      obtain rfl := Option.some.inj h
      cases hstage : op.stage with
      | connecting =>
        simp only [perform]
        split
        · exact hsize
        next hopen => exact openTarget_size hsize hopen
      | writing change =>
        simp only [perform, engines_commitChange]
        exact hsize
      | disposing kind version => exact herase _
      | testing update =>
        simp only [perform]
        split
        · exact hsize
        next hopen => exact openTarget_size hsize hopen
      | recording update error =>
        simp only [perform]
        split
        · exact hsize
        · rw [engines_putOrDrop]
          exact hsize
      | discarding update =>
        simp only [perform, engines_putOrDrop]
        exact herase _
      | answering kind version =>
        cases kind with
        | update => exact hsize
        | pause => exact hsize

/-- In every run. -/
theorem size_engines_of_run {ok : State → Action → Prop} {rows : Rows} {as : List Action}
    (h : Machine.Run (step E) ok (State.start rows) as s) :
    s.engines.size ≤ E.maxTargetEngines :=
  h.invariant (I := fun s => s.engines.size ≤ E.maxTargetEngines)
    (fun _ _ _ hI hstep _ => size_engines_step hstep hI) (Nat.zero_le _)

end Bound

end FraudAnalyzer.Connections
