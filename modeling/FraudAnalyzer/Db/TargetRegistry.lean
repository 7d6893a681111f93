import FraudAnalyzer.Connections.Models
import FraudAnalyzer.Db.SqliteCreator
import FraudAnalyzer.Lib.OrderedDict

/-!
# Pooled engines

`app/db/target_registry.py`: one engine per connection, in a registry that drops the least recently
used. An engine is known by the profile it was built from. Pool sizes and driver options are not
part of it: they come from the settings and from the same profile.
-/

namespace FraudAnalyzer.Db

open Connections Percent Python Security

/-! ## Building an engine -/

structure Url where
  drivername : String
  username : Option String
  password : Option String
  host : String
  port : Nat
  database : String
  deriving DecidableEq

/-- What an engine connects to: a server, or the file of a sqlite URI. -/
inductive Address where
  | server (url : Url)
  | file (uri : Bytes)
  deriving DecidableEq

structure Engine where
  builtFrom : Profile
  address : Address
  deriving DecidableEq

structure TargetEnv where
  unicode : Unicode
  /-- `decrypt`; `none` is `InvalidToken` -/
  decrypt : String → Option String
  sqlite : SqlitePathEnv
  /-- `translate_db_error` of an exception that is not an `AppError` -/
  translateDbError : PathFailure → AppError
  /-- `settings.max_target_engines` -/
  maxTargetEngines : Nat
  maxTargetEngines_pos : 0 < maxTargetEngines

/-- `DEFAULT_PORTS`; sqlite has none. -/
def defaultPort : DbType → Nat
  | .postgres => 5432
  | .mysql => 3306
  | .sqlite => 0

def driverName : DbType → String
  | .postgres => "postgresql+psycopg"
  | _ => "mysql+pymysql"

/-- `build_url` for a server. -/
def buildUrl (E : TargetEnv) (conn : Connection) : Except AppError Url := do
  match conn.host, conn.database with
  | some host, some database =>
    if host = "" ∨ database = "" then throw missing
    let password ←
      match conn.passwordEncrypted with
      | none => .ok none
      | some token =>
        if token = "" then .ok none
        else
          match E.decrypt token with
          | some password => .ok (some password)
          | none => throw (invalidConfigError
              ("This connection's stored password cannot be decrypted, because it was saved " ++
                "under a different encryption key. Open the connection and enter the password " ++
                "again.")
              [("connection_id", .str conn.id), ("reason", .str "fernet_key_changed")])
    return {
      drivername := driverName conn.dbType
      username := conn.username
      password := password
      host := host
      port := if conn.port = some 0 then defaultPort conn.dbType
        else conn.port.getD (defaultPort conn.dbType)
      database := database }
  | _, _ => throw missing
where
  missing : AppError :=
    invalidConfigError ("A " ++ conn.dbType.value ++ " connection requires 'host' and 'database'.")
      []

/-- The error `read_only_connection` raises for a path it cannot use. -/
def pathError (E : TargetEnv) : PathFailure → AppError
  | .invalidConfig error => error
  | failure => E.translateDbError failure

/-- `_create_engine_for` -/
def createEngineFor (E : TargetEnv) (conn : Connection) : Except AppError Engine :=
  match conn.dbType with
  | .sqlite =>
    ((sqliteCreator E.sqlite (conn.sqlitePath.getD "")).mapError (pathError E)).map fun uri =>
      ⟨conn.toProfile, .file uri⟩
  | _ => (buildUrl E conn).map fun url => ⟨conn.toProfile, .server url⟩

theorem createEngineFor_builtFrom {E : TargetEnv} {conn : Connection} {engine : Engine}
    (h : createEngineFor E conn = .ok engine) : engine.builtFrom = conn.toProfile := by
  unfold createEngineFor at h
  split at h
  · obtain ⟨uri, -, rfl⟩ := map_eq_ok.mp h
    rfl
  · obtain ⟨url, -, rfl⟩ := map_eq_ok.mp h
    rfl

/-! ## The registry -/

/-- `_engines` -/
abbrev Registry := OrderedDict String Engine

/-- `get_engine`: the engine and the registry after the call, which holds the lock throughout. -/
def getEngine (E : TargetEnv) (engines : Registry) (conn : Connection) :
    Except AppError (Engine × Registry) :=
  match engines.get conn.id with
  | some engine => .ok (engine, engines.moveToEnd conn.id)
  | none =>
    (createEngineFor E conn).map fun engine =>
      let engines := engines.setLast conn.id engine
      (engine, engines.evictOver E.maxTargetEngines engines.size)

/-- `dispose_engine` -/
def disposeEngine (engines : Registry) (connectionId : String) : Registry :=
  engines.erase connectionId

/-- `read_only_connection`, up to the engine. -/
def openTarget (E : TargetEnv) (engines : Registry) (conn : Connection) :
    Except AppError (Engine × Registry) :=
  if conn.paused then
    .error ⟨.connectionPaused,
      "Connection " ++ repr E.unicode conn.name ++
        " is disconnected. Reconnect it to run queries against it.",
      [("connection_id", .str conn.id)]⟩
  else getEngine E engines conn

/-- What a call that gets an engine does: it takes the one that is held, or builds one from the
profile it has and holds that. -/
inductive Opened (engines : Registry) (conn : Connection) (engine : Engine) (engines' : Registry) :
    Prop
  | held (h : engines.get conn.id = some engine)
      (hkeep : ∀ id e, engines'.get id = some e → engines.get id = some e)
  | built (h : engines.get conn.id = none) (hfrom : engine.builtFrom = conn.toProfile)
      (hkeep : ∀ id e, engines'.get id = some e →
        engines.get id = some e ∨ id = conn.id ∧ e = engine)

section Registry

variable {E : TargetEnv} {engines engines' : Registry} {conn : Connection} {engine : Engine}

theorem getEngine_opened (h : getEngine E engines conn = .ok (engine, engines')) :
    Opened engines conn engine engines' := by
  unfold getEngine at h
  split at h
  next e hheld =>
    obtain ⟨rfl, rfl⟩ := Prod.mk.inj (Except.ok.inj h)
    apply Opened.held hheld
    intro id e' hget
    rw [OrderedDict.get_moveToEnd] at hget
    exact hget
  next hnone =>
    obtain ⟨e, hcreate, heq⟩ := map_eq_ok.mp h
    obtain ⟨rfl, rfl⟩ := Prod.mk.inj heq
    apply Opened.built hnone (createEngineFor_builtFrom hcreate)
    intro id e' hget
    have hset := OrderedDict.get_of_evictOver hget
    rw [OrderedDict.get_setLast] at hset
    split at hset
    next hid => exact .inr ⟨hid, (Option.some.inj hset).symm⟩
    · exact .inl hset

/-- A connection that is paused opens nothing. -/
theorem openTarget_opened (h : openTarget E engines conn = .ok (engine, engines')) :
    conn.paused = false ∧ Opened engines conn engine engines' := by
  unfold openTarget at h
  split at h
  · cases h
  next hpaused => exact ⟨by simpa using hpaused, getEngine_opened h⟩

/-- The registry stays within its bound. -/
theorem openTarget_size (hsize : engines.size ≤ E.maxTargetEngines)
    (h : openTarget E engines conn = .ok (engine, engines')) :
    engines'.size ≤ E.maxTargetEngines := by
  unfold openTarget getEngine at h
  split at h
  · cases h
  split at h
  next hheld =>
    obtain ⟨-, rfl⟩ := Prod.mk.inj (Except.ok.inj h)
    rw [OrderedDict.size_moveToEnd]
    exact hsize
  · obtain ⟨e, -, heq⟩ := map_eq_ok.mp h
    obtain ⟨-, rfl⟩ := Prod.mk.inj heq
    exact OrderedDict.size_evictOver (le_refl _)

end Registry

end FraudAnalyzer.Db
