import FraudAnalyzer.Charts.Editing
import FraudAnalyzer.Errors

/-!
# Connection profiles

The `connections` row as `update_connection` writes it and `target_registry` reads it. A session
that changes a row holds the object it loaded; its flush writes the columns that differ from what
was loaded, to the row as it is then.
-/

namespace FraudAnalyzer.Connections

open Charts (flushed)

inductive DbType where
  | postgres | mysql | sqlite
  deriving DecidableEq

def DbType.value : DbType → String
  | .postgres => "postgres"
  | .mysql => "mysql"
  | .sqlite => "sqlite"

inductive ConnectionStatus where
  | untested | ok | failed
  deriving DecidableEq

/-- Weakest to strongest. -/
inductive SslMode where
  | disable | allow | prefer | require | verifyCa | verifyFull
  deriving DecidableEq

def SslMode.value : SslMode → String
  | .disable => "disable"
  | .allow => "allow"
  | .prefer => "prefer"
  | .require => "require"
  | .verifyCa => "verify-ca"
  | .verifyFull => "verify-full"

/-- `VERIFYING_SSL_MODES` -/
def verifyingSslModes : List SslMode := [.verifyCa, .verifyFull]

/-- The columns an engine is built from. -/
structure Profile where
  dbType : DbType
  host : Option String
  port : Option Nat
  database : Option String
  username : Option String
  passwordEncrypted : Option String
  sqlitePath : Option String
  sslMode : SslMode
  sslRootCert : Option String
  deriving DecidableEq

structure Connection extends Profile where
  id : String
  name : String
  paused : Bool
  status : ConnectionStatus
  lastTestedAt : Option Instant
  lastTestError : Option String
  deriving DecidableEq

/-- A text that is neither missing nor empty. -/
def truthy (text : Option String) : Bool := text.any (· ≠ "")

/-- `ConnectionUpdate`: a field that was not sent is `none`, one that was sent as null is
`some none`. -/
structure ConnectionUpdate where
  name : Option (Option String) := none
  host : Option (Option String) := none
  port : Option (Option Nat) := none
  database : Option (Option String) := none
  username : Option (Option String) := none
  password : Option (Option String) := none
  sqlitePath : Option (Option String) := none
  sslMode : Option (Option SslMode) := none
  sslRootCert : Option (Option String) := none

/-- How `update_connection` refuses a payload before it writes. -/
inductive UpdateFailure where
  | refused (error : AppError)
  /-- `.value` of a mode that was sent as null -/
  | attributeError

namespace ConnectionUpdate

/-- The three checks of `update_connection`. -/
def check (payload : ConnectionUpdate) (conn : Connection) : Except UpdateFailure Unit := do
  if conn.dbType = .sqlite ∧
      (truthy (payload.host.getD none) || (payload.port.getD none).isSome ||
        truthy (payload.database.getD none) || truthy (payload.username.getD none)) then
    throw (.refused (invalidConfigError
      "host, port, database and username do not apply to a sqlite connection." []))
  if conn.dbType ≠ .sqlite ∧ truthy (payload.sqlitePath.getD none) then
    throw (.refused (invalidConfigError "'sqlite_path' is only valid for a sqlite connection." []))
  let mergedMode := payload.sslMode.getD (some conn.sslMode)
  let mergedCert := payload.sslRootCert.getD conn.sslRootCert
  if truthy mergedCert then
    match mergedMode with
    | none => throw .attributeError
    | some mode =>
      if mode ∉ verifyingSslModes then
        throw (.refused (invalidConfigError
          ("'ssl_root_cert' only applies to the verify-ca and verify-full TLS modes, not '" ++
            mode.value ++ "'. Clear the certificate or raise the mode.") []))

/-- The object after the payload's fields are set; `token` is the password as encrypted now. `none`
when a required column gets a null. -/
def assign (payload : ConnectionUpdate) (token : String) (conn : Connection) :
    Option Connection := do
  let name ← payload.name.getD (some conn.name)
  let sslMode ← payload.sslMode.getD (some conn.sslMode)
  return { conn with
    name := name
    host := payload.host.getD conn.host
    port := payload.port.getD conn.port
    database := payload.database.getD conn.database
    username := payload.username.getD conn.username
    passwordEncrypted :=
      if (payload.password.getD none).isSome then some token else conn.passwordEncrypted
    sqlitePath := payload.sqlitePath.getD conn.sqlitePath
    sslMode := sslMode
    sslRootCert := payload.sslRootCert.getD conn.sslRootCert }

end ConnectionUpdate

/-! ## The stored row -/

abbrev Rows := Table Connection.id

/-- The stored row after the object is flushed. -/
def flushConnection (loaded new stored : Connection) : Connection where
  dbType := flushed loaded.dbType new.dbType stored.dbType
  host := flushed loaded.host new.host stored.host
  port := flushed loaded.port new.port stored.port
  database := flushed loaded.database new.database stored.database
  username := flushed loaded.username new.username stored.username
  passwordEncrypted :=
    flushed loaded.passwordEncrypted new.passwordEncrypted stored.passwordEncrypted
  sqlitePath := flushed loaded.sqlitePath new.sqlitePath stored.sqlitePath
  sslMode := flushed loaded.sslMode new.sslMode stored.sslMode
  sslRootCert := flushed loaded.sslRootCert new.sslRootCert stored.sslRootCert
  id := stored.id
  name := flushed loaded.name new.name stored.name
  paused := flushed loaded.paused new.paused stored.paused
  status := flushed loaded.status new.status stored.status
  lastTestedAt := flushed loaded.lastTestedAt new.lastTestedAt stored.lastTestedAt
  lastTestError := flushed loaded.lastTestError new.lastTestError stored.lastTestError

theorem flushConnection_id (loaded new stored : Connection) :
    (flushConnection loaded new stored).id = stored.id := rfl

/-- `session.commit()` with a changed object. `none` when the row is gone or its name is taken by
another; an object without changes writes nothing. -/
def commitConnection (rows : Rows) (loaded new : Connection) : Option Rows := do
  if new = loaded then return rows
  let stored ← rows.get loaded.id
  if rows.rows.any fun r => r.id ≠ loaded.id && r.name = (flushConnection loaded new stored).name
  then none
  else return rows.modify loaded.id (flushConnection loaded new) (flushConnection_id loaded new)

section Commit

variable {rows rows' : Rows} {loaded new : Connection}

/-- An object without changes leaves the row as it is. -/
theorem flushConnection_self (loaded stored : Connection) :
    flushConnection loaded loaded stored = stored := by
  simp [flushConnection, flushed]

theorem get_commitConnection (h : commitConnection rows loaded new = some rows') (id : String) :
    rows'.get id =
      if id = loaded.id then (rows.get id).map (flushConnection loaded new) else rows.get id := by
  unfold commitConnection at h
  split at h
  next hsame =>
    obtain rfl := Option.some.inj h
    rw [hsame]
    split
    · cases rows.get id with
      | none => rfl
      | some row => rw [Option.map_some, flushConnection_self]
    · rfl
  · obtain ⟨stored, hstored, h⟩ := Option.bind_eq_some_iff.mp h
    split at h
    · cases h
    · obtain rfl := Option.some.inj h
      exact Table.get_modify _ _ _ _ (flushConnection_id loaded new)

end Commit

end FraudAnalyzer.Connections
