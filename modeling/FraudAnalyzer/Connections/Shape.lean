import FraudAnalyzer.Connections.Service
import FraudAnalyzer.Python.Cell

/-!
# The shape of a stored connection

The validators of `ConnectionCreate`, `create_connection` and `update_connection`, one call after
another. A profile is validated as a whole when it is created; an update looks at the fields that
were sent, and only for what does not belong to the kind of database. So it misses what empties a
required field (`path_removed`), an empty text or a password on a sqlite connection, and a mode sent
as null next to a certificate; in every other run the rules hold (`wellShaped_iff`).

`updates` is for the statements only.
-/

namespace FraudAnalyzer.Connections.Shape

open Python

/-! ## The payloads -/

/-- `Field(min_length=low, max_length=high)` -/
def textWithin (low high : Nat) (text : Option String) : Bool :=
  text.all fun text => low ≤ text.length && text.length ≤ high

/-- `Field(ge=1, le=65535)` -/
def portWithin (port : Option Nat) : Bool := port.all fun port => 1 ≤ port && port ≤ 65535

/-- `ConnectionCreate`; `password` is the secret. -/
structure ConnectionCreate where
  name : String
  dbType : DbType
  host : Option String := none
  port : Option Nat := none
  database : Option String := none
  username : Option String := none
  sqlitePath : Option String := none
  sslMode : SslMode := .require
  sslRootCert : Option String := none
  password : Option String := none

namespace ConnectionCreate

/-- `_check_root_cert_is_used` -/
def checkRootCertIsUsed (payload : ConnectionCreate) : Except String Unit :=
  if truthy payload.sslRootCert ∧ payload.sslMode ∉ verifyingSslModes then
    .error ("'ssl_root_cert' only applies to the verify-ca and verify-full TLS modes, not '" ++
      payload.sslMode.value ++ "'")
  else .ok ()

/-- The fields that a sqlite connection has no use for. -/
def supplied (payload : ConnectionCreate) : List String :=
  (if payload.host.isSome then ["host"] else []) ++
    (if payload.port.isSome then ["port"] else []) ++
    (if payload.database.isSome then ["database"] else []) ++
      if payload.username.isSome then ["username"] else []

/-- The fields that another connection needs. -/
def missing (payload : ConnectionCreate) : List String :=
  (if truthy payload.host then [] else ["host"]) ++
    (if truthy payload.database then [] else ["database"]) ++
      if truthy payload.username then [] else ["username"]

/-- `_check_fields_for_db_type` -/
def checkFieldsForDbType (payload : ConnectionCreate) : Except String Unit :=
  if payload.dbType = .sqlite then
    if !truthy payload.sqlitePath then .error "sqlite connections require 'sqlite_path'"
    else if payload.supplied ≠ [] ∨ payload.password.isSome then
      .error ("sqlite connections must not set " ++
        join ", " (payload.supplied ++ if truthy payload.password then ["password"] else []))
    else .ok ()
  else if payload.missing ≠ [] then
    .error (payload.dbType.value ++ " connections require " ++ join ", " payload.missing)
  else if truthy payload.sqlitePath then
    .error "'sqlite_path' is only valid for sqlite connections"
  else .ok ()

/-- The payload passes the schema. -/
def isValid (payload : ConnectionCreate) : Bool :=
  textWithin 1 200 (some payload.name) && textWithin 0 255 payload.host &&
    portWithin payload.port && textWithin 0 255 payload.database &&
      textWithin 0 255 payload.username && payload.checkRootCertIsUsed.isOk &&
        payload.checkFieldsForDbType.isOk

/-- The row that is added; `token` is the password as it is encrypted. -/
def row (payload : ConnectionCreate) (id token : String) : Connection where
  id := id
  name := payload.name
  dbType := payload.dbType
  host := payload.host
  port := payload.port
  database := payload.database
  username := payload.username
  passwordEncrypted := if truthy payload.password then some token else none
  sqlitePath := payload.sqlitePath
  sslMode := payload.sslMode
  sslRootCert := payload.sslRootCert
  paused := false
  status := .untested
  lastTestedAt := none
  lastTestError := none

end ConnectionCreate

/-- A `ConnectionUpdate` that passes the schema. -/
def updateIsValid (payload : ConnectionUpdate) : Bool :=
  textWithin 1 200 (payload.name.getD none) && textWithin 0 255 (payload.host.getD none) &&
    portWithin (payload.port.getD none) && textWithin 0 255 (payload.database.getD none) &&
      textWithin 0 255 (payload.username.getD none)

/-! ## The calls -/

/-- `DuplicateNameError`, which any `IntegrityError` is taken for. -/
def duplicateName (u : Unicode) (name : Option String) : AppError :=
  ⟨.duplicateName, "A connection named " ++ (Cell.ofOption name).repr u ++ " already exists.",
    [("name", (Cell.ofOption name).json)]⟩

/-- `test_connection`, whose probe has ended with `error` -/
def testConnection (rows : Rows) (conn : Connection) (error : Option AppError) (now : Instant) :
    Rows :=
  (commitConnection rows conn (recordTest conn error now)).getD rows

/-- The `INSERT`, refused when the name or the id is taken. -/
def insertConnection (rows : Rows) (conn : Connection) : Option Rows :=
  if rows.rows.any fun r => r.name = conn.name then none else rows.insert conn

/-- `create_connection` -/
def createConnection (u : Unicode) (rows : Rows) (payload : ConnectionCreate) (id token : String)
    (error : Option AppError) (now : Instant) : Rows × Except AppError Unit :=
  match insertConnection rows (payload.row id token) with
  | none => (rows, .error (duplicateName u (some payload.name)))
  | some rows => (testConnection rows (payload.row id token) error now, .ok ())

/-- `update_connection` -/
def updateConnection (u : Unicode) (rows : Rows) (conn : Connection) (payload : ConnectionUpdate)
    (token : String) (error : Option AppError) (now : Instant) :
    Rows × Except UpdateFailure Unit :=
  match payload.check conn with
  | .error failure => (rows, .error failure)
  | .ok () =>
    match payload.assign token conn with
    | none => (rows, .error (.refused (duplicateName u (payload.name.getD none))))
    | some new =>
      match commitConnection rows conn new with
      | none => (rows, .error (.refused (duplicateName u (payload.name.getD none))))
      | some rows => (testConnection rows new error now, .ok ())

/-! ## The rules -/

/-- The creation rules, for a profile with this mode. -/
structure FollowsRules (profile : Profile) (sslMode : Option SslMode) : Prop where
  sqlite : profile.dbType = .sqlite → truthy profile.sqlitePath = true ∧ profile.host = none ∧
    profile.port = none ∧ profile.database = none ∧ profile.username = none ∧
      profile.passwordEncrypted = none
  other : profile.dbType ≠ .sqlite → truthy profile.host = true ∧ truthy profile.database = true ∧
    truthy profile.username = true ∧ truthy profile.sqlitePath = false
  cert : truthy profile.sslRootCert = true → ∃ mode ∈ verifyingSslModes, sslMode = some mode

/-- A stored profile. -/
def IsShaped (conn : Connection) : Prop := FollowsRules conn.toProfile (some conn.sslMode)

/-- The mode of the merged state, `none` for a null. -/
def mergedMode (payload : ConnectionUpdate) (conn : Connection) : Option SslMode :=
  payload.sslMode.getD (some conn.sslMode)

/-- The certificate of the merged state. -/
def mergedCert (payload : ConnectionUpdate) (conn : Connection) : Option String :=
  payload.sslRootCert.getD conn.sslRootCert

/-- The merged state, without the mode. -/
def merged (payload : ConnectionUpdate) (token : String) (conn : Connection) : Profile where
  dbType := conn.dbType
  host := payload.host.getD conn.host
  port := payload.port.getD conn.port
  database := payload.database.getD conn.database
  username := payload.username.getD conn.username
  passwordEncrypted :=
    if (payload.password.getD none).isSome then some token else conn.passwordEncrypted
  sqlitePath := payload.sqlitePath.getD conn.sqlitePath
  sslMode := conn.sslMode
  sslRootCert := mergedCert payload conn

/-- An update that was answered. -/
structure Update where
  conn : Connection
  payload : ConnectionUpdate
  token : String
  result : Except UpdateFailure Unit
  before : Rows
  after : Rows

/-- The update would break a rule. -/
def Update.Breaks (x : Update) : Prop :=
  ¬ FollowsRules (merged x.payload x.token x.conn) (mergedMode x.payload x.conn)

/-- `INVALID_CONNECTION_CONFIG`, and nothing is changed. -/
def Update.Refused (x : Update) : Prop :=
  (∃ error, x.result = .error (.refused error) ∧ error.errorCode = .invalidConnectionConfig) ∧
    x.after = x.before

structure State where
  rows : Rows
  updates : List Update

def start (rows : Rows) : State := ⟨rows, []⟩

/-- `error` is how the probe ends. -/
inductive Action where
  | create (payload : ConnectionCreate) (id token : String) (error : Option AppError)
    (now : Instant)
  | update (id : String) (payload : ConnectionUpdate) (token : String) (error : Option AppError)
    (now : Instant)

/-- One call; a payload that does not pass the schema is no call, and of an unknown connection there
is nothing to update. -/
def step (u : Unicode) (s : State) : Action → Option State
  | .create payload id token error now =>
    if payload.isValid then
      some { s with rows := (createConnection u s.rows payload id token error now).1 }
    else none
  | .update id payload token error now =>
    if updateIsValid payload then
      match s.rows.get id with
      | none => some s
      | some conn =>
        let (rows, result) := updateConnection u s.rows conn payload token error now
        some ⟨rows, ⟨conn, payload, token, result, s.rows, rows⟩ :: s.updates⟩
    else none

/-- Every stored connection follows the rules, and every update that would have broken one was
refused. -/
structure WellShaped (s : State) : Prop where
  stored : ∀ conn ∈ s.rows.rows, IsShaped conn
  refused : ∀ x ∈ s.updates, x.Breaks → x.Refused

/-! ## What an update must not do -/

/-- The field is sent as null or as an empty text. -/
def emptied (field : Option (Option String)) : Bool := field.any fun text => !truthy text

/-- A field is sent that does not apply to the database: the first two checks. -/
def misplaced (payload : ConnectionUpdate) (conn : Connection) : Bool :=
  if conn.dbType = .sqlite then
    truthy (payload.host.getD none) || (payload.port.getD none).isSome ||
      truthy (payload.database.getD none) || truthy (payload.username.getD none)
  else truthy (payload.sqlitePath.getD none)

/-- There would be a certificate and a mode that does not read it: the third check. -/
def unread (payload : ConnectionUpdate) (conn : Connection) : Bool :=
  truthy (mergedCert payload conn) && (mergedMode payload conn).any (· ∉ verifyingSslModes)

/-- What the checks do not look for is not sent. -/
structure Spares (payload : ConnectionUpdate) (conn : Connection) : Prop where
  sqlite : conn.dbType = .sqlite → payload.host ≠ some (some "") ∧
    payload.database ≠ some (some "") ∧ payload.username ≠ some (some "") ∧
      payload.password.getD none = none ∧ emptied payload.sqlitePath = false
  other : conn.dbType ≠ .sqlite → emptied payload.host = false ∧
    emptied payload.database = false ∧ emptied payload.username = false
  mode : payload.sslMode = some none → truthy (mergedCert payload conn) = false

/-- An update that a check catches, or that sends nothing which the checks do not look for. -/
def Careful (s : State) : Action → Prop
  | .update id payload _ _ _ => ∀ conn, s.rows.get id = some conn →
    misplaced payload conn = true ∨ unread payload conn = true ∨ Spares payload conn
  | .create .. => True

/-! ## The checks -/

section Checks

variable {payload : ConnectionUpdate} {conn : Connection}

/-- The first two checks refuse what is misplaced. -/
theorem check_of_misplaced (h : misplaced payload conn = true) :
    ∃ error, payload.check conn = .error (.refused error) ∧
      error.errorCode = .invalidConnectionConfig := by
  unfold misplaced at h
  unfold ConnectionUpdate.check
  split at h
  next hsqlite =>
    rw [if_pos ⟨hsqlite, h⟩]
    exact ⟨_, rfl, rfl⟩
  next hother =>
    rw [if_neg fun hboth => hother hboth.1, if_pos ⟨hother, h⟩]
    exact ⟨_, rfl, rfl⟩

/-- Otherwise the third one decides. -/
theorem check_of_not_misplaced (h : misplaced payload conn = false) :
    payload.check conn =
      if truthy (mergedCert payload conn) then
        match mergedMode payload conn with
        | none => .error .attributeError
        | some mode =>
          if mode ∉ verifyingSslModes then
            .error (.refused (invalidConfigError
              ("'ssl_root_cert' only applies to the verify-ca and verify-full TLS modes, not '" ++
                mode.value ++ "'. Clear the certificate or raise the mode.") []))
          else .ok ()
      else .ok () := by
  unfold misplaced at h
  unfold ConnectionUpdate.check mergedCert mergedMode
  split at h
  next hsqlite =>
    rw [if_neg fun hboth => Bool.eq_false_iff.mp h hboth.2, if_neg fun hboth => hboth.1 hsqlite]
    rfl
  next hother =>
    rw [if_neg fun hboth => hother hboth.1, if_neg fun hboth => Bool.eq_false_iff.mp h hboth.2]
    rfl

/-- Where the certificate would be read, at most a mode that is a null is left to trip over. -/
theorem check_of_read (hplace : misplaced payload conn = false)
    (hread : unread payload conn = false) :
    payload.check conn = .error .attributeError ∨ payload.check conn = .ok () := by
  unfold unread at hread
  rw [check_of_not_misplaced hplace]
  split
  next hcert =>
    rw [hcert, Bool.true_and] at hread
    split
    · exact .inl rfl
    next mode hmode =>
      rw [hmode] at hread
      have hmem : mode ∈ verifyingSslModes := by simpa using hread
      exact .inr (if_neg (not_not.mpr hmem))
  · exact .inr rfl

/-! ## What the checks leave -/

/-- A field that was filled stays so unless it is emptied. -/
theorem truthy_getD {field : Option (Option String)} {old : Option String}
    (hold : truthy old = true) : truthy (field.getD old) = true ↔ emptied field = false := by
  cases field with
  | none => exact iff_of_true hold rfl
  | some text => simp [emptied]

/-- A field that was missing stays so unless an empty text is sent. -/
theorem getD_none_eq_none {field : Option (Option String)} (h : truthy (field.getD none) = false) :
    field.getD none = none ↔ field ≠ some (some "") := by
  cases field with
  | none => exact iff_of_true rfl nofun
  | some text =>
    cases text with
    | none => exact iff_of_true rfl nofun
    | some text =>
      have hempty : text = "" := by simpa [truthy] using h
      subst hempty
      exact iff_of_false nofun fun hne => hne rfl

theorem mergedMode_eq_none : mergedMode payload conn = none ↔ payload.sslMode = some none := by
  unfold mergedMode
  cases payload.sslMode with
  | none => exact iff_of_false nofun nofun
  | some mode => simp

/-- The certificate of the merged state is read, unless the mode is a null. -/
theorem cert_iff (hread : unread payload conn = false) :
    (truthy (mergedCert payload conn) = true →
        ∃ mode ∈ verifyingSslModes, mergedMode payload conn = some mode) ↔
      (payload.sslMode = some none → truthy (mergedCert payload conn) = false) := by
  rw [← mergedMode_eq_none]
  unfold unread at hread
  cases hcert : truthy (mergedCert payload conn) with
  | false => exact iff_of_true nofun fun _ => rfl
  | true =>
    rw [hcert, Bool.true_and] at hread
    cases hmode : mergedMode payload conn with
    | none => exact iff_of_false (fun h => by simpa using h rfl) fun h => absurd (h rfl) nofun
    | some mode =>
      rw [hmode] at hread
      have hmem : mode ∈ verifyingSslModes := by simpa using hread
      exact iff_of_true (fun _ => ⟨mode, hmem, rfl⟩) nofun

/-- Where no check refuses, the rules hold of the merged state if and only if the update spares what
the checks do not look for. -/
theorem followsRules_merged_iff (hconn : IsShaped conn) (hplace : misplaced payload conn = false)
    (hread : unread payload conn = false) (token : String) :
    FollowsRules (merged payload token conn) (mergedMode payload conn) ↔ Spares payload conn := by
  have hcert := cert_iff hread
  unfold misplaced at hplace
  by_cases hsqlite : conn.dbType = .sqlite
  · rw [if_pos hsqlite] at hplace
    simp only [Bool.or_eq_false_iff, Option.isSome_eq_false_iff,
      Option.isNone_iff_eq_none] at hplace
    obtain ⟨⟨⟨hhost, hport⟩, hdatabase⟩, husername⟩ := hplace
    obtain ⟨hpath, hhost', hport', hdatabase', husername', hpassword'⟩ := hconn.sqlite hsqlite
    have hrules : FollowsRules (merged payload token conn) (mergedMode payload conn) ↔
        (truthy (payload.sqlitePath.getD conn.sqlitePath) = true ∧
          payload.host.getD conn.host = none ∧ payload.port.getD conn.port = none ∧
            payload.database.getD conn.database = none ∧
              payload.username.getD conn.username = none ∧
                (if (payload.password.getD none).isSome then some token
                  else conn.passwordEncrypted) = none) ∧
        (truthy (mergedCert payload conn) = true →
          ∃ mode ∈ verifyingSslModes, mergedMode payload conn = some mode) :=
      ⟨fun h => ⟨h.sqlite hsqlite, h.cert⟩,
        fun h => ⟨fun _ => h.1, fun hother => absurd hsqlite hother, h.2⟩⟩
    rw [hrules, hcert, truthy_getD hpath, hhost', hport', hdatabase', husername', hpassword', hport,
      getD_none_eq_none hhost, getD_none_eq_none hdatabase, getD_none_eq_none husername]
    have hpassword : (if (payload.password.getD none).isSome then some token else none) = none ↔
        payload.password.getD none = none := by
      cases payload.password.getD none <;> simp
    rw [hpassword]
    constructor
    · rintro ⟨⟨hpath, hhost, -, hdatabase, husername, hpassword⟩, hmode⟩
      exact ⟨fun _ => ⟨hhost, hdatabase, husername, hpassword, hpath⟩,
        fun hother => absurd hsqlite hother, hmode⟩
    · intro hspares
      obtain ⟨hhost, hdatabase, husername, hpassword, hpath⟩ := hspares.sqlite hsqlite
      exact ⟨⟨hpath, hhost, rfl, hdatabase, husername, hpassword⟩, hspares.mode⟩
  · rw [if_neg hsqlite] at hplace
    obtain ⟨hhost, hdatabase, husername, hpath⟩ := hconn.other hsqlite
    have hpath' : truthy (payload.sqlitePath.getD conn.sqlitePath) = false := by
      cases hsent : payload.sqlitePath with
      | none => exact hpath
      | some text =>
        rw [hsent] at hplace
        exact hplace
    have hrules : FollowsRules (merged payload token conn) (mergedMode payload conn) ↔
        (truthy (payload.host.getD conn.host) = true ∧
          truthy (payload.database.getD conn.database) = true ∧
            truthy (payload.username.getD conn.username) = true) ∧
        (truthy (mergedCert payload conn) = true →
          ∃ mode ∈ verifyingSslModes, mergedMode payload conn = some mode) := by
      constructor
      · intro h
        obtain ⟨hhost, hdatabase, husername, -⟩ := h.other hsqlite
        exact ⟨⟨hhost, hdatabase, husername⟩, h.cert⟩
      · rintro ⟨⟨hhost, hdatabase, husername⟩, hmode⟩
        exact ⟨fun h => absurd h hsqlite, fun _ => ⟨hhost, hdatabase, husername, hpath'⟩, hmode⟩
    rw [hrules, hcert, truthy_getD hhost, truthy_getD hdatabase, truthy_getD husername]
    exact ⟨fun h => ⟨fun hsame => absurd hsame hsqlite, fun _ => h.1, h.2⟩,
      fun h => ⟨h.other hsqlite, h.mode⟩⟩

end Checks

/-! ## The rows -/

section Rows

variable {rows rows' : Rows} {conn new : Connection} {payload : ConnectionUpdate} {token : String}

theorem forall_commitConnection {p : Connection → Prop}
    (h : commitConnection rows conn new = some rows') (hold : ∀ row ∈ rows.rows, p row)
    (hnew : ∀ stored, rows.get conn.id = some stored → p (flushConnection conn new stored)) :
    ∀ row ∈ rows'.rows, p row := by
  intro row hrow
  have hget := Table.get_of_mem hrow
  rw [get_commitConnection h] at hget
  split at hget
  next hid =>
    obtain ⟨stored, hstored, rfl⟩ := Option.map_eq_some_iff.mp hget
    exact hnew stored (hid ▸ hstored)
  · exact hold row (Table.mem_of_get hget)

/-- A test writes no column of the profile. -/
theorem shaped_testConnection (h : ∀ row ∈ rows.rows, IsShaped row) (conn : Connection)
    (error : Option AppError) (now : Instant) :
    ∀ row ∈ (testConnection rows conn error now).rows, IsShaped row := by
  unfold testConnection
  cases hcommit : commitConnection rows conn (recordTest conn error now) with
  | none => exact h
  | some rows' =>
    refine forall_commitConnection hcommit h fun stored hstored => ?_
    have hshaped := h stored (Table.mem_of_get hstored)
    simpa [IsShaped, flushConnection, Charts.flushed, recordTest] using hshaped

theorem supplied_eq_nil {payload : ConnectionCreate} : payload.supplied = [] ↔
    payload.host = none ∧ payload.port = none ∧ payload.database = none ∧
      payload.username = none := by
  simp [ConnectionCreate.supplied]

theorem missing_eq_nil {payload : ConnectionCreate} : payload.missing = [] ↔
    truthy payload.host = true ∧ truthy payload.database = true ∧
      truthy payload.username = true := by
  simp [ConnectionCreate.missing]

/-- A profile that passes the schema follows the rules. -/
theorem shaped_row {payload : ConnectionCreate} (h : payload.isValid = true) (id token : String) :
    IsShaped (payload.row id token) := by
  unfold ConnectionCreate.isValid at h
  simp only [Bool.and_eq_true] at h
  obtain ⟨⟨-, hcert⟩, hfields⟩ := h
  unfold ConnectionCreate.checkFieldsForDbType at hfields
  refine ⟨fun hsqlite => ?_, fun hother => ?_, fun hread => ?_⟩
  · have hsqlite' : payload.dbType = .sqlite := hsqlite
    rw [if_pos hsqlite'] at hfields
    split at hfields
    · cases hfields
    next hpath =>
      have hpath' : truthy payload.sqlitePath = true := by simpa using hpath
      split at hfields
      · cases hfields
      next hnone =>
        rw [not_or, not_not, Bool.not_eq_true, Option.isSome_eq_false_iff,
          Option.isNone_iff_eq_none] at hnone
        obtain ⟨hhost, hport, hdatabase, husername⟩ := supplied_eq_nil.mp hnone.1
        refine ⟨hpath', hhost, hport, hdatabase, husername, ?_⟩
        simp [ConnectionCreate.row, hnone.2, truthy]
  · have hother' : payload.dbType ≠ .sqlite := hother
    rw [if_neg hother'] at hfields
    split at hfields
    · cases hfields
    next hmissing =>
      split at hfields
      · cases hfields
      next hpath =>
        have hpath' : truthy payload.sqlitePath = false := by simpa using hpath
        obtain ⟨hhost, hdatabase, husername⟩ := missing_eq_nil.mp (not_not.mp hmissing)
        exact ⟨hhost, hdatabase, husername, hpath'⟩
  · unfold ConnectionCreate.checkRootCertIsUsed at hcert
    split at hcert
    · cases hcert
    next hmode => exact ⟨payload.sslMode, by_contra fun hnot => hmode ⟨hread, hnot⟩, rfl⟩

theorem shaped_createConnection {u : Unicode} {payload : ConnectionCreate}
    (hvalid : payload.isValid = true) (h : ∀ row ∈ rows.rows, IsShaped row) (id token : String)
    (error : Option AppError) (now : Instant) :
    ∀ row ∈ (createConnection u rows payload id token error now).1.rows, IsShaped row := by
  unfold createConnection
  cases hinsert : insertConnection rows (payload.row id token) with
  | none => exact h
  | some rows' =>
    refine shaped_testConnection (fun row hrow => ?_) _ error now
    unfold insertConnection at hinsert
    split at hinsert
    · cases hinsert
    · rw [Table.rows_insert hinsert, List.mem_append, List.mem_singleton] at hrow
      rcases hrow with hold | rfl
      · exact h row hold
      · exact shaped_row hvalid id token

/-- The object that an update writes is the merged state. -/
theorem isShaped_of_assign (hassign : payload.assign token conn = some new)
    (h : FollowsRules (merged payload token conn) (mergedMode payload conn)) : IsShaped new := by
  obtain ⟨name, -, hassign⟩ := Option.bind_eq_some_iff.mp hassign
  obtain ⟨sslMode, hmode, hassign⟩ := Option.bind_eq_some_iff.mp hassign
  obtain rfl := Option.some.inj hassign
  have hmerged : mergedMode payload conn = some sslMode := hmode
  rw [hmerged] at h
  exact ⟨h.sqlite, h.other, h.cert⟩

/-- Where an update breaks no rule, the rows follow the rules afterwards. -/
theorem shaped_updateConnection {u : Unicode} (h : ∀ row ∈ rows.rows, IsShaped row)
    (hget : rows.get conn.id = some conn)
    (hrules : FollowsRules (merged payload token conn) (mergedMode payload conn))
    (error : Option AppError) (now : Instant) :
    ∀ row ∈ (updateConnection u rows conn payload token error now).1.rows, IsShaped row := by
  unfold updateConnection
  split
  · exact h
  · split
    · exact h
    next new hassign =>
      split
      · exact h
      next rows' hcommit =>
        refine shaped_testConnection (forall_commitConnection hcommit h ?_) new error now
        intro stored hstored
        obtain rfl := Option.some.inj (hget.symm.trans hstored)
        have hshaped := isShaped_of_assign hassign hrules
        simpa [IsShaped, flushConnection, Charts.flushed_self] using hshaped

end Rows

/-! ## Runs -/

section Runs

variable {u : Unicode} {s t : State}

/-- An update is refused by the checks, and by nothing else, with `INVALID_CONNECTION_CONFIG`. -/
theorem updateConnection_refused_iff (u : Unicode) (rows : Rows) (conn : Connection)
    (payload : ConnectionUpdate) (token : String) (error : Option AppError) (now : Instant) :
    ((∃ failure,
        (updateConnection u rows conn payload token error now).2 = .error (.refused failure) ∧
          failure.errorCode = .invalidConnectionConfig) ∧
      (updateConnection u rows conn payload token error now).1 = rows) ↔
    misplaced payload conn = true ∨ unread payload conn = true := by
  unfold updateConnection
  by_cases hplace : misplaced payload conn = true
  · obtain ⟨failure, hcheck, hcode⟩ := check_of_misplaced hplace
    rw [hcheck]
    exact iff_of_true ⟨⟨failure, rfl, hcode⟩, rfl⟩ (.inl hplace)
  · have hplace' : misplaced payload conn = false := Bool.not_eq_true _ ▸ hplace
    by_cases hread : unread payload conn = true
    · have hcheck := check_of_not_misplaced hplace'
      obtain ⟨hcert, hmode⟩ := Bool.and_eq_true_iff.mp hread
      obtain ⟨mode, hmode, hnot⟩ := (Option.any_eq_true _ _).mp hmode
      rw [hcert, hmode] at hcheck
      simp only [if_true, of_decide_eq_true hnot, not_false_eq_true] at hcheck
      rw [hcheck]
      exact iff_of_true ⟨⟨_, rfl, rfl⟩, rfl⟩ (.inr hread)
    · refine iff_of_false ?_ fun hrefused => hrefused.elim hplace hread
      rintro ⟨⟨failure, hresult, hcode⟩, -⟩
      rcases check_of_read hplace' (Bool.not_eq_true _ ▸ hread) with hnull | hok
      · rw [hnull] at hresult
        cases hresult
      · rw [hok] at hresult
        simp only at hresult
        split at hresult
        · cases hresult
          cases hcode
        · split at hresult
          · cases hresult
            cases hcode
          · cases hresult

/-- What the statements record of an update. -/
def answered (u : Unicode) (rows : Rows) (conn : Connection) (payload : ConnectionUpdate)
    (token : String) (error : Option AppError) (now : Instant) : Update where
  conn := conn
  payload := payload
  token := token
  result := (updateConnection u rows conn payload token error now).2
  before := rows
  after := (updateConnection u rows conn payload token error now).1

/-- One update that would break a rule is refused, if and only if it is careful. -/
theorem answered_iff (u : Unicode) (rows : Rows) {conn : Connection} (hconn : IsShaped conn)
    (payload : ConnectionUpdate) (token : String) (error : Option AppError) (now : Instant) :
    ((answered u rows conn payload token error now).Breaks →
        (answered u rows conn payload token error now).Refused) ↔
      misplaced payload conn = true ∨ unread payload conn = true ∨ Spares payload conn := by
  have hrefused := updateConnection_refused_iff u rows conn payload token error now
  rw [← or_assoc, ← hrefused]
  by_cases hchecked : misplaced payload conn = true ∨ unread payload conn = true
  · exact iff_of_true (fun _ => hrefused.mpr hchecked) (.inl (hrefused.mpr hchecked))
  · rw [or_iff_right (hrefused.not.mpr hchecked)]
    obtain ⟨hplace, hread⟩ := not_or.mp hchecked
    rw [← followsRules_merged_iff hconn (Bool.not_eq_true _ ▸ hplace) (Bool.not_eq_true _ ▸ hread)
      token]
    constructor
    · intro h
      by_contra hbreaks
      exact hchecked (hrefused.mp (h hbreaks))
    · intro hrules hbreaks
      exact absurd hrules hbreaks

/-- The step lemma. -/
theorem WellShaped.step_iff {a : Action} (h : WellShaped s) (hstep : step u s a = some t) :
    WellShaped t ↔ Careful s a := by
  cases a with
  | create payload id token error now =>
    simp only [step] at hstep
    split at hstep
    next hvalid =>
      obtain rfl := Option.some.inj hstep
      exact iff_of_true ⟨shaped_createConnection hvalid h.stored id token error now, h.refused⟩
        trivial
    · cases hstep
  | update id payload token error now =>
    simp only [step] at hstep
    split at hstep
    · split at hstep
      next hnone =>
        obtain rfl := Option.some.inj hstep
        refine iff_of_true h fun conn hget => ?_
        rw [hnone] at hget
        cases hget
      next conn hget =>
        obtain rfl := Option.some.inj hstep
        have hid : conn.id = id := Table.key_of_get hget
        subst hid
        have hconn := h.stored conn (Table.mem_of_get hget)
        have hcareful : Careful s (.update conn.id payload token error now) ↔
            misplaced payload conn = true ∨ unread payload conn = true ∨ Spares payload conn := by
          constructor
          · exact fun hall => hall conn hget
          · intro hone conn' hget'
            obtain rfl := Option.some.inj (hget.symm.trans hget')
            exact hone
        rw [hcareful, ← answered_iff u s.rows hconn payload token error now]
        constructor
        · intro hafter
          exact hafter.refused _ List.mem_cons_self
        · intro hanswer
          refine ⟨?_, fun x hx => ?_⟩
          · by_cases hbreaks : (answered u s.rows conn payload token error now).Breaks
            · intro row hrow
              have hsame : (updateConnection u s.rows conn payload token error now).1 = s.rows :=
                (hanswer hbreaks).2
              exact h.stored row (hsame ▸ hrow)
            · exact shaped_updateConnection h.stored hget (not_not.mp hbreaks) error now
          · rcases List.mem_cons.mp hx with rfl | hold
            · exact hanswer
            · exact h.refused x hold
    · cases hstep

/-- **The rules hold of every stored connection, and an update that would break one is refused**, in
every state of a run, exactly when each of its updates is careful. -/
theorem wellShaped_iff {rows : Rows} (hrows : ∀ conn ∈ rows.rows, IsShaped conn)
    {as : List Action} (h : Machine.Run (step u) Machine.Always (start rows) as s) :
    Machine.Throughout (step u) WellShaped (start rows) as ↔
      Machine.Run (step u) Careful (start rows) as s := by
  have hstart : WellShaped (start rows) := ⟨hrows, fun _ hx => absurd hx List.not_mem_nil⟩
  exact Machine.throughout_iff (I := fun _ => True) (fun _ _ _ _ _ => trivial)
    (fun _ _ _ _ hP hstep => hP.step_iff hstep) h trivial hstart

end Runs

namespace Sample

/-- A sqlite connection, and the null that is sent for its path. -/
def removal : List Action :=
  [.create { name := "c", dbType := .sqlite, sqlitePath := some "/data/c.db" } "c" "" none 1,
    .update "c" { sqlitePath := some none } "" none 2]

end Sample

/-- A sqlite connection is left without its path. -/
theorem path_removed :
    ∃ s, Machine.Run (step .ascii) Machine.Always (start .empty) Sample.removal s ∧
      ¬ WellShaped s := by
  have hexec : (Machine.exec (step .ascii) (start .empty) Sample.removal).any (fun s =>
      (s.rows.get "c").any fun conn => conn.dbType = .sqlite && conn.sqlitePath.isNone) = true := by
    decide
  obtain ⟨s, hrun, hpath⟩ := Machine.exists_run_of_exec_any hexec
  refine ⟨s, hrun, fun hshaped => ?_⟩
  obtain ⟨conn, hget, hnone⟩ := (Option.any_eq_true _ _).mp hpath
  simp only [Bool.and_eq_true, decide_eq_true_eq, Option.isNone_iff_eq_none] at hnone
  have hrules := (hshaped.stored conn (Table.mem_of_get hget)).sqlite hnone.1
  rw [hnone.2] at hrules
  exact absurd hrules.1 nofun

theorem wellShaped_iff_removal :
    ∃ s, Machine.Run (step .ascii) Machine.Always (start .empty) Sample.removal s ∧
      (Machine.Throughout (step .ascii) WellShaped (start .empty) Sample.removal ↔
        Machine.Run (step .ascii) Careful (start .empty) Sample.removal s) := by
  have hexec : (Machine.exec (step .ascii) (start .empty) Sample.removal).any (fun _ => true) =
      true := by decide
  obtain ⟨s, hrun, -⟩ := Machine.exists_run_of_exec_any hexec
  exact ⟨s, hrun, wellShaped_iff (fun _ hconn => absurd hconn List.not_mem_nil) hrun⟩

end FraudAnalyzer.Connections.Shape
