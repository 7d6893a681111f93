import FraudAnalyzer.Users.Access
import FraudAnalyzer.Users.Updating

/-!
# Opening, changing and resetting accounts

`create_user`, `update_user` and `reset_password` of `app/features/users/service.py` side by side,
each with the audit entry that its transaction commits. The statements of `update_user` are those of
`Users.Updating`. The `INSERT` of `create_user` and its commit are one step: the unique index and
the `CHECK` on `email` decide there, since what they refuse is an error that `create_user` does not
catch.
-/

namespace FraudAnalyzer.Users.Management

open Python Access

/-! ## `create_user` -/

/-- `UserCreate` -/
structure UserCreate where
  email : String
  fullName : String
  role : UserRole

/-- `email.strip().lower()` -/
def normalise (E : AccessEnv) (email : String) : String := E.unicode.lower (strip E.unicode email)

def duplicateEmail (normalised : String) : AppError :=
  ⟨.duplicateEmail, normalised ++ " already has an account.", []⟩

/-- The row of a new account, which has a temporary password. -/
def newUser (E : AccessEnv) (payload : UserCreate) (id salt temporary : String) (now : Instant) :
    User where
  id := id
  email := normalise E payload.email
  fullName := strip E.unicode payload.fullName
  passwordHash := E.hashPassword salt temporary
  role := payload.role
  isActive := true
  mustChangePassword := true
  tempPasswordExpiresAt := some (now + ofHours tempPasswordHours)
  failedLoginCount := 0
  lockedUntil := none
  lastLoginAt := none

/-- `create_user`, up to its `INSERT`. -/
def prepareCreate (E : AccessEnv) (db : Accounts) (payload : UserCreate)
    (id salt temporary : String) (now : Instant) : Except AppError User :=
  match accountOf E.toAuthEnv db.users payload.email with
  | some _ => .error (duplicateEmail (normalise E payload.email))
  | none => .ok (newUser E payload id salt temporary now)

/-- The `INSERT`, with `ck_users_email_lowercase` and the unique index on `email`. -/
def insertUser (E : AccessEnv) (users : Table User.id) (user : User) : Option (Table User.id) :=
  if E.sqlLower user.email = user.email ∧ user.email ∉ users.rows.map User.email then
    users.insert user
  else none

def createdEntry (actorId : String) (user : User) : AuditLog :=
  ⟨actorId, .userCreated, user.id, [("email", .str user.email), ("role", .str user.role.value)]⟩

def resetEntry (actorId : String) (user : User) : AuditLog :=
  ⟨actorId, .userPasswordReset, user.id, [("email", .str user.email)]⟩

/-! ## Requests side by side -/

/-- Where a request other than an update stands. -/
inductive Stage where
  | creating (actorId : String) (user : User)
  | target (actorId : String) (user : User)
  | resetting (actorId : String) (user : User) (ids : List String)

structure State where
  /-- The accounts, the audit log and the updates in progress. -/
  updating : Updating.State
  requests : Nat → Option Stage

namespace State

/-- No request is in progress. -/
def start (db : Accounts) : State := ⟨.start db, fun _ => none⟩

def db (s : State) : Accounts := s.updating.db

def auditLogs (s : State) : List AuditLog := s.updating.auditLogs

def put (s : State) (i : Nat) (stage : Stage) : State :=
  { s with requests := Function.update s.requests i (some stage) }

def drop (s : State) (i : Nat) : State :=
  { s with requests := Function.update s.requests i none }

/-- The commit of a request and its audit entry. -/
def commit (s : State) (i : Nat) (db : Accounts) (entry : AuditLog) : State :=
  { s with
    updating := { s.updating with db := db, auditLogs := s.auditLogs ++ [entry] }
    requests := Function.update s.requests i none }

end State

/-- The steps of an update; of a creation; and of a reset, in their order. -/
inductive Action where
  | update (a : Updating.Action)
  | openCreate (i : Nat) (actorId : String) (payload : UserCreate) (id salt temporary : String)
      (now : Instant)
  | commitCreate (i : Nat)
  | openReset (i : Nat) (actorId userId : String)
  | deleteSessions (i : Nat)
  | commitReset (i : Nat) (salt temporary : String) (now : Instant)
  | abort (i : Nat)

/-- One step of one request, `none` while it waits for a row. A request that is refused ends. -/
def step (E : AccessEnv) (s : State) : Action → Option State
  | .update a => (Updating.step s.updating a).map fun updating => { s with updating := updating }
  | .openCreate i actorId payload id salt temporary now =>
    match s.requests i with
    | some _ => none
    | none =>
      match prepareCreate E s.db payload id salt temporary now with
      | .error _ => some s
      | .ok user => some (s.put i (.creating actorId user))
  | .commitCreate i =>
    match s.requests i with
    | some (.creating actorId user) =>
      match insertUser E s.db.users user with
      | none => some (s.drop i)
      | some users => some (s.commit i { s.db with users := users } (createdEntry actorId user))
    | _ => none
  | .openReset i actorId userId =>
    match s.requests i with
    | some _ => none
    | none =>
      match Updating.getOr404 s.db userId with
      | .error _ => some s
      | .ok user => some (s.put i (.target actorId user))
  | .deleteSessions i =>
    match s.requests i with
    | some (.target actorId user) =>
      let ids := (s.db.sessions.rows.filter fun session => session.userId = user.id).map
        UserSession.id
      some (s.put i (.resetting actorId user ids))
    | _ => none
  | .commitReset i salt temporary now =>
    match s.requests i with
    | some (.resetting actorId user ids) =>
      if s.updating.holder user.id = none then
        let written := withTemporary user (E.hashPassword salt temporary) now
        some
          (s.commit i
            { users := s.db.users.modify user.id (flushPassword user written) fun _ => rfl
              sessions := s.db.sessions.deleteWhere fun session => session.id ∈ ids }
            (resetEntry actorId user))
      else none
    | _ => none
  | .abort i => some (s.drop i)

end FraudAnalyzer.Users.Management
