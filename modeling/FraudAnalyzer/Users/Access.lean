import FraudAnalyzer.Lib.Run
import FraudAnalyzer.Users.Authentication
import Mathlib.Logic.Function.Basic

/-!
# Logins, password changes and resets side by side

The requests that concern one account, interleaved at every statement that reads or commits: logins,
`POST /auth/change-password`, and an administrator's `reset_password`. An `UPDATE` sets the columns
that differ from the account as the request has read it. The `DELETE` of a reset finds the sessions
that are there when it runs, and takes effect with the commit. Locks, which only keep steps apart,
are left out.

`version`, `opened`, `issued`, `basis` and `endings` are for the statements only: each write of the
password makes a new version of it.
-/

namespace FraudAnalyzer.Users.Access

open Python

structure AccessEnv extends AuthEnv where
  /-- `hash_password`, with the salt it draws -/
  hashPassword : String → String → String
  /-- `session_absolute_hours` -/
  absoluteHours : Int
  /-- `session_idle_hours` -/
  idleHours : Int

/-- `timedelta(hours=..)`, in microseconds -/
def ofHours (hours : Int) : Int := ofMinutes (60 * hours)

/-- `TEMP_PASSWORD_HOURS` -/
def tempPasswordHours : Int := 72

/-! ## Sessions -/

/-- `(user_agent or None) and user_agent[:400]` -/
def truncated (userAgent : Option String) : Option String :=
  (userAgent.filter fun text => text ≠ "").map fun text => String.ofList (text.toList.take 400)

/-- `issue`, with the digest of the token it draws -/
def issue (E : AccessEnv) (sessions : Table UserSession.id) (user : User) (id : String)
    (now : Instant) (ip userAgent : Option String) : Option (Table UserSession.id) :=
  sessions.insert
    { id := id
      userId := user.id
      createdAt := now
      expiresAt := now + ofHours E.absoluteHours
      lastSeenAt := now
      ip := ip
      userAgent := truncated userAgent }

/-- `issue_with_id`, for the session that was read -/
def issueWithId (sessions : Table UserSession.id) (user : User) (survivor : UserSession)
    (now : Instant) : Option (Table UserSession.id) :=
  sessions.insert { survivor with userId := user.id, lastSeenAt := now }

/-- `revoke_all_for_user` -/
def revokeAllForUser (sessions : Table UserSession.id) (userId : String) : Table UserSession.id :=
  sessions.deleteWhere fun session => session.userId = userId

/-- The session has not expired, and has not been idle too long. -/
def isOpen (E : AccessEnv) (stored : UserSession) (now : Instant) : Bool :=
  !(stored.expiresAt ≤ now) && !(stored.lastSeenAt + ofHours E.idleHours ≤ now)

/-! ## What an `UPDATE` of the account sets -/

/-- The counters, where they differ from what was read. -/
def flushCounters (read written row : User) : User :=
  { row with
    failedLoginCount :=
      if written.failedLoginCount = read.failedLoginCount then row.failedLoginCount
      else written.failedLoginCount
    lockedUntil :=
      if written.lockedUntil = read.lockedUntil then row.lockedUntil else written.lockedUntil
    lastLoginAt :=
      if written.lastLoginAt = read.lastLoginAt then row.lastLoginAt else written.lastLoginAt }

/-- The password, whose salt makes it a new one, and what differs of the other columns. -/
def flushPassword (read written row : User) : User :=
  { flushCounters read written row with
    passwordHash := written.passwordHash
    mustChangePassword :=
      if written.mustChangePassword = read.mustChangePassword then row.mustChangePassword
      else written.mustChangePassword
    tempPasswordExpiresAt :=
      if written.tempPasswordExpiresAt = read.tempPasswordExpiresAt then row.tempPasswordExpiresAt
      else written.tempPasswordExpiresAt }

/-- The account with the password its owner has chosen. -/
def withChosen (user : User) (passwordHash : String) : User :=
  { user with
    passwordHash := passwordHash, mustChangePassword := false, tempPasswordExpiresAt := none }

/-- The account with a temporary password. -/
def withTemporary (user : User) (passwordHash : String) (now : Instant) : User :=
  { user with
    passwordHash := passwordHash, mustChangePassword := true
    tempPasswordExpiresAt := some (now + ofHours tempPasswordHours)
    failedLoginCount := 0, lockedUntil := none }

/-! ## Requests -/

/-- Where a request stands. A `basis` is the version of the password that the request has read, and
verifies; `since` is how many endings there were when the calling session was looked up for the
sweep. -/
inductive Stage where
  | missed (user : User) (now : Instant)
  | verified (user : User) (now : Instant) (basis : Nat)
  | counted (basis : Nat)
  | purged (basis : Nat)
  | called (stored : UserSession) (now : Instant)
  | loaded (sessionId : String) (now : Instant) (user : User) (basis : Nat)
  | resolved (sessionId : String) (user : User) (basis : Nat)
  | held (survivor : Option UserSession) (since : Nat) (user : User) (basis : Nat)
  | checked (survivor : Option UserSession) (since : Nat) (user : User) (basis : Nat) (new : String)
  | changed (survivor : Option UserSession) (since : Nat) (version : Nat)
  | revoked (survivor : Option UserSession) (since : Nat) (version : Nat)
  | target (user : User)
  | resetting (user : User) (ids : List String)

/-- A reset or a change that has revoked the sessions: the version of the password it wrote, the
session it spares, and the sessions that had been opened by then. -/
structure Ending where
  version : Nat
  spared : Option String
  isReset : Bool
  before : List String

structure State where
  /-- The account. -/
  user : User
  sessions : Table UserSession.id
  requests : Nat → Option Stage
  version : Nat
  /-- The version of the password that the login which opened a session has verified. -/
  opened : String → Nat
  /-- The digests of the tokens given out so far, which are never drawn again. -/
  issued : List String
  /-- The version that the request which chose the stored password has verified. -/
  basis : Option Nat
  endings : List Ending

namespace State

/-- No request is in progress. -/
def start (user : User) (sessions : Table UserSession.id) : State where
  user := user
  sessions := sessions
  requests _ := none
  version := 0
  opened _ := 0
  issued := sessions.rows.map UserSession.id
  basis := none
  endings := []

def put (s : State) (i : Nat) (stage : Stage) : State :=
  { s with requests := Function.update s.requests i (some stage) }

def drop (s : State) (i : Nat) : State :=
  { s with requests := Function.update s.requests i none }

/-- The `UPDATE` of `last_seen_at`. -/
def touch (s : State) (sessionId : String) (now : Instant) : State :=
  { s with
    sessions := s.sessions.modify sessionId (fun stored => { stored with lastSeenAt := now })
      (UserSession.touched_id now) }

end State

/-- The steps of a login, of a password change, and of a reset, in their order; then a logout, and a
client that goes away. `exempt` is whether the account is the last active administrator's. -/
inductive Action where
  | login (i : Nat) (now : Instant) (password : String)
  | commitCounters (i : Nat) (exempt : Bool)
  | purge (i : Nat) (now : Instant)
  | issue (i : Nat) (id : String) (now : Instant) (ip userAgent : Option String)
  | call (i : Nat) (sessionId : String) (now : Instant)
  | load (i : Nat)
  | touch (i : Nat)
  | snapshot (i : Nat)
  | check (i : Nat) (current new : String)
  | write (i : Nat) (salt : String)
  | revoke (i : Nat)
  | restore (i : Nat) (now : Instant)
  | openReset (i : Nat)
  | deleteSessions (i : Nat)
  | commitReset (i : Nat) (salt temporary : String) (now : Instant)
  | logout (sessionId : String)
  | abort (i : Nat)

/-- A login. -/
def loginStep (E : AccessEnv) (s : State) (i : Nat) (stage : Stage) : Action → Option State
  | .commitCounters _ exempt =>
    match stage with
    | .missed user now =>
      if !user.isLocked now && !exempt then
        some ({ s with user := flushCounters user (countFailure now user) s.user }.drop i)
      else some (s.drop i)
    | .verified user now basis =>
      some
        ({ s with user := flushCounters user (noteLogin now user) s.user }.put i (.counted basis))
    | _ => none
  | .purge _ now =>
    match stage with
    | .counted basis =>
      some ({ s with sessions := purgeExpired s.sessions now }.put i (.purged basis))
    | _ => none
  | .issue _ id now ip userAgent =>
    match stage with
    | .purged basis =>
      if id ∈ s.issued then none
      else
        (Access.issue E s.sessions s.user id now ip userAgent).map fun sessions =>
          { s with
            sessions := sessions
            opened := Function.update s.opened id basis
            issued := id :: s.issued }.drop i
    | _ => none
  | _ => none

/-- A password change: `resolve` first, then the route. The `UPDATE` of `last_seen_at` fails when
the session is gone, and so does the restoring of a session that is there. -/
def changeStep (E : AccessEnv) (s : State) (i : Nat) (stage : Stage) : Action → Option State
  | .load _ =>
    match stage with
    | .called stored now =>
      if s.user.isActive then some (s.put i (.loaded stored.id now s.user s.version))
      else some (s.drop i)
    | _ => none
  | .touch _ =>
    match stage with
    | .loaded sessionId now user basis =>
      match s.sessions.get sessionId with
      | none => some (s.drop i)
      | some _ =>
        some ((s.touch sessionId now).put i (.resolved sessionId user basis))
    | _ => none
  | .snapshot _ =>
    match stage with
    | .resolved sessionId user basis =>
      some (s.put i (.held (s.sessions.get sessionId) s.endings.length user basis))
    | _ => none
  | .check _ current new =>
    match stage with
    | .held survivor since user basis =>
      match checkChange E.toAuthEnv user current new with
      | .error _ => some (s.drop i)
      | .ok () => some (s.put i (.checked survivor since user basis new))
    | _ => none
  | .write _ salt =>
    match stage with
    | .checked survivor since user basis new =>
      some
        ({ s with
            user := flushPassword user (withChosen user (E.hashPassword salt new)) s.user
            version := s.version + 1
            basis := some basis }.put i (.changed survivor since (s.version + 1)))
    | _ => none
  | .revoke _ =>
    match stage with
    | .changed survivor since version =>
      let ending : Ending := ⟨version, survivor.map UserSession.id, false, s.issued⟩
      some
        ({ s with
            sessions := revokeAllForUser s.sessions s.user.id
            endings := s.endings ++ [ending] }.put i (.revoked survivor since version))
    | _ => none
  | .restore _ now =>
    match stage with
    | .revoked none _ _ => some (s.drop i)
    | .revoked (some survivor) _ _ =>
      match issueWithId s.sessions s.user survivor now with
      | none => some (s.drop i)
      | some sessions => some ({ s with sessions := sessions }.drop i)
    | _ => none
  | _ => none

/-- A reset. -/
def resetStep (E : AccessEnv) (s : State) (i : Nat) (stage : Stage) : Action → Option State
  | .deleteSessions _ =>
    match stage with
    | .target user =>
      let ids := (s.sessions.rows.filter fun session => session.userId = s.user.id).map
        UserSession.id
      some (s.put i (.resetting user ids))
    | _ => none
  | .commitReset _ salt temporary now =>
    match stage with
    | .resetting user ids =>
      let written := withTemporary user (E.hashPassword salt temporary) now
      let ending : Ending := ⟨s.version + 1, none, true, s.issued⟩
      some
        ({ s with
            user := flushPassword user written s.user
            sessions := s.sessions.deleteWhere fun session => session.id ∈ ids
            version := s.version + 1
            basis := none
            endings := s.endings ++ [ending] }.drop i)
    | _ => none
  | _ => none

/-- One step of one request. A request that is refused ends. -/
def step (E : AccessEnv) (s : State) (a : Action) : Option State :=
  match a with
  | .login i now password =>
    match s.requests i with
    | some _ => none
    | none =>
      match checkCredentials E.toAuthEnv s.user now password with
      | .wrongPassword => some (s.put i (.missed s.user now))
      | .refused _ => some s
      | .accepted => some (s.put i (.verified s.user now s.version))
  | .call i sessionId now =>
    match s.requests i with
    | some _ => none
    | none =>
      match s.sessions.get sessionId with
      | none => some s
      | some stored =>
        if stored.userId ≠ s.user.id then none
        else if isOpen E stored now then some (s.put i (.called stored now))
        else some s
  | .openReset i =>
    match s.requests i with
    | some _ => none
    | none => some (s.put i (.target s.user))
  | .logout sessionId =>
    some { s with sessions := s.sessions.deleteWhere fun session => session.id = sessionId }
  | .abort i => some (s.drop i)
  | .commitCounters i _ | .purge i _ | .issue i _ _ _ _ =>
    (s.requests i).bind fun stage => loginStep E s i stage a
  | .load i | .touch i | .snapshot i | .check i _ _ | .write i _ | .revoke i | .restore i _ =>
    (s.requests i).bind fun stage => changeStep E s i stage a
  | .deleteSessions i | .commitReset i _ _ _ =>
    (s.requests i).bind fun stage => resetStep E s i stage a

end FraudAnalyzer.Users.Access
