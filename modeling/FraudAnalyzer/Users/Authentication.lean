import FraudAnalyzer.Errors
import FraudAnalyzer.Python.Text
import FraudAnalyzer.Users.Models

/-!
# Turning credentials into a user

`authenticate` of `app/features/auth/service.py`, which commits what it counts before it refuses.
The comparison of a password with its hash, and the `lower` of the database, are parameters.
-/

namespace FraudAnalyzer.Users

open Python

structure AuthEnv where
  unicode : Unicode
  /-- `lower` of the database -/
  sqlLower : String → String
  /-- `verify_password` -/
  verifyPassword : String → String → Bool

/-- `MAX_FAILED_LOGINS` -/
def maxFailedLogins : Int := 5

/-- `LOCKOUT_MINUTES` -/
def lockoutMinutes : Int := 15

/-- `timedelta(minutes=..)`, in microseconds -/
def ofMinutes (minutes : Int) : Int := minutes * 60 * 1000000

/-- `_REFUSAL` -/
def refusal : AppError := ⟨.invalidCredentials, "Those details are not right.", []⟩

def accountLocked : AppError :=
  ⟨.accountLocked, "Too many failed attempts. Try again in 15 minutes.", []⟩

/-- `_is_last_active_admin` -/
def isLastActiveAdmin (users : Table User.id) (user : User) : Bool :=
  if user.role ≠ .admin || !user.isActive then false
  else
    let others := users.rows.countP fun other =>
      other.role = .admin && other.isActive && other.id ≠ user.id
    others == 0

/-- The account with this address. -/
def accountOf (E : AuthEnv) (users : Table User.id) (email : String) : Option User :=
  let normalised := E.unicode.lower (strip E.unicode email)
  users.rows.find? fun user => E.sqlLower user.email = normalised

/-- One more failure; with the last one the account is locked and the count starts again. -/
def countFailure (now : Instant) (user : User) : User :=
  if maxFailedLogins ≤ user.failedLoginCount + 1 then
    { user with
      failedLoginCount := 0, lockedUntil := some (now + ofMinutes lockoutMinutes) }
  else { user with failedLoginCount := user.failedLoginCount + 1 }

theorem countFailure_id (now : Instant) (user : User) : (countFailure now user).id = user.id := by
  unfold countFailure
  split
  · rfl
  · rfl

/-- A successful login. -/
def noteLogin (now : Instant) (user : User) : User :=
  { user with failedLoginCount := 0, lockedUntil := none, lastLoginAt := some now }

/-- `purge_expired` -/
def purgeExpired (sessions : Table UserSession.id) (now : Instant) : Table UserSession.id :=
  sessions.deleteWhere fun session => session.expiresAt ≤ now

inductive CredentialCheck where
  | wrongPassword
  | refused (error : AppError)
  | accepted

/-- The password first and the lock second. -/
def checkCredentials (E : AuthEnv) (user : User) (now : Instant) (password : String) :
    CredentialCheck :=
  if !E.verifyPassword password user.passwordHash then .wrongPassword
  else if user.isLocked now then .refused accountLocked
  else if !user.isActive then .refused refusal
  else if user.tempPasswordExpiresAt.any fun t => t ≤ now then .refused refusal
  else .accepted

/-- `authenticate`; `purgedAt` is the clock when it deletes expired sessions. -/
def authenticate (E : AuthEnv) (db : Accounts) (now purgedAt : Instant) (email password : String) :
    Accounts × Except AppError User :=
  match accountOf E db.users email with
  | none => (db, .error refusal)
  | some user =>
    match checkCredentials E user now password with
    | .wrongPassword =>
      if !user.isLocked now && !isLastActiveAdmin db.users user then
        ({ db with users := db.users.modify user.id (countFailure now) (countFailure_id now) },
          .error refusal)
      else (db, .error refusal)
    | .refused error => (db, .error error)
    | .accepted =>
      ({ users := db.users.modify user.id (noteLogin now) fun _ => rfl
         sessions := purgeExpired db.sessions purgedAt },
        .ok (noteLogin now user))

/-! ## What an attempt does to the accounts -/

/-- Nothing, or one more failure of an account that may be locked, or the login of an account that
is not. -/
inductive Attempted (E : AuthEnv) (users : Table User.id) (now : Instant)
    (email password : String) : Table User.id → Prop
  | nothing : Attempted E users now email password users
  | failure {user} (haccount : accountOf E users email = some user)
      (hwrong : E.verifyPassword password user.passwordHash = false)
      (hlocked : user.isLocked now = false) (hlast : isLastActiveAdmin users user = false) :
      Attempted E users now email password
        (users.modify user.id (countFailure now) (countFailure_id now))
  | login {user} (haccount : accountOf E users email = some user) :
      Attempted E users now email password
        (users.modify user.id (noteLogin now) fun _ => rfl)

theorem verifyPassword_of_wrongPassword {E : AuthEnv} {user : User} {now : Instant}
    {password : String} (h : checkCredentials E user now password = .wrongPassword) :
    E.verifyPassword password user.passwordHash = false := by
  by_contra hright
  rw [Bool.not_eq_false] at hright
  simp only [checkCredentials, hright, Bool.not_true, Bool.false_eq_true, if_false] at h
  split at h
  · cases h
  · split at h
    · cases h
    · split at h
      · cases h
      · cases h

theorem checkCredentials_of_wrong {E : AuthEnv} {user : User} {password : String}
    (h : E.verifyPassword password user.passwordHash = false) (now : Instant) :
    checkCredentials E user now password = .wrongPassword := by
  simp [checkCredentials, h]

theorem attempted_authenticate (E : AuthEnv) (db : Accounts) (now purgedAt : Instant)
    (email password : String) :
    Attempted E db.users now email password
      (authenticate E db now purgedAt email password).1.users := by
  unfold authenticate
  split
  · exact .nothing
  next user haccount =>
    split
    next hwrong =>
      have hverify := verifyPassword_of_wrongPassword hwrong
      split
      next hcounts =>
        simp only [Bool.and_eq_true, Bool.not_eq_eq_eq_not, Bool.not_true] at hcounts
        exact .failure haccount hverify hcounts.1 hcounts.2
      · exact .nothing
    · exact .nothing
    · exact .login haccount

/-! ## Changing a password -/

/-- `_COMMON` -/
def commonPasswords : List String :=
  ["password", "password1", "password123", "password1234", "password12345", "password123456",
    "passw0rd", "qwertyuiop", "1234567890", "123456789012", "letmein", "welcome", "welcome123",
    "administrator", "changeme", "changeme123", "switchboard", "switchboard1"]

/-- `validate_password_strength` -/
def validatePasswordStrength (u : Unicode) (plaintext : String) : Except AppError Unit :=
  if plaintext.length < 12 then
    .error ⟨.weakPassword, "A password must be at least 12 characters.", []⟩
  else if u.lower (strip u plaintext) ∈ commonPasswords then
    .error ⟨.weakPassword,
      "That password is one of the first an attacker tries. Choose another.", []⟩
  else .ok ()

/-- `change_password`, up to its write, for the account as it was read. -/
def checkChange (E : AuthEnv) (user : User) (current new : String) : Except AppError Unit :=
  if !E.verifyPassword current user.passwordHash then
    .error ⟨.invalidCredentials, "That is not your current password.", []⟩
  else if E.verifyPassword new user.passwordHash then
    .error ⟨.weakPassword, "Your new password must be different from your current one.", []⟩
  else validatePasswordStrength E.unicode new

end FraudAnalyzer.Users
