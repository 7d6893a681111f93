import FraudAnalyzer.Charts.Models

/-!
# Accounts and sessions

The rows of `users` and `sessions`, with the columns that signing in and the management of accounts
read or write.
-/

namespace FraudAnalyzer.Users

inductive UserRole where
  | admin
  | analyst
  deriving DecidableEq, Repr

def UserRole.value : UserRole → String
  | .admin => "admin"
  | .analyst => "analyst"

structure User where
  id : String
  email : String
  fullName : String
  passwordHash : String
  role : UserRole
  isActive : Bool
  mustChangePassword : Bool
  tempPasswordExpiresAt : Option Instant
  failedLoginCount : Int
  lockedUntil : Option Instant
  lastLoginAt : Option Instant
  deriving DecidableEq

/-- One signed-in browser; `id` is the digest of its token. -/
structure UserSession where
  id : String
  userId : String
  createdAt : Instant
  expiresAt : Instant
  lastSeenAt : Instant
  ip : Option String
  userAgent : Option String
  deriving DecidableEq

theorem UserSession.touched_id (now : Instant) (stored : UserSession) :
    { stored with lastSeenAt := now }.id = stored.id := rfl

structure Accounts where
  users : Table User.id
  sessions : Table UserSession.id

/-- An administrator who can administer, unless the account is locked. -/
def User.isActiveAdmin (user : User) : Bool := user.role = .admin && user.isActive

/-- `locked_until` is still to come. -/
def User.isLocked (user : User) (now : Instant) : Bool := user.lockedUntil.any fun t => now < t

/-- A lock runs out. -/
theorem User.isLocked_mono {user : User} {now now' : Instant} (hnow : now ≤ now')
    (h : user.isLocked now = false) : user.isLocked now' = false := by
  unfold User.isLocked at h ⊢
  cases hlock : user.lockedUntil with
  | none => rfl
  | some t =>
    rw [hlock] at h
    simp only [Option.any_some, decide_eq_false_iff_not, Int.not_lt] at h ⊢
    exact Int.le_trans h hnow

/-! ## An administrator -/

namespace Sample

def admin (id email : String) : User where
  id := id
  email := email
  fullName := id
  passwordHash := "correct"
  role := .admin
  isActive := true
  mustChangePassword := false
  tempPasswordExpiresAt := none
  failedLoginCount := 0
  lockedUntil := none
  lastLoginAt := none

end Sample

end FraudAnalyzer.Users
