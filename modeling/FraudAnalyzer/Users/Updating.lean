import FraudAnalyzer.Errors
import FraudAnalyzer.Lib.Run
import FraudAnalyzer.Users.Models
import Mathlib.Data.List.Perm.Basic
import Mathlib.Logic.Function.Basic

/-!
# Changing accounts side by side

`update_user` and `guard_last_admin` of `app/features/users/service.py`, in any number of
transactions that are interleaved at every statement. The isolation is `READ COMMITTED`: a statement
reads what is committed, a row that another transaction has locked is waited for, and a
`SELECT ... FOR UPDATE` looks again at a row once it has it.

The target is read without a lock. What is written of it are the columns that differ from what was
read.
-/

namespace FraudAnalyzer.Users.Updating

/-- `UserUpdate` -/
structure UserUpdate where
  isActive : Option Bool
  role : Option UserRole
  deriving DecidableEq

namespace UserUpdate

/-- `becoming_inactive or becoming_analyst` -/
def demotes (payload : UserUpdate) : Bool :=
  payload.isActive == some false || payload.role == some .analyst

/-- `changing_active` -/
def changesActive (payload : UserUpdate) (target : User) : Bool :=
  payload.isActive.any fun isActive => isActive ≠ target.isActive

/-- `changing_role` -/
def changesRole (payload : UserUpdate) (target : User) : Bool :=
  payload.role.any fun role => role ≠ target.role

/-- The columns of the `UPDATE` that differ from the target as it was read. -/
def apply (payload : UserUpdate) (target row : User) : User :=
  { row with
    isActive := if payload.changesActive target then payload.isActive.getD row.isActive
      else row.isActive
    role := if payload.changesRole target then payload.role.getD row.role else row.role }

/-- The `UPDATE` has a column to set. -/
def changes (payload : UserUpdate) (target : User) : Bool :=
  payload.changesActive target || payload.changesRole target

/-- The audit entries. -/
def entries (payload : UserUpdate) (actorId : String) (target : User) : List AuditLog :=
  (if payload.changesActive target then
    [⟨actorId, if payload.isActive == some false then .userDeactivated else .userReactivated,
      target.id, [("email", .str target.email)]⟩]
  else []) ++
  (if payload.changesRole target then
    [⟨actorId, .userRoleChanged, target.id,
      [("email", .str target.email), ("from_role", .str target.role.value),
        ("to_role", .str (payload.role.getD target.role).value)]⟩]
  else [])

/-- What one commit changes of the accounts. -/
def commit (payload : UserUpdate) (target : User) (db : Accounts) : Accounts where
  users := db.users.modify target.id (payload.apply target) fun _ => rfl
  sessions :=
    if payload.changesActive target && payload.isActive == some false then
      db.sessions.deleteWhere fun session => session.userId = target.id
    else db.sessions

end UserUpdate

/-- Where a transaction stands. `locked` is `locked_admin_ids`, and empty when the guard has
returned without a lock. -/
inductive Stage where
  | read
  | locking (pending locked : List String)
  | guarded (locked : List String)
  | written (locked : List String)

structure Transaction where
  actorId : String
  target : User
  payload : UserUpdate
  stage : Stage

structure State where
  db : Accounts
  auditLogs : List AuditLog
  /-- The transaction that has the row locked. -/
  holder : String → Option Nat
  transactions : Nat → Option Transaction

def noSuchAccount : AppError := ⟨.userNotFound, "No account with that id.", []⟩

def lastAdmin : AppError :=
  ⟨.lastAdmin, "This is the only active administrator. Promote somebody else first.", []⟩

/-- `_get_or_404` -/
def getOr404 (db : Accounts) (userId : String) : Except AppError User :=
  match db.users.get userId with
  | none => .error noSuchAccount
  | some user => .ok user

/-- The ids that the `SELECT ... FOR UPDATE` of the guard finds. -/
def activeAdmins (users : Table User.id) : List String :=
  (users.rows.filter User.isActiveAdmin).map User.id

/-- The end of the guard, once it has its rows. -/
def countLocked (locked : List String) : Except AppError Unit :=
  if 1 < locked.length then .ok () else .error lastAdmin

namespace State

/-- No transaction is open. -/
def start (db : Accounts) : State := ⟨db, [], fun _ => none, fun _ => none⟩

def put (s : State) (i : Nat) (tx : Transaction) : State :=
  { s with transactions := Function.update s.transactions i (some tx) }

def lock (s : State) (i : Nat) (id : String) : State :=
  { s with holder := Function.update s.holder id (some i) }

/-- The row is free for a transaction. -/
def isFree (s : State) (i : Nat) (id : String) : Bool :=
  s.holder id == none || s.holder id == some i

/-- The end of a transaction. -/
def release (s : State) (i : Nat) : State :=
  { s with
    holder := fun id => if s.holder id = some i then none else s.holder id
    transactions := Function.update s.transactions i none }

end State

/-- `lock` is for the next row of the guard, and then for its count. A row that is no active
administrator's when the guard has it is left out; whether its lock is kept depends on the
database. -/
inductive Action where
  | read (i : Nat) (actorId userId : String) (payload : UserUpdate)
  | guard_ (i : Nat) (order : List String)
  | lock (i : Nat) (keep : Bool)
  | write (i : Nat)
  | commit (i : Nat)
  | abort (i : Nat)

/-- One step of one transaction, `none` while it waits. A call that is refused ends, and so does one
that is aborted. -/
def step (s : State) : Action → Option State
  | .read i actorId userId payload =>
    match s.transactions i with
    | some _ => none
    | none =>
      match getOr404 s.db userId with
      | .error _ => some s
      | .ok target => some (s.put i ⟨actorId, target, payload, .read⟩)
  | .guard_ i order =>
    match s.transactions i with
    | some ⟨actorId, target, payload, .read⟩ =>
      if !payload.demotes then some (s.put i ⟨actorId, target, payload, .guarded []⟩)
      else if target.role ≠ .admin || !target.isActive then
        some (s.put i ⟨actorId, target, payload, .guarded []⟩)
      else if order.Perm (activeAdmins s.db.users) then
        some (s.put i ⟨actorId, target, payload, .locking order []⟩)
      else none
    | _ => none
  | .lock i keep =>
    match s.transactions i with
    | some ⟨actorId, target, payload, .locking (id :: pending) locked⟩ =>
      if s.isFree i id then
        if (s.db.users.get id).any User.isActiveAdmin then
          some ((s.lock i id).put i ⟨actorId, target, payload, .locking pending (locked ++ [id])⟩)
        else
          let s := if keep then s.lock i id else s
          some (s.put i ⟨actorId, target, payload, .locking pending locked⟩)
      else none
    | some ⟨actorId, target, payload, .locking [] locked⟩ =>
      match countLocked locked with
      | .error _ => some (s.release i)
      | .ok () => some (s.put i ⟨actorId, target, payload, .guarded locked⟩)
    | _ => none
  | .write i =>
    match s.transactions i with
    | some ⟨actorId, target, payload, .guarded locked⟩ =>
      if !payload.changes target then some (s.put i ⟨actorId, target, payload, .written locked⟩)
      else if s.isFree i target.id then
        some ((s.lock i target.id).put i ⟨actorId, target, payload, .written locked⟩)
      else none
    | _ => none
  | .commit i =>
    match s.transactions i with
    | some ⟨actorId, target, payload, .written _⟩ =>
      some
        ({ s with
            db := payload.commit target s.db
            auditLogs := s.auditLogs ++ payload.entries actorId target }.release i)
    | _ => none
  | .abort i => some (s.release i)

end FraudAnalyzer.Users.Updating
