import FraudAnalyzer.Lib.Run
import FraudAnalyzer.Users.Authentication

/-!
# Whether a lockout leaves an administrator

Login attempts, one after another, as the clock goes on. An account is exempt from the lockout while
it is the only active administrator; another one counts even if a lock is still running on it. So
two administrators can be locked one after the other. Whether one is left depends on no more: an
attempt takes the last one exactly when it locks an administrator and every other is locked.
-/

namespace FraudAnalyzer.Users

structure Attempt where
  now : Instant
  /-- The clock when expired sessions are deleted. -/
  purgedAt : Instant
  email : String
  password : String

structure LoginState where
  db : Accounts
  now : Instant

/-- An attempt is not made before the one before it. -/
def attempt (E : AuthEnv) (s : LoginState) (a : Attempt) : Option LoginState :=
  if s.now ≤ a.now then
    some ⟨(authenticate E s.db a.now a.purgedAt a.email a.password).1, a.now⟩
  else none

/-- Some active administrator's account is not locked. -/
def AdminLeft (s : LoginState) : Prop :=
  ∃ user ∈ s.db.users.rows, user.isActiveAdmin = true ∧ user.isLocked s.now = false

/-- The attempt fails for this account, and is its last one before the lock. -/
def Locks (E : AuthEnv) (users : Table User.id) (a : Attempt) (user : User) : Prop :=
  accountOf E users a.email = some user ∧ E.verifyPassword a.password user.passwordHash = false ∧
    user.isLocked a.now = false ∧ isLastActiveAdmin users user = false ∧
    maxFailedLogins ≤ user.failedLoginCount + 1

/-- If the account is an active administrator's, another active administrator is not locked. -/
def SparesAnother (E : AuthEnv) (s : LoginState) (a : Attempt) : Prop :=
  ∀ user, Locks E s.db.users a user → user.isActiveAdmin = true →
    ∃ other ∈ s.db.users.rows, other.id ≠ user.id ∧ other.isActiveAdmin = true ∧
      other.isLocked a.now = false

section Steps

variable {E : AuthEnv} {users : Table User.id} {now : Instant} {user : User} {s t : LoginState}
  {a : Attempt}

theorem ofMinutes_pos : 0 < ofMinutes lockoutMinutes := by decide

theorem isActiveAdmin_countFailure :
    (countFailure now user).isActiveAdmin = user.isActiveAdmin := by
  unfold countFailure
  split
  · rfl
  · rfl

/-- The last failure locks the account, and no other does. -/
theorem isLocked_countFailure (hlocked : user.isLocked now = false) :
    (countFailure now user).isLocked now = true ↔ maxFailedLogins ≤ user.failedLoginCount + 1 := by
  have hpos := ofMinutes_pos
  unfold countFailure
  split
  next hmax =>
    simp only [User.isLocked, Option.any_some, decide_eq_true_eq, hmax, iff_true]
    exact Int.lt_add_of_pos_right now hpos
  next hmax =>
    simp only [hmax, iff_false, Bool.not_eq_true]
    exact hlocked

theorem mem_modify {f : User → User} {hf : ∀ user, (f user).id = user.id} {x : User} {id : String} :
    x ∈ (users.modify id f hf).rows ↔
      ∃ row ∈ users.rows, x = if row.id = id then f row else row := by
  simp only [Table.modify, List.mem_map, eq_comm]

/-- The account with the address is the row with its key. -/
theorem eq_of_accountOf {email : String} (haccount : accountOf E users email = some user)
    {row : User} (hrow : row ∈ users.rows) (hid : row.id = user.id) : row = user := by
  have huser : user ∈ users.rows := List.mem_of_find?_eq_some haccount
  have hget := Table.get_of_mem hrow
  rw [hid, Table.get_of_mem huser] at hget
  exact (Option.some.inj hget).symm

/-- An administrator who was not locked is left, unless the attempt locks just that account. -/
theorem adminLeft_of_unlocked (hle : s.now ≤ a.now)
    (hrow : user ∈ s.db.users.rows) (hadmin : user.isActiveAdmin = true)
    (hlocked : user.isLocked a.now = false) (hspared : ¬ Locks E s.db.users a user)
    (hstep : attempt E s a = some t) : AdminLeft t := by
  unfold attempt at hstep
  rw [if_pos hle] at hstep
  obtain rfl := Option.some.inj hstep
  have heffect := attempted_authenticate E s.db a.now a.purgedAt a.email a.password
  simp only [AdminLeft]
  generalize (authenticate E s.db a.now a.purgedAt a.email a.password).1.users = after at heffect ⊢
  cases heffect with
  | nothing => exact ⟨user, hrow, hadmin, hlocked⟩
  | @failure account haccount hwrong hfree hlast =>
    by_cases hid : user.id = account.id
    · obtain rfl := eq_of_accountOf haccount hrow hid
      refine ⟨countFailure a.now user, mem_modify.mpr ⟨user, hrow, (if_pos rfl).symm⟩, ?_, ?_⟩
      · exact isActiveAdmin_countFailure.trans hadmin
      · have hmax : ¬ maxFailedLogins ≤ user.failedLoginCount + 1 := fun hmax =>
          hspared ⟨haccount, hwrong, hfree, hlast, hmax⟩
        simpa [hmax] using (not_congr (isLocked_countFailure hfree)).mpr hmax
    · exact ⟨user, mem_modify.mpr ⟨user, hrow, (if_neg hid).symm⟩, hadmin, hlocked⟩
  | @login account haccount =>
    by_cases hid : user.id = account.id
    · exact ⟨noteLogin a.now user, mem_modify.mpr ⟨user, hrow, (if_pos hid).symm⟩, hadmin, rfl⟩
    · exact ⟨user, mem_modify.mpr ⟨user, hrow, (if_neg hid).symm⟩, hadmin, hlocked⟩

/-- After the last failure of an account, an administrator who is left is another one. -/
theorem exists_other_of_locks (hlocks : Locks E s.db.users a user) (hstep : attempt E s a = some t)
    (hleft : AdminLeft t) :
    ∃ other ∈ s.db.users.rows, other.id ≠ user.id ∧ other.isActiveAdmin = true ∧
      other.isLocked a.now = false := by
  obtain ⟨haccount, hwrong, hfree, hlast, hmax⟩ := hlocks
  unfold attempt at hstep
  split at hstep
  · obtain rfl := Option.some.inj hstep
    obtain ⟨x, hx, hadmin, hlocked⟩ := hleft
    simp only [authenticate, haccount, checkCredentials_of_wrong hwrong, hfree, hlast,
      Bool.not_false, Bool.and_self, if_true] at hx hlocked
    obtain ⟨row, hrow, rfl⟩ := mem_modify.mp hx
    split at hlocked
    next hid =>
      obtain rfl := eq_of_accountOf haccount hrow hid
      have hnow := (isLocked_countFailure hfree).mpr hmax
      cases hnow.symm.trans hlocked
    next hid =>
      rw [if_neg hid] at hadmin
      exact ⟨row, hrow, hid, hadmin, hlocked⟩
  · cases hstep

/-- **One attempt** leaves an administrator if and only if it spares another. -/
theorem adminLeft_attempt (hleft : AdminLeft s) (hstep : attempt E s a = some t) :
    AdminLeft t ↔ SparesAnother E s a := by
  constructor
  · intro hafter user hlocks _
    exact exists_other_of_locks hlocks hstep hafter
  · intro hspares
    obtain ⟨user, hrow, hadmin, hlocked⟩ := hleft
    have hle : s.now ≤ a.now := by
      unfold attempt at hstep
      split at hstep
      next hle => exact hle
      · cases hstep
    by_cases hlocks : Locks E s.db.users a user
    · obtain ⟨other, hother, hne, hadmin', hlocked'⟩ := hspares user hlocks hadmin
      refine adminLeft_of_unlocked hle hother hadmin' hlocked' ?_ hstep
      intro hlocks'
      have hsame := hlocks.1.symm.trans hlocks'.1
      exact hne (congrArg User.id (Option.some.inj hsame)).symm
    · exact adminLeft_of_unlocked hle hrow hadmin (User.isLocked_mono hle hlocked) hlocks hstep

end Steps

/-- **Lockout leaves an administrator.** Of a sequence of attempts, an active administrator's
account is not locked in any state if and only if each attempt that locks an active administrator
spares another. -/
theorem adminLeft_iff (E : AuthEnv) {start s : LoginState} (hstart : AdminLeft start)
    {as : List Attempt} (h : Machine.Run (attempt E) Machine.Always start as s) :
    Machine.Throughout (attempt E) AdminLeft start as ↔
      Machine.Run (attempt E) (SparesAnother E) start as s := by
  refine Machine.throughout_iff (I := fun _ => True) (fun _ _ _ _ _ => trivial) ?_ h trivial hstart
  intro s a t _ hleft hstep
  exact adminLeft_attempt hleft hstep

/-! ## Two administrators -/

namespace Sample

def authEnv : AuthEnv := ⟨.ascii, id, fun password hash => password == hash⟩

def admins : LoginState := ⟨⟨⟨[admin "b" "boss", admin "d" "deputy"], by decide⟩, .empty⟩, 0⟩

/-- A wrong password, so many seconds after the start. -/
def mistype (seconds : Int) (email : String) : Attempt :=
  ⟨seconds * 1000000, seconds * 1000000, email, "wrong"⟩

/-- Five wrong passwords for one account and then five for the other. -/
def mistypes : List Attempt :=
  [mistype 1 "boss", mistype 2 "boss", mistype 3 "boss", mistype 4 "boss", mistype 5 "boss",
    mistype 6 "deputy", mistype 7 "deputy", mistype 8 "deputy", mistype 9 "deputy",
    mistype 10 "deputy"]

end Sample

theorem adminLeft_iff_mistypes :
    ∃ s, Machine.Run (attempt Sample.authEnv) Machine.Always Sample.admins Sample.mistypes s ∧
      (Machine.Throughout (attempt Sample.authEnv) AdminLeft Sample.admins Sample.mistypes ↔
        Machine.Run (attempt Sample.authEnv) (SparesAnother Sample.authEnv) Sample.admins
          Sample.mistypes s) := by
  have hexec : ((Machine.exec (attempt Sample.authEnv) Sample.admins Sample.mistypes).any
      fun _ => true) = true := by decide
  obtain ⟨s, hrun, -⟩ := Machine.exists_run_of_exec_any hexec
  have hstart : AdminLeft Sample.admins :=
    ⟨Sample.admin "b" "boss", List.mem_cons_self, rfl, rfl⟩
  exact ⟨s, hrun, adminLeft_iff Sample.authEnv hstart hrun⟩

/-- Both are locked: neither was the only active administrator when it failed. -/
theorem both_admins_locked :
    ∃ s, Machine.Run (attempt Sample.authEnv) Machine.Always Sample.admins Sample.mistypes s ∧
      AdminLeft Sample.admins ∧ ¬ AdminLeft s := by
  have hexec : ((Machine.exec (attempt Sample.authEnv) Sample.admins Sample.mistypes).any fun s =>
      s.db.users.rows.all fun user => user.isLocked s.now) = true := by decide
  obtain ⟨s, hrun, hlocked⟩ := Machine.exists_run_of_exec_any hexec
  refine ⟨s, hrun, ⟨Sample.admin "b" "boss", List.mem_cons_self, rfl, rfl⟩, ?_⟩
  rintro ⟨user, hrow, -, hfree⟩
  have huser := List.all_eq_true.mp hlocked user hrow
  exact absurd (huser.symm.trans hfree) nofun

end FraudAnalyzer.Users
