import FraudAnalyzer.Users.Enumeration

/-!
# The lockout, by the history of the attempts

What the count and the lock of an account stand for. The history says which attempts count and until
when the account is barred, in terms of the attempts alone; the columns of the row agree with it
after every sequence of logins, at whichever addresses.
-/

namespace FraudAnalyzer.Users.LockoutHistory

open Enumeration

/-! ## The history -/

/-- An attempt on the account. -/
structure Try where
  now : Instant
  right : Bool

/-- The failures since the last success. The last attempt comes first. -/
def streak (counted : List Try) : Nat := (counted.takeWhile fun t => !t.right).length

/-- When `MAX_FAILED_LOGINS` failures were complete for the last time. -/
def lastCompletion : List Try → Option Instant
  | [] => none
  | t :: past =>
    if t.right = false ∧ maxFailedLogins ∣ streak (t :: past) then some t.now
    else lastCompletion past

/-- Within `LOCKOUT_MINUTES` after the last completion. -/
def barred (counted : List Try) (now : Instant) : Bool :=
  (lastCompletion counted).any fun t => now < t + ofMinutes lockoutMinutes

/-- The attempts that count: those that were made while the account was not barred. -/
def counted : List Try → List Try
  | [] => []
  | t :: past => if barred (counted past) t.now then counted past else t :: counted past

section History

variable {past opened : List Try} {t : Try} {now now' : Instant}

theorem counted_of_barred (h : barred (counted past) t.now = true) :
    counted (t :: past) = counted past := if_pos h

theorem counted_of_not_barred (h : barred (counted past) t.now = false) :
    counted (t :: past) = t :: counted past := by
  rw [counted, h]
  rfl

/-- A bar runs out. -/
theorem barred_mono (hnow : now ≤ now') (h : barred opened now = false) :
    barred opened now' = false := by
  unfold barred at h ⊢
  cases hlast : lastCompletion opened with
  | none => rfl
  | some t =>
    rw [hlast] at h
    simp only [Option.any_some, decide_eq_false_iff_not, Int.not_lt] at h ⊢
    exact Int.le_trans h hnow

theorem streak_success (h : t.right = true) : streak (t :: opened) = 0 := by
  simp [streak, h]

theorem streak_failure (h : t.right = false) : streak (t :: opened) = streak opened + 1 := by
  simp [streak, h]

theorem barred_success (h : t.right = true) : barred (t :: opened) now = barred opened now := by
  have hnot : ¬(t.right = false ∧ maxFailedLogins ∣ streak (t :: opened)) := by
    simp [h]
  unfold barred
  rw [lastCompletion, if_neg hnot]

/-- One failure more completes the number, or not. -/
theorem barred_failure (h : t.right = false) : barred (t :: opened) now =
    if maxFailedLogins ∣ streak opened + 1 then decide (now < t.now + ofMinutes lockoutMinutes)
    else barred opened now := by
  unfold barred
  rw [lastCompletion, streak_failure h]
  by_cases hdvd : maxFailedLogins ∣ ((streak opened + 1 : Nat) : Int)
  · rw [if_pos ⟨h, hdvd⟩, if_pos (by exact_mod_cast hdvd)]
    rfl
  · rw [if_neg (fun hboth => hdvd hboth.2), if_neg (by exact_mod_cast hdvd)]

end History

/-! ## The row -/

/-- The row says what the history says. -/
structure Agrees (user : User) (opened : List Try) (now : Instant) (row : User) : Prop where
  passwordHash : row.passwordHash = user.passwordHash
  active : row.isActive = true
  permanent : row.tempPasswordExpiresAt = none
  count : row.failedLoginCount = streak opened % maxFailedLogins
  locked : ∀ now', now ≤ now' → row.isLocked now' = barred opened now'

section Rows

variable {user row : User} {opened : List Try} {now now' : Instant} {t : Try}

theorem Agrees.later (h : Agrees user opened now row) (hnow : now ≤ now') :
    Agrees user opened now' row where
  passwordHash := h.passwordHash
  active := h.active
  permanent := h.permanent
  count := h.count
  locked later hlater := h.locked later (Int.le_trans hnow hlater)

theorem Agrees.isLocked (h : Agrees user opened now row) : row.isLocked now = barred opened now :=
  h.locked now (Int.le_refl _)

theorem mod_succ (n : Nat) :
    (maxFailedLogins ≤ (n : Int) % maxFailedLogins + 1 ↔ maxFailedLogins ∣ (n : Int) + 1) ∧
      (¬maxFailedLogins ∣ (n : Int) + 1 →
        (n : Int) % maxFailedLogins + 1 = ((n + 1 : Nat) : Int) % maxFailedLogins) := by
  have hmax : maxFailedLogins = 5 := rfl
  rw [hmax]
  omega

/-- A failure that counts. -/
theorem Agrees.failure (h : Agrees user opened t.now row) (hwrong : t.right = false) :
    Agrees user (t :: opened) t.now (countFailure t.now row) := by
  obtain ⟨hcomplete, hmore⟩ := mod_succ (streak opened)
  rw [← h.count] at hcomplete hmore
  have hmax : maxFailedLogins = 5 := rfl
  unfold countFailure
  by_cases hdvd : maxFailedLogins ∣ (streak opened : Int) + 1
  · -- the lock begins, and the count starts again
    rw [if_pos (hcomplete.mpr hdvd)]
    refine ⟨h.passwordHash, h.active, h.permanent, ?_, ?_⟩
    · rw [streak_failure hwrong]
      push_cast
      exact (Int.emod_eq_zero_of_dvd hdvd).symm
    · intro now' _
      rw [barred_failure hwrong, if_pos hdvd]
      rfl
  · rw [if_neg (mt hcomplete.mp hdvd)]
    refine ⟨h.passwordHash, h.active, h.permanent, ?_, ?_⟩
    · rw [streak_failure hwrong]
      exact hmore hdvd
    · intro now' hnow
      rw [barred_failure hwrong, if_neg hdvd]
      exact h.locked now' hnow

/-- A success, once the last bar is over. -/
theorem Agrees.success (h : Agrees user opened t.now row) (hright : t.right = true)
    (hfree : barred opened t.now = false) :
    Agrees user (t :: opened) t.now (noteLogin t.now row) := by
  refine ⟨h.passwordHash, h.active, h.permanent, ?_, ?_⟩
  · rw [streak_success hright]
    rfl
  · intro now' hnow
    rw [barred_success hright, barred_mono hnow hfree]
    rfl

end Rows

/-! ## Other rows -/

section Renewal

variable {E : AuthEnv} {users users' after : Table User.id} {user row : User}

theorem sameAccount_trans {middle : User} (h : SameAccount user middle)
    (h' : SameAccount middle row) : SameAccount user row :=
  ⟨h'.id.trans h.id, h'.email.trans h.email, h'.passwordHash.trans h.passwordHash,
    h'.isActiveAdmin.trans h.isActiveAdmin⟩

theorem renewed_trans (h : Renewed users users') (h' : Renewed users' after) :
    Renewed users after := by
  obtain ⟨g, hg, hrows⟩ := h
  obtain ⟨g', hg', hrows'⟩ := h'
  refine ⟨g' ∘ g, fun user => sameAccount_trans (hg user) (hg' (g user)), ?_⟩
  rw [hrows', hrows, List.map_map]

/-- The row of an account, later. -/
theorem sameAccount_of_get (h : Renewed users after) (hrow : after.get user.id = some row)
    (huser : user ∈ users.rows) : SameAccount user row := by
  obtain ⟨g, hg, hrows⟩ := h
  have hmem := Table.mem_of_get hrow
  rw [hrows] at hmem
  obtain ⟨old, hold, rfl⟩ := List.mem_map.mp hmem
  have hid : old.id = user.id := (hg old).id.symm.trans (Table.key_of_get hrow)
  have hget := Table.get_of_mem hold
  rw [hid, Table.get_of_mem huser] at hget
  obtain rfl := Option.some.inj hget
  exact hg user

/-- An address is the same account's, later. -/
theorem accountOf_renewed_iff (h : Renewed users after) (huser : user ∈ users.rows)
    (hrow : after.get user.id = some row) (email : String) :
    accountOf E after email = some row ↔ accountOf E users email = some user := by
  have hsame := sameAccount_of_get h hrow huser
  constructor
  · intro haccount
    obtain ⟨old, hold, hold'⟩ := h.accountOf_eq haccount
    have hid : old.id = user.id := hold'.id.symm.trans hsame.id
    rw [hold, eq_of_accountOf hold huser hid.symm]
  · intro haccount
    obtain ⟨g, hg, hrows⟩ := h
    have hfound : accountOf E after email = (accountOf E users email).map g := by
      unfold accountOf
      simp only [hrows, List.find?_map, Function.comp_def, (hg _).email]
    rw [haccount, Option.map_some] at hfound
    have hmem : g user ∈ after.rows := List.mem_of_find?_eq_some hfound
    have hget := Table.get_of_mem hmem
    rw [(hg user).id, hrow] at hget
    rw [hfound, Option.some.inj hget]

/-- An account that is not exempt stays so. -/
theorem isLastActiveAdmin_renewed (h : Renewed users after) (hsame : SameAccount user row)
    (hnot : isLastActiveAdmin users user = false) : isLastActiveAdmin after row = false := by
  rw [← Bool.not_eq_true, isLastActiveAdmin_iff] at hnot ⊢
  rintro ⟨hadmin, hothers⟩
  obtain ⟨g, hg, hrows⟩ := h
  refine hnot ⟨hsame.isActiveAdmin ▸ hadmin, fun other hother hadmin' => ?_⟩
  have hmem : g other ∈ after.rows := hrows ▸ List.mem_map_of_mem hother
  have hid := hothers (g other) hmem ((hg other).isActiveAdmin.trans hadmin')
  rw [(hg other).id, hsame.id] at hid
  exact hid

end Renewal

/-! ## Logins -/

/-- A new account: active, never exempt, with no temporary password. -/
structure NewAccount (users : Table User.id) (user : User) : Prop where
  row : user ∈ users.rows
  active : user.isActive = true
  permanent : user.tempPasswordExpiresAt = none
  notExempt : isLastActiveAdmin users user = false
  count : user.failedLoginCount = 0
  unlocked : user.lockedUntil = none

/-- The attempt, if it is on the account. -/
def tryOf (E : AuthEnv) (users : Table User.id) (user : User) (a : Attempt) : Option Try :=
  if accountOf E users a.email = some user then
    some ⟨a.now, E.verifyPassword a.password user.passwordHash⟩
  else none

/-- The attempts on the account, the last one first. -/
def tries (E : AuthEnv) (users : Table User.id) (user : User) (as : List Attempt) : List Try :=
  (as.filterMap (tryOf E users user)).reverse

/-- After these attempts on the account. -/
structure Follows (E : AuthEnv) (users : Table User.id) (user : User) (past : List Try)
    (s : LoginState) : Prop where
  account : NewAccount users user
  renewed : Renewed users s.db.users
  row : ∃ row, s.db.users.get user.id = some row ∧ Agrees user (counted past) s.now row

section Logins

variable {E : AuthEnv} {users : Table User.id} {user row : User} {past : List Try}
  {s t : LoginState} {a : Attempt}

/-- What a login answers and leaves, for an account that is not exempt. -/
theorem login_account {db : Accounts} (haccount : accountOf E db.users a.email = some row)
    (hactive : row.isActive = true) (hpermanent : row.tempPasswordExpiresAt = none)
    (hnot : isLastActiveAdmin db.users row = false) :
    login E db a =
      if row.isLocked a.now then
        (db,
          .error (if E.verifyPassword a.password row.passwordHash then accountLocked else refusal))
      else if E.verifyPassword a.password row.passwordHash then
        ({ users := db.users.modify row.id (noteLogin a.now) fun _ => rfl
           sessions := purgeExpired db.sessions a.purgedAt }, .ok (noteLogin a.now row))
      else
        ({ db with
            users := db.users.modify row.id (countFailure a.now) (countFailure_id a.now) },
          .error refusal) := by
  unfold login authenticate
  rw [haccount]
  cases hverify : E.verifyPassword a.password row.passwordHash with
  | false =>
    cases hlocked : row.isLocked a.now with
    | true => simp [checkCredentials, hverify, hlocked]
    | false => simp [checkCredentials, hverify, hlocked, hnot]
  | true =>
    cases hlocked : row.isLocked a.now with
    | true => simp [checkCredentials, hverify, hlocked]
    | false => simp [checkCredentials, hverify, hlocked, hactive, hpermanent]

theorem follows_start (h : NewAccount s.db.users user) : Follows E s.db.users user [] s where
  account := h
  renewed := renewed_refl _
  row := by
    refine ⟨user, Table.get_of_mem h.row, rfl, h.active, h.permanent, h.count, ?_⟩
    intro now' _
    simp [User.isLocked, h.unlocked, barred, counted, lastCompletion]

theorem get_noteLogin (users : Table User.id) (id id' : String) (now : Instant) :
    (users.modify id (noteLogin now) fun _ => rfl).get id' =
      if id' = id then (users.get id').map (noteLogin now) else users.get id' :=
  Table.get_modify users id id' (noteLogin now) fun _ => rfl

/-- An attempt on another account leaves the row. -/
theorem get_login_other {db : Accounts} (hrow : db.users.get user.id = some row)
    (hother : accountOf E db.users a.email ≠ some row) :
    (login E db a).1.users.get user.id = some row := by
  have heffect := attempted_authenticate E db a.now a.purgedAt a.email a.password
  have hne : ∀ other, accountOf E db.users a.email = some other → user.id ≠ other.id := by
    intro other hother' hid
    have hsame := eq_of_accountOf hother' (Table.mem_of_get hrow)
      ((Table.key_of_get hrow).trans hid)
    exact hother (hsame ▸ hother')
  unfold login
  generalize (authenticate E db a.now a.purgedAt a.email a.password).1.users = after at heffect ⊢
  cases heffect with
  | nothing => exact hrow
  | failure haccount _ _ _ => rw [Table.get_modify, if_neg (hne _ haccount), hrow]
  | login haccount => rw [get_noteLogin, if_neg (hne _ haccount), hrow]

theorem Follows.login_eq (h : Follows E users user past s)
    (hrow : s.db.users.get user.id = some row) (hagrees : Agrees user (counted past) s.now row)
    (haccount : accountOf E users a.email = some user) :
    login E s.db a =
      if row.isLocked a.now then
        (s.db,
          .error (if E.verifyPassword a.password user.passwordHash then accountLocked else refusal))
      else if E.verifyPassword a.password user.passwordHash then
        ({ users := s.db.users.modify row.id (noteLogin a.now) fun _ => rfl
           sessions := purgeExpired s.db.sessions a.purgedAt }, .ok (noteLogin a.now row))
      else
        ({ s.db with
            users := s.db.users.modify row.id (countFailure a.now) (countFailure_id a.now) },
          .error refusal) := by
  have hsame := sameAccount_of_get h.renewed hrow h.account.row
  have hnot := isLastActiveAdmin_renewed h.renewed hsame h.account.notExempt
  rw [login_account ((accountOf_renewed_iff h.renewed h.account.row hrow a.email).mpr haccount)
    hagrees.active hagrees.permanent hnot, hagrees.passwordHash]

theorem attempt_eq_some (h : attempt E s a = some t) :
    s.now ≤ a.now ∧ t = ⟨(login E s.db a).1, a.now⟩ := by
  unfold attempt at h
  split at h
  next hle => exact ⟨hle, (Option.some.inj h).symm⟩
  · cases h

/-- **One attempt.** -/
theorem Follows.attempt (h : Follows E users user past s) (hstep : Users.attempt E s a = some t) :
    Follows E users user ((tryOf E users user a).toList ++ past) t := by
  obtain ⟨hle, rfl⟩ := attempt_eq_some hstep
  refine ⟨h.account, renewed_trans h.renewed (renewed_login E s.db a), ?_⟩
  obtain ⟨row, hrow, hagrees⟩ := h.row
  have hlater : Agrees user (counted past) a.now row := hagrees.later hle
  have hid : row.id = user.id := Table.key_of_get hrow
  by_cases haccount : accountOf E users a.email = some user
  · have htry : (tryOf E users user a).toList ++ past =
        ⟨a.now, E.verifyPassword a.password user.passwordHash⟩ :: past := by
      simp [tryOf, haccount]
    rw [htry, h.login_eq hrow hagrees haccount]
    cases hbarred : barred (counted past) a.now with
    | true =>
      rw [counted_of_barred hbarred, if_pos (hlater.isLocked.trans hbarred)]
      exact ⟨row, hrow, hlater⟩
    | false =>
      rw [counted_of_not_barred hbarred,
        if_neg (by rw [hlater.isLocked, hbarred]; exact Bool.false_ne_true)]
      cases hverify : E.verifyPassword a.password user.passwordHash with
      | true =>
        refine ⟨noteLogin a.now row, ?_, hlater.success rfl hbarred⟩
        rw [if_pos rfl]
        change (s.db.users.modify row.id (noteLogin a.now) fun _ => rfl).get user.id = _
        rw [get_noteLogin, if_pos hid.symm, hrow]
        rfl
      | false =>
        refine ⟨countFailure a.now row, ?_, hlater.failure rfl⟩
        rw [if_neg Bool.false_ne_true]
        change (s.db.users.modify row.id _ (countFailure_id a.now)).get user.id = _
        rw [Table.get_modify, if_pos hid.symm, hrow]
        rfl
  · have htry : (tryOf E users user a).toList ++ past = past := by
      simp [tryOf, haccount]
    rw [htry]
    refine ⟨row, get_login_other hrow fun hother => haccount ?_, hlater⟩
    exact (accountOf_renewed_iff h.renewed h.account.row hrow a.email).mp hother

/-- **Every sequence of attempts.** -/
theorem Follows.run {as : List Attempt} (h : Follows E users user past s)
    (hrun : Machine.Run (Users.attempt E) Machine.Always s as t) :
    Follows E users user (tries E users user as ++ past) t := by
  induction hrun generalizing past with
  | nil s => exact h
  | @cons s t u a as hstep _ _ ih =>
    have hnext := ih (h.attempt hstep)
    have htries : tries E users user (a :: as) ++ past =
        tries E users user as ++ ((tryOf E users user a).toList ++ past) := by
      unfold tries
      cases htry : tryOf E users user a with
      | none => simp [htry]
      | some try_ => simp [htry]
    rw [htries]
    exact hnext

end Logins

/-- The lockout, after a sequence of attempts that began with a new account. -/
structure Lockout (E : AuthEnv) (users : Table User.id) (user : User) (as : List Attempt)
    (s : LoginState) : Prop where
  count : ∃ row, s.db.users.get user.id = some row ∧ 0 ≤ row.failedLoginCount ∧
    row.failedLoginCount ≤ maxFailedLogins - 1
  /-- The next attempt. -/
  succeeds : ∀ a : Attempt, s.now ≤ a.now → accountOf E users a.email = some user →
    ((login E s.db a).2.isOk = true ↔
      E.verifyPassword a.password user.passwordHash = true ∧
        barred (counted (tries E users user as)) a.now = false)
  /-- No guess moves the end of a lock that is running. -/
  lockKept : ∀ (a : Attempt) (row : User), s.now ≤ a.now → s.db.users.get user.id = some row →
    row.isLocked a.now = true → (login E s.db a).1.users.get user.id = some row

theorem Follows.lockout {E : AuthEnv} {users : Table User.id} {user : User} {as : List Attempt}
    {s : LoginState} (h : Follows E users user (tries E users user as) s) :
    Lockout E users user as s := by
  obtain ⟨row, hrow, hagrees⟩ := h.row
  constructor
  · have hmax : (0 : Int) < maxFailedLogins := by decide
    refine ⟨row, hrow, ?_, ?_⟩
    · rw [hagrees.count]
      exact Int.emod_nonneg _ hmax.ne'
    · rw [hagrees.count]
      exact Int.le_sub_one_of_lt (Int.emod_lt_of_pos _ hmax)
  · intro a hle haccount
    have hlocked := (hagrees.later hle).isLocked
    rw [h.login_eq hrow hagrees haccount, ← hlocked]
    cases row.isLocked a.now with
    | true => simp [Except.isOk, Except.toBool]
    | false =>
      cases E.verifyPassword a.password user.passwordHash with
      | true => simp [Except.isOk, Except.toBool]
      | false => simp [Except.isOk, Except.toBool]
  · intro a found hle hfound hlocked
    obtain rfl : row = found := Option.some.inj (hrow.symm.trans hfound)
    by_cases haccount : accountOf E users a.email = some user
    · rw [h.login_eq hrow hagrees haccount, if_pos hlocked]
      exact hrow
    · refine get_login_other hrow fun hother => haccount ?_
      exact (accountOf_renewed_iff h.renewed h.account.row hrow a.email).mp hother

/-- **The lockout follows its specification.** After every sequence of logins, at times that do not
decrease, the count of a new account is between 0 and `MAX_FAILED_LOGINS - 1`; the next attempt on
it succeeds if and only if its password is right and it is not within `LOCKOUT_MINUTES` after the
last completion of `MAX_FAILED_LOGINS` counted failures; and no guess moves the end of a lock. -/
theorem lockout_of_run {E : AuthEnv} {start s : LoginState} {user : User}
    (haccount : NewAccount start.db.users user) {as : List Attempt}
    (h : Machine.Run (attempt E) Machine.Always start as s) :
    Lockout E start.db.users user as s := by
  have hfollows := (follows_start haccount).run h
  rw [List.append_nil] at hfollows
  exact hfollows.lockout

/-! ## Five wrong passwords, and more -/

namespace Sample

open Users.Sample

def ann : User := { admin "a" "ann" with role := .analyst }

def office : LoginState := ⟨⟨⟨[ann, admin "b" "boss"], by decide⟩, .empty⟩, 0⟩

theorem newAccount_ann : NewAccount office.db.users ann where
  row := List.mem_cons_self
  active := rfl
  permanent := rfl
  notExempt := by decide
  count := rfl
  unlocked := rfl

/-- Five wrong passwords, the right one while the account is locked, and another wrong one. -/
def attempts : List Attempt :=
  [mistype 1 "ann", mistype 2 "ann", mistype 3 "boss", mistype 3 "ann", mistype 4 "ann",
    mistype 5 "ann", ⟨6000000, 6000000, "ann", "correct"⟩, mistype 7 "ann"]

def annTries : List Try := tries authEnv office.db.users ann attempts

end Sample

/-- The lock ends 15 minutes after the fifth one. -/
theorem lockout_of_run_ann :
    ∃ s, Machine.Run (attempt Users.Sample.authEnv) Machine.Always Sample.office Sample.attempts s ∧
      Lockout Users.Sample.authEnv Sample.office.db.users Sample.ann Sample.attempts s ∧
      barred (counted Sample.annTries) 904999999 = true ∧
      barred (counted Sample.annTries) 905000000 = false := by
  have hexec : ((Machine.exec (attempt Users.Sample.authEnv) Sample.office Sample.attempts).any
      fun _ => true) = true := by decide
  obtain ⟨s, hrun, -⟩ := Machine.exists_run_of_exec_any hexec
  exact ⟨s, hrun, lockout_of_run Sample.newAccount_ann hrun, by decide, by decide⟩

end FraudAnalyzer.Users.LockoutHistory
