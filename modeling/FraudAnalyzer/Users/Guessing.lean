import FraudAnalyzer.Lib.Run
import FraudAnalyzer.Users.Access
import FraudAnalyzer.Users.Lockout

/-!
# Wrong passwords at the same time

Any number of calls of `authenticate` with a wrong password, interleaved at every statement: the
account is read, the password is verified, the failure is counted on the object that was read, and
the commit writes the columns that differ from it. Two calls that have read one count write one
count, so a failure is lost (`parallel_guess_lost`); it is not where the stored count is still the
one that the call has read (`nothingLost_iff`).

`committed` is for the statements only.
-/

namespace FraudAnalyzer.Users.Guessing

open Machine
open Access (flushCounters)

/-- Where a call stands; `read` is the account as it was read, `now` the clock when the call
began. -/
inductive Stage where
  | loaded (read : User) (now : Instant)
  | missed (read : User) (now : Instant)
  | counted (read : User) (now : Instant)

/-- The account as it was read. -/
def Stage.read : Stage → User
  | .loaded read _ | .missed read _ | .counted read _ => read

structure State where
  users : Table User.id
  guesses : Nat → Option Stage
  /-- When the calls began whose failure is committed, by account. -/
  committed : String → List Instant

def start (users : Table User.id) : State := ⟨users, fun _ => none, fun _ => []⟩

/-- The steps of one call, in their order. -/
inductive Action where
  | read (i : Nat) (now : Instant) (email : String)
  | verify (i : Nat) (password : String)
  | count (i : Nat)
  | commit (i : Nat)

namespace State

def put (s : State) (i : Nat) (stage : Stage) : State :=
  { s with guesses := Function.update s.guesses i (some stage) }

def drop (s : State) (i : Nat) : State :=
  { s with guesses := Function.update s.guesses i none }

/-- The `UPDATE`, and the end of the call. -/
def commit (s : State) (i : Nat) (read : User) (now : Instant) : State :=
  { s with
      users := s.users.modify read.id (flushCounters read (countFailure now read)) fun _ => rfl
      committed :=
        Function.update s.committed read.id (now :: s.committed read.id) }.drop i

end State

/-- One step of one call. One whose address is unknown or whose failure is not counted ends without
a commit; a right password is no guess. -/
def step (E : AuthEnv) (s : State) : Action → Option State
  | .read i now email =>
    match s.guesses i, accountOf E s.users email with
    | some _, _ => none
    | none, none => some s
    | none, some user => some (s.put i (.loaded user now))
  | .verify i password =>
    match s.guesses i with
    | some (.loaded read now) =>
      if E.verifyPassword password read.passwordHash then none
      else some (s.put i (.missed read now))
    | _ => none
  | .count i =>
    match s.guesses i with
    | some (.missed read now) =>
      if !read.isLocked now && !isLastActiveAdmin s.users read then
        some (s.put i (.counted read now))
      else some (s.drop i)
    | _ => none
  | .commit i =>
    match s.guesses i with
    | some (.counted read now) => some (s.commit i read now)
    | _ => none

/-- After `n` commits the count of the account is `n`, and with the last of `MAX_FAILED_LOGINS` it
is locked, for `LOCKOUT_MINUTES` from when one of the calls began. -/
structure NothingLost (id : String) (s : State) : Prop where
  counted : ((s.committed id).length : Int) < maxFailedLogins → ∃ user,
    s.users.get id = some user ∧ user.failedLoginCount = (s.committed id).length
  locked : maxFailedLogins ≤ ((s.committed id).length : Int) → ∃ user,
    s.users.get id = some user ∧
      ∃ now ∈ s.committed id, user.lockedUntil = some (now + ofMinutes lockoutMinutes)

/-- No other failure was committed since the account was read, unless the account is to be locked
already. -/
def UpToDate (id : String) (s : State) : Action → Prop
  | .commit i => ∀ read now user, s.guesses i = some (.counted read now) → read.id = id →
    s.users.get id = some user → ((s.committed id).length : Int) < maxFailedLogins →
      read.failedLoginCount = user.failedLoginCount
  | _ => True

/-! ## One commit -/

section Commit

variable {read row user : User} {now : Instant} {lock : Option Instant} {n : Nat}

/-- The new lock is another one than that which was read, so it is written. -/
theorem lockedUntil_ne (h : read.isLocked now = false) :
    read.lockedUntil ≠ some (now + ofMinutes lockoutMinutes) := by
  intro hlock
  have hpos : 0 < ofMinutes lockoutMinutes := by decide
  simp only [User.isLocked, hlock, Option.any_some, decide_eq_false_iff_not] at h
  exact h (Int.lt_add_of_pos_right now hpos)

theorem flushCounters_countFailure (h : read.isLocked now = false) (row : User) :
    flushCounters read (countFailure now read) row =
      if maxFailedLogins ≤ read.failedLoginCount + 1 then
        { row with
          failedLoginCount := 0, lockedUntil := some (now + ofMinutes lockoutMinutes) }
      else { row with failedLoginCount := read.failedLoginCount + 1 } := by
  unfold flushCounters countFailure
  split
  next hmax =>
    have hzero : (0 : Int) ≠ read.failedLoginCount := by
      unfold maxFailedLogins at hmax
      omega
    rw [if_neg hzero, if_neg (lockedUntil_ne h).symm, if_pos rfl]
  next hmax =>
    have hnext : read.failedLoginCount + 1 ≠ read.failedLoginCount := by omega
    rw [if_neg hnext, if_pos rfl, if_pos rfl]

/-- The count is at most that of the commits, and until there are `MAX_FAILED_LOGINS` the lock is
the one of the start. -/
structure Behind (lock : Option Instant) (n : Nat) (user : User) : Prop where
  nonneg : 0 ≤ user.failedLoginCount
  le : user.failedLoginCount ≤ n
  lockedUntil : (n : Int) < maxFailedLogins → user.lockedUntil = lock

theorem Behind.succ (h : Behind lock n user) : Behind lock (n + 1) user := by
  refine ⟨h.nonneg, ?_, fun hlt => h.lockedUntil ?_⟩
  · have hle := h.le
    omega
  · omega

/-- What a call writes that has read a count. -/
theorem Behind.flush (hread : Behind lock n read) (hrow : Behind lock n row)
    (hlocked : read.isLocked now = false) :
    Behind lock (n + 1) (flushCounters read (countFailure now read) row) := by
  have hnonneg := hread.nonneg
  have hle := hread.le
  rw [flushCounters_countFailure hlocked]
  split
  next hmax =>
    refine ⟨Int.le_refl 0, Int.natCast_nonneg _, fun hlt => ?_⟩
    omega
  next hmax =>
    refine ⟨?_, ?_, fun hlt => hrow.lockedUntil (by omega)⟩
    · show 0 ≤ read.failedLoginCount + 1
      omega
    · show read.failedLoginCount + 1 ≤ _
      omega

end Commit

/-! ## Runs -/

section Runs

variable {E : AuthEnv} {id : String} {lock : Option Instant} {s t : State}

structure Inv (id : String) (lock : Option Instant) (s : State) : Prop where
  stored : ∃ user, s.users.get id = some user ∧ Behind lock (s.committed id).length user
  guesses : ∀ i stage, s.guesses i = some stage → stage.read.id = id →
    Behind lock (s.committed id).length stage.read
  unlocked : ∀ i read now, s.guesses i = some (.counted read now) → read.isLocked now = false
  early : ((s.committed id).length : Int) < maxFailedLogins → ∀ now ∈ s.committed id,
    lock ≠ some (now + ofMinutes lockoutMinutes)

theorem inv_start {users : Table User.id} {account : User} (haccount : users.get id = some account)
    (hcount : account.failedLoginCount = 0) : Inv id account.lockedUntil (start users) where
  stored := by
    refine ⟨account, haccount, ?_, ?_, fun _ => rfl⟩
    · rw [hcount]
    · rw [hcount]
      exact Int.natCast_nonneg _
  guesses i stage hi := by cases hi
  unlocked i read now hi := by cases hi
  early _ now hnow := absurd hnow List.not_mem_nil

theorem guesses_put (s : State) (i : Nat) (stage : Stage) (j : Nat) :
    (s.put i stage).guesses j = if j = i then some stage else s.guesses j :=
  Function.update_apply ..

theorem guesses_drop (s : State) (i : Nat) (j : Nat) :
    (s.drop i).guesses j = if j = i then none else s.guesses j :=
  Function.update_apply ..

/-- A call goes on. -/
theorem Inv.put (h : Inv id lock s) {i : Nat} {stage : Stage}
    (hread : stage.read.id = id → Behind lock (s.committed id).length stage.read)
    (hunlocked : ∀ read now, stage = .counted read now → read.isLocked now = false) :
    Inv id lock (s.put i stage) := by
  refine ⟨h.stored, ?_, ?_, h.early⟩
  · intro j other hj
    rw [guesses_put] at hj
    split at hj
    · exact Option.some.inj hj ▸ hread
    · exact h.guesses j other hj
  · intro j read now hj
    rw [guesses_put] at hj
    split at hj
    · exact hunlocked read now (Option.some.inj hj)
    · exact h.unlocked j read now hj

theorem Inv.drop (h : Inv id lock s) (i : Nat) : Inv id lock (s.drop i) := by
  refine ⟨h.stored, ?_, ?_, h.early⟩
  · intro j other hj
    rw [guesses_drop] at hj
    split at hj
    · cases hj
    · exact h.guesses j other hj
  · intro j read now hj
    rw [guesses_drop] at hj
    split at hj
    · cases hj
    · exact h.unlocked j read now hj

/-- The account of the call, after its commit. -/
theorem get_commit (s : State) (i : Nat) (read : User) (now : Instant) (id : String) :
    (s.commit i read now).users.get id =
      if id = read.id then
        (s.users.get id).map (flushCounters read (countFailure now read))
      else s.users.get id :=
  Table.get_modify _ _ _ (flushCounters read (countFailure now read)) fun _ => rfl

theorem committed_commit (s : State) (i : Nat) (read : User) (now : Instant) (id : String) :
    (s.commit i read now).committed id =
      if id = read.id then now :: s.committed read.id else s.committed id :=
  Function.update_apply ..

theorem Inv.commit (h : Inv id lock s) {i : Nat} {read : User} {now : Instant}
    (hi : s.guesses i = some (.counted read now)) : Inv id lock (s.commit i read now) := by
  have hlocked := h.unlocked i read now hi
  have hunlocked : ∀ j other now', (s.commit i read now).guesses j = some (.counted other now') →
      other.isLocked now' = false := by
    intro j other now' hj
    have hrest := (guesses_drop s i j).symm.trans hj
    split at hrest
    · cases hrest
    · exact h.unlocked j other now' hrest
  have hguess : ∀ j stage, (s.commit i read now).guesses j = some stage →
      s.guesses j = some stage := by
    intro j stage hj
    have hrest := (guesses_drop s i j).symm.trans hj
    split at hrest
    · cases hrest
    · exact hrest
  obtain ⟨user, huser, hbehind⟩ := h.stored
  by_cases hid : id = read.id
  · subst hid
    have hread := h.guesses i _ hi rfl
    refine ⟨?_, ?_, hunlocked, ?_⟩
    · refine ⟨flushCounters read (countFailure now read) user, ?_, ?_⟩
      · rw [get_commit, if_pos rfl, huser, Option.map_some]
      · rw [committed_commit, if_pos rfl]
        exact hread.flush hbehind hlocked
    · intro j stage hj hstage
      rw [committed_commit, if_pos rfl]
      exact (h.guesses j stage (hguess j stage hj) hstage).succ
    · rw [committed_commit, if_pos rfl, List.length_cons]
      intro hlt now' hnow'
      have hbefore : ((s.committed read.id).length : Int) < maxFailedLogins := by omega
      rcases List.mem_cons.mp hnow' with rfl | hold
      · rw [← hread.lockedUntil hbefore]
        exact lockedUntil_ne hlocked
      · exact h.early hbefore now' hold
  · refine ⟨⟨user, ?_, ?_⟩, ?_, hunlocked, ?_⟩
    · rw [get_commit, if_neg hid, huser]
    · rw [committed_commit, if_neg hid]
      exact hbehind
    · intro j stage hj hstage
      rw [committed_commit, if_neg hid]
      exact h.guesses j stage (hguess j stage hj) hstage
    · rw [committed_commit, if_neg hid]
      exact h.early

theorem Inv.step (h : Inv id lock s) {a : Action} (hstep : step E s a = some t) :
    Inv id lock t := by
  cases a with
  | read i now email =>
    simp only [Guessing.step] at hstep
    split at hstep
    · cases hstep
    · exact Option.some.inj hstep ▸ h
    next user _ haccount =>
      obtain rfl := Option.some.inj hstep
      refine h.put (fun hid => ?_) fun _ _ hstage => nomatch hstage
      obtain ⟨stored, hstored, hbehind⟩ := h.stored
      have huser : user ∈ s.users.rows := List.mem_of_find?_eq_some haccount
      have hsame := Table.get_of_mem huser
      have hid' : user.id = id := hid
      rw [hid', hstored] at hsame
      exact Option.some.inj hsame ▸ hbehind
  | verify i password =>
    simp only [Guessing.step] at hstep
    split at hstep
    next read now hi =>
      split at hstep
      · cases hstep
      · obtain rfl := Option.some.inj hstep
        exact h.put (h.guesses i (.loaded read now) hi) fun _ _ hstage => nomatch hstage
    · cases hstep
  | count i =>
    simp only [Guessing.step] at hstep
    split at hstep
    next read now hi =>
      split at hstep
      next hcounts =>
        obtain rfl := Option.some.inj hstep
        refine h.put (h.guesses i (.missed read now) hi) fun other now' heq => ?_
        obtain ⟨rfl, rfl⟩ := Stage.counted.inj heq
        simp only [Bool.and_eq_true, Bool.not_eq_true'] at hcounts
        exact hcounts.1
      · exact Option.some.inj hstep ▸ h.drop i
    · cases hstep
  | commit i =>
    simp only [Guessing.step] at hstep
    split at hstep
    next read now hi => exact Option.some.inj hstep ▸ h.commit hi
    · cases hstep

/-- A commit keeps the count right exactly when nothing was committed since its call has read. -/
theorem nothingLost_commit_iff (hI : Inv id lock s) (hP : NothingLost id s) {i : Nat} {read : User}
    {now : Instant} (hi : s.guesses i = some (.counted read now)) :
    NothingLost id (s.commit i read now) ↔ UpToDate id s (.commit i) := by
  obtain ⟨user, huser, hbehind⟩ := hI.stored
  have hlocked := hI.unlocked i read now hi
  by_cases hid : id = read.id
  case neg =>
    refine iff_of_true ?_ fun other now' row hother hsame _ _ => ?_
    · constructor
      · rw [committed_commit, get_commit, if_neg hid, if_neg hid]
        exact hP.counted
      · rw [committed_commit, get_commit, if_neg hid, if_neg hid]
        exact hP.locked
    · obtain ⟨rfl, -⟩ := Stage.counted.inj (Option.some.inj (hi.symm.trans hother))
      exact absurd hsame.symm hid
  subst hid
  have hread : Behind lock (s.committed read.id).length read := hI.guesses i _ hi rfl
  have hflush := flushCounters_countFailure hlocked user
  have hnonneg := hread.nonneg
  have hle := hread.le
  have hupToDate : UpToDate read.id s (.commit i) ↔
      (((s.committed read.id).length : Int) < maxFailedLogins →
        read.failedLoginCount = (s.committed read.id).length) := by
    constructor
    · intro h hlt
      obtain ⟨stored, hstored, hcount⟩ := hP.counted hlt
      exact (h read now stored hi rfl hstored hlt).trans hcount
    · intro h other now' stored hother _ hstored hlt
      obtain ⟨rfl, -⟩ := Stage.counted.inj (Option.some.inj (hi.symm.trans hother))
      obtain ⟨stored', hstored', hcount⟩ := hP.counted hlt
      obtain rfl := Option.some.inj (hstored.symm.trans hstored')
      exact (h hlt).trans hcount.symm
  have hafter : (s.commit i read now).users.get read.id =
      some (flushCounters read (countFailure now read) user) := by
    rw [get_commit, if_pos rfl, huser, Option.map_some]
  have hcommitted : (s.commit i read now).committed read.id = now :: s.committed read.id := by
    rw [committed_commit, if_pos rfl]
  rw [hupToDate]
  constructor
  · intro hlost hlt
    by_cases hmax : ((s.committed read.id).length : Int) + 1 < maxFailedLogins
    · obtain ⟨after, hget, hcount⟩ := hlost.counted (by rw [hcommitted]; exact hmax)
      obtain rfl := Option.some.inj (hafter.symm.trans hget)
      rw [hcommitted, hflush, List.length_cons] at hcount
      split at hcount
      · simp only at hcount
        omega
      · simp only at hcount
        omega
    · have hreached : maxFailedLogins ≤
          (((s.commit i read now).committed read.id).length : Int) := by
        rw [hcommitted, List.length_cons]
        omega
      obtain ⟨after, hget, began, hbegan, hlock⟩ := hlost.locked hreached
      obtain rfl := Option.some.inj (hafter.symm.trans hget)
      rw [hflush] at hlock
      split at hlock
      · omega
      · -- the lock would be the one of the start
        simp only at hlock
        rw [hbehind.lockedUntil hlt] at hlock
        rw [hcommitted] at hbegan
        rcases List.mem_cons.mp hbegan with rfl | hold
        · rw [← hread.lockedUntil hlt] at hlock
          exact absurd hlock (lockedUntil_ne hlocked)
        · exact absurd hlock (hI.early hlt began hold)
  · intro hcount
    constructor
    · rw [hcommitted, List.length_cons]
      intro hlt
      refine ⟨_, hafter, ?_⟩
      have hsame := hcount (by omega)
      rw [hflush, if_neg (by omega)]
      show read.failedLoginCount + 1 = _
      omega
    · rw [hcommitted, List.length_cons]
      intro hmax
      refine ⟨_, hafter, ?_⟩
      rw [hflush]
      split
      · exact ⟨now, List.mem_cons_self, rfl⟩
      next hfew =>
        have hlocked : maxFailedLogins ≤ ((s.committed read.id).length : Int) := by
          by_contra hlt
          have hsame := hcount (by omega)
          omega
        obtain ⟨stored, hstored, began, hbegan, hlock⟩ := hP.locked hlocked
        obtain rfl := Option.some.inj (huser.symm.trans hstored)
        exact ⟨began, List.mem_cons_of_mem _ hbegan, hlock⟩

/-- A step that commits nothing. -/
theorem NothingLost.congr (h : NothingLost id s) (husers : t.users = s.users)
    (hcommitted : t.committed = s.committed) : NothingLost id t := by
  obtain ⟨hcounted, hlocked⟩ := h
  rw [← husers, ← hcommitted] at hcounted hlocked
  exact ⟨hcounted, hlocked⟩

/-- The step lemma. -/
theorem nothingLost_step_iff {a : Action} (hI : Inv id lock s) (hP : NothingLost id s)
    (hstep : step E s a = some t) : NothingLost id t ↔ UpToDate id s a := by
  cases a with
  | read i now email =>
    simp only [Guessing.step] at hstep
    split at hstep
    · cases hstep
    all_goals
      obtain rfl := Option.some.inj hstep
      exact iff_of_true (hP.congr rfl rfl) trivial
  | verify i password =>
    simp only [Guessing.step] at hstep
    split at hstep
    · split at hstep
      · cases hstep
      · obtain rfl := Option.some.inj hstep
        exact iff_of_true (hP.congr rfl rfl) trivial
    · cases hstep
  | count i =>
    simp only [Guessing.step] at hstep
    split at hstep
    · split at hstep
      all_goals
        obtain rfl := Option.some.inj hstep
        exact iff_of_true (hP.congr rfl rfl) trivial
    · cases hstep
  | commit i =>
    simp only [Guessing.step] at hstep
    split at hstep
    next read now hi =>
      obtain rfl := Option.some.inj hstep
      exact nothingLost_commit_iff hI hP hi
    · cases hstep

/-- **No failure is lost** in any state of a run, exactly when every failure is committed before
another one of its account was, since it was read. -/
theorem nothingLost_iff {users : Table User.id} {account : User}
    (haccount : users.get id = some account) (hcount : account.failedLoginCount = 0)
    {as : List Action} (h : Run (step E) Always (start users) as s) :
    Throughout (step E) (NothingLost id) (start users) as ↔
      Run (step E) (UpToDate id) (start users) as s := by
  refine throughout_iff (I := Inv id account.lockedUntil) (fun _ _ _ hI hstep => hI.step hstep)
    (fun _ _ _ hI hP hstep => nothingLost_step_iff hI hP hstep) h (inv_start haccount hcount) ?_
  have hfew : ¬ maxFailedLogins ≤ ((0 : Nat) : Int) := by decide
  exact ⟨fun _ => ⟨account, haccount, hcount⟩, fun hmax => absurd hmax hfew⟩

end Runs

/-! ## One call at a time -/

/-- A call that nobody interrupts leaves the accounts as `authenticate` does. -/
theorem commit_refines_authenticate {E : AuthEnv} {s : State} {i : Nat} {now purgedAt : Instant}
    {email password : String} {read : User} {sessions : Table UserSession.id}
    (haccount : accountOf E s.users email = some read)
    (hwrong : E.verifyPassword password read.passwordHash = false)
    (hcounts : (!read.isLocked now && !isLastActiveAdmin s.users read) = true) :
    (s.commit i read now).users.get read.id =
      (authenticate E ⟨s.users, sessions⟩ now purgedAt email password).1.users.get read.id := by
  have hread : s.users.get read.id = some read :=
    Table.get_of_mem (List.mem_of_find?_eq_some haccount)
  have hcounts' := hcounts
  rw [Bool.and_eq_true, Bool.not_eq_true'] at hcounts'
  have hsame : flushCounters read (countFailure now read) read = countFailure now read := by
    rw [flushCounters_countFailure hcounts'.1]
    rfl
  rw [get_commit, if_pos rfl, hread, Option.map_some, hsame, authenticate, haccount]
  simp only [checkCredentials_of_wrong hwrong, hcounts, if_true]
  rw [Table.get_modify, if_pos rfl, hread, Option.map_some]

namespace Sample

/-- An analyst's account. -/
def accounts : Table User.id :=
  ⟨[{ Users.Sample.admin "a" "ann" with role := .analyst }], List.nodup_singleton _⟩

/-- A guess, as far as its commit. -/
def guess (i : Nat) : List Action := [.read i 10 "ann", .verify i "wrong", .count i]

end Sample

/-- The second of two guesses has read the count before the first one was committed. -/
theorem parallel_guess_lost :
    ∃ s : State, Run (step Users.Sample.authEnv) Always (start Sample.accounts)
        (Sample.guess 0 ++ Sample.guess 1 ++ [.commit 0, .commit 1]) s ∧
      ¬ NothingLost "a" s := by
  refine ⟨_, run_of_exec rfl, fun hlost => ?_⟩
  obtain ⟨user, huser, hcount⟩ := hlost.counted (by decide)
  obtain rfl := Option.some.inj huser
  exact absurd hcount (by decide)

theorem nothingLost_iff_parallel :
    ∃ s : State, Run (step Users.Sample.authEnv) Always (start Sample.accounts)
        (Sample.guess 0 ++ Sample.guess 1 ++ [.commit 0, .commit 1]) s ∧
      (Throughout (step Users.Sample.authEnv) (NothingLost "a") (start Sample.accounts)
          (Sample.guess 0 ++ Sample.guess 1 ++ [.commit 0, .commit 1]) ↔
        Run (step Users.Sample.authEnv) (UpToDate "a") (start Sample.accounts)
          (Sample.guess 0 ++ Sample.guess 1 ++ [.commit 0, .commit 1]) s) := by
  have hrun : ∃ s : State, Run (step Users.Sample.authEnv) Always (start Sample.accounts)
      (Sample.guess 0 ++ Sample.guess 1 ++ [.commit 0, .commit 1]) s := ⟨_, run_of_exec rfl⟩
  obtain ⟨s, hrun⟩ := hrun
  have haccount : Sample.accounts.get "a" =
      some { Users.Sample.admin "a" "ann" with role := .analyst } := rfl
  exact ⟨s, hrun, nothingLost_iff haccount rfl hrun⟩

end FraudAnalyzer.Users.Guessing
