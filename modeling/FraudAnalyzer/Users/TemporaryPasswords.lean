import FraudAnalyzer.Users.Access

/-!
# Whether the gate tells temporary passwords from chosen ones

`require_user` of `app/security/deps.py` lets an account through that need not change its password.
A reset and a password change write the flag and the expiry only where they differ from what the
request has read, so a request that has read the account before another wrote the password can leave
the columns of the other one beside its own password.
-/

namespace FraudAnalyzer.Users.Access

open Python

/-! ## The gate -/

def passwordChangeRequired : AppError :=
  ⟨.passwordChangeRequired, "Choose a new password before continuing.", []⟩

/-- `require_user`, for the account of the session -/
def requireUser (user : User) : Except AppError User :=
  if user.mustChangePassword then .error passwordChangeRequired else .ok user

/-! ## The property -/

/-- The stored password was issued, not chosen. `account` is the account at the start, whose own
password is what its flag says. -/
def temporary (account : User) (s : State) : Bool :=
  s.basis.isNone && (s.version != 0 || account.mustChangePassword)

/-- Those who have chosen their password pass the gate, and an issued one runs out. -/
structure Gated (account : User) (s : State) : Prop where
  gate : (requireUser s.user).isOk = !temporary account s
  expires : s.user.tempPasswordExpiresAt.isSome = temporary account s

/-- What a request has read of the account fits what it overwrites: a change that replaces an issued
password has read it as one, and so a reset that has read an issued password, or one that runs out
at the very moment its own will, replaces one. -/
def Stage.Fits (account : User) (s : State) (now : Instant) : Stage → Prop
  | .checked _ _ user _ _ => temporary account s = true →
      user.mustChangePassword = true ∧ user.tempPasswordExpiresAt.isSome = true
  | .resetting user _ => (user.mustChangePassword = true ∨
      user.tempPasswordExpiresAt = some (now + ofHours tempPasswordHours)) →
        temporary account s = true
  | _ => True

/-- The request that writes a password, and the clock of a reset. -/
def Action.writes : Action → Option (Nat × Instant)
  | .write i _ => some (i, 0)
  | .commitReset i _ _ now => some (i, now)
  | _ => none

def Fits (account : User) (s : State) (a : Action) : Prop :=
  ∀ w ∈ a.writes, ∀ stage ∈ s.requests w.1, stage.Fits account s w.2

/-! ## What a step writes -/

/-- The flag, the expiry and the password are as they were. -/
structure SameMarks (s t : State) : Prop where
  flag : t.user.mustChangePassword = s.user.mustChangePassword
  expiry : t.user.tempPasswordExpiresAt = s.user.tempPasswordExpiresAt
  version : t.version = s.version
  basis : t.basis = s.basis

/-- All that one step can do to the password: nothing, a change, or a reset. -/
inductive Marks (E : AccessEnv) (s : State) : Action → State → Prop
  | same {a : Action} {t : State} (hwrites : a.writes = none) (hmarks : SameMarks s t) :
      Marks E s a t
  | chosen {i since basis : Nat} {salt new : String} {survivor : Option UserSession} {user : User}
      {t : State} (hstage : s.requests i = some (.checked survivor since user basis new))
      (huser : t.user = flushPassword user (withChosen user (E.hashPassword salt new)) s.user)
      (hbasis : t.basis = some basis) : Marks E s (.write i salt) t
  | issued {i : Nat} {salt temporary : String} {now : Instant} {user : User} {ids : List String}
      {t : State} (hstage : s.requests i = some (.resetting user ids))
      (huser : t.user =
        flushPassword user (withTemporary user (E.hashPassword salt temporary) now) s.user)
      (hversion : t.version = s.version + 1) (hbasis : t.basis = none) :
      Marks E s (.commitReset i salt temporary now) t

section Marks

variable {E : AccessEnv} {s t : State} {a : Action} {i : Nat} {stage : Stage} {account : User}

theorem SameMarks.refl : SameMarks s s := ⟨rfl, rfl, rfl, rfl⟩

/-- A request moves on, or ends. -/
theorem Marks.put (hwrites : a.writes = none) : Marks E s a (s.put i stage) :=
  .same hwrites ⟨rfl, rfl, rfl, rfl⟩

theorem Marks.drop (hwrites : a.writes = none) : Marks E s a (s.drop i) :=
  .same hwrites ⟨rfl, rfl, rfl, rfl⟩

theorem marks_of_loginStep (h : loginStep E s i stage a = some t) : Marks E s a t := by
  unfold loginStep at h
  split at h
  case h_1 => -- commitCounters
    split at h
    · split at h
      · exact Option.some.inj h ▸ .same rfl ⟨rfl, rfl, rfl, rfl⟩
      · exact Option.some.inj h ▸ .drop rfl
    · exact Option.some.inj h ▸ .same rfl ⟨rfl, rfl, rfl, rfl⟩
    · cases h
  case h_2 => -- purge
    split at h
    · exact Option.some.inj h ▸ .same rfl ⟨rfl, rfl, rfl, rfl⟩
    · cases h
  case h_3 => -- issue
    split at h
    · split at h
      · cases h
      · obtain ⟨sessions, -, rfl⟩ := Option.map_eq_some_iff.mp h
        exact .same rfl ⟨rfl, rfl, rfl, rfl⟩
    · cases h
  · cases h

theorem marks_of_changeStep (hstage : s.requests i = some stage)
    (h : changeStep E s i stage a = some t) (ha : ∀ j salt, a = .write j salt → j = i) :
    Marks E s a t := by
  unfold changeStep at h
  split at h
  case h_1 => -- load
    split at h
    · split at h
      · exact Option.some.inj h ▸ .put rfl
      · exact Option.some.inj h ▸ .drop rfl
    · cases h
  case h_2 => -- touch
    split at h
    · split at h
      · exact Option.some.inj h ▸ .drop rfl
      · exact Option.some.inj h ▸ .same rfl ⟨rfl, rfl, rfl, rfl⟩
    · cases h
  case h_3 => -- snapshot
    split at h
    · exact Option.some.inj h ▸ .put rfl
    · cases h
  case h_4 => -- check
    split at h
    · split at h
      · exact Option.some.inj h ▸ .drop rfl
      · exact Option.some.inj h ▸ .put rfl
    · cases h
  case h_5 j salt => -- write
    obtain rfl := ha j salt rfl
    split at h
    next survivor since user basis new =>
      exact Option.some.inj h ▸ .chosen hstage rfl rfl
    · cases h
  case h_6 => -- revoke
    split at h
    · exact Option.some.inj h ▸ .same rfl ⟨rfl, rfl, rfl, rfl⟩
    · cases h
  case h_7 => -- restore
    split at h
    · exact Option.some.inj h ▸ .drop rfl
    · split at h
      · exact Option.some.inj h ▸ .drop rfl
      · exact Option.some.inj h ▸ .same rfl ⟨rfl, rfl, rfl, rfl⟩
    · cases h
  · cases h

theorem marks_of_resetStep (hstage : s.requests i = some stage)
    (h : resetStep E s i stage a = some t)
    (ha : ∀ j salt temporary now, a = .commitReset j salt temporary now → j = i) :
    Marks E s a t := by
  unfold resetStep at h
  split at h
  case h_1 => -- deleteSessions
    split at h
    · exact Option.some.inj h ▸ .put rfl
    · cases h
  case h_2 j salt temporary now => -- commitReset
    obtain rfl := ha j salt temporary now rfl
    split at h
    next user ids => exact Option.some.inj h ▸ .issued hstage rfl rfl rfl
    · cases h
  · cases h

theorem marks_of_step (h : step E s a = some t) : Marks E s a t := by
  unfold step at h
  split at h
  case h_1 => -- login
    split at h
    · cases h
    · split at h
      · exact Option.some.inj h ▸ .put rfl
      · exact Option.some.inj h ▸ .same rfl .refl
      · exact Option.some.inj h ▸ .put rfl
  case h_2 => -- call
    split at h
    · cases h
    · split at h
      · exact Option.some.inj h ▸ .same rfl .refl
      · split at h
        · cases h
        · split at h
          · exact Option.some.inj h ▸ .put rfl
          · exact Option.some.inj h ▸ .same rfl .refl
  case h_3 => -- openReset
    split at h
    · cases h
    · exact Option.some.inj h ▸ .put rfl
  case h_4 => -- logout
    exact Option.some.inj h ▸ .same rfl ⟨rfl, rfl, rfl, rfl⟩
  case h_5 => -- abort
    exact Option.some.inj h ▸ .drop rfl
  case h_6 | h_7 | h_8 => -- the steps of a login
    obtain ⟨stage, -, hstep⟩ := Option.bind_eq_some_iff.mp h
    exact marks_of_loginStep hstep
  case h_9 | h_10 | h_11 | h_12 | h_14 | h_15 => -- of a change
    obtain ⟨stage, hstage, hstep⟩ := Option.bind_eq_some_iff.mp h
    exact marks_of_changeStep hstage hstep fun _ _ heq => by cases heq
  case h_13 => -- its write
    obtain ⟨stage, hstage, hstep⟩ := Option.bind_eq_some_iff.mp h
    exact marks_of_changeStep hstage hstep fun _ _ heq => (Action.write.inj heq).1.symm
  case h_16 => -- of a reset
    obtain ⟨stage, hstage, hstep⟩ := Option.bind_eq_some_iff.mp h
    exact marks_of_resetStep hstage hstep fun _ _ _ _ heq => by cases heq
  case h_17 => -- its commit
    obtain ⟨stage, hstage, hstep⟩ := Option.bind_eq_some_iff.mp h
    exact marks_of_resetStep hstage hstep fun _ _ _ _ heq => (Action.commitReset.inj heq).1.symm

/-! ## What a step does to the gate -/

theorem requireUser_isOk (user : User) : (requireUser user).isOk = !user.mustChangePassword := by
  unfold requireUser
  cases user.mustChangePassword with
  | false => rfl
  | true => rfl

theorem gated_iff : Gated account s ↔ s.user.mustChangePassword = temporary account s ∧
    s.user.tempPasswordExpiresAt.isSome = temporary account s := by
  constructor
  · rintro ⟨hgate, hexpires⟩
    rw [requireUser_isOk] at hgate
    exact ⟨Bool.not_inj hgate, hexpires⟩
  · rintro ⟨hflag, hexpires⟩
    exact ⟨by rw [requireUser_isOk, hflag], hexpires⟩

/-- The columns of a change, over what is stored. -/
theorem flush_withChosen (user row : User) (hash : String) :
    (flushPassword user (withChosen user hash) row).mustChangePassword =
        (!user.mustChangePassword && row.mustChangePassword) ∧
      (flushPassword user (withChosen user hash) row).tempPasswordExpiresAt.isSome =
        (!user.tempPasswordExpiresAt.isSome && row.tempPasswordExpiresAt.isSome) := by
  constructor
  · simp only [flushPassword, withChosen]
    cases user.mustChangePassword with
    | false => rfl
    | true => rfl
  · simp only [flushPassword, withChosen]
    cases user.tempPasswordExpiresAt with
    | none => rfl
    | some t => rfl

/-- The columns of a reset. -/
theorem flush_withTemporary (user row : User) (hash : String) (now : Instant) :
    (flushPassword user (withTemporary user hash now) row).mustChangePassword =
        (!user.mustChangePassword || row.mustChangePassword) ∧
      (flushPassword user (withTemporary user hash now) row).tempPasswordExpiresAt.isSome =
        (decide (user.tempPasswordExpiresAt ≠ some (now + ofHours tempPasswordHours)) ||
          row.tempPasswordExpiresAt.isSome) := by
  constructor
  · simp only [flushPassword, withTemporary]
    cases user.mustChangePassword with
    | false => rfl
    | true => rfl
  · simp only [flushPassword, withTemporary]
    by_cases hsame : user.tempPasswordExpiresAt = some (now + ofHours tempPasswordHours)
    · simp [hsame]
    · simp [hsame, Ne.symm hsame]

/-- **One step** keeps the gate exactly when what it writes fits. -/
theorem gated_step_iff (hgated : Gated account s) (h : step E s a = some t) :
    Gated account t ↔ Fits account s a := by
  obtain ⟨hflag, hexpires⟩ := gated_iff.mp hgated
  rw [gated_iff]
  cases marks_of_step h with
  | same hwrites hmarks =>
    have htemporary : temporary account t = temporary account s := by
      unfold temporary
      rw [hmarks.basis, hmarks.version]
    rw [hmarks.flag, hmarks.expiry, htemporary]
    refine ⟨fun _ w hw => ?_, fun _ => ⟨hflag, hexpires⟩⟩
    rw [hwrites] at hw
    cases hw
  | @chosen i since basis salt new survivor user t hstage huser hbasis =>
    have htemporary : temporary account t = false := by
      unfold temporary
      rw [hbasis]
      rfl
    have hfits : Fits account s (.write i salt) ↔ (temporary account s = true →
        user.mustChangePassword = true ∧ user.tempPasswordExpiresAt.isSome = true) := by
      simp [Fits, Action.writes, hstage, Stage.Fits]
    obtain ⟨hwritten, hcleared⟩ := flush_withChosen user s.user (E.hashPassword salt new)
    rw [hfits, htemporary, huser, hwritten, hcleared, hflag, hexpires]
    cases temporary account s with
    | false => simp
    | true => simp
  | @issued i salt text now user ids t hstage huser hversion hbasis =>
    have htemporary : temporary account t = true := by
      unfold temporary
      rw [hbasis, hversion]
      rfl
    have hfits : Fits account s (.commitReset i salt text now) ↔
        (user.mustChangePassword = true ∨
          user.tempPasswordExpiresAt = some (now + ofHours tempPasswordHours) →
            temporary account s = true) := by
      simp [Fits, Action.writes, hstage, Stage.Fits]
    obtain ⟨hwritten, hset⟩ := flush_withTemporary user s.user (E.hashPassword salt text) now
    rw [hfits, htemporary, huser, hwritten, hset, hflag, hexpires]
    cases temporary account s with
    | false => simp
    | true => simp

end Marks

/-- **The gate tells issued passwords from chosen ones** throughout a run exactly when what each
request has read fits what it overwrites. -/
theorem gated_throughout_iff (E : AccessEnv) {account : User} (sessions : Table UserSession.id)
    (haccount : account.tempPasswordExpiresAt.isSome = account.mustChangePassword)
    {as : List Action} {s : State}
    (h : Machine.Run (step E) Machine.Always (State.start account sessions) as s) :
    Machine.Throughout (step E) (Gated account) (State.start account sessions) as ↔
      Machine.Run (step E) (Fits account) (State.start account sessions) as s := by
  have hstart : Gated account (State.start account sessions) :=
    gated_iff.mpr ⟨rfl, haccount⟩
  exact Machine.throughout_iff (fun _ _ _ _ _ => trivial)
    (fun _ _ _ _ hgated hstep => gated_step_iff hgated hstep) h trivial hstart

/-! ## Two resets and a change -/

namespace GateSample

def env : AccessEnv where
  unicode := .ascii
  sqlLower := id
  verifyPassword password hash := password == hash
  hashPassword _ password := password
  absoluteHours := 12
  idleHours := 2

def account : User := { Users.Sample.admin "u" "ann@shop" with passwordHash := "first" }

def reset (i : Nat) (password : String) : List Action :=
  [.deleteSessions i, .commitReset i "" password 15]

/-- A login with a temporary password, and the change of it, up to its write. -/
def change : List Action :=
  [.login 2 20 "temporary", .commitCounters 2 false, .purge 2 20, .issue 2 "a" 30 none none,
    .call 2 "a" 40, .load 2, .touch 2, .snapshot 2, .check 2 "temporary" "chosen by ann",
    .write 2 ""]

/-- A reset, and the change of its password. -/
def inOrder : List Action := .openReset 0 :: reset 0 "temporary" ++ change

/-- A second reset has read the account before the change, and commits after it. -/
def overtaken : List Action :=
  .openReset 0 :: reset 0 "temporary" ++ .openReset 1 :: change ++ reset 1 "another"

end GateSample

theorem gated_throughout_inOrder :
    ∃ s, Machine.Run (step GateSample.env) Machine.Always (State.start GateSample.account .empty)
        GateSample.inOrder s ∧
      (Machine.Throughout (step GateSample.env) (Gated GateSample.account)
          (State.start GateSample.account .empty) GateSample.inOrder ↔
        Machine.Run (step GateSample.env) (Fits GateSample.account)
          (State.start GateSample.account .empty) GateSample.inOrder s) := by
  have hexec : ((Machine.exec (step GateSample.env) (State.start GateSample.account .empty)
      GateSample.inOrder).any fun _ => true) = true := by decide +kernel
  obtain ⟨s, hrun, -⟩ := Machine.exists_run_of_exec_any hexec
  exact ⟨s, hrun, gated_throughout_iff GateSample.env .empty rfl hrun⟩

/-- The password of the overtaken reset is not marked, and passes the gate. -/
example : ((Machine.exec (step GateSample.env) (State.start GateSample.account .empty)
    GateSample.overtaken).any fun s =>
      temporary GateSample.account s && (requireUser s.user).isOk) = true := by decide +kernel

end FraudAnalyzer.Users.Access
