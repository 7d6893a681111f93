import FraudAnalyzer.Users.Access
import FraudAnalyzer.Users.Updating

/-!
# How long a session lasts

`app/features/auth/sessions.py`, the route that changes a password, and `update_user`, one request
after another. A session has two clocks: the absolute one runs from the login, the idle one from the
last use. The password change deletes the session it is called with and restores it.

`issuedAt`, `lastUse` and `ended` are for the statements only.
-/

namespace FraudAnalyzer.Users.Sessions

open Machine
open Access (issueWithId revokeAllForUser isOpen ofHours withChosen)
open Updating (UserUpdate getOr404 activeAdmins countLocked)

structure SessionEnv extends Access.AccessEnv where
  digest : String → String

/-- The key of a session that is there already. -/
inductive IntegrityError where
  | keyTaken

def signIn : AppError := ⟨.notAuthenticated, "Sign in to continue.", []⟩

/-- The `UPDATE` of `last_seen_at`, which is the idle clock only. -/
def touch (sessions : Table UserSession.id) (id : String) (now : Instant) :
    Table UserSession.id :=
  sessions.modify id (fun stored => { stored with lastSeenAt := now }) (UserSession.touched_id now)

/-- `resolve` -/
def resolve (E : SessionEnv) (db : Accounts) (rawToken : String) (now : Instant) :
    Accounts × Option User :=
  if rawToken = "" then (db, none)
  else
    match db.sessions.get (E.digest rawToken) with
    | none => (db, none)
    | some stored =>
      if !isOpen E.toAccessEnv stored now then (db, none)
      else
        match db.users.get stored.userId with
        | none => (db, none)
        | some user =>
          if !user.isActive then (db, none)
          else
            ({ db with sessions := touch db.sessions (E.digest rawToken) now }, some user)

/-- `revoke` -/
def revoke (E : SessionEnv) (db : Accounts) (rawToken : String) : Accounts :=
  { db with
    sessions := db.sessions.deleteWhere fun session => session.id = E.digest rawToken }

/-- The end of `POST /auth/change-password`, for the user that was resolved. -/
def replacePassword (E : SessionEnv) (db : Accounts) (rawToken : String) (user : User)
    (restoredAt : Instant) (salt current new : String) :
    Accounts × Except (Raised IntegrityError) Unit :=
  let survivor := db.sessions.get (E.digest rawToken)
  match checkChange E.toAuthEnv user current new with
  | .error error => (db, .error (.appError error))
  | .ok () =>
    let users := db.users.modify user.id
      (fun row => withChosen row (E.hashPassword salt new)) fun _ => rfl
    let sessions := revokeAllForUser db.sessions user.id
    match survivor with
    | none => (⟨users, sessions⟩, .ok ())
    | some survivor =>
      match issueWithId sessions user survivor restoredAt with
      | none => (⟨users, sessions⟩, .error (.other .keyTaken))
      | some sessions => (⟨users, sessions⟩, .ok ())

/-- `POST /auth/change-password`, behind `current_user`; `restoredAt` is the clock when the calling
session is restored. -/
def changePassword (E : SessionEnv) (db : Accounts) (rawToken : String) (now restoredAt : Instant)
    (salt current new : String) : Accounts × Except (Raised IntegrityError) Unit :=
  match resolve E db rawToken now with
  | (db, none) => (db, .error (.appError signIn))
  | (db, some user) => replacePassword E db rawToken user restoredAt salt current new

/-- `update_user`, without its audit entries -/
def updateUser (db : Accounts) (userId : String) (payload : UserUpdate) :
    Accounts × Except AppError User :=
  match getOr404 db userId with
  | .error error => (db, .error error)
  | .ok target =>
    if payload.demotes && target.isActiveAdmin then
      match countLocked (activeAdmins db.users) with
      | .error error => (db, .error error)
      | .ok () => (payload.commit target db, .ok (payload.apply target target))
    else (payload.commit target db, .ok (payload.apply target target))

/-! ## Requests one after another -/

structure State where
  db : Accounts
  /-- The latest reading of the clock. -/
  now : Instant
  /-- When the session with a digest was opened. -/
  issuedAt : String → Option Instant
  /-- When it was last used with success. -/
  lastUse : String → Option Instant
  /-- The digests of the sessions that a request has deleted and not restored. -/
  ended : List String

namespace State

/-- Accounts without a session. -/
def start (users : Table User.id) (now : Instant) : State :=
  ⟨⟨users, .empty⟩, now, fun _ => none, fun _ => none, []⟩

/-- What a request leaves. -/
def leave (s : State) (db : Accounts) (now : Instant) : State :=
  { s with
    db := db
    now := now
    ended := s.ended ++
      (s.db.sessions.rows.map UserSession.id).filter fun id => (db.sessions.get id).isNone }

def use (s : State) (id : String) (now : Instant) : State :=
  { s with lastUse := Function.update s.lastUse id (some now) }

def open_ (s : State) (id : String) (now : Instant) : State :=
  { s with issuedAt := Function.update s.issuedAt id (some now) }

end State

inductive Action where
  | issue (userId rawToken : String) (now : Instant) (ip userAgent : Option String)
  | resolve (rawToken : String) (now : Instant)
  | revoke (rawToken : String) (now : Instant)
  | revokeAllForUser (userId : String) (now : Instant)
  | purgeExpired (now : Instant)
  | changePassword (rawToken : String) (now restoredAt : Instant) (salt current new : String)
  | updateUser (userId : String) (payload : UserUpdate) (now : Instant)

namespace Action

/-- The first reading of the clock. -/
def began : Action → Instant
  | issue _ _ now _ _ | resolve _ now | revoke _ now | revokeAllForUser _ now | purgeExpired now
  | changePassword _ now _ _ _ _ | updateUser _ _ now => now

/-- The last one. -/
def done : Action → Instant
  | changePassword _ _ restoredAt _ _ _ => restoredAt
  | a => a.began

end Action

/-- What a request does. The token that `issue` draws is never that of another session. -/
def perform (E : SessionEnv) (s : State) (a : Action) : Option State :=
  match a with
  | .issue userId rawToken now ip userAgent =>
    match s.db.users.get userId with
    | none => none
    | some user =>
      let id := E.digest rawToken
      if id = E.digest "" || (s.issuedAt id).isSome then none
      else
        (Access.issue E.toAccessEnv s.db.sessions user id now ip userAgent).map fun sessions =>
          ((s.leave { s.db with sessions := sessions } now).open_ id now).use id now
  | .resolve rawToken now =>
    match resolve E s.db rawToken now with
    | (db, none) => some (s.leave db now)
    | (db, some _) => some ((s.leave db now).use (E.digest rawToken) now)
  | .revoke rawToken now => some (s.leave (revoke E s.db rawToken) now)
  | .revokeAllForUser userId now =>
    some (s.leave { s.db with sessions := revokeAllForUser s.db.sessions userId } now)
  | .purgeExpired now =>
    some (s.leave { s.db with sessions := purgeExpired s.db.sessions now } now)
  | .changePassword rawToken now restoredAt salt current new =>
    let id := E.digest rawToken
    match resolve E s.db rawToken now,
        changePassword E s.db rawToken now restoredAt salt current new with
    | (_, none), (db, _) => some (s.leave db restoredAt)
    | (_, some _), (db, .error _) => some ((s.leave db restoredAt).use id now)
    | (_, some _), (db, .ok ()) => some ((s.leave db restoredAt).use id restoredAt)
  | .updateUser userId payload now => some (s.leave (updateUser s.db userId payload).1 now)

/-- One request. The clock does not go back. -/
def step (E : SessionEnv) (s : State) (a : Action) : Option State :=
  if s.now ≤ a.began && a.began ≤ a.done then perform E s a else none

/-! ## One request -/

/-- What it takes for a token to resolve. -/
structure Resolves (E : SessionEnv) (db : Accounts) (rawToken : String) (now : Instant)
    (stored : UserSession) (user : User) : Prop where
  token : rawToken ≠ ""
  row : db.sessions.get (E.digest rawToken) = some stored
  isOpen : isOpen E.toAccessEnv stored now = true
  account : db.users.get stored.userId = some user
  active : user.isActive = true

section Requests

variable {E : SessionEnv} {db : Accounts} {rawToken : String} {now restoredAt : Instant}
  {stored : UserSession} {user : User} {salt current new : String}

/-- A token resolves, and its session is touched, or nothing changes. -/
theorem resolve_cases (E : SessionEnv) (db : Accounts) (rawToken : String) (now : Instant) :
    (resolve E db rawToken now = (db, none) ∧
        ¬ ∃ stored user, Resolves E db rawToken now stored user) ∨
      ∃ stored user, Resolves E db rawToken now stored user ∧
        resolve E db rawToken now =
          ({ db with sessions := touch db.sessions (E.digest rawToken) now }, some user) := by
  unfold resolve
  by_cases htoken : rawToken = ""
  · rw [if_pos htoken]
    exact .inl ⟨rfl, fun ⟨_, _, h⟩ => h.token htoken⟩
  rw [if_neg htoken]
  cases hrow : db.sessions.get (E.digest rawToken) with
  | none =>
    refine .inl ⟨rfl, fun ⟨_, _, h⟩ => ?_⟩
    rw [h.row] at hrow
    cases hrow
  | some stored =>
    have hstored : ∀ {other user}, Resolves E db rawToken now other user → other = stored :=
      fun h => Option.some.inj (h.row.symm.trans hrow)
    by_cases hopen : isOpen E.toAccessEnv stored now = true
    · simp only [hopen, Bool.not_true, Bool.false_eq_true, if_false]
      cases hacc : db.users.get stored.userId with
      | none =>
        refine .inl ⟨rfl, fun ⟨_, _, h⟩ => ?_⟩
        have haccount := h.account
        rw [hstored h, hacc] at haccount
        cases haccount
      | some user =>
        by_cases hactive : user.isActive = true
        · simp only [hactive, Bool.not_true, Bool.false_eq_true, if_false]
          exact .inr ⟨stored, user, ⟨htoken, hrow, hopen, hacc, hactive⟩, rfl⟩
        · simp only [hactive, Bool.not_false, if_true]
          refine .inl ⟨trivial, fun ⟨_, _, h⟩ => hactive ?_⟩
          have haccount := h.account
          rw [hstored h, hacc] at haccount
          exact Option.some.inj haccount ▸ h.active
    · simp only [hopen, Bool.not_false, if_true]
      exact .inl ⟨trivial, fun ⟨_, _, h⟩ => hopen (hstored h ▸ h.isOpen)⟩

theorem resolve_eq_some_iff :
    (resolve E db rawToken now).2 = some user ↔
      ∃ stored, Resolves E db rawToken now stored user := by
  rcases resolve_cases E db rawToken now with ⟨hnone, hno⟩ | ⟨stored, found, hres, hsome⟩
  · rw [hnone]
    exact iff_of_false nofun fun ⟨stored, h⟩ => hno ⟨stored, user, h⟩
  · rw [hsome]
    constructor
    · intro h
      exact ⟨stored, Option.some.inj h ▸ hres⟩
    · rintro ⟨other, h⟩
      obtain rfl : stored = other := Option.some.inj (hres.row.symm.trans h.row)
      exact hres.account.symm.trans h.account

theorem get_touch (sessions : Table UserSession.id) (id other : String) (now : Instant) :
    (touch sessions id now).get other =
      if other = id then (sessions.get other).map fun stored => { stored with lastSeenAt := now }
      else sessions.get other :=
  Table.get_modify _ _ _ _ _

theorem get_revokeAllForUser (sessions : Table UserSession.id) (userId id : String) :
    (revokeAllForUser sessions userId).get id =
      (sessions.get id).filter fun session => !decide (session.userId = userId) :=
  Table.get_deleteWhere _ _ _

/-- A change that is not refused restores the session it was called with, of all of the user's
sessions. -/
theorem replacePassword_cases (hrow : db.sessions.get (E.digest rawToken) = some stored)
    (howner : stored.userId = user.id) (restoredAt : Instant) (salt current new : String) :
    (∃ error, replacePassword E db rawToken user restoredAt salt current new =
        (db, .error error)) ∨
      ∃ db', replacePassword E db rawToken user restoredAt salt current new = (db', .ok ()) ∧
        ∀ id, db'.sessions.get id =
          if id = E.digest rawToken then
            some { stored with userId := user.id, lastSeenAt := restoredAt }
          else (db.sessions.get id).filter fun session => !decide (session.userId = user.id) := by
  unfold replacePassword
  split
  next error _ => exact .inl ⟨_, rfl⟩
  · have hgone : (revokeAllForUser db.sessions user.id).get (E.digest rawToken) = none := by
      rw [get_revokeAllForUser, hrow, Option.filter_some]
      simp [howner]
    have hid : stored.id = E.digest rawToken := Table.key_of_get hrow
    obtain ⟨sessions, hsessions⟩ : ∃ sessions,
        issueWithId (revokeAllForUser db.sessions user.id) user stored restoredAt =
          some sessions :=
      Table.insert_isSome (hid.symm ▸ hgone)
    right
    simp only [hrow, hsessions]
    refine ⟨_, rfl, fun id => ?_⟩
    simp only [Table.get_insert hsessions, hid, get_revokeAllForUser]

theorem updateUser_sessions (db : Accounts) (userId : String) (payload : UserUpdate) :
    (updateUser db userId payload).1.sessions = db.sessions ∨
      ∃ p, (updateUser db userId payload).1.sessions = db.sessions.deleteWhere p := by
  have hcommit : ∀ target : User, (payload.commit target db).sessions = db.sessions ∨
      ∃ p, (payload.commit target db).sessions = db.sessions.deleteWhere p := by
    intro target
    unfold UserUpdate.commit
    split
    · exact .inr ⟨_, rfl⟩
    · exact .inl rfl
  unfold updateUser
  split
  · exact .inl rfl
  · split
    · split
      · exact .inl rfl
      · exact hcommit _
    · exact hcommit _

end Requests

/-! ## What a request does to one session -/

/-- The session with a digest is left alone, used, deleted, or opened. -/
inductive Effect (E : SessionEnv) (s t : State) (id : String) : Prop
  | kept (hrow : t.db.sessions.get id = s.db.sessions.get id)
      (hissued : t.issuedAt id = s.issuedAt id) (huse : t.lastUse id = s.lastUse id)
  | used {stored row : UserSession} (hstored : s.db.sessions.get id = some stored)
      (hrow : t.db.sessions.get id = some row) (hcreated : row.createdAt = stored.createdAt)
      (hexpires : row.expiresAt = stored.expiresAt) (hissued : t.issuedAt id = s.issuedAt id)
      (huse : t.lastUse id = some row.lastSeenAt)
  | deleted (hrow : t.db.sessions.get id = none) (hissued : t.issuedAt id = s.issuedAt id)
  | opened {row : UserSession} (hnew : s.issuedAt id = none) (hid : id ≠ E.digest "")
      (hrow : t.db.sessions.get id = some row) (hissued : t.issuedAt id = some row.createdAt)
      (hexpires : row.expiresAt = row.createdAt + ofHours E.absoluteHours)
      (huse : t.lastUse id = some row.lastSeenAt)

structure Performed (E : SessionEnv) (s t : State) : Prop where
  effect : ∀ id, Effect E s t id
  ended : ∀ id, id ∈ t.ended ↔
    id ∈ s.ended ∨ (∃ row, s.db.sessions.get id = some row) ∧ t.db.sessions.get id = none

section Effects

variable {E : SessionEnv} {s t : State} {id : String}

theorem mem_ended_leave (s : State) (db : Accounts) (now : Instant) (id : String) :
    id ∈ (s.leave db now).ended ↔
      id ∈ s.ended ∨ (∃ row, s.db.sessions.get id = some row) ∧ db.sessions.get id = none := by
  simp only [State.leave, List.mem_append, List.mem_filter, Table.mem_keys_iff,
    Option.isNone_iff_eq_none]

theorem filter_eq_or_none (row : Option UserSession) (p : UserSession → Bool) :
    row.filter p = row ∨ row.filter p = none := by
  cases row with
  | none => exact .inl rfl
  | some row =>
    rw [Option.filter_some]
    split
    · exact .inl rfl
    · exact .inr rfl

theorem effect_deleteWhere {p : UserSession → Bool}
    (hsessions : t.db.sessions = s.db.sessions.deleteWhere p) (hissued : t.issuedAt = s.issuedAt)
    (huse : t.lastUse = s.lastUse) (id : String) : Effect E s t id := by
  have hrow := Table.get_deleteWhere s.db.sessions p id
  rw [← hsessions] at hrow
  rcases filter_eq_or_none (s.db.sessions.get id) fun row => !p row with hsame | hnone
  · exact .kept (hrow.trans hsame) (congrFun hissued id) (congrFun huse id)
  · exact .deleted (hrow.trans hnone) (congrFun hissued id)

theorem performed_same (s : State) (now : Instant) {users : Table User.id} :
    Performed E s (s.leave ⟨users, s.db.sessions⟩ now) where
  effect _ := .kept rfl rfl rfl
  ended := mem_ended_leave s _ now

theorem performed_deleteWhere (s : State) (now : Instant) {db : Accounts}
    {p : UserSession → Bool} (h : db.sessions = s.db.sessions.deleteWhere p) :
    Performed E s (s.leave db now) where
  effect := effect_deleteWhere h rfl rfl
  ended := mem_ended_leave s db now

/-- A request that uses a session, and leaves or deletes the others. -/
theorem performed_use {stored row : UserSession} {db : Accounts} {now used : Instant}
    (hstored : s.db.sessions.get id = some stored) (hrow : db.sessions.get id = some row)
    (hcreated : row.createdAt = stored.createdAt) (hexpires : row.expiresAt = stored.expiresAt)
    (hseen : row.lastSeenAt = used)
    (hother : ∀ other, other ≠ id →
      db.sessions.get other = s.db.sessions.get other ∨ db.sessions.get other = none) :
    Performed E s ((s.leave db now).use id used) where
  effect other := by
    by_cases hid : other = id
    · subst hid
      refine .used hstored hrow hcreated hexpires rfl ?_
      rw [hseen]
      exact Function.update_self ..
    · rcases hother other hid with hsame | hnone
      · exact .kept hsame rfl (Function.update_of_ne hid ..)
      · exact .deleted hnone rfl
  ended := mem_ended_leave s db now

theorem performed_resolve {rawToken : String} {now : Instant}
    (h : perform E s (.resolve rawToken now) = some t) : Performed E s t := by
  simp only [perform] at h
  rcases resolve_cases E s.db rawToken now with ⟨hnone, -⟩ | ⟨stored, user, hres, hsome⟩
  · rw [hnone] at h
    obtain rfl := Option.some.inj h
    exact performed_same s now
  · rw [hsome] at h
    obtain rfl := Option.some.inj h
    have hget : (touch s.db.sessions (E.digest rawToken) now).get (E.digest rawToken) =
        some { stored with lastSeenAt := now } := by
      rw [get_touch, if_pos rfl, hres.row, Option.map_some]
    exact performed_use hres.row hget rfl rfl rfl fun other hid =>
      .inl ((get_touch ..).trans (if_neg hid))

theorem performed_changePassword {rawToken : String} {now restoredAt : Instant}
    {salt current new : String}
    (h : perform E s (.changePassword rawToken now restoredAt salt current new) = some t) :
    Performed E s t := by
  simp only [perform, changePassword] at h
  rcases resolve_cases E s.db rawToken now with ⟨hnone, -⟩ | ⟨stored, user, hres, hsome⟩
  · rw [hnone] at h
    obtain rfl := Option.some.inj h
    exact performed_same s restoredAt
  · obtain ⟨touched, htouched⟩ : ∃ db : Accounts,
        db = { s.db with sessions := touch s.db.sessions (E.digest rawToken) now } := ⟨_, rfl⟩
    rw [hsome, ← htouched] at h
    have hget : touched.sessions.get (E.digest rawToken) =
        some { stored with lastSeenAt := now } := by
      rw [htouched, get_touch, if_pos rfl, hres.row, Option.map_some]
    have hother : ∀ other, other ≠ E.digest rawToken →
        touched.sessions.get other = s.db.sessions.get other := by
      intro other hid
      rw [htouched]
      exact (get_touch ..).trans (if_neg hid)
    have howner : stored.userId = user.id := (Table.key_of_get hres.account).symm
    rcases replacePassword_cases hget howner restoredAt salt current new with
      ⟨error, hcase⟩ | ⟨db, hcase, hrows⟩
    · simp only [hcase] at h
      obtain rfl := Option.some.inj h
      exact performed_use hres.row hget rfl rfl rfl fun other hid => .inl (hother other hid)
    · simp only [hcase] at h
      obtain rfl := Option.some.inj h
      refine performed_use hres.row ((hrows _).trans (if_pos rfl)) rfl rfl rfl ?_
      intro other hid
      have hrow := (hrows other).trans (if_neg hid)
      rw [hother other hid] at hrow
      rcases filter_eq_or_none (s.db.sessions.get other) _ with hsame | hnone
      · exact .inl (hrow.trans hsame)
      · exact .inr (hrow.trans hnone)

theorem performed_issue {userId rawToken : String} {now : Instant} {ip userAgent : Option String}
    (h : perform E s (.issue userId rawToken now ip userAgent) = some t) : Performed E s t := by
  simp only [perform] at h
  split at h
  · cases h
  next user _ =>
    split at h
    · cases h
    next hfresh =>
      simp only [Bool.or_eq_true, decide_eq_true_eq, not_or, Bool.not_eq_true,
        Option.isSome_eq_false_iff, Option.isNone_iff_eq_none] at hfresh
      obtain ⟨sessions, hsessions, rfl⟩ := Option.map_eq_some_iff.mp h
      have hget := Table.get_insert hsessions
      refine ⟨fun other => ?_, mem_ended_leave s _ now⟩
      by_cases hid : other = E.digest rawToken
      · subst hid
        exact .opened hfresh.2 hfresh.1 ((hget _).trans (if_pos rfl)) (Function.update_self ..) rfl
          (Function.update_self ..)
      · exact .kept ((hget other).trans (if_neg hid)) (Function.update_of_ne hid ..)
          (Function.update_of_ne hid ..)

/-- **One request**, whichever it is. -/
theorem performed_step {a : Action} (h : step E s a = some t) : Performed E s t := by
  unfold step at h
  split at h
  · cases a with
    | issue userId rawToken now ip userAgent => exact performed_issue h
    | resolve rawToken now => exact performed_resolve h
    | revoke rawToken now =>
      obtain rfl := Option.some.inj h
      exact performed_deleteWhere s now rfl
    | revokeAllForUser userId now =>
      obtain rfl := Option.some.inj h
      exact performed_deleteWhere s now rfl
    | purgeExpired now =>
      obtain rfl := Option.some.inj h
      exact performed_deleteWhere s now rfl
    | changePassword rawToken now restoredAt salt current new => exact performed_changePassword h
    | updateUser userId payload now =>
      obtain rfl := Option.some.inj h
      rcases updateUser_sessions s.db userId payload with hsame | ⟨p, hdelete⟩
      · rw [show (updateUser s.db userId payload).1 =
            ⟨(updateUser s.db userId payload).1.users, s.db.sessions⟩ by rw [← hsame]]
        exact performed_same s now
      · exact performed_deleteWhere s now hdelete
  · cases h

end Effects

/-! ## Every run -/

/-- What the rows say of the sessions that were opened. -/
structure Inv (E : SessionEnv) (s : State) : Prop where
  dates : ∀ id row, s.db.sessions.get id = some row →
    s.issuedAt id = some row.createdAt ∧
      row.expiresAt = row.createdAt + ofHours E.absoluteHours ∧
      s.lastUse id = some row.lastSeenAt
  ended : ∀ id, id ∈ s.ended ↔ (s.issuedAt id).isSome = true ∧ s.db.sessions.get id = none
  noToken : s.issuedAt (E.digest "") = none

/-- The past of a state is the past of the states after it. -/
structure Follows (s t : State) : Prop where
  issuedAt : ∀ id now, s.issuedAt id = some now → t.issuedAt id = some now
  ended : ∀ id, id ∈ s.ended → id ∈ t.ended

section Runs

variable {E : SessionEnv} {s t : State}

theorem inv_start (users : Table User.id) (now : Instant) : Inv E (State.start users now) where
  dates _ _ h := nomatch h
  ended _ := iff_of_false List.not_mem_nil fun h => Bool.false_ne_true h.1
  noToken := rfl

theorem Performed.follows (h : Performed E s t) : Follows s t where
  issuedAt id now hissued := by
    rcases h.effect id with ⟨-, hsame, -⟩ | ⟨-, -, -, -, hsame, -⟩ | ⟨-, hsame⟩ | ⟨hnew⟩
    · exact hsame.trans hissued
    · exact hsame.trans hissued
    · exact hsame.trans hissued
    · rw [hnew] at hissued
      cases hissued
  ended id hid := (h.ended id).mpr (.inl hid)

theorem Inv.performed (hI : Inv E s) (h : Performed E s t) : Inv E t where
  dates id row hrow := by
    rcases h.effect id with
      ⟨hsame, hissued, huse⟩ | ⟨hstored, hget, hcreated, hexpires, hissued, huse⟩
      | ⟨hnone, -⟩ | ⟨-, -, hget, hissued, hexpires, huse⟩
    · rw [hissued, huse]
      exact hI.dates id row (hsame.symm.trans hrow)
    · obtain rfl := Option.some.inj (hget.symm.trans hrow)
      obtain ⟨hopened, habsolute, -⟩ := hI.dates id _ hstored
      rw [hissued, hopened, hexpires, habsolute, hcreated]
      exact ⟨rfl, rfl, huse⟩
    · rw [hnone] at hrow
      cases hrow
    · obtain rfl := Option.some.inj (hget.symm.trans hrow)
      exact ⟨hissued, hexpires, huse⟩
  ended id := by
    rw [h.ended id, hI.ended id]
    rcases h.effect id with ⟨hsame, hissued, -⟩ | ⟨hstored, hget, -, -, -, -⟩ | ⟨hnone, hissued⟩
      | ⟨hnew, -, hget, -, -, -⟩
    · rw [hsame, hissued]
      constructor
      · rintro (hended | ⟨⟨row, hrow⟩, hnone⟩)
        · exact hended
        · rw [hrow] at hnone
          cases hnone
      · exact .inl
    · simp [hstored, hget]
    · rw [hnone, hissued]
      cases hrow : s.db.sessions.get id with
      | none => simp
      | some row => simp [(hI.dates id row hrow).1]
    · simp [hnew, hget]
  noToken := by
    rcases h.effect (E.digest "") with
      ⟨-, hsame, -⟩ | ⟨-, -, -, -, hsame, -⟩ | ⟨-, hsame⟩ | ⟨-, hid⟩
    · exact hsame.trans hI.noToken
    · exact hsame.trans hI.noToken
    · exact hsame.trans hI.noToken
    · exact absurd rfl hid

theorem Inv.run (hI : Inv E s) {as : List Action} (h : Run (step E) Always s as t) : Inv E t :=
  h.invariant (fun _ _ _ hI hstep _ => hI.performed (performed_step hstep)) hI

theorem follows_run {as : List Action} (h : Run (step E) Always s as t) : Follows s t := by
  refine h.invariant (I := Follows s) ?_ ⟨fun _ _ => id, fun _ => id⟩
  intro u a v hu hstep _
  have hv := (performed_step hstep).follows
  exact ⟨fun id now h => hv.issuedAt id now (hu.issuedAt id now h),
    fun id h => hv.ended id (hu.ended id h)⟩

end Runs

/-! ## The two clocks -/

/-- **The lifetime of a session**, by the requests there have been. -/
structure Lifetime (E : SessionEnv) (s : State) : Prop where
  dates : ∀ id row, s.db.sessions.get id = some row →
    s.issuedAt id = some row.createdAt ∧ row.expiresAt = row.createdAt + ofHours E.absoluteHours
  resolves : ∀ rawToken now user, (resolve E s.db rawToken now).2 = some user ↔
    ∃ row lastUse, s.db.sessions.get (E.digest rawToken) = some row ∧
      s.lastUse (E.digest rawToken) = some lastUse ∧
      now < row.expiresAt ∧ now - lastUse < ofHours E.idleHours ∧
      s.db.users.get row.userId = some user ∧ user.isActive = true
  absolute : ∀ rawToken issued now, s.issuedAt (E.digest rawToken) = some issued →
    issued + ofHours E.absoluteHours ≤ now → (resolve E s.db rawToken now).2 = none
  ended : ∀ rawToken now, E.digest rawToken ∈ s.ended → (resolve E s.db rawToken now).2 = none

/-- What ends a session. -/
structure Endings (E : SessionEnv) (s : State) : Prop where
  revoke : ∀ rawToken now t, step E s (.revoke rawToken now) = some t →
    (s.issuedAt (E.digest rawToken)).isSome = true → E.digest rawToken ∈ t.ended
  revokeAllForUser : ∀ userId now t, step E s (.revokeAllForUser userId now) = some t →
    ∀ row ∈ s.db.sessions.rows, row.userId = userId → row.id ∈ t.ended
  purgeExpired : ∀ now t, step E s (.purgeExpired now) = some t →
    ∀ row ∈ s.db.sessions.rows, row.expiresAt ≤ now → row.id ∈ t.ended

/-- What the later state `t` does not change of `s`. -/
structure Lasting (s t : State) : Prop where
  dates : ∀ id row row', s.db.sessions.get id = some row → t.db.sessions.get id = some row' →
    row'.createdAt = row.createdAt ∧ row'.expiresAt = row.expiresAt
  ended : ∀ id, id ∈ s.ended → id ∈ t.ended ∧ t.db.sessions.get id = none

section Clocks

variable {E : SessionEnv} {s t : State}

theorem Inv.resolves_iff (h : Inv E s) {rawToken : String} {now : Instant} {user : User} :
    (resolve E s.db rawToken now).2 = some user ↔
      ∃ row lastUse, s.db.sessions.get (E.digest rawToken) = some row ∧
        s.lastUse (E.digest rawToken) = some lastUse ∧
        now < row.expiresAt ∧ now - lastUse < ofHours E.idleHours ∧
        s.db.users.get row.userId = some user ∧ user.isActive = true := by
  have hopen : ∀ row : UserSession, isOpen E.toAccessEnv row now = true ↔
      now < row.expiresAt ∧ now - row.lastSeenAt < ofHours E.idleHours := by
    intro row
    simp only [isOpen, Bool.and_eq_true, Bool.not_eq_true', decide_eq_false_iff_not, Int.not_le]
    exact and_congr_right fun _ => ⟨Int.sub_left_lt_of_lt_add, Int.lt_add_of_sub_left_lt⟩
  rw [resolve_eq_some_iff]
  constructor
  · rintro ⟨row, -, hrow, hisOpen, haccount, hactive⟩
    obtain ⟨hexpires, hidle⟩ := (hopen row).mp hisOpen
    exact ⟨row, row.lastSeenAt, hrow, (h.dates _ row hrow).2.2, hexpires, hidle, haccount, hactive⟩
  · rintro ⟨row, lastUse, hrow, huse, hexpires, hidle, haccount, hactive⟩
    obtain ⟨hissued, -, hseen⟩ := h.dates _ row hrow
    obtain rfl : row.lastSeenAt = lastUse := Option.some.inj (hseen.symm.trans huse)
    refine ⟨row, fun htoken => ?_, hrow, (hopen row).mpr ⟨hexpires, hidle⟩, haccount, hactive⟩
    -- the digest of the empty token belongs to no session
    rw [htoken, h.noToken] at hissued
    cases hissued

theorem Inv.lifetime (h : Inv E s) : Lifetime E s where
  dates id row hrow := ⟨(h.dates id row hrow).1, (h.dates id row hrow).2.1⟩
  resolves _ _ _ := h.resolves_iff
  absolute rawToken issued now hissued hover := by
    rw [Option.eq_none_iff_forall_ne_some]
    intro user huser
    obtain ⟨row, -, hrow, -, hexpires, -⟩ := h.resolves_iff.mp huser
    obtain ⟨hopened, habsolute, -⟩ := h.dates _ row hrow
    have hsame : row.createdAt = issued := Option.some.inj (hopened.symm.trans hissued)
    rw [habsolute, hsame] at hexpires
    exact absurd hover (Int.not_le.mpr hexpires)
  ended rawToken now hended := by
    rw [Option.eq_none_iff_forall_ne_some]
    intro user huser
    obtain ⟨row, -, hrow, -⟩ := h.resolves_iff.mp huser
    rw [((h.ended _).mp hended).2] at hrow
    cases hrow

theorem mem_ended_of_gone {a : Action} (hstep : step E s a = some t) {row : UserSession}
    (hrow : row ∈ s.db.sessions.rows) (hgone : t.db.sessions.get row.id = none) :
    row.id ∈ t.ended :=
  ((performed_step hstep).ended row.id).mpr (.inr ⟨⟨row, Table.get_of_mem hrow⟩, hgone⟩)

theorem Inv.endings (h : Inv E s) : Endings E s where
  revoke rawToken now t hstep hissued := by
    have hperformed := performed_step hstep
    refine ((h.performed hperformed).ended _).mpr ⟨?_, ?_⟩
    · obtain ⟨issued, hissued⟩ := Option.isSome_iff_exists.mp hissued
      rw [hperformed.follows.issuedAt _ issued hissued]
      rfl
    · unfold step at hstep
      split at hstep
      · obtain rfl := Option.some.inj hstep
        exact Table.get_delete ..
      · cases hstep
  revokeAllForUser userId now t hstep row hrow huser := by
    refine mem_ended_of_gone hstep hrow ?_
    unfold step at hstep
    split at hstep
    · obtain rfl := Option.some.inj hstep
      refine (get_revokeAllForUser ..).trans ?_
      rw [Table.get_of_mem hrow, Option.filter_some]
      simp [huser]
    · cases hstep
  purgeExpired now t hstep row hrow hexpired := by
    refine mem_ended_of_gone hstep hrow ?_
    unfold step at hstep
    split at hstep
    · obtain rfl := Option.some.inj hstep
      refine (Table.get_deleteWhere ..).trans ?_
      rw [Table.get_of_mem hrow, Option.filter_some]
      simp [hexpired]
    · cases hstep

theorem Inv.lasting (h : Inv E s) {as : List Action} (hrun : Run (step E) Always s as t) :
    Lasting s t where
  dates id row row' hrow hrow' := by
    obtain ⟨hopened, habsolute, -⟩ := h.dates id row hrow
    obtain ⟨hopened', habsolute', -⟩ := (h.run hrun).dates id row' hrow'
    have hsame : row.createdAt = row'.createdAt :=
      Option.some.inj (((follows_run hrun).issuedAt id _ hopened).symm.trans hopened')
    exact ⟨hsame.symm, by rw [habsolute, habsolute', hsame]⟩
  ended id hended := by
    have hlater := (follows_run hrun).ended id hended
    exact ⟨hlater, (((h.run hrun).ended id).mp hlater).2⟩

end Clocks

/-- **How long a session lasts**, in every run and after it. -/
theorem lifetime_of_run {E : SessionEnv} {users : Table User.id} {now : Instant} {as : List Action}
    {s : State} (h : Run (step E) Always (State.start users now) as s) :
    Lifetime E s ∧ Endings E s ∧ ∀ bs t, Run (step E) Always s bs t → Lasting s t := by
  have hI := (inv_start users now).run h
  exact ⟨hI.lifetime, hI.endings, fun _ _ hrun => hI.lasting hrun⟩

namespace Sample

def env : SessionEnv where
  unicode := .ascii
  sqlLower := id
  verifyPassword password hash := password == hash
  hashPassword _ password := password
  absoluteHours := 12
  idleHours := 2
  digest rawToken := "#" ++ rawToken

def users : Table User.id :=
  ⟨[{ Users.Sample.admin "u" "boss" with passwordHash := "first" }], List.nodup_singleton _⟩

/-- Two logins; the first of the sessions changes the password, and the other one ends. -/
def actions : List Action :=
  [.issue "u" "a" 10 none none, .issue "u" "b" 20 none none,
    .changePassword "a" 30 40 "" "first" "another-fine-password", .resolve "a" 50]

end Sample

theorem lifetime_of_run_changed :
    ∃ s, Run (step Sample.env) Always (State.start Sample.users 0) Sample.actions s ∧
      s.lastUse "#a" = some 50 ∧ "#b" ∈ s.ended ∧
      Lifetime Sample.env s ∧ Endings Sample.env s ∧
      ∀ bs t, Run (step Sample.env) Always s bs t → Lasting s t := by
  have hrun : ∃ s, Run (step Sample.env) Always (State.start Sample.users 0) Sample.actions s ∧
      s.lastUse "#a" = some 50 ∧ "#b" ∈ s.ended :=
    ⟨_, run_of_exec rfl, rfl, List.mem_cons_self⟩
  obtain ⟨s, hrun, huse, hended⟩ := hrun
  exact ⟨s, hrun, huse, hended, lifetime_of_run hrun⟩

end FraudAnalyzer.Users.Sessions
