import FraudAnalyzer.Users.Management

/-!
# What the audit log tells of the accounts

Every change of an address, a role or an activity that is made through the service is committed
together with its audit entry, so the accounts can be worked out from the log alone. The role that
an entry names as the old one is the one that was read, and is not used.
-/

namespace FraudAnalyzer.Users.Management

open Python Access

/-! ## Replaying the log -/

/-- What the log tells of an account. -/
structure Summary where
  id : String
  email : String
  role : UserRole
  isActive : Bool
  deriving DecidableEq

def summary (user : User) : Summary := ⟨user.id, user.email, user.role, user.isActive⟩

/-- `UserRole(value)` -/
def roleOfValue (value : String) : Option UserRole :=
  if value = UserRole.admin.value then some .admin
  else if value = UserRole.analyst.value then some .analyst
  else none

/-- The text under a key of a detail. -/
def textUnder (entry : AuditLog) (key : String) : Option String :=
  match entry.detail.lookup key with
  | some (.str value) => some value
  | _ => none

/-- The role under a key of a detail. -/
def roleUnder (entry : AuditLog) (key : String) : Option UserRole :=
  (textUnder entry key).bind roleOfValue

/-- A change of the account with this id. -/
def changed (id : String) (f : Summary → Summary) (accounts : List Summary) : List Summary :=
  accounts.map fun account => if account.id = id then f account else account

/-- What an entry tells of the accounts. -/
def told (accounts : List Summary) (entry : AuditLog) : List Summary :=
  match entry.action with
  | .userCreated =>
    match textUnder entry "email", roleUnder entry "role" with
    | some email, some role => accounts ++ [⟨entry.targetId, email, role, true⟩]
    | _, _ => accounts
  | .userDeactivated => changed entry.targetId (fun a => { a with isActive := false }) accounts
  | .userReactivated => changed entry.targetId (fun a => { a with isActive := true }) accounts
  | .userRoleChanged =>
    match roleUnder entry "to_role" with
    | some role => changed entry.targetId (fun a => { a with role := role }) accounts
    | none => accounts
  | _ => accounts

def replay (accounts : List Summary) (entries : List AuditLog) : List Summary :=
  entries.foldl told accounts

/-- The accounts, as the log can tell of them. -/
def summaries (users : Table User.id) : List Summary := users.rows.map summary

theorem roleOfValue_value (role : UserRole) : roleOfValue role.value = some role := by
  cases role with
  | admin => rfl
  | analyst => rfl

theorem changed_changed {id : String} {f g : Summary → Summary} (hf : ∀ a, (f a).id = a.id)
    (accounts : List Summary) :
    changed id g (changed id f accounts) = changed id (fun a => g (f a)) accounts := by
  unfold changed
  rw [List.map_map]
  refine List.map_congr_left fun a _ => ?_
  simp only [Function.comp_apply]
  by_cases hid : a.id = id
  · rw [if_pos hid, if_pos ((hf a).trans hid), if_pos hid]
  · rw [if_neg hid, if_neg hid, if_neg hid]

theorem changed_self {id : String} {f : Summary → Summary} (hf : ∀ a, f a = a)
    (accounts : List Summary) : changed id f accounts = accounts := by
  unfold changed
  simp only [hf, ite_self, List.map_id']

/-- An `UPDATE` of one account. -/
theorem summaries_modify (users : Table User.id) (id : String) {f : User → User}
    (hf : ∀ r, (f r).id = r.id) {g : Summary → Summary} (h : ∀ r, summary (f r) = g (summary r)) :
    summaries (users.modify id f hf) = changed id g (summaries users) := by
  unfold summaries changed Table.modify
  rw [List.map_map, List.map_map]
  refine List.map_congr_left fun r _ => ?_
  simp only [Function.comp_apply]
  by_cases hid : r.id = id
  · rw [if_pos hid, h, if_pos (show (summary r).id = id from hid)]
  · rw [if_neg hid, if_neg (show (summary r).id ≠ id from hid)]

/-! ## What an update logs -/

section Updates

variable {actorId : String} {target : User} {payload : Updating.UserUpdate}

/-- The activity that an update sets. -/
def withActivity (payload : Updating.UserUpdate) (target : User) (account : Summary) : Summary :=
  if payload.changesActive target then
    { account with isActive := payload.isActive.getD account.isActive }
  else account

/-- The role that an update sets. -/
def withRole (payload : Updating.UserUpdate) (target : User) (account : Summary) : Summary :=
  if payload.changesRole target then { account with role := payload.role.getD account.role }
  else account

theorem withActivity_id (payload : Updating.UserUpdate) (target : User) (account : Summary) :
    (withActivity payload target account).id = account.id := by
  unfold withActivity
  split
  · rfl
  · rfl

theorem summary_apply (payload : Updating.UserUpdate) (target row : User) :
    summary (payload.apply target row) =
      withRole payload target (withActivity payload target (summary row)) := by
  unfold withRole withActivity
  by_cases hactive : payload.changesActive target
  · by_cases hrole : payload.changesRole target
    · simp [Updating.UserUpdate.apply, summary, hactive, hrole]
    · simp [Updating.UserUpdate.apply, summary, hactive, hrole]
  · by_cases hrole : payload.changesRole target
    · simp [Updating.UserUpdate.apply, summary, hactive, hrole]
    · simp [Updating.UserUpdate.apply, summary, hactive, hrole]

theorem told_activity (h : payload.changesActive target = true) (accounts : List Summary) :
    told accounts
        ⟨actorId, if payload.isActive == some false then .userDeactivated else .userReactivated,
          target.id, [("email", .str target.email)]⟩ =
      changed target.id (withActivity payload target) accounts := by
  obtain ⟨isActive, hactive, -⟩ := (Option.any_eq_true _ _).mp h
  unfold withActivity
  simp only [h, if_true, hactive]
  cases isActive with
  | false => rfl
  | true => rfl

theorem told_roleChange (h : payload.changesRole target = true) (accounts : List Summary) :
    told accounts
        ⟨actorId, .userRoleChanged, target.id,
          [("email", .str target.email), ("from_role", .str target.role.value),
            ("to_role", .str (payload.role.getD target.role).value)]⟩ =
      changed target.id (withRole payload target) accounts := by
  obtain ⟨role, hrole, -⟩ := (Option.any_eq_true _ _).mp h
  unfold withRole
  simp only [h, if_true, hrole]
  cases role with
  | admin => rfl
  | analyst => rfl

/-- **An update** logs what it changes, whatever was changed since it read the account. -/
theorem replay_update (payload : Updating.UserUpdate) (actorId : String) (target : User)
    (db : Accounts) :
    replay (summaries db.users) (payload.entries actorId target) =
      summaries (payload.commit target db).users := by
  have hactivity : ∀ accounts, replay accounts
      (if payload.changesActive target then
        [⟨actorId, if payload.isActive == some false then .userDeactivated else .userReactivated,
          target.id, [("email", .str target.email)]⟩]
      else []) = changed target.id (withActivity payload target) accounts := by
    intro accounts
    split
    next h => exact told_activity h accounts
    next h => exact (changed_self (fun a => if_neg h) accounts).symm
  have hrole : ∀ accounts, replay accounts
      (if payload.changesRole target then
        [⟨actorId, .userRoleChanged, target.id,
          [("email", .str target.email), ("from_role", .str target.role.value),
            ("to_role", .str (payload.role.getD target.role).value)]⟩]
      else []) = changed target.id (withRole payload target) accounts := by
    intro accounts
    split
    next h => exact told_roleChange h accounts
    next h => exact (changed_self (fun a => if_neg h) accounts).symm
  calc replay (summaries db.users) (payload.entries actorId target)
    _ = changed target.id (withRole payload target)
          (changed target.id (withActivity payload target) (summaries db.users)) := by
      unfold Updating.UserUpdate.entries
      rw [← hactivity, ← hrole]
      exact List.foldl_append
    _ = changed target.id (fun a => withRole payload target (withActivity payload target a))
          (summaries db.users) := changed_changed (withActivity_id payload target) _
    _ = summaries (payload.commit target db).users :=
      (summaries_modify db.users target.id (f := payload.apply target) (fun _ => rfl)
        (summary_apply payload target)).symm

/-- A statement of an update changes no account and logs nothing, or commits both. -/
theorem committed_of_step {s t : Updating.State} {a : Updating.Action}
    (h : Updating.step s a = some t) :
    (t.db.users = s.db.users ∧ t.auditLogs = s.auditLogs) ∨
      ∃ actorId target payload, t.db = Updating.UserUpdate.commit payload target s.db ∧
        t.auditLogs = s.auditLogs ++ payload.entries actorId target := by
  unfold Updating.step at h
  split at h
  case h_1 => -- read
    split at h
    · cases h
    · split at h
      · exact .inl (Option.some.inj h ▸ ⟨rfl, rfl⟩)
      · exact .inl (Option.some.inj h ▸ ⟨rfl, rfl⟩)
  case h_2 => -- guard
    split at h
    · split at h
      · exact .inl (Option.some.inj h ▸ ⟨rfl, rfl⟩)
      · split at h
        · exact .inl (Option.some.inj h ▸ ⟨rfl, rfl⟩)
        · split at h
          · exact .inl (Option.some.inj h ▸ ⟨rfl, rfl⟩)
          · cases h
    · cases h
  case h_3 i keep => -- lock
    split at h
    · split at h
      · split at h
        · exact .inl (Option.some.inj h ▸ ⟨rfl, rfl⟩)
        · obtain rfl := Option.some.inj h
          cases keep with
          | false => exact .inl ⟨rfl, rfl⟩
          | true => exact .inl ⟨rfl, rfl⟩
      · cases h
    · split at h
      · exact .inl (Option.some.inj h ▸ ⟨rfl, rfl⟩)
      · exact .inl (Option.some.inj h ▸ ⟨rfl, rfl⟩)
    · cases h
  case h_4 => -- write
    split at h
    · split at h
      · exact .inl (Option.some.inj h ▸ ⟨rfl, rfl⟩)
      · split at h
        · exact .inl (Option.some.inj h ▸ ⟨rfl, rfl⟩)
        · cases h
    · cases h
  case h_5 => -- commit
    split at h
    next actorId target payload locked htx =>
      exact .inr ⟨actorId, target, payload, Option.some.inj h ▸ ⟨rfl, rfl⟩⟩
    · cases h
  case h_6 => -- abort
    exact .inl (Option.some.inj h ▸ ⟨rfl, rfl⟩)

end Updates

/-! ## Registered addresses -/

/-- The constraints on `email`. -/
structure Registered (E : AccessEnv) (users : Table User.id) : Prop where
  distinct : (users.rows.map User.email).Nodup
  lower : ∀ user ∈ users.rows, E.sqlLower user.email = user.email

section Addresses

variable {E : AccessEnv} {users users' : Table User.id}

theorem Registered.modify (h : Registered E users) {id : String} {f : User → User}
    (hf : ∀ r, (f r).id = r.id) (hemail : ∀ r, (f r).email = r.email) :
    Registered E (users.modify id f hf) := by
  have hrows : ∀ r : User, (if r.id = id then f r else r).email = r.email := by
    intro r
    split
    · exact hemail r
    · rfl
  refine ⟨?_, ?_⟩
  · have hemails : (users.modify id f hf).rows.map User.email = users.rows.map User.email := by
      simp only [Table.modify, List.map_map]
      exact List.map_congr_left fun r _ => hrows r
    rw [hemails]
    exact h.distinct
  · simp only [Table.modify, List.forall_mem_map]
    intro r hr
    rw [hrows]
    exact h.lower r hr

theorem rows_insertUser {user : User} (h : insertUser E users user = some users') :
    E.sqlLower user.email = user.email ∧ user.email ∉ users.rows.map User.email ∧
      users'.rows = users.rows ++ [user] := by
  unfold insertUser at h
  split at h
  next hfree => exact ⟨hfree.1, hfree.2, Table.rows_insert h⟩
  · cases h

theorem Registered.insertUser (h : Registered E users) {user : User}
    (hinsert : insertUser E users user = some users') : Registered E users' := by
  obtain ⟨hlower, hfree, hrows⟩ := rows_insertUser hinsert
  refine ⟨?_, ?_⟩
  · rw [hrows, List.map_append, List.map_singleton, ← List.concat_eq_append]
    exact h.distinct.concat hfree
  · rw [hrows, List.forall_mem_append, List.forall_mem_singleton]
    exact ⟨h.lower, hlower⟩

/-- An address, however it is typed, is that of one account. -/
theorem Registered.accountOf (h : Registered E users) {user : User} (huser : user ∈ users.rows)
    {email : String} (hemail : normalise E email = user.email) :
    accountOf E.toAuthEnv users email = some user := by
  have hfound : ∀ r ∈ users.rows, E.sqlLower r.email = normalise E email → r = user := by
    intro r hr hsame
    rw [h.lower r hr, hemail] at hsame
    exact List.inj_on_of_nodup_map h.distinct hr huser hsame
  cases hfind : Users.accountOf E.toAuthEnv users email with
  | none =>
    have hnot := List.find?_eq_none.mp hfind user huser
    rw [h.lower user huser, ← hemail] at hnot
    exact absurd (decide_eq_true rfl) hnot
  | some r =>
    have hsame := List.find?_some hfind
    rw [hfound r (List.mem_of_find?_eq_some hfind) (of_decide_eq_true hsame)]

end Addresses

/-! ## What a run logs -/

structure Inv (E : AccessEnv) (s : State) : Prop where
  registered : Registered E s.db.users
  creating : ∀ i actorId user, s.requests i = some (.creating actorId user) → user.isActive = true

section Run

variable {E : AccessEnv} {s t : State} {a : Action} {db : Accounts}

theorem inv_start (hdb : Registered E db.users) : Inv E (State.start db) where
  registered := hdb
  creating _ _ _ h := by cases h

theorem requests_put {i j : Nat} {stage stage' : Stage}
    (h : (s.put i stage).requests j = some stage') :
    stage' = stage ∨ s.requests j = some stage' := by
  unfold State.put Function.update at h
  simp only [eq_rec_constant, dite_eq_ite] at h
  split at h
  · exact .inl (Option.some.inj h).symm
  · exact .inr h

theorem requests_drop {i j : Nat} {stage : Stage} (h : (s.drop i).requests j = some stage) :
    s.requests j = some stage := by
  unfold State.drop Function.update at h
  simp only [eq_rec_constant, dite_eq_ite] at h
  split at h
  · cases h
  · exact h

/-- All that one step can do: leave the accounts, or change them and log it. -/
inductive Effect (E : AccessEnv) (s : State) : State → Prop
  | updated {u : Updating.State}
      (hupdate : (u.db.users = s.db.users ∧ u.auditLogs = s.auditLogs) ∨
        ∃ actorId target payload, u.db = Updating.UserUpdate.commit payload target s.db ∧
          u.auditLogs = s.auditLogs ++ payload.entries actorId target) :
      Effect E s { s with updating := u }
  | idle {t : State} (hdb : t.db = s.db) (hlogs : t.auditLogs = s.auditLogs)
      (hrequests : ∀ i stage, t.requests i = some stage → s.requests i = some stage ∨
        ∀ actorId user, stage = .creating actorId user → user.isActive = true) : Effect E s t
  | created {i : Nat} {actorId : String} {user : User} {users : Table User.id}
      (hstage : s.requests i = some (.creating actorId user))
      (hinsert : insertUser E s.db.users user = some users) :
      Effect E s (s.commit i { s.db with users := users } (createdEntry actorId user))
  | reset {i : Nat} {actorId : String} {user written : User} {sessions : Table UserSession.id} :
      Effect E s
        (s.commit i
          { users := s.db.users.modify user.id (flushPassword user written) fun _ => rfl
            sessions := sessions }
          (resetEntry actorId user))

theorem Effect.refl : Effect E s s := .idle rfl rfl fun _ _ h => .inl h

theorem Effect.drop (i : Nat) : Effect E s (s.drop i) :=
  .idle rfl rfl fun _ _ h => .inl (requests_drop h)

theorem Effect.put {i : Nat} {stage : Stage}
    (h : ∀ actorId user, stage = .creating actorId user → user.isActive = true) :
    Effect E s (s.put i stage) := by
  refine .idle rfl rfl fun j stage' hj => ?_
  rcases requests_put hj with rfl | hold
  · exact .inr h
  · exact .inl hold

theorem effect_of_step (h : step E s a = some t) : Effect E s t := by
  unfold step at h
  split at h
  case h_1 => -- update
    obtain ⟨u, hu, rfl⟩ := Option.map_eq_some_iff.mp h
    exact .updated (committed_of_step hu)
  case h_2 => -- openCreate
    split at h
    · cases h
    · split at h
      · exact Option.some.inj h ▸ .refl
      next user hprepare =>
        obtain rfl := Option.some.inj h
        refine .put fun actorId user' heq => ?_
        cases heq
        unfold prepareCreate at hprepare
        split at hprepare
        · cases hprepare
        · exact Except.ok.inj hprepare ▸ rfl
  case h_3 => -- commitCreate
    split at h
    next actorId user hstage =>
      split at h
      · exact Option.some.inj h ▸ .drop _
      next users hinsert => exact Option.some.inj h ▸ .created hstage hinsert
    · cases h
  case h_4 => -- openReset
    split at h
    · cases h
    · split at h
      · exact Option.some.inj h ▸ .refl
      · exact Option.some.inj h ▸ .put fun _ _ heq => by cases heq
  case h_5 => -- deleteSessions
    split at h
    · exact Option.some.inj h ▸ .put fun _ _ heq => by cases heq
    · cases h
  case h_6 => -- commitReset
    split at h
    · split at h
      · exact Option.some.inj h ▸ .reset
      · cases h
    · cases h
  case h_7 => -- abort
    exact Option.some.inj h ▸ .drop _

theorem Inv.effect (h : Inv E s) (he : Effect E s t) : Inv E t := by
  cases he with
  | @updated u hupdate =>
    refine ⟨?_, h.creating⟩
    rcases hupdate with ⟨husers, -⟩ | ⟨actorId, target, payload, hdb, -⟩
    · exact show Registered E u.db.users from husers ▸ h.registered
    · have hcommit : Registered E (Updating.UserUpdate.commit payload target s.db).users :=
        h.registered.modify (f := payload.apply target) (fun _ => rfl) fun _ => rfl
      exact show Registered E u.db.users from hdb ▸ hcommit
  | idle hdb hlogs hrequests =>
    refine ⟨hdb ▸ h.registered, fun i actorId user hi => ?_⟩
    rcases hrequests i _ hi with hold | hnew
    · exact h.creating i actorId user hold
    · exact hnew actorId user rfl
  | created hstage hinsert =>
    exact ⟨h.registered.insertUser hinsert, fun i actorId user hi =>
      h.creating i actorId user (requests_drop hi)⟩
  | @reset i actorId user written sessions =>
    have hreset : Registered E
        (s.db.users.modify user.id (flushPassword user written) fun _ => rfl) :=
      h.registered.modify _ fun _ => rfl
    exact ⟨hreset, fun i actorId user hi => h.creating i actorId user (requests_drop hi)⟩

/-- **One step** logs what it does to the accounts. -/
theorem Inv.tell (h : Inv E s) (he : Effect E s t) :
    ∃ entries, t.auditLogs = s.auditLogs ++ entries ∧
      summaries t.db.users = replay (summaries s.db.users) entries := by
  cases he with
  | @updated u hupdate =>
    rcases hupdate with ⟨husers, hlogs⟩ | ⟨actorId, target, payload, hdb, hlogs⟩
    · exact ⟨[], hlogs.trans (List.append_nil _).symm, congrArg summaries husers⟩
    · refine ⟨payload.entries actorId target, hlogs, ?_⟩
      rw [replay_update]
      exact congrArg (fun db => summaries db.users) hdb
  | idle hdb hlogs hrequests =>
    refine ⟨[], by rw [hlogs, List.append_nil], ?_⟩
    rw [hdb]
    rfl
  | @created i actorId user users hstage hinsert =>
    refine ⟨[createdEntry actorId user], rfl, ?_⟩
    change summaries users = _
    obtain ⟨-, -, hrows⟩ := rows_insertUser hinsert
    have hactive := h.creating i actorId user hstage
    have htold : told (summaries s.db.users) (createdEntry actorId user) =
        summaries s.db.users ++ [⟨user.id, user.email, user.role, true⟩] := by
      simp [told, createdEntry, roleUnder, textUnder, List.lookup_cons, roleOfValue_value]
    rw [replay, List.foldl_cons, List.foldl_nil, htold, summaries, hrows, List.map_append,
      List.map_singleton, summary, hactive]
    rfl
  | @reset i actorId user written sessions =>
    refine ⟨[resetEntry actorId user], rfl, ?_⟩
    have hsame : summaries (s.db.users.modify user.id (flushPassword user written) fun _ => rfl) =
        changed user.id id (summaries s.db.users) := summaries_modify _ _ _ fun _ => rfl
    exact hsame.trans (changed_self (fun _ => rfl) _)

end Run

/-- What is true of the accounts in every state. -/
structure Accounted (E : AccessEnv) (db : Accounts) (s : State) : Prop where
  /-- The accounts are those at the start, changed as the log tells. -/
  replayed : summaries s.db.users = replay (summaries db.users) s.auditLogs
  /-- An address, however it is typed, signs in to the one account that has it. -/
  sole : ∀ user ∈ s.db.users.rows, ∀ email, normalise E email = user.email →
    accountOf E.toAuthEnv s.db.users email = some user

theorem accounted_of_run (E : AccessEnv) {db : Accounts} (hdb : Registered E db.users)
    {as : List Action} {s : State}
    (h : Machine.Run (step E) Machine.Always (State.start db) as s) : Accounted E db s := by
  have hkeep : ∀ s a t, Inv E s → step E s a = some t → Machine.Always s a → Inv E t :=
    fun _ _ _ hinv hstep _ => hinv.effect (effect_of_step hstep)
  have hinv : Inv E s := h.invariant hkeep (inv_start hdb)
  have hreplay : ∃ entries, s.auditLogs = (State.start db).auditLogs ++ entries ∧
      summaries s.db.users = entries.foldl told (summaries (State.start db).db.users) :=
    h.replay hkeep (fun _ _ _ hinv hstep _ => hinv.tell (effect_of_step hstep)) (inv_start hdb)
  obtain ⟨entries, hlogs, hview⟩ := hreplay
  refine ⟨?_, fun user huser email hemail => hinv.registered.accountOf huser hemail⟩
  rw [hview, hlogs]
  rfl

/-! ## Three requests side by side -/

namespace TrailSample

def env : AccessEnv where
  unicode := .ascii
  sqlLower := id
  verifyPassword password hash := password == hash
  hashPassword _ password := password
  absoluteHours := 12
  idleHours := 2

/-- An administrator, and a deputy who has been deactivated. -/
def accounts : Accounts :=
  ⟨⟨[Users.Sample.admin "b" "boss@shop",
    { Users.Sample.admin "d" "deputy@shop" with isActive := false, role := .analyst }], by decide⟩,
    .empty⟩

/-- An account is opened while the deputy is promoted, and then reset. -/
def actions : List Action :=
  [.openCreate 0 "b" ⟨" Ann@Shop", "Ann", .analyst⟩ "a" "" "first" 5,
    .update (.read 0 "b" "d" ⟨some true, some .admin⟩), .commitCreate 0, .update (.guard_ 0 []),
    .update (.write 0), .openReset 1 "b" "d", .deleteSessions 1, .update (.commit 0),
    .commitReset 1 "" "second" 9]

/-- The accounts afterwards. -/
def afterwards : List Summary :=
  [⟨"b", "boss@shop", .admin, true⟩, ⟨"d", "deputy@shop", .admin, true⟩,
    ⟨"a", "ann@shop", .analyst, true⟩]

end TrailSample

theorem accounted_of_promotion :
    ∃ s, Machine.Run (step TrailSample.env) Machine.Always (State.start TrailSample.accounts)
        TrailSample.actions s ∧
      summaries s.db.users = TrailSample.afterwards ∧
      Accounted TrailSample.env TrailSample.accounts s := by
  have hexec : ((Machine.exec (step TrailSample.env) (State.start TrailSample.accounts)
      TrailSample.actions).any fun s =>
        summaries s.db.users = TrailSample.afterwards) = true := by decide +kernel
  obtain ⟨s, hrun, hafter⟩ := Machine.exists_run_of_exec_any hexec
  have hdb : Registered TrailSample.env TrailSample.accounts.users :=
    ⟨by decide, fun _ _ => rfl⟩
  exact ⟨s, hrun, of_decide_eq_true hafter, accounted_of_run TrailSample.env hdb hrun⟩

end FraudAnalyzer.Users.Management
