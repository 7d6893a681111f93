import FraudAnalyzer.Users.Lockout

/-!
# A login tells nothing of other accounts

Two tables of accounts that agree on some of them. To somebody who holds the passwords of no others,
every sequence of logins is answered alike: by a refusal which is always the same. Of the others it
matters only whether one is an active administrator's, since the last one is never locked.
-/

namespace FraudAnalyzer.Users.Enumeration

open Python

/-- The constraints of the table: `email` is unique, and `ck_users_email_lowercase`. -/
structure Registered (E : AuthEnv) (users : Table User.id) : Prop where
  distinct : (users.rows.map User.email).Nodup
  lowercase : ∀ user ∈ users.rows, E.sqlLower user.email = user.email

/-- An active administrator's account is not one of these. -/
def AdminOutside (known : Set String) (users : Table User.id) : Prop :=
  ∃ user ∈ users.rows, user.isActiveAdmin = true ∧ user.id ∉ known

/-- The right password is presented for one of these accounts only. -/
def RightOnlyFor (E : AuthEnv) (known : Set String) (users : Table User.id) (a : Attempt) : Prop :=
  ∀ user, accountOf E users a.email = some user →
    E.verifyPassword a.password user.passwordHash = true → user.id ∈ known

/-- One login: what it leaves, and its answer. -/
def login (E : AuthEnv) (db : Accounts) (a : Attempt) : Accounts × Except AppError User :=
  authenticate E db a.now a.purgedAt a.email a.password

/-- The answers to the attempts. -/
def responses (E : AuthEnv) (db : Accounts) (as : List Attempt) : List (Except AppError User) :=
  Machine.outputs (login E) db as

/-! ## What an attempt leaves of an account -/

/-- The account can only have been counted, locked or signed in to. -/
structure SameAccount (user after : User) : Prop where
  id : after.id = user.id
  email : after.email = user.email
  passwordHash : after.passwordHash = user.passwordHash
  isActiveAdmin : after.isActiveAdmin = user.isActiveAdmin

/-- Every account of the table, changed or not. -/
def Renewed (users after : Table User.id) : Prop :=
  ∃ g : User → User, (∀ user, SameAccount user (g user)) ∧ after.rows = users.rows.map g

section Attempts

variable {E : AuthEnv} {users after : Table User.id} {known : Set String} {db : Accounts}
  {a : Attempt}

theorem sameAccount_refl (user : User) : SameAccount user user := ⟨rfl, rfl, rfl, rfl⟩

theorem sameAccount_countFailure (now : Instant) (user : User) :
    SameAccount user (countFailure now user) := by
  refine ⟨countFailure_id now user, ?_, ?_, isActiveAdmin_countFailure⟩
  all_goals
    unfold countFailure
    split
    · rfl
    · rfl

theorem sameAccount_noteLogin (now : Instant) (user : User) :
    SameAccount user (noteLogin now user) := ⟨rfl, rfl, rfl, rfl⟩

theorem renewed_refl (users : Table User.id) : Renewed users users :=
  ⟨id, sameAccount_refl, users.rows.map_id.symm⟩

theorem renewed_modify {f : User → User} (hf : ∀ user, SameAccount user (f user)) (id : String) :
    Renewed users (users.modify id f fun user => (hf user).id) := by
  refine ⟨fun user => if user.id = id then f user else user, fun user => ?_, rfl⟩
  dsimp only
  split
  · exact hf user
  · exact sameAccount_refl user

theorem renewed_login (E : AuthEnv) (db : Accounts) (a : Attempt) :
    Renewed db.users (login E db a).1.users := by
  have heffect := attempted_authenticate E db a.now a.purgedAt a.email a.password
  unfold login
  generalize (authenticate E db a.now a.purgedAt a.email a.password).1.users = after at heffect ⊢
  cases heffect with
  | nothing => exact renewed_refl _
  | failure haccount hwrong hlocked hlast =>
    exact renewed_modify (fun user => sameAccount_countFailure a.now user) _
  | login haccount =>
    exact renewed_modify (sameAccount_noteLogin a.now) _

theorem Renewed.registered (h : Renewed users after) (husers : Registered E users) :
    Registered E after := by
  obtain ⟨g, hg, hrows⟩ := h
  constructor
  · have hemails : after.rows.map User.email = users.rows.map User.email := by
      rw [hrows, List.map_map]
      exact List.map_congr_left fun user _ => (hg user).email
    rw [hemails]
    exact husers.distinct
  · intro user huser
    rw [hrows] at huser
    obtain ⟨row, hrow, rfl⟩ := List.mem_map.mp huser
    rw [(hg row).email]
    exact husers.lowercase row hrow

theorem Renewed.adminOutside_iff (h : Renewed users after) :
    AdminOutside known after ↔ AdminOutside known users := by
  obtain ⟨g, hg, hrows⟩ := h
  simp only [AdminOutside, hrows, List.mem_map]
  constructor
  · rintro ⟨_, ⟨user, huser, rfl⟩, hadmin, hid⟩
    exact ⟨user, huser, (hg user).isActiveAdmin ▸ hadmin, (hg user).id ▸ hid⟩
  · rintro ⟨user, huser, hadmin, hid⟩
    exact ⟨g user, ⟨user, huser, rfl⟩, (hg user).isActiveAdmin.trans hadmin,
      (hg user).id.symm ▸ hid⟩

theorem Renewed.accountOf_eq (h : Renewed users after) {email : String} {user : User}
    (haccount : accountOf E after email = some user) :
    ∃ row, accountOf E users email = some row ∧ SameAccount row user := by
  obtain ⟨g, hg, hrows⟩ := h
  unfold accountOf at haccount ⊢
  simp only [hrows, List.find?_map, Function.comp_def, (hg _).email] at haccount
  obtain ⟨row, hrow, rfl⟩ := Option.map_eq_some_iff.mp haccount
  exact ⟨row, hrow, hg row⟩

theorem Renewed.rightOnlyFor (h : Renewed users after) (hright : RightOnlyFor E known users a) :
    RightOnlyFor E known after a := by
  intro user haccount hverify
  obtain ⟨row, hrow, hsame⟩ := h.accountOf_eq haccount
  rw [hsame.passwordHash] at hverify
  rw [hsame.id]
  exact hright row hrow hverify

end Attempts

/-! ## Two tables -/

/-- The tables agree on the known accounts, and on whether another active administrator exists. -/
structure Alike (known : Set String) (users users' : Table User.id) : Prop where
  account : ∀ id ∈ known, users.get id = users'.get id
  admin : AdminOutside known users ↔ AdminOutside known users'

section TwoTables

variable {E : AuthEnv} {known : Set String} {users users' : Table User.id} {db db' : Accounts}
  {a : Attempt} {user : User}

theorem Alike.symm (h : Alike known users users') : Alike known users' users :=
  ⟨fun id hid => (h.account id hid).symm, h.admin.symm⟩

/-- A known account has its address in both. -/
theorem Alike.accountOf_eq (h : Alike known users users') (husers' : Registered E users')
    {email : String} (haccount : accountOf E users email = some user) (hid : user.id ∈ known) :
    accountOf E users' email = some user := by
  have hmem : user ∈ users.rows := List.mem_of_find?_eq_some haccount
  have hemail : E.sqlLower user.email = E.unicode.lower (strip E.unicode email) := by
    simpa using List.find?_some haccount
  have hmem' : user ∈ users'.rows :=
    Table.mem_of_get ((h.account _ hid).symm.trans (Table.get_of_mem hmem))
  unfold accountOf
  cases hfound : users'.rows.find? fun row =>
      E.sqlLower row.email = E.unicode.lower (strip E.unicode email) with
  | none => exact absurd hemail (by simpa using List.find?_eq_none.mp hfound user hmem')
  | some other =>
    have hother : other ∈ users'.rows := List.mem_of_find?_eq_some hfound
    have hsame : E.sqlLower other.email = E.sqlLower user.email := by
      rw [hemail]
      simpa using List.find?_some hfound
    rw [husers'.lowercase other hother, husers'.lowercase user hmem'] at hsame
    exact congrArg some (List.inj_on_of_nodup_map husers'.distinct hother hmem' hsame)

theorem isLastActiveAdmin_iff :
    isLastActiveAdmin users user = true ↔
      user.isActiveAdmin = true ∧
        ∀ other ∈ users.rows, other.isActiveAdmin = true → other.id = user.id := by
  have hrole : (decide (user.role ≠ .admin) || !user.isActive) = !user.isActiveAdmin := by
    simp [User.isActiveAdmin]
  unfold isLastActiveAdmin
  rw [hrole]
  cases user.isActiveAdmin with
  | false => simp
  | true => simp [User.isActiveAdmin, List.countP_eq_zero]

theorem Alike.isLastActiveAdmin_le (h : Alike known users users') (hid : user.id ∈ known)
    (hlast : isLastActiveAdmin users user = true) : isLastActiveAdmin users' user = true := by
  rw [isLastActiveAdmin_iff] at hlast ⊢
  refine ⟨hlast.1, fun other hother hadmin => ?_⟩
  by_cases hknown : other.id ∈ known
  · have hget := (h.account _ hknown).trans (Table.get_of_mem hother)
    exact hlast.2 other (Table.mem_of_get hget) hadmin
  · obtain ⟨found, hfound, hadmin', hout⟩ := h.admin.mpr ⟨other, hother, hadmin, hknown⟩
    exact absurd (hlast.2 found hfound hadmin' ▸ hid) hout

theorem Alike.isLastActiveAdmin_eq (h : Alike known users users') (hid : user.id ∈ known) :
    isLastActiveAdmin users user = isLastActiveAdmin users' user := by
  rw [Bool.eq_iff_iff]
  exact ⟨h.isLastActiveAdmin_le hid, h.symm.isLastActiveAdmin_le hid⟩

/-- To an attempt that has no right password for it, an account that is not known answers as none,
and no known account changes. -/
theorem login_unknown (hright : RightOnlyFor E known db.users a)
    (hunknown : ∀ user, accountOf E db.users a.email = some user → user.id ∉ known) :
    (login E db a).2 = .error refusal ∧
      ∀ id ∈ known, (login E db a).1.users.get id = db.users.get id := by
  unfold login authenticate
  cases haccount : accountOf E db.users a.email with
  | none => exact ⟨rfl, fun _ _ => rfl⟩
  | some user =>
    have hid := hunknown user haccount
    have hwrong : E.verifyPassword a.password user.passwordHash = false := by
      rw [← Bool.not_eq_true]
      exact fun hverify => hid (hright user haccount hverify)
    simp only [checkCredentials_of_wrong hwrong]
    split
    · refine ⟨rfl, fun id hknown => ?_⟩
      have hne : id ≠ user.id := fun heq => hid (heq ▸ hknown)
      rw [Table.get_modify, if_neg hne]
    · exact ⟨rfl, fun _ _ => rfl⟩

theorem get_modify_congr {f : User → User} (hf : ∀ user, (f user).id = user.id) {id id' : String}
    (h : users.get id' = users'.get id') :
    (users.modify id f hf).get id' = (users'.modify id f hf).get id' := by
  rw [Table.get_modify, Table.get_modify, h]

/-- A known account answers alike, and changes alike. -/
theorem Alike.login_known (h : Alike known db.users db'.users)
    (haccount : accountOf E db.users a.email = some user)
    (haccount' : accountOf E db'.users a.email = some user) (hid : user.id ∈ known) :
    (login E db a).2 = (login E db' a).2 ∧
      ∀ id ∈ known, (login E db a).1.users.get id = (login E db' a).1.users.get id := by
  unfold login authenticate
  simp only [haccount, haccount', h.isLastActiveAdmin_eq hid]
  split
  · split
    · exact ⟨rfl, fun id hknown => get_modify_congr (countFailure_id a.now) (h.account id hknown)⟩
    · exact ⟨rfl, h.account⟩
  · exact ⟨rfl, h.account⟩
  · exact ⟨rfl, fun id hknown =>
      get_modify_congr (fun user => (sameAccount_noteLogin a.now user).id) (h.account id hknown)⟩

end TwoTables

/-! ## Sequences of logins -/

/-- What every attempt keeps of two tables, for the attempts that are made. -/
structure Indistinct (E : AuthEnv) (known : Set String) (as : List Attempt) (db db' : Accounts) :
    Prop where
  alike : Alike known db.users db'.users
  registered : Registered E db.users
  registered' : Registered E db'.users
  right : ∀ a ∈ as, RightOnlyFor E known db.users a
  right' : ∀ a ∈ as, RightOnlyFor E known db'.users a

section Sequences

variable {E : AuthEnv} {known : Set String} {as : List Attempt} {db db' : Accounts} {a : Attempt}

theorem Indistinct.login (h : Indistinct E known as db db') (ha : a ∈ as) :
    (login E db a).2 = (login E db' a).2 ∧
      ∀ id ∈ known, (Enumeration.login E db a).1.users.get id =
        (Enumeration.login E db' a).1.users.get id := by
  by_cases hknown : ∃ user, accountOf E db.users a.email = some user ∧ user.id ∈ known
  · obtain ⟨user, haccount, hid⟩ := hknown
    exact h.alike.login_known haccount (h.alike.accountOf_eq h.registered' haccount hid) hid
  · -- nor is there a known account with the address in the other table
    have hunknown : ∀ user, accountOf E db.users a.email = some user → user.id ∉ known :=
      fun user haccount hid => hknown ⟨user, haccount, hid⟩
    have hunknown' : ∀ user, accountOf E db'.users a.email = some user → user.id ∉ known :=
      fun user haccount hid =>
        hknown ⟨user, h.alike.symm.accountOf_eq h.registered haccount hid, hid⟩
    obtain ⟨hanswer, hkept⟩ := login_unknown (h.right a ha) hunknown
    obtain ⟨hanswer', hkept'⟩ := login_unknown (h.right' a ha) hunknown'
    refine ⟨hanswer.trans hanswer'.symm, fun id hid => ?_⟩
    rw [hkept id hid, hkept' id hid, h.alike.account id hid]

theorem Indistinct.next (h : Indistinct E known as db db') (ha : a ∈ as) :
    Indistinct E known as (Enumeration.login E db a).1 (Enumeration.login E db' a).1 where
  alike :=
    ⟨(h.login ha).2, (renewed_login E db a).adminOutside_iff.trans
      (h.alike.admin.trans (renewed_login E db' a).adminOutside_iff.symm)⟩
  registered := (renewed_login E db a).registered h.registered
  registered' := (renewed_login E db' a).registered h.registered'
  right b hb := (renewed_login E db a).rightOnlyFor (h.right b hb)
  right' b hb := (renewed_login E db' a).rightOnlyFor (h.right' b hb)

end Sequences

/-- **Logins tell nothing of other accounts.** Two tables that agree on the known accounts, and on
whether another one is an active administrator's, answer every sequence of attempts alike, as long
as the right password is presented for a known account only. -/
theorem responses_eq {E : AuthEnv} {known : Set String} {db db' : Accounts}
    (hregistered : Registered E db.users) (hregistered' : Registered E db'.users)
    (hknown : ∀ id ∈ known, db.users.get id = db'.users.get id)
    (hadmin : AdminOutside known db.users ↔ AdminOutside known db'.users) {as : List Attempt}
    (hright : ∀ a ∈ as, RightOnlyFor E known db.users a)
    (hright' : ∀ a ∈ as, RightOnlyFor E known db'.users a) :
    responses E db as = responses E db' as := by
  have hstart : Indistinct E known as db db' :=
    ⟨⟨hknown, hadmin⟩, hregistered, hregistered', hright, hright'⟩
  refine Machine.outputs_eq_of_unwinding ?_ ?_ (fun a (ha : a ∈ as) => ha) hstart
  · intro db db' a ha h
    exact (h.login ha).1
  · intro db db' a ha h
    exact h.next ha

/-! ## Two accounts that nobody signs in to -/

namespace Sample

/-- The known account. -/
def known : User := { Users.Sample.admin "k" "kate" with role := .analyst }

/-- Beside the known account, the administrator's. -/
def accounts : Accounts :=
  ⟨⟨[known, Users.Sample.admin "b" "boss"], by decide⟩, .empty⟩

/-- Another administrator, and an analyst whose account is locked. -/
def others : Accounts :=
  ⟨⟨[{ Users.Sample.admin "c" "carl" with role := .analyst, lockedUntil := some 1000000000 },
      Users.Sample.admin "d" "dave", known], by decide⟩, .empty⟩

/-- A login to the known account, and guesses at addresses that one table has. -/
def attempts : List Attempt :=
  [⟨10, 10, "kate", "correct"⟩, ⟨20, 20, "boss", "wrong"⟩, ⟨30, 30, "carl", "wrong"⟩,
    ⟨40, 40, "nobody", "wrong"⟩]

/-- Of the attempts, only the one at the known account has the right password. -/
def checks (users : Table User.id) : Bool :=
  attempts.all fun a => (accountOf Users.Sample.authEnv users a.email).all fun user =>
    !Users.Sample.authEnv.verifyPassword a.password user.passwordHash || decide (user.id = "k")

theorem rightOnlyFor_of_checks {users : Table User.id} (h : checks users = true) :
    ∀ a ∈ attempts, RightOnlyFor Users.Sample.authEnv {"k"} users a := by
  intro a ha user haccount hverify
  have hall := List.all_eq_true.mp h a ha
  simpa [haccount, hverify] using hall

end Sample

theorem responses_eq_others :
    responses Users.Sample.authEnv Sample.accounts Sample.attempts =
      responses Users.Sample.authEnv Sample.others Sample.attempts := by
  refine responses_eq ⟨by decide, fun _ _ => rfl⟩ ⟨by decide, fun _ _ => rfl⟩ ?_ ?_
    (Sample.rightOnlyFor_of_checks rfl) (Sample.rightOnlyFor_of_checks rfl)
  · rintro id rfl
    rfl
  · exact iff_of_true ⟨Users.Sample.admin "b" "boss", by decide, rfl, by decide⟩
      ⟨Users.Sample.admin "d" "dave", by decide, rfl, by decide⟩

end FraudAnalyzer.Users.Enumeration
