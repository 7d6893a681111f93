import FraudAnalyzer.Users.Updating

/-!
# Whether an administrator always remains

A transaction whose guard has locked rows keeps two active administrators from everybody else, and
changes at most one of them. A transaction whose guard has returned early holds nothing; it returns
early for a target that was read as no active administrator, who may be the last one by the time of
the commit. So an administrator remains exactly as long as no such transaction takes the last one.
-/

namespace FraudAnalyzer.Users.Updating

/-- At least one user is an active administrator. -/
def AdminRemains (s : State) : Prop := ∃ user ∈ s.db.users.rows, user.isActiveAdmin = true

/-- The `UPDATE` has the role of an administrator to take, or an account to deactivate. -/
def Demotes (payload : UserUpdate) (target : User) : Prop :=
  (payload.role = some .analyst ∧ target.role = .admin) ∨
    (payload.isActive = some false ∧ target.isActive = true)

/-- A transaction that took no lock does not take the last active administrator away. -/
def Spares (s : State) : Action → Prop
  | .commit i =>
    ∀ actorId target payload, s.transactions i = some ⟨actorId, target, payload, .written []⟩ →
      Demotes payload target → ∀ row, s.db.users.get target.id = some row →
        row.isActiveAdmin = true →
          ∃ other ∈ s.db.users.rows, other.id ≠ target.id ∧ other.isActiveAdmin = true
  | _ => True

/-! ## The columns of one `UPDATE` -/

section Columns

variable {payload : UserUpdate} {target row : User}

theorem isActiveAdmin_iff : row.isActiveAdmin = true ↔ row.role = .admin ∧ row.isActive = true := by
  simp [User.isActiveAdmin]

theorem apply_of_not_changes (h : payload.changes target = false) :
    payload.apply target row = row := by
  obtain ⟨hactive, hrole⟩ : payload.changesActive target = false ∧
      payload.changesRole target = false := by simpa [UserUpdate.changes] using h
  unfold UserUpdate.apply
  simp only [hactive, hrole, Bool.false_eq_true, if_false]

/-- A demotion leaves no active administrator in the row. -/
theorem not_isActiveAdmin_apply (h : Demotes payload target) :
    (payload.apply target row).isActiveAdmin = false := by
  rcases h with ⟨hpayload, hread⟩ | ⟨hpayload, hread⟩
  · have hchanges : payload.changesRole target = true := by
      simp [UserUpdate.changesRole, hpayload, hread]
    simp [User.isActiveAdmin, UserUpdate.apply, hchanges, hpayload]
  · have hchanges : payload.changesActive target = true := by
      simp [UserUpdate.changesActive, hpayload, hread]
    simp [User.isActiveAdmin, UserUpdate.apply, hchanges, hpayload]

/-- Any other `UPDATE` keeps an active administrator. -/
theorem isActiveAdmin_apply (h : ¬ Demotes payload target) (hrow : row.isActiveAdmin = true) :
    (payload.apply target row).isActiveAdmin = true := by
  rw [isActiveAdmin_iff] at hrow ⊢
  rw [Demotes, not_or] at h
  constructor
  · unfold UserUpdate.apply
    cases hrole : payload.role with
    | none => simp [UserUpdate.changesRole, hrole, hrow.1]
    | some role =>
      cases role with
      | admin => simp [hrow.1]
      | analyst =>
        have hread : target.role = .analyst := by
          cases hr : target.role with
          | admin => exact absurd ⟨hrole, hr⟩ h.1
          | analyst => rfl
        simp [UserUpdate.changesRole, hrole, hread, hrow.1]
  · unfold UserUpdate.apply
    cases hactive : payload.isActive with
    | none => simp [UserUpdate.changesActive, hactive, hrow.2]
    | some isActive =>
      cases isActive with
      | true => simp [hrow.2]
      | false =>
        have hread : target.isActive = false := by
          cases hr : target.isActive with
          | true => exact absurd ⟨hactive, hr⟩ h.2
          | false => rfl
        simp [UserUpdate.changesActive, hactive, hread, hrow.2]

end Columns

/-! ## What a transaction holds -/

/-- The transaction has the row locked, and it is an active administrator's. -/
def HoldsAdmin (s : State) (i : Nat) (id : String) : Prop :=
  s.holder id = some i ∧ ∃ row, s.db.users.get id = some row ∧ row.isActiveAdmin = true

/-- The guard has passed without a lock, or with two active administrators locked. -/
def Guarded (s : State) (i : Nat) (locked : List String) : Prop :=
  locked = [] ∨ (1 < locked.length ∧ locked.Nodup ∧ ∀ id ∈ locked, HoldsAdmin s i id)

def Transaction.Ok (s : State) (i : Nat) (tx : Transaction) : Prop :=
  match tx.stage with
  | .read => True
  | .locking pending locked =>
    (locked ++ pending).Nodup ∧ ∀ id ∈ locked, HoldsAdmin s i id
  | .guarded locked => Guarded s i locked
  | .written locked => Guarded s i locked ∧
      (tx.payload.changes tx.target = true → s.holder tx.target.id = some i)

def Inv (s : State) : Prop := ∀ i tx, s.transactions i = some tx → tx.Ok s i

section Invariant

variable {s t : State} {i j : Nat} {tx : Transaction} {id : String} {locked : List String}

theorem inv_start (db : Accounts) : Inv (State.start db) := by
  intro i tx h
  cases h

/-- The locks of a transaction, and the rows under them, stay as they are. -/
structure Keeps (s t : State) (i : Nat) : Prop where
  holder : ∀ id, s.holder id = some i → t.holder id = some i
  rows : ∀ id, s.holder id = some i → t.db.users.get id = s.db.users.get id

theorem Keeps.refl (s : State) (i : Nat) : Keeps s s i := ⟨fun _ h => h, fun _ _ => rfl⟩

theorem Keeps.trans {u : State} (h : Keeps s t i) (h' : Keeps t u i) : Keeps s u i where
  holder id hid := h'.holder id (h.holder id hid)
  rows id hid := (h'.rows id (h.holder id hid)).trans (h.rows id hid)

theorem HoldsAdmin.mono (hkeeps : Keeps s t i) (h : HoldsAdmin s i id) : HoldsAdmin t i id := by
  obtain ⟨hholder, row, hrow, hadmin⟩ := h
  exact ⟨hkeeps.holder id hholder, row, (hkeeps.rows id hholder).trans hrow, hadmin⟩

theorem Guarded.mono (hkeeps : Keeps s t i) (h : Guarded s i locked) : Guarded t i locked := by
  rcases h with rfl | ⟨hlength, hnodup, hheld⟩
  · exact .inl rfl
  · exact .inr ⟨hlength, hnodup, fun id hid => (hheld id hid).mono hkeeps⟩

theorem Transaction.Ok.mono (hkeeps : Keeps s t i) (h : tx.Ok s i) : tx.Ok t i := by
  obtain ⟨actorId, target, payload, stage⟩ := tx
  cases stage with
  | read => trivial
  | locking pending locked => exact ⟨h.1, fun id hid => (h.2 id hid).mono hkeeps⟩
  | guarded locked => exact Guarded.mono hkeeps h
  | written locked =>
    exact ⟨Guarded.mono hkeeps h.1, fun hchanges => hkeeps.holder _ (h.2 hchanges)⟩

theorem keeps_put (s : State) (i j : Nat) (tx : Transaction) : Keeps s (s.put j tx) i :=
  ⟨fun _ h => h, fun _ _ => rfl⟩

/-- A row is locked only when it is free. -/
theorem keeps_lock (hfree : s.isFree j id = true) : Keeps s (s.lock j id) i := by
  refine ⟨?_, fun _ _ => rfl⟩
  intro id' hholder
  by_cases hid : id' = id
  · subst hid
    rw [State.isFree, hholder] at hfree
    obtain rfl : i = j := by simpa using hfree
    simp [State.lock]
  · simp [State.lock, Function.update_of_ne hid, hholder]

theorem keeps_release (hne : i ≠ j) : Keeps s (s.release j) i := by
  refine ⟨?_, fun _ _ => rfl⟩
  intro id hholder
  have hother : s.holder id ≠ some j := by
    rw [hholder]
    exact fun h => hne (Option.some.inj h)
  exact (if_neg hother).trans hholder

/-- A commit changes no row that another transaction has locked. -/
theorem keeps_commit {target : User} {payload : UserUpdate} (hne : i ≠ j)
    (hholder : payload.changes target = true → s.holder target.id = some j)
    (logs : List AuditLog) :
    Keeps s { s with db := payload.commit target s.db, auditLogs := logs } i := by
  refine ⟨fun _ h => h, ?_⟩
  intro id hid
  have hget := Table.get_modify s.db.users target.id id (payload.apply target) fun _ => rfl
  refine hget.trans ?_
  split
  next htarget =>
    have hsame : payload.changes target = false := by
      by_contra hchanges
      rw [Bool.not_eq_false] at hchanges
      have hboth := hid.symm.trans (htarget ▸ hholder hchanges)
      exact hne (Option.some.inj hboth)
    cases s.db.users.get id with
    | none => rfl
    | some row => exact congrArg some (apply_of_not_changes hsame)
  · rfl

/-- One transaction has advanced. -/
theorem Inv.put (h : Inv s) (hkeeps : ∀ i, Keeps s t i) (htx : t.transactions = s.transactions)
    (hok : tx.Ok t j) : Inv (t.put j tx) := by
  intro i tx' hi
  by_cases hij : i = j
  · subst hij
    obtain rfl : tx = tx' := by simpa [State.put] using hi
    exact hok.mono (keeps_put t i i tx)
  · have hold : s.transactions i = some tx' := by
      simpa [State.put, Function.update_of_ne hij, htx] using hi
    exact (h i tx' hold).mono ((hkeeps i).trans (keeps_put t i j tx))

theorem Inv.release (h : Inv s) (hkeeps : ∀ i, i ≠ j → Keeps s t i)
    (htx : t.transactions = s.transactions) : Inv (t.release j) := by
  intro i tx' hi
  by_cases hij : i = j
  · subst hij
    simp [State.release] at hi
  · have hold : s.transactions i = some tx' := by
      simpa [State.release, Function.update_of_ne hij, htx] using hi
    exact (h i tx' hold).mono ((hkeeps i hij).trans (keeps_release hij))

theorem nodup_activeAdmins (users : Table User.id) : (activeAdmins users).Nodup :=
  users.nodup.sublist (List.filter_sublist.map User.id)

theorem one_lt_of_countLocked (h : countLocked locked = .ok ()) : 1 < locked.length := by
  unfold countLocked at h
  split at h
  next hlength => exact hlength
  · cases h

/-- The guard takes the next row. -/
theorem locking_lock {actorId : String} {target : User} {payload : UserUpdate}
    {pending : List String} (hfree : s.isFree i id = true)
    (hadmin : (s.db.users.get id).any User.isActiveAdmin = true)
    (h : Transaction.Ok s i ⟨actorId, target, payload, .locking (id :: pending) locked⟩) :
    Transaction.Ok (s.lock i id) i
      ⟨actorId, target, payload, .locking pending (locked ++ [id])⟩ := by
  obtain ⟨hnodup, hheld⟩ := h
  refine ⟨by rwa [List.append_assoc, List.singleton_append], ?_⟩
  intro id' hid'
  rcases List.mem_append.mp hid' with hold | hnew
  · exact (hheld id' hold).mono (keeps_lock hfree)
  · obtain rfl := List.mem_singleton.mp hnew
    obtain ⟨row, hrow, hrowAdmin⟩ := (Option.any_eq_true _ _).mp hadmin
    exact ⟨Function.update_self _ _ _, row, hrow, hrowAdmin⟩

/-- All that one step can do: a call is refused, one transaction advances or ends, or it commits. -/
inductive Effect (s : State) : Action → State → Prop
  | refused {a : Action} (hcommit : ∀ i, a ≠ .commit i) : Effect s a s
  | advanced {a : Action} {t : State} {i : Nat} {tx : Transaction} (hcommit : ∀ i, a ≠ .commit i)
      (hdb : t.db = s.db) (hkeeps : ∀ j, Keeps s t j) (htx : t.transactions = s.transactions)
      (hok : Inv s → tx.Ok t i) :
      Effect s a (t.put i tx)
  | ended {a : Action} {i : Nat} (hcommit : ∀ i, a ≠ .commit i) : Effect s a (s.release i)
  | committed {i : Nat} {actorId : String} {target : User} {payload : UserUpdate}
      {locked : List String}
      (htx : s.transactions i = some ⟨actorId, target, payload, .written locked⟩) :
      Effect s (.commit i)
        ({ s with
            db := payload.commit target s.db
            auditLogs := s.auditLogs ++ payload.entries actorId target }.release i)

theorem Effect.stay {a : Action} (hcommit : ∀ i, a ≠ .commit i) (hok : Inv s → tx.Ok s i) :
    Effect s a (s.put i tx) :=
  .advanced hcommit rfl (Keeps.refl s) rfl hok

theorem effect_of_step {a : Action} (h : step s a = some t) : Effect s a t := by
  unfold step at h
  split at h
  case h_1 i actorId userId payload =>
    split at h
    · cases h
    · split at h
      · exact Option.some.inj h ▸ .refused nofun
      · exact Option.some.inj h ▸ .stay nofun fun _ => trivial
  case h_2 i order =>
    split at h
    next actorId target payload htx =>
      split at h
      · exact Option.some.inj h ▸ .stay nofun fun _ => .inl rfl
      · split at h
        · exact Option.some.inj h ▸ .stay nofun fun _ => .inl rfl
        · split at h
          next horder =>
            obtain rfl := Option.some.inj h
            refine .stay nofun fun _ => ⟨?_, by simp⟩
            rw [List.nil_append, horder.nodup_iff]
            exact nodup_activeAdmins _
          · cases h
    · cases h
  case h_3 i keep =>
    split at h
    next actorId target payload id pending locked htx =>
      split at h
      next hfree =>
        split at h
        next hadmin =>
          obtain rfl := Option.some.inj h
          exact .advanced nofun rfl (fun _ => keeps_lock hfree) rfl fun hinv =>
            locking_lock hfree hadmin (hinv i _ htx)
        next hadmin =>
          obtain rfl := Option.some.inj h
          have hkeeps : ∀ j, Keeps s (if keep then s.lock i id else s) j := by
            intro j
            split
            · exact keeps_lock hfree
            · exact .refl s j
          refine .advanced nofun (by split <;> rfl) hkeeps (by split <;> rfl) fun hinv => ?_
          obtain ⟨hnodup, hheld⟩ := hinv i _ htx
          refine ⟨?_, fun id' hid' => (hheld id' hid').mono (hkeeps i)⟩
          exact hnodup.sublist (List.Sublist.append_left (List.sublist_cons_self id pending) locked)
      · cases h
    next actorId target payload locked htx =>
      split at h
      · exact Option.some.inj h ▸ .ended nofun
      next hcount =>
        obtain rfl := Option.some.inj h
        refine .stay nofun fun hinv => .inr ?_
        obtain ⟨hnodup, hheld⟩ := hinv i _ htx
        rw [List.append_nil] at hnodup
        exact ⟨one_lt_of_countLocked hcount, hnodup, hheld⟩
    · cases h
  case h_4 i =>
    split at h
    next actorId target payload locked htx =>
      split at h
      next hsame =>
        obtain rfl := Option.some.inj h
        refine .stay nofun fun hinv => ⟨hinv i _ htx, fun hchanges => ?_⟩
        rw [hchanges] at hsame
        cases hsame
      · split at h
        next hfree =>
          obtain rfl := Option.some.inj h
          exact .advanced nofun rfl (fun _ => keeps_lock hfree) rfl fun hinv =>
            ⟨Guarded.mono (keeps_lock hfree) (hinv i _ htx), fun _ => Function.update_self _ _ _⟩
        · cases h
    · cases h
  case h_5 i =>
    split at h
    next actorId target payload locked htx =>
      obtain rfl := Option.some.inj h
      exact .committed htx
    · cases h
  case h_6 i =>
    obtain rfl := Option.some.inj h
    exact .ended nofun

theorem Inv.effect {a : Action} (h : Inv s) (he : Effect s a t) : Inv t := by
  cases he with
  | refused _ => exact h
  | advanced _ _ hkeeps htx hok => exact h.put hkeeps htx (hok h)
  | ended _ => exact h.release (fun j _ => .refl s j) rfl
  | committed htx => exact h.release (fun j hne => keeps_commit hne (h _ _ htx).2 _) rfl

end Invariant

/-! ## One commit -/

section Commit

variable {s t : State} {a : Action} {i : Nat} {actorId : String} {target : User}
  {payload : UserUpdate} {locked : List String}

theorem mem_commit {x : User} : x ∈ (payload.commit target s.db).users.rows ↔
    ∃ row ∈ s.db.users.rows, x = if row.id = target.id then payload.apply target row else row := by
  simp only [UserUpdate.commit, Table.modify, List.mem_map, eq_comm]

/-- A row that the commit does not concern is still there. -/
theorem mem_commit_of_ne {row : User} (hrow : row ∈ s.db.users.rows) (hne : row.id ≠ target.id) :
    row ∈ (payload.commit target s.db).users.rows :=
  mem_commit.mpr ⟨row, hrow, (if_neg hne).symm⟩

/-- Of two active administrators that are locked, one is not the target. -/
theorem exists_other_of_guarded (h : Guarded s i locked) (hlocked : locked ≠ []) :
    ∃ row ∈ s.db.users.rows, row.id ≠ target.id ∧ row.isActiveAdmin = true := by
  obtain ⟨hlength, hnodup, hheld⟩ := h.resolve_left hlocked
  have hother : ∃ id ∈ locked, id ≠ target.id := by
    by_contra hall
    push Not at hall
    have hle := (List.nodup_iff_count_le_one.mp hnodup) target.id
    rw [List.count_eq_length.mpr fun id hid => (hall id hid).symm] at hle
    omega
  obtain ⟨id, hid, hne⟩ := hother
  obtain ⟨-, row, hrow, hadmin⟩ := hheld id hid
  exact ⟨row, Table.mem_of_get hrow, Table.key_of_get hrow ▸ hne, hadmin⟩

/-- **One commit** leaves an active administrator if and only if the transaction spares one. -/
theorem adminRemains_commit (hinv : Inv s) (hremains : AdminRemains s)
    (htx : s.transactions i = some ⟨actorId, target, payload, .written locked⟩) :
    (∃ user ∈ (payload.commit target s.db).users.rows, user.isActiveAdmin = true) ↔
      Spares s (.commit i) := by
  constructor
  · rintro ⟨x, hx, hadmin⟩ actorId' target' payload' htx' hdemotes row hrow hrowAdmin
    obtain ⟨-, rfl, rfl, -⟩ : actorId = actorId' ∧ target = target' ∧ payload = payload' ∧
        locked = [] := by simpa [htx] using htx'
    obtain ⟨old, hold, rfl⟩ := mem_commit.mp hx
    split at hadmin
    · rw [not_isActiveAdmin_apply hdemotes] at hadmin
      cases hadmin
    next hne => exact ⟨old, hold, hne, hadmin⟩
  · intro hspares
    have hguarded : Guarded s i locked := (hinv i _ htx).1
    by_cases hlocked : locked = []
    · subst hlocked
      by_cases hdemotes : Demotes payload target
      · obtain ⟨user, huser, hadmin⟩ := hremains
        by_cases hid : user.id = target.id
        · have hget : s.db.users.get target.id = some user := hid ▸ Table.get_of_mem huser
          obtain ⟨other, hother, hne, hotherAdmin⟩ :=
            hspares actorId target payload htx hdemotes user hget hadmin
          exact ⟨other, mem_commit_of_ne hother hne, hotherAdmin⟩
        · exact ⟨user, mem_commit_of_ne huser hid, hadmin⟩
      · obtain ⟨user, huser, hadmin⟩ := hremains
        refine ⟨_, mem_commit.mpr ⟨user, huser, rfl⟩, ?_⟩
        split
        · exact isActiveAdmin_apply hdemotes hadmin
        · exact hadmin
    · obtain ⟨row, hrow, hne, hadmin⟩ := exists_other_of_guarded hguarded hlocked
      exact ⟨row, mem_commit_of_ne hrow hne, hadmin⟩

/-- Only a commit can take an administrator away. -/
theorem spares_of_ne (hcommit : ∀ i, a ≠ .commit i) : Spares s a := by
  cases a with
  | commit i => exact absurd rfl (hcommit i)
  | _ => trivial

theorem adminRemains_step (hinv : Inv s) (hremains : AdminRemains s) (hstep : step s a = some t) :
    AdminRemains t ↔ Spares s a := by
  cases effect_of_step hstep with
  | refused hcommit => exact iff_of_true hremains (spares_of_ne hcommit)
  | @advanced _ t' _ _ hcommit hdb _ _ _ =>
    refine iff_of_true ?_ (spares_of_ne hcommit)
    show ∃ user ∈ t'.db.users.rows, user.isActiveAdmin = true
    rw [hdb]
    exact hremains
  | ended hcommit => exact iff_of_true hremains (spares_of_ne hcommit)
  | committed htx => exact adminRemains_commit hinv hremains htx

end Commit

/-- **An active administrator remains** in every state of a run if and only if no transaction that
took no lock takes the last one away. -/
theorem adminRemains_iff {db : Accounts} (hstart : AdminRemains (State.start db)) {as : List Action}
    {s : State} (h : Machine.Run step Machine.Always (State.start db) as s) :
    Machine.Throughout step AdminRemains (State.start db) as ↔
      Machine.Run step Spares (State.start db) as s :=
  Machine.throughout_iff (I := Inv) (fun _ _ _ hinv hstep => hinv.effect (effect_of_step hstep))
    (fun _ _ _ hinv hremains hstep => adminRemains_step hinv hremains hstep) h (inv_start db) hstart

/-! ## Two administrators -/

namespace Sample

open Users.Sample

/-- One of the two administrators is deactivated. -/
def accounts : Accounts :=
  ⟨⟨[admin "b" "boss", { admin "d" "deputy" with isActive := false }], by decide⟩, .empty⟩

/-- The deputy is to be demoted, and is read while deactivated. -/
def demoteDeputy : List Action := [.read 0 "b" "d" ⟨none, some .analyst⟩, .guard_ 0 []]

def reactivateDeputy : List Action :=
  [.read 1 "b" "d" ⟨some true, none⟩, .guard_ 1 [], .write 1, .commit 1]

def demoteBoss : List Action :=
  [.read 2 "b" "b" ⟨none, some .analyst⟩, .guard_ 2 ["b", "d"], .lock 2 false, .lock 2 false,
    .lock 2 false, .write 2, .commit 2]

end Sample

/-- Reactivated, then left alone: the deputy remains. -/
theorem adminRemains_iff_reactivated :
    ∃ s, Machine.Run step Machine.Always (State.start Sample.accounts)
        (Sample.reactivateDeputy ++ Sample.demoteBoss) s ∧
      (Machine.Throughout step AdminRemains (State.start Sample.accounts)
          (Sample.reactivateDeputy ++ Sample.demoteBoss) ↔
        Machine.Run step Spares (State.start Sample.accounts)
          (Sample.reactivateDeputy ++ Sample.demoteBoss) s) := by
  have hexec : ((Machine.exec step (State.start Sample.accounts)
      (Sample.reactivateDeputy ++ Sample.demoteBoss)).any fun _ => true) = true := by decide
  obtain ⟨s, hrun, -⟩ := Machine.exists_run_of_exec_any hexec
  have hstart : AdminRemains (State.start Sample.accounts) := ⟨_, List.mem_cons_self, rfl⟩
  exact ⟨s, hrun, adminRemains_iff hstart hrun⟩

/-- The guard has let the demotion of the deputy through before; nobody remains. -/
theorem no_admin_remains :
    ∃ s, Machine.Run step Machine.Always (State.start Sample.accounts)
        (Sample.demoteDeputy ++ Sample.reactivateDeputy ++ Sample.demoteBoss ++
          [.write 0, .commit 0]) s ∧
      AdminRemains (State.start Sample.accounts) ∧ ¬ AdminRemains s := by
  have hexec : ((Machine.exec step (State.start Sample.accounts)
      (Sample.demoteDeputy ++ Sample.reactivateDeputy ++ Sample.demoteBoss ++
        [.write 0, .commit 0])).any fun s =>
      s.db.users.rows.all fun user => !user.isActiveAdmin) = true := by decide
  obtain ⟨s, hrun, hnone⟩ := Machine.exists_run_of_exec_any hexec
  refine ⟨s, hrun, ⟨_, List.mem_cons_self, rfl⟩, ?_⟩
  rintro ⟨user, hrow, hadmin⟩
  have huser := List.all_eq_true.mp hnone user hrow
  rw [hadmin] at huser
  cases huser

end FraudAnalyzer.Users.Updating
