import FraudAnalyzer.Users.Access

/-!
# Whether a reset or a change ends the old access

An ending spares its own session and those that were opened with the password it wrote, or a later
one. It deletes the sessions that are there; what it does not see are the requests that have
verified the old password, or hold the old session, and act later. If each of them acts in time, no
ended session is ever there again.
-/

namespace FraudAnalyzer.Users.Access

/-! ## The property -/

/-- The session is there and can be used. -/
def Live (E : AccessEnv) (s : State) (now : Instant) (id : String) : Prop :=
  ∃ row, s.sessions.get id = some row ∧ row.userId = s.user.id ∧ isOpen E row now = true

/-- The ending leaves this session alone. -/
def Ending.Spares (e : Ending) (opened : String → Nat) (id : String) : Prop :=
  e.spared = some id ∨ e.version ≤ opened id

instance (e : Ending) (opened : String → Nat) (id : String) : Decidable (e.Spares opened id) :=
  inferInstanceAs (Decidable (_ ∨ _))

/-- The version of the password that a login in progress has presented. -/
def Stage.presented : Stage → Option Nat
  | .verified _ _ basis | .counted basis | .purged basis => some basis
  | _ => none

/-- Once all requests have completed after a reset, no live session was there before it or was
opened with an older password, and no request that verified an older password chose the
stored one. -/
def ResetEnds (E : AccessEnv) (s : State) : Prop :=
  ∀ e ∈ s.endings, e.isReset = true → (∀ i, s.requests i = none) →
    (∀ now id, Live E s now id → id ∉ e.before ∧ e.version ≤ s.opened id) ∧
    ∀ basis ∈ s.basis, e.version ≤ basis

/-- Without a reset: once a change and the logins that presented an older password have completed,
the live sessions are the one that made the change and those opened with its password, or with one
that has replaced it. -/
def ChangeEnds (E : AccessEnv) (s : State) : Prop :=
  (∀ e ∈ s.endings, e.isReset = false) → ∀ e ∈ s.endings,
    (∀ i survivor since, s.requests i ≠ some (.revoked survivor since e.version)) →
    (∀ i stage, s.requests i = some stage → ∀ basis ∈ stage.presented, e.version ≤ basis) →
    ∀ now id, Live E s now id → e.Spares s.opened id

/-! ## Acting in time -/

/-- The password is written before a reset since it was verified; a session is issued before an
ending with a newer password, and restored before an ending of it, since it was looked up; and a
reset has found the sessions that are there at its commit. -/
def Stage.InTime (s : State) : Stage → Prop
  | .checked _ _ _ basis _ => ∀ e ∈ s.endings, e.isReset = true → e.version ≤ basis
  | .purged basis => ∀ e ∈ s.endings, e.version ≤ basis
  | .revoked survivor since _ =>
    ∀ row ∈ survivor, ∀ e ∈ s.endings.drop since, e.Spares s.opened row.id
  | .resetting _ ids => ∀ row ∈ s.sessions.rows, row.userId = s.user.id → row.id ∈ ids
  | _ => True

instance (s : State) : (stage : Stage) → Decidable (stage.InTime s)
  | .checked _ _ _ basis _ => inferInstanceAs (Decidable (∀ e ∈ s.endings, _ → e.version ≤ basis))
  | .purged basis => inferInstanceAs (Decidable (∀ e ∈ s.endings, e.version ≤ basis))
  | .revoked survivor since _ =>
    inferInstanceAs (Decidable (∀ row ∈ survivor, ∀ e ∈ s.endings.drop since, _))
  | .resetting _ ids => inferInstanceAs (Decidable (∀ row ∈ s.sessions.rows, _ → row.id ∈ ids))
  | .missed _ _ | .verified _ _ _ | .counted _ | .called _ _ | .loaded _ _ _ _ | .resolved _ _ _
  | .held _ _ _ _ | .changed _ _ _ | .target _ => .isTrue trivial

/-- The request whose step may come too late. -/
def Action.timed : Action → Option Nat
  | .write i _ => some i
  | .issue i _ _ _ _ => some i
  | .restore i _ => some i
  | .commitReset i _ _ _ => some i
  | _ => none

def InTime (s : State) (a : Action) : Prop :=
  ∀ i ∈ a.timed, ∀ stage ∈ s.requests i, stage.InTime s

instance (s : State) (a : Action) : Decidable (InTime s a) :=
  inferInstanceAs (Decidable (∀ i ∈ a.timed, ∀ stage ∈ s.requests i, stage.InTime s))

/-! ## The invariant -/

/-- The request will restore a session that no ending before its snapshot has ended. -/
def Entitled (s : State) (survivor : Option UserSession) (since : Nat) : Prop :=
  since ≤ s.endings.length ∧
    ∀ row ∈ survivor, row.id ∈ s.issued ∧ ∀ e ∈ s.endings.take since, e.Spares s.opened row.id

/-- A session with this id is one of the account. -/
def Owned (s : State) (id : String) : Prop :=
  ∀ row, s.sessions.get id = some row → row.userId = s.user.id

/-- What a request has read is not newer than what is stored. -/
def Stage.Ok (s : State) : Stage → Prop
  | .verified _ _ basis | .counted basis | .purged basis => basis ≤ s.version
  | .called stored _ => Owned s stored.id
  | .loaded sessionId _ _ _ | .resolved sessionId _ _ => Owned s sessionId
  | .held survivor since _ _ | .checked survivor since _ _ _ | .changed survivor since _
  | .revoked survivor since _ => Entitled s survivor since
  | _ => True

structure Inv (s : State) : Prop where
  /-- No ended session is there. -/
  spares : ∀ e ∈ s.endings, ∀ id row, s.sessions.get id = some row → row.userId = s.user.id →
    e.Spares s.opened id
  known : ∀ id row, s.sessions.get id = some row → id ∈ s.issued
  opened_le : ∀ id ∈ s.issued, s.opened id ≤ s.version
  before : ∀ e ∈ s.endings, e.isReset = true →
    e.spared = none ∧ ∀ id ∈ e.before, id ∈ s.issued ∧ s.opened id < e.version
  basis : ∀ e ∈ s.endings, e.isReset = true → ∀ basis ∈ s.basis, e.version ≤ basis
  requests : ∀ i stage, s.requests i = some stage → stage.Ok s

section Invariant

variable {E : AccessEnv} {s t : State} {a : Action} {i : Nat} {stage : Stage} {id : String}

theorem inv_start (user : User) (sessions : Table UserSession.id) :
    Inv (State.start user sessions) where
  spares _ he := absurd he List.not_mem_nil
  known _ row hrow :=
    List.mem_map.mpr ⟨row, Table.mem_of_get hrow, Table.key_of_get hrow⟩
  opened_le _ _ := Nat.le_refl 0
  before _ he := absurd he List.not_mem_nil
  basis _ he := absurd he List.not_mem_nil
  requests _ stage hi := absurd hi (Option.some_ne_none stage).symm

/-- The past is only added to, and a session changes no owner. -/
structure Grows (s t : State) : Prop where
  owned : ∀ id, Owned s id → Owned t id
  endings : s.endings <+: t.endings
  issued : ∀ id ∈ s.issued, id ∈ t.issued
  opened : ∀ id ∈ s.issued, t.opened id = s.opened id
  version : s.version ≤ t.version

theorem Ending.Spares.congr {e : Ending} {opened opened' : String → Nat} (h : e.Spares opened id)
    (hopened : opened' id = opened id) : e.Spares opened' id := by
  unfold Ending.Spares at h ⊢
  rwa [hopened]

theorem Entitled.mono {survivor : Option UserSession} {since : Nat} (hgrows : Grows s t)
    (h : Entitled s survivor since) : Entitled t survivor since := by
  obtain ⟨hsince, hsurvivor⟩ := h
  obtain ⟨new, hnew⟩ := hgrows.endings
  refine ⟨?_, ?_⟩
  · rw [← hnew, List.length_append]
    omega
  · intro row hrow
    obtain ⟨hissued, hspares⟩ := hsurvivor row hrow
    refine ⟨hgrows.issued _ hissued, ?_⟩
    rw [← hnew, List.take_append_of_le_length hsince]
    intro e he
    exact (hspares e he).congr (hgrows.opened _ hissued)

theorem Stage.Ok.mono (hgrows : Grows s t) (h : stage.Ok s) : stage.Ok t := by
  cases stage with
  | verified user now basis => exact Nat.le_trans h hgrows.version
  | counted basis => exact Nat.le_trans h hgrows.version
  | purged basis => exact Nat.le_trans h hgrows.version
  | called stored now => exact hgrows.owned _ h
  | loaded sessionId now user basis => exact hgrows.owned _ h
  | resolved sessionId user basis => exact hgrows.owned _ h
  | held survivor since user basis => exact Entitled.mono hgrows h
  | checked survivor since user basis new => exact Entitled.mono hgrows h
  | changed survivor since version => exact Entitled.mono hgrows h
  | revoked survivor since version => exact Entitled.mono hgrows h
  | _ => trivial

/-- Every request of `t` is one of `s`, or in order. -/
def Requests (s t : State) : Prop :=
  ∀ j stage, t.requests j = some stage → s.requests j = some stage ∨ stage.Ok t

theorem requests_put {u : State} (hu : u.requests = s.requests) (hok : stage.Ok (u.put i stage)) :
    Requests s (u.put i stage) := by
  intro j stage' hj
  simp only [State.put, Function.update_apply, hu] at hj
  split at hj
  · exact .inr (Option.some.inj hj ▸ hok)
  · exact .inl hj

theorem requests_drop {u : State} (hu : u.requests = s.requests) : Requests s (u.drop i) := by
  intro j stage' hj
  simp only [State.drop, Function.update_apply, hu] at hj
  split at hj
  · cases hj
  · exact .inl hj

theorem Inv.okOf (h : Inv s) (hgrows : Grows s t) (hrequests : Requests s t) :
    ∀ i stage, t.requests i = some stage → stage.Ok t := by
  intro i stage hi
  rcases hrequests i stage hi with hold | hok
  · exact (h.requests i stage hold).mono hgrows
  · exact hok

/-- What the statements refer to is as it was. -/
structure SamePast (s t : State) : Prop where
  user : t.user.id = s.user.id
  version : t.version = s.version
  opened : t.opened = s.opened
  issued : t.issued = s.issued
  basis : t.basis = s.basis
  endings : t.endings = s.endings

/-- Each session of `t` is one of `s`, with its owner. -/
def Kept (s t : State) : Prop :=
  ∀ id row, t.sessions.get id = some row →
    ∃ old, s.sessions.get id = some old ∧ old.userId = row.userId

theorem Kept.owned (h : Kept s t) (huser : t.user.id = s.user.id) (howned : Owned s id) :
    Owned t id := by
  intro row hrow
  obtain ⟨old, hold, hsame⟩ := h id row hrow
  rw [huser, ← hsame]
  exact howned old hold

theorem kept_deleteWhere {p : UserSession → Bool} (h : t.sessions = s.sessions.deleteWhere p) :
    Kept s t := by
  intro id row hrow
  rw [h, Table.get_deleteWhere, Option.filter_eq_some_iff] at hrow
  exact ⟨row, hrow.1, rfl⟩

theorem SamePast.grows (h : SamePast s t) (hkept : Kept s t) : Grows s t where
  owned _ := hkept.owned h.user
  endings := by rw [h.endings]
  issued := by rw [h.issued]; exact fun _ hid => hid
  opened := by rw [h.opened]; exact fun _ _ => rfl
  version := Nat.le_of_eq h.version.symm

/-- A step that adds no session. -/
theorem Inv.quiet (h : Inv s) (hpast : SamePast s t) (hrequests : Requests s t) (hkept : Kept s t) :
    Inv t := by
  refine ⟨?_, ?_, ?_, ?_, ?_, h.okOf (hpast.grows hkept) hrequests⟩
  · rw [hpast.endings, hpast.opened, hpast.user]
    intro e he id row hrow hrowUser
    obtain ⟨old, hold, hsame⟩ := hkept id row hrow
    exact h.spares e he id old hold (hsame.trans hrowUser)
  · rw [hpast.issued]
    intro id row hrow
    obtain ⟨old, hold, -⟩ := hkept id row hrow
    exact h.known id old hold
  · rw [hpast.issued, hpast.opened, hpast.version]
    exact h.opened_le
  · rw [hpast.endings, hpast.issued, hpast.opened]
    exact h.before
  · rw [hpast.endings, hpast.basis]
    exact h.basis

theorem kept_of_eq (h : t.sessions = s.sessions) : Kept s t := by
  intro id row hrow
  exact ⟨row, h ▸ hrow, rfl⟩

/-- Only the requests change. -/
theorem Inv.put (h : Inv s) (hok : stage.Ok s) : Inv (s.put i stage) := by
  have hpast : SamePast s (s.put i stage) := ⟨rfl, rfl, rfl, rfl, rfl, rfl⟩
  have hkept : Kept s (s.put i stage) := kept_of_eq rfl
  exact h.quiet hpast (requests_put rfl (hok.mono (hpast.grows hkept))) hkept

theorem Inv.drop (h : Inv s) : Inv (s.drop i) :=
  h.quiet ⟨rfl, rfl, rfl, rfl, rfl, rfl⟩ (requests_drop rfl) (kept_of_eq rfl)

/-- An `UPDATE` of the counters. -/
theorem Inv.setUser (h : Inv s) {user : User} (huser : user.id = s.user.id) :
    Inv { s with user := user } :=
  h.quiet ⟨huser, rfl, rfl, rfl, rfl, rfl⟩ (fun _ _ hj => .inl hj) (kept_of_eq rfl)

theorem Inv.deleteWhere (h : Inv s) (p : UserSession → Bool) :
    Inv { s with sessions := s.sessions.deleteWhere p } :=
  h.quiet ⟨rfl, rfl, rfl, rfl, rfl, rfl⟩ (fun _ _ hj => .inl hj) (kept_deleteWhere rfl)

theorem kept_touch (s : State) (sessionId : String) (now : Instant) :
    Kept s (s.touch sessionId now) := by
  intro id row hrow
  simp only [State.touch] at hrow
  rw [Table.get_modify] at hrow
  split at hrow
  · obtain ⟨old, hold, rfl⟩ := Option.map_eq_some_iff.mp hrow
    exact ⟨old, hold, rfl⟩
  · exact ⟨row, hrow, rfl⟩

theorem Inv.touch (h : Inv s) (sessionId : String) (now : Instant) : Inv (s.touch sessionId now) :=
  h.quiet ⟨rfl, rfl, rfl, rfl, rfl, rfl⟩ (fun _ _ hj => .inl hj) (kept_touch s sessionId now)

theorem get_insert {sessions sessions' : Table UserSession.id} {row : UserSession}
    (h : sessions.insert row = some sessions') {id : String} {found : UserSession}
    (hfound : sessions'.get id = some found) : found = row ∨ sessions.get id = some found := by
  obtain ⟨hmem, rfl⟩ := Table.get_iff_mem.mp hfound
  rw [Table.rows_insert h, List.mem_append, List.mem_singleton] at hmem
  rcases hmem with hold | rfl
  · exact .inr (Table.get_of_mem hold)
  · exact .inl rfl

/-- A session that is added is one of the account. -/
theorem owned_insert {sessions : Table UserSession.id} {row : UserSession}
    (h : s.sessions.insert row = some sessions) (hrow : row.userId = s.user.id)
    (howned : Owned s id) :
    ∀ found, sessions.get id = some found → found.userId = s.user.id := by
  intro found hfound
  rcases get_insert h hfound with rfl | hold
  · exact hrow
  · exact howned found hold

/-- A login issues its session. -/
theorem Inv.issue (h : Inv s) {basis : Nat} {now : Instant} {ip userAgent : Option String}
    {sessions : Table UserSession.id} (hstage : s.requests i = some (.purged basis))
    (hintime : Stage.InTime s (.purged basis)) (hnew : id ∉ s.issued)
    (hissue : Access.issue E s.sessions s.user id now ip userAgent = some sessions) :
    Inv ({ s with
      sessions := sessions
      opened := Function.update s.opened id basis
      issued := id :: s.issued }.drop i) := by
  have hbasis : basis ≤ s.version := h.requests i _ hstage
  have hopened : ∀ id' ∈ s.issued, Function.update s.opened id basis id' = s.opened id' := by
    intro id' hid'
    have hne : id' ≠ id := fun heq => hnew (heq ▸ hid')
    exact Function.update_of_ne hne _ _
  refine ⟨?_, ?_, ?_, ?_, h.basis, ?_⟩
  · intro e he id' row hrow hrowUser
    rcases get_insert hissue hrow with rfl | hold
    · obtain rfl := Table.key_of_get hrow
      refine .inr ?_
      simp only [State.drop, Function.update_self]
      exact hintime e he
    · exact (h.spares e he id' row hold hrowUser).congr (hopened id' (h.known id' row hold))
  · intro id' row hrow
    rcases get_insert hissue hrow with rfl | hold
    · obtain rfl := Table.key_of_get hrow
      exact List.mem_cons_self
    · exact List.mem_cons_of_mem _ (h.known id' row hold)
  · intro id' hid'
    simp only [State.drop]
    rcases List.mem_cons.mp hid' with rfl | hold
    · rw [Function.update_self]
      exact hbasis
    · rw [hopened id' hold]
      exact h.opened_le id' hold
  · intro e he hreset
    obtain ⟨hnone, hbefore⟩ := h.before e he hreset
    refine ⟨hnone, ?_⟩
    intro id' hid'
    obtain ⟨hissued, hlt⟩ := hbefore id' hid'
    refine ⟨List.mem_cons_of_mem _ hissued, ?_⟩
    show Function.update s.opened id basis id' < e.version
    rw [hopened id' hissued]
    exact hlt
  · refine h.okOf ⟨?_, List.prefix_refl _, fun _ hid' => List.mem_cons_of_mem _ hid', hopened,
      Nat.le_refl _⟩ (requests_drop rfl)
    exact fun id' howned => owned_insert (s := s) hissue rfl howned

/-- A change restores the session that made it. -/
theorem Inv.restore (h : Inv s) {survivor : UserSession} {since version : Nat} {now : Instant}
    {sessions : Table UserSession.id}
    (hstage : s.requests i = some (.revoked (some survivor) since version))
    (hintime : Stage.InTime s (.revoked (some survivor) since version))
    (hinsert : issueWithId s.sessions s.user survivor now = some sessions) :
    Inv ({ s with sessions := sessions }.drop i) := by
  obtain ⟨-, hentitled⟩ := h.requests i _ hstage
  obtain ⟨hissued, hearlier⟩ := hentitled survivor rfl
  have hspares : ∀ e ∈ s.endings, e.Spares s.opened survivor.id := by
    intro e he
    rw [← List.take_append_drop since s.endings, List.mem_append] at he
    rcases he with htake | hdrop
    · exact hearlier e htake
    · exact hintime survivor rfl e hdrop
  refine ⟨?_, ?_, h.opened_le, h.before, h.basis, ?_⟩
  · intro e he id' row hrow hrowUser
    rcases get_insert hinsert hrow with rfl | hold
    · obtain rfl := Table.key_of_get hrow
      exact hspares e he
    · exact h.spares e he id' row hold hrowUser
  · intro id' row hrow
    rcases get_insert hinsert hrow with rfl | hold
    · obtain rfl := Table.key_of_get hrow
      exact hissued
    · exact h.known id' row hold
  · refine h.okOf ⟨?_, List.prefix_refl _, fun _ hid' => hid', fun _ _ => rfl, Nat.le_refl _⟩
      (requests_drop rfl)
    exact fun id' howned => owned_insert (s := s) hinsert rfl howned

/-- A change writes the password. -/
theorem Inv.write (h : Inv s) {survivor : Option UserSession} {since basis : Nat}
    {user written : User}
    {new : String} (hstage : s.requests i = some (.checked survivor since user basis new))
    (hintime : Stage.InTime s (.checked survivor since user basis new)) :
    Inv ({ s with
      user := flushPassword user written s.user
      version := s.version + 1
      basis := some basis }.put i (.changed survivor since (s.version + 1))) := by
  have hgrows : Grows s ({ s with
      user := flushPassword user written s.user
      version := s.version + 1
      basis := some basis }.put i (.changed survivor since (s.version + 1))) :=
    ⟨fun _ howned => howned, List.prefix_refl _, fun _ hid' => hid', fun _ _ => rfl, Nat.le_succ _⟩
  have hentitled : Entitled s survivor since := h.requests i _ hstage
  refine ⟨h.spares, h.known, ?_, h.before, ?_, ?_⟩
  · intro id' hid'
    exact Nat.le_succ_of_le (h.opened_le id' hid')
  · rintro e he hreset basis' ⟨⟩
    exact hintime e he hreset
  · exact h.okOf hgrows (requests_put rfl (Entitled.mono hgrows hentitled))

/-- Sessions are deleted, and an ending is noted. -/
theorem grows_append {p : UserSession → Bool} (huser : t.user.id = s.user.id)
    (hsessions : t.sessions = s.sessions.deleteWhere p)
    (hendings : ∃ new, t.endings = s.endings ++ new) (hissued : t.issued = s.issued)
    (hopened : t.opened = s.opened) (hversion : s.version ≤ t.version) : Grows s t := by
  obtain ⟨new, hnew⟩ := hendings
  refine ⟨?_, ⟨new, hnew.symm⟩, ?_, ?_, hversion⟩
  · exact fun _ => (kept_deleteWhere hsessions).owned huser
  · rw [hissued]
    exact fun _ hid' => hid'
  · rw [hopened]
    exact fun _ _ => rfl

/-- A change revokes every session. -/
theorem Inv.revoke (h : Inv s) {survivor : Option UserSession} {since version : Nat}
    {ending : Ending} (hstage : s.requests i = some (.changed survivor since version))
    (hreset : ending.isReset = false) :
    Inv ({ s with
      sessions := revokeAllForUser s.sessions s.user.id
      endings := s.endings ++ [ending] }.put i (.revoked survivor since version)) := by
  have hentitled : Entitled s survivor since := h.requests i _ hstage
  have hold : ∀ e ∈ s.endings ++ [ending], e.isReset = true → e ∈ s.endings := by
    intro e he hr
    rcases List.mem_append.mp he with hmem | hmem
    · exact hmem
    · obtain rfl := List.mem_singleton.mp hmem
      rw [hreset] at hr
      cases hr
  have hgrows : Grows s ({ s with
      sessions := revokeAllForUser s.sessions s.user.id
      endings := s.endings ++ [ending] }.put i (.revoked survivor since version)) :=
    grows_append rfl rfl ⟨_, rfl⟩ rfl rfl (Nat.le_refl _)
  refine ⟨?_, ?_, h.opened_le, fun e he hr => h.before e (hold e he hr) hr,
    fun e he hr => h.basis e (hold e he hr) hr, ?_⟩
  · -- no session of the account is left
    intro e _ id' row hrow hrowUser
    simp only [State.put, revokeAllForUser, Table.get_deleteWhere,
      Option.filter_eq_some_iff] at hrow
    have hother : row.userId ≠ s.user.id := by simpa using hrow.2
    exact absurd hrowUser hother
  · intro id' row hrow
    simp only [State.put, revokeAllForUser, Table.get_deleteWhere,
      Option.filter_eq_some_iff] at hrow
    exact h.known id' row hrow.1
  · exact h.okOf hgrows (requests_put rfl (Entitled.mono hgrows hentitled))

/-- A reset commits. -/
theorem Inv.commitReset (h : Inv s) {user written : User} {ids : List String}
    (hintime : Stage.InTime s (.resetting user ids)) :
    Inv ({ s with
      user := flushPassword user written s.user
      sessions := s.sessions.deleteWhere fun session => session.id ∈ ids
      version := s.version + 1
      basis := none
      endings := s.endings ++ [Ending.mk (s.version + 1) none true s.issued] }.drop i) := by
  refine ⟨?_, ?_, ?_, ?_, ?_, ?_⟩
  · -- every session of the account is among those the reset has found
    intro e _ id' row hrow hrowUser
    simp only [State.drop, Table.get_deleteWhere, Option.filter_eq_some_iff] at hrow
    have hids := hintime row (Table.mem_of_get hrow.1) hrowUser
    exact absurd hids (by simpa using hrow.2)
  · intro id' row hrow
    simp only [State.drop, Table.get_deleteWhere, Option.filter_eq_some_iff] at hrow
    exact h.known id' row hrow.1
  · intro id' hid'
    exact Nat.le_succ_of_le (h.opened_le id' hid')
  · intro e he hreset
    rcases List.mem_append.mp he with hmem | hmem
    · exact h.before e hmem hreset
    · obtain rfl := List.mem_singleton.mp hmem
      exact ⟨rfl, fun id' hid' => ⟨hid', Nat.lt_succ_of_le (h.opened_le id' hid')⟩⟩
  · intro e _ _ basis hbasis
    cases hbasis
  · exact h.okOf (grows_append rfl rfl ⟨_, rfl⟩ rfl rfl (Nat.le_succ _)) (requests_drop rfl)

/-! ### The step -/

theorem flushCounters_id (read written row : User) : (flushCounters read written row).id = row.id :=
  rfl

theorem Inv.loginStep (h : Inv s) (hstage : s.requests i = some stage)
    (hintime : a.timed.isSome = true → stage.InTime s) (hstep : loginStep E s i stage a = some t) :
    Inv t := by
  cases a with
  | commitCounters _ exempt =>
    cases stage with
    | missed user now =>
      simp only [Access.loginStep] at hstep
      split at hstep
      · exact Option.some.inj hstep ▸ (h.setUser (flushCounters_id _ _ _)).drop
      · exact Option.some.inj hstep ▸ h.drop
    | verified user now basis =>
      obtain rfl := Option.some.inj hstep
      have hbasis : basis ≤ s.version := h.requests i _ hstage
      exact (h.setUser (flushCounters_id _ _ _)).put hbasis
    | _ => cases hstep
  | purge _ now =>
    cases stage with
    | counted basis =>
      obtain rfl := Option.some.inj hstep
      have hbasis : basis ≤ s.version := h.requests i _ hstage
      exact (h.deleteWhere _).put hbasis
    | _ => cases hstep
  | issue _ id now ip userAgent =>
    cases stage with
    | purged basis =>
      simp only [Access.loginStep] at hstep
      split at hstep
      · cases hstep
      next hnew =>
        obtain ⟨sessions, hissue, rfl⟩ := Option.map_eq_some_iff.mp hstep
        exact h.issue hstage (hintime rfl) hnew hissue
    | _ => cases hstep
  | _ => cases hstep

/-- A session of the account that is there has not been ended. -/
theorem Inv.entitled (h : Inv s) (howned : Owned s id) :
    Entitled s (s.sessions.get id) s.endings.length := by
  refine ⟨Nat.le_refl _, ?_⟩
  intro row hrow
  have hkey : row.id = id := Table.key_of_get hrow
  rw [List.take_length, hkey]
  exact ⟨h.known id row hrow, fun e he => h.spares e he id row hrow (howned row hrow)⟩

theorem Inv.changeStep (h : Inv s) (hstage : s.requests i = some stage)
    (hintime : a.timed.isSome = true → stage.InTime s) (hstep : changeStep E s i stage a = some t) :
    Inv t := by
  have hok := h.requests i stage hstage
  cases a with
  | load _ =>
    cases stage with
    | called stored now =>
      simp only [Access.changeStep] at hstep
      split at hstep
      · exact Option.some.inj hstep ▸ h.put hok
      · exact Option.some.inj hstep ▸ h.drop
    | _ => cases hstep
  | touch _ =>
    cases stage with
    | loaded sessionId now user basis =>
      simp only [Access.changeStep] at hstep
      split at hstep
      · exact Option.some.inj hstep ▸ h.drop
      · obtain rfl := Option.some.inj hstep
        exact (h.touch sessionId now).put ((kept_touch s sessionId now).owned rfl hok)
    | _ => cases hstep
  | snapshot _ =>
    cases stage with
    | resolved sessionId user basis =>
      obtain rfl := Option.some.inj hstep
      exact h.put (h.entitled hok)
    | _ => cases hstep
  | check _ current new =>
    cases stage with
    | held survivor since user basis =>
      simp only [Access.changeStep] at hstep
      split at hstep
      · exact Option.some.inj hstep ▸ h.drop
      · exact Option.some.inj hstep ▸ h.put hok
    | _ => cases hstep
  | write _ salt =>
    cases stage with
    | checked survivor since user basis new =>
      obtain rfl := Option.some.inj hstep
      exact h.write hstage (hintime rfl)
    | _ => cases hstep
  | revoke _ =>
    cases stage with
    | changed survivor since version =>
      obtain rfl := Option.some.inj hstep
      exact h.revoke hstage rfl
    | _ => cases hstep
  | restore _ now =>
    cases stage with
    | revoked survivor since version =>
      cases survivor with
      | none => exact Option.some.inj hstep ▸ h.drop
      | some survivor =>
        simp only [Access.changeStep] at hstep
        split at hstep
        · exact Option.some.inj hstep ▸ h.drop
        next hinsert =>
          obtain rfl := Option.some.inj hstep
          exact h.restore hstage (hintime rfl) hinsert
    | _ => cases hstep
  | _ => cases hstep

theorem Inv.resetStep (h : Inv s) (hintime : a.timed.isSome = true → stage.InTime s)
    (hstep : resetStep E s i stage a = some t) : Inv t := by
  cases a with
  | deleteSessions _ =>
    cases stage with
    | target user => exact Option.some.inj hstep ▸ h.put trivial
    | _ => cases hstep
  | commitReset _ salt temporary now =>
    cases stage with
    | resetting user ids =>
      obtain rfl := Option.some.inj hstep
      exact h.commitReset (hintime rfl)
    | _ => cases hstep
  | _ => cases hstep

/-- The step of a request in progress. -/
theorem inv_of_bind {next : Stage → Option State} (hstep : (s.requests i).bind next = some t)
    (hnext : ∀ stage, s.requests i = some stage → next stage = some t → Inv t) : Inv t := by
  obtain ⟨stage, hstage, hnextStep⟩ := Option.bind_eq_some_iff.mp hstep
  exact hnext stage hstage hnextStep

/-- A step that is in time keeps the invariant; of a request whose step is not timed, any step. -/
theorem Inv.step (h : Inv s) (hstep : step E s a = some t) (hintime : InTime s a) : Inv t := by
  cases a with
  | login i now password =>
    simp only [Access.step] at hstep
    split at hstep
    · cases hstep
    · split at hstep
      · exact Option.some.inj hstep ▸ h.put trivial
      · exact Option.some.inj hstep ▸ h
      · exact Option.some.inj hstep ▸ h.put (Nat.le_refl s.version)
  | call i sessionId now =>
    simp only [Access.step] at hstep
    split at hstep
    · cases hstep
    · split at hstep
      · exact Option.some.inj hstep ▸ h
      next stored hstored =>
        split at hstep
        · cases hstep
        next huser =>
          split at hstep
          · obtain rfl := Option.some.inj hstep
            refine h.put fun row hrow => ?_
            rw [Table.key_of_get hstored, hstored] at hrow
            exact Option.some.inj hrow ▸ not_not.mp huser
          · exact Option.some.inj hstep ▸ h
  | openReset i =>
    simp only [Access.step] at hstep
    split at hstep
    · cases hstep
    · exact Option.some.inj hstep ▸ h.put trivial
  | logout sessionId => exact Option.some.inj hstep ▸ h.deleteWhere _
  | abort i => exact Option.some.inj hstep ▸ h.drop
  | commitCounters i exempt =>
    exact inv_of_bind hstep fun stage hstage => h.loginStep hstage nofun
  | purge i now => exact inv_of_bind hstep fun stage hstage => h.loginStep hstage nofun
  | issue i id now ip userAgent =>
    exact inv_of_bind hstep fun stage hstage => h.loginStep hstage
      fun _ => hintime i rfl stage hstage
  | load i => exact inv_of_bind hstep fun stage hstage => h.changeStep hstage nofun
  | touch i => exact inv_of_bind hstep fun stage hstage => h.changeStep hstage nofun
  | snapshot i => exact inv_of_bind hstep fun stage hstage => h.changeStep hstage nofun
  | check i current new => exact inv_of_bind hstep fun stage hstage => h.changeStep hstage nofun
  | write i salt =>
    exact inv_of_bind hstep fun stage hstage => h.changeStep hstage
      fun _ => hintime i rfl stage hstage
  | revoke i => exact inv_of_bind hstep fun stage hstage => h.changeStep hstage nofun
  | restore i now =>
    exact inv_of_bind hstep fun stage hstage => h.changeStep hstage
      fun _ => hintime i rfl stage hstage
  | deleteSessions i => exact inv_of_bind hstep fun stage _ => h.resetStep nofun
  | commitReset i salt temporary now =>
    exact inv_of_bind hstep fun stage hstage => h.resetStep fun _ => hintime i rfl stage hstage

theorem Inv.changeEnds (h : Inv s) : ChangeEnds E s := by
  rintro - e he - - now id ⟨row, hrow, hrowUser, -⟩
  exact h.spares e he id row hrow hrowUser

theorem Inv.resetEnds (h : Inv s) : ResetEnds E s := by
  intro e he hreset _
  obtain ⟨hnone, hbefore⟩ := h.before e he hreset
  refine ⟨?_, h.basis e he hreset⟩
  rintro now id ⟨row, hrow, hrowUser, -⟩
  rcases h.spares e he id row hrow hrowUser with hspared | hversion
  · rw [hnone] at hspared
    cases hspared
  · refine ⟨fun hid => ?_, hversion⟩
    have hlt := (hbefore id hid).2
    omega

end Invariant

/-- **A reset or a change ends the old access**, in every run whose steps are in time. -/
theorem accessEnds_of_inTime (E : AccessEnv) (user : User) (sessions : Table UserSession.id)
    {as : List Action} {s : State}
    (h : Machine.Run (step E) InTime (State.start user sessions) as s) :
    ResetEnds E s ∧ ChangeEnds E s := by
  have hinv : Inv s := by
    refine h.invariant ?_ (inv_start user sessions)
    intro s a t hI hstep hok
    exact hI.step hstep hok
  exact ⟨hinv.resetEnds, hinv.changeEnds⟩

/-! ## One account -/

namespace Sample

def env : AccessEnv where
  unicode := .ascii
  sqlLower := id
  verifyPassword password hash := password == hash
  hashPassword _ password := password
  absoluteHours := 12
  idleHours := 2

def account : User := { Users.Sample.admin "u" "boss" with passwordHash := "first" }

/-- A login, from the verification of the password on. -/
def signIn (i : Nat) (id : String) : List Action :=
  [.commitCounters i false, .purge i 20, .issue i id 30 none none]

def reset (i : Nat) : List Action :=
  [.openReset i, .deleteSessions i, .commitReset i "" "second" 15]

end Sample

/-- The reset comes after the login, and deletes its session. -/
theorem accessEnds_of_inTime_reset :
    ∃ s, Machine.Run (step Sample.env) InTime (State.start Sample.account .empty)
        (.login 0 10 "first" :: Sample.signIn 0 "a" ++ Sample.reset 1) s ∧
      ResetEnds Sample.env s ∧ ChangeEnds Sample.env s := by
  have hrun : ∃ s, Machine.Run (step Sample.env) InTime (State.start Sample.account .empty)
      (.login 0 10 "first" :: Sample.signIn 0 "a" ++ Sample.reset 1) s :=
    ⟨_, Machine.run_of_exec_checked rfl⟩
  obtain ⟨s, hs⟩ := hrun
  exact ⟨s, hs, accessEnds_of_inTime Sample.env Sample.account .empty hs⟩

/-- The login has verified the password when the reset comes, and issues its session after it. -/
theorem old_password_signs_in :
    ∃ s, Machine.Run (step Sample.env) Machine.Always (State.start Sample.account .empty)
        (.login 0 10 "first" :: Sample.reset 1 ++ Sample.signIn 0 "a") s ∧
      ¬ ResetEnds Sample.env s := by
  refine ⟨_, Machine.run_of_exec rfl, ?_⟩
  intro hends
  have hlater := (hends ⟨1, none, true, []⟩ List.mem_cons_self rfl ?_).1 40 "a" ⟨_, rfl, rfl, rfl⟩
  · exact absurd hlater.2 (by decide)
  · -- both requests have completed
    intro i
    by_cases h0 : i = 0
    · subst h0
      rfl
    · by_cases h1 : i = 1
      · subst h1
        rfl
      · simp [State.drop, State.put, State.start, Function.update_of_ne h0,
          Function.update_of_ne h1]

end FraudAnalyzer.Users.Access
