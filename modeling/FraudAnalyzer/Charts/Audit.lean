import FraudAnalyzer.Charts.Machine

/-!
# Publication authority and the audit log

A chart's audit entries, replayed from the status it had when the run began, lead to the status it
has. `transition` is the automaton of the entries; every conditional write that matches takes one
step of it, or none if it writes no entry (`PublishCall.write_sound`). An edit changes neither the
publishing columns nor the log.
-/

namespace FraudAnalyzer.Charts

/-- What an audited action does to a chart, `none` where it has no place. -/
def transition : PublishStatus → AuditAction → Option PublishStatus
  | .private_, .chartPublished => some .published
  | .pending, .chartPublished => some .published
  | .private_, .chartPublishRequested => some .pending
  | .pending, .chartPublishApproved => some .published
  | .pending, .chartPublishRejected => some .private_
  | .pending, .chartPublishCancelled => some .private_
  | .published, .chartUnpublished => some .private_
  | _, _ => none

/-- The chart's actions among the audit entries. -/
def trail (entries : List AuditLog) (chartId : String) : List AuditAction :=
  (entries.filter fun e => e.targetId = chartId).map AuditLog.action

theorem trail_append (entries entries' : List AuditLog) (chartId : String) :
    trail (entries ++ entries') chartId = trail entries chartId ++ trail entries' chartId := by
  unfold trail
  rw [List.filter_append, List.map_append]

/-! ## One write -/

/-- A public chart has no request waiting. -/
def Settled (c : PublishColumns) : Prop := c.isPublic = true → c.publishRequestedAt = none

/-- What the entry of a write says the write did. -/
def Audited (audit : Option (AuditAction × List (String × Json))) (c c' : PublishColumns) : Prop :=
  match audit with
  | some entry => transition c.publishStatus entry.1 = some c'.publishStatus
  | none => c'.publishStatus = c.publishStatus

section Writes

variable {user : User} {now : Instant} {c : PublishColumns}

theorem status_private (hpublic : c.isPublic = false)
    (hrequest : c.publishRequestedAt.isNone = true) : c.publishStatus = .private_ := by
  unfold PublishColumns.publishStatus
  simp [hpublic, Option.isNone_iff_eq_none.mp hrequest]

theorem status_pending (hpublic : c.isPublic = false)
    (hrequest : c.publishRequestedAt.isSome = true) : c.publishStatus = .pending := by
  unfold PublishColumns.publishStatus
  simp [hpublic, hrequest]

theorem status_published (hpublic : c.isPublic = true) : c.publishStatus = .published := by
  unfold PublishColumns.publishStatus
  rw [if_pos hpublic]

theorem publishNow_sound (h : (publishNow user now).conditions c = true) :
    Audited (publishNow user now).audit c ((publishNow user now).values c) ∧
      Settled ((publishNow user now).values c) := by
  have hpublic : c.isPublic = false := by simpa [publishNow] using h
  refine ⟨?_, fun _ => rfl⟩
  show transition c.publishStatus .chartPublished = some .published
  cases hrequest : c.publishRequestedAt.isSome with
  | false =>
    rw [status_private hpublic (by simpa using hrequest)]
    rfl
  | true =>
    rw [status_pending hpublic hrequest]
    rfl

theorem requestPublish_sound (h : (requestPublish user now).conditions c = true) :
    Audited (requestPublish user now).audit c ((requestPublish user now).values c) ∧
      Settled ((requestPublish user now).values c) := by
  have hcond : c.isPublic = false ∧ c.publishRequestedAt.isNone = true := by
    simpa [requestPublish] using h
  have hvalues : ((requestPublish user now).values c).isPublic = false := hcond.1
  refine ⟨?_, fun hpublic => by rw [hvalues] at hpublic; cases hpublic⟩
  show transition c.publishStatus .chartPublishRequested = some _
  rw [status_private hcond.1 hcond.2, status_pending hvalues rfl]
  rfl

theorem withdrawRequest_sound (h : withdrawRequest.conditions c = true) :
    Audited withdrawRequest.audit c (withdrawRequest.values c) ∧
      Settled (withdrawRequest.values c) := by
  have hcond : c.isPublic = false ∧ c.publishRequestedAt.isSome = true := by
    simpa [withdrawRequest] using h
  refine ⟨?_, fun _ => rfl⟩
  show transition c.publishStatus .chartPublishCancelled = some _
  rw [status_pending hcond.1 hcond.2, status_private (c := withdrawRequest.values c) hcond.1 rfl]
  rfl

theorem clearRejection_sound (h : clearRejection.conditions c = true) :
    Audited clearRejection.audit c (clearRejection.values c) ∧
      Settled (clearRejection.values c) := by
  have hcond : (c.isPublic = false ∧ c.publishRequestedAt.isNone = true) ∧
      c.publishRejectedAt.isSome = true := by
    simpa [clearRejection] using h
  exact ⟨rfl, fun _ => Option.isNone_iff_eq_none.mp hcond.1.2⟩

theorem sameRequest_pending {requestedAt : Instant} {requester : Option String}
    (h : sameRequest requestedAt requester c = true) :
    c.isPublic = false ∧ c.publishRequestedAt.isSome = true := by
  have hcond : (c.isPublic = false ∧ c.publishRequestedAt = some requestedAt) ∧
      c.publishRequestedBy = requester := by
    simpa [sameRequest] using h
  exact ⟨hcond.1.1, by rw [hcond.1.2]; rfl⟩

theorem approveRequest_sound {read : ApproveRead}
    (h : (approveRequest read now).conditions c = true) :
    Audited (approveRequest read now).audit c ((approveRequest read now).values c) ∧
      Settled ((approveRequest read now).values c) := by
  have hcond := sameRequest_pending h
  refine ⟨?_, fun _ => rfl⟩
  show transition c.publishStatus .chartPublishApproved = some .published
  rw [status_pending hcond.1 hcond.2]
  rfl

theorem rejectRequest_sound {requestedAt : Instant} {requester reason : Option String}
    (h : (rejectRequest user requestedAt requester reason now).conditions c = true) :
    Audited (rejectRequest user requestedAt requester reason now).audit c
        ((rejectRequest user requestedAt requester reason now).values c) ∧
      Settled ((rejectRequest user requestedAt requester reason now).values c) := by
  have hcond := sameRequest_pending h
  have hvalues :
      ((rejectRequest user requestedAt requester reason now).values c).isPublic = false :=
    hcond.1
  refine ⟨?_, fun _ => rfl⟩
  show transition c.publishStatus .chartPublishRejected = some _
  rw [status_pending hcond.1 hcond.2, status_private hvalues rfl]
  rfl

theorem retract_sound (hsettled : Settled c) (h : (retract user).conditions c = true) :
    Audited (retract user).audit c ((retract user).values c) ∧
      Settled ((retract user).values c) := by
  have hcond : c.isPublic = true ∧ (user.isAdmin = true ∨ c.publishedBy = some user.id) := by
    simpa [retract] using h
  have hrequest : ((retract user).values c).publishRequestedAt = none := hsettled hcond.1
  refine ⟨?_, fun _ => hrequest⟩
  show transition c.publishStatus .chartUnpublished = some _
  rw [status_published hcond.1, status_private rfl (by rw [hrequest]; rfl)]
  rfl

/-- **A write that matches does what its audit entry says**, and one without an entry leaves the
status. -/
theorem PublishCall.write_sound {call : PublishCall} (hsettled : Settled c)
    (h : (call.write user now).conditions c = true) :
    Audited (call.write user now).audit c ((call.write user now).values c) ∧
      Settled ((call.write user now).values c) := by
  unfold PublishCall.write at h ⊢
  cases call with
  | publish requestedAt =>
    dsimp only at h ⊢
    split
    next hadmin => exact publishNow_sound (by simpa [hadmin] using h)
    next hadmin => exact requestPublish_sound (by simpa [hadmin] using h)
  | cancelRequest => exact withdrawRequest_sound h
  | dismissRejection => exact clearRejection_sound h
  | approve read => exact approveRequest_sound h
  | reject requestedAt requester reason => exact rejectRequest_sound h
  | unpublish => exact retract_sound hsettled h

/-! ## Who may write -/

/-- The decisions on a request, which only administrators take. -/
def PublishCall.isDecision : PublishCall → Bool
  | .approve _ => true
  | .reject _ _ _ => true
  | _ => false

/-- The user of a stage that takes a decision is an administrator. -/
def Stage.Authorized : Stage → Prop
  | .write user _ call => call.isDecision = true → user.isAdmin = true
  | .approveQuery user _ => user.isAdmin = true
  | .approveRules user _ _ => user.isAdmin = true
  | _ => True

theorem isAdmin_of_requireAdmin {user : User} {u : Unit} (h : requireAdmin user = .ok u) :
    user.isAdmin = true := by
  unfold requireAdmin at h
  split at h
  · assumption
  · cases h

theorem not_public_of_publish {requestedAt : Instant}
    (h : ((PublishCall.publish requestedAt).write user now).conditions c = true) :
    c.isPublic = false := by
  unfold PublishCall.write at h
  dsimp only at h
  split at h
  · simpa [publishNow] using h
  · have hcond : c.isPublic = false ∧ c.publishRequestedAt = none := by
      simpa [requestPublish] using h
    exact hcond.1

/-- A write that makes a chart public is an administrator's. -/
theorem isAdmin_of_publishes {call : PublishCall} {chart : QueryChart}
    (hauth : (Stage.write user chart call).Authorized) (hbefore : c.isPublic = false)
    (hafter : ((call.write user now).values c).isPublic = true) : user.isAdmin = true := by
  have hchanged : ¬ c.isPublic = true := by simp [hbefore]
  unfold PublishCall.write at hafter
  cases call with
  | publish requestedAt =>
    dsimp only at hafter
    split at hafter
    next hadmin => exact hadmin
    · exact absurd hafter hchanged
  | approve read => exact hauth rfl
  | reject requestedAt requester reason => exact hauth rfl
  | cancelRequest => exact absurd hafter hchanged
  | dismissRejection => exact absurd hafter hchanged
  | unpublish => cases hafter

/-- A write that takes a chart out of the public state is an administrator's or the publisher's. -/
theorem mayRetract_of_write {call : PublishCall}
    (hcond : (call.write user now).conditions c = true) (hbefore : c.isPublic = true)
    (hafter : ((call.write user now).values c).isPublic = false) :
    user.isAdmin = true ∨ c.publishedBy = some user.id := by
  cases call with
  | publish requestedAt => exact absurd hbefore (by simp [not_public_of_publish hcond])
  | cancelRequest => exact absurd hbefore (by simp_all [PublishCall.write, withdrawRequest])
  | dismissRejection => exact absurd hbefore (by simp_all [PublishCall.write, clearRejection])
  | approve read => cases hafter
  | reject requestedAt requester reason =>
    exact absurd hbefore (by simp [(sameRequest_pending hcond).1])
  | unpublish =>
    have hmay : c.isPublic = true ∧ (user.isAdmin = true ∨ c.publishedBy = some user.id) := by
      simpa [PublishCall.write, retract] using hcond
    exact hmay.2

end Writes

section Roles

variable {E : Env} {s t : State} {db : Db} {user : User} {chartId : String}

theorem beginRequest_authorized {request : PublishRequest} {begun : Begun}
    (h : beginRequest E.unicode db user chartId request = .ok begun) :
    (begun.stage user).Authorized := by
  cases request with
  | publish now =>
    obtain ⟨chart, -, rfl⟩ := map_eq_ok.mp h
    intro hdecision
    cases hdecision
  | cancelRequest =>
    obtain ⟨chart, -, rfl⟩ := map_eq_ok.mp h
    intro hdecision
    cases hdecision
  | approve seen =>
    obtain ⟨_, hadmin, h⟩ := bind_eq_ok.mp h
    obtain ⟨⟨chart, requestedAt⟩, -, h⟩ := bind_eq_ok.mp h
    obtain rfl := Except.ok.inj h
    exact isAdmin_of_requireAdmin hadmin
  | reject reason =>
    obtain ⟨_, hadmin, h⟩ := bind_eq_ok.mp h
    obtain ⟨⟨chart, requestedAt⟩, -, h⟩ := bind_eq_ok.mp h
    obtain rfl := Except.ok.inj h
    exact fun _ => isAdmin_of_requireAdmin hadmin
  | unpublish =>
    obtain ⟨chart, -, h⟩ := bind_eq_ok.mp h
    dsimp only at h
    split at h
    · cases h
    · obtain rfl := Except.ok.inj h
      intro hdecision
      cases hdecision

theorem Advance.authorized {old : Option Operation} {op : Operation} (h : Advance E s old op)
    (hold : ∀ op, old = some op → op.stage.Authorized) : op.stage.Authorized := by
  cases h with
  | decided hbegin => exact beginRequest_authorized hbegin
  | reviewing hbegin => exact beginRequest_authorized hbegin
  | query _ => exact (hold _ rfl : (Stage.approveQuery _ _).Authorized)
  | compared _ => exact fun _ => (hold _ rfl : (Stage.approveRules _ _ _).Authorized)
  | dismiss =>
    intro hdecision
    cases hdecision
  | opened _ => trivial
  | guarded _ => trivial
  | prepared _ => trivial

def Authorized (s : State) : Prop := ∀ i op, s.operations i = some op → op.stage.Authorized

theorem Authorized.effect (h : Authorized s) {a : Action} (he : Effect E s a t) : Authorized t := by
  intro i op hop
  cases he with
  | idle _ _ _ hops =>
    rcases hops i op hop with hsame | hadv
    · exact h i op hsame
    · exact hadv.authorized (h i)
  | write => exact h i op (of_operations_drop hop)
  | edit => exact h i op (of_operations_drop hop)

end Roles

/-! ## Replay -/

/-- The entries of a conditional write. -/
def PublishWrite.entries (w : PublishWrite) (user : User) (chart : QueryChart) : List AuditLog :=
  (w.audit.map fun a => auditEntry user chart a.1 a.2).toList

section Steps

variable {user : User} {now : Instant} {chart : QueryChart} {call : PublishCall} {db db' : Db}
  {id : String}

theorem trail_entries_of_ne {w : PublishWrite} (hid : id ≠ chart.id) :
    trail (w.entries user chart) id = [] := by
  unfold trail PublishWrite.entries auditEntry
  cases w.audit with
  | none => rfl
  | some entry => simp [Ne.symm hid]

/-- The entries tell what happened to a chart: none about it and its status is the same, or one,
which says how it changed. -/
def Tells (entries : List AuditLog) (id : String) (c c' : PublishColumns) : Prop :=
  (trail entries id = [] ∧ c'.publishStatus = c.publishStatus) ∨
    ∃ e, entries = [e] ∧ e.targetId = id ∧
      transition c.publishStatus e.action = some c'.publishStatus

theorem Tells.exec {entries log : List AuditLog} {c c' : PublishColumns} {status : PublishStatus}
    (h : Tells entries id c c')
    (hlog : Machine.exec transition status (trail log id) = some c.publishStatus) :
    Machine.exec transition status (trail (log ++ entries) id) = some c'.publishStatus := by
  rw [trail_append, Machine.exec_append, hlog, Option.bind_some]
  rcases h with ⟨hnone, hsame⟩ | ⟨e, rfl, htarget, hstep⟩
  · rw [hnone, hsame]
    rfl
  · have htrail : trail [e] id = [e.action] := by simp [trail, htarget]
    rw [htrail]
    simp [Machine.exec, hstep]

/-- **A write replays**: its entries tell what happened to each chart. -/
theorem replay_write (hw : WriteEffect (call.write user now) user chart db db') {c' : QueryChart}
    (hc' : db'.charts.get id = some c')
    (hsettled : ∀ c, db.charts.get id = some c → Settled c.toPublishColumns) :
    ∃ c, db.charts.get id = some c ∧ Settled c'.toPublishColumns ∧
      Tells ((call.write user now).entries user chart) id c.toPublishColumns
        c'.toPublishColumns := by
  have hget := hw.charts id
  rw [hc'] at hget
  split at hget
  next hid =>
    subst hid
    obtain ⟨row, hrow, hcond⟩ := hw.row
    have hsound := PublishCall.write_sound (hsettled row hrow) hcond
    rw [hrow] at hget
    obtain rfl := Option.some.inj hget
    refine ⟨row, hrow, hsound.2, ?_⟩
    have haudited := hsound.1
    unfold Audited at haudited
    split at haudited
    next entry hentry =>
      refine .inr ⟨auditEntry user chart entry.1 entry.2, ?_, rfl, haudited⟩
      unfold PublishWrite.entries
      rw [hentry]
      rfl
    next hnone =>
      refine .inl ⟨?_, haudited⟩
      unfold PublishWrite.entries
      rw [hnone]
      rfl
  next hid =>
    exact ⟨c', hget.symm, hsettled c' hget.symm, .inl ⟨trail_entries_of_ne hid, rfl⟩⟩

end Steps

/-- The chart's entries since the log had `n` of them lead from private to its status. -/
structure Replayed (n : Nat) (id : String) (s : State) : Prop where
  known : Known s
  authorized : Authorized s
  issued : id ∈ s.issued
  log : n ≤ s.db.auditLogs.length
  settled : ∀ c, s.db.charts.get id = some c → Settled c.toPublishColumns
  status : ∀ c, s.db.charts.get id = some c →
    Machine.exec transition .private_ (trail (s.db.auditLogs.drop n) id) = some c.publishStatus

section Runs

variable {E : Env} {s t : State} {a : Action} {db : Db} {n : Nat} {id : String}

theorem publishStatus_eq_private {c : PublishColumns} (h : c.publishStatus = .private_) :
    c.isPublic = false ∧ c.publishRequestedAt = none := by
  unfold PublishColumns.publishStatus at h
  cases hpublic : c.isPublic <;> cases hrequest : c.publishRequestedAt <;> simp_all

theorem replayed_start {chart : QueryChart} (hchart : db.charts.get id = some chart)
    (hprivate : chart.publishStatus = .private_) :
    Replayed db.auditLogs.length id (State.start db) := by
  refine ⟨known_start db, ?_, (known_start db).charts id chart hchart, Nat.le_refl _, ?_, ?_⟩
  · intro i op hop
    cases hop
  · intro c hc
    obtain rfl := Option.some.inj (hchart.symm.trans hc)
    exact fun _ => (publishStatus_eq_private hprivate).2
  · intro c hc
    obtain rfl := Option.some.inj (hchart.symm.trans hc)
    have hlog : (State.start db).db.auditLogs.drop db.auditLogs.length = [] := List.drop_length
    rw [hlog, hprivate]
    rfl

/-- An edit leaves a chart's publishing columns and the log as they are. -/
theorem Replayed.edit (h : Replayed n id s) {i since : Nat} {op : EditOp} {loaded : Loaded}
    {ids : List String} {db' : Db} (hop : s.operations i = some ⟨since, .prepared op loaded⟩)
    (hids : ∀ id ∈ ids, id ∉ s.issued) (hcommit : op.commit E.unicode loaded s.db ids = some db') :
    db'.auditLogs = s.db.auditLogs ∧ ∀ c', db'.charts.get id = some c' →
      ∃ c, s.db.charts.get id = some c ∧ c'.toPublishColumns = c.toPublishColumns := by
  have heff := EditOp.commit_effect (h.known.loaded _ _ _ _ hop).stored hcommit
  refine ⟨heff.audit, fun c' hc' => ?_⟩
  obtain ⟨c, hc, hsame, -⟩ := heff.get_charts (fun hnew => hids id hnew h.issued) hc'
  exact ⟨c, hc, hsame⟩

theorem Replayed.effect (h : Replayed n id s) (he : Effect E s a t) : Replayed n id t := by
  have hknown := h.known.effect he
  have hauth := h.authorized.effect he
  cases he with
  | idle hdb hissued _ _ =>
    refine ⟨hknown, hauth, hissued ▸ h.issued, hdb ▸ h.log, ?_, ?_⟩
    · rw [hdb]
      exact h.settled
    · rw [hdb]
      exact h.status
  | write hop happly =>
    have hw := PublishWrite.writeEffect happly
    refine ⟨hknown, hauth, h.issued, ?_, ?_, ?_⟩
    · rw [hw.audit, List.length_append]
      exact Nat.le_add_right_of_le h.log
    · intro c' hc'
      obtain ⟨c, -, hsettled, -⟩ := replay_write hw hc' h.settled
      exact hsettled
    · intro c' hc'
      obtain ⟨c, hc, -, htells⟩ := replay_write hw hc' h.settled
      rw [hw.audit, List.drop_append_of_le_length h.log]
      exact htells.exec (h.status c hc)
  | edit hop hids hcommit =>
    obtain ⟨hlog, hsame⟩ := h.edit hop hids hcommit
    refine ⟨hknown, hauth, List.mem_append_left _ h.issued, hlog ▸ h.log, ?_, ?_⟩
    · intro c' hc'
      obtain ⟨c, hc, hcols⟩ := hsame c' hc'
      exact hcols ▸ h.settled c hc
    · intro c' hc'
      obtain ⟨c, hc, hcols⟩ := hsame c' hc'
      rw [hlog, hcols]
      exact h.status c hc

theorem replayed_of_run {chart : QueryChart} (hchart : db.charts.get id = some chart)
    (hprivate : chart.publishStatus = .private_) {as : List Action}
    (h : Machine.Run (step E) Machine.Always (State.start db) as s) :
    Replayed db.auditLogs.length id s :=
  h.invariant (fun _ _ _ hI hstep _ => hI.effect (effect_of_step hstep))
    (replayed_start hchart hprivate)

end Runs

/-! ## The law of a step -/

/-- The step is a conditional write of the chart by the user. -/
def WrittenBy (s : State) (a : Action) (id : String) (user : User) : Prop :=
  ∃ i now since chart call, a = .write i now ∧
    s.operations i = some ⟨since, .write user chart call⟩ ∧ chart.id = id

/-- What a step may do to a chart. -/
structure LawfulStep (id : String) (s : State) (a : Action) (t : State) : Prop where
  /-- It becomes public only through a write by an administrator. -/
  publishes : ∀ c c', s.db.charts.get id = some c → t.db.charts.get id = some c' →
    c.isPublic = false → c'.isPublic = true → ∃ user, WrittenBy s a id user ∧ user.isAdmin = true
  /-- It leaves the public state only through a write by an administrator or its publisher. -/
  retracts : ∀ c c', s.db.charts.get id = some c → t.db.charts.get id = some c' →
    c.isPublic = true → c'.isPublic = false →
      ∃ user, WrittenBy s a id user ∧ (user.isAdmin = true ∨ c.publishedBy = some user.id)
  /-- A write whose expected state no longer holds changes nothing. -/
  stale : ∀ i now since user chart call, a = .write i now →
    s.operations i = some ⟨since, .write user chart call⟩ →
    (¬ ∃ row, s.db.charts.get chart.id = some row ∧
      (call.write user now).conditions row.toPublishColumns = true) → t.db = s.db
  /-- Each change of status is audited by exactly one entry, and nothing else is. -/
  audited : ∃ entries, t.db.auditLogs = s.db.auditLogs ++ entries ∧
    ∀ c c', s.db.charts.get id = some c → t.db.charts.get id = some c' →
      Tells entries id c.toPublishColumns c'.toPublishColumns

section Law

variable {E : Env} {s t : State} {a : Action} {n : Nat} {id : String}

theorem db_of_stale {i since : Nat} {now : Instant} {user : User} {chart : QueryChart}
    {call : PublishCall} (hop : s.operations i = some ⟨since, .write user chart call⟩)
    (hstale : (call.write user now).applyIf s.db user chart = none)
    (h : step E s (.write i now) = some t) : t.db = s.db := by
  simp only [step, hop, hstale] at h
  split at h
  · obtain rfl := Option.some.inj h
    rfl
  · obtain rfl := Option.some.inj h
    rfl

/-- A step that changes no publishing column and writes no entry is lawful. -/
theorem lawfulStep_of_same (hlog : t.db.auditLogs = s.db.auditLogs)
    (hsame : ∀ c', t.db.charts.get id = some c' →
      ∃ c, s.db.charts.get id = some c ∧ c'.toPublishColumns = c.toPublishColumns)
    (hstale : ∀ i now since user chart call, a = .write i now →
      s.operations i = some ⟨since, .write user chart call⟩ →
      (¬ ∃ row, s.db.charts.get chart.id = some row ∧
        (call.write user now).conditions row.toPublishColumns = true) → t.db = s.db) :
    LawfulStep id s a t := by
  have hcols : ∀ c c', s.db.charts.get id = some c → t.db.charts.get id = some c' →
      c'.toPublishColumns = c.toPublishColumns := by
    intro c c' hc hc'
    obtain ⟨c₀, hc₀, heq⟩ := hsame c' hc'
    obtain rfl := Option.some.inj (hc.symm.trans hc₀)
    exact heq
  refine ⟨?_, ?_, hstale, [], by rw [hlog, List.append_nil], ?_⟩
  · intro c c' hc hc' hbefore hafter
    rw [hcols c c' hc hc', hbefore] at hafter
    cases hafter
  · intro c c' hc hc' hbefore hafter
    rw [hcols c c' hc hc', hbefore] at hafter
    cases hafter
  · intro c c' hc hc'
    exact .inl ⟨rfl, by rw [hcols c c' hc hc']⟩

/-- The row that a write changes. -/
theorem WriteEffect.changed {w : PublishWrite} {user : User} {chart : QueryChart} {db db' : Db}
    (h : WriteEffect w user chart db db') {c c' : QueryChart} (hc : db.charts.get id = some c)
    (hc' : db'.charts.get id = some c') (hne : c'.isPublic ≠ c.isPublic) :
    chart.id = id ∧ w.conditions c.toPublishColumns = true ∧
      c'.toPublishColumns = w.values c.toPublishColumns := by
  have hget := h.charts id
  rw [hc', hc] at hget
  split at hget
  next hid =>
    subst hid
    obtain ⟨row, hrow, hcond⟩ := h.row
    obtain rfl := Option.some.inj (hc.symm.trans hrow)
    obtain rfl := Option.some.inj hget
    exact ⟨rfl, hcond, rfl⟩
  · obtain rfl := Option.some.inj hget
    exact absurd rfl hne

theorem Replayed.lawfulStep (h : Replayed n id s) (hstep : step E s a = some t) :
    LawfulStep id s a t := by
  have hstale : ∀ i now since user chart call, a = .write i now →
      s.operations i = some ⟨since, .write user chart call⟩ →
      (¬ ∃ row, s.db.charts.get chart.id = some row ∧
        (call.write user now).conditions row.toPublishColumns = true) → t.db = s.db := by
    rintro i now since user chart call rfl hop hnone
    exact db_of_stale hop (PublishWrite.applyIf_eq_none.mpr hnone) hstep
  cases effect_of_step hstep with
  | idle hdb _ _ _ =>
    refine lawfulStep_of_same (by rw [hdb]) (fun c' hc' => ?_) hstale
    exact ⟨c', hdb ▸ hc', rfl⟩
  | @write i since user chart call now db hop happly =>
    have hw := PublishWrite.writeEffect happly
    refine ⟨?_, ?_, hstale, (call.write user now).entries user chart, hw.audit, ?_⟩
    · intro c c' hc hc' hbefore hafter
      obtain ⟨hid, -, hvalues⟩ := hw.changed hc hc' (by simp [hbefore, hafter])
      refine ⟨user, ⟨i, now, since, chart, call, rfl, hop, hid⟩, ?_⟩
      exact isAdmin_of_publishes (h.authorized i _ hop) hbefore (hvalues ▸ hafter)
    · intro c c' hc hc' hbefore hafter
      obtain ⟨hid, hcond, hvalues⟩ := hw.changed hc hc' (by simp [hbefore, hafter])
      refine ⟨user, ⟨i, now, since, chart, call, rfl, hop, hid⟩, ?_⟩
      exact mayRetract_of_write hcond hbefore (hvalues ▸ hafter)
    · intro c c' hc hc'
      obtain ⟨c₀, hc₀, -, htells⟩ := replay_write hw hc' h.settled
      obtain rfl := Option.some.inj (hc.symm.trans hc₀)
      exact htells
  | edit hop hids hcommit =>
    obtain ⟨hlog, hsame⟩ := h.edit hop hids hcommit
    exact lawfulStep_of_same hlog hsame hstale

end Law

/-- **Publication authority and audit replay.** In every run that starts with the chart private,
replaying its entries gives its status, and every further step is lawful. -/
theorem publishing_lawful (E : Env) {db : Db} {id : String} {chart : QueryChart}
    (hchart : db.charts.get id = some chart) (hprivate : chart.publishStatus = .private_)
    {as : List Action} {s : State}
    (h : Machine.Run (step E) Machine.Always (State.start db) as s) :
    (∀ c, s.db.charts.get id = some c →
      Machine.exec transition .private_ (trail (s.db.auditLogs.drop db.auditLogs.length) id) =
        some c.publishStatus) ∧
    ∀ a t, step E s a = some t → LawfulStep id s a t := by
  have hreplayed := replayed_of_run hchart hprivate h
  refine ⟨hreplayed.status, ?_⟩
  intro a t hstep
  exact hreplayed.lawfulStep hstep

theorem publishing_lawful_requested :
    ∃ s, Machine.Run (step Sample.env) Machine.Always (State.start Sample.db)
        [.beginPublish 0 Sample.author "c" (.publish 5), .write 0 6] s ∧
      ∀ c, s.db.charts.get "c" = some c →
        Machine.exec transition .private_ (trail (s.db.auditLogs.drop 0) "c") =
          some c.publishStatus := by
  have hexec : ((Machine.exec (step Sample.env) (State.start Sample.db)
      [.beginPublish 0 Sample.author "c" (.publish 5), .write 0 6]).any fun _ => true) = true := by
    decide
  obtain ⟨s, hrun, -⟩ := Machine.exists_run_of_exec_any hexec
  exact ⟨s, hrun, (@publishing_lawful Sample.env _ _ Sample.chart rfl rfl _ _ hrun).1⟩

end FraudAnalyzer.Charts
