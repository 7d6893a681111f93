import FraudAnalyzer.Charts.Machine

/-!
# The publishing columns of a chart

Seven nullable columns that six conditional writes set. Which of them are null follows from the
status, in every chart that was created private; so `frozen_by` has an instant to sort each of its
charts by.
-/

namespace FraudAnalyzer.Charts

/-- No rejection is recorded. -/
structure Unrejected (c : PublishColumns) : Prop where
  rejectedBy : c.publishRejectedBy = none
  rejectedAt : c.publishRejectedAt = none
  reason : c.publishRejectedReason = none

/-- The columns that are set are those of the status. -/
structure SoundColumns (c : PublishColumns) : Prop where
  published : c.isPublic = true → c.publishedBy.isSome = true ∧ c.publishedAt.isSome = true
  settled : c.isPublic = true → c.publishRequestedBy = none ∧ c.publishRequestedAt = none
  accepted : c.isPublic = true → Unrejected c
  unpublished : c.isPublic = false → c.publishedBy = none ∧ c.publishedAt = none
  requested : c.publishRequestedAt.isSome = true ↔ c.publishRequestedBy.isSome = true
  waiting : c.publishStatus = .pending → Unrejected c

/-! ## One write -/

section Writes

variable {user : User} {now : Instant} {c : PublishColumns}

theorem unrejected_noRejection (c : PublishColumns) : Unrejected (noRejection c) := ⟨rfl, rfl, rfl⟩

theorem soundColumns_initial : SoundColumns .initial where
  published := nofun
  settled := nofun
  accepted := nofun
  unpublished _ := ⟨rfl, rfl⟩
  requested := Iff.rfl
  waiting := nofun

/-- Without a request, and not public, a chart is not pending. -/
theorem not_pending (hrequest : c.publishRequestedAt = none) : c.publishStatus ≠ .pending := by
  unfold PublishColumns.publishStatus
  rw [hrequest]
  split
  · nofun
  · nofun

theorem SoundColumns.publishNow : SoundColumns ((publishNow user now).values c) where
  published _ := ⟨rfl, rfl⟩
  settled _ := ⟨rfl, rfl⟩
  accepted _ := unrejected_noRejection _
  unpublished := nofun
  requested := Iff.rfl
  waiting _ := unrejected_noRejection _

theorem SoundColumns.requestPublish (h : SoundColumns c)
    (hcond : (requestPublish user now).conditions c = true) :
    SoundColumns ((requestPublish user now).values c) := by
  have hprivate : c.isPublic = false ∧ c.publishRequestedAt.isNone = true := by
    simpa [Charts.requestPublish] using hcond
  have hpublic : ((Charts.requestPublish user now).values c).isPublic ≠ true := by
    show c.isPublic ≠ true
    simp [hprivate.1]
  refine ⟨?_, ?_, ?_, ?_, ?_, ?_⟩
  · exact fun hp => absurd hp hpublic
  · exact fun hp => absurd hp hpublic
  · exact fun hp => absurd hp hpublic
  · exact fun _ => h.unpublished hprivate.1
  · exact ⟨fun _ => rfl, fun _ => rfl⟩
  · exact fun _ => unrejected_noRejection _

/-- A chart that is not public, without a request. -/
theorem SoundColumns.of_private (hpublic : c.isPublic = false)
    (hpublished : c.publishedBy = none ∧ c.publishedAt = none)
    (hrequest : c.publishRequestedBy = none ∧ c.publishRequestedAt = none) : SoundColumns c := by
  refine ⟨?_, ?_, ?_, fun _ => hpublished, ?_, ?_⟩
  · exact fun hp => absurd (hpublic.symm.trans hp) nofun
  · exact fun hp => absurd (hpublic.symm.trans hp) nofun
  · exact fun hp => absurd (hpublic.symm.trans hp) nofun
  · simp [hrequest.1, hrequest.2]
  · exact fun hp => absurd hp (not_pending hrequest.2)

theorem SoundColumns.withdrawRequest (h : SoundColumns c)
    (hcond : withdrawRequest.conditions c = true) : SoundColumns (withdrawRequest.values c) := by
  have hprivate : c.isPublic = false ∧ c.publishRequestedAt.isSome = true := by
    simpa [Charts.withdrawRequest] using hcond
  exact .of_private hprivate.1 (h.unpublished hprivate.1) ⟨rfl, rfl⟩

theorem SoundColumns.clearRejection (h : SoundColumns c)
    (hcond : clearRejection.conditions c = true) : SoundColumns (clearRejection.values c) := by
  have hprivate : (c.isPublic = false ∧ c.publishRequestedAt.isNone = true) ∧
      c.publishRejectedAt.isSome = true := by
    simpa [Charts.clearRejection] using hcond
  have hat : c.publishRequestedAt = none := Option.isNone_iff_eq_none.mp hprivate.1.2
  have hby : c.publishRequestedBy = none := by
    have hiff := h.requested
    rw [hat] at hiff
    simpa using hiff
  exact .of_private hprivate.1.1 (h.unpublished hprivate.1.1) ⟨hby, hat⟩

theorem of_sameRequest {requestedAt : Instant} {requester : Option String}
    (h : sameRequest requestedAt requester c = true) :
    c.isPublic = false ∧ c.publishRequestedAt = some requestedAt ∧
      c.publishRequestedBy = requester := by
  simpa [sameRequest, and_assoc] using h

/-- The requester whom `approve` has read is the one of the row, and a row with a request
has one. -/
theorem SoundColumns.approveRequest {read : ApproveRead} (h : SoundColumns c)
    (hcond : (approveRequest read now).conditions c = true) :
    SoundColumns ((approveRequest read now).values c) := by
  obtain ⟨-, hat, hby⟩ := of_sameRequest hcond
  have hrequester : read.chart.publishRequestedBy.isSome = true := by
    rw [← hby]
    exact h.requested.mp (by rw [hat]; rfl)
  exact
    { published := fun _ => ⟨hrequester, rfl⟩
      settled := fun _ => ⟨rfl, rfl⟩
      accepted := fun _ => unrejected_noRejection _
      unpublished := nofun
      requested := Iff.rfl
      waiting := fun _ => unrejected_noRejection _ }

theorem SoundColumns.rejectRequest {requestedAt : Instant} {requester reason : Option String}
    (h : SoundColumns c)
    (hcond : (rejectRequest user requestedAt requester reason now).conditions c = true) :
    SoundColumns ((rejectRequest user requestedAt requester reason now).values c) := by
  obtain ⟨hpublic, -, -⟩ := of_sameRequest hcond
  exact .of_private hpublic (h.unpublished hpublic) ⟨rfl, rfl⟩

theorem SoundColumns.retract (h : SoundColumns c) (hcond : (retract user).conditions c = true) :
    SoundColumns ((retract user).values c) := by
  have hpublic : c.isPublic = true := by
    simp only [Charts.retract, Bool.and_eq_true] at hcond
    exact hcond.1
  exact .of_private rfl ⟨rfl, rfl⟩ (h.settled hpublic)

theorem SoundColumns.write {call : PublishCall} (h : SoundColumns c)
    (hcond : (call.write user now).conditions c = true) :
    SoundColumns ((call.write user now).values c) := by
  cases call with
  | publish requestedAt =>
    simp only [PublishCall.write] at hcond ⊢
    split
    next hadmin => exact .publishNow
    next hadmin =>
      rw [if_neg hadmin] at hcond
      exact h.requestPublish hcond
  | cancelRequest => exact h.withdrawRequest hcond
  | dismissRejection => exact h.clearRejection hcond
  | approve read => exact h.approveRequest hcond
  | reject requestedAt requester reason => exact h.rejectRequest hcond
  | unpublish => exact h.retract hcond

end Writes

/-! ## Runs -/

/-- Every stored chart is sound. -/
def SoundRows (db : Db) : Prop :=
  ∀ id chart, db.charts.get id = some chart → SoundColumns chart.toPublishColumns

section Runs

variable {E : Env} {s t : State} {a : Action}

/-- A step changes the publishing columns by one write that matches, or creates a chart. -/
theorem SoundRows.effect (h : SoundRows s.db) (hknown : Known s) (he : Effect E s a t) :
    SoundRows t.db := by
  intro id chart hchart
  cases he with
  | idle hdb _ _ _ => exact h id chart (hdb ▸ hchart)
  | @write i since user target call now db hop happly =>
    have hw := PublishWrite.writeEffect happly
    obtain ⟨row, hrow, hcond⟩ := hw.row
    replace hchart : db.charts.get id = some chart := hchart
    rw [hw.charts id] at hchart
    split at hchart
    next hid =>
      rw [hid, hrow] at hchart
      obtain rfl := Option.some.inj hchart
      exact (h _ _ hrow).write hcond
    · exact h id chart hchart
  | edit hop hids hcommit =>
    have heff := EditOp.commit_effect (hknown.loaded _ _ _ _ hop).stored hcommit
    rcases heff.chart_of id chart hchart with ⟨c, hc, hsame, -⟩ | ⟨-, hinitial, -⟩
    · exact hsame ▸ h id c hc
    · exact hinitial ▸ soundColumns_initial

theorem soundRows_of_run {db : Db} (hstart : SoundRows db) {as : List Action}
    (h : Machine.Run (step E) Machine.Always (State.start db) as s) : SoundRows s.db := by
  have hstep : ∀ s a t, Known s ∧ SoundRows s.db → step E s a = some t → Machine.Always s a →
      Known t ∧ SoundRows t.db := by
    intro s a t hI hst _
    have he := effect_of_step hst
    exact ⟨hI.1.effect he, hI.2.effect hI.1 he⟩
  exact (h.invariant hstep ⟨known_start db, hstart⟩).2

end Runs

/-! ## The charts that freeze a query -/

theorem publishStatus_of_isFrozen (c : PublishColumns) :
    c.isFrozen = true ↔ c.publishStatus = .published ∨ c.publishStatus = .pending := by
  unfold PublishColumns.isFrozen PublishColumns.publishStatus
  cases c.isPublic with
  | true => simp
  | false => cases c.publishRequestedAt with
    | none => simp
    | some t => simp

/-- A frozen chart has an instant. -/
theorem SoundColumns.instant {c : PublishColumns} (h : SoundColumns c)
    (hfrozen : c.isFrozen = true) :
    ∃ t, (c.publishedAt <|> c.publishRequestedAt) = some t := by
  cases hpublic : c.isPublic with
  | true =>
    obtain ⟨t, ht⟩ := Option.isSome_iff_exists.mp (h.published hpublic).2
    refine ⟨t, ?_⟩
    rw [ht]
    rfl
  | false =>
    have hrequested : c.publishRequestedAt.isSome = true := by
      simpa [PublishColumns.isFrozen, hpublic] using hfrozen
    obtain ⟨t, ht⟩ := Option.isSome_iff_exists.mp hrequested
    refine ⟨t, ?_⟩
    rw [(h.unpublished hpublic).2, ht]
    rfl

theorem withInstants_of_sound {charts : List QueryChart}
    (h : ∀ c ∈ charts, SoundColumns c.toPublishColumns ∧ c.isFrozen = true) :
    ∃ keyed, withInstants charts = some keyed ∧ keyed.map Prod.fst = charts := by
  induction charts with
  | nil => exact ⟨[], rfl, rfl⟩
  | cons c charts ih =>
    obtain ⟨keyed, hkeyed, hcharts⟩ := ih fun c' hc' => h c' (List.mem_cons_of_mem c hc')
    obtain ⟨hsound, hfrozen⟩ := h c List.mem_cons_self
    obtain ⟨t, ht⟩ := hsound.instant hfrozen
    refine ⟨(c, t) :: keyed, ?_, ?_⟩
    · unfold withInstants
      rw [ht, hkeyed]
      rfl
    · rw [List.map_cons, hcharts]

/-- `frozen_by` lists the charts of the query that are published or pending. -/
theorem frozenBy_of_sound {db : Db} (h : SoundRows db) (queryId : String) :
    ∃ frozen, frozenBy db queryId = some frozen ∧
      frozen.Perm (db.charts.rows.filter fun c =>
        c.queryId = queryId ∧ (c.publishStatus = .published ∨ c.publishStatus = .pending)) := by
  have hfrozen : ∀ c ∈ db.charts.rows.filter fun c => c.queryId = queryId && c.isFrozen,
      SoundColumns c.toPublishColumns ∧ c.isFrozen = true := by
    intro c hc
    obtain ⟨hmem, hcond⟩ := List.mem_filter.mp hc
    exact ⟨h c.id c (Table.get_of_mem hmem), (Bool.and_eq_true_iff.mp hcond).2⟩
  obtain ⟨keyed, hkeyed, hcharts⟩ := withInstants_of_sound hfrozen
  unfold frozenBy
  rw [hkeyed]
  refine ⟨_, rfl, ?_⟩
  have hsame : keyed.map Prod.fst = db.charts.rows.filter fun c =>
      c.queryId = queryId ∧ (c.publishStatus = .published ∨ c.publishStatus = .pending) := by
    rw [hcharts]
    apply List.filter_congr
    intro c _
    simp only [← publishStatus_of_isFrozen, Bool.decide_and, Bool.decide_eq_true]
  exact hsame ▸ (List.perm_insertionSort _ keyed).map Prod.fst

/-- **The publishing columns agree.** In every run that starts with charts as they are created, the
columns that are set are those of the status; so `frozen_by` always has an instant, and it lists the
charts that are published or pending. -/
theorem sound_of_run (E : Env) {db : Db}
    (hstart : ∀ chart ∈ db.charts.rows, chart.toPublishColumns = .initial)
    {as : List Action} {s : State}
    (h : Machine.Run (step E) Machine.Always (State.start db) as s) :
    (∀ chart ∈ s.db.charts.rows, SoundColumns chart.toPublishColumns) ∧
    ∀ queryId, ∃ frozen, frozenBy s.db queryId = some frozen ∧
      frozen.Perm (s.db.charts.rows.filter fun c =>
        c.queryId = queryId ∧ (c.publishStatus = .published ∨ c.publishStatus = .pending)) := by
  have hrows : SoundRows s.db := by
    apply soundRows_of_run _ h
    intro id chart hchart
    exact hstart chart (Table.mem_of_get hchart) ▸ soundColumns_initial
  refine ⟨?_, frozenBy_of_sound hrows⟩
  intro chart hchart
  exact hrows chart.id chart (Table.get_of_mem hchart)

/-- Asked for by the author, published by the administrator, and frozen since. -/
theorem sound_of_run_published :
    ∃ s, Machine.Run (step Sample.env) Machine.Always (State.start Sample.db)
        [.beginPublish 0 Sample.author "c" (.publish 5), .write 0 6,
          .beginPublish 1 Sample.admin "c" (.publish 7), .write 1 8] s ∧
      (∀ chart ∈ s.db.charts.rows, SoundColumns chart.toPublishColumns) ∧
      ∀ queryId, ∃ frozen, frozenBy s.db queryId = some frozen ∧
        frozen.Perm (s.db.charts.rows.filter fun c =>
          c.queryId = queryId ∧ (c.publishStatus = .published ∨ c.publishStatus = .pending)) := by
  have hexec : ((Machine.exec (step Sample.env) (State.start Sample.db)
      [.beginPublish 0 Sample.author "c" (.publish 5), .write 0 6,
        .beginPublish 1 Sample.admin "c" (.publish 7), .write 1 8]).any fun _ => true) = true := by
    decide
  obtain ⟨s, hrun, -⟩ := Machine.exists_run_of_exec_any hexec
  exact ⟨s, hrun, sound_of_run Sample.env (by simp [Sample.db, Sample.chart]) hrun⟩

end FraudAnalyzer.Charts
