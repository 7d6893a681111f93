import FraudAnalyzer.Charts.Machine

/-!
# The publish freeze

`guard_frozen` looks at the charts of a query once, and the edit it lets through commits later. A
request or a publication that takes effect in between is overtaken by the edit. It is the only way:
an edit that passed its guard has seen every chart that is frozen now, except those frozen since
(`SeenSince`).
-/

namespace FraudAnalyzer.Charts

/-- The edit of a stage past its guard. -/
def Stage.pastGuard : Stage → Option EditOp
  | .guarded op => some op
  | .prepared op _ => some op
  | _ => none

/-- What the freeze promises of a step: a commit of a non-admin's edit leaves the definition of
every pending or published chart. -/
def KeepsFrozen (s : State) (a : Action) (t : State) : Prop :=
  ∀ i ids since op loaded, a = .commitEdit i ids →
    s.operations i = some ⟨since, .prepared op loaded⟩ → op.user.isAdmin = false →
    ∀ id c, s.db.charts.get id = some c → c.isFrozen = true →
      (t.db.charts.get id).isSome = true ∧ coveredOf t.db id = coveredOf s.db id

/-- No chart of the query has a request or a publication that took effect after the guard of the
edit that commits and still stands. -/
def NotOvertaking (s : State) (a : Action) : Prop :=
  ∀ i ids since op loaded, a = .commitEdit i ids →
    s.operations i = some ⟨since, .prepared op loaded⟩ → op.user.isAdmin = false →
    ∀ id c, s.db.charts.get id = some c → c.queryId = op.query.id →
      Event.frozen id ∈ s.history.drop since → c.isFrozen = false

/-- The charts of the edit's query that are frozen were frozen after the guard. -/
structure SeenSince (s : State) (since : Nat) (op : EditOp) : Prop where
  le : since ≤ s.history.length
  frozen : ∀ id c, s.db.charts.get id = some c → c.queryId = op.query.id → c.isFrozen = true →
    Event.frozen id ∈ s.history.drop since

/-- Every non-admin's edit past its guard has seen the frozen charts. -/
structure Guarded (s : State) : Prop where
  known : Known s
  seen : ∀ i since stage op, s.operations i = some ⟨since, stage⟩ → stage.pastGuard = some op →
    op.user.isAdmin = false → SeenSince s since op

section Steps

variable {E : Env} {s t : State} {a : Action}

/-- Only a request or a publication freezes a chart. -/
theorem events_of_freezes {call : PublishCall} {user : User} {now : Instant} {chartId : String}
    {c : PublishColumns} (hcond : (call.write user now).conditions c = true)
    (hbefore : c.isFrozen = false) (hafter : ((call.write user now).values c).isFrozen = true) :
    call.events chartId = [.frozen chartId] := by
  have hprivate : c.isPublic = false ∧ c.publishRequestedAt = none := by
    simpa [PublishColumns.isFrozen] using hbefore
  cases call with
  | publish requestedAt => rfl
  | cancelRequest =>
    have hcols : (c.isPublic = false ∧ c.publishRequestedAt.isSome = true) := by
      simpa [PublishCall.write, withdrawRequest] using hcond
    exact absurd hcols.2 (by simp [hprivate.2])
  | dismissRejection =>
    have hsame : c.isFrozen = true := hafter
    rw [hbefore] at hsame
    cases hsame
  | approve read =>
    have hcols : (c.isPublic = false ∧ c.publishRequestedAt = some read.requestedAt) ∧
        c.publishRequestedBy = read.chart.publishRequestedBy := by
      simpa [PublishCall.write, approveRequest, sameRequest] using hcond
    exact absurd hcols.1.2 (by simp [hprivate.2])
  | reject requestedAt requester reason =>
    have hcols : (c.isPublic = false ∧ c.publishRequestedAt = some requestedAt) ∧
        c.publishRequestedBy = requester := by
      simpa [PublishCall.write, rejectRequest, sameRequest] using hcond
    exact absurd hcols.1.2 (by simp [hprivate.2])
  | unpublish =>
    have hcols : c.isPublic = true ∧ (user.isAdmin = true ∨ c.publishedBy = some user.id) := by
      simpa [PublishCall.write, retract] using hcond
    exact absurd hcols.1 (by simp [hprivate.1])

/-- An edit whose guard passes has seen every chart of its query. -/
theorem seenSince_of_guardFrozen {op : EditOp} (huser : op.user.isAdmin = false)
    (h : guardFrozen s.db op.query op.user = .ok ()) : SeenSince s s.history.length op := by
  refine ⟨Nat.le_refl _, ?_⟩
  intro id c hc hquery hfrozen
  rw [not_isFrozen_of_guardFrozen huser h (Table.mem_of_get hc) hquery] at hfrozen
  cases hfrozen

theorem SeenSince.write {since : Nat} {op : EditOp} (h : SeenSince s since op) {call : PublishCall}
    {user : User} {chart : QueryChart} {now : Instant} {db : Db}
    (hw : WriteEffect (call.write user now) user chart s.db db)
    (hdb : t.db = db) (hhistory : t.history = s.history ++ call.events chart.id) :
    SeenSince t since op := by
  refine ⟨?_, ?_⟩
  · rw [hhistory, List.length_append]
    exact Nat.le_add_right_of_le h.le
  intro id c' hc' hquery hfrozen
  rw [hhistory, List.drop_append_of_le_length h.le]
  rw [hdb, hw.charts id] at hc'
  split at hc'
  next hid =>
    subst hid
    obtain ⟨c, hc, rfl⟩ := Option.map_eq_some_iff.mp hc'
    cases hbefore : c.isFrozen with
    | true => exact List.mem_append_left _ (h.frozen _ c hc hquery hbefore)
    | false =>
      obtain ⟨row, hrow, hcond⟩ := hw.row
      obtain rfl := Option.some.inj (hc.symm.trans hrow)
      rw [events_of_freezes hcond hbefore hfrozen]
      exact List.mem_append_right _ (List.mem_singleton.mpr rfl)
  · exact List.mem_append_left _ (h.frozen id c' hc' hquery hfrozen)

theorem SeenSince.edit {since : Nat} {op : EditOp} (h : SeenSince s since op) {queryId : String}
    {ids : List String} (he : EditEffect queryId ids s.db t.db) {events : List Event}
    (hhistory : t.history = s.history ++ events) : SeenSince t since op := by
  refine ⟨?_, ?_⟩
  · rw [hhistory, List.length_append]
    exact Nat.le_add_right_of_le h.le
  intro id c' hc' hquery hfrozen
  rw [hhistory, List.drop_append_of_le_length h.le]
  rcases he.chart_of id c' hc' with ⟨c, hc, hcols, hsame⟩ | ⟨-, hcols, -⟩
  · rw [hcols] at hfrozen
    exact List.mem_append_left _ (h.frozen id c hc (hsame ▸ hquery) hfrozen)
  · rw [hcols] at hfrozen
    cases hfrozen

theorem seenSince_of_advance {old : Option Operation} {since : Nat} {stage : Stage}
    {op : EditOp} (hadv : Advance E s old ⟨since, stage⟩)
    (hold : ∀ since stage op, old = some ⟨since, stage⟩ → stage.pastGuard = some op →
      op.user.isAdmin = false → SeenSince s since op)
    (hstage : stage.pastGuard = some op) (huser : op.user.isAdmin = false) :
    SeenSince s since op := by
  cases hadv with
  | guarded hguard =>
    obtain rfl := Option.some.inj hstage
    exact seenSince_of_guardFrozen huser hguard
  | prepared =>
    obtain rfl := Option.some.inj hstage
    have hseen := hold _ _ _ rfl rfl huser
    exact ⟨hseen.le, hseen.frozen⟩
  | decided => cases hstage
  | reviewing => cases hstage
  | query => cases hstage
  | compared => cases hstage
  | dismiss => cases hstage
  | opened => cases hstage

theorem Guarded.effect (h : Guarded s) (he : Effect E s a t) : Guarded t := by
  refine ⟨h.known.effect he, ?_⟩
  intro i since stage op hop hstage huser
  cases he with
  | idle hdb _ hhistory hops =>
    have hseen : SeenSince s since op := by
      rcases hops i _ hop with hsame | hadv
      · exact h.seen i since stage op hsame hstage huser
      · exact seenSince_of_advance hadv (h.seen i) hstage huser
    refine ⟨hhistory ▸ hseen.le, ?_⟩
    rw [hdb, hhistory]
    exact hseen.frozen
  | write hop' happly =>
    have hseen := h.seen i since stage op (of_operations_drop hop) hstage huser
    exact hseen.write (PublishWrite.writeEffect happly) rfl rfl
  | edit hop' hids hcommit =>
    have hseen := h.seen i since stage op (of_operations_drop hop) hstage huser
    exact hseen.edit (EditOp.commit_effect (h.known.loaded _ _ _ _ hop').stored hcommit) rfl

/-- An edit leaves the definitions of other queries' charts. -/
theorem EditEffect.coveredOf {queryId : String} {ids : List String} {db db' : Db}
    (h : EditEffect queryId ids db db') {id : String} {c : QueryChart}
    (hc : db.charts.get id = some c) (hquery : c.queryId ≠ queryId) :
    (db'.charts.get id).isSome = true ∧ coveredOf db' id = coveredOf db id := by
  have hsame := h.other_charts id c hc hquery
  refine ⟨by rw [hsame]; rfl, ?_⟩
  unfold Charts.coveredOf
  rw [hsame, hc, Option.bind_some, Option.bind_some, h.other_queries _ hquery,
    h.other_rules _ hquery]

theorem Guarded.keepsFrozen (h : Guarded s) (hstep : step E s a = some t)
    (hok : NotOvertaking s a) : KeepsFrozen s a t := by
  rintro i ids since op loaded rfl hop huser id c hc hfrozen
  have hseen := h.seen i since _ op hop rfl huser
  have hother : c.queryId ≠ op.query.id := by
    intro hquery
    have hnot := hok i ids since op loaded rfl hop huser id c hc hquery
      (hseen.frozen id c hc hquery hfrozen)
    rw [hnot] at hfrozen
    cases hfrozen
  cases effect_of_step hstep with
  | idle hdb _ _ _ =>
    rw [hdb, hc]
    exact ⟨rfl, rfl⟩
  | edit hop' hids hcommit =>
    have hsame := Option.some.inj (hop.symm.trans hop')
    injection hsame with _ hstage
    injection hstage with hedit hloaded
    subst hedit hloaded
    exact (EditOp.commit_effect (h.known.loaded _ _ _ _ hop).stored hcommit).coveredOf hc hother

end Steps

/-- **The freeze holds in every run in which no edit overtakes**: as long as no non-admin's edit
commits while a request or a publication that took effect after its guard stands, every such commit
leaves the definition of every pending or published chart. -/
theorem keepsFrozen_of_notOvertaking (E : Env) {db : Db} {as : List Action} {s t : State}
    {a : Action} (h : Machine.Run (step E) NotOvertaking (State.start db) as s)
    (hstep : step E s a = some t) (hok : NotOvertaking s a) : KeepsFrozen s a t := by
  have hguarded : Guarded s := by
    refine h.invariant (fun _ _ _ hI hs _ => Guarded.effect hI (effect_of_step hs)) ?_
    exact ⟨known_start db, fun i since stage op hop => by cases hop⟩
  exact hguarded.keepsFrozen hstep hok

theorem notOvertaking_of_ne {s : State} {a : Action} (h : ∀ i ids, a ≠ .commitEdit i ids) :
    NotOvertaking s a := by
  intro i ids since op loaded ha
  exact absurd ha (h i ids)

/-- The request that came after the guard is withdrawn before the edit commits. -/
theorem keepsFrozen_of_notOvertaking_withdrawn :
    ∃ s t, Machine.Run (step Sample.env) NotOvertaking (State.start Sample.db)
        [.openEdit 0 Sample.author "q" (.updateQuery { sqlText := some (some "SELECT 2") }),
          .guardEdit 0, .beginPublish 1 Sample.author "c" (.publish 5), .write 1 6,
          .beginPublish 1 Sample.author "c" .cancelRequest, .write 1 7, .prepareEdit 0] s ∧
      step Sample.env s (.commitEdit 0 []) = some t ∧ KeepsFrozen s (.commitEdit 0 []) t := by
  have hrun := fun s => @Machine.run_of_exec_of_forall _ _ (step Sample.env) NotOvertaking
    (State.start Sample.db) s
    [.openEdit 0 Sample.author "q" (.updateQuery { sqlText := some (some "SELECT 2") }),
      .guardEdit 0, .beginPublish 1 Sample.author "c" (.publish 5), .write 1 6,
      .beginPublish 1 Sample.author "c" .cancelRequest, .write 1 7, .prepareEdit 0]
    (fun a ha s => notOvertaking_of_ne (by rintro i ids rfl; simp at ha))
  refine ⟨_, _, hrun _ rfl, rfl, keepsFrozen_of_notOvertaking Sample.env (hrun _ rfl) rfl ?_⟩
  intro i ids since op loaded _ _ _ id c hc _ _
  have hmem : c ∈ [_] := Table.mem_of_get hc
  obtain rfl := List.mem_singleton.mp hmem
  rfl

/-- The edit's guard passes, the author's request takes effect, the edit commits new SQL. -/
theorem edit_overtakes_request :
    ∃ s t, Machine.Run (step Sample.env) Machine.Always (State.start Sample.db)
        [.openEdit 0 Sample.author "q" (.updateQuery { sqlText := some (some "SELECT 2") }),
          .guardEdit 0, .beginPublish 1 Sample.author "c" (.publish 5), .write 1 6,
          .prepareEdit 0] s ∧
      step Sample.env s (.commitEdit 0 []) = some t ∧ ¬ KeepsFrozen s (.commitEdit 0 []) t := by
  refine ⟨_, _, Machine.run_of_exec rfl, rfl, ?_⟩
  intro h
  have hkept := h 0 [] _ _ _ rfl rfl rfl "c" _ rfl rfl
  exact absurd hkept.2 (by decide)

end FraudAnalyzer.Charts
