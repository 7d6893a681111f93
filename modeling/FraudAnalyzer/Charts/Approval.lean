import FraudAnalyzer.Charts.Machine

/-!
# Approval of what was reviewed

`approve` reads the chart, its query and its rules, compares the fingerprint of what it read with
the one the administrator was shown, and writes later. The write asks only for the request that was
read: an edit between the reads and the write is published unseen. `ReadSoFar` is what is known of
the stored definition at each of the reads, as long as no edit has changed it since the first.
-/

namespace FraudAnalyzer.Charts

/-- What a stage of an approval has read. -/
def Stage.approving : Stage → Option ApproveRead
  | .approveQuery _ read => some read
  | .approveRules _ read _ => some read
  | .write _ _ (.approve read) => some read
  | _ => none

/-- The request on a row is the one that was read. -/
def ApproveRead.IsRequest (read : ApproveRead) (c : PublishColumns) : Prop :=
  c.publishRequestedAt = some read.requestedAt ∧
    c.publishRequestedBy = read.chart.publishRequestedBy

/-- What the approval promises of a step: a publication that `approve` commits has the definition
with the fingerprint that was reviewed, and resolves the request that was read. -/
def PublishesReviewed (E : Env) (s : State) (a : Action) (t : State) : Prop :=
  ∀ i now since user chart read, a = .write i now →
    s.operations i = some ⟨since, .write user chart (.approve read)⟩ →
    ((approveRequest read now).applyIf s.db user chart).isSome = true →
    (∃ c, t.db.charts.get chart.id = some c ∧
      fingerprintOf E.sha256Hex t.db c = some read.seen) ∧
    requestsOf s.db chart.id = read.requests

/-- No edit changed the definition since the approval that writes read the chart; no request that
takes effect has the requester and the instant of one that is being approved. -/
structure Undisturbed (s : State) (a : Action) : Prop where
  unchanged : ∀ i now since user chart read, a = .write i now →
    s.operations i = some ⟨since, .write user chart (.approve read)⟩ →
    Event.changed chart.id ∉ s.history.drop since
  distinct : ∀ i now since user chart requestedAt, a = .write i now →
    s.operations i = some ⟨since, .write user chart (.publish requestedAt)⟩ →
    ((requestPublish user requestedAt).applyIf s.db user chart).isSome = true →
    ∀ j op read, s.operations j = some op → op.stage.approving = some read →
      read.chart.id = chart.id →
      ¬ (requestedAt = read.requestedAt ∧ some user.id = read.chart.publishRequestedBy)

/-- What is known of the stored definition at a stage of an approval. -/
def ReadSoFar (E : Env) : Stage → Covered → Prop
  | .approveQuery _ read, d => d.chart = read.chart.toChartMapping
  | .approveRules _ read query, d =>
    d.chart = read.chart.toChartMapping ∧ d.sqlText = query.sqlText ∧
      d.rowLimit = query.rowLimit ∧ d.pollIntervalMs = query.pollIntervalMs
  | .write _ _ (.approve read), d => E.sha256Hex d.encoded.toUTF8 = read.seen
  | _, _ => True

/-- What holds of an approval in progress. -/
structure Approving (E : Env) (s : State) (since : Nat) (stage : Stage) (read : ApproveRead) :
    Prop where
  le : since ≤ s.history.length
  issued : read.chart.id ∈ s.issued
  chart : ∀ user chart, stage = .write user chart (.approve read) → chart = read.chart
  queryId : ∀ c, s.db.charts.get read.chart.id = some c → c.queryId = read.chart.queryId
  read_ : Event.changed read.chart.id ∉ s.history.drop since →
    ∀ d, coveredOf s.db read.chart.id = some d → ReadSoFar E stage d
  request : requestsOf s.db read.chart.id = read.requests ∨
    ∀ c, s.db.charts.get read.chart.id = some c → ¬ read.IsRequest c.toPublishColumns

section Reads

variable {E : Env} {s t : State} {since : Nat} {stage : Stage} {read : ApproveRead} {db : Db}

theorem coveredOf_eq_some {id : String} {d : Covered} (h : coveredOf db id = some d) :
    ∃ c query, db.charts.get id = some c ∧ db.queries.get c.queryId = some query ∧
      d = coveredDefinition query c (db.rulesOf c.queryId) := by
  unfold coveredOf at h
  obtain ⟨c, hc, h⟩ := Option.bind_eq_some_iff.mp h
  obtain ⟨query, hquery, rfl⟩ := Option.map_eq_some_iff.mp h
  exact ⟨c, query, hc, hquery, rfl⟩

/-- The first read. -/
theorem chart_of_beginRequest {user : User} {chartId : String} {request : PublishRequest}
    (h : beginRequest E.unicode db user chartId request = .ok (.approveQuery read)) :
    db.charts.get read.chart.id = some read.chart ∧ read.chart.id = chartId ∧
      read.requests = requestsOf db chartId := by
  cases request with
  | publish now =>
    obtain ⟨chart, -, h⟩ := map_eq_ok.mp h
    cases h
  | cancelRequest =>
    obtain ⟨chart, -, h⟩ := map_eq_ok.mp h
    cases h
  | approve seen =>
    obtain ⟨_, -, h⟩ := bind_eq_ok.mp h
    obtain ⟨⟨chart, requestedAt⟩, hpending, h⟩ := bind_eq_ok.mp h
    cases Except.ok.inj h
    unfold pendingChart at hpending
    split at hpending
    · cases hpending
    next row hrow =>
      split at hpending
      · cases hpending
        obtain rfl := Table.key_of_get hrow
        exact ⟨hrow, rfl, rfl⟩
      · cases hpending
  | reject reason =>
    obtain ⟨_, -, h⟩ := bind_eq_ok.mp h
    obtain ⟨⟨chart, requestedAt⟩, -, h⟩ := bind_eq_ok.mp h
    cases Except.ok.inj h
  | unpublish =>
    obtain ⟨chart, -, h⟩ := bind_eq_ok.mp h
    dsimp only at h
    split at h
    · cases h
    · cases Except.ok.inj h

/-- No call goes to the write of an approval without its reads. -/
theorem not_approving_of_beginRequest {user : User} {chartId : String} {request : PublishRequest}
    {chart : QueryChart} {call : PublishCall}
    (h : beginRequest E.unicode db user chartId request = .ok (.write chart call)) :
    (Stage.write user chart call).approving = none := by
  cases request with
  | publish now =>
    obtain ⟨chart, -, h⟩ := map_eq_ok.mp h
    cases h
    rfl
  | cancelRequest =>
    obtain ⟨chart, -, h⟩ := map_eq_ok.mp h
    cases h
    rfl
  | approve seen =>
    obtain ⟨_, -, h⟩ := bind_eq_ok.mp h
    obtain ⟨⟨chart, requestedAt⟩, -, h⟩ := bind_eq_ok.mp h
    cases Except.ok.inj h
  | reject reason =>
    obtain ⟨_, -, h⟩ := bind_eq_ok.mp h
    obtain ⟨⟨chart, requestedAt⟩, -, h⟩ := bind_eq_ok.mp h
    cases Except.ok.inj h
    rfl
  | unpublish =>
    obtain ⟨chart, -, h⟩ := bind_eq_ok.mp h
    dsimp only at h
    split at h
    · cases h
    · cases Except.ok.inj h
      rfl

/-- The comparison succeeded on what was read, which is what is stored. -/
theorem readSoFar_of_compare {user : User} {query : SavedQuery} {d : Covered}
    (hqueryId : ∀ c, db.charts.get read.chart.id = some c → c.queryId = read.chart.queryId)
    (hd : coveredOf db read.chart.id = some d)
    (hread : ReadSoFar E (.approveRules user read query) d)
    (h : compareFingerprint E.sha256Hex read query (db.rulesOf read.chart.queryId) = .ok ()) :
    E.sha256Hex d.encoded.toUTF8 = read.seen := by
  obtain ⟨c, query', hc, -, rfl⟩ := coveredOf_eq_some hd
  obtain ⟨hchart, hsql, hlimit, hpoll⟩ := hread
  have hsame : coveredDefinition query' c (db.rulesOf c.queryId) =
      coveredDefinition query read.chart (db.rulesOf read.chart.queryId) := by
    unfold coveredDefinition at hchart hsql hlimit hpoll ⊢
    dsimp only at hchart hsql hlimit hpoll
    rw [hchart, hsql, hlimit, hpoll, hqueryId c hc]
  unfold compareFingerprint definitionFingerprint at h
  split at h
  next hseen => rw [hsame, hseen]
  · cases h

/-- Each read of an approval reads what is stored. -/
theorem approving_of_advance (hknown : Known s) {old : Option Operation}
    (hadv : Advance E s old ⟨since, stage⟩)
    (hold : ∀ since stage read, old = some ⟨since, stage⟩ → stage.approving = some read →
      Approving E s since stage read)
    (hstage : stage.approving = some read) : Approving E s since stage read := by
  cases hadv with
  | reviewing hbegin =>
    obtain rfl := Option.some.inj hstage
    obtain ⟨hrow, rfl, hrequests⟩ := chart_of_beginRequest hbegin
    refine ⟨Nat.le_refl _, hknown.charts _ _ hrow, ?_, ?_, ?_, .inl hrequests.symm⟩
    · rintro user chart ⟨⟩
    · intro c hc
      obtain rfl := Option.some.inj (hrow.symm.trans hc)
      rfl
    · intro _ d hd
      obtain ⟨c, query, hc, -, rfl⟩ := coveredOf_eq_some hd
      obtain rfl := Option.some.inj (hrow.symm.trans hc)
      rfl
  | query hquery =>
    obtain rfl := Option.some.inj hstage
    have h := hold _ _ _ rfl rfl
    refine ⟨h.le, h.issued, ?_, h.queryId, ?_, h.request⟩
    · rintro user chart ⟨⟩
    · intro hunchanged d hd
      have hchart : d.chart = _ := h.read_ hunchanged d hd
      obtain ⟨c, query', hc, hquery', rfl⟩ := coveredOf_eq_some hd
      rw [h.queryId c hc] at hquery'
      obtain rfl := Option.some.inj (hquery.symm.trans hquery')
      exact ⟨hchart, rfl, rfl, rfl⟩
  | compared hsame =>
    obtain rfl := Option.some.inj hstage
    have h := hold _ _ _ rfl rfl
    refine ⟨h.le, h.issued, ?_, h.queryId, ?_, h.request⟩
    · rintro user chart heq
      injection heq with _ hchart
      exact hchart.symm
    · intro hunchanged d hd
      exact readSoFar_of_compare h.queryId hd (h.read_ hunchanged d hd) hsame
  | decided hbegin => exact absurd hstage (by simp [not_approving_of_beginRequest hbegin])
  | dismiss => cases hstage
  | opened => cases hstage
  | guarded => cases hstage
  | prepared => cases hstage

end Reads

/-! ## Requests -/

section Requests

variable {user : User} {now : Instant} {chart : QueryChart} {call : PublishCall} {db db' : Db}
  {id : String} {read : ApproveRead}

/-- Whether the write is a request to publish. -/
def PublishCall.asks (call : PublishCall) (user : User) : Prop :=
  ∃ requestedAt, call = .publish requestedAt ∧ user.isAdmin = false

/-- Any other write makes no request: it writes no such entry, and leaves at most the request that
was on the row. -/
theorem write_of_not_asks (read : ApproveRead) (h : ¬ call.asks user) :
    (∀ entry, (call.write user now).audit = some entry → entry.1 ≠ .chartPublishRequested) ∧
      ∀ c, read.IsRequest ((call.write user now).values c) → read.IsRequest c := by
  unfold PublishCall.write
  cases call with
  | publish requestedAt =>
    have hadmin : user.isAdmin = true := by
      by_contra hnot
      exact h ⟨requestedAt, rfl, by simpa using hnot⟩
    dsimp only
    rw [if_pos hadmin]
    refine ⟨?_, ?_⟩
    · rintro entry ⟨⟩
      decide
    · rintro c ⟨hnone, -⟩
      cases hnone
  | cancelRequest =>
    refine ⟨?_, ?_⟩
    · rintro entry ⟨⟩
      decide
    · rintro c ⟨hnone, -⟩
      cases hnone
  | dismissRejection =>
    refine ⟨?_, fun c hc => hc⟩
    rintro entry ⟨⟩
  | approve read' =>
    refine ⟨?_, ?_⟩
    · rintro entry ⟨⟩
      exact AuditAction.noConfusion
    · rintro c ⟨hnone, -⟩
      cases hnone
  | reject requestedAt requester reason =>
    refine ⟨?_, ?_⟩
    · rintro entry ⟨⟩
      exact AuditAction.noConfusion
    · rintro c ⟨hnone, -⟩
      cases hnone
  | unpublish =>
    refine ⟨?_, fun c hc => hc⟩
    rintro entry ⟨⟩
    decide

/-- The requests for a chart after a write that makes none for it. -/
theorem requestsOf_write {w : PublishWrite} (hw : WriteEffect w user chart db db')
    (h : chart.id = id → ∀ entry, w.audit = some entry → entry.1 ≠ .chartPublishRequested) :
    requestsOf db' id = requestsOf db id := by
  unfold requestsOf
  rw [hw.audit, List.countP_append]
  cases haudit : w.audit with
  | none => simp
  | some entry =>
    by_cases hid : chart.id = id
    · have hne := h hid entry haudit
      simp [auditEntry, hne]
    · simp [auditEntry, hid]

/-- As long as no request like the one that was read is made, it is the last one or gone. -/
theorem request_write (hw : WriteEffect (call.write user now) user chart db db')
    (hdistinct : ∀ requestedAt, call = .publish requestedAt → user.isAdmin = false →
      chart.id = id →
        ¬ (requestedAt = read.requestedAt ∧ some user.id = read.chart.publishRequestedBy))
    (h : requestsOf db id = read.requests ∨
      ∀ c, db.charts.get id = some c → ¬ read.IsRequest c.toPublishColumns) :
    requestsOf db' id = read.requests ∨
      ∀ c, db'.charts.get id = some c → ¬ read.IsRequest c.toPublishColumns := by
  by_cases hask : call.asks user ∧ chart.id = id
  · -- the new request has another instant or another requester
    obtain ⟨⟨requestedAt, rfl, hnot⟩, hid⟩ := hask
    refine .inr ?_
    rintro c' hc' ⟨hat, hby⟩
    rw [hw.charts id, if_pos hid.symm] at hc'
    obtain ⟨c, -, rfl⟩ := Option.map_eq_some_iff.mp hc'
    unfold PublishCall.write at hat hby
    dsimp only at hat hby
    rw [if_neg (by simp [hnot])] at hat hby
    exact hdistinct requestedAt rfl hnot hid ⟨Option.some.inj hat, hby⟩
  · have hother : chart.id = id → ¬ call.asks user := fun hid hasks => hask ⟨hasks, hid⟩
    have hcount : requestsOf db' id = requestsOf db id := by
      apply requestsOf_write hw
      intro hid
      exact (write_of_not_asks read (hother hid)).1
    rcases h with hsame | hgone
    · exact .inl (hcount.trans hsame)
    · refine .inr ?_
      intro c' hc' hrequest
      have hget := hw.charts id
      rw [hc'] at hget
      split at hget
      next hid =>
        obtain ⟨c, hc, rfl⟩ := Option.map_eq_some_iff.mp hget.symm
        exact hgone c hc ((write_of_not_asks read (hother hid.symm)).2 _ hrequest)
      · exact hgone c' hget.symm hrequest

end Requests

/-! ## Runs -/

section Runs

variable {E : Env} {s t : State} {a : Action} {since : Nat} {stage : Stage} {read : ApproveRead}

theorem Approving.write (h : Approving E s since stage read) {call : PublishCall} {user : User}
    {chart : QueryChart} {now : Instant}
    (hw : WriteEffect (call.write user now) user chart s.db t.db) (hissued : t.issued = s.issued)
    (hhistory : t.history = s.history ++ call.events chart.id)
    (hdistinct : ∀ requestedAt, call = .publish requestedAt → user.isAdmin = false →
      chart.id = read.chart.id →
        ¬ (requestedAt = read.requestedAt ∧ some user.id = read.chart.publishRequestedBy)) :
    Approving E t since stage read := by
  refine ⟨?_, hissued ▸ h.issued, h.chart, ?_, ?_, request_write hw hdistinct h.request⟩
  · rw [hhistory, List.length_append]
    exact Nat.le_add_right_of_le h.le
  · intro c' hc'
    obtain ⟨c, hc, hquery, -⟩ := hw.get_charts hc'
    exact hquery.trans (h.queryId c hc)
  · intro hunchanged d hd
    rw [hhistory, List.drop_append_of_le_length h.le] at hunchanged
    rw [hw.coveredOf] at hd
    exact h.read_ (fun hmem => hunchanged (List.mem_append_left _ hmem)) d hd

/-- A definition that an edit leaves unmarked is as it was. -/
theorem coveredOf_of_not_changed {db db' : Db} {id : String}
    (h : Event.changed id ∉ changedEvents db db') {c : QueryChart}
    (hc : db.charts.get id = some c) : coveredOf db' id = coveredOf db id := by
  by_contra hne
  apply h
  unfold changedEvents
  refine List.mem_map.mpr ⟨id, List.mem_filter.mpr ⟨?_, by simpa using hne⟩, rfl⟩
  exact List.mem_map.mpr ⟨c, Table.mem_of_get hc, Table.key_of_get hc⟩

theorem Approving.edit (h : Approving E s since stage read) {queryId : String} {ids : List String}
    (he : EditEffect queryId ids s.db t.db) (hids : ∀ id ∈ ids, id ∉ s.issued)
    (hissued : t.issued = s.issued ++ ids)
    (hhistory : t.history = s.history ++ changedEvents s.db t.db) :
    Approving E t since stage read := by
  have hold : ∀ c', t.db.charts.get read.chart.id = some c' →
      ∃ c, s.db.charts.get read.chart.id = some c ∧
        c'.toPublishColumns = c.toPublishColumns ∧ c'.queryId = c.queryId :=
    fun c' hc' => he.get_charts (fun hnew => hids _ hnew h.issued) hc'
  refine ⟨?_, ?_, h.chart, ?_, ?_, ?_⟩
  · rw [hhistory, List.length_append]
    exact Nat.le_add_right_of_le h.le
  · rw [hissued]
    exact List.mem_append_left _ h.issued
  · intro c' hc'
    obtain ⟨c, hc, -, hquery⟩ := hold c' hc'
    exact hquery.trans (h.queryId c hc)
  · intro hunchanged d hd
    rw [hhistory, List.drop_append_of_le_length h.le, List.mem_append, not_or] at hunchanged
    obtain ⟨c', _, hc', -, -⟩ := coveredOf_eq_some hd
    obtain ⟨c, hc, -, -⟩ := hold c' hc'
    rw [coveredOf_of_not_changed hunchanged.2 hc] at hd
    exact h.read_ hunchanged.1 d hd
  · have hcount : requestsOf t.db read.chart.id = requestsOf s.db read.chart.id := by
      unfold requestsOf
      rw [he.audit]
    rcases h.request with hsame | hgone
    · exact .inl (hcount.trans hsame)
    · refine .inr ?_
      intro c' hc' hrequest
      obtain ⟨c, hc, hcols, -⟩ := hold c' hc'
      exact hgone c hc (hcols ▸ hrequest)

/-- The invariant of the runs. -/
structure Reviewing (E : Env) (s : State) : Prop where
  known : Known s
  referential : Referential s.db
  approving : ∀ i since stage read, s.operations i = some ⟨since, stage⟩ →
    stage.approving = some read → Approving E s since stage read

theorem write_publish_of_not_admin {user : User} (h : user.isAdmin = false)
    (requestedAt now : Instant) :
    (PublishCall.publish requestedAt).write user now = requestPublish user requestedAt := by
  unfold PublishCall.write
  dsimp only
  rw [if_neg (by simp [h])]

theorem Reviewing.effect (h : Reviewing E s) (he : Effect E s a t) (hok : Undisturbed s a) :
    Reviewing E t := by
  have hknown := h.known.effect he
  cases he with
  | idle hdb hissued hhistory hops =>
    refine ⟨hknown, hdb ▸ h.referential, ?_⟩
    intro i since stage read hop hstage
    have hold : Approving E s since stage read := by
      rcases hops i _ hop with hsame | hadv
      · exact h.approving i since stage read hsame hstage
      · exact approving_of_advance h.known hadv (h.approving i) hstage
    obtain ⟨hle, hid, hchart, hquery, hread, hrequest⟩ := hold
    exact ⟨hhistory ▸ hle, hissued ▸ hid, hchart, by rw [hdb]; exact hquery,
      by rw [hdb, hhistory]; exact hread, by rw [hdb]; exact hrequest⟩
  | @write i since user chart call now db hop happly =>
    have hw := PublishWrite.writeEffect happly
    refine ⟨hknown, ?_, ?_⟩
    · intro id c' hc'
      obtain ⟨c, hc, hquery, -⟩ := hw.get_charts hc'
      rw [hquery, hw.queries]
      exact h.referential id c hc
    · intro j since' stage read hop' hstage
      have hother := of_operations_drop hop'
      refine (h.approving j since' stage read hother hstage).write hw rfl rfl ?_
      rintro requestedAt rfl hnot hid
      refine hok.distinct i now since user chart requestedAt rfl hop ?_ j _ read hother hstage
        hid.symm
      rw [← write_publish_of_not_admin hnot requestedAt now, happly]
      rfl
  | edit hop hids hcommit =>
    have heff := EditOp.commit_effect (h.known.loaded _ _ _ _ hop).stored hcommit
    refine ⟨hknown, heff.referential h.referential, ?_⟩
    intro j since' stage read hop' hstage
    exact (h.approving j since' stage read (of_operations_drop hop') hstage).edit heff hids rfl rfl

/-- The commit of an approval. -/
theorem Reviewing.publishesReviewed (h : Reviewing E s) (hstep : step E s a = some t)
    (hok : Undisturbed s a) : PublishesReviewed E s a t := by
  rintro i now since user chart read rfl hop hsome
  obtain ⟨db, happly⟩ := Option.isSome_iff_exists.mp hsome
  have hw : WriteEffect (PublishCall.write (.approve read) user now) user chart s.db db :=
    PublishWrite.writeEffect happly
  have hdb : t.db = db := by
    simp only [step, hop, PublishCall.write, happly] at hstep
    obtain rfl := Option.some.inj hstep
    rfl
  have happroving := h.approving i since _ read hop rfl
  obtain rfl := happroving.chart user chart rfl
  obtain ⟨row, hrow, hcond⟩ := hw.row
  have hrequest : read.IsRequest row.toPublishColumns := by
    have hcols : (row.isPublic = false ∧ row.publishRequestedAt = some read.requestedAt) ∧
        row.publishRequestedBy = read.chart.publishRequestedBy := by
      simpa [PublishCall.write, approveRequest, sameRequest] using hcond
    exact ⟨hcols.1.2, hcols.2⟩
  refine ⟨?_, ?_⟩
  · obtain ⟨query, hquery⟩ := Option.isSome_iff_exists.mp (h.referential _ row hrow)
    have hcovered : coveredOf s.db read.chart.id =
        some (coveredDefinition query row (s.db.rulesOf row.queryId)) := by
      unfold coveredOf
      rw [hrow, Option.bind_some, hquery]
      rfl
    have hseen := happroving.read_ (hok.unchanged i now since user _ read rfl hop) _ hcovered
    refine ⟨setPublish (approveRequest read now).values row, ?_, ?_⟩
    · rw [hdb, hw.charts, if_pos rfl, hrow]
      rfl
    · unfold fingerprintOf
      rw [hdb, hw.queries, hw.rulesOf]
      show (s.db.queries.get row.queryId).map _ = _
      rw [hquery]
      exact congrArg some hseen
  · rcases happroving.request with hsame | hgone
    · exact hsame
    · exact absurd hrequest (hgone row hrow)

end Runs

/-- **Approval publishes what was reviewed in every undisturbed run**: as long as no edit changes
the definition between the approval's first read and its write, the definition that is published
has the fingerprint that was seen, and the request that is resolved is the one that was read. -/
theorem publishesReviewed_of_undisturbed (E : Env) {db : Db} (hdb : Referential db)
    {as : List Action} {s t : State} {a : Action}
    (h : Machine.Run (step E) Undisturbed (State.start db) as s) (hstep : step E s a = some t)
    (hok : Undisturbed s a) : PublishesReviewed E s a t := by
  have hreviewing : Reviewing E s := by
    refine h.invariant (fun _ _ _ hI hs hok => hI.effect (effect_of_step hs) hok) ?_
    exact ⟨known_start db, hdb, fun i since stage read hop => by cases hop⟩
  exact hreviewing.publishesReviewed hstep hok

namespace Sample

/-- The fingerprint an administrator is shown. -/
def seen : String := definitionFingerprint bytesDigest query chart []

theorem referential_pendingDb : Referential pendingDb := by
  intro id c hc
  have hmem : c ∈ [_] := Table.mem_of_get hc
  obtain rfl := List.mem_singleton.mp hmem
  rfl

/-- The steps of an approval before it writes. -/
def reviewing : List Action :=
  [.beginPublish 1 admin "c" (.approve seen), .readQuery 1, .readRules 1]

/-- An edit of the query by another administrator, which only renames it. -/
def renameEdit : List Action :=
  [.openEdit 2 admin "q" (.updateQuery { name := some (some "Renamed") }), .guardEdit 2,
    .prepareEdit 2, .commitEdit 2 []]

end Sample

theorem undisturbed_of_ne {s : State} {a : Action} (h : ∀ i now, a ≠ .write i now) :
    Undisturbed s a :=
  ⟨fun i now _ _ _ _ ha => absurd ha (h i now), fun i now _ _ _ _ ha => absurd ha (h i now)⟩

theorem step_readRules_of_same {E : Env} {s : State} {i since : Nat} {user : User}
    {read : ApproveRead} {query : SavedQuery}
    (hop : s.operations i = some ⟨since, .approveRules user read query⟩)
    (h : definitionFingerprint E.sha256Hex query read.chart (s.db.rulesOf read.chart.queryId) =
      read.seen) :
    step E s (.readRules i) = some (s.put i ⟨since, .write user read.chart (.approve read)⟩) := by
  unfold step
  dsimp only
  rw [hop]
  dsimp only
  unfold compareFingerprint
  rw [if_pos h]

theorem undisturbed_of_notMem {as : List Action} (h : ∀ i now, Action.write i now ∉ as) :
    ∀ a ∈ as, ∀ s, Undisturbed s a := by
  intro a ha s
  refine undisturbed_of_ne fun i now => ?_
  rintro rfl
  exact h i now ha

/-- The edit commits between the comparison and the write. -/
theorem publishesReviewed_of_undisturbed_renamed :
    ∃ s t, Machine.Run (step Sample.env) Undisturbed (State.start Sample.pendingDb)
        (Sample.reviewing ++ Sample.renameEdit) s ∧
      step Sample.env s (.write 1 7) = some t ∧ t.db.auditLogs.length = 1 ∧
      t.db.queries.rows.map SavedQuery.name = ["Renamed"] ∧
      PublishesReviewed Sample.env s (.write 1 7) t := by
  have happroval := @Machine.Run.cons _ _ (step Sample.env) Undisturbed
    (State.start Sample.pendingDb) _ _ (.beginPublish 1 Sample.admin "c" (.approve Sample.seen)) _
    rfl (undisturbed_of_ne (by rintro i now ⟨⟩))
    (.cons (a := .readQuery 1) rfl (undisturbed_of_ne (by rintro i now ⟨⟩))
      (.cons (a := .readRules 1) (step_readRules_of_same rfl rfl)
        (undisturbed_of_ne (by rintro i now ⟨⟩)) (.nil _)))
  have hedit : ∀ a ∈ Sample.renameEdit, ∀ s, Undisturbed s a :=
    undisturbed_of_notMem (by simp [Sample.renameEdit])
  have hrun := happroval.append (Machine.run_of_exec_of_forall hedit rfl)
  refine ⟨_, _, hrun, rfl, rfl, rfl,
    publishesReviewed_of_undisturbed Sample.env Sample.referential_pendingDb hrun rfl ⟨?_, ?_⟩⟩
  · intro i now since user chart read _ _
    show Event.changed _ ∉ List.drop since []
    simp
  · rintro i now since user chart requestedAt ⟨⟩ ⟨⟩

/-- An edit that commits there and changes the statement is published unseen. -/
theorem edit_between_comparison_and_write :
    ∃ s t, Machine.Run (step Sample.env) Machine.Always (State.start Sample.pendingDb)
        [.beginPublish 1 Sample.admin "c" (.approve Sample.seen), .readQuery 1, .readRules 1,
          .openEdit 2 Sample.admin "q" (.updateQuery { sqlText := some (some "SELECT 2") }),
          .guardEdit 2, .prepareEdit 2, .commitEdit 2 []] s ∧
      step Sample.env s (.write 1 7) = some t ∧
      ¬ PublishesReviewed Sample.env s (.write 1 7) t := by
  refine ⟨_, _, .cons rfl trivial (.cons rfl trivial (.cons (step_readRules_of_same rfl rfl) trivial
    (Machine.run_of_exec rfl))), rfl, ?_⟩
  intro h
  obtain ⟨⟨c, hc, hfingerprint⟩, -⟩ := h 1 7 _ _ _ _ rfl rfl rfl
  cases hc
  have hseen : definitionFingerprint bytesDigest _ _ _ = Sample.seen :=
    Option.some.inj hfingerprint
  have hcovered := (fingerprint_eq_iff_covered_eq bytesDigest_injective).mp hseen
  exact absurd (congrArg Covered.sqlText hcovered) (by decide)

end FraudAnalyzer.Charts
