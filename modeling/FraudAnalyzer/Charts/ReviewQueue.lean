import FraudAnalyzer.Charts.Approval
import FraudAnalyzer.Charts.Freeze
import FraudAnalyzer.Store

/-!
# The review queue

`list_pending` of `app/features/charts/service.py` shows an administrator each waiting request with
the fingerprint that `approve` must be given back. It reads the charts and their queries first and
the rules of one chart after another, and the administrator decides later still. A listed request
does not go stale by itself, nor by what the author of the query does short of withdrawing it: until
somebody decides it or an administrator edits the query, approving what was listed publishes it.
-/

namespace FraudAnalyzer.Charts

open Queries

/-! ## What the queue shows -/

structure RequesterRead where
  id : String
  fullName : String
  email : String
  deriving DecidableEq

/-- One waiting request, with enough to know what is being approved. -/
structure PublishRequestRead where
  chart : QueryChart
  queryId : String
  queryName : String
  connectionId : String
  connectionName : String
  requestedBy : RequesterRead
  requestedAt : Instant
  definitionFingerprint : String
  deriving DecidableEq

/-- `publish_requested_at` -/
def requestedEarlier (a b : QueryChart) : Bool :=
  match a.publishRequestedAt, b.publishRequestedAt with
  | none, _ => true
  | some _, none => false
  | some ta, some tb => ta ≤ tb

/-- The charts of `list_pending`, oldest request first. -/
def pendingCharts (db : Db) : List QueryChart :=
  (db.charts.rows.filter fun c => c.publishRequestedAt.isSome && !c.isPublic).insertionSort
    fun a b => requestedEarlier a b

/-- `chart.requester`, as the response shows it. -/
def requesterOf (s : Store) (chart : QueryChart) : Option RequesterRead :=
  (chart.publishRequestedBy.bind s.users.get).map fun u => ⟨u.id, u.fullName, u.email⟩

/-- The body of the loop of `list_pending`, with the query that was loaded with the chart. -/
def pendingRequest (E : Env) (s : Store) (chart : QueryChart) (query : SavedQuery) :
    Option PublishRequestRead :=
  (requesterOf s chart).bind fun requester =>
    chart.publishRequestedAt.map fun requestedAt =>
      { chart := chart
        queryId := chart.queryId
        queryName := query.name
        connectionId := query.connectionId
        connectionName := ((s.connections.get query.connectionId).map
          Connections.Connection.name).getD ""
        requestedBy := requester
        requestedAt := requestedAt
        definitionFingerprint :=
          definitionFingerprint E.sha256Hex query chart (s.db.rulesOf chart.queryId) }

/-- `list_pending`, where nothing is committed while it reads: one request without a requester, and
the response is none. -/
def listPending (E : Env) (s : Store) (user : User) : Except AppError (List PublishRequestRead) :=
  match requireAdmin user with
  | .error e => .error e
  | .ok () =>
    match (pendingCharts s.db).mapM fun chart =>
        (s.db.queries.get chart.queryId).bind (pendingRequest E s chart) with
    | some requests => .ok requests
    | none => .error internalError

theorem mem_pendingCharts {db : Db} {chart : QueryChart} :
    chart ∈ pendingCharts db ↔
      db.charts.get chart.id = some chart ∧ chart.publishStatus = .pending := by
  have hpending : (chart.publishRequestedAt.isSome && !chart.isPublic) = true ↔
      chart.publishStatus = .pending := by
    unfold PublishColumns.publishStatus
    cases chart.isPublic with
    | true => simp
    | false => cases chart.publishRequestedAt <;> simp
  rw [pendingCharts, (List.perm_insertionSort _ _).mem_iff, List.mem_filter, hpending]
  constructor
  · rintro ⟨hmem, hstatus⟩
    exact ⟨Table.get_of_mem hmem, hstatus⟩
  · rintro ⟨hget, hstatus⟩
    exact ⟨Table.mem_of_get hget, hstatus⟩

theorem of_pendingRequest {E : Env} {s : Store} {chart : QueryChart} {query : SavedQuery}
    {request : PublishRequestRead} (h : pendingRequest E s chart query = some request) :
    request.chart = chart ∧ chart.publishRequestedAt = some request.requestedAt ∧
      chart.publishRequestedBy.isSome = true ∧
      request.definitionFingerprint =
        definitionFingerprint E.sha256Hex query chart (s.db.rulesOf chart.queryId) := by
  obtain ⟨requester, hrequester, h⟩ := Option.bind_eq_some_iff.mp h
  obtain ⟨requestedAt, hat, rfl⟩ := Option.map_eq_some_iff.mp h
  refine ⟨rfl, hat, ?_, rfl⟩
  unfold requesterOf at hrequester
  obtain ⟨u, hu, -⟩ := Option.map_eq_some_iff.mp hrequester
  obtain ⟨id, hid, -⟩ := Option.bind_eq_some_iff.mp hu
  rw [hid]
  rfl

/-- The entries of a queue are those of its charts, in their order. -/
theorem of_mapM_pending {f : QueryChart → Option PublishRequestRead}
    (hf : ∀ chart request, f chart = some request → request.chart = chart)
    {charts : List QueryChart} {requests : List PublishRequestRead}
    (h : charts.mapM f = some requests) :
    requests.map PublishRequestRead.chart = charts ∧
      ∀ request ∈ requests, f request.chart = some request := by
  induction charts generalizing requests with
  | nil =>
    rw [List.mapM_nil] at h
    obtain rfl := Option.some.inj h
    exact ⟨rfl, fun _ hmem => by cases hmem⟩
  | cons chart charts ih =>
    rw [List.mapM_cons] at h
    obtain ⟨request, hrequest, h⟩ := Option.bind_eq_some_iff.mp h
    obtain ⟨rest, hrest, h⟩ := Option.bind_eq_some_iff.mp h
    obtain rfl := Option.some.inj h
    obtain ⟨hcharts, hentries⟩ := ih hrest
    have hchart := hf chart request hrequest
    refine ⟨by rw [List.map_cons, hchart, hcharts], ?_⟩
    rw [List.forall_mem_cons]
    exact ⟨by rw [hchart]; exact hrequest, hentries⟩

/-- Only an administrator sees the queue, which has every waiting request and no other. -/
theorem of_listPending {E : Env} {s : Store} {user : User} {requests : List PublishRequestRead}
    (h : listPending E s user = .ok requests) :
    user.isAdmin = true ∧ requests.map PublishRequestRead.chart = pendingCharts s.db ∧
      ∀ request ∈ requests, ∃ query, s.db.queries.get request.chart.queryId = some query ∧
        pendingRequest E s request.chart query = some request := by
  unfold listPending at h
  split at h
  · cases h
  next hadmin =>
    split at h
    next found hfound =>
      obtain rfl := Except.ok.inj h
      obtain ⟨hcharts, hentries⟩ := of_mapM_pending (fun chart request hrequest => by
        obtain ⟨query, -, hread⟩ := Option.bind_eq_some_iff.mp hrequest
        exact (of_pendingRequest hread).1) hfound
      refine ⟨?_, hcharts, fun request hmem => Option.bind_eq_some_iff.mp (hentries request hmem)⟩
      unfold requireAdmin at hadmin
      split at hadmin
      next hyes => exact hyes
      · cases hadmin
    · cases h

/-! ## Waiting -/

/-- A write that decides a request, or takes it back. -/
def PublishCall.decides (call : PublishCall) (user : User) : Prop :=
  match call with
  | .publish _ => user.isAdmin = true
  | .cancelRequest | .approve _ | .reject _ _ _ => True
  | .dismissRejection | .unpublish => False

/-- The step neither decides the request on the chart nor edits its query in the administrator's
name, and no edit overtakes. -/
structure Spares (chart : QueryChart) (s : State) (a : Action) : Prop where
  overtakes : NotOvertaking s a
  undecided : ∀ i now since user read call, a = .write i now →
    s.operations i = some ⟨since, .write user read call⟩ → read.id = chart.id →
    ¬ call.decides user
  unedited : ∀ i ids since op loaded, a = .commitEdit i ids →
    s.operations i = some ⟨since, .prepared op loaded⟩ → op.query.id = chart.queryId →
    op.user.isAdmin = false

/-- The request that was on the chart still waits, on the definition `d`. -/
structure Waiting (chart : QueryChart) (d : Covered) (s : State) : Prop where
  row : ∃ c, s.db.charts.get chart.id = some c ∧ c.toPublishColumns = chart.toPublishColumns ∧
    c.queryId = chart.queryId
  covered : coveredOf s.db chart.id = some d

section Waiting

variable {E : Env} {s t : State} {a : Action} {chart : QueryChart} {d : Covered}

theorem PublishColumns.of_pending {c : PublishColumns} (h : c.publishStatus = .pending) :
    c.isPublic = false ∧ ∃ requestedAt, c.publishRequestedAt = some requestedAt := by
  unfold PublishColumns.publishStatus at h
  split at h
  · cases h
  next hprivate =>
    split at h
    next hat => exact ⟨by simpa using hprivate, Option.isSome_iff_exists.mp hat⟩
    · cases h

/-- No other write matches the row of a waiting request. -/
theorem conditions_of_not_decides {call : PublishCall} {user : User} {now : Instant}
    {c : PublishColumns} (h : ¬ call.decides user) (hpending : c.publishStatus = .pending) :
    (call.write user now).conditions c = false := by
  obtain ⟨hprivate, requestedAt, hat⟩ := PublishColumns.of_pending hpending
  cases call with
  | publish => 
    have hadmin : user.isAdmin = false := by simpa [PublishCall.decides] using h
    rw [write_publish_of_not_admin hadmin]
    simp [requestPublish, hat]
  | cancelRequest => exact absurd trivial h
  | dismissRejection => simp [PublishCall.write, clearRejection, hat]
  | approve => exact absurd trivial h
  | reject => exact absurd trivial h
  | unpublish => simp [PublishCall.write, retract, hprivate]

theorem Waiting.write (h : Waiting chart d s) (hpending : chart.publishStatus = .pending)
    {call : PublishCall} {user : User} {read : QueryChart} {now : Instant}
    (hdecides : read.id = chart.id → ¬ call.decides user)
    (hw : WriteEffect (call.write user now) user read s.db t.db) : Waiting chart d t := by
  obtain ⟨c, hc, hcolumns, hquery⟩ := h.row
  have hother : chart.id ≠ read.id := by
    intro hid
    obtain ⟨row, hrow, hconditions⟩ := hw.row
    obtain rfl := Option.some.inj (hc.symm.trans (hid ▸ hrow))
    rw [conditions_of_not_decides (hdecides hid.symm) (hcolumns ▸ hpending)] at hconditions
    cases hconditions
  refine ⟨⟨c, ?_, hcolumns, hquery⟩, ?_⟩
  · rw [hw.charts, if_neg hother]
    exact hc
  · rw [hw.coveredOf]
    exact h.covered

theorem isFrozen_of_pending {c : PublishColumns} (h : c.publishStatus = .pending) :
    c.isFrozen = true := by
  obtain ⟨-, requestedAt, hat⟩ := PublishColumns.of_pending h
  simp [PublishColumns.isFrozen, hat]

theorem Waiting.edit (h : Waiting chart d s) {queryId : String} {ids : List String}
    (he : EditEffect queryId ids s.db t.db) (hnew : chart.id ∉ ids)
    (hkeeps : (t.db.charts.get chart.id).isSome = true ∧
      coveredOf t.db chart.id = coveredOf s.db chart.id) : Waiting chart d t := by
  obtain ⟨c, hc, hcolumns, hquery⟩ := h.row
  obtain ⟨c', hc'⟩ := Option.isSome_iff_exists.mp hkeeps.1
  obtain ⟨old, hold, hcolumns', hquery'⟩ := he.get_charts hnew hc'
  obtain rfl := Option.some.inj (hc.symm.trans hold)
  exact ⟨⟨c', hc', hcolumns'.trans hcolumns, hquery'.trans hquery⟩, hkeeps.2.trans h.covered⟩

/-- **A request keeps waiting**, on the definition it is for, through every step that spares it. -/
theorem Waiting.step (h : Waiting chart d s) (hpending : chart.publishStatus = .pending)
    (hguarded : Guarded s) (hstep : Charts.step E s a = some t) (hok : Spares chart s a) :
    Waiting chart d t := by
  cases effect_of_step hstep with
  | idle hdb _ _ _ =>
    obtain ⟨hrow, hcovered⟩ := h
    exact ⟨by rw [hdb]; exact hrow, by rw [hdb]; exact hcovered⟩
  | write hop happly =>
    exact h.write hpending (fun hid => hok.undecided _ _ _ _ _ _ rfl hop hid)
      (PublishWrite.writeEffect happly)
  | @edit i since op loaded ids db hop hids hcommit =>
    have heff := EditOp.commit_effect (hguarded.known.loaded _ _ _ _ hop).stored hcommit
    obtain ⟨c, hc, hcolumns, hquery⟩ := h.row
    have hnew : chart.id ∉ ids := fun hid => hids _ hid (hguarded.known.charts _ _ hc)
    refine h.edit heff hnew ?_
    by_cases hsame : op.query.id = chart.queryId
    · -- an edit of this query is not the administrator's, so the freeze holds
      have huser := hok.unedited i ids since op loaded rfl hop hsame
      exact hguarded.keepsFrozen hstep hok.overtakes i ids since op loaded rfl hop huser _ c hc
        (isFrozen_of_pending (hcolumns ▸ hpending))
    · exact heff.coveredOf hc fun heq => hsame (heq.symm.trans hquery)

theorem Waiting.run (h : Waiting chart d s) (hpending : chart.publishStatus = .pending)
    (hguarded : Guarded s) {as : List Action}
    (hrun : Machine.Run (Charts.step E) (Spares chart) s as t) :
    Guarded t ∧ Waiting chart d t := by
  refine hrun.invariant (I := fun s => Guarded s ∧ Waiting chart d s) ?_ ⟨hguarded, h⟩
  rintro s a t ⟨hg, hw⟩ hstep hok
  exact ⟨hg.effect (effect_of_step hstep), hw.step hpending hg hstep hok⟩

end Waiting

/-! ## Approving what was listed -/

/-- The calls of an approval, with nothing in between. -/
def approval (i : Nat) (admin : User) (chartId seen : String) (now : Instant) : List Action :=
  [.beginPublish i admin chartId (.approve seen), .readQuery i, .readRules i, .write i now]

/-- The approval published the chart in the name of who asked, with the definition that was stored
when it was listed. -/
structure PublishedAs (E : Env) (request : PublishRequestRead) (admin : User) (now : Instant)
    (listed : Db) (s t : State) : Prop where
  row : ∃ c, s.db.charts.get request.chart.id = some c ∧
    t.db.charts.get request.chart.id = some
      { c with
        isPublic := true, publishedBy := request.chart.publishRequestedBy, publishedAt := some now
        publishRequestedBy := none, publishRequestedAt := none
        publishRejectedBy := none, publishRejectedAt := none, publishRejectedReason := none } ∧
    t.db.auditLogs = s.db.auditLogs ++ [auditEntry admin c .chartPublishApproved
      [("requested_by", .ofOption .str request.chart.publishRequestedBy)]]
  definition : ∃ d, coveredOf listed request.chart.id = some d ∧
    coveredOf t.db request.chart.id = some d ∧
    E.sha256Hex d.encoded.toUTF8 = request.definitionFingerprint
  others : ∀ id, id ≠ request.chart.id → t.db.charts.get id = s.db.charts.get id

section Approval

variable {E : Env} {s : State} {i since : Nat} {admin : User} {now : Instant}

theorem step_beginPublish_approve (hadmin : admin.isAdmin = true) {id seen : String}
    {c : QueryChart} {requestedAt : Instant} (hc : s.db.charts.get id = some c)
    (hprivate : c.isPublic = false) (hat : c.publishRequestedAt = some requestedAt) :
    step E s (.beginPublish i admin id (.approve seen)) =
      some (s.put i ⟨s.history.length,
        .approveQuery admin ⟨c, requestedAt, seen, requestsOf s.db id⟩⟩) := by
  have hpending : pendingChart s.db id = .ok (c, requestedAt) := by
    unfold pendingChart
    rw [hc]
    dsimp only
    rw [hprivate, hat]
  have hbegin : beginRequest E.unicode s.db admin id (.approve seen) =
      .ok (.approveQuery ⟨c, requestedAt, seen, requestsOf s.db id⟩) := by
    unfold beginRequest requireAdmin
    rw [if_pos hadmin, hpending]
    rfl
  unfold step
  dsimp only
  rw [hbegin]
  rfl

theorem step_readQuery_of_get {read : ApproveRead} {query : SavedQuery}
    (hop : s.operations i = some ⟨since, .approveQuery admin read⟩)
    (hquery : s.db.queries.get read.chart.queryId = some query) :
    step E s (.readQuery i) = some (s.put i ⟨since, .approveRules admin read query⟩) := by
  unfold step
  dsimp only
  rw [hop]
  dsimp only
  rw [hquery]

theorem step_write_of_applyIf {chart : QueryChart} {call : PublishCall} {db : Db}
    (hop : s.operations i = some ⟨since, .write admin chart call⟩)
    (happly : (call.write admin now).applyIf s.db admin chart = some db) :
    step E s (.write i now) =
      some { s.drop i with db := db, history := s.history ++ call.events chart.id } := by
  unfold step
  dsimp only
  rw [hop]
  dsimp only
  rw [happly]

theorem operations_put_self (op : Operation) : (s.put i op).operations i = some op :=
  Function.update_self _ _ _

/-- An approval of the definition that is stored goes through. -/
theorem exec_approval {id seen : String} {c : QueryChart} {query : SavedQuery}
    {requestedAt : Instant} (hadmin : admin.isAdmin = true) (hc : s.db.charts.get id = some c)
    (hprivate : c.isPublic = false) (hat : c.publishRequestedAt = some requestedAt)
    (hquery : s.db.queries.get c.queryId = some query)
    (hseen : definitionFingerprint E.sha256Hex query c (s.db.rulesOf c.queryId) = seen) :
    ∃ read t, Machine.exec (step E) s (approval i admin id seen now) = some t ∧
      read.chart = c ∧ WriteEffect (approveRequest read now) admin c s.db t.db := by
  let read : ApproveRead := ⟨c, requestedAt, seen, requestsOf s.db id⟩
  let s₁ := s.put i ⟨s.history.length, .approveQuery admin read⟩
  let s₂ := s₁.put i ⟨s.history.length, .approveRules admin read query⟩
  let s₃ := s₂.put i ⟨s.history.length, .write admin c (.approve read)⟩
  have h₁ : step E s (.beginPublish i admin id (.approve seen)) = some s₁ :=
    step_beginPublish_approve hadmin hc hprivate hat
  have h₂ : step E s₁ (.readQuery i) = some s₂ :=
    step_readQuery_of_get (operations_put_self _) hquery
  have h₃ : step E s₂ (.readRules i) = some s₃ :=
    step_readRules_of_same (operations_put_self _) hseen
  obtain ⟨db, hdb⟩ : ∃ db, (approveRequest read now).applyIf s.db admin c = some db := by
    refine Option.ne_none_iff_exists'.mp fun hnone => PublishWrite.applyIf_eq_none.mp hnone ?_
    refine ⟨c, Table.key_of_get hc ▸ hc, ?_⟩
    simp [approveRequest, sameRequest, read, hprivate, hat]
  have hexec : Machine.exec (step E) s (approval i admin id seen now) =
      step E s₃ (.write i now) := by
    simp only [approval, Machine.exec, h₁, h₂, h₃, Option.bind_some, Option.bind_fun_some]
  have h₄ := @step_write_of_applyIf E s₃ i _ admin now c (.approve read) db
    (operations_put_self _) hdb
  exact ⟨read, _, hexec.trans h₄, rfl, PublishWrite.writeEffect hdb⟩

/-- The definition that is hashed with the rules of another moment. -/
theorem definitionFingerprint_of_covered {sha256Hex : Sha256Hex} {query : SavedQuery}
    {chart : QueryChart} {rules rules' : List FlagRule} {d : Covered}
    (h : coveredDefinition query chart rules = d)
    (hrules : (sortedBy FlagRule.position rules').map FlagRule.covered = d.rules) :
    definitionFingerprint sha256Hex query chart rules' = sha256Hex d.encoded.toUTF8 := by
  have hsame : coveredDefinition query chart rules' = d := by
    rw [← h] at hrules ⊢
    unfold coveredDefinition at hrules ⊢
    dsimp only at hrules
    rw [hrules]
  rw [definitionFingerprint, hsame]

end Approval

/-- **What the queue shows stays approvable.** In a run in which no edit overtakes, a request that
is listed, the rules being read at any time after the chart and its query, is published by an
approval that gives back the fingerprint that was listed, whatever else has happened in between. -/
theorem approvable_of_run (E : Env) {db : Db} {as₀ as₁ as₂ : List Action} {s₀ s₁ s₂ : State}
    (h₀ : Machine.Run (step E) NotOvertaking (State.start db) as₀ s₀) {chart : QueryChart}
    (hchart : chart ∈ pendingCharts s₀.db) {query : SavedQuery}
    (hquery : s₀.db.queries.get chart.queryId = some query)
    (h₁ : Machine.Run (step E) (Spares chart) s₀ as₁ s₁) {store : Store}
    (hstore : store.db = s₁.db) {request : PublishRequestRead}
    (hrequest : pendingRequest E store chart query = some request)
    (h₂ : Machine.Run (step E) (Spares chart) s₁ as₂ s₂) {admin : User}
    (hadmin : admin.isAdmin = true) (i : Nat) (now : Instant) :
    ∃ t, Machine.exec (step E) s₂
        (approval i admin chart.id request.definitionFingerprint now) = some t ∧
      PublishedAs E request admin now s₁.db s₂ t := by
  obtain ⟨hrow, hpending⟩ := mem_pendingCharts.mp hchart
  obtain ⟨rfl, -, -, hfingerprint⟩ := of_pendingRequest hrequest
  have hguarded : Guarded s₀ := by
    refine h₀.invariant (fun _ _ _ hI hs _ => Guarded.effect hI (effect_of_step hs)) ?_
    exact ⟨known_start db, fun i since stage op hop => by cases hop⟩
  -- the definition is the one of the first read, through to the approval
  obtain ⟨d, hd⟩ : ∃ d, coveredDefinition query request.chart
      (s₀.db.rulesOf request.chart.queryId) = d := ⟨_, rfl⟩
  have hwaiting : Waiting request.chart d s₀ := by
    refine ⟨⟨_, hrow, rfl, rfl⟩, ?_⟩
    rw [coveredOf, hrow, Option.bind_some, hquery, Option.map_some, hd]
  obtain ⟨hguarded₁, hwaiting₁⟩ := hwaiting.run hpending hguarded h₁
  obtain ⟨-, hwaiting₂⟩ := hwaiting₁.run hpending hguarded₁ h₂
  have hlisted : request.definitionFingerprint = E.sha256Hex d.encoded.toUTF8 := by
    obtain ⟨c, query₁, hc, -, hd₁⟩ := coveredOf_eq_some hwaiting₁.covered
    obtain ⟨c', hc', -, hquery'⟩ := hwaiting₁.row
    obtain rfl := Option.some.inj (hc.symm.trans hc')
    rw [hfingerprint, hstore]
    refine definitionFingerprint_of_covered hd ?_
    rw [hd₁, hquery']
    rfl
  obtain ⟨c, query₂, hc, hget, hd₂⟩ := coveredOf_eq_some hwaiting₂.covered
  obtain ⟨c', hc', hcolumns, -⟩ := hwaiting₂.row
  obtain rfl := Option.some.inj (hc.symm.trans hc')
  obtain ⟨hprivate, requestedAt, hat⟩ := PublishColumns.of_pending (hcolumns ▸ hpending)
  have hseen : definitionFingerprint E.sha256Hex query₂ c (s₂.db.rulesOf c.queryId) =
      request.definitionFingerprint := by
    rw [hlisted, hd₂]
    rfl
  obtain ⟨read, t, hexec, hread, hw⟩ :=
    @exec_approval E s₂ i admin now _ _ c query₂ requestedAt hadmin hc hprivate hat hget hseen
  have hid := Table.key_of_get hc
  have hby : c.publishRequestedBy = request.chart.publishRequestedBy :=
    congrArg PublishColumns.publishRequestedBy hcolumns
  refine ⟨t, hexec, ⟨c, hc, ?_, ?_⟩, ⟨d, hwaiting₁.covered, ?_, hlisted.symm⟩, ?_⟩
  · rw [hw.charts, if_pos hid.symm, hc, Option.map_some]
    simp only [setPublish, approveRequest, noRejection, noRequest, hread, hby]
  · rw [hw.audit]
    simp only [approveRequest, hread, hby]
    rfl
  · rw [hw.coveredOf]
    exact hwaiting₂.covered
  · intro id hne
    rw [hw.charts, if_neg (hid ▸ hne)]

theorem spares_of_ne {chart : QueryChart} {s : State} {a : Action}
    (hwrite : ∀ i now, a ≠ .write i now)
    (hcommit : ∀ i ids, a ≠ .commitEdit i ids) : Spares chart s a :=
  ⟨notOvertaking_of_ne hcommit, fun i now _ _ _ _ h => absurd h (hwrite i now),
    fun i ids _ _ _ h => absurd h (hcommit i ids)⟩

/-- Who is no administrator decides nothing by asking. -/
theorem spares_of_asks {chart read : QueryChart} {s : State} {i since : Nat} {user : User}
    {requestedAt now : Instant} (huser : user.isAdmin = false)
    (hop : s.operations i = some ⟨since, .write user read (.publish requestedAt)⟩) :
    Spares chart s (.write i now) := by
  refine ⟨notOvertaking_of_ne (fun _ _ h => by cases h), ?_, fun _ _ _ _ _ h => by cases h⟩
  rintro i now since user read call ⟨⟩ hop' - hdecides
  cases hop.symm.trans hop'
  rw [PublishCall.decides, huser] at hdecides
  cases hdecides

namespace QueueSample

def requester : Users.User :=
  ⟨"ann", "ann@example.com", "Ann", "", .analyst, true, false, none, 0, none, none⟩

/-- The pages' tables around a database. -/
def store (db : Db) : Store :=
  ⟨db, Table.empty, ⟨[requester], by decide⟩, fun _ => 0, Table.empty, []⟩

/-- The length stands for the hash. -/
def env : Env := ⟨.ascii, fun bytes => toString bytes.size, .default⟩

def asking : List Action := [.beginPublish 1 Sample.author "c" (.publish 5), .write 1 6]

/-- The author asks again, and tries to edit the query. -/
def asksAgain : List Action :=
  [.beginPublish 2 Sample.author "c" (.publish 8), .write 2 8,
    .openEdit 3 Sample.author "q" (.updateQuery { sqlText := some (some "SELECT 10") }),
    .guardEdit 3]

def adminEdits : List Action :=
  [.openEdit 2 Sample.admin "q" (.updateQuery { sqlText := some (some "SELECT 10") }),
    .guardEdit 2, .prepareEdit 2, .commitEdit 2 []]

/-- The fingerprint that the queue shows. -/
def listed (s : State) : String :=
  ((listPending env (store s.db) Sample.admin).toOption.bind fun requests =>
    requests.head?.map PublishRequestRead.definitionFingerprint).getD ""

/-- Whether the approval of what is listed, with these steps in between, publishes the chart. -/
def approves (between : List Action) : Bool :=
  (Machine.exec (step env) (State.start Sample.db) asking).any fun s =>
    (Machine.exec (step env) s between).any fun s' =>
      (Machine.exec (step env) s' (approval 4 Sample.admin "c" (listed s) 9)).any fun t =>
        (t.db.charts.get "c").any fun c => c.isPublic

end QueueSample

/-- The author asks again, and tries to edit, before the administrator approves. -/
theorem approvable_of_run_asksAgain :
    ∃ s₁ s₂ request t,
      Machine.exec (step QueueSample.env) (State.start Sample.db) QueueSample.asking = some s₁ ∧
      Machine.exec (step QueueSample.env) s₁ QueueSample.asksAgain = some s₂ ∧
      Machine.exec (step QueueSample.env) s₂
        (approval 4 Sample.admin "c" request.definitionFingerprint 9) = some t ∧
      PublishedAs QueueSample.env request Sample.admin 9 s₁.db s₂ t := by
  have hasking : ∀ a ∈ QueueSample.asking, ∀ s, NotOvertaking s a := by
    intro a ha s
    refine notOvertaking_of_ne ?_
    rintro i ids rfl
    simp [QueueSample.asking] at ha
  have h₀ := fun s => @Machine.run_of_exec_of_forall _ _ (step QueueSample.env) NotOvertaking
    (State.start Sample.db) s QueueSample.asking hasking
  obtain ⟨t, hexec, hpublished⟩ := @approvable_of_run QueueSample.env _ _ [] QueueSample.asksAgain
    _ _ _ (h₀ _ rfl)
    { Sample.chart with publishRequestedBy := some "ann", publishRequestedAt := some 5 }
    (mem_pendingCharts.mpr ⟨rfl, rfl⟩) Sample.query rfl (.nil _) (QueueSample.store _) rfl _ rfl
    (.cons rfl (spares_of_ne (fun _ _ h => by cases h) (fun _ _ h => by cases h))
      (.cons rfl (@spares_of_asks _ _ _ _ _ Sample.author _ _ rfl rfl)
        (.cons rfl (spares_of_ne (fun _ _ h => by cases h) (fun _ _ h => by cases h))
          (.cons rfl (spares_of_ne (fun _ _ h => by cases h) (fun _ _ h => by cases h)) (.nil _)))))
    Sample.admin rfl 4 9
  exact ⟨_, _, _, t, rfl, rfl, hexec, hpublished⟩

/-- An administrator's edit of the query is what an approval does not survive. -/
example : QueueSample.approves QueueSample.asksAgain = true ∧
    QueueSample.approves QueueSample.adminEdits = false := by decide +kernel

end FraudAnalyzer.Charts
