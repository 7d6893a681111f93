import FraudAnalyzer.Queries.Answers

/-!
# The invariant of the two caches

A result that is held shows the charts of the last edit that has patched it, bytes that are held are
an answer with their key, and a request past its lookup has an answer. Each operation on the state
keeps this under a condition of its own.
-/

namespace FraudAnalyzer.Queries

open Charts FlagRules

variable {β : Type}

section Invariant

/-- For the chart edits that had returned when the poll started, the bytes have been dropped. -/
def Request.Settled (s : State β) (request : Request) : Prop :=
  ∀ n ∈ request.started, ∃ r ∈ s.bytesCleared request.queryId, n ≤ r

structure Caller.Sound (s : State β) (id : String) (caller : Caller) : Prop where
  query : caller.request.queryId = id
  settled : caller.request.Settled s
  dismissed : caller.dismissed ∈ s.seen id

def QueryRun.Sound (s : State β) (run : QueryRun) : Prop :=
  ∀ caller ∈ run.caller, caller.Sound s run.query.id

/-- What a request has in its hands. -/
def Stage.Sound (E : ServingEnv β) (s : State β) : Stage → Prop
  | .opened request query => request.queryId = query.id ∧ request.Settled s
  | .looking caller query => caller.Sound s query.id
  | .lookingStale caller query => caller.Sound s query.id
  | .executing run => run.Sound s
  | .flagging run _ => run.Sound s
  | .charting run _ _ _ => run.Sound s
  | .storing run tagged => run.Sound s ∧ IsBody E s run.query.id tagged.version tagged.body
  | .rendering request answer version =>
    IsAnswer E s request.queryId version answer ∧ ∀ n ∈ request.started, n ≤ version
  | .keeping request answer version =>
    IsAnswer E s request.queryId version answer ∧ ∀ n ∈ request.started, n ≤ version
  | .refreshing id version => version < (s.chartLedger id).versions.length
  | .patching id version charts read =>
    version ≤ read ∧ (s.chartLedger id).versions[read]? = some charts
  | .droppingBytes id kind version read =>
    kind = .charts → version ≤ read ∧ read ∈ (s.chartLedger id).cleared
  | .answering id kind version => kind = .charts → ∃ r ∈ s.bytesCleared id, version ≤ r
  | .preloading _ | .editing _ | .guarded _ | .prepared _ _ | .invalidating _ _ _ => True

/-- A result in the cache shows the charts of the last edit that has patched it, or later ones. -/
def HeldSound (E : ServingEnv β) (s : State β) (id : String) (tagged : Tagged) : Prop :=
  IsBody E s id tagged.version tagged.body ∧ ∀ n ∈ (s.chartLedger id).cleared, n ≤ tagged.version

/-- Bytes under a key are an answer with that key; none for whose charts the bytes were dropped. -/
def BytesSound (E : ServingEnv β) (s : State β) (key : String) (version : Nat)
    (rendered : Rendered β) : Prop :=
  ∃ id answer, keyFor E.time id answer = key ∧ rendered.decode E.codec = some answer ∧
    IsAnswer E s id version answer ∧ ∀ n ∈ s.bytesCleared id, n ≤ version

structure BytesInv (E : ServingEnv β) (s : State β) : Prop where
  tracks : ∀ id, (s.chartLedger id).Tracks (s.db.chartsOf id)
  cleared : ∀ id, s.bytesCleared id ⊆ (s.chartLedger id).cleared
  answered : ∀ id, ∀ n ∈ (s.chartLedger id).answered, ∃ r ∈ s.bytesCleared id, n ≤ r
  distinct : ∀ e ∈ s.executions, ∀ e' ∈ s.executions,
    e.body.executedAt = e'.body.executedAt → e = e'
  stamps : ∀ id, ∀ D ∈ s.seen id, ∀ D' ∈ s.seen id,
    stamp E.sha256Hex D = stamp E.sha256Hex D' → D = D'
  held : ∀ id entry, s.results.get id = some entry → HeldSound E s id entry.payload
  rendered : ∀ key r, s.rendered.get key = some r → BytesSound E s key (s.drawn key) r
  operations : ∀ i stage, s.operations i = some stage → stage.Sound E s
  polls : ∀ x ∈ s.polls, Served E (s.chartLedger x.answer.body.queryId) x

variable {E : ServingEnv β} {s t : State β} {id : String} {version read : Nat}
  {tagged : Tagged} {charts : List QueryChart}

theorem Request.Settled.mono {request : Request} (h : request.Settled s) (hg : Grows s t) :
    request.Settled t := by
  intro n hn
  obtain ⟨r, hr, hle⟩ := h n hn
  exact ⟨r, hg.bytesCleared _ hr, hle⟩

theorem Caller.Sound.mono {id : String} {caller : Caller} (h : caller.Sound s id)
    (hg : Grows s t) : caller.Sound t id :=
  ⟨h.query, h.settled.mono hg, hg.seen id h.dismissed⟩

theorem QueryRun.Sound.mono {run : QueryRun} (h : run.Sound s) (hg : Grows s t) : run.Sound t :=
  fun caller hcaller => (h caller hcaller).mono hg

theorem Stage.Sound.mono {stage : Stage} (h : stage.Sound E s) (hg : Grows s t) :
    stage.Sound E t := by
  cases stage with
  | opened request query => exact ⟨h.1, h.2.mono hg⟩
  | looking caller query => exact Caller.Sound.mono h hg
  | lookingStale caller query => exact Caller.Sound.mono h hg
  | executing run => exact QueryRun.Sound.mono h hg
  | flagging run result => exact QueryRun.Sound.mono h hg
  | charting run result rules flags => exact QueryRun.Sound.mono h hg
  | storing run tagged => exact ⟨h.1.mono hg, h.2.mono hg⟩
  | rendering request answer version => exact ⟨h.1.mono hg, h.2⟩
  | keeping request answer version => exact ⟨h.1.mono hg, h.2⟩
  | invalidating id kind version => trivial
  | refreshing id version => exact Nat.lt_of_lt_of_le h (hg.versions id).length_le
  | patching id version charts read => exact ⟨h.1, hg.get_version h.2⟩
  | droppingBytes id kind version read =>
    intro hkind
    exact ⟨(h hkind).1, hg.cleared id (h hkind).2⟩
  | answering id kind version =>
    intro hkind
    obtain ⟨r, hr, hle⟩ := h hkind
    exact ⟨r, hg.bytesCleared id hr, hle⟩
  | preloading query => trivial
  | editing op => trivial
  | guarded op => trivial
  | prepared op loaded => trivial

/-- Charts that had been answered for are in no body of the result cache. -/
theorem Request.Settled.le (h : BytesInv E s) {request : Request} (hsettled : request.Settled s)
    {version : Nat} (hversion : ∀ n ∈ (s.chartLedger request.queryId).cleared, n ≤ version) :
    ∀ n ∈ request.started, n ≤ version := by
  intro n hn
  obtain ⟨r, hr, hle⟩ := hsettled n hn
  exact hle.trans (hversion r (h.cleared _ hr))

theorem bytesInv_start (db : Db) (dismissals : List FlagDismissal) :
    BytesInv E (State.start db dismissals) where
  tracks id := .start _
  cleared id := List.nil_subset _
  answered id n h := absurd h List.not_mem_nil
  distinct e h := absurd h List.not_mem_nil
  stamps id D h := absurd h List.not_mem_nil
  held id entry h := by cases h
  rendered key r h := by cases h
  operations i stage h := by cases h
  polls x h := absurd h List.not_mem_nil

theorem HeldSound.mono {id : String} {tagged : Tagged} (h : HeldSound E s id tagged)
    (hg : Grows s t) (hcleared : (t.chartLedger id).cleared = (s.chartLedger id).cleared) :
    HeldSound E t id tagged := by
  refine ⟨h.1.mono hg, ?_⟩
  rw [hcleared]
  exact h.2

theorem BytesSound.mono {key : String} {version : Nat} {r : Rendered β}
    (h : BytesSound E s key version r) (hg : Grows s t)
    (hbytes : t.bytesCleared = s.bytesCleared) : BytesSound E t key version r := by
  obtain ⟨id, answer, hkey, hdecode, hanswer, hle⟩ := h
  rw [← hbytes] at hle
  exact ⟨id, answer, hkey, hdecode, hanswer.mono hg, hle⟩

/-- A step that commits nothing and notes nothing. -/
structure Quiet (s t : State β) : Prop where
  db : t.db = s.db
  charts : t.chartLedger = s.chartLedger
  bytes : t.bytesCleared = s.bytesCleared
  executions : t.executions = s.executions
  seen : t.seen = s.seen

theorem Quiet.grows (h : Quiet s t) : Grows s t :=
  .of_eq h.executions h.charts h.bytes h.seen

/-- What such a step has to show of what it adds. -/
theorem BytesInv.of_quiet (h : BytesInv E s) (hq : Quiet s t)
    (hheld : ∀ id entry, t.results.get id = some entry →
      s.results.get id = some entry ∨ HeldSound E s id entry.payload)
    (hrendered : ∀ key r, t.rendered.get key = some r →
      (s.rendered.get key = some r ∧ t.drawn key = s.drawn key) ∨
        BytesSound E s key (t.drawn key) r)
    (hops : ∀ i stage, t.operations i = some stage →
      s.operations i = some stage ∨ stage.Sound E s)
    (hpolls : ∀ x ∈ t.polls, x ∈ s.polls ∨ Served E (s.chartLedger x.answer.body.queryId) x) :
    BytesInv E t := by
  refine ⟨?_, ?_, ?_, ?_, ?_, ?_, ?_, ?_, ?_⟩
  · rw [hq.charts, hq.db]
    exact h.tracks
  · rw [hq.charts, hq.bytes]
    exact h.cleared
  · rw [hq.charts, hq.bytes]
    exact h.answered
  · rw [hq.executions]
    exact h.distinct
  · rw [hq.seen]
    exact h.stamps
  · intro id entry hget
    have hsound : HeldSound E s id entry.payload := by
      rcases hheld id entry hget with hold | hnew
      · exact h.held id entry hold
      · exact hnew
    exact hsound.mono hq.grows (by rw [hq.charts])
  · intro key r hget
    have hsound : BytesSound E s key (t.drawn key) r := by
      rcases hrendered key r hget with ⟨hold, hdrawn⟩ | hnew
      · rw [hdrawn]
        exact h.rendered key r hold
      · exact hnew
    exact hsound.mono hq.grows hq.bytes
  · intro i stage hstage
    rcases hops i stage hstage with hold | hnew
    · exact (h.operations i stage hold).mono hq.grows
    · exact hnew.mono hq.grows
  · intro x hx
    rcases hpolls x hx with hold | hnew
    · exact (h.polls x hold).mono hq.grows
    · exact hnew.mono hq.grows

theorem BytesInv.put (h : BytesInv E s) (i : Nat) {stage : Stage} (hstage : stage.Sound E s) :
    BytesInv E (s.put i stage) := by
  refine h.of_quiet ⟨rfl, rfl, rfl, rfl, rfl⟩ (fun _ _ hget => .inl hget)
    (fun _ _ hget => .inl ⟨hget, rfl⟩) ?_ (fun _ hx => .inl hx)
  intro j stage' hj
  simp only [State.put, Function.update_apply] at hj
  split at hj
  · obtain rfl := Option.some.inj hj
    exact .inr hstage
  · exact .inl hj

theorem BytesInv.drop (h : BytesInv E s) (i : Nat) : BytesInv E (s.drop i) := by
  refine h.of_quiet ⟨rfl, rfl, rfl, rfl, rfl⟩ (fun _ _ hget => .inl hget)
    (fun _ _ hget => .inl ⟨hget, rfl⟩) ?_ (fun _ hx => .inl hx)
  intro j stage hj
  simp only [State.drop, Function.update_apply] at hj
  split at hj
  · cases hj
  · exact .inl hj

/-- The result cache holds what it held, or less. -/
theorem BytesInv.shrinkResults (h : BytesInv E s) {results : ResultCache Tagged}
    (hresults : ∀ id entry, results.get id = some entry → s.results.get id = some entry) :
    BytesInv E { s with results := results } :=
  h.of_quiet ⟨rfl, rfl, rfl, rfl, rfl⟩ (fun id entry hget => .inl (hresults id entry hget))
    (fun _ _ hget => .inl ⟨hget, rfl⟩) (fun _ _ hstage => .inl hstage) (fun _ hx => .inl hx)

theorem BytesInv.noteHit (h : BytesInv E s) {results : ResultCache Tagged} (id : String)
    (tagged : Tagged) (hresults : ∀ id', results.get id' = s.results.get id') :
    BytesInv E (s.noteHit results id tagged) := by
  have hshrunk := h.shrinkResults fun id' entry hget => (hresults id').symm.trans hget
  exact hshrunk.of_quiet ⟨rfl, rfl, rfl, rfl, rfl⟩ (fun _ _ hget => .inl hget)
    (fun _ _ hget => .inl ⟨hget, rfl⟩) (fun _ _ hstage => .inl hstage) (fun _ hx => .inl hx)

theorem BytesInv.notePoll (h : BytesInv E s) {request : Request} {answer : PollChanged}
    {version : Nat} {response : Option (Rendered β)}
    (hserved : Served E (s.chartLedger answer.body.queryId)
      ⟨request.started, answer, version, response⟩) :
    BytesInv E (s.notePoll request answer version response) := by
  refine h.of_quiet ⟨rfl, rfl, rfl, rfl, rfl⟩ (fun _ _ hget => .inl hget)
    (fun _ _ hget => .inl ⟨hget, rfl⟩) (fun _ _ hstage => .inl hstage) ?_
  intro x hx
  rcases List.mem_cons.mp hx with rfl | hold
  · exact .inr hserved
  · exact .inl hold

/-- A run stores its result. -/
theorem BytesInv.storeResult (h : BytesInv E s) {results : ResultCache Tagged} {id : String}
    {tagged : Tagged} (hsound : HeldSound E s id tagged)
    (hresults : ∀ id' entry, results.get id' = some entry →
      (id' = id ∧ entry.payload = tagged) ∨ (id' ≠ id ∧ s.results.get id' = some entry)) :
    BytesInv E { s with results := results } := by
  refine h.of_quiet ⟨rfl, rfl, rfl, rfl, rfl⟩ ?_
    (fun _ _ hget => .inl ⟨hget, rfl⟩) (fun _ _ hstage => .inl hstage) (fun _ hx => .inl hx)
  intro id' entry hget
  rcases hresults id' entry hget with ⟨rfl, rfl⟩ | ⟨-, hold⟩
  · exact .inr hsound
  · exact .inl hold

/-- A poll keeps the bytes it has rendered. -/
theorem BytesInv.keepBytes (h : BytesInv E s) {key : String} {r : Rendered β} {version : Nat}
    (hsound : BytesSound E s key version r) :
    BytesInv E { s with
      rendered := s.rendered.store E.codec E.renderedMaxBytes maxEntries key r
      drawn := Function.update s.drawn key version } := by
  refine h.of_quiet ⟨rfl, rfl, rfl, rfl, rfl⟩ (fun _ _ hget => .inl hget) ?_
    (fun _ _ hstage => .inl hstage) (fun _ hx => .inl hx)
  intro key' r' hget
  rcases BudgetCache.get_of_put hget with ⟨rfl, rfl⟩ | ⟨hkey, hold⟩
  · refine .inr ?_
    simpa only [Function.update_self] using hsound
  · exact .inl ⟨hold, Function.update_of_ne hkey _ _⟩

theorem BytesInv.touchBytes (h : BytesInv E s) {rendered : RenderedCache β}
    (hrendered : ∀ key, rendered.get key = s.rendered.get key) :
    BytesInv E { s with rendered := rendered } :=
  h.of_quiet ⟨rfl, rfl, rfl, rfl, rfl⟩ (fun _ _ hget => .inl hget)
    (fun key _ hget => .inl ⟨(hrendered key).symm.trans hget, rfl⟩)
    (fun _ _ hstage => .inl hstage) (fun _ hx => .inl hx)

theorem BytesInv.commit (h : BytesInv E s) (db : Db) : BytesInv E (s.commit db) := by
  have hcleared : ∀ id, ((s.commit db).chartLedger id).cleared = (s.chartLedger id).cleared :=
    fun id => Ledger.cleared_observe _ _
  have hg : Grows s (s.commit db) :=
    ⟨List.Subset.refl _, fun id => Ledger.prefix_observe _ _, fun id => by rw [hcleared]; simp,
      fun id => List.Subset.refl _, fun id => List.Subset.refl _⟩
  refine ⟨?_, ?_, ?_, h.distinct, h.stamps, ?_, ?_, ?_, ?_⟩
  · exact fun id => Ledger.Tracks.observe _ _
  · intro id
    rw [hcleared]
    exact h.cleared id
  · intro id n hn
    simp only [State.commit, Ledger.answered_observe] at hn
    exact h.answered id n hn
  · exact fun id entry hget => (h.held id entry hget).mono hg (hcleared id)
  · exact fun key r hget => (h.rendered key r hget).mono hg rfl
  · exact fun i stage hstage => (h.operations i stage hstage).mono hg
  · exact fun x hx => (h.polls x hx).mono hg

/-- The entry of an edit's query, once it shows the charts that the edit has read. -/
theorem HeldSound.redraw (h : HeldSound E s id tagged) (hg : Grows s t)
    (hread : (s.chartLedger id).versions[read]? = some charts) (horder : tagged.version ≤ read)
    (hledger : (t.chartLedger id).cleared = read :: (s.chartLedger id).cleared) :
    HeldSound E t id { tagged with body := tagged.body.draw E charts, version := read } := by
  obtain ⟨⟨e, mapping, horigin, hbody⟩, hle⟩ := h
  refine ⟨⟨e, charts, ?_, ?_⟩, ?_⟩
  · refine ⟨hg.executions horigin.ran, horigin.query, hg.get_version hread,
      horigin.later.trans horder, .inr ?_⟩
    rw [hledger]
    exact List.mem_cons_self
  · simp only [hbody, Body.draw_draw]
  · rw [hledger]
    intro n hn
    rcases List.mem_cons.mp hn with rfl | hn
    · exact Nat.le_refl _
    · exact (hle n hn).trans horder

theorem grows_noteClear (s : State β) (results : ResultCache Tagged) (id : String) (read : Nat) :
    Grows s ({ s with results := results }.noteClear id .charts read) := by
  refine ⟨List.Subset.refl _, ?_, ?_, fun _ => List.Subset.refl _, fun _ => List.Subset.refl _⟩
  · intro id'
    simp only [State.noteClear, Ledger.versions_update_clear]
    exact List.prefix_refl _
  · exact fun id' => Ledger.cleared_subset_update_clear s.chartLedger id id' read

/-- An edit brings the entry of its query up to date, or takes it away. -/
theorem BytesInv.clearResults (h : BytesInv E s) {results : ResultCache Tagged}
    (hresults : ∀ id' entry, results.get id' = some entry →
      (id' = id ∧ HeldSound E ({ s with results := results }.noteClear id .charts read) id
        entry.payload) ∨ (id' ≠ id ∧ s.results.get id' = some entry)) :
    BytesInv E ({ s with results := results }.noteClear id .charts read) := by
  have hg := grows_noteClear s results id read
  refine ⟨?_, ?_, ?_, h.distinct, h.stamps, ?_, ?_, ?_, ?_⟩
  · intro id'
    unfold Ledger.Tracks
    simp only [State.noteClear, Ledger.versions_update_clear]
    exact h.tracks id'
  · exact fun id' => List.Subset.trans (h.cleared id') (hg.cleared id')
  · intro id' n hn
    simp only [State.noteClear, Ledger.answered_update_clear] at hn
    exact h.answered id' n hn
  · intro id' entry hget
    rcases hresults id' entry hget with ⟨rfl, hnew⟩ | ⟨hid, hold⟩
    · exact hnew
    · refine (h.held id' entry hold).mono hg ?_
      simp only [State.noteClear, Function.update_of_ne hid]
  · exact fun key r hget => (h.rendered key r hget).mono hg rfl
  · exact fun i stage hstage => (h.operations i stage hstage).mono hg
  · exact fun x hx => (h.polls x hx).mono hg

theorem BytesInv.patchResults (h : BytesInv E s)
    (hread : (s.chartLedger id).versions[read]? = some charts)
    (horder : ∀ entry ∈ s.results.get id, entry.payload.version ≤ read) :
    BytesInv E ({ s with
      results := s.results.patchCharts (fun t => E.size t.body) id (redraw E charts read)
      }.noteClear id .charts read) := by
  apply h.clearResults
  intro id' entry hget
  rcases ResultCache.get_of_patchCharts hget with ⟨rfl, old, hold, hredraw⟩ | hother
  · refine .inl ⟨rfl, ?_⟩
    rw [← Option.some.inj hredraw]
    refine (h.held id' old hold).redraw (grows_noteClear _ _ _ _) hread (horder old hold) ?_
    simp only [State.noteClear, Function.update_self, Ledger.clear]
  · exact .inr hother

/-- The ledgers of the statement and of the rules play no part. -/
theorem BytesInv.congr_ledgers (h : BytesInv E s) (sqlLedger : String → Ledger (Option String))
    (ruleLedger : String → Ledger (List FlagRule)) :
    BytesInv E { s with sqlLedger := sqlLedger, ruleLedger := ruleLedger } :=
  h.of_quiet ⟨rfl, rfl, rfl, rfl, rfl⟩ (fun _ _ hget => .inl hget)
    (fun _ _ hget => .inl ⟨hget, rfl⟩) (fun _ _ hstage => .inl hstage) (fun _ hx => .inl hx)

/-- Bytes that go are the query's own. -/
theorem BytesSound.of_invalidateQuery (h : BytesInv E s) {key : String} {r : Rendered β}
    (hget : (s.rendered.invalidateQuery E.codec id).get key = some r) :
    ∃ id' answer, id' ≠ id ∧ keyFor E.time id' answer = key ∧ r.decode E.codec = some answer ∧
      IsAnswer E s id' (s.drawn key) answer ∧ ∀ n ∈ s.bytesCleared id', n ≤ s.drawn key := by
  obtain ⟨hold, hstart⟩ := RenderedCache.get_invalidateQuery hget
  obtain ⟨id', answer, hkey, hsound⟩ := h.rendered key r hold
  refine ⟨id', answer, ?_, hkey, hsound⟩
  rintro rfl
  rw [← hkey, startsWith_keyFor] at hstart
  cases hstart

/-- An edit drops the bytes of its query. -/
theorem BytesInv.dropBytes (h : BytesInv E s) (kind : EditKind)
    (hread : kind = .charts → read ∈ (s.chartLedger id).cleared) :
    BytesInv E ({ s with rendered := s.rendered.invalidateQuery E.codec id }.noteBytes id kind
      read) := by
  have hkept : BytesInv E { s with rendered := s.rendered.invalidateQuery E.codec id } :=
    h.of_quiet ⟨rfl, rfl, rfl, rfl, rfl⟩ (fun _ _ hget => .inl hget)
      (fun _ _ hget => .inl ⟨(RenderedCache.get_invalidateQuery hget).1, rfl⟩)
      (fun _ _ hstage => .inl hstage) (fun _ hx => .inl hx)
  cases kind with
  | sql => exact hkept
  | rules => exact hkept
  | all => exact hkept
  | charts =>
    have hbytes : ∀ id', s.bytesCleared id' ⊆
        Function.update s.bytesCleared id (read :: s.bytesCleared id) id' := by
      intro id'
      rw [Function.update_apply]
      split
      next hid => rw [hid]; exact List.subset_cons_self _ _
      · exact List.Subset.refl _
    have hg : Grows s ({ s with
        rendered := s.rendered.invalidateQuery E.codec id }.noteBytes id .charts read) :=
      ⟨List.Subset.refl _, fun _ => List.prefix_refl _, fun _ => List.Subset.refl _, hbytes,
        fun _ => List.Subset.refl _⟩
    refine ⟨h.tracks, ?_, ?_, h.distinct, h.stamps, ?_, ?_, ?_, ?_⟩
    · intro id' n hn
      simp only [State.noteBytes, Function.update_apply] at hn
      split at hn
      next hid =>
        rw [hid] at *
        rcases List.mem_cons.mp hn with rfl | hold
        · exact hread rfl
        · exact h.cleared id hold
      · exact h.cleared id' hn
    · intro id' n hn
      obtain ⟨r, hr, hle⟩ := h.answered id' n hn
      exact ⟨r, hbytes id' hr, hle⟩
    · exact fun id' entry hget => (h.held id' entry hget).mono hg rfl
    · intro key r hget
      obtain ⟨id', answer, hid, hkey, hdecode, hanswer, hle⟩ :=
        BytesSound.of_invalidateQuery h hget
      refine ⟨id', answer, hkey, hdecode, hanswer.mono hg, ?_⟩
      simp only [State.noteBytes, Function.update_of_ne hid]
      exact hle
    · exact fun i stage hstage => (h.operations i stage hstage).mono hg
    · exact fun x hx => (h.polls x hx).mono hg

/-- An edit returns. -/
theorem BytesInv.noteAnswer (h : BytesInv E s) (kind : EditKind)
    (hdropped : kind = .charts → ∃ r ∈ s.bytesCleared id, version ≤ r) :
    BytesInv E (s.noteAnswer id kind version) := by
  cases kind with
  | sql => exact h.congr_ledgers _ _
  | rules => exact h.congr_ledgers _ _
  | all => exact h
  | charts =>
    have hversions : ∀ id', ((s.noteAnswer id .charts version).chartLedger id').versions =
        (s.chartLedger id').versions :=
      fun id' => Ledger.versions_update_answer s.chartLedger id id' version
    have hcleared : ∀ id', ((s.noteAnswer id .charts version).chartLedger id').cleared =
        (s.chartLedger id').cleared :=
      fun id' => Ledger.cleared_update_answer s.chartLedger id id' version
    have hg : Grows s (s.noteAnswer id .charts version) :=
      ⟨List.Subset.refl _, fun id' => by rw [hversions], fun id' => by rw [hcleared]; simp,
        fun _ => List.Subset.refl _, fun _ => List.Subset.refl _⟩
    refine ⟨?_, ?_, ?_, h.distinct, h.stamps, ?_, ?_, ?_, ?_⟩
    · intro id'
      unfold Ledger.Tracks
      rw [hversions]
      exact h.tracks id'
    · intro id'
      rw [hcleared]
      exact h.cleared id'
    · intro id' n hn
      simp only [State.noteAnswer, Function.update_apply] at hn
      split at hn
      next hid =>
        rw [hid]
        rcases List.mem_cons.mp hn with rfl | hold
        · exact hdropped rfl
        · exact h.answered id n hold
      · exact h.answered id' n hn
    · exact fun id' entry hget => (h.held id' entry hget).mono hg (hcleared id')
    · exact fun key r hget => (h.rendered key r hget).mono hg rfl
    · exact fun i stage hstage => (h.operations i stage hstage).mono hg
    · exact fun x hx => (h.polls x hx).mono hg

/-- A poll reads the dismissals of its user. -/
theorem BytesInv.noteSeen (h : BytesInv E s) {dismissed : List String}
    (hstamp : ∀ D ∈ s.seen id, stamp E.sha256Hex D = stamp E.sha256Hex dismissed →
      D = dismissed) : BytesInv E (s.noteSeen id dismissed) := by
  have hseen : ∀ id', s.seen id' ⊆ (s.noteSeen id dismissed).seen id' := by
    intro id'
    simp only [State.noteSeen, Function.update_apply]
    split
    next hid => rw [hid]; exact List.subset_cons_self _ _
    · exact List.Subset.refl _
  have hg : Grows s (s.noteSeen id dismissed) :=
    ⟨List.Subset.refl _, fun _ => List.prefix_refl _, fun _ => List.Subset.refl _,
      fun _ => List.Subset.refl _, hseen⟩
  refine ⟨h.tracks, h.cleared, h.answered, h.distinct, ?_, ?_, ?_, ?_, ?_⟩
  · intro id' D hD D' hD' heq
    simp only [State.noteSeen, Function.update_apply] at hD hD'
    split at hD
    next hid =>
      rw [if_pos hid] at hD'
      rcases List.mem_cons.mp hD with hnew | hold
      · rcases List.mem_cons.mp hD' with hnew' | hold'
        · rw [hnew, hnew']
        · rw [hnew] at heq ⊢
          exact (hstamp D' hold' heq.symm).symm
      · rcases List.mem_cons.mp hD' with hnew' | hold'
        · rw [hnew'] at heq ⊢
          exact hstamp D hold heq
        · exact h.stamps id D hold D' hold' heq
    next hid =>
      rw [if_neg hid] at hD'
      exact h.stamps id' D hD D' hD' heq
  · exact fun id' entry hget => (h.held id' entry hget).mono hg rfl
  · exact fun key r hget => (h.rendered key r hget).mono hg rfl
  · exact fun i stage hstage => (h.operations i stage hstage).mono hg
  · exact fun x hx => (h.polls x hx).mono hg

/-- A run has its body. -/
theorem BytesInv.execute (h : BytesInv E s) {e : Execution}
    (hnew : ∀ e' ∈ s.executions, e'.body.executedAt ≠ e.body.executedAt) :
    BytesInv E { s with executions := e :: s.executions } := by
  have hg : Grows s { s with executions := e :: s.executions } :=
    ⟨List.subset_cons_self _ _, fun _ => List.prefix_refl _, fun _ => List.Subset.refl _,
      fun _ => List.Subset.refl _, fun _ => List.Subset.refl _⟩
  refine ⟨h.tracks, h.cleared, h.answered, ?_, h.stamps, ?_, ?_, ?_, ?_⟩
  · intro a ha b hb heq
    rcases List.mem_cons.mp ha with ha | ha
    · rcases List.mem_cons.mp hb with hb | hb
      · rw [ha, hb]
      · exact absurd (ha ▸ heq.symm) (hnew b hb)
    · rcases List.mem_cons.mp hb with hb | hb
      · exact absurd (hb ▸ heq) (hnew a ha)
      · exact h.distinct a ha b hb heq
  · exact fun id' entry hget => (h.held id' entry hget).mono hg rfl
  · exact fun key r hget => (h.rendered key r hget).mono hg rfl
  · exact fun i stage hstage => (h.operations i stage hstage).mono hg
  · exact fun x hx => (h.polls x hx).mono hg

/-! ## Answers and bytes -/

variable {body : Body} {answer : PollChanged} {request : Request} {caller : Caller}

theorem IsBody.isAnswer {fromCache : Bool} (h : IsBody E s id version body)
    (hcaller : caller.Sound s id)
    (hanswer : answerFor E.sha256Hex caller body fromCache = some answer) :
    IsAnswer E s caller.request.queryId version answer := by
  obtain ⟨e, mapping, horigin, hbody⟩ := h
  rw [hcaller.query]
  refine ⟨e, mapping, horigin, caller.dismissed, hcaller.dismissed, ?_⟩
  rw [answerFor_body hanswer, hbody]

/-- Two answers with one key are one answer up to the charts. -/
theorem IsAnswer.eq_draw (hinv : BytesInv E s) (h : IsAnswer E s id version answer)
    {id' : String} {answer' : PollChanged} {version' : Nat}
    (h' : IsAnswer E s id' version' answer')
    (hkey : keyFor E.time id' answer' = keyFor E.time id answer) :
    ∃ e mapping', Origin s id version' e mapping' ∧ e.first ≤ version ∧
      (version = e.first ∨ version ∈ (s.chartLedger id).cleared) ∧ id' = id ∧
      answer' = { answer with body := answer.body.draw E mapping' } := by
  obtain ⟨e, mapping, D, horigin, hD, hbody⟩ := h.body_eq
  obtain ⟨e', mapping', D', horigin', hD', hbody'⟩ := h'.body_eq
  obtain ⟨htime, hcache, hhash⟩ := keyFor_inj hkey
  have hexecutedAt : e'.body.executedAt = e.body.executedAt := by
    rw [hbody, hbody'] at htime
    exact (applyDismissals_executedAt _ _ _).symm.trans
      (htime.trans (applyDismissals_executedAt _ _ _))
  obtain rfl := hinv.distinct e' horigin'.ran e horigin.ran hexecutedAt
  obtain rfl : id' = id := horigin'.query.symm.trans horigin.query
  have hinterval : answer'.body.pollIntervalMs = answer.body.pollIntervalMs := by
    rw [hbody, hbody']
    exact (applyDismissals_pollIntervalMs _ _ _).trans (applyDismissals_pollIntervalMs _ _ _).symm
  have hsame : applyDismissals E.sha256Hex e'.body D' = applyDismissals E.sha256Hex e'.body D := by
    refine applyDismissals_eq_of_dataHash_eq (hinv.stamps id' D' hD' D hD) ?_
    have hdataHash := hhash rfl hinterval
    rwa [hbody, hbody'] at hdataHash
  refine ⟨e', mapping', horigin', horigin.later, horigin.patched, rfl, ?_⟩
  obtain ⟨body', fromCache'⟩ := answer'
  obtain rfl : fromCache' = answer.fromCache := hcache
  congr 1
  rw [hbody, Body.draw_draw, ← hsame]
  exact hbody'

/-- An answer for which bytes are found. -/
theorem IsAnswer.served_found (hinv : BytesInv E s) (h : IsAnswer E s id version answer)
    (hstarted : ∀ n ∈ request.started, n ≤ version) {found : Rendered β}
    (hget : s.rendered.get (keyFor E.time id answer) = some found)
    (horder : version ∈ (s.chartLedger id).cleared → version ∉ s.bytesCleared id →
      version ≤ s.drawn (keyFor E.time id answer)) :
    Served E (s.chartLedger id) ⟨request.started, answer, version, some found⟩ := by
  refine ⟨h.drawn, hstarted, ?_⟩
  rintro response ⟨⟩
  obtain ⟨id', answer', hkey, hdecode, hanswer', hle⟩ := hinv.rendered _ found hget
  obtain ⟨e, mapping', horigin', hfirst, hpatched, rfl, heq⟩ := h.eq_draw hinv hanswer' hkey
  have hlater : version ≤ s.drawn (keyFor E.time id' answer) := by
    rcases hpatched with hdrawn | hcleared
    · rw [hdrawn]
      exact horigin'.later
    · by_cases hbytes : version ∈ s.bytesCleared id'
      · exact hle version hbytes
      · exact horder hcleared hbytes
  refine ⟨_, mapping', horigin'.mapping, hlater, fun n hn => (hstarted n hn).trans hlater, ?_⟩
  rw [hdecode, heq]

end Invariant

end FraudAnalyzer.Queries
