import FraudAnalyzer.Queries.Pacing

/-!
# One tick of the scheduler

`run_due_once` of `app/features/queries/scheduler.py`, from the list of the due queries to the last
of them. Whatever a step calls may raise: an exception of the run itself is caught and backed off
from, and any other one leaves the function.
-/

namespace FraudAnalyzer.Queries.Pacing

/-- `session.get(Connection, query.connection_id)`, where `query` may have to be loaded again. -/
inductive Loaded where
  | raises
  | gone
  | found (paused : Bool)

/-- What raises after a run: the rollback of a `log_execution` that has failed, `poll_interval_for`
of a query that has to be loaded again, `sync`, or loading the query once more to reschedule it. -/
inductive AfterRun where
  | logging
  | interval
  | syncing
  | rescheduling

/-- What happens when the loop comes to a query. The cache is as the query finds it, the run returns
a hash and a payload unless it raises, and the readings are those at the lookup, at the start of the
run, and when the next due time is noted. -/
structure Visit (P : Type) where
  queryId : String
  connection : Loaded
  results : ResultCache P
  ran : Option (String × P)
  raisesIn : Option AfterRun
  looked : Clock
  began : Clock
  ended : Clock

structure Visit.InOrder {P : Type} (v : Visit P) (start stop : Clock) : Prop where
  looked : start.NotAfter v.looked
  began : v.looked.NotAfter v.began
  ended : v.began.NotAfter v.ended
  stop : v.ended.NotAfter stop

/-- The queries with rules, due or not; their ids are a primary key, and no clock goes back during a
tick. -/
structure Tick (P : Type) where
  start : Clock
  stop : Clock
  visits : List (Visit P)
  nodup : (visits.map Visit.queryId).Nodup
  inOrder : ∀ v ∈ visits, v.InOrder start stop

/-- How the processing of a query ends; `escaped` when an exception leaves `run_due_once`. -/
inductive Ending where
  | passed
  | failed
  | ran
  | escaped
  deriving DecidableEq

section Step

variable {P : Type}

/-- A run has succeeded. -/
def afterRun (E : PacingEnv P) (s : Schedule P) (v : Visit P) (dataHash : String) (payload : P) :
    Ending × Schedule P :=
  match v.raisesIn with
  | some .logging | some .interval => (.escaped, s)
  | later =>
    match s.results.set E.cache E.size v.queryId dataHash payload
      (E.intervalMs v.queryId) s.now with
    | none => (.escaped, s)
    | some results =>
      let s := { s with results := results }
      match later with
      | some _ => (.escaped, s)
      | none => (.ran, reschedule E s v.queryId false)

/-- The body of the loop of `run_due_once`. -/
def process (E : PacingEnv P) (s : Schedule P) (v : Visit P) : Ending × Schedule P :=
  let s := { s with now := v.looked, results := v.results }
  match v.connection with
  | .raises => (.escaped, s)
  | .gone => (.passed, s)
  | .found paused =>
    match s.results.getFresh v.queryId s.now with
    | (some fresh, results) =>
      (.passed, { s with results := results }.setDueIn v.queryId
        (max (fresh.ttlMs - fresh.ageMs s.now) 0))
    | (none, results) =>
      let s := { s with results := results }
      if paused then (.passed, s)
      else
        let s := { s with now := v.ended }
        match v.ran with
        | none => (.failed, reschedule E s v.queryId true)
        | some (dataHash, payload) => afterRun E s v dataHash payload

/-- An execution that the scheduler has started, and when the query is due again. -/
structure Execution where
  queryId : String
  began : Clock
  ended : Clock
  failed : Bool
  due : Option Clock

/-- What a tick leaves, and what it has done: the queries it came to, those whose processing failed
with the moment, and its executions, the last one first. `ran` is what it returns. -/
structure Report (P : Type) where
  after : Schedule P
  processed : List String
  failed : List (String × Clock)
  executions : List Execution
  ran : Option Nat

/-- The execution of a query that has run, with or without success. -/
def Visit.executions (v : Visit P) (ending : Ending) (s : Schedule P) : List Execution :=
  match ending with
  | .passed | .escaped => []
  | .failed => [⟨v.queryId, v.began, v.ended, true, s.nextDue v.queryId⟩]
  | .ran => [⟨v.queryId, v.began, v.ended, false, s.nextDue v.queryId⟩]

/-- A query was processed, and then the others. -/
def Report.add (r : Report P) (v : Visit P) (ending : Ending) (s : Schedule P) : Report P where
  after := r.after
  processed := v.queryId :: r.processed
  failed := if ending = .failed then (v.queryId, s.now) :: r.failed else r.failed
  executions := r.executions ++ v.executions ending s
  ran := if ending = .ran then r.ran.map (· + 1) else r.ran

def runVisits (E : PacingEnv P) (s : Schedule P) : List (Visit P) → Report P
  | [] => ⟨s, [], [], [], some 0⟩
  | v :: visits =>
    match process E s v with
    | (.escaped, s) => ⟨s, [v.queryId], [(v.queryId, s.now)], [], none⟩
    | (ending, s) => (runVisits E s visits).add v ending s

/-- `_due_queries` -/
def dueVisits (s : Schedule P) (tick : Tick P) : List (Visit P) :=
  tick.visits.filter fun v => { s with now := tick.start }.isDue v.queryId

/-- `run_due_once` -/
def runDueOnce (E : PacingEnv P) (s : Schedule P) (tick : Tick P) : Report P :=
  runVisits E { s with now := tick.start } (dueVisits s tick)

end Step

/-! ## What can escape -/

section Isolation

variable {P : Type} {E : PacingEnv P} {s s' : Schedule P} {v : Visit P} {visits : List (Visit P)}
  {start : Clock} {id : String}

/-- The query is to be run: its connection is not paused and there is no fresh result. -/
def Visit.Runs (v : Visit P) : Prop :=
  v.connection = .found false ∧ (v.results.getFresh v.queryId v.looked).1 = none

/-- Something other than the run of the query raises. -/
def Visit.Escapes (E : PacingEnv P) (v : Visit P) : Prop :=
  v.connection = .raises ∨
    (v.Runs ∧ ∃ ran, v.ran = some ran ∧ (v.raisesIn ≠ none ∨ E.size ran.2 = none))

/-- Nothing escapes, and if the run fails the interval is within the longest backoff. -/
structure Visit.Contained (E : PacingEnv P) (v : Visit P) : Prop where
  caught : ¬ v.Escapes E
  backedOff : v.Runs → v.ran = none → E.scheduleMs v.queryId ≤ E.maxBackoffMs

/-- By what the interval is multiplied after one more failure. -/
def nextFactor (backoff : Option Int) : Int := min (max (backoff.getD 1 * 2) 2) 65536

/-- The delay after one more failure. -/
def PacingEnv.backoffMs (E : PacingEnv P) (queryId : String) (backoff : Option Int) : Int :=
  min (E.scheduleMs queryId * nextFactor backoff) E.maxBackoffMs

/-- Everything the processing of a query can do to the due times. -/
inductive Processed (E : PacingEnv P) (s : Schedule P) (v : Visit P) : Ending → Schedule P → Prop
  | escaped {s' : Schedule P} (h : v.Escapes E) (hnow : s'.now = v.looked ∨ s'.now = v.ended)
      (hdue : s'.nextDue = s.nextDue) (hbackoff : s'.backoff = s.backoff) :
      Processed E s v .escaped s'
  | passed {s' : Schedule P} (h : ¬ v.Escapes E) (hruns : ¬ v.Runs)
      (hdue : s'.nextDue = s.nextDue) (hbackoff : s'.backoff = s.backoff) :
      Processed E s v .passed s'
  | fresh {s' : Schedule P} (h : ¬ v.Escapes E) (hruns : ¬ v.Runs) (delayMs : Int)
      (hdelay : 0 ≤ delayMs)
      (hdue : s'.nextDue =
        Function.update s.nextDue v.queryId (some (v.looked.later delayMs)))
      (hbackoff : s'.backoff = s.backoff) : Processed E s v .passed s'
  | failed {s' : Schedule P} (h : ¬ v.Escapes E) (hruns : v.Runs) (hran : v.ran = none)
      (hnow : s'.now = v.ended)
      (hdue : s'.nextDue = Function.update s.nextDue v.queryId (some (v.ended.later
        (E.backoffMs v.queryId (s.backoff v.queryId)))))
      (hbackoff : s'.backoff =
        Function.update s.backoff v.queryId (some (nextFactor (s.backoff v.queryId)))) :
      Processed E s v .failed s'
  | ran {s' : Schedule P} (h : ¬ v.Escapes E) (hruns : v.Runs) (hran : v.ran ≠ none)
      (hnow : s'.now = v.ended)
      (hdue : s'.nextDue =
        Function.update s.nextDue v.queryId (some (v.ended.later (E.scheduleMs v.queryId))))
      (hbackoff : s'.backoff = Function.update s.backoff v.queryId none) : Processed E s v .ran s'

theorem processed_afterRun {dataHash : String} {payload : P} (hruns : v.Runs)
    (hran : v.ran = some (dataHash, payload)) (hnow : s'.now = v.ended)
    (hdue : s'.nextDue = s.nextDue) (hbackoff : s'.backoff = s.backoff) :
    Processed E s v (afterRun E s' v dataHash payload).1 (afterRun E s' v dataHash payload).2 := by
  have hescapes : v.raisesIn ≠ none ∨ E.size payload = none → v.Escapes E :=
    fun h => .inr ⟨hruns, _, hran, h⟩
  have hset : E.size payload = none ∨ ∃ results, s'.results.set E.cache E.size v.queryId dataHash
      payload (E.intervalMs v.queryId) s'.now = some results ∧ E.size payload ≠ none := by
    unfold ResultCache.set
    cases E.size payload with
    | none => exact .inl rfl
    | some n => exact .inr ⟨_, rfl, nofun⟩
  unfold afterRun
  rcases hset with hsize | ⟨results, hset, hsize⟩
  · have hset : s'.results.set E.cache E.size v.queryId dataHash payload (E.intervalMs v.queryId)
        s'.now = none := by rw [ResultCache.set, hsize]; rfl
    have hescapes := hescapes (.inr hsize)
    rw [hset]
    cases v.raisesIn with
    | none => exact .escaped hescapes (.inr hnow) hdue hbackoff
    | some later => cases later <;> exact .escaped hescapes (.inr hnow) hdue hbackoff
  · rw [hset]
    cases hraises : v.raisesIn with
    | none =>
      refine .ran ?_ hruns (hran ▸ nofun) hnow ?_ ?_
      rotate_left
      · rw [← hnow, ← hdue]
        rfl
      · rw [← hbackoff]
        rfl
      rintro (hload | ⟨-, ran, hran', hlater | hnot⟩)
      · exact absurd (hload.symm.trans hruns.1) nofun
      · exact hlater hraises
      · obtain rfl := Option.some.inj (hran.symm.trans hran')
        exact hsize hnot
    | some later =>
      have hescapes := hescapes (.inl (hraises ▸ nofun))
      cases later <;> exact .escaped hescapes (.inr hnow) hdue hbackoff

theorem processed (E : PacingEnv P) (s : Schedule P) (v : Visit P) :
    Processed E s v (process E s v).1 (process E s v).2 := by
  have hcaught : v.connection ≠ .raises → ¬ v.Runs → ¬ v.Escapes E := by
    rintro hload hruns (hraises | hescapes)
    · exact hload hraises
    · exact hruns hescapes.1
  unfold process
  simp only
  split
  next hraises => exact .escaped (.inl hraises) (.inl rfl) rfl rfl
  next hgone =>
    have hruns : ¬ v.Runs := fun h => absurd (hgone.symm.trans h.1) nofun
    exact .passed (hcaught (hgone ▸ nofun) hruns) hruns rfl rfl
  next paused hfound =>
    split
    next fresh results hget =>
      have hruns : ¬ v.Runs := fun h => by simp [hget, Visit.Runs] at h
      exact .fresh (hcaught (hfound ▸ nofun) hruns) hruns _ (Int.le_max_right _ _) rfl rfl
    next results hget =>
      by_cases hpaused : paused = true
      · rw [if_pos hpaused]
        have hruns : ¬ v.Runs := fun h => by simp [hfound, hpaused, Visit.Runs] at h
        exact .passed (hcaught (hfound ▸ nofun) hruns) hruns rfl rfl
      · rw [if_neg hpaused]
        have hruns : v.Runs := ⟨by simpa using hfound.trans (by simpa using hpaused), by rw [hget]⟩
        split
        next hran =>
          refine .failed ?_ hruns hran rfl rfl rfl
          rintro (hraises | ⟨-, ran, hran', -⟩)
          · exact absurd (hraises.symm.trans hfound) nofun
          · exact absurd (hran.symm.trans hran') nofun
        next dataHash payload hran => exact processed_afterRun hruns hran rfl rfl rfl

/-! ## The due times -/

theorem nextFactor_bounds (backoff : Option Int) :
    2 ≤ nextFactor backoff ∧ nextFactor backoff ≤ 65536 := by
  unfold nextFactor
  omega

theorem scheduleMs_pos (E : PacingEnv P) (queryId : String) : 0 < E.scheduleMs queryId :=
  Int.lt_of_lt_of_le E.minInterval_pos (Int.le_max_right _ _)

/-- A backoff is at least the interval, if that is within the longest backoff. -/
theorem le_backoff_iff (E : PacingEnv P) (queryId : String) (backoff : Option Int) :
    E.scheduleMs queryId ≤ E.backoffMs queryId backoff ↔
      E.scheduleMs queryId ≤ E.maxBackoffMs := by
  have hpos := scheduleMs_pos E queryId
  have hfactor : E.scheduleMs queryId * 1 ≤ E.scheduleMs queryId * nextFactor backoff :=
    Int.mul_le_mul_of_nonneg_left (Int.le_trans (by decide) (nextFactor_bounds backoff).1)
      (Int.le_of_lt hpos)
  rw [Int.mul_one] at hfactor
  rw [PacingEnv.backoffMs, Int.le_min]
  exact and_iff_right hfactor

/-- A query is due at the same time, with the same backoff. -/
structure SameAt (id : String) (s t : Schedule P) : Prop where
  nextDue : s.nextDue id = t.nextDue id
  backoff : s.backoff id = t.backoff id

theorem SameAt.trans {t u : Schedule P} (h : SameAt id s t) (h' : SameAt id t u) : SameAt id s u :=
  ⟨h.nextDue.trans h'.nextDue, h.backoff.trans h'.backoff⟩

/-- The other queries keep their due times. -/
theorem sameAt_process (E : PacingEnv P) (s : Schedule P) (hid : id ≠ v.queryId) :
    SameAt id (process E s v).2 s := by
  have hprocessed := processed E s v
  generalize process E s v = after at hprocessed ⊢
  obtain ⟨ending, s'⟩ := after
  cases hprocessed with
  | escaped _ _ hdue hbackoff | passed _ _ hdue hbackoff =>
    exact ⟨congrFun hdue id, congrFun hbackoff id⟩
  | fresh _ _ _ _ hdue hbackoff =>
    exact ⟨by rw [hdue, Function.update_of_ne hid], congrFun hbackoff id⟩
  | failed _ _ _ _ hdue hbackoff | ran _ _ _ _ hdue hbackoff =>
    exact ⟨by rw [hdue, Function.update_of_ne hid], by rw [hbackoff, Function.update_of_ne hid]⟩

theorem sameAt_runVisits (E : PacingEnv P) (s : Schedule P)
    (hid : id ∉ visits.map Visit.queryId) : SameAt id (runVisits E s visits).after s := by
  induction visits generalizing s with
  | nil => exact ⟨rfl, rfl⟩
  | cons v visits ih =>
    rw [List.map_cons, List.mem_cons, not_or] at hid
    have hstep := sameAt_process E s hid.1
    have hrest := (ih (process E s v).2 hid.2).trans hstep
    unfold runVisits
    split
    next h => exact (by rw [h] at hstep; exact hstep)
    next ending s' _ h =>
      rw [h] at hrest
      exact hrest

/-! ## One query does not stop the others -/

/-- Every due query had its turn, and one that failed is not due before its interval is over. -/
structure Isolated (E : PacingEnv P) (due : List String) (r : Report P) : Prop where
  processed : r.processed = due
  putBack : ∀ f ∈ r.failed, ∃ again, r.after.nextDue f.1 = some again ∧
    (f.2.later (E.scheduleMs f.1)).NotAfter again

/-- A moment that has passed is not ahead. -/
theorem not_ahead {again now : Clock} {delayMs : Int} (hpos : 0 < delayMs)
    (hreached : again.reached start = true) (hnow : start.NotAfter now) :
    ¬ (now.later delayMs).NotAfter again := by
  rintro ⟨hmono, hwall⟩
  obtain ⟨hmono', hwall'⟩ := hnow
  simp only [Clock.reached, Bool.or_eq_true, decide_eq_true_eq] at hreached
  simp only [Clock.later] at hmono hwall
  omega

theorem isolated_add_iff {r : Report P} {ending : Ending} {due : List String} :
    Isolated E (v.queryId :: due) (r.add v ending s') ↔
      Isolated E due r ∧ (ending = .failed → ∃ again, r.after.nextDue v.queryId = some again ∧
        (s'.now.later (E.scheduleMs v.queryId)).NotAfter again) := by
  have hmem : ∀ f, f ∈ (r.add v ending s').failed ↔
      (ending = .failed ∧ f = (v.queryId, s'.now)) ∨ f ∈ r.failed := by
    intro f
    by_cases hending : ending = .failed
    · simp [Report.add, hending]
    · simp [Report.add, hending]
  constructor
  · rintro ⟨hall, hback⟩
    refine ⟨⟨List.tail_eq_of_cons_eq hall, fun f hf => hback f ((hmem f).mpr (.inr hf))⟩, ?_⟩
    intro hending
    exact hback (v.queryId, s'.now) ((hmem _).mpr (.inl ⟨hending, rfl⟩))
  · rintro ⟨⟨hall, hback⟩, hfailed⟩
    refine ⟨congrArg (v.queryId :: ·) hall, fun f hf => ?_⟩
    rcases (hmem f).mp hf with ⟨hending, rfl⟩ | hf
    · exact hfailed hending
    · exact hback f hf

theorem isolated_runVisits_iff (hnodup : (visits.map Visit.queryId).Nodup)
    (horder : ∀ v ∈ visits, start.NotAfter v.looked ∧ start.NotAfter v.ended)
    (hdue : ∀ v ∈ visits, ∀ again, s.nextDue v.queryId = some again → again.reached start = true) :
    Isolated E (visits.map Visit.queryId) (runVisits E s visits) ↔ ∀ v ∈ visits, v.Contained E := by
  induction visits generalizing s with
  | nil => exact ⟨fun _ _ h => absurd h List.not_mem_nil, fun _ => ⟨rfl, fun _ h => nomatch h⟩⟩
  | cons v visits ih =>
    rw [List.map_cons, List.nodup_cons] at hnodup
    have hframe := fun id (hid : id ≠ v.queryId) => sameAt_process E s hid
    have hprocessed := processed E s v
    have hrun : runVisits E s (v :: visits) =
      match process E s v with
      | (.escaped, s) => ⟨s, [v.queryId], [(v.queryId, s.now)], [], none⟩
      | (ending, s) => (runVisits E s visits).add v ending s := by rw [runVisits]
    rw [hrun]
    generalize process E s v = after at hprocessed hframe ⊢
    obtain ⟨ending, s'⟩ := after
    -- the other queries are still due when the loop goes on
    have hrest := ih (s := s') hnodup.2 (fun w hw => horder w (List.mem_cons_of_mem _ hw)) (by
      intro w hw again hagain
      have hne : w.queryId ≠ v.queryId :=
        fun heq => hnodup.1 (heq ▸ List.mem_map_of_mem hw)
      exact hdue w (List.mem_cons_of_mem _ hw) again ((hframe _ hne).nextDue.symm.trans hagain))
    have hkept := (sameAt_runVisits E s' hnodup.1).nextDue
    have hmem : (∀ w ∈ v :: visits, w.Contained E) ↔
        (∀ w ∈ visits, w.Contained E) ∧ v.Contained E := by
      rw [List.forall_mem_cons, and_comm]
    rw [hmem, List.map_cons]
    cases hprocessed with
    | escaped h hnow hsame _ =>
      refine iff_of_false ?_ fun hall => hall.2.caught h
      rintro ⟨-, hback⟩
      obtain ⟨again, hagain, hahead⟩ := hback (v.queryId, s'.now) List.mem_cons_self
      have hreached := hdue v List.mem_cons_self again ((congrFun hsame _).symm.trans hagain)
      have hafter : start.NotAfter s'.now := by
        obtain ⟨hlooked, hended⟩ := horder v List.mem_cons_self
        rcases hnow with hnow | hnow
        · exact hnow ▸ hlooked
        · exact hnow ▸ hended
      exact not_ahead (scheduleMs_pos E v.queryId) hreached hafter hahead
    | passed h hruns _ _ | fresh h hruns _ _ _ _ =>
      rw [isolated_add_iff, hrest]
      exact and_congr_right fun _ => iff_of_true nofun ⟨h, fun h => absurd h hruns⟩
    | ran h hruns hran _ _ _ =>
      rw [isolated_add_iff, hrest]
      exact and_congr_right fun _ => iff_of_true nofun ⟨h, fun _ hnone => absurd hnone hran⟩
    | failed h hruns hran hnow hdue' _ =>
      rw [isolated_add_iff, hrest, hkept, hdue', Function.update_self, hnow]
      refine and_congr_right fun _ => ?_
      constructor
      · intro hback
        obtain ⟨again, hagain, hahead⟩ := hback rfl
        obtain rfl := Option.some.inj hagain
        have hlong := Clock.later_notAfter_later_iff.mp hahead
        exact ⟨h, fun _ _ => (le_backoff_iff E v.queryId _).mp hlong⟩
      · intro hcontained _
        have hlong := hcontained.backedOff hruns hran
        exact ⟨_, rfl,
          Clock.later_notAfter_later_iff.mpr ((le_backoff_iff E v.queryId _).mpr hlong)⟩

/-- **One query does not stop the others**, exactly when nothing but runs fails and no failed query
has an interval longer than the longest backoff. -/
theorem isolated_iff (E : PacingEnv P) (s : Schedule P) (tick : Tick P) :
    Isolated E ((dueVisits s tick).map Visit.queryId) (runDueOnce E s tick) ↔
      ∀ v ∈ dueVisits s tick, v.Contained E := by
  have horder : ∀ v ∈ dueVisits s tick,
      tick.start.NotAfter v.looked ∧ tick.start.NotAfter v.ended := by
    intro v hv
    obtain ⟨hlooked, hbegan, hended, -⟩ := tick.inOrder v (List.mem_of_mem_filter hv)
    exact ⟨hlooked, (hlooked.trans hbegan).trans hended⟩
  refine isolated_runVisits_iff (tick.nodup.sublist (List.filter_sublist.map _)) horder ?_
  intro v hv again hagain
  have hdue := (List.mem_filter.mp hv).2
  simp only [Schedule.isDue] at hdue hagain
  rw [hagain] at hdue
  exact hdue

end Isolation

namespace Sample

/-- A query whose findings cannot be stored, and another one. -/
def brokenSync : Tick Nat where
  start := clock 0
  stop := clock 1
  visits :=
    [⟨"a", .found false, .empty, some ("sha256:0a", 100), some .syncing, clock 0, clock 0, clock 1⟩,
      ⟨"b", .found false, .empty, some ("sha256:0b", 100), none, clock 1, clock 1, clock 1⟩]
  nodup := by decide
  inOrder := by
    intro v hv
    simp only [List.mem_cons, List.not_mem_nil, or_false] at hv
    rcases hv with rfl | rfl <;>
      exact ⟨by decide, by decide, by decide, by decide⟩

end Sample

/-- The second query has no turn. -/
theorem sync_stops_tick :
    ¬ Isolated Sample.env
      ((dueVisits (.start (Sample.clock 0)) Sample.brokenSync).map Visit.queryId)
      (runDueOnce Sample.env (.start (Sample.clock 0)) Sample.brokenSync) :=
  fun h => absurd h.processed (by decide)

end FraudAnalyzer.Queries.Pacing
