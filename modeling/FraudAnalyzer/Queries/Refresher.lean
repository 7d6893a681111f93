import FraudAnalyzer.Clock
import FraudAnalyzer.Lib.Run
import FraudAnalyzer.Queries.Limits
import Mathlib.Data.Finset.Erase
import Mathlib.Data.Finset.Insert
import Mathlib.Logic.Function.Basic

/-!
# Background refreshes

`app/features/queries/refresher.py`. A task is what `_refresh` does after `request_refresh` has put
its query into `_in_flight`; any number of requests and tasks are interleaved at the points where
the lock is taken, and the clocks show anything. What a task writes besides the tables of this
module is left out.

`last` and the `query` of a task are for the statements only.
-/

namespace FraudAnalyzer.Queries.Refreshing

open Machine

/-- Where a task stands. `completed` is after the session is closed and before the cooldown is
forgotten, and in `recording` a failure is about to be logged. -/
inductive Stage where
  | called
  | running
  | logging
  | storing
  | syncing
  | completed
  | recording (error : AppError)
  | leaving

/-- `query` is the query as the task has loaded it, if it has. -/
structure Task where
  queryId : String
  userId : Option String
  intervalMs : Int
  stage : Stage
  query : Option SavedQuery

/-- How the last refresh of a query ended. -/
inductive Verdict where
  | completed
  | failed (at_ : Clock) (query : Option SavedQuery)

structure Refresher where
  now : Clock
  /-- `_in_flight` -/
  inFlight : Finset String
  /-- `_cooldown_until` -/
  cooldownUntil : String → Option Int
  /-- `_cooldown_wall` -/
  cooldownWall : String → Option Int
  tasks : Nat → Option Task
  /-- The number of the next task. -/
  submitted : Nat
  last : String → Option Verdict

namespace Refresher

/-- Nothing was ever refreshed. -/
def start (now : Clock) : Refresher where
  now := now
  inFlight := ∅
  cooldownUntil _ := none
  cooldownWall _ := none
  tasks _ := none
  submitted := 0
  last _ := none

/-- `_cooling_down` -/
def coolingDown (s : Refresher) (queryId : String) : Bool :=
  match s.cooldownUntil queryId with
  | none => false
  | some until_ =>
    if until_ ≤ s.now.mono then false
    else
      match s.cooldownWall queryId with
      | none => true
      | some wallUntil => decide (s.now.wall < wallUntil)

/-- `_hold_off` -/
def holdOff (s : Refresher) (queryId : String) (intervalMs : Int) : Refresher :=
  let until_ := s.now.later (max intervalMs 1)
  { s with
    cooldownUntil := Function.update s.cooldownUntil queryId (some until_.mono)
    cooldownWall := Function.update s.cooldownWall queryId (some until_.wall) }

/-- A refresh has completed: no cooldown. -/
def forget (s : Refresher) (queryId : String) : Refresher :=
  { s with
    cooldownUntil := Function.update s.cooldownUntil queryId none
    cooldownWall := Function.update s.cooldownWall queryId none }

def setTask (s : Refresher) (i : Nat) (task : Task) : Refresher :=
  { s with tasks := Function.update s.tasks i (some task) }

def setLast (s : Refresher) (queryId : String) (verdict : Verdict) : Refresher :=
  { s with last := Function.update s.last queryId (some verdict) }

/-- The `finally` of a task. -/
def leave (s : Refresher) (i : Nat) (queryId : String) : Refresher :=
  { s with
    tasks := Function.update s.tasks i none
    inFlight := s.inFlight.erase queryId }

end Refresher

/-- `request_refresh`, and whether it has started a refresh. -/
def requestRefresh (settings : Settings) (s : Refresher) (queryId : String)
    (userId : Option String) : Bool × Refresher :=
  if queryId ∈ s.inFlight then (false, s)
  else if s.coolingDown queryId then (false, s)
  else
    (true,
      { s with inFlight := insert queryId s.inFlight, submitted := s.submitted + 1 }.setTask
        s.submitted ⟨queryId, userId, settings.pollIntervalMs, .called, none⟩)

/-- `paused` is that of the connection, if there is one. A task goes on with `advance`, and `raise`
is an exception of what it is about to do. -/
inductive Action (X : Type) where
  | wait (now : Clock)
  | request (queryId : String) (userId : Option String)
  | load (i : Nat) (query : Option SavedQuery) (paused : Option Bool)
  | advance (i : Nat)
  | raise (i : Nat) (raised : Raised X)

/-- The query is loaded, and what the task does with it. -/
def loadAt (settings : Settings) (s : Refresher) (i : Nat) (task : Task)
    (query : Option SavedQuery) (paused : Option Bool) : Refresher :=
  match query, paused with
  | some query, some false =>
    s.setTask i
      { task with
        intervalMs := pollIntervalFor settings query, stage := .running, query := some query }
  | _, _ => s.setTask i { task with stage := .leaving }

def advanceAt (s : Refresher) (i : Nat) (task : Task) : Option Refresher :=
  match task.stage with
  | .called => none
  | .running => some (s.setTask i { task with stage := .logging })
  | .logging => some (s.setTask i { task with stage := .storing })
  | .storing => some (s.setTask i { task with stage := .syncing })
  | .syncing => some (s.setTask i { task with stage := .completed })
  | .completed =>
    some (((s.forget task.queryId).setLast task.queryId .completed).setTask i
      { task with stage := .leaving })
  | .recording _ => some (s.setTask i { task with stage := .leaving })
  | .leaving => some (s.leave i task.queryId)

/-- The `except` clauses: an `AppError` is logged after the query is held off, and a failure to log
it is swallowed. -/
def raiseAt {X : Type} (s : Refresher) (i : Nat) (task : Task) (raised : Raised X) :
    Option Refresher :=
  match task.stage with
  | .called | .running | .logging | .storing | .syncing =>
    let s := (s.holdOff task.queryId task.intervalMs).setLast task.queryId
      (.failed s.now task.query)
    match raised with
    | .appError error => some (s.setTask i { task with stage := .recording error })
    | .other _ => some (s.setTask i { task with stage := .leaving })
  | .recording _ => some (s.setTask i { task with stage := .leaving })
  | .completed | .leaving => none

def step {X : Type} (settings : Settings) (s : Refresher) : Action X → Option Refresher
  | .wait now => some { s with now := now }
  | .request queryId userId => some (requestRefresh settings s queryId userId).2
  | .load i query paused =>
    match s.tasks i with
    | none => none
    | some task =>
      match task.stage with
      | .called => some (loadAt settings s i task query paused)
      | _ => none
  | .advance i => (s.tasks i).bind (advanceAt s i)
  | .raise i raised => (s.tasks i).bind fun task => raiseAt s i task raised

/-! ## What holds throughout -/

/-- The interval a refresh is held off for: that of the query, or the default before it was read. -/
def heldOffMs (settings : Settings) : Option SavedQuery → Int
  | some query => pollIntervalFor settings query
  | none => settings.pollIntervalMs

/-- The last refresh has failed, and neither clock has passed one interval since. -/
def HeldOff (settings : Settings) (s : Refresher) (queryId : String) : Prop :=
  ∃ at_ query, s.last queryId = some (.failed at_ query) ∧
    (at_.later (max (heldOffMs settings query) 1)).reached s.now = false

structure SingleFlight (settings : Settings) (s : Refresher) : Prop where
  once : ∀ i j task other, s.tasks i = some task → s.tasks j = some other →
    task.queryId = other.queryId → i = j
  marked : ∀ queryId, queryId ∈ s.inFlight ↔
    ∃ i task, s.tasks i = some task ∧ task.queryId = queryId
  /-- A request starts a refresh, unless there is one or the last one has just failed. -/
  starts : ∀ queryId userId, (requestRefresh settings s queryId userId).1 = true ↔
    (∀ i task, s.tasks i = some task → task.queryId ≠ queryId) ∧ ¬ HeldOff settings s queryId
  cleared : ∀ queryId, s.last queryId = some .completed →
    s.cooldownUntil queryId = none ∧ s.cooldownWall queryId = none

/-- The moment noted at the last failure, if no refresh has completed since. -/
def heldUntil (settings : Settings) : Option Verdict → Option Clock
  | some (.failed at_ query) => some (at_.later (max (heldOffMs settings query) 1))
  | _ => none

/-- What `SingleFlight` follows from. -/
structure Sound (settings : Settings) (s : Refresher) : Prop where
  unused : ∀ i, s.submitted ≤ i → s.tasks i = none
  once : ∀ i j task other, s.tasks i = some task → s.tasks j = some other →
    task.queryId = other.queryId → i = j
  marked : ∀ queryId, queryId ∈ s.inFlight ↔
    ∃ i task, s.tasks i = some task ∧ task.queryId = queryId
  interval : ∀ i task, s.tasks i = some task → task.intervalMs = heldOffMs settings task.query
  until_ : ∀ queryId,
    s.cooldownUntil queryId = (heldUntil settings (s.last queryId)).map Clock.mono
  wallUntil : ∀ queryId,
    s.cooldownWall queryId = (heldUntil settings (s.last queryId)).map Clock.wall

section Sound

variable {X : Type} {settings : Settings} {s t : Refresher} {i j : Nat} {task next other : Task}

theorem tasks_setTask (s : Refresher) (i : Nat) (task : Task) (j : Nat) :
    (s.setTask i task).tasks j = if j = i then some task else s.tasks j :=
  Function.update_apply ..

theorem tasks_leave (s : Refresher) (i : Nat) (queryId : String) (j : Nat) :
    (s.leave i queryId).tasks j = if j = i then none else s.tasks j :=
  Function.update_apply ..

theorem tasks_leave_eq_some {queryId : String} :
    (s.leave i queryId).tasks j = some other ↔ j ≠ i ∧ s.tasks j = some other := by
  rw [tasks_leave]
  by_cases hji : j = i
  · simp [hji]
  · simp [hji]

theorem sound_start (now : Clock) : Sound settings (.start now) where
  unused _ _ := rfl
  once _ _ _ _ h := nomatch h
  marked queryId := by
    constructor
    · intro h
      exact absurd h (Finset.notMem_empty queryId)
    · rintro ⟨_, _, h, -⟩
      cases h
  interval _ _ h := nomatch h
  until_ _ := rfl
  wallUntil _ := rfl

/-- A task stays with its query. -/
theorem task_of_setTask (hi : s.tasks i = some task) (hquery : next.queryId = task.queryId)
    (hj : (s.setTask i next).tasks j = some other) :
    ∃ before, s.tasks j = some before ∧ before.queryId = other.queryId := by
  rw [tasks_setTask] at hj
  split at hj
  next hji =>
    obtain rfl := Option.some.inj hj
    exact ⟨task, hji ▸ hi, hquery.symm⟩
  next => exact ⟨other, hj, rfl⟩

/-- A task goes on. -/
theorem Sound.setTask (h : Sound settings s) (hi : s.tasks i = some task)
    (hquery : next.queryId = task.queryId)
    (hinterval : next.intervalMs = heldOffMs settings next.query) :
    Sound settings (s.setTask i next) := by
  refine ⟨?_, ?_, ?_, ?_, h.until_, h.wallUntil⟩
  · intro j hj
    have hold := h.unused j hj
    have hne : j ≠ i := by
      rintro rfl
      exact absurd (hold.symm.trans hi) nofun
    rw [tasks_setTask, if_neg hne, hold]
  · intro j k one other hj hk heq
    obtain ⟨one', hone, hone'⟩ := task_of_setTask hi hquery hj
    obtain ⟨other', hother, hother'⟩ := task_of_setTask hi hquery hk
    exact h.once j k one' other' hone hother ((hone'.trans heq).trans hother'.symm)
  · intro queryId
    rw [show (s.setTask i next).inFlight = s.inFlight from rfl, h.marked]
    constructor
    · rintro ⟨j, other, hj, hother⟩
      by_cases hji : j = i
      · subst hji
        obtain rfl := Option.some.inj (hi.symm.trans hj)
        exact ⟨j, next, (tasks_setTask ..).trans (if_pos rfl), hquery.trans hother⟩
      · exact ⟨j, other, (tasks_setTask ..).trans ((if_neg hji).trans hj), hother⟩
    · rintro ⟨j, other, hj, hother⟩
      obtain ⟨before, hbefore, heq⟩ := task_of_setTask hi hquery hj
      exact ⟨j, before, hbefore, heq.trans hother⟩
  · intro j other hj
    rw [tasks_setTask] at hj
    split at hj
    · obtain rfl := Option.some.inj hj
      exact hinterval
    · exact h.interval j other hj

/-- A refresh has failed. -/
theorem Sound.holdOff (h : Sound settings s) (queryId : String) (query : Option SavedQuery) :
    Sound settings ((s.holdOff queryId (heldOffMs settings query)).setLast queryId
      (.failed s.now query)) := by
  refine ⟨h.unused, h.once, h.marked, h.interval, ?_, ?_⟩
  all_goals
    intro id
    by_cases hid : id = queryId
    · subst hid
      simp [Refresher.holdOff, Refresher.setLast, heldUntil]
    · simp [Refresher.holdOff, Refresher.setLast, hid, h.until_, h.wallUntil]

/-- A refresh has completed. -/
theorem Sound.forget (h : Sound settings s) (queryId : String) :
    Sound settings ((s.forget queryId).setLast queryId .completed) := by
  refine ⟨h.unused, h.once, h.marked, h.interval, ?_, ?_⟩
  all_goals
    intro id
    by_cases hid : id = queryId
    · subst hid
      simp [Refresher.forget, Refresher.setLast, heldUntil]
    · simp [Refresher.forget, Refresher.setLast, hid, h.until_, h.wallUntil]

/-- A task gives back its mark. -/
theorem Sound.leave (h : Sound settings s) (hi : s.tasks i = some task) :
    Sound settings (s.leave i task.queryId) := by
  refine ⟨?_, ?_, ?_, ?_, h.until_, h.wallUntil⟩
  · intro j hj
    rw [tasks_leave]
    split
    · rfl
    · exact h.unused j hj
  · intro j k one other hj hk heq
    exact h.once j k one other (tasks_leave_eq_some.mp hj).2 (tasks_leave_eq_some.mp hk).2 heq
  · intro queryId
    rw [show (s.leave i task.queryId).inFlight = s.inFlight.erase task.queryId from rfl,
      Finset.mem_erase, h.marked]
    constructor
    · rintro ⟨hne, j, other, hj, hother⟩
      have hji : j ≠ i := by
        rintro rfl
        obtain rfl := Option.some.inj (hi.symm.trans hj)
        exact hne hother.symm
      exact ⟨j, other, tasks_leave_eq_some.mpr ⟨hji, hj⟩, hother⟩
    · rintro ⟨j, other, hj, hother⟩
      obtain ⟨hji, hbefore⟩ := tasks_leave_eq_some.mp hj
      refine ⟨?_, j, other, hbefore, hother⟩
      rintro rfl
      exact hji (h.once j i other task hbefore hi hother)
  · intro j other hj
    exact h.interval j other (tasks_leave_eq_some.mp hj).2

/-- A refresh is started where there is none. -/
theorem Sound.submit (h : Sound settings s) {queryId : String} (userId : Option String)
    (hnew : queryId ∉ s.inFlight) :
    Sound settings
      ({ s with inFlight := insert queryId s.inFlight, submitted := s.submitted + 1 }.setTask
        s.submitted ⟨queryId, userId, settings.pollIntervalMs, .called, none⟩) := by
  have hfree : ∀ j other, s.tasks j = some other → j ≠ s.submitted ∧ other.queryId ≠ queryId := by
    intro j other hj
    constructor
    · rintro rfl
      exact absurd ((h.unused _ (Nat.le_refl _)).symm.trans hj) nofun
    · intro heq
      exact hnew ((h.marked queryId).mpr ⟨j, other, hj, heq⟩)
  refine ⟨?_, ?_, ?_, ?_, h.until_, h.wallUntil⟩
  · intro j hj
    have hne : j ≠ s.submitted := fun heq => absurd hj (heq ▸ Nat.not_succ_le_self _)
    rw [tasks_setTask, if_neg hne]
    exact h.unused j (Nat.le_of_succ_le hj)
  · intro j k one other hj hk heq
    rw [tasks_setTask] at hj hk
    split at hj
    next hjs =>
      split at hk
      next hks => exact hjs.trans hks.symm
      next =>
        obtain rfl := Option.some.inj hj
        exact absurd heq.symm (hfree k other hk).2
    next =>
      split at hk
      next =>
        obtain rfl := Option.some.inj hk
        exact absurd heq (hfree j one hj).2
      next => exact h.once j k one other hj hk heq
  · intro id
    rw [show (Refresher.setTask _ _ _).inFlight = insert queryId s.inFlight from rfl,
      Finset.mem_insert]
    constructor
    · rintro (rfl | hid)
      · exact ⟨s.submitted, _, (tasks_setTask ..).trans (if_pos rfl), rfl⟩
      · obtain ⟨j, other, hj, hother⟩ := (h.marked id).mp hid
        exact ⟨j, other, (tasks_setTask ..).trans ((if_neg (hfree j other hj).1).trans hj), hother⟩
    · rintro ⟨j, other, hj, hother⟩
      rw [tasks_setTask] at hj
      split at hj
      · obtain rfl := Option.some.inj hj
        exact .inl hother.symm
      · exact .inr ((h.marked id).mpr ⟨j, other, hj, hother⟩)
  · intro j other hj
    rw [tasks_setTask] at hj
    split at hj
    · obtain rfl := Option.some.inj hj
      rfl
    · exact h.interval j other hj

theorem Sound.requestRefresh (h : Sound settings s) (queryId : String) (userId : Option String) :
    Sound settings (requestRefresh settings s queryId userId).2 := by
  unfold Refreshing.requestRefresh
  split
  · exact h
  next hnew =>
    split
    · exact h
    · exact h.submit userId hnew

theorem Sound.advanceAt (h : Sound settings s) (hi : s.tasks i = some task)
    (hstep : advanceAt s i task = some t) : Sound settings t := by
  have hinterval := h.interval i task hi
  unfold Refreshing.advanceAt at hstep
  cases hstage : task.stage with
  | called =>
    rw [hstage] at hstep
    cases hstep
  | completed =>
    rw [hstage] at hstep
    obtain rfl := Option.some.inj hstep
    exact (h.forget task.queryId).setTask hi rfl hinterval
  | leaving =>
    rw [hstage] at hstep
    obtain rfl := Option.some.inj hstep
    exact h.leave hi
  | running | logging | storing | syncing | recording =>
    rw [hstage] at hstep
    obtain rfl := Option.some.inj hstep
    exact h.setTask hi rfl hinterval

theorem Sound.raiseAt (h : Sound settings s) (hi : s.tasks i = some task) {raised : Raised X}
    (hstep : raiseAt s i task raised = some t) : Sound settings t := by
  have hinterval := h.interval i task hi
  have hheld := h.holdOff task.queryId task.query
  rw [← hinterval] at hheld
  unfold Refreshing.raiseAt at hstep
  cases hstage : task.stage with
  | completed | leaving =>
    rw [hstage] at hstep
    cases hstep
  | recording =>
    rw [hstage] at hstep
    obtain rfl := Option.some.inj hstep
    exact h.setTask hi rfl hinterval
  | called | running | logging | storing | syncing =>
    rw [hstage] at hstep
    cases raised with
    | appError error =>
      obtain rfl := Option.some.inj hstep
      exact hheld.setTask hi rfl hinterval
    | other error =>
      obtain rfl := Option.some.inj hstep
      exact hheld.setTask hi rfl hinterval

/-- The step lemma. -/
theorem Sound.step (h : Sound settings s) {a : Action X} (hstep : step settings s a = some t) :
    Sound settings t := by
  cases a with
  | wait now =>
    obtain rfl := Option.some.inj hstep
    exact ⟨h.unused, h.once, h.marked, h.interval, h.until_, h.wallUntil⟩
  | request queryId userId =>
    obtain rfl := Option.some.inj hstep
    exact h.requestRefresh queryId userId
  | load i query paused =>
    simp only [Refreshing.step] at hstep
    split at hstep
    · cases hstep
    next task hi =>
      split at hstep
      · obtain rfl := Option.some.inj hstep
        unfold loadAt
        split
        · exact h.setTask hi rfl rfl
        · exact h.setTask hi rfl (h.interval i task hi)
      · cases hstep
  | advance i =>
    obtain ⟨task, hi, hadvance⟩ := Option.bind_eq_some_iff.mp hstep
    exact h.advanceAt hi hadvance
  | raise i raised =>
    obtain ⟨task, hi, hraise⟩ := Option.bind_eq_some_iff.mp hstep
    exact h.raiseAt hi hraise

/-- The two tables are the clocks of one moment. -/
theorem coolingDown_eq {queryId : String} {until_ : Option Clock}
    (hmono : s.cooldownUntil queryId = until_.map Clock.mono)
    (hwall : s.cooldownWall queryId = until_.map Clock.wall) :
    s.coolingDown queryId = until_.any fun moment => !moment.reached s.now := by
  unfold Refresher.coolingDown
  rw [hmono, hwall]
  cases until_ with
  | none => rfl
  | some moment =>
    simp only [Option.map_some, Option.any_some, Clock.reached, Bool.not_or]
    split
    next hpast => simp [hpast]
    next hfuture => simp [hfuture, ← decide_not]

theorem Sound.coolingDown_iff (h : Sound settings s) (queryId : String) :
    s.coolingDown queryId = true ↔ HeldOff settings s queryId := by
  rw [coolingDown_eq (h.until_ queryId) (h.wallUntil queryId), HeldOff]
  cases hlast : s.last queryId with
  | none => simp [heldUntil]
  | some verdict =>
    cases verdict with
    | completed => simp [heldUntil]
    | failed at_ query =>
      simp only [heldUntil, Option.any_some, Bool.not_eq_true']
      constructor
      · intro hreached
        exact ⟨at_, query, rfl, hreached⟩
      · rintro ⟨at', query', hsame, hreached⟩
        cases hsame
        exact hreached

theorem Sound.singleFlight (h : Sound settings s) : SingleFlight settings s where
  once := h.once
  marked := h.marked
  starts queryId userId := by
    have hmark := h.marked queryId
    have hcool := h.coolingDown_iff queryId
    unfold Refreshing.requestRefresh
    split
    next hin =>
      obtain ⟨i, task, hi, htask⟩ := hmark.mp hin
      exact iff_of_false nofun fun hnew => hnew.1 i task hi htask
    next hout =>
      have hnew : ∀ i task, s.tasks i = some task → task.queryId ≠ queryId :=
        fun i task hi htask => hout (hmark.mpr ⟨i, task, hi, htask⟩)
      split
      next hcooling => exact iff_of_false nofun fun hrest => hrest.2 (hcool.mp hcooling)
      next hcooled => exact iff_of_true rfl ⟨hnew, fun hheld => hcooled (hcool.mpr hheld)⟩
  cleared queryId hlast := by
    rw [h.until_, h.wallUntil, hlast]
    exact ⟨rfl, rfl⟩

/-- **One refresh of a query at a time, and none soon after one has failed.** -/
theorem singleFlight_of_run {now : Clock} {as : List (Action X)}
    (h : Run (Refreshing.step settings) Always (.start now) as s) : SingleFlight settings s :=
  (h.invariant (fun _ _ _ hs hstep _ => hs.step hstep) (sound_start now)).singleFlight

end Sound

/-- A refresh fails before its query was loaded, and a second one is asked for. -/
theorem singleFlight_of_run_failed :
    ∃ s, Run (step .default) Always (.start ⟨0, 0⟩)
        [.request "q" none, .raise 0 (.other ()), .advance 0, .request "q" (some "u")] s ∧
      SingleFlight .default s := by
  have hrun : ∃ s, Run (step .default) Always (.start ⟨0, 0⟩)
      [.request "q" none, .raise 0 (.other ()), .advance 0, .request "q" (some "u")] s :=
    ⟨_, run_of_exec rfl⟩
  obtain ⟨s, hrun⟩ := hrun
  exact ⟨s, hrun, singleFlight_of_run hrun⟩

end FraudAnalyzer.Queries.Refreshing
