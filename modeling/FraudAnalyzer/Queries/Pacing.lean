import FraudAnalyzer.Lib.Run
import FraudAnalyzer.Queries.ResultCache
import Mathlib.Logic.Function.Basic

/-!
# What starts an execution

Unforced polls, the refresher and the scheduler, interleaved at every call of the result cache and
at every point where the lock of the refresher is taken, while time goes by on both clocks. An
execution starts when a poll has found nothing, when a refresh that a poll of a stale result has
asked for gets its turn, and when the scheduler has found a query due and no fresh result.

An execution takes any time, returns any payload or fails, and whatever comes after it may fail too.
Definitions and intervals stay as they are; what the steps write besides these tables is left out.

`history` and the `basis` of a stage are for the statements only.
-/

namespace FraudAnalyzer.Queries.Pacing

structure PacingEnv (P : Type) where
  cache : ResultCacheSettings
  size : P → Option Nat
  /-- `poll_interval_for`, of each query -/
  intervalMs : String → Int
  /-- `poll_interval_ms` -/
  defaultMs : Int
  /-- `scheduler_min_interval_ms` -/
  minIntervalMs : Int
  /-- `scheduler_max_backoff_ms` -/
  maxBackoffMs : Int
  grace_pos : 0 < cache.staleGraceMs
  minInterval_pos : 0 < minIntervalMs

/-- Who runs a query: a poll, the refresh of that query, or the scheduler. -/
inductive Runner where
  | poll (i : Nat)
  | refresh (queryId : String)
  | scheduler
  deriving DecidableEq

/-- Where one stands. `ready` is before the execution and `settling` after the result is stored. A
refresh that is `leaving` has only its place in `_in_flight` to give back. -/
inductive Turn where
  | looking (queryId : String)
  | lookingStale (queryId : String) (basis : Option Nat)
  | requesting (queryId : String) (basis : Option Nat)
  | ready (queryId : String) (basis : Option Nat)
  | running (queryId : String)
  | settling (queryId : String)
  | leaving (queryId : String)

/-- What an execution has left: a stored result that nothing has pushed out while it was fresh, the
cooldown of a refresh that failed, the backoff of a scheduled run that failed; or nothing. -/
inductive Mark where
  | running
  | stored (at_ : Clock)
  | heldOff (at_ : Clock)
  | backedOff (at_ : Clock)
  | lost

structure Start where
  at_ : Clock
  runner : Runner
  mark : Mark

/-- `inFlight` is the refreshes among `turns`: the query of each is in `_in_flight`. -/
structure Schedule (P : Type) where
  now : Clock
  results : ResultCache P
  turns : Runner → Option Turn
  /-- `_cooldown_until` and `_cooldown_wall` -/
  cooldown : String → Option Clock
  /-- `_next_due` and `_next_due_wall` -/
  nextDue : String → Option Clock
  /-- `_backoff` -/
  backoff : String → Option Int
  /-- The due queries of the tick that are still to come. -/
  due : List String
  /-- The executions of each query that have started, the last one first. -/
  history : String → List Start

namespace Schedule

variable {P : Type}

/-- Nothing is cached and nobody waits. -/
def start (now : Clock) : Schedule P where
  now := now
  results := .empty
  turns _ := none
  cooldown _ := none
  nextDue _ := none
  backoff _ := none
  due := []
  history _ := []

def put (s : Schedule P) (r : Runner) (turn : Turn) : Schedule P :=
  { s with turns := Function.update s.turns r (some turn) }

def drop (s : Schedule P) (r : Runner) : Schedule P :=
  { s with turns := Function.update s.turns r none }

/-- The number of executions that have started, if the last one is over. -/
def basis (s : Schedule P) (queryId : String) : Option Nat :=
  match s.history queryId with
  | [] => some 0
  | last :: older =>
    match last.mark with
    | .running => none
    | _ => some (older.length + 1)

def begin_ (s : Schedule P) (queryId : String) (r : Runner) : Schedule P :=
  { s with
    history := Function.update s.history queryId (⟨s.now, r, .running⟩ :: s.history queryId) }

/-- The last execution is over. -/
def setMark (mark : Mark) : List Start → List Start
  | [] => []
  | last :: older => { last with mark := mark } :: older

def leave (s : Schedule P) (queryId : String) (mark : Mark) : Schedule P :=
  { s with history := Function.update s.history queryId (setMark mark (s.history queryId)) }

/-- The result of the last execution was pushed out. -/
def push : List Start → List Start
  | ⟨at_, runner, .stored _⟩ :: older => ⟨at_, runner, .lost⟩ :: older
  | history => history

/-- A new result is in the cache; fresh results may have been pushed out for it. -/
def setResults (s : Schedule P) (queryId : String) (results : ResultCache P) : Schedule P :=
  { s with
    results := results
    history := fun id =>
      if id = queryId then
        setMark (if (results.get id).isSome then .stored s.now else .lost) (s.history id)
      else if (s.results.get id).any (·.isFresh s.now) && (results.get id).isNone then
        push (s.history id)
      else s.history id }

/-- `_hold_off` -/
def holdOff (s : Schedule P) (queryId : String) (intervalMs : Int) : Schedule P :=
  { s with
    cooldown := Function.update s.cooldown queryId (some (s.now.later (max intervalMs 1))) }

/-- `_cooling_down` -/
def coolingDown (s : Schedule P) (queryId : String) : Bool :=
  match s.cooldown queryId with
  | none => false
  | some until_ => !until_.reached s.now

/-- `_is_due` -/
def isDue (s : Schedule P) (queryId : String) : Bool :=
  match s.nextDue queryId with
  | none => true
  | some due => due.reached s.now

/-- `_set_due_in` -/
def setDueIn (s : Schedule P) (queryId : String) (delayMs : Int) : Schedule P :=
  { s with nextDue := Function.update s.nextDue queryId (some (s.now.later delayMs)) }

/-- The scheduler goes on to the next query that was due. -/
def next (s : Schedule P) : Schedule P :=
  match s.due with
  | [] => s.drop .scheduler
  | queryId :: due => { s with due := due }.put .scheduler (.looking queryId)

end Schedule

section Step

variable {P : Type}

/-- `interval_for` -/
def PacingEnv.scheduleMs (E : PacingEnv P) (queryId : String) : Int :=
  max (E.intervalMs queryId) E.minIntervalMs

/-- `_reschedule` -/
def reschedule (E : PacingEnv P) (s : Schedule P) (queryId : String) (failed : Bool) : Schedule P :=
  let base := E.scheduleMs queryId
  if failed then
    let factor := min (max ((s.backoff queryId).getD 1 * 2) 2) 65536
    { s with backoff := Function.update s.backoff queryId (some factor) }.setDueIn queryId
      (min (base * factor) E.maxBackoffMs)
  else
    { s with backoff := Function.update s.backoff queryId none }.setDueIn queryId base

/-- `request_refresh`; the refresh is submitted under the name of its query. -/
def requestRefresh (s : Schedule P) (queryId : String) (basis : Option Nat) : Schedule P :=
  if (s.turns (.refresh queryId)).isSome then s
  else if s.coolingDown queryId then s
  else s.put (.refresh queryId) (.ready queryId basis)

/-- `advance` is the next step of a runner, `finish` the end of its execution with the storing of
the result, and `fail` an exception. A runner that is not to execute after all does `skip`: the
query or its connection is gone, or the connection is paused. -/
inductive Move (P : Type) where
  | wait (now : Clock)
  | poll (i : Nat) (queryId : String)
  | tick (queryIds : List String)
  | advance (r : Runner)
  | finish (r : Runner) (dataHash : String) (payload : P)
  | fail (r : Runner)
  | skip (r : Runner)

/-- The next step of a poll, up to its execution, and of a refresh and the scheduler. -/
def advance (E : PacingEnv P) (s : Schedule P) (r : Runner) : Turn → Option (Schedule P)
  | .looking queryId =>
    match s.results.getFresh queryId s.now with
    | (some fresh, results) =>
      let s := { s with results := results }
      match r with
      | .scheduler => some (s.setDueIn queryId (max (fresh.ttlMs - fresh.ageMs s.now) 0)).next
      | _ => some (s.drop r)
    | (none, results) =>
      let basis := s.basis queryId
      let s := { s with results := results }
      match r with
      | .scheduler => some (s.put r (.ready queryId basis))
      | _ => some (s.put r (.lookingStale queryId basis))
  | .lookingStale queryId basis =>
    match s.results.getStale E.cache queryId s.now with
    | (some _, results) => some ({ s with results := results }.put r (.requesting queryId basis))
    | (none, results) => some ({ s with results := results }.put r (.ready queryId basis))
  | .requesting queryId basis => some ((requestRefresh s queryId basis).drop r)
  | .ready queryId _ => some ((s.begin_ queryId r).put r (.running queryId))
  | .running _ => none
  | .settling queryId =>
    match r with
    | .scheduler => some (reschedule E s queryId false).next
    | _ =>
      some ({ s with cooldown := Function.update s.cooldown queryId none }.put r (.leaving queryId))
  | .leaving _ => some (s.drop r)

/-- An exception: a poll ends, a refresh holds the query off, and a scheduled run is put back. After
a scheduled run has succeeded an exception ends the tick. -/
def failAt (E : PacingEnv P) (s : Schedule P) (r : Runner) : Turn → Option (Schedule P)
  | .running queryId =>
    match r with
    | .poll _ => some ((s.leave queryId .lost).drop r)
    | .refresh _ =>
      some (((s.leave queryId (.heldOff s.now)).holdOff queryId (E.intervalMs queryId)).put r
        (.leaving queryId))
    | .scheduler => some (reschedule E (s.leave queryId (.backedOff s.now)) queryId true).next
  | .ready queryId _ =>
    match r with
    | .refresh _ => some ((s.holdOff queryId E.defaultMs).put r (.leaving queryId))
    | _ => some (s.drop r)
  | .settling queryId =>
    match r with
    | .refresh _ => some ((s.holdOff queryId (E.intervalMs queryId)).put r (.leaving queryId))
    | _ => some (s.drop r)
  | .looking _ | .lookingStale _ _ | .requesting _ _ => some (s.drop r)
  | .leaving _ => none

/-- No execution after all; or one that succeeded, and then its record could not be written. -/
def skipAt (E : PacingEnv P) (s : Schedule P) (r : Runner) : Turn → Option (Schedule P)
  | .ready _ _ =>
    match r with
    | .scheduler => some s.next
    | _ => some (s.drop r)
  | .running queryId =>
    match r with
    | .refresh _ => failAt E s r (.running queryId)
    | _ => some ((s.leave queryId .lost).drop r)
  | _ => none

def move (E : PacingEnv P) (s : Schedule P) : Move P → Option (Schedule P)
  | .wait now => if Clock.NotAfter s.now now then some { s with now := now } else none
  | .poll i queryId =>
    match s.turns (.poll i) with
    | some _ => none
    | none => some (s.put (.poll i) (.looking queryId))
  | .tick queryIds =>
    match s.turns .scheduler with
    | some _ => none
    | none =>
      if queryIds.Nodup then some { s with due := queryIds.filter s.isDue }.next else none
  | .advance r => (s.turns r).bind (advance E s r)
  | .finish r dataHash payload =>
    match s.turns r with
    | some (.running queryId) =>
      match s.results.set E.cache E.size queryId dataHash payload (E.intervalMs queryId) s.now with
      | none => none
      | some results =>
        let s := s.setResults queryId results
        match r with
        | .poll _ => some (s.drop r)
        | _ => some (s.put r (.settling queryId))
    | _ => none
  | .fail r => (s.turns r).bind (failAt E s r)
  | .skip r => (s.turns r).bind (skipAt E s r)

end Step

/-! ## A small installation -/

namespace Sample

/-- Every query has the default interval of five seconds; a payload is its length. -/
def env : PacingEnv Nat where
  cache := ⟨64 * 1024 * 1024, 300000⟩
  size := some
  intervalMs _ := 5000
  defaultMs := 5000
  minIntervalMs := 60000
  maxBackoffMs := 3600000
  grace_pos := by decide
  minInterval_pos := by decide

/-- A reading of both clocks, in seconds. -/
def clock (t : Int) : Clock := ⟨1000000 * t, 1000000 * t⟩

/-- A poll that finds nothing, up to its execution. -/
def coldPoll (i : Nat) : List (Move Nat) :=
  [.advance (.poll i), .advance (.poll i), .advance (.poll i)]

end Sample

end FraudAnalyzer.Queries.Pacing
