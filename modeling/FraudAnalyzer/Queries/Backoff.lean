import FraudAnalyzer.Queries.Scheduler
import Mathlib.Data.List.Chain

/-!
# How often the scheduler runs a query

Any number of ticks, with any results in the cache and any failures of the runs, while both clocks
advance equally. The executions of a query are an interval apart, the delays after failures do not
shrink and a success resets them, for every query whose interval is within the longest backoff; a
query with a longer interval is asked more often once it fails (`paced_iff`).
-/

namespace FraudAnalyzer.Queries.Pacing

open Machine

/-- The scheduler with the executions it has started, the last one first. -/
structure Watch (P : Type) where
  schedule : Schedule P
  executions : List Execution

section Step

variable {P : Type}

def Watch.start (now : Clock) : Watch P := ⟨.start now, []⟩

/-- The executions of one query. -/
def Watch.of (w : Watch P) (queryId : String) : List Execution :=
  w.executions.filter fun e => e.queryId = queryId

def tickStep (E : PacingEnv P) (w : Watch P) (tick : Tick P) : Option (Watch P) :=
  if w.schedule.now.NotAfter tick.start then
    let r := runDueOnce E w.schedule tick
    some ⟨{ r.after with now := tick.stop }, r.executions ++ w.executions⟩
  else none

/-- The clocks advance equally, and nothing but runs fails. -/
structure Steady (E : PacingEnv P) (w : Watch P) (tick : Tick P) : Prop where
  start : w.schedule.now.InStep tick.start
  stop : tick.start.InStep tick.stop
  looked : ∀ v ∈ tick.visits, tick.start.InStep v.looked
  ended : ∀ v ∈ tick.visits, tick.start.InStep v.ended
  caught : ∀ v ∈ tick.visits, ¬ v.Escapes E

/-- After the execution the query is due again in so many milliseconds. -/
def Execution.Waits (e : Execution) (delayMs : Int) : Prop := e.due = some (e.ended.later delayMs)

structure Paced (E : PacingEnv P) (queryId : String) (w : Watch P) : Prop where
  apart : (w.of queryId).Pairwise fun later earlier =>
    (earlier.began.later (E.scheduleMs queryId)).NotAfter later.began
  backsOff : (w.of queryId).IsChain fun later earlier => earlier.failed = true →
    later.failed = true → ∃ delay longer, earlier.Waits delay ∧ later.Waits longer ∧ delay ≤ longer
  resets : ∀ e ∈ w.of queryId, e.failed = false → e.Waits (E.scheduleMs queryId)

end Step

section Paced

variable {P : Type} {E : PacingEnv P} {s : Schedule P} {w w' : Watch P} {v : Visit P}
  {visits : List (Visit P)} {tick : Tick P} {id : String}

/-! ## A tick, as one query sees it -/

theorem mem_executions_of_runVisits {e : Execution} (h : e ∈ (runVisits E s visits).executions) :
    e.queryId ∈ visits.map Visit.queryId := by
  induction visits generalizing s with
  | nil => cases h
  | cons v visits ih =>
    unfold runVisits at h
    split at h
    next => cases h
    next ending s' _ _ =>
      rcases List.mem_append.mp h with h | h
      · exact List.mem_cons_of_mem _ (ih h)
      · cases ending with
        | passed | escaped => cases h
        | failed | ran =>
          obtain rfl := List.mem_singleton.mp h
          exact List.mem_cons_self

theorem filter_executions_of_notMem (hid : id ∉ visits.map Visit.queryId) :
    (runVisits E s visits).executions.filter (fun e => e.queryId = id) = [] := by
  rw [List.filter_eq_nil_iff]
  intro e he heq
  exact hid (of_decide_eq_true heq ▸ mem_executions_of_runVisits he)

theorem filter_executions_visit (v : Visit P) (ending : Ending) (s : Schedule P) :
    (v.executions ending s).filter (fun e => e.queryId = v.queryId) = v.executions ending s := by
  cases ending <;> simp [Visit.executions]

theorem filter_executions_visit_of_ne (hid : id ≠ v.queryId) (ending : Ending) (s : Schedule P) :
    (v.executions ending s).filter (fun e => e.queryId = id) = [] := by
  cases ending <;> simp [Visit.executions, hid.symm]

/-- The loop comes to a query once, with the due time and the backoff it had before the tick. -/
theorem runVisits_at (hnodup : (visits.map Visit.queryId).Nodup)
    (hcaught : ∀ v ∈ visits, ¬ v.Escapes E) (hv : v ∈ visits) :
    ∃ s', SameAt v.queryId s' s ∧
      SameAt v.queryId (runVisits E s visits).after (process E s' v).2 ∧
      (runVisits E s visits).executions.filter (fun e => e.queryId = v.queryId) =
        v.executions (process E s' v).1 (process E s' v).2 := by
  induction visits generalizing s with
  | nil => cases hv
  | cons first visits ih =>
    rw [List.map_cons, List.nodup_cons] at hnodup
    have hrun : runVisits E s (first :: visits) =
        (runVisits E (process E s first).2 visits).add first (process E s first).1
          (process E s first).2 := by
      have hprocessed := processed E s first
      rw [runVisits]
      generalize process E s first = after at hprocessed ⊢
      obtain ⟨ending, s'⟩ := after
      cases hprocessed with
      | escaped h _ _ _ => exact absurd h (hcaught first List.mem_cons_self)
      | passed | fresh | failed | ran => rfl
    rw [hrun]
    rcases List.mem_cons.mp hv with rfl | hlater
    · refine ⟨s, ⟨rfl, rfl⟩, sameAt_runVisits E _ hnodup.1, ?_⟩
      simp only [Report.add, List.filter_append]
      rw [filter_executions_of_notMem hnodup.1, filter_executions_visit, List.nil_append]
    · have hne : v.queryId ≠ first.queryId :=
        fun heq => hnodup.1 (heq ▸ List.mem_map_of_mem hlater)
      obtain ⟨s', hsame, hafter, hexecutions⟩ :=
        ih hnodup.2 (fun w hw => hcaught w (List.mem_cons_of_mem _ hw)) hlater
      refine ⟨s', hsame.trans (sameAt_process E s hne), hafter, ?_⟩
      simp only [Report.add, List.filter_append]
      rw [hexecutions, filter_executions_visit_of_ne hne, List.append_nil]

/-! ## What an execution leaves to the next one -/

/-- The query is not due before its interval is over, and its backoff is that of the delay. -/
structure LeftBy (E : PacingEnv P) (s : Schedule P) (queryId : String) (e : Execution) : Prop where
  due : ∃ due, s.nextDue queryId = some due ∧
    (e.began.later (E.scheduleMs queryId)).NotAfter due
  backoff : e.failed = true →
    ∃ before, s.backoff queryId = some (nextFactor before) ∧ e.Waits (E.backoffMs queryId before)

structure Sound (E : PacingEnv P) (queryId : String) (w : Watch P) : Prop where
  paced : Paced E queryId w
  inStep : ∀ due, w.schedule.nextDue queryId = some due → w.schedule.now.InStep due
  last : ∀ e ∈ (w.of queryId).head?, LeftBy E w.schedule queryId e

theorem sound_start (now : Clock) : Sound E id (.start now) where
  paced := ⟨List.Pairwise.nil, List.IsChain.nil, fun _ h => nomatch h⟩
  inStep _ h := nomatch h
  last _ h := nomatch h

/-- Each execution was an interval before the query is due. -/
theorem Sound.before_due (h : Sound E id w) {e : Execution} (he : e ∈ w.of id) :
    ∃ due, w.schedule.nextDue id = some due ∧ (e.began.later (E.scheduleMs id)).NotAfter due := by
  have hlast := h.last
  have hapart := h.paced.apart
  cases hof : w.of id with
  | nil =>
    rw [hof] at he
    cases he
  | cons newest older =>
    rw [hof] at he hlast hapart
    obtain ⟨due, hdue, hnewest⟩ := (hlast newest rfl).due
    refine ⟨due, hdue, ?_⟩
    rcases List.mem_cons.mp he with rfl | he
    · exact hnewest
    · have hbefore := (List.pairwise_cons.mp hapart).1 e he
      have hpos := Int.le_of_lt (scheduleMs_pos E id)
      exact (hbefore.later hpos).trans hnewest

/-- What a failure adds to the factor does not shrink the delay. -/
theorem backoffMs_mono (E : PacingEnv P) (queryId : String) (before : Option Int) :
    E.backoffMs queryId before ≤ E.backoffMs queryId (some (nextFactor before)) := by
  have hfactor : nextFactor before ≤ nextFactor (some (nextFactor before)) := by
    have hbounds := nextFactor_bounds before
    generalize nextFactor before = factor at hbounds
    simp only [nextFactor, Option.getD_some]
    omega
  have hmul := Int.mul_le_mul_of_nonneg_left hfactor (Int.le_of_lt (scheduleMs_pos E queryId))
  unfold PacingEnv.backoffMs
  omega

/-- The query is not run. -/
theorem Sound.skip (h : Sound E id w) (hof : w'.of id = w.of id)
    (hbackoff : w'.schedule.backoff id = w.schedule.backoff id)
    (hstep : ∀ due, w'.schedule.nextDue id = some due → w'.schedule.now.InStep due)
    (hdue : ∀ due, w.schedule.nextDue id = some due →
      ∃ due', w'.schedule.nextDue id = some due' ∧ due.NotAfter due') : Sound E id w' where
  paced := by
    obtain ⟨hapart, hback, hresets⟩ := h.paced
    rw [← hof] at hapart hback hresets
    exact ⟨hapart, hback, hresets⟩
  inStep := hstep
  last e he := by
    rw [hof] at he
    obtain ⟨⟨due, hsome, hbefore⟩, hfailed⟩ := h.last e he
    obtain ⟨due', hsome', hlater⟩ := hdue due hsome
    refine ⟨⟨due', hsome', hbefore.trans hlater⟩, fun hfail => ?_⟩
    obtain ⟨before, hb, hwaits⟩ := hfailed hfail
    exact ⟨before, hbackoff.trans hb, hwaits⟩

/-- The query is run once more, when it was due. -/
theorem Sound.execute (h : Sound E id w) {e : Execution} (hof : w'.of id = e :: w.of id)
    (hstep : ∀ due, w'.schedule.nextDue id = some due → w'.schedule.now.InStep due)
    (hdue : ∀ due, w.schedule.nextDue id = some due → due.NotAfter e.began)
    (hleft : LeftBy E w'.schedule id e) (hresets : e.failed = false → e.Waits (E.scheduleMs id))
    (hlonger : e.failed = true → e.Waits (E.backoffMs id (w.schedule.backoff id))) :
    Sound E id w' where
  paced := by
    refine ⟨?_, ?_, ?_⟩
    · rw [hof, List.pairwise_cons]
      refine ⟨fun earlier hearlier => ?_, h.paced.apart⟩
      obtain ⟨due, hsome, hbefore⟩ := h.before_due hearlier
      exact hbefore.trans (hdue due hsome)
    · rw [hof, List.isChain_cons]
      refine ⟨fun earlier hearlier hfailed hfails => ?_, h.paced.backsOff⟩
      obtain ⟨before, hbackoff, hwaits⟩ := (h.last earlier hearlier).backoff hfailed
      have hwaits' := hlonger hfails
      rw [hbackoff] at hwaits'
      exact ⟨_, _, hwaits, hwaits', backoffMs_mono E id before⟩
    · intro x hx
      rw [hof] at hx
      rcases List.mem_cons.mp hx with rfl | hx
      · exact hresets
      · exact h.paced.resets x hx
  inStep := hstep
  last x hx := by
    rw [hof] at hx
    obtain rfl := Option.some.inj hx
    exact hleft

/-- The step lemma: one case for what the processing of the query can do. -/
theorem Sound.step (hlong : E.scheduleMs id ≤ E.maxBackoffMs) (h : Sound E id w)
    (hsteady : Steady E w tick) (hstep : tickStep E w tick = some w') : Sound E id w' := by
  unfold tickStep at hstep
  split at hstep
  · obtain rfl := Option.some.inj hstep
    have hnow : ∀ due, w.schedule.nextDue id = some due → tick.stop.InStep due :=
      fun due hdue => (hsteady.start.trans hsteady.stop).symm.trans (h.inStep due hdue)
    by_cases hid : id ∈ (dueVisits w.schedule tick).map Visit.queryId
    · obtain ⟨v, hv, rfl⟩ := List.mem_map.mp hid
      have hmem := List.mem_of_mem_filter hv
      obtain ⟨hlooked, hbegan, hended, -⟩ := tick.inOrder v hmem
      have hstopLooked := hsteady.stop.symm.trans (hsteady.looked v hmem)
      have hstopEnded := hsteady.stop.symm.trans (hsteady.ended v hmem)
      have hpassed : ∀ due, w.schedule.nextDue v.queryId = some due →
          due.NotAfter tick.start := by
        intro due hdue
        have hisDue := (List.mem_filter.mp hv).2
        simp only [Schedule.isDue, hdue] at hisDue
        exact Clock.notAfter_of_reached ((hnow due hdue).symm.trans hsteady.stop.symm) hisDue
      obtain ⟨s', hsame, hafter, hexecutions⟩ := runVisits_at
        (E := E) (s := { w.schedule with now := tick.start })
        (tick.nodup.sublist (List.filter_sublist.map _))
        (fun v hv => hsteady.caught v (List.mem_of_mem_filter hv)) hv
      have hof : ((runDueOnce E w.schedule tick).executions ++ w.executions).filter
            (fun e => e.queryId = v.queryId) =
          v.executions (process E s' v).1 (process E s' v).2 ++ w.of v.queryId := by
        rw [List.filter_append]
        exact congrArg (· ++ _) hexecutions
      have hafterDue : (runDueOnce E w.schedule tick).after.nextDue v.queryId =
        (process E s' v).2.nextDue v.queryId := hafter.nextDue
      have hafterBackoff : (runDueOnce E w.schedule tick).after.backoff v.queryId =
        (process E s' v).2.backoff v.queryId := hafter.backoff
      have hsameDue : s'.nextDue v.queryId = w.schedule.nextDue v.queryId := hsame.nextDue
      have hsameBackoff : s'.backoff v.queryId = w.schedule.backoff v.queryId := hsame.backoff
      have hprocessed := processed E s' v
      generalize (process E s' v).1 = ending at hprocessed hof
      generalize (process E s' v).2 = t at hprocessed hof hafterDue hafterBackoff
      cases hprocessed with
      | escaped hescapes _ _ _ => exact absurd hescapes (hsteady.caught v hmem)
      | passed _ _ hdue hbackoff =>
        simp only [hdue, hbackoff, hsameDue, hsameBackoff] at hafterDue hafterBackoff
        refine h.skip hof hafterBackoff ?_ ?_
        · intro due hsome
          exact hnow due (hafterDue.symm.trans hsome)
        · intro due hsome
          exact ⟨due, hafterDue.trans hsome, .refl due⟩
      | fresh _ _ delayMs hdelay hdue hbackoff =>
        simp only [hdue, hbackoff, hsameBackoff, Function.update_self] at hafterDue hafterBackoff
        refine h.skip hof hafterBackoff ?_ ?_
        · intro due hsome
          obtain rfl := Option.some.inj (hafterDue.symm.trans hsome)
          exact hstopLooked.later delayMs
        · intro due hsome
          exact ⟨_, hafterDue, ((hpassed due hsome).trans hlooked).later hdelay⟩
      | failed _ _ _ _ hdue hbackoff =>
        simp only [hdue, hbackoff, hsameBackoff, Function.update_self] at hafterDue hafterBackoff
        have hwaits : t.nextDue v.queryId =
            some (v.ended.later (E.backoffMs v.queryId (w.schedule.backoff v.queryId))) := by
          rw [hdue, Function.update_self, hsameBackoff]
        refine h.execute hof ?_ ?_ ?_ (fun heq => by cases heq) (fun _ => hwaits)
        · intro due hsome
          obtain rfl := Option.some.inj (hafterDue.symm.trans hsome)
          exact hstopEnded.later _
        · exact fun due hsome => ((hpassed due hsome).trans hlooked).trans hbegan
        · refine ⟨⟨_, hafterDue, ?_⟩, fun _ => ⟨_, hafterBackoff, hwaits⟩⟩
          exact hended.later_later ((le_backoff_iff E v.queryId _).mpr hlong)
      | ran _ _ _ _ hdue hbackoff =>
        simp only [hdue, hbackoff, Function.update_self] at hafterDue hafterBackoff
        have hwaits : t.nextDue v.queryId =
            some (v.ended.later (E.scheduleMs v.queryId)) := by
          rw [hdue, Function.update_self]
        refine h.execute hof ?_ ?_ ?_ (fun _ => hwaits) (fun heq => by cases heq)
        · intro due hsome
          obtain rfl := Option.some.inj (hafterDue.symm.trans hsome)
          exact hstopEnded.later _
        · exact fun due hsome => ((hpassed due hsome).trans hlooked).trans hbegan
        · exact ⟨⟨_, hafterDue, hended.later_later (Int.le_refl _)⟩, fun heq => by cases heq⟩
    · obtain ⟨hdue, hbackoff⟩ := sameAt_runVisits E { w.schedule with now := tick.start } hid
      refine h.skip ?_ hbackoff ?_ ?_
      · simp only [Watch.of, List.filter_append]
        exact congrArg (· ++ _) (filter_executions_of_notMem hid)
      · intro due hsome
        exact hnow due (hdue.symm.trans hsome)
      · intro due hsome
        exact ⟨due, hdue.trans hsome, .refl due⟩
  · cases hstep

/-! ## An interval that is longer than the longest backoff -/

/-- The run of a query fails at once, without any result in the cache. -/
def failing (queryId : String) (now : Clock) : Tick P where
  start := now
  stop := now
  visits := [⟨queryId, .found false, .empty, none, none, now, now, now⟩]
  nodup := List.nodup_singleton _
  inOrder v hv := by
    obtain rfl := List.mem_singleton.mp hv
    exact ⟨.refl now, .refl now, .refl now, .refl now⟩

theorem tickStep_failing {now : Clock} (hnow : w.schedule.now.NotAfter now)
    (hdue : ∀ due, w.schedule.nextDue id = some due → due.reached now = true) :
    ∃ w', tickStep E w (failing id now) = some w' ∧ w'.schedule.now = now ∧
      w'.schedule.nextDue id = some (now.later (E.backoffMs id (w.schedule.backoff id))) ∧
        ∃ due, w'.of id = ⟨id, now, now, true, due⟩ :: w.of id := by
  have hvisits : dueVisits w.schedule (failing id now) = (failing id now : Tick P).visits := by
    unfold dueVisits
    rw [List.filter_eq_self]
    intro v hv
    obtain rfl := List.mem_singleton.mp hv
    unfold Schedule.isDue
    cases hsome : w.schedule.nextDue id with
    | none => rfl
    | some due => exact hdue due hsome
  have hstart : w.schedule.now.NotAfter (failing id now : Tick P).start := hnow
  let after := reschedule E { w.schedule with now := now, results := .empty } id true
  have hafter : after.nextDue id =
    some (now.later (E.backoffMs id (w.schedule.backoff id))) := Function.update_self ..
  have hexecutions : (runDueOnce E w.schedule (failing id now)).executions =
      [⟨id, now, now, true, after.nextDue id⟩] := by
    rw [runDueOnce, hvisits]
    rfl
  have hreport : (runDueOnce E w.schedule (failing id now)).after = after := by
    rw [runDueOnce, hvisits]
    rfl
  unfold tickStep
  rw [if_pos hstart]
  simp only [hexecutions, hreport]
  exact ⟨_, rfl, rfl, hafter, after.nextDue id, by simp [Watch.of]⟩

theorem steady_failing {now : Clock} (h : w.schedule.now.InStep now) :
    Steady E w (failing id now) where
  start := h
  stop := .refl now
  looked v hv := by
    obtain rfl := List.mem_singleton.mp hv
    exact .refl now
  ended v hv := by
    obtain rfl := List.mem_singleton.mp hv
    exact .refl now
  caught v hv := by
    obtain rfl := List.mem_singleton.mp hv
    rintro (hload | ⟨-, ran, hran, -⟩)
    · cases hload
    · cases hran

/-- The query fails, and fails again as soon as it is due. -/
theorem exists_not_paced (E : PacingEnv P) (h : E.maxBackoffMs < E.scheduleMs id) :
    ∃ now ticks w, Run (tickStep E) (Steady E) (.start now) ticks w ∧ ¬ Paced E id w := by
  have hpos := scheduleMs_pos E id
  have hnever : ∀ due, (Watch.start ⟨0, 0⟩ : Watch P).schedule.nextDue id = some due →
      due.reached ⟨0, 0⟩ = true := fun _ hdue => nomatch hdue
  obtain ⟨w, hw, hnow, hdue, first, hfirst⟩ :=
    tickStep_failing (E := E) (.refl (Clock.mk 0 0)) hnever
  have hbackoff : E.backoffMs id none ≤ E.maxBackoffMs := Int.min_le_right _ _
  let now := Clock.later ⟨0, 0⟩ (max (E.backoffMs id none) 0)
  have hlater : w.schedule.now.NotAfter now :=
    hnow ▸ (Clock.NotAfter.refl _).later (Int.le_max_right _ _)
  have hreached : ∀ due, w.schedule.nextDue id = some due → due.reached now = true := by
    intro due hsome
    obtain rfl := Option.some.inj (hdue.symm.trans hsome)
    simp only [Clock.reached, Bool.or_eq_true, decide_eq_true_eq]
    exact .inl (Clock.later_notAfter_later_iff.mpr (Int.le_max_left _ _)).mono
  obtain ⟨w', hw', -, -, second, hsecond⟩ := tickStep_failing (E := E) hlater hreached
  refine ⟨_, _, w', .cons hw (steady_failing (.refl _)) (.cons hw' (steady_failing ?_) (.nil w')),
    ?_⟩
  · rw [hnow]
    exact (Clock.InStep.refl _).later _
  · intro hpaced
    have hapart := hpaced.apart
    rw [hsecond, hfirst] at hapart
    have hgap := (List.pairwise_cons.mp hapart).1 _ List.mem_cons_self
    have hle := Clock.later_notAfter_later_iff.mp hgap
    omega

/-- **The scheduler keeps its distance**, whatever happens, exactly from the queries whose interval
is within the longest backoff. -/
theorem paced_iff (E : PacingEnv P) (queryId : String) :
    (∀ now ticks w, Run (tickStep E) (Steady E) (.start now) ticks w → Paced E queryId w) ↔
      E.scheduleMs queryId ≤ E.maxBackoffMs := by
  constructor
  · intro hall
    by_contra hlong
    obtain ⟨now, ticks, w, hrun, hnot⟩ := exists_not_paced E (Int.not_le.mp hlong)
    exact hnot (hall now ticks w hrun)
  · intro hlong now ticks w hrun
    exact (hrun.invariant (fun _ _ _ h hstep hsteady => h.step hlong hsteady hstep)
      (sound_start now)).paced

end Paced

/-- A query that is to run every two hours, with a longest backoff of one hour. -/
def Sample.patient : PacingEnv Nat := { Sample.env with intervalMs := fun _ => 7200000 }

theorem failing_query_hurried :
    ∃ now ticks w, Run (tickStep Sample.patient) (Steady Sample.patient) (.start now) ticks w ∧
      ¬ Paced Sample.patient "q" w :=
  exists_not_paced Sample.patient (by decide)

end FraudAnalyzer.Queries.Pacing
