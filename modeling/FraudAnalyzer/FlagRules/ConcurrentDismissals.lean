import FraudAnalyzer.FlagRules.Dismissals
import FraudAnalyzer.FlagRules.FlaggedRows
import FraudAnalyzer.Lib.Run
import FraudAnalyzer.Lib.Table
import Mathlib.Logic.Function.Basic

/-!
# Dismissals at the same time

Any number of requests of `dismiss` and `restore`, interleaved at every statement, while findings
come and go. A dismissal is inserted under the unique constraint, so `dismiss` fails when somebody
has dismissed the same finding for the same user since it read what was dismissed; in every other
run nothing fails and every count is right (`harmless_iff`).
-/

namespace FraudAnalyzer.FlagRules.Dismissing

open Machine

/-- `uq_flag_dismissals_row` -/
abbrev Dismissals := Table (id : FlagDismissal → FlagDismissal)

/-- What a request asks for. -/
inductive Asked where
  | dismiss (fingerprints : List String)
  | restore (fingerprints : Option (List String))

/-- Where a request stands, with what it has read; `done` is what it returned and the number of rows
it stored or removed. -/
inductive Stage where
  | called
  | readStored (stored : List String)
  | readExisting (stored existing : List String)
  | done (returned written : Nat)
  | failed
  deriving DecidableEq

structure Request where
  queryId : String
  userId : String
  asked : Asked
  stage : Stage

structure Desk where
  findings : Table FlaggedRow.key
  dismissals : Dismissals
  requests : Nat → Option Request

def start (findings : Table FlaggedRow.key) (dismissals : Dismissals) : Desk :=
  ⟨findings, dismissals, fun _ => none⟩

/-- `list(dict.fromkeys(fingerprints))` -/
def wanted (fingerprints : List String) : List String :=
  (fingerprints.foldl (fun d f => d.assign f ()) OrderedDict.empty).entries.map Prod.fst

/-- The fingerprints among `wanted` that are stored findings of the query. -/
def storedAmong (findings : Table FlaggedRow.key) (queryId : String) (wanted : List String) :
    List String :=
  wanted.filter fun f => (findings.get (queryId, f)).isSome

/-- `fresh`, as rows -/
def freshDismissals (queryId userId : String) (fingerprints stored existing : List String) :
    List FlagDismissal :=
  ((wanted fingerprints).filter fun f => f ∈ stored && f ∉ existing).map fun f =>
    ⟨queryId, userId, f⟩

/-- The rows that `restore` deletes. -/
def restored (queryId userId : String) (fingerprints : Option (List String)) (d : FlagDismissal) :
    Bool :=
  d.queryId = queryId && d.userId = userId && fingerprints.all fun fs => d.rowFingerprint ∈ fs

/-- `findings` is whatever else writes to the stored findings; `ask` opens a request. -/
inductive Action where
  | findings (findings : Table FlaggedRow.key)
  | ask (i : Nat) (queryId userId : String) (asked : Asked)
  | advance (i : Nat)

def Desk.put (s : Desk) (i : Nat) (r : Request) : Desk :=
  { s with requests := Function.update s.requests i (some r) }

/-- The insert, with the number of new rows; a key that is taken is an `IntegrityError`. -/
def commit (s : Desk) (i : Nat) (r : Request) (fresh : List FlagDismissal) : Desk :=
  match s.dismissals.insertAll fresh with
  | none => s.put i { r with stage := .failed }
  | some dismissals =>
    { s with dismissals := dismissals }.put i
      { r with
        stage := .done fresh.length (dismissals.rows.length - s.dismissals.rows.length) }

/-- The next statement of `dismiss`. -/
def advanceDismiss (s : Desk) (i : Nat) (r : Request) (fingerprints : List String) : Option Desk :=
  match r.stage with
  | .called =>
    if wanted fingerprints = [] then some (s.put i { r with stage := .done 0 0 })
    else
      some (s.put i
        { r with stage := .readStored (storedAmong s.findings r.queryId (wanted fingerprints)) })
  | .readStored stored =>
    some (s.put i
      { r with
        stage :=
          .readExisting stored (dismissedFingerprints s.dismissals.rows r.queryId r.userId) })
  | .readExisting stored existing =>
    some (commit s i r (freshDismissals r.queryId r.userId fingerprints stored existing))
  | .done _ _ | .failed => none

/-- `restore`, which is one statement. -/
def advanceRestore (s : Desk) (i : Nat) (r : Request) (fingerprints : Option (List String)) :
    Option Desk :=
  match r.stage with
  | .called =>
    match fingerprints with
    | some [] => some (s.put i { r with stage := .done 0 0 })
    | _ =>
      let removed := s.dismissals.rows.countP (restored r.queryId r.userId fingerprints)
      let dismissals := s.dismissals.deleteWhere (restored r.queryId r.userId fingerprints)
      some ({ s with dismissals := dismissals }.put i
        { r with stage := .done removed (s.dismissals.rows.length - dismissals.rows.length) })
  | _ => none

def step (s : Desk) : Action → Option Desk
  | .findings findings => some { s with findings := findings }
  | .ask i queryId userId asked =>
    match s.requests i with
    | none => some (s.put i ⟨queryId, userId, asked, .called⟩)
    | some _ => none
  | .advance i =>
    match s.requests i with
    | none => none
    | some r =>
      match r.asked with
      | .dismiss fingerprints => advanceDismiss s i r fingerprints
      | .restore fingerprints => advanceRestore s i r fingerprints

/-- No request has failed, nothing is dismissed twice, and every count is right. -/
structure Harmless (s : Desk) : Prop where
  unfailed : ∀ i r, s.requests i = some r → r.stage ≠ .failed
  once : s.dismissals.rows.Nodup
  counted : ∀ i r returned written, s.requests i = some r → r.stage = .done returned written →
    returned = written

/-- What a `dismiss` is about to store is not dismissed yet. -/
def Undisturbed (s : Desk) : Action → Prop
  | .advance i =>
    ∀ r fingerprints stored existing, s.requests i = some r → r.asked = .dismiss fingerprints →
      r.stage = .readExisting stored existing →
        ∀ d ∈ freshDismissals r.queryId r.userId fingerprints stored existing,
          d ∉ s.dismissals.rows
  | _ => True

section Harmless

variable {s t : Desk} {i : Nat} {r : Request}

theorem nodup_wanted (fingerprints : List String) : (wanted fingerprints).Nodup :=
  OrderedDict.nodup _

theorem nodup_freshDismissals (queryId userId : String)
    (fingerprints stored existing : List String) :
    (freshDismissals queryId userId fingerprints stored existing).Nodup := by
  refine List.Nodup.map ?_ ((nodup_wanted fingerprints).filter _)
  intro f g heq
  exact (FlagDismissal.mk.inj heq).2.2

theorem nodup_dismissals (dismissals : Dismissals) : dismissals.rows.Nodup := by
  have hnodup := dismissals.nodup
  rwa [List.map_id] at hnodup

/-- A request goes on to a stage that is not `failed`. -/
theorem Harmless.put (h : Harmless s) {next : Request} (hunfailed : next.stage ≠ .failed)
    (hcounted : ∀ returned written, next.stage = .done returned written → returned = written) :
    Harmless (s.put i next) := by
  refine ⟨?_, h.once, ?_⟩
  · intro j r hr
    simp only [Desk.put, Function.update_apply] at hr
    split at hr
    · exact Option.some.inj hr ▸ hunfailed
    · exact h.unfailed j r hr
  · intro j r returned written hr
    simp only [Desk.put, Function.update_apply] at hr
    split at hr
    · exact Option.some.inj hr ▸ hcounted returned written
    · exact h.counted j r returned written hr

theorem Harmless.setDismissals (h : Harmless s) (dismissals : Dismissals) :
    Harmless { s with dismissals := dismissals } :=
  ⟨h.unfailed, nodup_dismissals dismissals, h.counted⟩

/-- The insert succeeds when no key is taken, and the number it returns is that of its rows. -/
theorem Harmless.commit_iff (h : Harmless s) {fresh : List FlagDismissal} (hnodup : fresh.Nodup) :
    Harmless (commit s i r fresh) ↔ ∀ d ∈ fresh, d ∉ s.dismissals.rows := by
  have hkeys : (fresh.map id).Nodup := by rwa [List.map_id]
  have hinsert := Table.insertAll_isSome_iff (t := s.dismissals) hkeys
  rw [List.map_id] at hinsert
  unfold commit
  cases hall : s.dismissals.insertAll fresh with
  | none =>
    rw [hall] at hinsert
    refine iff_of_false (fun hfailed => ?_) fun hnew => absurd (hinsert.mpr hnew) nofun
    exact hfailed.unfailed i _ (Function.update_self ..) rfl
  | some dismissals =>
    rw [hall] at hinsert
    refine iff_of_true ((h.setDismissals dismissals).put nofun ?_) (hinsert.mp rfl)
    intro returned written hdone
    obtain ⟨rfl, rfl⟩ := Stage.done.inj hdone
    rw [Table.rows_insertAll hall, List.length_append, Nat.add_sub_cancel_left]

theorem Harmless.advanceDismiss_iff (h : Harmless s) (hr : s.requests i = some r)
    {fingerprints : List String} (hasked : r.asked = .dismiss fingerprints)
    (hstep : advanceDismiss s i r fingerprints = some t) :
    Harmless t ↔ Undisturbed s (.advance i) := by
  have hother : (∀ stored existing, r.stage ≠ .readExisting stored existing) →
      Undisturbed s (.advance i) := by
    intro hstage r' _ stored existing hr' _ hstage'
    obtain rfl := Option.some.inj (hr.symm.trans hr')
    exact absurd hstage' (hstage stored existing)
  unfold advanceDismiss at hstep
  cases hstage : r.stage with
  | called =>
    rw [hstage] at hstep
    refine iff_of_true ?_ (hother fun _ _ => hstage ▸ nofun)
    simp only at hstep
    split at hstep
    · obtain rfl := Option.some.inj hstep
      exact h.put nofun fun _ _ hdone => by obtain ⟨rfl, rfl⟩ := Stage.done.inj hdone; rfl
    · obtain rfl := Option.some.inj hstep
      exact h.put nofun nofun
  | readStored stored =>
    rw [hstage] at hstep
    obtain rfl := Option.some.inj hstep
    exact iff_of_true (h.put nofun nofun) (hother fun _ _ => hstage ▸ nofun)
  | readExisting stored existing =>
    rw [hstage] at hstep
    obtain rfl := Option.some.inj hstep
    rw [h.commit_iff (nodup_freshDismissals _ _ _ _ _)]
    constructor
    · intro hnew r' _ _ _ hr' hasked' hstage'
      obtain rfl := Option.some.inj (hr.symm.trans hr')
      obtain rfl := Asked.dismiss.inj (hasked.symm.trans hasked')
      obtain ⟨rfl, rfl⟩ := Stage.readExisting.inj (hstage.symm.trans hstage')
      exact hnew
    · intro hundisturbed
      exact hundisturbed r fingerprints stored existing hr hasked hstage
  | done returned written =>
    rw [hstage] at hstep
    cases hstep
  | failed =>
    rw [hstage] at hstep
    cases hstep

theorem Harmless.advanceRestore (h : Harmless s) {fingerprints : Option (List String)}
    (hstep : advanceRestore s i r fingerprints = some t) : Harmless t := by
  unfold Dismissing.advanceRestore at hstep
  split at hstep
  · split at hstep
    · obtain rfl := Option.some.inj hstep
      exact h.put nofun fun _ _ hdone => by obtain ⟨rfl, rfl⟩ := Stage.done.inj hdone; rfl
    · obtain rfl := Option.some.inj hstep
      refine (h.setDismissals _).put nofun ?_
      intro returned written hdone
      obtain ⟨rfl, rfl⟩ := Stage.done.inj hdone
      have hlength := List.length_eq_countP_add_countP
        (restored r.queryId r.userId fingerprints) (l := s.dismissals.rows)
      simp only [decide_not, Bool.decide_eq_true] at hlength
      simp only [Table.deleteWhere, ← List.countP_eq_length_filter]
      omega
  · cases hstep

/-- The step lemma. -/
theorem Harmless.step_iff {a : Action} (h : Harmless s) (hstep : step s a = some t) :
    Harmless t ↔ Undisturbed s a := by
  cases a with
  | findings findings =>
    obtain rfl := Option.some.inj hstep
    exact iff_of_true ⟨h.unfailed, h.once, h.counted⟩ trivial
  | ask i queryId userId asked =>
    simp only [step] at hstep
    split at hstep
    · obtain rfl := Option.some.inj hstep
      exact iff_of_true (h.put nofun nofun) trivial
    · cases hstep
  | advance i =>
    simp only [step] at hstep
    split at hstep
    · cases hstep
    next r hr =>
      split at hstep
      next fingerprints hasked => exact h.advanceDismiss_iff hr hasked hstep
      next fingerprints hasked =>
        refine iff_of_true (h.advanceRestore hstep) ?_
        intro r' _ _ _ hr' hasked' _
        obtain rfl := Option.some.inj (hr.symm.trans hr')
        exact absurd (hasked.symm.trans hasked') nofun

/-- **Requests at the same time do no harm**, exactly as long as no `dismiss` comes to store what
was dismissed since it has looked. -/
theorem harmless_iff {findings : Table FlaggedRow.key} {dismissals : Dismissals} {as : List Action}
    (h : Run step Always (start findings dismissals) as s) :
    Throughout step Harmless (start findings dismissals) as ↔
      Run step Undisturbed (start findings dismissals) as s := by
  refine throughout_iff (I := fun _ => True) (fun _ _ _ _ _ => trivial)
    (fun _ _ _ _ hharmless hstep => hharmless.step_iff hstep) h trivial ?_
  exact ⟨nofun, nodup_dismissals dismissals, nofun⟩

end Harmless

/-! ## One request at a time -/

/-- A `dismiss` that nobody disturbs stores what `FlagRules.dismiss` does. -/
theorem dismiss_refines (findings : Table FlaggedRow.key) (dismissals : Dismissals)
    (queryId userId : String) (fingerprints : List String) :
    ∃ dismissals', dismissals.insertAll (freshDismissals queryId userId fingerprints
        (storedAmong findings queryId (wanted fingerprints))
        (dismissedFingerprints dismissals.rows queryId userId)) = some dismissals' ∧
      dismissals'.rows = dismiss dismissals.rows queryId userId
        (storedAmong findings queryId (wanted fingerprints)) := by
  set stored := storedAmong findings queryId (wanted fingerprints) with hstored
  set existing := dismissedFingerprints dismissals.rows queryId userId
  have hfresh : freshDismissals queryId userId fingerprints stored existing =
      (stored.filter fun f => f ∉ existing).map fun f => ⟨queryId, userId, f⟩ := by
    unfold freshDismissals
    rw [hstored, storedAmong, List.filter_filter]
    congr 1
    refine List.filter_congr fun f hf => ?_
    rw [Bool.and_comm]
    simp [hf]
  have hkeys : ((freshDismissals queryId userId fingerprints stored existing).map id).Nodup := by
    rw [List.map_id]
    exact nodup_freshDismissals ..
  have hnew : ∀ d ∈ freshDismissals queryId userId fingerprints stored existing,
      id d ∉ dismissals.rows.map id := by
    intro d hd hmem
    rw [hfresh] at hd
    obtain ⟨f, hf, rfl⟩ := List.mem_map.mp hd
    rw [List.map_id] at hmem
    exact of_decide_eq_true (List.mem_filter.mp hf).2 (mem_dismissedFingerprints.mpr hmem)
  obtain ⟨dismissals', hinsert⟩ :=
    Option.isSome_iff_exists.mp ((Table.insertAll_isSome_iff hkeys).mpr hnew)
  refine ⟨dismissals', hinsert, ?_⟩
  have hnodup : stored.Nodup := (nodup_wanted fingerprints).filter _
  rw [Table.rows_insertAll hinsert, hfresh, dismiss, List.Nodup.dedup hnodup]

/-- `restore` is one statement. -/
theorem restore_refines (dismissals : Dismissals) (queryId userId : String)
    (fingerprints : Option (List String)) :
    (dismissals.deleteWhere (restored queryId userId fingerprints)).rows =
      restore dismissals.rows queryId userId fingerprints :=
  rfl

namespace Sample

/-- One finding of one query. -/
def findings : Table FlaggedRow.key where
  rows := [⟨"q", "0f", [], [], [], [], .low, 0, 0⟩]
  nodup := List.nodup_singleton _

/-- Two tabs dismiss it; both have looked before either has stored anything. -/
def twoTabs : List Action :=
  [.ask 0 "q" "u" (.dismiss ["0f"]), .ask 1 "q" "u" (.dismiss ["0f"]), .advance 0, .advance 1,
    .advance 0, .advance 1, .advance 0, .advance 1]

end Sample

/-- The second of two tabs gets an error. -/
theorem second_tab_fails :
    ∃ s, Run step Always (start Sample.findings .empty) Sample.twoTabs s ∧ ¬ Harmless s := by
  have hexec : (exec step (start Sample.findings .empty) Sample.twoTabs).any (fun s =>
      (s.requests 1).any fun r => r.stage = .failed) = true := by decide
  obtain ⟨s, hrun, hfailed⟩ := exists_run_of_exec_any hexec
  refine ⟨s, hrun, fun hharmless => ?_⟩
  obtain ⟨r, hr, hstage⟩ := (Option.any_eq_true _ _).mp hfailed
  exact hharmless.unfailed 1 r hr (of_decide_eq_true hstage)

theorem harmless_iff_twoTabs :
    ∃ s, Run step Always (start Sample.findings .empty) Sample.twoTabs s ∧
      (Throughout step Harmless (start Sample.findings .empty) Sample.twoTabs ↔
        Run step Undisturbed (start Sample.findings .empty) Sample.twoTabs s) := by
  have hrun : ∃ s, Run step Always (start Sample.findings .empty) Sample.twoTabs s :=
    ⟨_, run_of_exec rfl⟩
  obtain ⟨s, hrun⟩ := hrun
  exact ⟨s, hrun, harmless_iff hrun⟩

end FraudAnalyzer.FlagRules.Dismissing
