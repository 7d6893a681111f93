import FraudAnalyzer.Charts.Editing
import FraudAnalyzer.Queries.ResultCache

/-!
# Updating a query

`update_query` with the errors it reports: the row limit and the dry run come first, then the
commit, every `IntegrityError` of which becomes a `DUPLICATE_NAME`. A required column that is sent
as null fails the commit in the same way as a name that is taken.
-/

namespace FraudAnalyzer.Queries.Updating

open Python Charts

variable {X P : Type}

/-- `dry_run` on the connection of the query, which reports no duplicate name. -/
structure DryRun (X : Type) where
  run (sql : String) : Except (Raised X) Unit
  noDuplicate : ∀ sql error, run sql = .error (.appError error) → error.errorCode ≠ .duplicateName

/-- What an update reads and writes. -/
structure Stored (P : Type) where
  db : Db
  cache : ResultCache P

/-- What a commit raises. -/
inductive CommitError (X : Type) where
  | integrityError
  | other (error : X)

/-- `resolve_row_limit` of a limit that is sent; it returns the limit or raises. -/
def checkRowLimit (settings : Settings) (payload : SavedQueryUpdate) : Except (Raised X) Unit :=
  match payload.rowLimit with
  | some (some requested) =>
    match resolveRowLimit settings (some requested) with
    | .error error => .error (.appError error)
    | .ok _ => .ok ()
  | _ => .ok ()

/-- `dry_run` of a statement that is sent. -/
def checkSql (dryRun : DryRun X) (payload : SavedQueryUpdate) : Except (Raised X) Unit :=
  match payload.sqlText with
  | some (some sql) => if sql = "" then .ok () else dryRun.run sql
  | _ => .ok ()

/-- The checks before anything is assigned. -/
def checkPayload (settings : Settings) (dryRun : DryRun X) (payload : SavedQueryUpdate) :
    Except (Raised X) Unit := do
  checkRowLimit settings payload
  checkSql dryRun payload

/-- The commit of the fields that were set; `failure` is what it raises that is no `IntegrityError`:
a lost connection, a row that is gone, a number that is out of range. -/
def commitChanges (failure : Option X) (db : Db) (query : SavedQuery) (payload : SavedQueryUpdate) :
    Except (CommitError X) Db :=
  match failure with
  | some error => .error (.other error)
  | none =>
    match commitUpdate db query payload with
    | none => .error .integrityError
    | some db => .ok db

/-- `DuplicateNameError` -/
def duplicateName (u : Unicode) (payload : SavedQueryUpdate) : AppError :=
  ⟨.duplicateName,
    "A query named " ++ (payload.name.join.map (repr u)).getD "None" ++
      " already exists on this connection.",
    [("name", (payload.name.join.map .str).getD .null)]⟩

/-- `update_query` -/
def updateQuery (u : Unicode) (settings : Settings) (dryRun : DryRun X) (failure : Option X)
    (stored : Stored P) (query : SavedQuery) (payload : SavedQueryUpdate) :
    Except (Raised X) Unit × Stored P :=
  match checkPayload settings dryRun payload with
  | .error error => (.error error, stored)
  | .ok () =>
    match commitChanges failure stored.db query payload with
    | .error .integrityError => (.error (.appError (duplicateName u payload)), stored)
    | .error (.other error) => (.error (.other error), stored)
    | .ok db => (.ok (), ⟨db, stored.cache.invalidate query.id⟩)

/-! ## What is to be reported -/

/-- Another query of the owner on the connection has the name that is asked for. -/
def TakenByOther (db : Db) (query : SavedQuery) (payload : SavedQueryUpdate) : Prop :=
  ∃ name, payload.name = some (some name) ∧ ∃ r ∈ db.queries.rows, r.id ≠ query.id ∧
    r.connectionId = query.connectionId ∧ r.ownerId = query.ownerId ∧ r.name = name

/-- A required column is sent as null. -/
def SetsNull (payload : SavedQueryUpdate) : Prop :=
  payload.name = some none ∨ payload.sqlText = some none ∨ payload.rowLimit = some none

/-- A step before the constraints are looked at fails. -/
def FailsBefore (settings : Settings) (dryRun : DryRun X) (failure : Option X)
    (payload : SavedQueryUpdate) : Prop :=
  checkPayload settings dryRun payload ≠ .ok () ∨ failure ≠ none

/-- The call ends with `DUPLICATE_NAME`. -/
def ReportsDuplicate (result : Except (Raised X) Unit) : Prop :=
  ∃ error, result = .error (.appError error) ∧ error.errorCode = .duplicateName

/-- The call reports what went wrong, and changes nothing when something did. -/
structure ReportsTrueError (u : Unicode) (settings : Settings) (dryRun : DryRun X)
    (failure : Option X) (stored : Stored P) (query : SavedQuery) (payload : SavedQueryUpdate) :
    Prop where
  duplicate : ReportsDuplicate (updateQuery u settings dryRun failure stored query payload).1 ↔
    TakenByOther stored.db query payload ∧ ¬ FailsBefore settings dryRun failure payload
  required : SetsNull payload →
    ¬ ReportsDuplicate (updateQuery u settings dryRun failure stored query payload).1
  unchanged : ∀ error, (updateQuery u settings dryRun failure stored query payload).1 =
    .error error → (updateQuery u settings dryRun failure stored query payload).2 = stored

/-- `uq_saved_queries_conn_owner_name`, which lets rows without an owner share a name. -/
def UniqueNames (db : Db) : Prop :=
  ∀ r ∈ db.queries.rows, ∀ r' ∈ db.queries.rows, r.ownerId ≠ none → r.ownerId = r'.ownerId →
    r.connectionId = r'.connectionId → r.name = r'.name → r = r'

section Lemmas

variable {u : Unicode} {settings : Settings} {dryRun : DryRun X} {failure : Option X}
  {stored : Stored P} {db : Db} {query new : SavedQuery} {payload : SavedQueryUpdate}

/-! ## The commit -/

theorem getD_eq_none_iff {α : Type} {field : Option (Option α)} {a : α} :
    field.getD (some a) = none ↔ field = some none := by
  cases field with
  | none => exact iff_of_false nofun nofun
  | some value => rw [Option.getD_some, Option.some.injEq]

/-- The assigned object, as far as the name constraint reads it. -/
theorem assign_spec (h : payload.assign query = some new) :
    new.id = query.id ∧ new.connectionId = query.connectionId ∧ new.ownerId = query.ownerId ∧
      payload.name.getD (some query.name) = some new.name := by
  simp only [SavedQueryUpdate.assign, Option.bind_eq_bind, Option.bind_eq_some_iff] at h
  obtain ⟨name, hname, sqlText, -, rowLimit, -, hnew⟩ := h
  cases hnew
  exact ⟨rfl, rfl, rfl, hname⟩

theorem assign_eq_none_iff : payload.assign query = none ↔ SetsNull payload := by
  rw [SetsNull, ← getD_eq_none_iff (a := query.name), ← getD_eq_none_iff (a := query.sqlText),
    ← getD_eq_none_iff (a := query.rowLimit), SavedQueryUpdate.assign]
  cases payload.name.getD (some query.name) with
  | none => exact iff_of_true rfl (.inl rfl)
  | some name =>
    cases payload.sqlText.getD (some query.sqlText) with
    | none => exact iff_of_true rfl (.inr (.inl rfl))
    | some sqlText =>
      cases payload.rowLimit.getD (some query.rowLimit) with
      | none => exact iff_of_true rfl (.inr (.inr rfl))
      | some rowLimit => exact iff_of_false nofun nofun

/-- Flushing over what was loaded writes the object. -/
theorem flushQuery_self (h : payload.assign query = some new) :
    flushQuery query new query = new := by
  obtain ⟨hid, hconnection, howner, -⟩ := assign_spec h
  cases new
  cases hid
  cases hconnection
  cases howner
  simp only [flushQuery, flushed_self]

/-- The name that an object is flushed with is taken when it was asked for and another row has
it. -/
theorem queryNameTaken_iff (hunique : UniqueNames stored.db)
    (hget : stored.db.queries.get query.id = some query) (howner : query.ownerId ≠ none)
    (hnew : payload.assign query = some new) :
    queryNameTaken stored.db.queries.rows new = true ↔ TakenByOther stored.db query payload := by
  obtain ⟨hid, hconnection, howner', hname⟩ := assign_spec hnew
  have htaken : queryNameTaken stored.db.queries.rows new = true ↔
      ∃ r ∈ stored.db.queries.rows, r.id ≠ query.id ∧ r.connectionId = query.connectionId ∧
        r.ownerId = query.ownerId ∧ r.name = new.name := by
    simp only [queryNameTaken, Bool.and_eq_true, List.any_eq_true, decide_eq_true_iff, and_assoc,
      hid, hconnection, howner', Option.isSome_iff_ne_none]
    exact and_iff_right howner
  rw [htaken, TakenByOther]
  constructor
  · rintro ⟨r, hr, hne, hconn, hown, hsame⟩
    cases hasked : payload.name with
    | none =>
      rw [hasked, Option.getD_none] at hname
      have heq := hunique r hr query (Table.mem_of_get hget) (hown ▸ howner) hown hconn
        (hsame.trans (Option.some.inj hname).symm)
      exact absurd (congrArg SavedQuery.id heq) hne
    | some field =>
      rw [hasked, Option.getD_some] at hname
      exact ⟨new.name, congrArg some hname, r, hr, hne, hconn, hown, hsame⟩
  · rintro ⟨name, hasked, r, hr, hne, hconn, hown, hsame⟩
    rw [hasked, Option.getD_some] at hname
    cases hname
    exact ⟨r, hr, hne, hconn, hown, hsame⟩

/-- The commit fails over a null or a name that is taken. -/
theorem commitUpdate_eq_none_iff (hunique : UniqueNames stored.db)
    (hget : stored.db.queries.get query.id = some query) (howner : query.ownerId ≠ none) :
    commitUpdate stored.db query payload = none ↔
      SetsNull payload ∨ TakenByOther stored.db query payload := by
  have hnull : payload.assign query = none ↔ SetsNull payload := assign_eq_none_iff
  rw [commitUpdate, ← hnull]
  cases hnew : payload.assign query with
  | none => exact iff_of_true rfl (.inl rfl)
  | some new =>
    have htaken := queryNameTaken_iff hunique hget howner hnew
    rw [← htaken, Option.bind_eq_bind, Option.bind_some]
    by_cases hsame : new = query
    · rw [if_pos hsame]
      refine iff_of_false nofun ?_
      rintro (hnone | htaken')
      · cases hnone
      · obtain ⟨name, hasked, r, hr, hne, hconn, hown, hname⟩ := htaken.mp htaken'
        have hrequested := (assign_spec hnew).2.2.2
        rw [hasked, Option.getD_some, Option.some.injEq, hsame] at hrequested
        have heq := hunique r hr query (Table.mem_of_get hget) (hown ▸ howner) hown hconn
          (hname.trans hrequested)
        exact hne (congrArg SavedQuery.id heq)
    · rw [if_neg hsame, hget, Option.bind_some, flushQuery_self hnew]
      by_cases htaken' : queryNameTaken stored.db.queries.rows new = true
      · rw [if_pos htaken']
        exact iff_of_true rfl (.inr htaken')
      · rw [if_neg htaken']
        refine iff_of_false nofun ?_
        rintro (hnone | h)
        · cases hnone
        · exact htaken' h

/-! ## The call -/

theorem errorCode_resolveRowLimit {requested : Option Int} {error : AppError}
    (h : resolveRowLimit settings requested = .error error) :
    error.errorCode = .rowLimitExceeded := by
  unfold resolveRowLimit at h
  split at h
  · cases h
  · split at h
    · cases h
      rfl
    · split at h
      · cases h
        rfl
      · cases h

/-- The checks report no duplicate name. -/
theorem errorCode_checkPayload {error : AppError}
    (h : checkPayload settings dryRun payload = .error (.appError error)) :
    error.errorCode ≠ .duplicateName := by
  have hlimit : ∀ {error}, checkRowLimit (X := X) settings payload = .error (.appError error) →
      error.errorCode ≠ .duplicateName := by
    intro error hrow
    unfold checkRowLimit at hrow
    split at hrow
    · split at hrow
      next raised hraised =>
        cases hrow
        rw [errorCode_resolveRowLimit hraised]
        decide
      · cases hrow
    · cases hrow
  have hsql : ∀ {error}, checkSql dryRun payload = .error (.appError error) →
      error.errorCode ≠ .duplicateName := by
    intro error hrun
    unfold checkSql at hrun
    split at hrun
    · split at hrun
      · cases hrun
      · exact dryRun.noDuplicate _ _ hrun
    · cases hrun
  unfold checkPayload at h
  cases hrow : checkRowLimit (X := X) settings payload with
  | error raised =>
    rw [hrow] at h
    cases h
    exact hlimit hrow
  | ok _ =>
    rw [hrow] at h
    exact hsql h

/-- Whatever is raised, nothing is written. -/
theorem unchanged_of_error {error : Raised X}
    (h : (updateQuery u settings dryRun failure stored query payload).1 = .error error) :
    (updateQuery u settings dryRun failure stored query payload).2 = stored := by
  unfold updateQuery at h ⊢
  split
  next => rfl
  next hchecked =>
    rw [hchecked] at h
    split
    next => rfl
    next => rfl
    next hcommit =>
      rw [hcommit] at h
      cases h

/-- The duplicate name is what is left for a null or a taken name when nothing fails before. -/
theorem reportsDuplicate_iff (hunique : UniqueNames stored.db)
    (hget : stored.db.queries.get query.id = some query) (howner : query.ownerId ≠ none) :
    ReportsDuplicate (updateQuery u settings dryRun failure stored query payload).1 ↔
      (SetsNull payload ∨ TakenByOther stored.db query payload) ∧
        ¬ FailsBefore settings dryRun failure payload := by
  rw [← commitUpdate_eq_none_iff hunique hget howner, FailsBefore, not_or, not_not, not_not]
  unfold updateQuery
  cases hchecked : checkPayload settings dryRun payload with
  | error raised =>
    refine iff_of_false ?_ fun h => nomatch h.2.1
    rintro ⟨error, hsame, hcode⟩
    cases hsame
    exact errorCode_checkPayload hchecked hcode
  | ok _ =>
    cases failure with
    | some error =>
      exact iff_of_false (fun ⟨_, hsame, _⟩ => nomatch hsame) fun h => nomatch h.2.2
    | none =>
      rw [commitChanges]
      cases hcommit : commitUpdate stored.db query payload with
      | none => exact iff_of_true ⟨_, rfl, rfl⟩ ⟨rfl, rfl, rfl⟩
      | some db => exact iff_of_false (fun ⟨_, hsame, _⟩ => nomatch hsame) fun h => nomatch h.1

end Lemmas

/-- **An update reports what went wrong** exactly when something fails before the commit, or no
required column is sent as null. -/
theorem reportsTrueError_iff (u : Unicode) (settings : Settings) (dryRun : DryRun X)
    (failure : Option X) (stored : Stored P) (query : SavedQuery) (payload : SavedQueryUpdate)
    (hunique : UniqueNames stored.db) (hget : stored.db.queries.get query.id = some query)
    (howner : query.ownerId ≠ none) :
    ReportsTrueError u settings dryRun failure stored query payload ↔
      FailsBefore settings dryRun failure payload ∨ ¬ SetsNull payload := by
  have hreports : ReportsDuplicate (updateQuery u settings dryRun failure stored query payload).1 ↔
      (SetsNull payload ∨ TakenByOther stored.db query payload) ∧
        ¬ FailsBefore settings dryRun failure payload :=
    reportsDuplicate_iff hunique hget howner
  constructor
  · intro h
    by_cases hnull : SetsNull payload
    · refine .inl (by_contra fun hbefore => ?_)
      exact h.required hnull (hreports.mpr ⟨.inl hnull, hbefore⟩)
    · exact .inr hnull
  · intro hcondition
    refine ⟨?_, fun hnull hduplicate => ?_, fun error => unchanged_of_error⟩
    · rw [hreports]
      refine and_congr_left fun hbefore => or_iff_right ?_
      exact hcondition.resolve_left hbefore
    · exact hcondition.elim (hreports.mp hduplicate).2 fun hnot => hnot hnull

section Examples

/-- A dry run that finds nothing. -/
def DryRun.passing : DryRun Unit := ⟨fun _ => .ok (), fun _ _ h => nomatch h⟩

/-- Two queries of one owner. -/
def twoQueries : Stored Unit where
  db :=
    { queries :=
        ⟨[⟨"q1", "c", "Payments", none, "SELECT 1", none, 100, none, some "ana"⟩,
          ⟨"q2", "c", "Refunds", none, "SELECT 2", none, 100, none, some "ana"⟩], by decide⟩
      charts := .empty
      flagRules := .empty
      auditLogs := [] }
  cache := .empty

/-- The second of them. -/
def refunds : SavedQuery := ⟨"q2", "c", "Refunds", none, "SELECT 2", none, 100, none, some "ana"⟩

theorem refunds_renamed :
    ReportsTrueError .ascii .default .passing none twoQueries refunds { name := some "Payments" } :=
  (reportsTrueError_iff .ascii .default .passing none twoQueries refunds { name := some "Payments" }
    (by unfold UniqueNames; decide) (by decide) (by decide)).mpr
    (.inr (by unfold SetsNull; decide))

/-- A name that is sent as null is reported as taken. -/
theorem null_reported_as_taken :
    (updateQuery .ascii .default .passing none twoQueries refunds { name := some none }).1 =
        .error (.appError ⟨.duplicateName,
          "A query named None already exists on this connection.", [("name", .null)]⟩) ∧
      ¬ ReportsTrueError .ascii .default .passing none twoQueries refunds { name := some none } :=
  ⟨rfl, fun h => h.required (.inl rfl) ⟨_, rfl, rfl⟩⟩

end Examples

end FraudAnalyzer.Queries.Updating
