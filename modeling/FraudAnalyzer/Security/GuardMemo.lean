import FraudAnalyzer.Lib.Recency
import FraudAnalyzer.Lib.Run
import FraudAnalyzer.Security.InertTokens
import Mathlib.Logic.Function.Basic

/-!
# What the guard lets through

`validate_select` of `app/security/sql_guard.py`: the validator with its memo. A call looks the text
up, validates it if it is not there, and stores an acceptance under the lock, so calls of many
threads interleave between the lookup and the store. `Accepts` says what a text has to be to be
accepted; `memoised_of_run` says that the memo changes none of the answers, and what it holds.
-/

namespace FraudAnalyzer.Security

open Python Policy Recency

/-! ## What is accepted -/

/-- A token that no statement may have, wherever it stands. -/
def ForbiddenWord (u : Unicode) (t : Token) : Prop :=
  (t.isKeyword = true ∧ u.upper t.value ∈ forbiddenKeywords) ∨
    ((t.ttype = .name ∨ t.ttype = .nameBuiltin) ∧ u.lower t.value ∈ forbiddenNames)

/-- The text has none of the constructs whose end the engines read differently. -/
def Unambiguous (u : Unicode) (sql : String) : Prop :=
  contains sql backslashQuote = false ∧ unicodeEscapeLiteral u none sql.toList = false

/-- The one statement of the text may run. -/
structure MayRun (u : Unicode) (statement : Statement) : Prop where
  selects : statement.type ∈ allowedStatementTypes
  words : ∀ t ∈ statement.tokens, ¬ ForbiddenWord u t
  calls : ¬ BlockedCall u Token.isWhitespace statement.tokens
  locks : ¬ LockingClause u forbiddenLockingWords Token.isWhitespace statement.tokens
  unambiguous : Unambiguous u (significantText u statement.text)

/-- What the guard asks of a text: it is short and unambiguous, and without its comments it is one
statement, which may run. -/
structure Accepts (u : Unicode) (sqlparse : SqlParse) (maxLength : Nat) (sql : String)
    (statement : Statement) : Prop where
  given : strip u sql ≠ ""
  short : sql.length ≤ maxLength
  unambiguous : Unambiguous u sql
  parses : ∃ text statements, sqlparse.stripComments sql = .ok text ∧ strip u text ≠ "" ∧
    strip u (stripChars (· == ';') (strip u text)) ≠ "" ∧
    sqlparse.parse (strip u text) = .ok statements ∧
    statements.filter (fun s => significantText u s.text ≠ "") = [statement]
  mayRun : MayRun u statement

section Verdicts

variable {u : Unicode} {sqlparse : SqlParse} {maxLength : Nat} {sql : String}

theorem checkUnambiguousLexing_eq_ok :
    checkUnambiguousLexing u sql = .ok () ↔ Unambiguous u sql := by
  unfold checkUnambiguousLexing Unambiguous
  cases contains sql backslashQuote with
  | true => simp
  | false => cases unicodeEscapeLiteral u none sql.toList <;> simp

theorem eq_ok_iff_rejects {verdict : Except AppError Unit} :
    verdict = .ok () ↔ ¬ rejects verdict = true := by
  cases verdict with
  | ok _ => simp [rejects]
  | error _ => simp [rejects]

/-- **The keyword check** refuses a forbidden word anywhere. -/
theorem checkKeywords_eq_ok {tokens : List Token} :
    checkKeywords u tokens = .ok () ↔ ∀ t ∈ tokens, ¬ ForbiddenWord u t := by
  induction tokens with
  | nil => simp [checkKeywords]
  | cons t rest ih =>
    rw [List.forall_mem_cons, ← ih, checkKeywords, ForbiddenWord]
    by_cases hkeyword : t.isKeyword = true
    · have hname : ¬ (t.ttype = .name ∨ t.ttype = .nameBuiltin) := by
        unfold Token.isKeyword TokenType.isKeyword at hkeyword
        rintro (h | h)
        · rw [h] at hkeyword
          cases hkeyword
        · rw [h] at hkeyword
          cases hkeyword
      by_cases hword : u.upper t.value ∈ forbiddenKeywords
      · simp [hkeyword, hword]
      · simp [hkeyword, hword, hname]
    · by_cases hname : t.ttype = .name ∨ t.ttype = .nameBuiltin
      · by_cases hword : u.lower t.value ∈ forbiddenNames
        · simp [hkeyword, hname, hword]
        · simp [hkeyword, hname, hword]
      · simp [hkeyword, hname]

theorem mayRun_iff {statement : Statement} :
    MayRun u statement ↔
      statement.type ∈ allowedStatementTypes ∧ checkKeywords u statement.tokens = .ok () ∧
        checkFunctions u statement.tokens = .ok () ∧
        checkLockingClause u statement.tokens = .ok () ∧
        checkUnambiguousLexing u (significantText u statement.text) = .ok () := by
  rw [checkKeywords_eq_ok, eq_ok_iff_rejects, rejects_checkFunctions, eq_ok_iff_rejects,
    rejects_checkLockingClause, checkUnambiguousLexing_eq_ok]
  constructor
  · rintro ⟨hselects, hwords, hcalls, hlocks, hunambiguous⟩
    exact ⟨hselects, hwords, hcalls, hlocks, hunambiguous⟩
  · rintro ⟨hselects, hwords, hcalls, hlocks, hunambiguous⟩
    exact ⟨hselects, hwords, hcalls, hlocks, hunambiguous⟩

theorem parsed_eq_ok {α : Type} {result : Except ParseFailure α} {a : α} :
    parsed result = .ok a ↔ result = .ok a := by
  unfold parsed
  split <;> simp

/-- A check before the rest. -/
theorem unless_eq_ok {α β : Type} {p : Prop} [Decidable p] {e : AppError}
    {f : α → Except AppError β} {x : Except AppError β} {b : β} :
    (if p then throw e >>= f else x) = .ok b ↔ ¬ p ∧ x = .ok b := by
  by_cases hp : p
  · rw [if_pos hp]
    exact ⟨fun h => (by cases h), fun h => absurd hp h.1⟩
  · rw [if_neg hp]
    exact (and_iff_right hp).symm

/-- **The validator** accepts what `Accepts` says, and gives the statement without its semicolon. -/
theorem validateUncached_eq_ok {single : String} :
    validateUncached u sqlparse maxLength sql = .ok single ↔
      ∃ statement, Accepts u sqlparse maxLength sql statement ∧
        significantText u statement.text = single := by
  unfold validateUncached
  simp only [unless_eq_ok, bind_eq_ok, parsed_eq_ok, not_or]
  constructor
  · rintro ⟨hgiven, hshort, _, hlexed, text, htext, ⟨hstripped, hplain⟩, statements, hparse, h⟩
    split at h
    · cases h
    · cases h
    next statement hsingle =>
      simp only [unless_eq_ok, bind_eq_ok, not_not] at h
      obtain ⟨hselects, _, hwords, _, hcalls, _, hlocks, _, hunambiguous, hresult⟩ := h
      refine ⟨statement, ⟨hgiven, Nat.le_of_not_lt hshort, checkUnambiguousLexing_eq_ok.mp hlexed,
        ⟨text, statements, htext, hstripped, hplain, hparse, hsingle⟩, ?_⟩, Except.ok.inj hresult⟩
      exact mayRun_iff.mpr ⟨hselects, hwords, hcalls, hlocks, hunambiguous⟩
  · rintro ⟨statement, ⟨hgiven, hshort, hlexed, hparses, hrun⟩, hresult⟩
    obtain ⟨text, statements, htext, hstripped, hplain, hparse, hsingle⟩ := hparses
    obtain ⟨hselects, hwords, hcalls, hlocks, hunambiguous⟩ := mayRun_iff.mp hrun
    refine ⟨hgiven, Nat.not_lt.mpr hshort, (), checkUnambiguousLexing_eq_ok.mpr hlexed, text, htext,
      ⟨hstripped, hplain⟩, statements, hparse, ?_⟩
    rw [hsingle]
    simp only [unless_eq_ok, bind_eq_ok, not_not]
    exact ⟨hselects, (), hwords, (), hcalls, (), hlocks, (), hunambiguous,
      congrArg Except.ok hresult⟩

end Verdicts

/-! ## The memo -/

structure GuardEnv where
  unicode : Unicode
  sqlparse : SqlParse
  maxSqlLength : Nat
  sqlValidationCacheSize : Nat

/-- `_validate_uncached` -/
def GuardEnv.validate (E : GuardEnv) (sql : String) : Except AppError String :=
  validateUncached E.unicode E.sqlparse E.maxSqlLength sql

namespace Memo

/-- `stored` and `answers` are for the statements only: no step reads them. -/
structure State where
  /-- `_validated` -/
  validated : OrderedDict String String
  /-- The calls that have validated their text and have it still to store. -/
  storing : Nat → Option (String × String)
  /-- The texts stored so far, the latest first. -/
  stored : List String
  /-- The texts that calls were made with, and what they returned or raised. -/
  answers : List (String × Except AppError String)

def State.start : State := ⟨.empty, fun _ => none, [], []⟩

def State.answer (s : State) (sql : String) (answer : Except AppError String) : State :=
  { s with answers := s.answers ++ [(sql, answer)] }

inductive Action where
  | lookUp (i : Nat) (sql : String)
  | store (i : Nat)

/-- A step of one `validate_select`: the lookup with the validation after it, or what is done under
the lock. -/
def step (E : GuardEnv) (s : State) : Action → Option State
  | .lookUp i sql =>
    match s.storing i with
    | some _ => none
    | none =>
      match s.validated.get sql with
      | some cached => some (s.answer sql (.ok cached))
      | none =>
        match E.validate sql with
        | .error e => some (s.answer sql (.error e))
        | .ok result =>
          some { s with storing := Function.update s.storing i (some (sql, result)) }
  | .store i =>
    match s.storing i with
    | none => none
    | some (sql, result) =>
      let s := { s with storing := Function.update s.storing i none }
      if 0 < E.sqlValidationCacheSize then
        some ({ s with
          validated := Recency.store s.validated E.sqlValidationCacheSize sql result
          stored := sql :: s.stored }.answer sql (.ok result))
      else some (s.answer sql (.ok result))

/-- What is true of the memo at every step. -/
structure Inv (E : GuardEnv) (s : State) : Prop where
  cached : ∀ sql result, s.validated.get sql = some result → E.validate sql = .ok result
  storing : ∀ i sql result, s.storing i = some (sql, result) → E.validate sql = .ok result
  answered : ∀ p ∈ s.answers, p.2 = E.validate p.1
  kept : keys s.validated = (latest s.stored).take E.sqlValidationCacheSize

section Steps

variable {E : GuardEnv} {s t : State}

theorem inv_start (E : GuardEnv) : Inv E State.start where
  cached sql result h := by cases h
  storing i sql result h := by cases h
  answered p hp := by cases hp
  kept := List.take_nil.symm

/-- An answer that is the validator's. -/
theorem Inv.answer (h : Inv E s) {sql : String} {answer : Except AppError String}
    (hanswer : answer = E.validate sql) : Inv E (s.answer sql answer) := by
  refine ⟨h.cached, h.storing, ?_, h.kept⟩
  intro p hp
  rcases List.mem_append.mp hp with hold | hnew
  · exact h.answered p hold
  · obtain rfl := List.mem_singleton.mp hnew
    exact hanswer

theorem Inv.put (h : Inv E s) (i : Nat) {call : Option (String × String)}
    (hcall : ∀ sql result, call = some (sql, result) → E.validate sql = .ok result) :
    Inv E { s with storing := Function.update s.storing i call } := by
  refine ⟨h.cached, ?_, h.answered, h.kept⟩
  intro j sql result hj
  simp only [Function.update_apply] at hj
  split at hj
  · exact hcall sql result hj
  · exact h.storing j sql result hj

theorem Inv.store (h : Inv E s) {sql result : String} (hresult : E.validate sql = .ok result) :
    Inv E { s with
      validated := Recency.store s.validated E.sqlValidationCacheSize sql result
      stored := sql :: s.stored } := by
  refine ⟨?_, h.storing, h.answered, keys_store h.kept sql result⟩
  intro sql' result' hget
  rcases get_of_store hget with ⟨rfl, rfl⟩ | hold
  · exact hresult
  · exact h.cached sql' result' hold

/-- **Each step keeps the memo true.** -/
theorem Inv.step (h : Inv E s) {a : Action} (hstep : Memo.step E s a = some t) : Inv E t := by
  cases a with
  | lookUp i sql =>
    simp only [Memo.step] at hstep
    split at hstep
    · cases hstep
    · split at hstep
      next cached hcached =>
        obtain rfl := Option.some.inj hstep
        exact h.answer (h.cached sql cached hcached).symm
      · split at hstep
        next e he =>
          obtain rfl := Option.some.inj hstep
          exact h.answer he.symm
        next result hresult =>
          obtain rfl := Option.some.inj hstep
          refine h.put i ?_
          rintro sql result ⟨⟩
          exact hresult
  | store i =>
    simp only [Memo.step] at hstep
    split at hstep
    · cases hstep
    next sql result hcall =>
      have hresult := h.storing i sql result hcall
      have hleft : Inv E { s with storing := Function.update s.storing i none } :=
        h.put i fun _ _ hnone => by cases hnone
      split at hstep
      · obtain rfl := Option.some.inj hstep
        exact (hleft.store hresult).answer hresult.symm
      · obtain rfl := Option.some.inj hstep
        exact hleft.answer hresult.symm

end Steps

end Memo

/-- What the calls return, and what the memo holds. -/
structure Memoised (E : GuardEnv) (s : Memo.State) : Prop where
  /-- A call returns or raises what it would without a memo. -/
  transparent : ∀ sql answer, (sql, answer) ∈ s.answers → answer = E.validate sql
  /-- A text is returned exactly if the one given is accepted, and is then its statement. -/
  accepted : ∀ sql answer, (sql, answer) ∈ s.answers → ∀ single, answer = .ok single ↔
    ∃ statement, Accepts E.unicode E.sqlparse E.maxSqlLength sql statement ∧
      significantText E.unicode statement.text = single
  /-- The memo holds the texts stored last, as many as the setting allows. -/
  kept : keys s.validated = (latest s.stored).take E.sqlValidationCacheSize

/-- **The memo changes nothing but the time it takes**, however the calls interleave. -/
theorem memoised_of_run (E : GuardEnv) {as : List Memo.Action} {s : Memo.State}
    (h : Machine.Run (Memo.step E) Machine.Always .start as s) : Memoised E s := by
  have hinv : Memo.Inv E s :=
    h.invariant (fun _ _ _ hI hstep _ => hI.step hstep) (Memo.inv_start E)
  refine ⟨fun sql answer hmem => hinv.answered _ hmem, ?_, hinv.kept⟩
  intro sql answer hmem single
  rw [show answer = E.validate sql from hinv.answered _ hmem]
  exact validateUncached_eq_ok

namespace MemoSample

/-- The tokens of these types and values, none of them a comment. -/
def tokensOf (parts : List (TokenType × String)) : List Token :=
  parts.filterMap fun p => if h : p.1.isComment = false then some (.of p.1 p.2 h) else none

/-- The statements of the calls, as they are parsed. -/
def statements : List Statement :=
  [⟨"SELECT 1;", "SELECT", tokensOf
      [(.keywordDml, "SELECT"), (.whitespace, " "), (.other "Number.Integer", "1"),
        (.other "Punctuation", ";")]⟩,
    ⟨"SELECT 2", "SELECT", tokensOf
      [(.keywordDml, "SELECT"), (.whitespace, " "), (.other "Number.Integer", "2")]⟩,
    ⟨"DROP TABLE t", "DROP", tokensOf
      [(.keywordDdl, "DROP"), (.whitespace, " "), (.keyword, "TABLE"), (.whitespace, " "),
        (.name, "t")]⟩]

/-- The parser on these texts, which have no comments. -/
def sqlparse : SqlParse where
  stripComments := .ok
  parse text := .ok (statements.filter fun statement => statement.text = text)

/-- One text is remembered. -/
def env : GuardEnv := ⟨.ascii, sqlparse, 8000, 1⟩

/-- Two calls overtake each other; the text that is stored last is found again. -/
def calls : List Memo.Action :=
  [.lookUp 0 "SELECT 1;", .lookUp 1 "SELECT 2", .lookUp 2 "DROP TABLE t", .store 1, .store 0,
    .lookUp 3 "SELECT 1;"]

end MemoSample

theorem memoised_of_run_calls :
    ∃ s, Memoised MemoSample.env s ∧ keys s.validated = ["SELECT 1;"] ∧
      s.answers.map (fun p => p.2.toOption) =
        [none, some "SELECT 2", some "SELECT 1", some "SELECT 1"] := by
  obtain ⟨s, hrun, hend⟩ := @Machine.exists_run_of_exec_any _ _ (Memo.step MemoSample.env) .start
    MemoSample.calls
    (fun s => keys s.validated = ["SELECT 1;"] ∧ s.answers.map (fun p => p.2.toOption) =
      [none, some "SELECT 2", some "SELECT 1", some "SELECT 1"]) (by decide +kernel)
  exact ⟨s, memoised_of_run MemoSample.env hrun, of_decide_eq_true hend⟩

end FraudAnalyzer.Security
