import FraudAnalyzer.Lib.Agree
import FraudAnalyzer.Lists.Service

/-!
# What the list pages tell of other people's rules

A list is shared, the rules that read it are not. Every answer about a list is read from the lists,
from the rules on queries the caller can see, and from how many other rules read it: two databases
that agree on these answer alike, whatever the other queries and rules are.
-/

namespace FraudAnalyzer.Lists

open Python FlagRules Queries

/-! ## Requests -/

inductive Request where
  | list
  | create (id : String) (payload : ItemListWrite)
  | get (listId : String)
  | update (listId : String) (payload : ItemListWrite)
  | delete (listId : String)

/-- `ItemListWriteResult` -/
structure WriteResult where
  list : ItemList
  stats : ListStats
  received : Nat
  kept : Nat

inductive Response where
  | lists (read : List (ItemList × ListStats))
  | list (read : ItemList × ListStats)
  | written (result : WriteResult)
  | noContent
  | error (e : AppError)
  /-- The row of the list was gone at the commit. -/
  | internalError

/-- `_write_result` -/
def writeResult (lists : Table ItemList.id) (db : Db) (listId : String) (save : Save) :
    Table ItemList.id × Response :=
  match lists.get listId with
  | none => (lists, .internalError)
  | some list =>
    (lists, .written ⟨list, statsOf lists db listId, save.received, save.values.length⟩)

/-- The handlers of `app/features/lists/router.py`, each run to its end. -/
def handle (E : Env) (lower : String → String) (user : User) (db : Db)
    (lists : Table ItemList.id) : Request → Table ItemList.id × Response
  | .list => (lists, .lists (listLists lower lists db))
  | .create id payload =>
    match checkSave E lists payload none with
    | .error e => (lists, .error e)
    | .ok save =>
      match commitCreate lists id save user with
      | none => (lists, .error (listNameTaken E.unicode save.name))
      | some created => writeResult created db id save
  | .get listId =>
    match getList E.unicode lists listId with
    | .error e => (lists, .error e)
    | .ok list => (lists, .list (list, statsOf lists db list.id))
  | .update listId payload =>
    match getChangeable E.unicode lists listId user with
    | .error e => (lists, .error e)
    | .ok list =>
      match checkSave E lists payload (some list.id) with
      | .error e => (lists, .error e)
      | .ok save =>
        match commitUpdate lists list save with
        | .saved updated => writeResult updated db list.id save
        | .nameTaken => (lists, .error (listNameTaken E.unicode save.name))
        | .gone => (lists, .internalError)
  | .delete listId =>
    match getChangeable E.unicode lists listId user with
    | .error e => (lists, .error e)
    | .ok list =>
      match commitDelete lists db list.id with
      | none => (lists, .error (inUse E.unicode db list user))
      | some left => (left, .noContent)

/-- Requests one after another, each with the queries and rules that are stored then. -/
def serve (E : Env) (lower : String → String) (user : User) (lists : Table ItemList.id)
    (request : Db × Request) : Table ItemList.id × Response :=
  handle E lower user request.1 lists request.2

/-! ## What is hidden -/

/-- The rule is on a query that the user can see. -/
def onVisible (user : User) (db : Db) (rule : FlagRule) : Bool :=
  (db.queries.get rule.queryId).any (visibleTo user)

/-- How many rules read the list on queries that the user cannot see. -/
def hiddenReaders (user : User) (db : Db) (listId : String) : Nat :=
  (db.flagRules.rows.filter fun r => reads listId r && !onVisible user db r).length

/-- The foreign key of `flag_rules`. -/
def RulesReferential (db : Db) : Prop :=
  ∀ r ∈ db.flagRules.rows, (db.queries.get r.queryId).isSome

/-- The databases agree on what the user can see, and on how many other rules read each list. -/
structure SameSeen (user : User) (db db' : Db) : Prop where
  queries : AgreeOn (visibleTo user) db.queries.rows db'.queries.rows
  rules : db.flagRules.rows.filter (onVisible user db) =
    db'.flagRules.rows.filter (onVisible user db')
  hidden : ∀ listId, hiddenReaders user db listId = hiddenReaders user db' listId
  referential : RulesReferential db
  referential' : RulesReferential db'

section Rules

variable {user : User} {db db' : Db} {listId : String}

/-- The rules that read a list, seen and hidden. -/
theorem length_readers (user : User) (db : Db) (listId : String) :
    (db.flagRules.rows.filter (reads listId)).length =
      ((db.flagRules.rows.filter (onVisible user db)).filter (reads listId)).length +
        hiddenReaders user db listId := by
  rw [List.length_eq_length_filter_add (onVisible user db), List.filter_filter, List.filter_filter,
    List.filter_filter, hiddenReaders]
  simp only [Bool.and_comm]

/-- No rule is lost in the join with its query. -/
theorem length_ruleUses (h : RulesReferential db) :
    (ruleUses db listId).length = (db.flagRules.rows.filter (reads listId)).length := by
  rw [ruleUses, List.length_filterMap_eq_countP, List.countP_eq_length]
  intro r hr
  simpa using h r (List.mem_filter.mp hr).1

/-- The uses on queries that the user can see, from the rules on these queries. -/
theorem filter_seen_ruleUses (user : User) (db : Db) (listId : String) :
    (ruleUses db listId).filter (seen db user) =
      ((db.flagRules.rows.filter (onVisible user db)).filter (reads listId)).filterMap fun r =>
        (db.queries.get r.queryId).map fun q => ⟨r.id, r.name, q.id, q.name⟩ := by
  rw [ruleUses, List.filter_filterMap, List.filter_filter, List.filterMap_filter,
    List.filterMap_filter]
  refine List.filterMap_congr fun r _ => ?_
  cases hquery : db.queries.get r.queryId with
  | none => cases reads listId r <;> simp
  | some q =>
    have hseen : seen db user ⟨r.id, r.name, q.id, q.name⟩ = onVisible user db r := by
      rw [seen, onVisible, Table.key_of_get hquery]
    cases hreads : reads listId r with
    | false => simp
    | true => cases hvisible : onVisible user db r <;> simp [hseen, hvisible, Option.filter]

theorem SameSeen.get_eq (h : SameSeen user db db') {id : String} {q : SavedQuery}
    (hq : visibleTo user q = true) : db.queries.get id = some q ↔ db'.queries.get id = some q := by
  rw [Table.get_iff_mem, Table.get_iff_mem, h.queries.mem_iff hq]

theorem SameSeen.length_readers (h : SameSeen user db db') (listId : String) :
    (db.flagRules.rows.filter (reads listId)).length =
      (db'.flagRules.rows.filter (reads listId)).length := by
  rw [Lists.length_readers user db, Lists.length_readers user db', h.rules, h.hidden]

theorem SameSeen.statsOf_eq (h : SameSeen user db db') (lists : Table ItemList.id)
    (listId : String) : statsOf lists db listId = statsOf lists db' listId := by
  rw [statsOf, statsOf, h.length_readers]

theorem SameSeen.isUsed_eq (h : SameSeen user db db') (listId : String) :
    isUsed db listId = isUsed db' listId := by
  have hused : ∀ db : Db, isUsed db listId =
      decide (0 < (db.flagRules.rows.filter (reads listId)).length) := by
    intro db
    rw [isUsed, Bool.eq_iff_iff, List.any_eq_true, decide_eq_true_iff,
      List.length_pos_iff_exists_mem]
    simp only [List.mem_filter]
  rw [hused, hused, h.length_readers]

/-- The rules that are named, and how many are counted. -/
theorem SameSeen.rulesUsing_eq (h : SameSeen user db db') (u : Unicode) (listId : String) :
    rulesUsing u db listId user = rulesUsing u db' listId user := by
  have hseen : (ruleUses db listId).filter (seen db user) =
      (ruleUses db' listId).filter (seen db' user) := by
    rw [filter_seen_ruleUses, filter_seen_ruleUses, ← h.rules]
    refine List.filterMap_congr fun r hr => ?_
    have hvisible := (List.mem_filter.mp (List.mem_of_mem_filter hr)).2
    obtain ⟨q, hget, hq⟩ := (Option.any_eq_true _ _).mp hvisible
    rw [hget, (h.get_eq hq).mp hget]
  unfold rulesUsing
  simp only [hseen, length_ruleUses h.referential, length_ruleUses h.referential', h.length_readers]

end Rules

/-! ## Answers -/

section Answers

variable {E : Env} {lower : String → String} {user : User} {db db' : Db}

theorem SameSeen.writeResult_eq (h : SameSeen user db db') (lists : Table ItemList.id)
    (listId : String) (save : Save) :
    writeResult lists db listId save = writeResult lists db' listId save := by
  unfold writeResult
  simp only [h.statsOf_eq]

theorem SameSeen.handle_eq (h : SameSeen user db db') (lists : Table ItemList.id)
    (request : Request) :
    handle E lower user db lists request = handle E lower user db' lists request := by
  cases request with
  | list =>
    have hlists : listLists lower lists db = listLists lower lists db' := by
      unfold listLists
      simp only [h.statsOf_eq]
    simp only [handle, hlists]
  | create id payload =>
    simp only [handle, h.writeResult_eq]
  | get listId =>
    simp only [handle, h.statsOf_eq]
  | update listId payload =>
    simp only [handle, h.writeResult_eq]
  | delete listId =>
    have hcommit : ∀ id, commitDelete lists db id = commitDelete lists db' id := by
      intro id
      simp only [commitDelete, h.isUsed_eq]
    have hrefusal : ∀ list, inUse E.unicode db list user = inUse E.unicode db' list user := by
      intro list
      simp only [inUse, h.rulesUsing_eq]
    simp only [handle, hcommit, hrefusal]

/-- **The list pages tell nothing of rules on other people's queries but how many read a list.**
While the user works, the queries and rules may change from request to request, in
both databases. -/
theorem list_responses_eq {lists : Table ItemList.id} {requests requests' : List (Db × Request)}
    (h : List.Forall₂ (fun a b => SameSeen user a.1 b.1 ∧ a.2 = b.2) requests requests') :
    Machine.outputs (serve E lower user) lists requests =
      Machine.outputs (serve E lower user) lists requests' := by
  induction h generalizing lists with
  | nil => rfl
  | @cons a b as bs hab hrest ih =>
    obtain ⟨db, request⟩ := a
    obtain ⟨db', request'⟩ := b
    obtain ⟨hseen, hsame⟩ := hab
    simp only at hsame hseen
    subst hsame
    have hserve : serve E lower user lists (db, request) =
        serve E lower user lists (db', request) :=
      hseen.handle_eq lists request
    rw [Machine.outputs, Machine.outputs, hserve, ih]

end Answers

namespace HiddenSample

def env : Env := ⟨.ascii, id, 50000⟩

def reader : User := ⟨"ann", false⟩

def watch : ItemList := ⟨"w", "Watch", "watch", 1, none, some "ann", ["a"]⟩

def lists : Table ItemList.id := ⟨[watch], by decide⟩

def own : SavedQuery := ⟨"q1", "c", "Payments", none, "SELECT 1", none, 100, none, some "ann"⟩

/-- A query of somebody else. -/
def other (name sqlText : String) : SavedQuery :=
  ⟨"q2", "c", name, none, sqlText, none, 100, none, some "bob"⟩

/-- A rule that reads the list. -/
def rule (id queryId name : String) : FlagRule :=
  ⟨id, queryId, name, .high, true, 0, [⟨0, "account", .inList, none, none, some "w"⟩]⟩

def queries (name sqlText : String) : Table SavedQuery.id :=
  ⟨[own, other name sqlText], by simp [own, other]⟩

def rules (name : String) : Table FlagRule.id :=
  ⟨[rule "r1" "q1" "Watched", rule "r2" "q2" name], by simp [rule]⟩

/-- Of the other query, its name, its statement and the name of its rule. -/
def db (name sqlText ruleName : String) : Db :=
  ⟨queries name sqlText, .empty, rules ruleName, []⟩

theorem hiddenReaders_db (name sqlText ruleName listId : String) :
    hiddenReaders reader (db name sqlText ruleName) listId = if "w" = listId then 1 else 0 := by
  have hown : onVisible reader (db name sqlText ruleName) (rule "r1" "q1" "Watched") = true := rfl
  have hother : onVisible reader (db name sqlText ruleName) (rule "r2" "q2" ruleName) = false := rfl
  have hreads : ∀ id queryId name, reads listId (rule id queryId name) = decide ("w" = listId) := by
    intro id queryId name
    simp [reads, rule]
  have hrows : (db name sqlText ruleName).flagRules.rows =
      [rule "r1" "q1" "Watched", rule "r2" "q2" ruleName] := rfl
  rw [hiddenReaders, hrows]
  by_cases hlist : "w" = listId
  · simp [hown, hother, hreads, hlist]
  · simp [hown, hother, hreads, hlist]

theorem sameSeen :
    SameSeen reader (db "Cards" "SELECT 2" "Stolen") (db "Loans" "SELECT 3" "Late") where
  queries := rfl
  rules := by decide
  hidden listId := by rw [hiddenReaders_db, hiddenReaders_db]
  referential := by unfold RulesReferential; decide
  referential' := by unfold RulesReferential; decide

end HiddenSample

/-- The owner of a list asks to delete it. -/
theorem list_responses_eq_of_refused :
    Machine.outputs (serve HiddenSample.env id HiddenSample.reader) HiddenSample.lists
        [(HiddenSample.db "Cards" "SELECT 2" "Stolen", .delete "w"),
          (HiddenSample.db "Cards" "SELECT 2" "Stolen", .list)] =
      Machine.outputs (serve HiddenSample.env id HiddenSample.reader) HiddenSample.lists
        [(HiddenSample.db "Loans" "SELECT 3" "Late", .delete "w"),
          (HiddenSample.db "Loans" "SELECT 3" "Late", .list)] :=
  list_responses_eq (.cons ⟨HiddenSample.sameSeen, rfl⟩ (.cons ⟨HiddenSample.sameSeen, rfl⟩ .nil))

/-- The refusal names the rule on the reader's own query. -/
example : (inUse .ascii (HiddenSample.db "Cards" "SELECT 2" "Stolen") HiddenSample.watch
      HiddenSample.reader).message =
    "List 'Watch' is used by: Watched and 1 rule on queries you cannot see. Remove it from " ++
      "those rules first." := by decide +kernel

end FraudAnalyzer.Lists
