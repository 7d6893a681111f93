import FraudAnalyzer.FlagRules.Preview
import FraudAnalyzer.Lists.Saving
import FraudAnalyzer.Queries.Visibility

/-!
# Named lists

`app/features/lists/service.py` over the rows at one moment. Lists are shared; the rules that read
them are not, so a refusal names the rules on queries the caller can see and counts the others.
-/

namespace FraudAnalyzer.Lists

open Python FlagRules

/-! ## Rows -/

/-- What the rules and the evaluator see of the lists. -/
def itemsOf (lists : Table ItemList.id) (listId : String) : Option (List String) :=
  (lists.get listId).map ItemList.items

/-- `get_list` -/
def getList (u : Unicode) (lists : Table ItemList.id) (listId : String) :
    Except AppError ItemList :=
  match lists.get listId with
  | some list => .ok list
  | none =>
    .error ⟨.listNotFound, s!"No list with id {repr u listId}.", [("list_id", .str listId)]⟩

/-- `can_change` -/
def canChange (list : ItemList) (user : User) : Bool :=
  user.isAdmin || list.createdBy = some user.id

/-- `get_changeable` -/
def getChangeable (u : Unicode) (lists : Table ItemList.id) (listId : String) (user : User) :
    Except AppError ItemList := do
  let list ← getList u lists listId
  if canChange list user then return list
  else .error ⟨.forbidden, "Only the person who created this list, or an admin, can change it.",
    [("list_id", .str listId)]⟩

/-! ## Reads -/

/-- A condition of the rule reads the list. -/
def reads (listId : String) (rule : FlagRule) : Bool :=
  rule.conditions.any fun c => c.listId = some listId

structure ListStats where
  itemCount : Nat
  ruleCount : Nat
  deriving DecidableEq

/-- `stats_for`, for one list -/
def statsOf (lists : Table ItemList.id) (db : Db) (listId : String) : ListStats where
  itemCount := ((itemsOf lists listId).getD []).length
  ruleCount := (db.flagRules.rows.filter (reads listId)).length

/-- `list_lists`; `lower` is the one of the database. -/
def listLists (lower : String → String) (lists : Table ItemList.id) (db : Db) :
    List (ItemList × ListStats) :=
  (lists.rows.insertionSort fun a b => lower a.name ≤ lower b.name).map fun list =>
    (list, statsOf lists db list.id)

/-- A rule that reads a list, with its query. -/
structure RuleUse where
  ruleId : String
  ruleName : String
  queryId : String
  queryName : String
  deriving DecidableEq

/-- The key that `rules_using` sorts by. -/
def RuleUse.key (u : Unicode) (use : RuleUse) : String × String × String :=
  (u.lower use.queryName, u.lower use.ruleName, use.queryId)

/-- `a <= b` for tuples. -/
def tupleLE (a b : String × String × String) : Bool :=
  a.1 < b.1 || a.1 = b.1 && (a.2.1 < b.2.1 || a.2.1 = b.2.1 && a.2.2 ≤ b.2.2)

/-- The rows of the first `SELECT` of `rules_using`. -/
def ruleUses (db : Db) (listId : String) : List RuleUse :=
  (db.flagRules.rows.filter (reads listId)).filterMap fun r =>
    (db.queries.get r.queryId).map fun q => ⟨r.id, r.name, q.id, q.name⟩

/-- The query of a use is one the caller can see. -/
def seen (db : Db) (user : User) (use : RuleUse) : Bool :=
  (db.queries.get use.queryId).any (Queries.visibleTo user)

/-- `rules_using`: the rules on queries the caller can see, and how many more. -/
def rulesUsing (u : Unicode) (db : Db) (listId : String) (user : User) : List RuleUse × Nat :=
  let rows := ruleUses db listId
  let visible := (rows.filter (seen db user)).insertionSort fun a b => tupleLE (a.key u) (b.key u)
  (visible, rows.length - visible.length)

/-- `is_used` -/
def isUsed (db : Db) (listId : String) : Bool := db.flagRules.rows.any (reads listId)

def RuleUse.json (use : RuleUse) : Json :=
  .obj [("rule_name", .str use.ruleName), ("query_id", .str use.queryId),
    ("query_name", .str use.queryName)]

/-- `in_use` of `delete_list` -/
def inUse (u : Unicode) (db : Db) (list : ItemList) (user : User) : AppError :=
  let (rules, hidden) := rulesUsing u db list.id user
  let named := if rules = [] then "" else
    ": " ++ ", ".intercalate (sortedNames (rules.map RuleUse.ruleName))
  let counted := if hidden = 0 then "" else
    (if rules = [] then ": " else " and ") ++ toString hidden ++ " rule" ++
      (if hidden ≠ 1 then "s" else "") ++ " on queries you cannot see"
  ⟨.listInUse,
    "List " ++ repr u list.name ++ " is used by" ++ named ++ counted ++
      ". Remove it from those rules first.",
    [("list_id", .str list.id), ("rules", .arr (rules.map RuleUse.json)),
      ("hidden_rule_count", .ofInt hidden)]⟩

/-! ## Writes -/

/-- The row that `create_list` inserts. -/
def newList (id : String) (save : Save) (user : User) : ItemList :=
  ⟨id, save.name, save.nameKey, 1, save.description, some user.id, save.values⟩

/-- The commit of `create_list`: `none` where the unique constraint refuses the name. -/
def commitCreate (lists : Table ItemList.id) (id : String) (save : Save) (user : User) :
    Option (Table ItemList.id) :=
  if isNameTaken lists save.nameKey none then none else lists.insert (newList id save user)

/-- The stored row after the object is flushed: a column that is what was loaded is not written. -/
def flushList (loaded : ItemList) (save : Save) (stored : ItemList) : ItemList :=
  { stored with
    name := Charts.flushed loaded.name save.name stored.name
    nameKey := Charts.flushed loaded.nameKey save.nameKey stored.nameKey
    description := Charts.flushed loaded.description save.description stored.description
    version := stored.version + 1
    items := save.values }

theorem flushList_id (loaded : ItemList) (save : Save) (stored : ItemList) :
    (flushList loaded save stored).id = stored.id := rfl

/-- What the commit of `update_list` comes to. -/
inductive Flush where
  | saved (lists : Table ItemList.id)
  /-- The unique constraint refuses the name. -/
  | nameTaken
  /-- The row is gone: `StaleDataError`. -/
  | gone

/-- The commit of `update_list`. -/
def commitUpdate (lists : Table ItemList.id) (loaded : ItemList) (save : Save) : Flush :=
  match lists.get loaded.id with
  | none => .gone
  | some stored =>
    if isNameTaken lists (flushList loaded save stored).nameKey (some loaded.id) then .nameTaken
    else .saved (lists.modify loaded.id (flushList loaded save) (flushList_id loaded save))

/-- `_query_ids_using` -/
def queryIdsUsing (db : Db) (listId : String) : List String :=
  ((db.flagRules.rows.filter (reads listId)).map FlagRule.queryId).dedup

/-- The commit of `delete_list`: `none` where the foreign key of a condition refuses. -/
def commitDelete (lists : Table ItemList.id) (db : Db) (listId : String) :
    Option (Table ItemList.id) :=
  if isUsed db listId then none else some (lists.deleteWhere fun r => r.id = listId)

end FraudAnalyzer.Lists
