import FraudAnalyzer.FlagRules.Outcome
import FraudAnalyzer.Lib.Run
import FraudAnalyzer.Lists.Service
import FraudAnalyzer.Queries.Execution

/-!
# Lists, rule sets and runs under concurrency

Requests that create, replace and delete lists, requests that replace the rules of a query, and runs
of queries, in any number of sessions. Each read and each commit is a step of its own; a commit is
checked by the constraints of the database. A run reads the rules, then the items of each list they
name, and later stores what it has flagged. `invalidations` is for the statements only: no step
reads it.
-/

namespace FraudAnalyzer.Lists

open Python FlagRules
open Charts (FlagRuleSpec commitRules getOwned guardFrozen)

/-! ## State -/

/-- What a run has read of the rules and the lists. -/
structure Reading where
  rules : List FlagRule
  /-- The lists whose items it has read. -/
  listIds : List String
  items : String → Option (List String)

/-- A run in progress, with the invalidations of its query before it began. -/
structure QueryRun where
  queryId : String
  began : Nat
  reading : Reading

/-- A result that is held, with what it was flagged by. -/
structure Held where
  reading : Reading
  result : Queries.ExecutionResult

/-- A request in progress. -/
inductive Stage where
  | creating (user : User) (save : Save)
  | updating (loaded : ItemList) (payload : ItemListWrite)
  | saving (loaded : ItemList) (save : Save)
  /-- The save is committed. -/
  | collecting (listId : String)
  | invalidating (queryIds : List String)
  | deleting (loaded : ItemList)
  /-- No rule read the list. -/
  | removing (loaded : ItemList)
  | ensuring (queryId : String) (rules : List FlagRuleSpec)
  /-- The lists existed. -/
  | opening (queryId : String) (rules : List FlagRuleSpec)
  | replacing (queryId : String) (loaded : List FlagRule) (rules : List FlagRuleSpec)
  /-- The rules are committed. -/
  | dropping (queryId : String)
  | running (run : QueryRun)

structure State where
  lists : Table ItemList.id
  db : Db
  /-- The ids that rules were given. -/
  issued : List String
  operations : Nat → Option Stage
  results : String → Option Held
  invalidations : String → Nat

/-- A process that has just started. -/
def State.start (lists : Table ItemList.id) (db : Db) : State :=
  ⟨lists, db, db.flagRules.rows.map FlagRule.id, fun _ => none, fun _ => none, fun _ => 0⟩

def State.put (s : State) (i : Nat) (stage : Stage) : State :=
  { s with operations := Function.update s.operations i (some stage) }

def State.drop (s : State) (i : Nat) : State :=
  { s with operations := Function.update s.operations i none }

/-- `result_cache.invalidate` -/
def State.invalidate (s : State) (queryId : String) : State :=
  { s with
    results := Function.update s.results queryId none
    invalidations := Function.update s.invalidations queryId (s.invalidations queryId + 1) }

/-! ## Steps -/

/-- `members_of` for a list that was there when the rules were read. -/
def Reading.readItems (reading : Reading) (lists : Table ItemList.id) (listId : String) : Reading :=
  { reading with
    listIds := listId :: reading.listIds
    items := Function.update reading.items listId (some ((itemsOf lists listId).getD [])) }

/-- A rule of the reading names the list. -/
def Reading.names (reading : Reading) (listId : String) : Bool := reading.rules.any (reads listId)

/-- The items of every list that the rules name are read. -/
def Reading.complete (reading : Reading) : Bool :=
  reading.rules.all fun r => r.conditions.all fun c => c.listId.all fun id => id ∈ reading.listIds

/-- What a request is given from outside: the ids that `uuid4` returns. -/
abbrev Ids := List String

inductive Action where
  | beginCreate (i : Nat) (user : User) (payload : ItemListWrite)
  | beginUpdate (i : Nat) (user : User) (listId : String) (payload : ItemListWrite)
  | beginDelete (i : Nat) (user : User) (listId : String)
  | beginReplace (i : Nat) (user : User) (queryId : String) (rules : List FlagRuleSpec)
  | beginRun (i : Nat) (queryId : String)
  | advance (i : Nat) (ids : Ids)
  | readItems (i : Nat) (listId : String)
  | store (i : Nat) (result : Queries.ExecutionResult)
  /-- The query is deleted, alone or with its connection. -/
  | removeQuery (queryId : String)
  /-- The cache drops an entry on its own. -/
  | evict (queryId : String)
  | abort (i : Nat)

/-- The next step of a request. One that is refused ends. -/
def advance (E : Env) (s : State) (i : Nat) (ids : Ids) : Stage → Option State
  | .creating user save =>
    match commitCreate s.lists (ids.headD "") save user with
    | none => some (s.drop i)
    | some lists => some { s.drop i with lists := lists }
  | .updating loaded payload =>
    match checkSave E s.lists payload (some loaded.id) with
    | .error _ => some (s.drop i)
    | .ok save => some (s.put i (.saving loaded save))
  | .saving loaded save =>
    match commitUpdate s.lists loaded save with
    | .saved lists => some { s.put i (.collecting loaded.id) with lists := lists }
    | _ => some (s.drop i)
  | .collecting listId => some (s.put i (.invalidating (queryIdsUsing s.db listId)))
  | .invalidating [] => some (s.drop i)
  | .invalidating (queryId :: queryIds) =>
    some ((s.invalidate queryId).put i (.invalidating queryIds))
  | .deleting loaded =>
    if isUsed s.db loaded.id then some (s.drop i) else some (s.put i (.removing loaded))
  | .removing loaded =>
    match commitDelete s.lists s.db loaded.id with
    | none => some (s.drop i)
    | some lists => some { s.drop i with lists := lists }
  | .ensuring queryId rules =>
    match ensureListsExist E.unicode (itemsOf s.lists) (listIdsOf rules) with
    | .error _ => some (s.drop i)
    | .ok () => some (s.put i (.opening queryId rules))
  | .opening queryId rules => some (s.put i (.replacing queryId (s.db.rulesOf queryId) rules))
  | .replacing queryId loaded rules =>
    if ∀ id ∈ ids, id ∉ s.issued then
      if listsStored (itemsOf s.lists) rules then
        match commitRules s.db queryId loaded rules ids with
        | none => some (s.drop i)
        | some db => some { s.put i (.dropping queryId) with db := db, issued := s.issued ++ ids }
      else some (s.drop i)
    else none
  | .dropping queryId => some ((s.invalidate queryId).drop i)
  | .running _ => none

/-- A request that can end without a further step. -/
def Stage.abortable : Stage → Bool
  | .collecting _ | .invalidating _ | .dropping _ => false
  | _ => true

def step (E : Env) (s : State) : Action → Option State
  | .beginCreate i user payload =>
    match s.operations i, checkSave E s.lists payload none with
    | none, .ok save => some (s.put i (.creating user save))
    | none, .error _ => some s
    | some _, _ => none
  | .beginUpdate i user listId payload =>
    match s.operations i, getChangeable E.unicode s.lists listId user with
    | none, .ok loaded => some (s.put i (.updating loaded payload))
    | none, .error _ => some s
    | some _, _ => none
  | .beginDelete i user listId =>
    match s.operations i, getChangeable E.unicode s.lists listId user with
    | none, .ok loaded => some (s.put i (.deleting loaded))
    | none, .error _ => some s
    | some _, _ => none
  | .beginReplace i user queryId rules =>
    match s.operations i, getOwned s.db queryId user with
    | none, .ok query =>
      match guardFrozen s.db query user with
      | .error _ => some s
      | .ok () => some (s.put i (.ensuring query.id rules))
    | none, .error _ => some s
    | some _, _ => none
  | .beginRun i queryId =>
    match s.operations i, s.db.queries.get queryId with
    | none, some query =>
      some (s.put i (.running ⟨query.id, s.invalidations query.id,
        ⟨s.db.rulesOf query.id, [], fun _ => none⟩⟩))
    | none, none => some s
    | some _, _ => none
  | .advance i ids => (s.operations i).bind (advance E s i ids)
  | .readItems i listId =>
    match s.operations i with
    | some (.running run) =>
      if run.reading.names listId then
        some (s.put i (.running { run with reading := run.reading.readItems s.lists listId }))
      else none
    | _ => none
  | .store i result =>
    match s.operations i with
    | some (.running run) =>
      if run.reading.complete then
        some { s.drop i with
          results := Function.update s.results run.queryId (some ⟨run.reading, result⟩) }
      else none
    | _ => none
  | .removeQuery queryId => some { s with db := Charts.commitDelete s.db queryId }
  | .evict queryId => some { s with results := Function.update s.results queryId none }
  | .abort i =>
    match s.operations i with
    | some stage => if stage.abortable then some (s.drop i) else none
    | none => none

/-! ## What a step can do -/

/-- How a request begins, and how it goes on up to its commit. -/
inductive Moved (E : Env) (s : State) : Action → Option Stage → Stage → Prop
  | creating {i user payload save} (h : checkSave E s.lists payload none = .ok save) :
      Moved E s (.beginCreate i user payload) none (.creating user save)
  | updating {i user listId payload loaded}
      (h : getChangeable E.unicode s.lists listId user = .ok loaded) :
      Moved E s (.beginUpdate i user listId payload) none (.updating loaded payload)
  | deleting {i user listId loaded}
      (h : getChangeable E.unicode s.lists listId user = .ok loaded) :
      Moved E s (.beginDelete i user listId) none (.deleting loaded)
  | ensuring {i user queryId rules query} (h : getOwned s.db queryId user = .ok query) :
      Moved E s (.beginReplace i user queryId rules) none (.ensuring query.id rules)
  | running {i query} (h : s.db.queries.get query.id = some query) :
      Moved E s (.beginRun i query.id) none (.running ⟨query.id, s.invalidations query.id,
        ⟨s.db.rulesOf query.id, [], fun _ => none⟩⟩)
  | saving {a loaded payload save}
      (h : checkSave E s.lists payload (some loaded.id) = .ok save) :
      Moved E s a (some (.updating loaded payload)) (.saving loaded save)
  | removing {a loaded} : Moved E s a (some (.deleting loaded)) (.removing loaded)
  | opening {a queryId rules} :
      Moved E s a (some (.ensuring queryId rules)) (.opening queryId rules)
  | replacing {a queryId rules} :
      Moved E s a (some (.opening queryId rules)) (.replacing queryId (s.db.rulesOf queryId) rules)
  | read {a run listId} (h : run.reading.names listId = true) :
      Moved E s a (some (.running run))
        (.running { run with reading := run.reading.readItems s.lists listId })

/-- All that one step can do. -/
inductive Effect (E : Env) (s : State) : Action → State → Prop
  | idle {a} : Effect E s a s
  | moved {a i stage} (h : Moved E s a (s.operations i) stage) : Effect E s a (s.put i stage)
  | ended {a i stage} (hop : s.operations i = some stage)
      (h : stage.abortable = true ∨ stage = .invalidating []) : Effect E s a (s.drop i)
  | created {a i user save id lists} (hop : s.operations i = some (.creating user save))
      (h : commitCreate s.lists id save user = some lists) :
      Effect E s a { s.drop i with lists := lists }
  | saved {i ids loaded save lists} (hop : s.operations i = some (.saving loaded save))
      (h : commitUpdate s.lists loaded save = .saved lists) :
      Effect E s (.advance i ids) { s.put i (.collecting loaded.id) with lists := lists }
  | collected {a i listId} (hop : s.operations i = some (.collecting listId)) :
      Effect E s a (s.put i (.invalidating (queryIdsUsing s.db listId)))
  | invalidated {a i queryId queryIds}
      (hop : s.operations i = some (.invalidating (queryId :: queryIds))) :
      Effect E s a ((s.invalidate queryId).put i (.invalidating queryIds))
  | deleted {a i loaded lists} (hop : s.operations i = some (.removing loaded))
      (h : commitDelete s.lists s.db loaded.id = some lists) :
      Effect E s a { s.drop i with lists := lists }
  | replaced {a i ids queryId loaded rules db}
      (hop : s.operations i = some (.replacing queryId loaded rules))
      (hids : ∀ id ∈ ids, id ∉ s.issued) (hlists : listsStored (itemsOf s.lists) rules = true)
      (h : commitRules s.db queryId loaded rules ids = some db) :
      Effect E s a { s.put i (.dropping queryId) with db := db, issued := s.issued ++ ids }
  | dropped {a i queryId} (hop : s.operations i = some (.dropping queryId)) :
      Effect E s a ((s.invalidate queryId).drop i)
  | stored {i run result} (hop : s.operations i = some (.running run))
      (h : run.reading.complete = true) :
      Effect E s (.store i result) { s.drop i with
        results := Function.update s.results run.queryId (some ⟨run.reading, result⟩) }
  | removed {a queryId} : Effect E s a { s with db := Charts.commitDelete s.db queryId }
  | evicted {a queryId} :
      Effect E s a { s with results := Function.update s.results queryId none }

theorem effect_of_advance {E : Env} {s t : State} {i : Nat} {ids : Ids} {stage : Stage}
    (hop : s.operations i = some stage) (h : advance E s i ids stage = some t) :
    Effect E s (.advance i ids) t := by
  unfold advance at h
  split at h
  case h_1 user save =>
    split at h
    · obtain rfl := Option.some.inj h
      exact .ended hop (.inl rfl)
    next hcreate =>
      obtain rfl := Option.some.inj h
      exact .created hop hcreate
  case h_2 loaded payload =>
    split at h
    · obtain rfl := Option.some.inj h
      exact .ended hop (.inl rfl)
    next hcheck =>
      obtain rfl := Option.some.inj h
      exact .moved (hop ▸ .saving hcheck)
  case h_3 loaded save =>
    split at h
    next hsave =>
      obtain rfl := Option.some.inj h
      exact .saved hop hsave
    · obtain rfl := Option.some.inj h
      exact .ended hop (.inl rfl)
  case h_4 listId =>
    obtain rfl := Option.some.inj h
    exact .collected hop
  case h_5 =>
    obtain rfl := Option.some.inj h
    exact .ended hop (.inr rfl)
  case h_6 queryId queryIds =>
    obtain rfl := Option.some.inj h
    exact .invalidated hop
  case h_7 loaded =>
    split at h
    · obtain rfl := Option.some.inj h
      exact .ended hop (.inl rfl)
    · obtain rfl := Option.some.inj h
      exact .moved (hop ▸ .removing)
  case h_8 loaded =>
    split at h
    · obtain rfl := Option.some.inj h
      exact .ended hop (.inl rfl)
    next hdelete =>
      obtain rfl := Option.some.inj h
      exact .deleted hop hdelete
  case h_9 queryId rules =>
    split at h
    · obtain rfl := Option.some.inj h
      exact .ended hop (.inl rfl)
    · obtain rfl := Option.some.inj h
      exact .moved (hop ▸ .opening)
  case h_10 queryId rules =>
    obtain rfl := Option.some.inj h
    exact .moved (hop ▸ .replacing)
  case h_11 queryId loaded rules =>
    split at h
    next hids =>
      split at h
      next hlists =>
        split at h
        · obtain rfl := Option.some.inj h
          exact .ended hop (.inl rfl)
        next hcommit =>
          obtain rfl := Option.some.inj h
          exact .replaced hop hids hlists hcommit
      · obtain rfl := Option.some.inj h
        exact .ended hop (.inl rfl)
    · cases h
  case h_12 queryId =>
    obtain rfl := Option.some.inj h
    exact .dropped hop
  case h_13 => cases h

/-- **Inversion of `step`.** -/
theorem effect_of_step {E : Env} {s t : State} {a : Action} (h : step E s a = some t) :
    Effect E s a t := by
  unfold step at h
  split at h
  case h_1 i user payload =>
    split at h
    next hfree hcheck =>
      obtain rfl := Option.some.inj h
      exact .moved (hfree ▸ .creating hcheck)
    · obtain rfl := Option.some.inj h
      exact .idle
    · cases h
  case h_2 i user listId payload =>
    split at h
    next hfree hload =>
      obtain rfl := Option.some.inj h
      exact .moved (hfree ▸ .updating hload)
    · obtain rfl := Option.some.inj h
      exact .idle
    · cases h
  case h_3 i user listId =>
    split at h
    next hfree hload =>
      obtain rfl := Option.some.inj h
      exact .moved (hfree ▸ .deleting hload)
    · obtain rfl := Option.some.inj h
      exact .idle
    · cases h
  case h_4 i user queryId rules =>
    split at h
    next hfree hquery =>
      split at h
      · obtain rfl := Option.some.inj h
        exact .idle
      · obtain rfl := Option.some.inj h
        exact .moved (hfree ▸ .ensuring hquery)
    · obtain rfl := Option.some.inj h
      exact .idle
    · cases h
  case h_5 i queryId =>
    split at h
    next query hfree hquery =>
      obtain rfl := Option.some.inj h
      obtain rfl := Table.key_of_get hquery
      exact .moved (hfree ▸ .running hquery)
    · obtain rfl := Option.some.inj h
      exact .idle
    · cases h
  case h_6 i ids =>
    obtain ⟨stage, hop, hadvance⟩ := Option.bind_eq_some_iff.mp h
    exact effect_of_advance hop hadvance
  case h_7 i listId =>
    split at h
    next run hop =>
      split at h
      next hnames =>
        obtain rfl := Option.some.inj h
        exact .moved (hop ▸ .read hnames)
      · cases h
    · cases h
  case h_8 i result =>
    split at h
    next run hop =>
      split at h
      next hcomplete =>
        obtain rfl := Option.some.inj h
        exact .stored hop hcomplete
      · cases h
    · cases h
  case h_9 queryId =>
    obtain rfl := Option.some.inj h
    exact .removed
  case h_10 queryId =>
    obtain rfl := Option.some.inj h
    exact .evicted
  case h_11 i =>
    split at h
    next stage hop =>
      split at h
      next habort =>
        obtain rfl := Option.some.inj h
        exact .ended hop (.inl habort)
      · cases h
    · cases h

end FraudAnalyzer.Lists
