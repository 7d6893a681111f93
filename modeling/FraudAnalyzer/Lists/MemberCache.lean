import FraudAnalyzer.Lib.OrderedDict
import FraudAnalyzer.Lib.Run
import FraudAnalyzer.Lists.Saving
import Mathlib.Logic.Function.Basic

/-!
# The member-set cache under concurrent saves

`update_list` in any number of sessions, and `members_of` with `cached_members` in any number of
others. Of the database it is assumed that saves of one list are serialised by the lock of its row,
which a save takes to write `version + 1`, and that the new items and the version are seen together,
from the commit on. A lookup reads the version, asks the cache, loads the items and fills the cache
in separate steps, so a set may be stored under a version before its own. `commits` and `answers`
are for the statements only: no step reads them.
-/

namespace FraudAnalyzer.Lists

open Python

namespace MemberCache

/-! ## Saves -/

/-- What `update_list` writes, once it is checked. -/
structure Write extends Save where
  listId : String
  deriving DecidableEq

/-- The checks of `update_list`. -/
def checkWrite (E : Env) (lists : Table ItemList.id) (listId : String) (payload : ItemListWrite) :
    Except AppError Write :=
  (checkSave E lists payload (some listId)).map fun save => ⟨save, listId⟩

/-- The row once a save is committed. -/
def saved (w : Write) (version : Nat) (row : ItemList) : ItemList :=
  { row with
    name := w.name, nameKey := w.nameKey, description := w.description, version := version
    items := w.values }

theorem saved_id (w : Write) (version : Nat) (row : ItemList) :
    (saved w version row).id = row.id := rfl

/-! ## The cache -/

/-- `_MAX_CACHED_LISTS` -/
def maxCachedLists : Nat := 32

/-- `_cache`: the member sets by list and version. -/
abbrev Cache := OrderedDict (String × Nat) (List Member)

/-- The end of `cached_members`, under the lock. -/
def fill (cache : Cache) (key : String × Nat) (members : List Member) : Cache :=
  let filled := cache.setLast key members
  filled.evictOver maxCachedLists filled.size

/-! ## Steps -/

/-- A save in progress. -/
inductive Writer where
  | checked (w : Write)
  /-- It holds the lock of the row, and has written the version. -/
  | locked (w : Write) (version : Nat)

/-- A lookup in progress. -/
inductive Lookup where
  | keyed (listId : String) (version : Nat)
  | missed (listId : String) (version : Nat)
  | loaded (listId : String) (version : Nat) (members : List Member)

/-- A save that took effect. -/
structure Commit where
  writer : Nat
  listId : String
  values : List String

/-- What a lookup returned. -/
structure Answer where
  listId : String
  version : Nat
  members : List Member

structure State where
  lists : Table ItemList.id
  /-- The row locks, by list. -/
  locks : String → Option Nat
  writers : Nat → Option Writer
  lookups : Nat → Option Lookup
  cache : Cache
  commits : List Commit
  answers : List Answer

/-- A process that has just started. -/
def State.start (lists : Table ItemList.id) : State :=
  ⟨lists, fun _ => none, fun _ => none, fun _ => none, .empty, [], []⟩

def State.setWriter (s : State) (i : Nat) (w : Option Writer) : State :=
  { s with writers := Function.update s.writers i w }

def State.setLock (s : State) (listId : String) (i : Option Nat) : State :=
  { s with locks := Function.update s.locks listId i }

def State.setLookup (s : State) (j : Nat) (l : Option Lookup) : State :=
  { s with lookups := Function.update s.lookups j l }

/-- A lookup returns. -/
def State.answer (s : State) (j : Nat) (listId : String) (version : Nat) (members : List Member)
    (cache : Cache) : State :=
  { s.setLookup j none with
    cache := cache, answers := s.answers ++ [⟨listId, version, members⟩] }

inductive Action where
  | beginSave (i : Nat) (listId : String) (payload : ItemListWrite)
  | lockRow (i : Nat)
  | commit (i : Nat)
  | rollback (i : Nat)
  | readVersion (j : Nat) (listId : String)
  | askCache (j : Nat)
  | loadItems (j : Nat)
  | fillCache (j : Nat)
  | clearCache

/-- One step of one session. A save that is refused ends, a lookup of a list that is not stored does
not begin. -/
def step (E : Env) (s : State) : Action → Option State
  | .beginSave i listId payload =>
    match s.writers i, checkWrite E s.lists listId payload with
    | some _, _ => none
    | none, .error _ => some s
    | none, .ok w => some (s.setWriter i (some (.checked w)))
  | .lockRow i =>
    match s.writers i with
    | some (.checked w) =>
      match s.locks w.listId, s.lists.get w.listId with
      | none, some row =>
        some ((s.setLock w.listId (some i)).setWriter i (some (.locked w (row.version + 1))))
      | _, _ => none
    | _ => none
  | .commit i =>
    match s.writers i with
    | some (.locked w version) =>
      if isNameTaken s.lists w.nameKey (some w.listId) then
        some ((s.setLock w.listId none).setWriter i none)
      else
        some
          { (s.setLock w.listId none).setWriter i none with
            lists := s.lists.modify w.listId (saved w version) (saved_id w version)
            commits := s.commits ++ [⟨i, w.listId, w.values⟩] }
    | _ => none
  | .rollback i =>
    match s.writers i with
    | some (.locked w _) => some ((s.setLock w.listId none).setWriter i none)
    | _ => some (s.setWriter i none)
  | .readVersion j listId =>
    match s.lists.get listId with
    | some row => some (s.setLookup j (some (.keyed listId row.version)))
    | none => none
  | .askCache j =>
    match s.lookups j with
    | some (.keyed listId version) =>
      match s.cache.get (listId, version) with
      | some members =>
        some (s.answer j listId version members (s.cache.moveToEnd (listId, version)))
      | none => some (s.setLookup j (some (.missed listId version)))
    | _ => none
  | .loadItems j =>
    match s.lookups j with
    | some (.missed listId version) =>
      match s.lists.get listId with
      | some row =>
        some (s.setLookup j
          (some (.loaded listId version (membersFromItems E.unicode row.items))))
      | none => none
    | _ => none
  | .fillCache j =>
    match s.lookups j with
    | some (.loaded listId version members) =>
      some (s.answer j listId version members (fill s.cache (listId, version) members))
    | _ => none
  | .clearCache => some { s with cache := .empty }

/-- All that one step can do. -/
inductive Effect (E : Env) (s : State) : State → Prop
  | idle : Effect E s s
  | begun {i w} (hfree : s.writers i = none) : Effect E s (s.setWriter i (some (.checked w)))
  | locked {i w row} (hw : s.writers i = some (.checked w)) (hfree : s.locks w.listId = none)
      (hrow : s.lists.get w.listId = some row) :
      Effect E s ((s.setLock w.listId (some i)).setWriter i (some (.locked w (row.version + 1))))
  | released {i w version} (hw : s.writers i = some (.locked w version)) :
      Effect E s ((s.setLock w.listId none).setWriter i none)
  | dropped {i} (hw : ∀ w version, s.writers i ≠ some (.locked w version)) :
      Effect E s (s.setWriter i none)
  | committed {i w version} (hw : s.writers i = some (.locked w version)) :
      Effect E s
        { (s.setLock w.listId none).setWriter i none with
          lists := s.lists.modify w.listId (saved w version) (saved_id w version)
          commits := s.commits ++ [⟨i, w.listId, w.values⟩] }
  | keyed {j listId row} (hrow : s.lists.get listId = some row) :
      Effect E s (s.setLookup j (some (.keyed listId row.version)))
  | hit {j listId version members} (hl : s.lookups j = some (.keyed listId version))
      (hget : s.cache.get (listId, version) = some members) :
      Effect E s (s.answer j listId version members (s.cache.moveToEnd (listId, version)))
  | missed {j listId version} (hl : s.lookups j = some (.keyed listId version)) :
      Effect E s (s.setLookup j (some (.missed listId version)))
  | loaded {j listId version row} (hl : s.lookups j = some (.missed listId version))
      (hrow : s.lists.get listId = some row) :
      Effect E s (s.setLookup j
        (some (.loaded listId version (membersFromItems E.unicode row.items))))
  | filled {j listId version members} (hl : s.lookups j = some (.loaded listId version members)) :
      Effect E s (s.answer j listId version members (fill s.cache (listId, version) members))
  | cleared : Effect E s { s with cache := .empty }

/-- **Inversion of `step`.** -/
theorem effect_of_step {E : Env} {s t : State} {a : Action} (h : step E s a = some t) :
    Effect E s t := by
  unfold step at h
  split at h
  case h_1 i listId payload =>
    split at h
    · cases h
    · obtain rfl := Option.some.inj h
      exact .idle
    next hfree _ =>
      obtain rfl := Option.some.inj h
      exact .begun hfree
  case h_2 i =>
    split at h
    next hw =>
      split at h
      next hfree hrow =>
        obtain rfl := Option.some.inj h
        exact .locked hw hfree hrow
      · cases h
    · cases h
  case h_3 i =>
    split at h
    next hw =>
      split at h
      · obtain rfl := Option.some.inj h
        exact .released hw
      · obtain rfl := Option.some.inj h
        exact .committed hw
    · cases h
  case h_4 i =>
    split at h
    next hw =>
      obtain rfl := Option.some.inj h
      exact .released hw
    next hw =>
      obtain rfl := Option.some.inj h
      exact .dropped hw
  case h_5 j listId =>
    split at h
    next hrow =>
      obtain rfl := Option.some.inj h
      exact .keyed hrow
    · cases h
  case h_6 j =>
    split at h
    next hl =>
      split at h
      next hget =>
        obtain rfl := Option.some.inj h
        exact .hit hl hget
      · obtain rfl := Option.some.inj h
        exact .missed hl
    · cases h
  case h_7 j =>
    split at h
    next hl =>
      split at h
      next hrow =>
        obtain rfl := Option.some.inj h
        exact .loaded hl hrow
      · cases h
    · cases h
  case h_8 j =>
    split at h
    next hl =>
      obtain rfl := Option.some.inj h
      exact .filled hl
    · cases h
  case h_9 =>
    obtain rfl := Option.some.inj h
    exact .cleared

/-! ## The versions of a list -/

/-- The saves of one list that took effect, in their order. -/
def commitsTo (commits : List Commit) (listId : String) : List Commit :=
  commits.filter fun c => c.listId = listId

/-- The item sets that a list has had since the process started. -/
def versions (start : ItemList) (commits : List Commit) : List (List String) :=
  start.items :: (commitsTo commits start.id).map Commit.values

/-- The items of a version. -/
def itemsAt (start : ItemList) (commits : List Commit) (version : Nat) : Option (List String) :=
  if version < start.version then none else (versions start commits)[version - start.version]?

section Versions

variable {start : ItemList} {commits : List Commit} {c : Commit} {version : Nat}
  {items : List String}

theorem commitsTo_concat (commits : List Commit) (c : Commit) (listId : String) :
    commitsTo (commits ++ [c]) listId =
      commitsTo commits listId ++ if c.listId = listId then [c] else [] := by
  unfold commitsTo
  rw [List.filter_append]
  by_cases h : c.listId = listId
  · simp [h]
  · simp [h]

/-- A later save does not change what a version was. -/
theorem itemsAt_concat (h : itemsAt start commits version = some items) (c : Commit) :
    itemsAt start (commits ++ [c]) version = some items := by
  unfold itemsAt at h ⊢
  split at h
  · cases h
  next hle =>
    rw [if_neg hle]
    unfold versions at h ⊢
    rw [commitsTo_concat, List.map_append, ← List.cons_append]
    exact List.getElem?_append_left (List.getElem?_eq_some_iff.mp h).1 ▸ h

/-- The items of the newest version are those of the last save. -/
theorem itemsAt_last : itemsAt start commits (start.version + (commitsTo commits start.id).length) =
    some (((commitsTo commits start.id).getLast?.map Commit.values).getD start.items) := by
  unfold itemsAt versions
  rw [if_neg (by omega), Nat.add_sub_cancel_left]
  rcases List.eq_nil_or_concat (commitsTo commits start.id) with hnil | ⟨before, c, hlast⟩
  · rw [hnil]
    rfl
  · have hlength : (before.concat c).length = (before.map Commit.values).length + 1 := by simp
    rw [hlast, hlength, List.getElem?_cons_succ, List.concat_eq_append, List.map_append,
      List.getElem?_append_right (le_refl _), Nat.sub_self, List.getLast?_concat]
    rfl

end Versions

/-! ## Writers -/

/-- The stored row of a list after the saves so far. -/
structure RowOf (start : ItemList) (commits : List Commit) (row : ItemList) : Prop where
  version : row.version = start.version + (commitsTo commits start.id).length
  items : row.items = ((commitsTo commits start.id).getLast?.map Commit.values).getD start.items

/-- Each row has had the saves that took effect, and who holds its lock has the next version. -/
structure WritersInv (lists : Table ItemList.id) (s : State) : Prop where
  stored : ∀ id start, lists.get id = some start →
    ∃ row, s.lists.get id = some row ∧ RowOf start s.commits row
  known : ∀ id row, s.lists.get id = some row → (lists.get id).isSome
  locked : ∀ i w version, s.writers i = some (.locked w version) →
    s.locks w.listId = some i ∧ ∃ row, s.lists.get w.listId = some row ∧ version = row.version + 1

section Writers

variable {E : Env} {lists : Table ItemList.id} {s t : State} {i : Nat} {w : Write} {version : Nat}

theorem writersInv_start (lists : Table ItemList.id) : WritersInv lists (State.start lists) where
  stored _ start h := ⟨start, h, rfl, rfl⟩
  known _ _ h := Option.isSome_iff_exists.mpr ⟨_, h⟩
  locked _ _ _ h := by cases h

/-- A writer goes away, with its lock or without one. -/
theorem WritersInv.drop (h : WritersInv lists s) {locks : String → Option Nat}
    (hlocks : ∀ j w version, j ≠ i → s.writers j = some (.locked w version) →
      locks w.listId = s.locks w.listId) :
    WritersInv lists { s with locks := locks, writers := Function.update s.writers i none } := by
  refine ⟨h.stored, h.known, ?_⟩
  intro j w version hw
  simp only [Function.update_apply] at hw
  split at hw
  · cases hw
  next hj =>
    obtain ⟨hlock, hrow⟩ := h.locked j w version hw
    exact ⟨(hlocks j w version hj hw).trans hlock, hrow⟩

/-- Two locked writers work on two lists. -/
theorem WritersInv.listId_ne (h : WritersInv lists s) (hw : s.writers i = some (.locked w version))
    {j : Nat} {w' : Write} {version' : Nat} (hj : j ≠ i)
    (hw' : s.writers j = some (.locked w' version')) : w'.listId ≠ w.listId := by
  intro hsame
  have hlock := (h.locked i w version hw).1
  rw [← hsame, (h.locked j w' version' hw').1] at hlock
  exact hj (Option.some.inj hlock)

theorem WritersInv.release (h : WritersInv lists s)
    (hw : s.writers i = some (.locked w version)) :
    WritersInv lists ((s.setLock w.listId none).setWriter i none) := by
  refine h.drop fun j w' version' hj hw' => ?_
  exact Function.update_of_ne (h.listId_ne hw hj hw') _ _

theorem WritersInv.commit (h : WritersInv lists s)
    (hw : s.writers i = some (.locked w version)) :
    WritersInv lists
      { (s.setLock w.listId none).setWriter i none with
        lists := s.lists.modify w.listId (saved w version) (saved_id w version)
        commits := s.commits ++ [⟨i, w.listId, w.values⟩] } := by
  have hget := fun id =>
    s.lists.get_modify w.listId id (saved w version) (saved_id w version)
  refine ⟨?_, ?_, ?_⟩
  · intro id start hstart
    obtain ⟨row, hrow, hof⟩ := h.stored id start hstart
    obtain rfl := Table.key_of_get hstart
    by_cases hid : start.id = w.listId
    · obtain ⟨-, locked, hlocked, hnext⟩ := h.locked i w version hw
      obtain rfl : row = locked := Option.some.inj (hrow.symm.trans (hid ▸ hlocked))
      refine ⟨saved w version row, ?_, ?_, ?_⟩
      · rw [hget, if_pos hid, hrow]
        rfl
      · rw [commitsTo_concat, if_pos hid.symm, List.length_append, ← Nat.add_assoc, ← hof.version]
        exact hnext
      · rw [commitsTo_concat, if_pos hid.symm, List.getLast?_concat]
        rfl
    · refine ⟨row, ?_, ?_⟩
      · rw [hget, if_neg hid]
        exact hrow
      · have hsame : commitsTo (s.commits ++ [⟨i, w.listId, w.values⟩]) start.id =
            commitsTo s.commits start.id := by
          rw [commitsTo_concat, if_neg (Ne.symm hid), List.append_nil]
        exact ⟨hsame ▸ hof.version, hsame ▸ hof.items⟩
  · intro id row hrow
    rw [hget] at hrow
    split at hrow
    · obtain ⟨old, hold, -⟩ := Option.map_eq_some_iff.mp hrow
      exact h.known id old hold
    · exact h.known id row hrow
  · intro j w' version' hw'
    simp only [State.setWriter, State.setLock, Function.update_apply] at hw'
    split at hw'
    · cases hw'
    next hj =>
      obtain ⟨hlock, row, hrow, hnext⟩ := h.locked j w' version' hw'
      have hne := h.listId_ne hw hj hw'
      refine ⟨(Function.update_of_ne hne _ _).trans hlock, row, ?_, hnext⟩
      rw [hget, if_neg hne]
      exact hrow

theorem WritersInv.lock (h : WritersInv lists s) (hfree : s.locks w.listId = none) {row : ItemList}
    (hrow : s.lists.get w.listId = some row) :
    WritersInv lists
      ((s.setLock w.listId (some i)).setWriter i (some (.locked w (row.version + 1)))) := by
  refine ⟨h.stored, h.known, ?_⟩
  intro j w' version' hw'
  simp only [State.setWriter, State.setLock, Function.update_apply] at hw' ⊢
  split at hw'
  next hj =>
    obtain ⟨rfl, rfl⟩ := Writer.locked.inj (Option.some.inj hw')
    rw [if_pos rfl, hj]
    exact ⟨rfl, row, hrow, rfl⟩
  next hj =>
    obtain ⟨hlock, hrow'⟩ := h.locked j w' version' hw'
    have hne : w'.listId ≠ w.listId := fun hsame => by
      rw [hsame, hfree] at hlock
      cases hlock
    rw [if_neg hne]
    exact ⟨hlock, hrow'⟩

theorem WritersInv.effect (h : WritersInv lists s) (he : Effect E s t) : WritersInv lists t := by
  cases he with
  | idle => exact h
  | @begun i w hfree =>
    refine ⟨h.stored, h.known, ?_⟩
    intro j w' version hw'
    simp only [State.setWriter, Function.update_apply] at hw'
    split at hw'
    · cases hw'
    · exact h.locked j w' version hw'
  | locked _ hfree hrow => exact h.lock hfree hrow
  | released hw => exact h.release hw
  | dropped _ => exact h.drop fun _ _ _ _ _ => rfl
  | committed hw => exact h.commit hw
  | keyed _ => exact ⟨h.stored, h.known, h.locked⟩
  | hit _ _ => exact ⟨h.stored, h.known, h.locked⟩
  | missed _ => exact ⟨h.stored, h.known, h.locked⟩
  | loaded _ _ => exact ⟨h.stored, h.known, h.locked⟩
  | filled _ => exact ⟨h.stored, h.known, h.locked⟩
  | cleared => exact ⟨h.stored, h.known, h.locked⟩

end Writers

/-! ## Readers -/

/-- The member set of a version of the list that is not older than `version`. -/
def FromVersion (u : Unicode) (lists : Table ItemList.id) (commits : List Commit) (listId : String)
    (version : Nat) (members : List Member) : Prop :=
  ∃ start, lists.get listId = some start ∧ ∃ newer, version ≤ newer ∧
    ∃ items, itemsAt start commits newer = some items ∧ members = membersFromItems u items

/-- A lookup has read a version that was stored, and has loaded the members of that or a later
one. -/
def Lookup.Sound (u : Unicode) (lists current : Table ItemList.id) (commits : List Commit) :
    Lookup → Prop
  | .keyed listId version | .missed listId version =>
    ∃ row, current.get listId = some row ∧ version ≤ row.version
  | .loaded listId version members => FromVersion u lists commits listId version members

structure ReadersInv (u : Unicode) (lists : Table ItemList.id) (s : State) : Prop where
  lookups : ∀ j l, s.lookups j = some l → l.Sound u lists s.lists s.commits
  cached : ∀ listId version members, s.cache.get (listId, version) = some members →
    FromVersion u lists s.commits listId version members
  answered : ∀ a ∈ s.answers, FromVersion u lists s.commits a.listId a.version a.members
  bounded : s.cache.size ≤ maxCachedLists

section Readers

variable {E : Env} {lists : Table ItemList.id} {s t : State} {u : Unicode} {j : Nat}
  {listId : String} {version : Nat} {members : List Member} {commits : List Commit}

theorem FromVersion.concat (h : FromVersion u lists commits listId version members) (c : Commit) :
    FromVersion u lists (commits ++ [c]) listId version members := by
  obtain ⟨start, hstart, newer, hle, items, hitems, rfl⟩ := h
  exact ⟨start, hstart, newer, hle, items, itemsAt_concat hitems c, rfl⟩

/-- What is loaded now is not older than any version that was read. -/
theorem fromVersion_of_row (h : WritersInv lists s) {row : ItemList}
    (hrow : s.lists.get listId = some row) (hle : version ≤ row.version) :
    FromVersion u lists s.commits listId version (membersFromItems u row.items) := by
  obtain ⟨start, hstart⟩ := Option.isSome_iff_exists.mp (h.known listId row hrow)
  obtain ⟨row', hrow', hof⟩ := h.stored listId start hstart
  obtain rfl : row = row' := Option.some.inj (hrow.symm.trans hrow')
  refine ⟨start, hstart, row.version, hle, row.items, ?_, rfl⟩
  rw [hof.version, hof.items]
  exact itemsAt_last

theorem readersInv_start (lists : Table ItemList.id) : ReadersInv u lists (State.start lists) where
  lookups _ _ h := by cases h
  cached _ _ _ h := by cases h
  answered _ h := by cases h
  bounded := Nat.zero_le _

theorem ReadersInv.setLookup (h : ReadersInv u lists s) {l : Option Lookup}
    (hl : ∀ l', l = some l' → l'.Sound u lists s.lists s.commits) :
    ReadersInv u lists (s.setLookup j l) := by
  refine ⟨?_, h.cached, h.answered, h.bounded⟩
  intro k l' hk
  simp only [State.setLookup, Function.update_apply] at hk
  split at hk
  · exact hl l' hk
  · exact h.lookups k l' hk

theorem ReadersInv.answer (h : ReadersInv u lists s) {cache : Cache}
    (hmembers : FromVersion u lists s.commits listId version members)
    (hcache : ∀ id v ms, cache.get (id, v) = some ms → FromVersion u lists s.commits id v ms)
    (hsize : cache.size ≤ maxCachedLists) :
    ReadersInv u lists (s.answer j listId version members cache) := by
  have hlookups := (h.setLookup (j := j) (l := none) nofun).lookups
  refine ⟨hlookups, hcache, ?_, hsize⟩
  intro a ha
  rcases List.mem_append.mp ha with hold | hnew
  · exact h.answered a hold
  · obtain rfl := List.mem_singleton.mp hnew
    exact hmembers

/-- The sets in the cache stay what they are as saves commit, and the versions that were read are
not newer than those stored. -/
theorem ReadersInv.commit (h : ReadersInv u lists s) (hwriters : WritersInv lists s) {i : Nat}
    {w : Write} (hw : s.writers i = some (.locked w version)) :
    ReadersInv u lists
      { (s.setLock w.listId none).setWriter i none with
        lists := s.lists.modify w.listId (saved w version) (saved_id w version)
        commits := s.commits ++ [⟨i, w.listId, w.values⟩] } := by
  have hgrows : ∀ id v, (∃ row, s.lists.get id = some row ∧ v ≤ row.version) →
      ∃ row, (s.lists.modify w.listId (saved w version) (saved_id w version)).get id = some row ∧
        v ≤ row.version := by
    rintro id v ⟨row, hrow, hle⟩
    rw [Table.get_modify]
    by_cases hid : id = w.listId
    · obtain ⟨-, locked, hlocked, hnext⟩ := hwriters.locked i w version hw
      obtain rfl : row = locked := Option.some.inj (hrow.symm.trans (hid ▸ hlocked))
      rw [if_pos hid, hrow]
      refine ⟨saved w version row, rfl, hle.trans ?_⟩
      rw [saved, hnext]
      exact Nat.le_succ _
    · rw [if_neg hid]
      exact ⟨row, hrow, hle⟩
  refine ⟨?_, fun id v ms hget => (h.cached id v ms hget).concat _,
    fun a ha => (h.answered a ha).concat _, h.bounded⟩
  intro k l hl
  have hsound := h.lookups k l hl
  cases l with
  | keyed id v => exact hgrows id v hsound
  | missed id v => exact hgrows id v hsound
  | loaded id v ms => exact FromVersion.concat hsound _

theorem size_fill (cache : Cache) (key : String × Nat) (members : List Member) :
    (fill cache key members).size ≤ maxCachedLists :=
  OrderedDict.size_evictOver (le_refl _)

theorem get_of_fill {cache : Cache} {key key' : String × Nat} {ms : List Member}
    (h : (fill cache key members).get key' = some ms) :
    (key' = key ∧ ms = members) ∨ cache.get key' = some ms := by
  have hget := OrderedDict.get_of_evictOver h
  rw [OrderedDict.get_setLast] at hget
  split at hget
  next hkey => exact .inl ⟨hkey, (Option.some.inj hget).symm⟩
  · exact .inr hget

theorem ReadersInv.effect (h : ReadersInv E.unicode lists s) (hwriters : WritersInv lists s)
    (he : Effect E s t) : ReadersInv E.unicode lists t := by
  cases he with
  | idle => exact h
  | begun _ => exact ⟨h.lookups, h.cached, h.answered, h.bounded⟩
  | locked _ _ _ => exact ⟨h.lookups, h.cached, h.answered, h.bounded⟩
  | released _ => exact ⟨h.lookups, h.cached, h.answered, h.bounded⟩
  | dropped _ => exact ⟨h.lookups, h.cached, h.answered, h.bounded⟩
  | committed hw => exact h.commit hwriters hw
  | keyed hrow =>
    refine h.setLookup fun l hl => ?_
    obtain rfl := Option.some.inj hl
    exact ⟨_, hrow, le_refl _⟩
  | hit hl hget =>
    refine h.answer (h.cached _ _ _ hget) ?_ ?_
    · intro id v ms hms
      rw [OrderedDict.get_moveToEnd] at hms
      exact h.cached id v ms hms
    · rw [OrderedDict.size_moveToEnd]
      exact h.bounded
  | missed hl =>
    have hsound := h.lookups _ _ hl
    refine h.setLookup fun l hl' => ?_
    obtain rfl := Option.some.inj hl'
    exact hsound
  | loaded hl hrow =>
    obtain ⟨row', hrow', hle⟩ := h.lookups _ _ hl
    obtain rfl := Option.some.inj (hrow.symm.trans hrow')
    refine h.setLookup fun l hl' => ?_
    obtain rfl := Option.some.inj hl'
    exact fromVersion_of_row hwriters hrow hle
  | filled hl =>
    have hmembers := h.lookups _ _ hl
    refine h.answer hmembers ?_ (size_fill _ _ _)
    intro id v ms hms
    rcases get_of_fill hms with ⟨hkey, rfl⟩ | hold
    · obtain ⟨rfl, rfl⟩ := Prod.mk.inj hkey
      exact hmembers
    · exact h.cached id v ms hold
  | cleared => exact ⟨h.lookups, nofun, h.answered, Nat.zero_le _⟩

end Readers

/-! ## What lookups return -/

/-- The lists as they were when the process started, and what saves and lookups have made of
them. -/
structure MembersFresh (u : Unicode) (lists : Table ItemList.id) (t : State) : Prop where
  /-- A lookup returned the set of the version it had read, or of a later one. -/
  answered : ∀ a ∈ t.answers, FromVersion u lists t.commits a.listId a.version a.members
  /-- A list has the items of the last save that took effect, and one version more for each. -/
  stored : ∀ id start, lists.get id = some start →
    ∃ row, t.lists.get id = some row ∧ RowOf start t.commits row
  bounded : t.cache.size ≤ maxCachedLists

/-- **No lookup returns the members of an older version than it read**, in any order of saves and
lookups. -/
theorem members_fresh {E : Env} {lists : Table ItemList.id} {as : List Action} {t : State}
    (h : Machine.Run (step E) Machine.Always (State.start lists) as t) :
    MembersFresh E.unicode lists t := by
  have hinv : WritersInv lists t ∧ ReadersInv E.unicode lists t := by
    refine h.invariant (I := fun s => WritersInv lists s ∧ ReadersInv E.unicode lists s) ?_
      ⟨writersInv_start lists, readersInv_start lists⟩
    rintro s a t ⟨hwriters, hreaders⟩ hs -
    have heffect := effect_of_step hs
    exact ⟨hwriters.effect heffect, hreaders.effect hwriters heffect⟩
  exact ⟨hinv.2.answered, hinv.1.stored, hinv.2.bounded⟩

namespace Sample

def env : Env := ⟨.ascii, id, 50000⟩

def watch : ItemList := ⟨"w", "Watch", "watch", 1, none, none, ["a"]⟩

def lists : Table ItemList.id := ⟨[watch], by decide⟩

/-- Two saves overlap, and a lookup reads the version before them and the items between them. -/
def actions : List Action :=
  [.readVersion 0 "w", .askCache 0, .beginSave 0 "w" ⟨"Watch", none, ["b"]⟩, .lockRow 0,
    .beginSave 1 "w" ⟨"Watch", none, ["c"]⟩, .commit 0, .loadItems 0, .fillCache 0, .lockRow 1,
    .commit 1, .readVersion 1 "w", .askCache 1, .loadItems 1, .fillCache 1]

end Sample

/-- The set of version 2 is returned for version 1, the set of version 3 for version 3. -/
theorem overlapping_saves_fresh :
    ∃ t, Machine.Run (step Sample.env) Machine.Always (State.start Sample.lists) Sample.actions t ∧
      t.answers.map (fun a => (a.version, a.members)) = [(1, [.key "b"]), (3, [.key "c"])] ∧
      MembersFresh .ascii Sample.lists t := by
  have hrun := fun t =>
    @Machine.run_of_exec _ _ (step Sample.env) (State.start Sample.lists) t Sample.actions
  exact ⟨_, hrun _ rfl, rfl, members_fresh (E := Sample.env) (hrun _ rfl)⟩

end MemberCache

end FraudAnalyzer.Lists
