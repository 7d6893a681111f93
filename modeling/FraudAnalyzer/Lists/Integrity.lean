import FraudAnalyzer.Lists.Machine

/-!
# Stored lists stay well formed

No stored rule reads a list that is gone, and every stored list has a trimmed name that no other
list has, up to case, and clean items. The first is held by the foreign key, which both commits
meet. The second needs that no two saves of one list overlap in a change of its name: a save writes
only the columns it changes, and the name and its key are two columns. Whoever may not change a list
leaves it as it is.
-/

namespace FraudAnalyzer.Lists

open Python FlagRules
open Charts (FlagRuleSpec commitRules buildRules flushed)

/-! ## The property -/

/-- Each list that a rule reads is stored. -/
def References (lists : Table ItemList.id) (db : Db) : Prop :=
  ∀ r ∈ db.flagRules.rows, ∀ listId, reads listId r = true → (lists.get listId).isSome

/-- What holds of a list, but for its name key. -/
structure Valid (E : Env) (name : String) (description : Option String) (items : List String) :
    Prop where
  nonempty : name ≠ ""
  trimmed : strip E.unicode name = name
  described : ∀ text, description = some text → text ≠ "" ∧ strip E.unicode text = text
  clean : IsClean E.unicode items
  bounded : (items.length : Int) ≤ E.maxListItems

structure WellFormed (E : Env) (lists : Table ItemList.id) : Prop where
  valid : ∀ l ∈ lists.rows, Valid E l.name l.description l.items
  keyed : ∀ l ∈ lists.rows, l.nameKey = E.nameKey l.name
  distinct : (lists.rows.map ItemList.nameKey).Nodup

structure Sound (E : Env) (s : State) : Prop where
  lists : WellFormed E s.lists
  references : References s.lists s.db

/-- A save commits to a list that was renamed since it was loaded. -/
def overlaps (s : State) : Action → Bool
  | .advance i _ =>
    match s.operations i with
    | some (.saving loaded _) => (s.lists.get loaded.id).any fun stored =>
        stored.name ≠ loaded.name || stored.nameKey ≠ loaded.nameKey
    | _ => false
  | _ => false

/-- No two saves of one list overlap in a change of its name. -/
def NotOverlapped (s : State) (a : Action) : Prop := overlaps s a = false

instance (s : State) (a : Action) : Decidable (NotOverlapped s a) :=
  inferInstanceAs (Decidable (_ = _))

theorem names_of_notOverlapped {s : State} {i : Nat} {ids : Ids} {loaded stored : ItemList}
    {save : Save} (h : NotOverlapped s (.advance i ids))
    (hop : s.operations i = some (.saving loaded save))
    (hstored : s.lists.get loaded.id = some stored) :
    stored.name = loaded.name ∧ stored.nameKey = loaded.nameKey := by
  simpa [NotOverlapped, overlaps, hop, hstored] using h

/-! ## Checked saves -/

structure CheckedSave (E : Env) (save : Save) : Prop where
  valid : Valid E save.name save.description save.values
  keyed : save.nameKey = E.nameKey save.name

theorem cleanDescription_eq_some {u : Unicode} {description : Option String} {text : String}
    (h : cleanDescription u description = some text) : text ≠ "" ∧ strip u text = text := by
  unfold cleanDescription at h
  simp only at h
  split at h
  · cases h
  next hne =>
    obtain rfl := Option.some.inj h
    exact ⟨hne, strip_strip u _⟩

theorem checkedSave_of_checkSave {E : Env} {lists : Table ItemList.id} {payload : ItemListWrite}
    {exceptId : Option String} {save : Save} (h : checkSave E lists payload exceptId = .ok save) :
    CheckedSave E save := by
  unfold checkSave at h
  simp only at h
  split at h
  · cases h
  next hname =>
    split at h
    · cases h
    next values received hclean =>
      split at h
      · cases h
      obtain rfl := Except.ok.inj h
      unfold cleanItems at hclean
      split at hclean
      · cases hclean
      next hlimit =>
        cases Except.ok.inj hclean
        have hle : (keepItems E.unicode payload.items ∅).length ≤ payload.items.length :=
          length_keepItems payload.items
        have hbounded : ((keepItems E.unicode payload.items ∅).length : Int) ≤ E.maxListItems := by
          omega
        exact ⟨⟨hname, strip_strip _ _, fun text => cleanDescription_eq_some,
          isClean_keepItems _, hbounded⟩, rfl⟩

/-! ## The commits -/

section Commits

variable {E : Env} {lists lists' : Table ItemList.id} {db db' : Db}

theorem isNameTaken_eq_false {nameKey : String} {exceptId : Option String}
    (h : isNameTaken lists nameKey exceptId = false) {r : ItemList} (hr : r ∈ lists.rows)
    (hid : some r.id ≠ exceptId) : r.nameKey ≠ nameKey := by
  intro hkey
  have hnot := List.any_eq_false.mp h r hr
  simp [hkey, hid] at hnot

/-- `create_list` leaves the lists and adds one under a name that was free. -/
theorem commitCreate_eq_some {id : String} {save : Save} {user : User}
    (h : commitCreate lists id save user = some lists') :
    isNameTaken lists save.nameKey none = false ∧
      lists'.rows = lists.rows ++ [newList id save user] ∧
      ∀ listId, (lists.get listId).isSome → lists'.get listId = lists.get listId := by
  unfold commitCreate at h
  split at h
  · cases h
  next hfree =>
    refine ⟨by simpa using hfree, Table.rows_insert h, ?_⟩
    intro listId hstored
    rw [Table.get_insert h]
    split
    next heq =>
      have hnone := Table.get_of_insert h
      rw [← heq] at hnone
      rw [hnone] at hstored
      cases hstored
    · rfl

/-- `update_list` flushes the row it loaded, under a key that no other list has. -/
theorem commitUpdate_eq_saved {loaded : ItemList} {save : Save}
    (h : commitUpdate lists loaded save = .saved lists') : ∃ stored,
      lists.get loaded.id = some stored ∧
      isNameTaken lists (flushList loaded save stored).nameKey (some loaded.id) = false ∧
      lists' = lists.modify loaded.id (flushList loaded save) (flushList_id loaded save) := by
  unfold commitUpdate at h
  split at h
  · cases h
  next stored hstored =>
    split at h
    · cases h
    next hfree => exact ⟨stored, hstored, by simpa using hfree, (Flush.saved.inj h).symm⟩

theorem commitDelete_eq_some {listId : String} (h : commitDelete lists db listId = some lists') :
    isUsed db listId = false ∧ lists' = lists.deleteWhere fun r => r.id = listId := by
  unfold commitDelete at h
  split at h
  · cases h
  next hused => exact ⟨by simpa using hused, (Option.some.inj h).symm⟩

/-- The row that a save leaves. -/
theorem flushList_of_same {loaded stored : ItemList} {save : Save}
    (hname : stored.name = loaded.name) (hkey : stored.nameKey = loaded.nameKey) :
    (flushList loaded save stored).name = save.name ∧
      (flushList loaded save stored).nameKey = save.nameKey := by
  constructor
  · simp only [flushList, flushed]
    split
    next heq => rw [hname, heq]
    · rfl
  · simp only [flushList, flushed]
    split
    next heq => rw [hkey, heq]
    · rfl

theorem WellFormed.create (h : WellFormed E lists) {id : String} {save : Save} {user : User}
    (hsave : CheckedSave E save) (hcreate : commitCreate lists id save user = some lists') :
    WellFormed E lists' := by
  obtain ⟨hfree, hrows, -⟩ := commitCreate_eq_some hcreate
  refine ⟨?_, ?_, ?_⟩
  · rw [hrows, List.forall_mem_append, List.forall_mem_singleton]
    exact ⟨h.valid, hsave.valid⟩
  · rw [hrows, List.forall_mem_append, List.forall_mem_singleton]
    exact ⟨h.keyed, hsave.keyed⟩
  · rw [hrows, List.map_append, List.map_singleton, ← List.concat_eq_append]
    refine h.distinct.concat fun hmem => ?_
    obtain ⟨r, hr, hkey⟩ := List.mem_map.mp hmem
    exact isNameTaken_eq_false hfree hr (fun hnone => by cases hnone) hkey

theorem WellFormed.update (h : WellFormed E lists) {loaded stored : ItemList} {save : Save}
    (hsave : CheckedSave E save) (hstored : lists.get loaded.id = some stored)
    (hfree : isNameTaken lists (flushList loaded save stored).nameKey (some loaded.id) = false)
    (hname : stored.name = loaded.name) (hkey : stored.nameKey = loaded.nameKey) :
    WellFormed E (lists.modify loaded.id (flushList loaded save) (flushList_id loaded save)) := by
  obtain ⟨hmem, hid⟩ := Table.get_iff_mem.mp hstored
  have hflushed : (flushList loaded save stored).name = save.name ∧
      (flushList loaded save stored).nameKey = save.nameKey := flushList_of_same hname hkey
  have hrow : ∀ r ∈ lists.rows, r.id = loaded.id → r = stored := by
    intro r hr hrid
    have hget := Table.get_of_mem hr
    rw [hrid, hstored] at hget
    exact (Option.some.inj hget).symm
  refine ⟨?_, ?_, ?_⟩
  · simp only [Table.modify, List.forall_mem_map]
    intro r hr
    split
    next hrid =>
      obtain rfl := hrow r hr hrid
      have hvalid := h.valid r hr
      refine ⟨?_, ?_, ?_, hsave.valid.clean, hsave.valid.bounded⟩
      · rw [hflushed.1]
        exact hsave.valid.nonempty
      · rw [hflushed.1]
        exact hsave.valid.trimmed
      · simp only [flushList, flushed]
        split
        · exact hvalid.described
        · exact hsave.valid.described
    · exact h.valid r hr
  · simp only [Table.modify, List.forall_mem_map]
    intro r hr
    split
    next hrid =>
      obtain rfl := hrow r hr hrid
      rw [hflushed.1, hflushed.2]
      exact hsave.keyed
    · exact h.keyed r hr
  · have hcolumn : ∀ t : Table ItemList.id,
        t.rows.map ItemList.nameKey = t.rows.filterMap fun r => some r.nameKey :=
      fun t => (congrFun List.filterMap_eq_map t.rows).symm
    have hdistinct := h.distinct
    rw [hcolumn] at hdistinct ⊢
    refine Table.nodup_filterMap_modify _ hdistinct fun r hr hrid v hv r' hr' hne hv' => ?_
    obtain rfl := hrow r hr hrid
    rw [← Option.some.inj hv] at hv'
    exact isNameTaken_eq_false hfree hr' (fun heq => hne (Option.some.inj heq))
      (Option.some.inj hv')

theorem WellFormed.delete (h : WellFormed E lists) (p : ItemList → Bool) :
    WellFormed E (lists.deleteWhere p) where
  valid l hl := h.valid l (List.mem_of_mem_filter hl)
  keyed l hl := h.keyed l (List.mem_of_mem_filter hl)
  distinct := h.distinct.sublist (List.filter_sublist.map _)

end Commits

/-! ## References -/

section References

variable {lists lists' : Table ItemList.id} {db db' : Db}

/-- Lists are added or changed, and rules are taken away. -/
theorem References.mono (h : References lists db)
    (hlists : ∀ listId, (lists.get listId).isSome → (lists'.get listId).isSome)
    (hrules : ∀ r ∈ db'.flagRules.rows, r ∈ db.flagRules.rows) : References lists' db' :=
  fun r hr listId hreads => hlists listId (h r (hrules r hr) listId hreads)

/-- A list is deleted that no rule reads. -/
theorem References.delete (h : References lists db) {listId : String}
    (hused : isUsed db listId = false) :
    References (lists.deleteWhere fun r => r.id = listId) db := by
  intro r hr other hreads
  obtain ⟨l, hl⟩ := Option.isSome_iff_exists.mp (h r hr other hreads)
  have hne : other ≠ listId := by
    rintro rfl
    exact List.any_eq_false.mp hused r hr hreads
  rw [Table.get_deleteWhere, hl, Option.filter_some, if_pos]
  · rfl
  · rw [Table.key_of_get hl]
    simpa using hne

theorem isSome_of_listsStored {specs : List FlagRuleSpec} {queryId : String} {ids : List String}
    (h : listsStored (itemsOf lists) specs = true) {r : FlagRule}
    (hr : r ∈ buildRules queryId ids specs) {listId : String} (hreads : reads listId r = true) :
    (lists.get listId).isSome := by
  obtain ⟨s, hs, rfl⟩ := List.mem_map.mp hr
  have hspec : s.2.1 ∈ specs := by
    have hmem : s.2 ∈ specs.zipIdx := (List.of_mem_zip hs).2
    exact List.fst_mem_of_mem_zipIdx hmem
  obtain ⟨c, hc, hlist⟩ := List.any_eq_true.mp hreads
  obtain ⟨d, hd, rfl⟩ := List.mem_map.mp hc
  have hcondition : d.1 ∈ s.2.1.conditions := List.fst_mem_of_mem_zipIdx hd
  have hstored := List.all_eq_true.mp (List.all_eq_true.mp h _ hspec) _ hcondition
  have hid : d.1.listId = some listId := of_decide_eq_true hlist
  rw [hid] at hstored
  simpa [itemsOf] using hstored

/-- Rules are stored whose lists are. -/
theorem References.replace (h : References lists db) {queryId : String} {loaded : List FlagRule}
    {specs : List FlagRuleSpec} {ids : List String}
    (hlists : listsStored (itemsOf lists) specs = true)
    (hcommit : commitRules db queryId loaded specs ids = some db') : References lists db' := by
  obtain ⟨rules, rfl, hrows⟩ := Charts.commitRules_spec hcommit
  intro r hr listId hreads
  simp only [hrows, List.mem_append] at hr
  rcases hr with hold | hnew
  · exact h r (List.mem_of_mem_filter hold) listId hreads
  · exact isSome_of_listsStored hlists hnew hreads

end References

/-! ## Runs -/

/-- The saves that are under way were checked. -/
structure SavesChecked (E : Env) (s : State) : Prop where
  creating : ∀ i user save, s.operations i = some (.creating user save) → CheckedSave E save
  saving : ∀ i loaded save, s.operations i = some (.saving loaded save) → CheckedSave E save

section Steps

variable {E : Env} {s t : State} {a : Action}

theorem SavesChecked.congr (h : SavesChecked E s)
    (hops : ∀ i stage, t.operations i = some stage → s.operations i = some stage) :
    SavesChecked E t where
  creating i user save hop := h.creating i user save (hops i _ hop)
  saving i loaded save hop := h.saving i loaded save (hops i _ hop)

theorem SavesChecked.put (h : SavesChecked E s) {i : Nat} {stage : Stage}
    (hops : t.operations = Function.update s.operations i (some stage))
    (hcreating : ∀ user save, stage = .creating user save → CheckedSave E save)
    (hsaving : ∀ loaded save, stage = .saving loaded save → CheckedSave E save) :
    SavesChecked E t := by
  constructor
  · intro j user save hop
    rw [hops, Function.update_apply] at hop
    split at hop
    · exact hcreating user save (Option.some.inj hop)
    · exact h.creating j user save hop
  · intro j loaded save hop
    rw [hops, Function.update_apply] at hop
    split at hop
    · exact hsaving loaded save (Option.some.inj hop)
    · exact h.saving j loaded save hop

theorem of_operations_drop {i j : Nat} {stage : Stage}
    (h : (s.drop i).operations j = some stage) : s.operations j = some stage := by
  simp only [State.drop, Function.update_apply] at h
  split at h
  · cases h
  · exact h

theorem SavesChecked.effect (h : SavesChecked E s) (heff : Effect E s a t) : SavesChecked E t := by
  cases heff with
  | idle => exact h
  | @moved _ i stage hmoved =>
    generalize s.operations i = old at hmoved
    cases hmoved with
    | creating hcheck =>
      refine h.put rfl (fun user save heq => ?_) (fun _ _ heq => by cases heq)
      cases heq
      exact checkedSave_of_checkSave hcheck
    | saving hcheck =>
      refine h.put rfl (fun _ _ heq => by cases heq) (fun loaded save heq => ?_)
      cases heq
      exact checkedSave_of_checkSave hcheck
    | _ => exact h.put rfl (fun _ _ heq => by cases heq) (fun _ _ heq => by cases heq)
  | ended _ _ => exact h.congr fun _ _ => of_operations_drop
  | created _ _ => exact h.congr fun _ _ => of_operations_drop
  | deleted _ _ => exact h.congr fun _ _ => of_operations_drop
  | dropped _ => exact h.congr fun _ _ => of_operations_drop
  | stored _ _ => exact h.congr fun _ _ => of_operations_drop
  | removed => exact h.congr fun _ _ hop => hop
  | evicted => exact h.congr fun _ _ hop => hop
  | saved _ _ => exact h.put rfl (fun _ _ heq => by cases heq) (fun _ _ heq => by cases heq)
  | collected _ => exact h.put rfl (fun _ _ heq => by cases heq) (fun _ _ heq => by cases heq)
  | invalidated _ => exact h.put rfl (fun _ _ heq => by cases heq) (fun _ _ heq => by cases heq)
  | replaced _ _ _ _ => exact h.put rfl (fun _ _ heq => by cases heq) (fun _ _ heq => by cases heq)

/-- The step lemma of the references. -/
theorem references_effect (h : References s.lists s.db) (heff : Effect E s a t) :
    References t.lists t.db := by
  cases heff with
  | created _ hcreate =>
    obtain ⟨-, -, hget⟩ := commitCreate_eq_some hcreate
    exact h.mono (fun listId hstored => hget listId hstored ▸ hstored) fun _ hr => hr
  | saved _ hsave =>
    obtain ⟨stored, -, -, rfl⟩ := commitUpdate_eq_saved hsave
    refine h.mono (fun listId hstored => ?_) fun _ hr => hr
    rw [Table.get_modify]
    split
    · rwa [Option.isSome_map]
    · exact hstored
  | deleted _ hdelete =>
    obtain ⟨hused, rfl⟩ := commitDelete_eq_some hdelete
    exact h.delete hused
  | replaced _ _ hlists hcommit => exact h.replace hlists hcommit
  | removed => exact h.mono (fun _ hstored => hstored) fun _ hr => List.mem_of_mem_filter hr
  | _ => exact h

/-- The step lemma. -/
theorem WellFormed.effect (h : WellFormed E s.lists) (hsaves : SavesChecked E s)
    (hok : NotOverlapped s a) (heff : Effect E s a t) : WellFormed E t.lists := by
  cases heff with
  | created hop hcreate => exact h.create (hsaves.creating _ _ _ hop) hcreate
  | saved hop hsave =>
    obtain ⟨stored, hstored, hfree, rfl⟩ := commitUpdate_eq_saved hsave
    obtain ⟨hname, hkey⟩ := names_of_notOverlapped hok hop hstored
    exact h.update (hsaves.saving _ _ _ hop) hstored hfree hname hkey
  | deleted _ hdelete =>
    obtain ⟨-, rfl⟩ := commitDelete_eq_some hdelete
    exact h.delete _
  | _ => exact h

end Steps

namespace Sample

def env : Env := ⟨.ascii, fun s => s, 50000⟩

def creator : User := ⟨"ann", false⟩

def cards : ItemList := ⟨"l", "Cards", "cards", 1, none, some "ann", ["4111"]⟩

def stored : Table ItemList.id := ⟨[cards], by decide⟩

def payments : SavedQuery := ⟨"q", "c", "Payments", none, "SELECT 1", none, 100, none, some "ann"⟩

def database : Db := ⟨⟨[payments], by decide⟩, .empty, .empty, []⟩

/-- One rule, that reads the list. -/
def watching : List FlagRuleSpec :=
  [⟨"Watched", .high, true, [⟨"card", .inList, none, none, some "l"⟩]⟩]

theorem references : References stored database := fun r hr => by cases hr

end Sample

/-- A save that changes the case of the name, and one that renames the list while it is under way:
the name is of the first, its key of the second, and another list can take the name. -/
example : (Machine.exec (step Sample.env) (State.start Sample.stored Sample.database)
    [.beginUpdate 0 Sample.creator "l" ⟨"CARDS", none, []⟩,
      .beginUpdate 1 Sample.creator "l" ⟨"Loans", none, []⟩,
      .advance 0 [], .advance 1 [], .advance 1 [], .advance 0 [],
      .beginCreate 2 Sample.creator ⟨"Cards", none, []⟩, .advance 2 ["m"]]).map
        (fun s => s.lists.rows.map fun l => (l.name, l.nameKey)) =
      some [("CARDS", "loans"), ("Cards", "cards")] := by decide +kernel

/-! ## Who changes a list -/

/-- The creator of the list or an administrator asks to change or delete it. -/
def asksChange (list : ItemList) : Action → Bool
  | .beginUpdate _ user listId _ => listId = list.id && canChange list user
  | .beginDelete _ user listId => listId = list.id && canChange list user
  | _ => false

/-- Whoever asks to change or delete the list may not. -/
def ByOthers (list : ItemList) (_ : State) (a : Action) : Prop := asksChange list a = false

instance (list : ItemList) (s : State) (a : Action) : Decidable (ByOthers list s a) :=
  inferInstanceAs (Decidable (_ = _))

/-- The list that a request has loaded to change it. -/
def Stage.target : Stage → Option String
  | .updating loaded _ | .saving loaded _ | .deleting loaded | .removing loaded => some loaded.id
  | _ => none

/-- The list is as it was, and nobody is about to change it. -/
structure Untouched (list : ItemList) (s : State) : Prop where
  row : s.lists.get list.id = some list
  free : ∀ i stage, s.operations i = some stage → stage.target ≠ some list.id

section Others

variable {E : Env} {s t : State} {a : Action} {list : ItemList}

theorem getChangeable_eq_ok {u : Unicode} {lists : Table ItemList.id} {listId : String}
    {user : User} {loaded : ItemList} (h : getChangeable u lists listId user = .ok loaded) :
    lists.get listId = some loaded ∧ canChange loaded user = true := by
  obtain ⟨found, hfound, hrest⟩ := bind_eq_ok.mp h
  unfold getList at hfound
  split at hfound
  next l hget =>
    obtain rfl := Except.ok.inj hfound
    split at hrest
    next hchange =>
      obtain rfl := Except.ok.inj hrest
      exact ⟨hget, hchange⟩
    · cases hrest
  · cases hfound

/-- Whoever is let through to change the list is its creator or an administrator. -/
theorem Untouched.not_loaded (h : Untouched list s) {listId : String} {user : User}
    {loaded : ItemList} (hload : getChangeable E.unicode s.lists listId user = .ok loaded)
    (hok : (decide (listId = list.id) && canChange list user) = false) :
    some loaded.id ≠ some list.id := by
  obtain ⟨hget, hchange⟩ := getChangeable_eq_ok hload
  rintro hid
  obtain rfl : listId = list.id := (Table.key_of_get hget).symm.trans (Option.some.inj hid)
  rw [h.row] at hget
  obtain rfl := Option.some.inj hget
  simp [hchange] at hok

/-- A request begins or goes on. -/
theorem free_update (h : ∀ i stage, s.operations i = some stage → stage.target ≠ some list.id)
    {i : Nat} {new : Option Stage} (hops : t.operations = Function.update s.operations i new)
    (hnew : ∀ stage, new = some stage → stage.target ≠ some list.id) :
    ∀ i stage, t.operations i = some stage → stage.target ≠ some list.id := by
  intro j stage hj
  rw [hops, Function.update_apply] at hj
  split at hj
  · exact hnew stage hj
  · exact h j stage hj

/-- The step lemma. -/
theorem Untouched.effect (h : Untouched list s) (hok : ByOthers list s a)
    (heff : Effect E s a t) : Untouched list t := by
  cases heff with
  | idle => exact h
  | @moved _ i stage hmoved =>
    refine ⟨h.row, free_update h.free rfl fun stage' hstage => ?_⟩
    obtain rfl := Option.some.inj hstage
    have hfree := h.free i
    generalize s.operations i = old at hmoved hfree
    cases hmoved with
    | updating hload => exact h.not_loaded hload hok
    | deleting hload => exact h.not_loaded hload hok
    | saving _ => exact hfree (.updating _ _) rfl
    | removing => exact hfree (.deleting _) rfl
    | _ => exact fun htarget => by cases htarget
  | ended _ _ => exact ⟨h.row, free_update h.free rfl fun _ hnew => by cases hnew⟩
  | created _ hcreate =>
    obtain ⟨-, -, hget⟩ := commitCreate_eq_some hcreate
    refine ⟨?_, free_update h.free rfl fun _ hnew => by cases hnew⟩
    exact (hget list.id (Option.isSome_iff_exists.mpr ⟨_, h.row⟩)).trans h.row
  | @saved i ids loaded save lists hop hsave =>
    obtain ⟨stored, -, -, rfl⟩ := commitUpdate_eq_saved hsave
    refine ⟨?_, free_update h.free rfl fun stage hnew => ?_⟩
    · have hne : list.id ≠ loaded.id := fun heq => h.free _ _ hop (congrArg some heq.symm)
      have hget := s.lists.get_modify loaded.id list.id _ (flushList_id loaded save)
      exact hget.trans ((if_neg hne).trans h.row)
    · obtain rfl := Option.some.inj hnew
      exact fun htarget => by cases htarget
  | collected _ =>
    refine ⟨h.row, free_update h.free rfl fun stage hnew => ?_⟩
    obtain rfl := Option.some.inj hnew
    exact fun htarget => by cases htarget
  | invalidated _ =>
    refine ⟨h.row, free_update h.free rfl fun stage hnew => ?_⟩
    obtain rfl := Option.some.inj hnew
    exact fun htarget => by cases htarget
  | @deleted _ i loaded lists hop hdelete =>
    obtain ⟨-, rfl⟩ := commitDelete_eq_some hdelete
    refine ⟨?_, free_update h.free rfl fun _ hnew => by cases hnew⟩
    have hne : list.id ≠ loaded.id := fun heq => h.free _ _ hop (congrArg some heq.symm)
    simp only [Table.get_deleteWhere, h.row, Option.filter_some]
    exact if_pos (by simpa using hne)
  | replaced _ _ _ _ =>
    refine ⟨h.row, free_update h.free rfl fun stage hnew => ?_⟩
    obtain rfl := Option.some.inj hnew
    exact fun htarget => by cases htarget
  | dropped _ => exact ⟨h.row, free_update h.free rfl fun _ hnew => by cases hnew⟩
  | stored _ _ => exact ⟨h.row, free_update h.free rfl fun _ hnew => by cases hnew⟩
  | removed => exact ⟨h.row, h.free⟩
  | evicted => exact ⟨h.row, h.free⟩

end Others

/-- **A list is its creator's.** Whatever requests of other people interleave, administrators apart,
a stored list stays as it is. -/
theorem list_kept_of_others {E : Env} {lists : Table ItemList.id} {db : Db} {list : ItemList}
    {s : State} {as : List Action} (hlist : lists.get list.id = some list)
    (h : Machine.Run (step E) (ByOthers list) (State.start lists db) as s) :
    s.lists.get list.id = some list := by
  have huntouched : Untouched list s :=
    h.invariant (fun _ _ _ hI hstep hok => hI.effect hok (effect_of_step hstep))
      ⟨hlist, fun _ _ hop => by cases hop⟩
  exact huntouched.row

/-- Somebody else, and an administrator's new list. -/
theorem list_kept_of_bob : ∃ s : State, s.lists.get "l" = some Sample.cards ∧
    (s.lists.get "m").isSome = true := by
  have hrun : ∃ s, Machine.Run (step Sample.env) (ByOthers Sample.cards)
      (State.start Sample.stored Sample.database)
      [.beginUpdate 0 ⟨"bob", false⟩ "l" ⟨"Loans", none, []⟩,
        .beginCreate 1 ⟨"eve", true⟩ ⟨"Loans", none, []⟩, .beginDelete 2 ⟨"bob", false⟩ "l",
        .advance 1 ["m"]] s ∧
      (s.lists.get "m").isSome = true :=
    ⟨_, Machine.run_of_exec_checked rfl, rfl⟩
  obtain ⟨s, hrun, hnew⟩ := hrun
  have hkept : s.lists.get Sample.cards.id = some Sample.cards := list_kept_of_others rfl hrun
  exact ⟨s, hkept, hnew⟩

end FraudAnalyzer.Lists
