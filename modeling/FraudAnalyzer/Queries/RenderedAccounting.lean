import FraudAnalyzer.Lib.Run
import FraudAnalyzer.Queries.RenderedCache
import FraudAnalyzer.Queries.ResultCache
import FraudAnalyzer.Queries.Serving

/-!
# What the rendered cache counts

Any sequence of calls of the rendered cache, over keys of queries whose ids have no bar in them. The
total is the bytes of what is held and within the budget, and the prefix by which a query is
invalidated is that of its keys alone (`keepsBytes_of_run`).
-/

namespace FraudAnalyzer.Queries.RenderedAccounting

open Machine

variable {β : Type}

/-- A call; its key is `key_for` of the query and the answer. -/
inductive RenderedCall (β : Type) where
  | get (queryId : String) (answer : PollChanged)
  | store (queryId : String) (answer : PollChanged) (rendered : Rendered β)
  /-- `get_or_render`, with the body that `build` returns. -/
  | getOrRender (queryId : String) (answer built : PollChanged)
  | invalidateQuery (queryId : String)
  | clear

structure RenderedEnv (β : Type) where
  codec : Codec β
  time : TimeText
  /-- `rendered_cache_max_bytes` -/
  maxBytes : Int
  maxBytes_pos : 0 < maxBytes

/-- `len(rendered.body)` -/
def RenderedEnv.bytes (E : RenderedEnv β) (rendered : Rendered β) : Nat :=
  E.codec.length rendered.body

def step (E : RenderedEnv β) (c : RenderedCache β) : RenderedCall β → Option (RenderedCache β)
  | .get queryId answer => some (c.find (keyFor E.time queryId answer)).2
  | .store queryId answer rendered =>
    some (c.store E.codec E.maxBytes maxEntries (keyFor E.time queryId answer) rendered)
  | .getOrRender queryId answer built =>
    let key := keyFor E.time queryId answer
    match c.find key with
    | (some _, c) => some c
    | (none, c) => some (c.store E.codec E.maxBytes maxEntries key (Rendered.render E.codec built))
  | .invalidateQuery queryId => some (c.invalidateQuery E.codec queryId)
  | .clear => some .empty

/-- The id of the query has no bar. -/
def Plain (_ : RenderedCache β) : RenderedCall β → Prop
  | .get queryId _ | .store queryId _ _ | .getOrRender queryId _ _ | .invalidateQuery queryId =>
    '|' ∉ queryId.toList
  | .clear => True

structure Sound (E : RenderedEnv β) (c : RenderedCache β) : Prop where
  total : c.Accounted E.bytes
  bounded : c.totalBytes ≤ E.maxBytes
  count : c.entries.size ≤ maxEntries
  keys : ∀ e ∈ c.entries.entries, ∃ queryId answer,
    '|' ∉ queryId.toList ∧ e.1 = keyFor E.time queryId answer

/-- What is held is counted, and what the next call does. -/
structure KeepsBytes (E : RenderedEnv β) (c : RenderedCache β) : Prop where
  sound : Sound E c
  store : ∀ queryId answer rendered, (E.bytes rendered : Int) ≤ E.maxBytes →
    (c.store E.codec E.maxBytes maxEntries (keyFor E.time queryId answer) rendered).get
      (keyFor E.time queryId answer) = some rendered
  invalidate : ∀ queryId, '|' ∉ queryId.toList → ∀ id answer, '|' ∉ id.toList →
    (c.invalidateQuery E.codec queryId).get (keyFor E.time id answer) =
      if id = queryId then none else c.get (keyFor E.time id answer)

/-! ## The prefix of a query -/

/-- A key starts with the prefix of its own query only. -/
theorem startsWith_keyFor_iff (time : TimeText) {id queryId : String} (answer : PollChanged)
    (hid : '|' ∉ id.toList) (hquery : '|' ∉ queryId.toList) :
    Python.startsWith (keyFor time id answer) (queryId ++ "|") = true ↔ id = queryId := by
  constructor
  · intro h
    unfold Python.startsWith at h
    rw [List.isPrefixOf_iff_prefix] at h
    obtain ⟨rest, hrest⟩ := h
    have hbar : "|".toList = ['|'] := rfl
    simp only [keyFor, String.toList_append, hbar, List.append_assoc, List.cons_append,
      List.nil_append] at hrest
    exact String.toList_inj.mp (Python.split_at_first hquery hid hrest).1.symm
  · rintro rfl
    exact startsWith_keyFor time id answer

section Sound

variable {E : RenderedEnv β} {c c' : RenderedCache β} {key : String} {rendered : Rendered β}

theorem get_invalidateQuery (codec : Codec β) (c : RenderedCache β) (queryId key : String) :
    (c.invalidateQuery codec queryId).get key =
      if Python.startsWith key (queryId ++ "|") then none else c.get key := by
  unfold RenderedCache.invalidateQuery
  rw [RenderedCache.get_foldl_drop]
  cases hget : c.get key with
  | none => simp
  | some rendered =>
    have hmem : key ∈ c.entries.entries.map Prod.fst :=
      List.mem_map.mpr ⟨(key, rendered), OrderedDict.get_iff_mem.mp hget, rfl⟩
    simp [List.mem_filter, hmem]

/-- **`invalidate_query`** takes what was rendered for the query, and nothing else. -/
theorem get_invalidateQuery_keyFor (codec : Codec β) (time : TimeText) (c : RenderedCache β)
    {queryId id : String} (hquery : '|' ∉ queryId.toList) (hid : '|' ∉ id.toList)
    (answer : PollChanged) :
    (c.invalidateQuery codec queryId).get (keyFor time id answer) =
      if id = queryId then none else c.get (keyFor time id answer) := by
  rw [get_invalidateQuery]
  exact if_congr (startsWith_keyFor_iff time answer hid hquery) rfl rfl

/-! ## Each call keeps the count -/

theorem sound_empty : Sound E .empty where
  total := rfl
  bounded := Int.le_of_lt E.maxBytes_pos
  count := Nat.zero_le _
  keys _ h := absurd h List.not_mem_nil

theorem Sound.drop (h : Sound E c) (key : String) : Sound E (c.drop E.bytes key) where
  total := h.total.drop key
  bounded := Int.le_trans (BudgetCache.totalBytes_drop_le _ _ _) h.bounded
  count := Nat.le_trans (BudgetCache.size_drop_le _ _ _) h.count
  keys e he := by
    rw [BudgetCache.entries_drop] at he
    exact h.keys e (List.mem_of_mem_filter he)

theorem Sound.foldl_drop (h : Sound E c) (keys : List String) :
    Sound E (keys.foldl (fun c key => c.drop E.bytes key) c) := by
  induction keys generalizing c with
  | nil => exact h
  | cons key keys ih => exact ih (h.drop key)

theorem Sound.find (h : Sound E c) (key : String) : Sound E (c.find key).2 := by
  unfold RenderedCache.find
  split
  · exact h
  · refine ⟨h.total.touch key, h.bounded, ?_, ?_⟩
    · exact (OrderedDict.size_moveToEnd _ _).trans_le h.count
    · intro e he
      have hget : c.get e.1 = some e.2 := by
        rw [← BudgetCache.get_touch c key]
        exact OrderedDict.get_iff_mem.mpr he
      exact h.keys e (OrderedDict.get_iff_mem.mp hget)

theorem Sound.store (h : Sound E c) {queryId : String} (hid : '|' ∉ queryId.toList)
    (answer : PollChanged) (rendered : Rendered β) :
    Sound E (c.store E.codec E.maxBytes maxEntries (keyFor E.time queryId answer) rendered) where
  total := h.total.put (by decide) _ _
  bounded := BudgetCache.totalBytes_put_le h.total (by decide) h.bounded _ _
  count := BudgetCache.size_put_le h.total (by decide) h.count _ _
  keys e he := by
    rcases BudgetCache.get_of_put (OrderedDict.get_iff_mem.mpr he) with ⟨hkey, -⟩ | ⟨-, hold⟩
    · exact ⟨queryId, answer, hid, hkey⟩
    · exact h.keys e (OrderedDict.get_iff_mem.mp hold)

/-- The step lemma. -/
theorem Sound.step {a : RenderedCall β} (h : Sound E c) (hplain : Plain c a)
    (hstep : step E c a = some c') : Sound E c' := by
  cases a with
  | get queryId answer => exact Option.some.inj hstep ▸ h.find _
  | store queryId answer rendered => exact Option.some.inj hstep ▸ h.store hplain answer rendered
  | getOrRender queryId answer built =>
    have hfound := h.find (keyFor E.time queryId answer)
    simp only [RenderedAccounting.step] at hstep
    split at hstep
    next hfind =>
      rw [hfind] at hfound
      exact Option.some.inj hstep ▸ hfound
    next hfind =>
      rw [hfind] at hfound
      exact Option.some.inj hstep ▸ hfound.store hplain answer _
  | invalidateQuery queryId => exact Option.some.inj hstep ▸ h.foldl_drop _
  | clear => exact Option.some.inj hstep ▸ sound_empty

/-- **The books of the rendered cache**, after any calls. -/
theorem keepsBytes_of_run {as : List (RenderedCall β)}
    (h : Run (RenderedAccounting.step E) Plain .empty as c) : KeepsBytes E c := by
  have hsound : Sound E c :=
    h.invariant (fun _ _ _ hs hstep hplain => hs.step hplain hstep) sound_empty
  refine ⟨hsound, ?_, ?_⟩
  · intro queryId answer rendered hfits
    exact BudgetCache.get_put_self hsound.total hfits (by decide)
  · intro queryId hquery id answer hid
    exact get_invalidateQuery_keyFor E.codec E.time c hquery hid answer

end Sound

namespace Sample

def renderedEnv : RenderedEnv Queries.Sample.Frame where
  codec := Queries.Sample.codec
  time := Queries.Sample.time
  maxBytes := 32 * 1024 * 1024
  maxBytes_pos := by decide

/-- An empty result of a query. -/
def answer (queryId : String) : PollChanged where
  body :=
    { queryId := queryId
      executedAt := 0
      result := ⟨[], [], false, 1⟩
      dataHash := "sha256:0f"
      charts := []
      flags := ⟨0, [], [], []⟩
      dismissedCount := none
      pollIntervalMs := 5000 }
  fromCache := false

/-- Two queries, the id of one of which starts with that of the other. -/
def calls : List (RenderedCall Queries.Sample.Frame) :=
  [.getOrRender "q" (answer "q") (answer "q"), .getOrRender "q2" (answer "q2") (answer "q2"),
    .invalidateQuery "q"]

theorem plain_calls : ∀ a ∈ calls, ∀ c, Plain c a := by
  intro a ha c
  rcases List.mem_cons.mp ha with rfl | ha
  · exact (by decide : '|' ∉ "q".toList)
  · rcases List.mem_cons.mp ha with rfl | ha
    · exact (by decide : '|' ∉ "q2".toList)
    · rw [List.mem_singleton.mp ha]
      exact (by decide : '|' ∉ "q".toList)

end Sample

theorem keepsBytes_of_run_invalidated :
    ∃ c, Run (step Sample.renderedEnv) Plain .empty Sample.calls c ∧
      KeepsBytes Sample.renderedEnv c := by
  have hrun : ∃ c, Run (step Sample.renderedEnv) Plain .empty Sample.calls c :=
    ⟨_, run_of_exec_of_forall Sample.plain_calls rfl⟩
  obtain ⟨c, hrun⟩ := hrun
  exact ⟨c, hrun, keepsBytes_of_run hrun⟩

end FraudAnalyzer.Queries.RenderedAccounting
