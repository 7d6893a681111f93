import FraudAnalyzer.FlagRules.Dismissals
import FraudAnalyzer.Lib.BudgetCache
import Mathlib.Data.List.TakeWhile

/-!
# Rendered poll responses

`app/features/queries/rendered_cache.py`: bodies as they go out, encoded and compressed, under a key
made of the query, the hash and whatever else of the body the hash does not cover. The charts are
not in the key.
-/

namespace FraudAnalyzer.Queries

/-- `PollChanged`: the body of `poll_one` that is worth rendering. -/
structure PollChanged where
  body : Body
  fromCache : Bool

/-- Encoding and compression, and what undoes them. -/
structure Codec (β : Type) where
  /-- `orjson.dumps` -/
  dumps : PollChanged → β
  loads : β → Option PollChanged
  /-- `gzip.compress` -/
  compress : β → β
  decompress : β → β
  /-- `len` -/
  length : β → Nat
  loads_dumps : ∀ answer, loads (dumps answer) = some answer
  decompress_compress : ∀ bytes, decompress (compress bytes) = bytes

/-- `str(executed_at)` -/
structure TimeText where
  text : Instant → String
  injective : Function.Injective text
  plain : ∀ t, '|' ∉ (text t).toList

/-- `key_for`, of a body that is answered. -/
def keyFor (time : TimeText) (queryId : String) (answer : PollChanged) : String :=
  queryId ++ "|" ++ answer.body.dataHash ++ "|" ++
    toString answer.body.pollIntervalMs ++ "|" ++ (if answer.fromCache then "1" else "0") ++ "|" ++
    time.text answer.body.executedAt

structure Rendered (β : Type) where
  body : β
  compressed : Bool

/-- `MIN_COMPRESS_BYTES` -/
def minCompressBytes : Nat := 1024

namespace Rendered

variable {β : Type}

/-- `render` -/
def render (codec : Codec β) (answer : PollChanged) : Rendered β :=
  let raw := codec.dumps answer
  if codec.length raw < minCompressBytes then ⟨raw, false⟩ else ⟨codec.compress raw, true⟩

/-- What the client reads: it undoes the compression if the response says so, and so does the route
for a client that takes no gzip. -/
def decode (codec : Codec β) (rendered : Rendered β) : Option PollChanged :=
  codec.loads (if rendered.compressed then codec.decompress rendered.body else rendered.body)

theorem decode_render (codec : Codec β) (answer : PollChanged) :
    (render codec answer).decode codec = some answer := by
  unfold render decode
  simp only
  split
  · exact codec.loads_dumps answer
  · simp only [if_true, codec.decompress_compress]
    exact codec.loads_dumps answer

end Rendered

/-- `_entries` and `_total_bytes` -/
abbrev RenderedCache (β : Type) := BudgetCache String (Rendered β)

namespace RenderedCache

variable {β : Type}

/-- `get` -/
def find (c : RenderedCache β) (key : String) : Option (Rendered β) × RenderedCache β :=
  match c.get key with
  | none => (none, c)
  | some found => (some found, c.touch key)

/-- `store`; `maxBytes` is `rendered_cache_max_bytes`, and `MAX_ENTRIES` is that of the result
cache. -/
def store (codec : Codec β) (maxBytes : Int) (maxEntries : Nat) (c : RenderedCache β)
    (key : String) (rendered : Rendered β) : RenderedCache β :=
  c.put (fun r => codec.length r.body) maxBytes maxEntries key rendered

/-- `invalidate_query`: every key that starts with the query's id and a bar. -/
def invalidateQuery (codec : Codec β) (c : RenderedCache β) (queryId : String) :
    RenderedCache β :=
  ((c.entries.entries.map Prod.fst).filter fun key => Python.startsWith key (queryId ++ "|")).foldl
    (fun c key => c.drop (fun r => codec.length r.body) key) c

end RenderedCache

section Lemmas

variable {β : Type} {codec : Codec β} {time : TimeText} {c c' : RenderedCache β} {key : String}
  {rendered : Rendered β}

theorem RenderedCache.find_spec (h : c.find key = (some rendered, c')) :
    c.get key = some rendered ∧ ∀ k, c'.get k = c.get k := by
  unfold find at h
  split at h
  · cases h
  next found hfound =>
    obtain ⟨heq, rfl⟩ := Prod.mk.inj h
    obtain rfl := Option.some.inj heq
    exact ⟨hfound, fun k => BudgetCache.get_touch _ _ _⟩

theorem RenderedCache.find_none (h : c.find key = (none, c')) : c' = c := by
  unfold find at h
  split at h
  · exact (Prod.mk.inj h).2.symm
  · cases h

theorem RenderedCache.get_foldl_drop (size : Rendered β → Nat) (keys : List String)
    (c : RenderedCache β) (k : String) :
    (keys.foldl (fun c key => c.drop size key) c).get k = if k ∈ keys then none else c.get k := by
  induction keys generalizing c with
  | nil => simp
  | cons key keys ih =>
    rw [List.foldl_cons, ih, BudgetCache.get_drop]
    by_cases hk : k = key
    · simp [hk]
    · simp [hk]

/-- Nothing of the query is left, and nothing new comes. -/
theorem RenderedCache.get_invalidateQuery {queryId k : String}
    (h : (c.invalidateQuery codec queryId).get k = some rendered) :
    c.get k = some rendered ∧ Python.startsWith k (queryId ++ "|") = false := by
  unfold invalidateQuery at h
  rw [get_foldl_drop] at h
  split at h
  · cases h
  next hk =>
    refine ⟨h, ?_⟩
    have hmem : k ∈ c.entries.entries.map Prod.fst :=
      List.mem_map.mpr ⟨(k, rendered), OrderedDict.get_iff_mem.mp h, rfl⟩
    by_contra hstart
    exact hk (List.mem_filter.mpr ⟨hmem, by simpa using hstart⟩)

/-- A key belongs to its query. -/
theorem startsWith_keyFor (time : TimeText) (queryId : String) (answer : PollChanged) :
    Python.startsWith (keyFor time queryId answer) (queryId ++ "|") = true := by
  unfold Python.startsWith keyFor
  rw [List.isPrefixOf_iff_prefix]
  simp only [String.toList_append, List.append_assoc]
  rw [← List.append_assoc]
  exact List.prefix_append _ _

/-- What a key says: the execution and where the answer came from; and, for one execution of one
query, the hash. -/
theorem keyFor_inj {id : String} {a b : PollChanged} {id' : String}
    (h : keyFor time id a = keyFor time id' b) :
    a.body.executedAt = b.body.executedAt ∧ a.fromCache = b.fromCache ∧
      (id = id' → a.body.pollIntervalMs = b.body.pollIntervalMs →
        a.body.dataHash = b.body.dataHash) := by
  have hchars := congrArg String.toList h
  unfold keyFor at hchars
  have hbar : "|".toList = ['|'] := rfl
  simp only [String.toList_append, hbar] at hchars
  have hflag : ∀ f : Bool, '|' ∉ (if f then "1" else "0" : String).toList := by decide
  obtain ⟨hfront, htime⟩ := Python.split_at_last (time.plain _) (time.plain _) hchars
  obtain ⟨hrest, hcache⟩ := Python.split_at_last (hflag _) (hflag _) hfront
  refine ⟨time.injective (String.toList_inj.mp htime), ?_, ?_⟩
  · cases hfa : a.fromCache <;> cases hfb : b.fromCache <;> simp [hfa, hfb] at hcache ⊢
  · intro hid hinterval
    rw [hid, hinterval] at hrest
    simp only [List.append_assoc] at hrest
    have hhash := List.append_cancel_left hrest
    exact String.toList_inj.mp (List.append_cancel_right (List.append_cancel_left hhash))

end Lemmas

end FraudAnalyzer.Queries
