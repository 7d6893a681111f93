import FraudAnalyzer.Errors
import FraudAnalyzer.Lib.FirstKept
import FraudAnalyzer.Lists.Members
import FraudAnalyzer.Python.Casing

/-!
# Cleaning a pasted list

`_clean_items` of `app/features/lists/service.py` trims the items, drops the blank ones, and keeps
one item of each match signature. What the list matches does not change, whichever spelling came
first.
-/

namespace FraudAnalyzer.Lists

open Python FirstKept

/-- `frozenset({list_key(value), *_tokens(value)})` -/
def signature (u : Unicode) (value : String) : Finset Member := (signatureOf u value).toFinset

/-- The loop of `_clean_items`, with the signatures seen so far. -/
def keepItems (u : Unicode) : List String → Finset (Finset Member) → List String
  | [], _ => []
  | raw :: items, seen =>
    let value := strip u raw
    if value = "" then keepItems u items seen
    else if signature u value ∈ seen then keepItems u items seen
    else value :: keepItems u items (insert (signature u value) seen)

/-- `_clean_items`; `limit` is the `max_list_items` of the settings. -/
def cleanItems (u : Unicode) (limit : Int) (items : List String) :
    Except AppError (List String × Nat) :=
  if limit < items.length then
    .error ⟨.requestValidationError,
      "A list can hold at most " ++ toString limit ++ " items; this one has " ++
        toString items.length ++ ".",
      [("max_items", .ofInt limit), ("received", .ofInt items.length)]⟩
  else .ok (keepItems u items ∅, items.length)

/-! ## Blanks -/

section Blanks

variable {u : Unicode} {items : List String} {raw value : String}

theorem asNumber_strip : asNumber u (.str (strip u raw)) = asNumber u (.str raw) := by
  simp only [asNumber, strip_strip]

/-- The blanks around an item do not change how it is read. -/
theorem listKey_strip : listKey u (.str (strip u raw)) = listKey u (.str raw) := by
  cases hnumber : asNumber u (.str raw) with
  | some d => rw [listKey_number hnumber, listKey_number (asNumber_strip.trans hnumber)]
  | none => rw [listKey_text hnumber, listKey_text (asNumber_strip.trans hnumber), strip_strip]

theorem tokens_strip : tokens u (strip u raw) = tokens u raw := by
  have hflag : asBool u (.str (strip u raw)) = asBool u (.str raw) := by
    simp only [asBool, strip_strip]
  have hword : isBoolWord u (.str (strip u raw)) = isBoolWord u (.str raw) := by
    simp only [isBoolWord, strip_strip]
  unfold tokens
  rw [hflag, hword]

theorem signatureOf_strip : signatureOf u (strip u raw) = signatureOf u raw := by
  rw [signatureOf, signatureOf, listKey_strip, tokens_strip]

/-- A blank item has no key. -/
theorem listKey_blank (hu : u.Lawful) (h : strip u raw = "") : listKey u (.str raw) = "" := by
  have hempty : IsAscii "" := fun c hc => absurd hc List.not_mem_nil
  have hnumber : asNumber u (.str raw) = none := by
    simp only [asNumber, h, if_true]
  rw [listKey_text hnumber, h, hu.casefold_ascii "" hempty]
  rfl

end Blanks

/-! ## What is kept -/

section Kept

variable {u : Unicode} {items : List String} {raw value : String}

/-- The items, trimmed and not blank. -/
def values (u : Unicode) (items : List String) : List String :=
  (items.map (strip u)).filter (· ≠ "")

theorem mem_values :
    value ∈ values u items ↔ (∃ raw ∈ items, strip u raw = value) ∧ value ≠ "" := by
  rw [values, List.mem_filter, List.mem_map, decide_eq_true_eq]

theorem keepItems_eq (items : List String) (seen : Finset (Finset Member)) :
    keepItems u items seen = firsts (signature u) (values u items) seen := by
  induction items generalizing seen with
  | nil => rfl
  | cons raw items ih =>
    rw [keepItems]
    by_cases hblank : strip u raw = ""
    · have hvalues : values u (raw :: items) = values u items := by
        simp [values, hblank]
      rw [if_pos hblank, hvalues, ih]
    · have hvalues : values u (raw :: items) = strip u raw :: values u items := by
        simp [values, hblank]
      rw [if_neg hblank, hvalues, firsts, ih, ih]

/-- A cleaned list. -/
structure IsClean (u : Unicode) (kept : List String) : Prop where
  trimmed : ∀ value ∈ kept, strip u value = value
  nonblank : ∀ value ∈ kept, value ≠ ""
  distinct : kept.Pairwise fun a b => signature u a ≠ signature u b

theorem isClean_keepItems (items : List String) : IsClean u (keepItems u items ∅) := by
  rw [keepItems_eq]
  have hmem : ∀ value ∈ firsts (signature u) (values u items) ∅, value ∈ values u items :=
    fun value h => (firsts_sublist _ _).subset h
  constructor
  case trimmed =>
    intro value hvalue
    obtain ⟨⟨raw, -, rfl⟩, -⟩ := mem_values.mp (hmem value hvalue)
    exact strip_strip u raw
  case nonblank => exact fun value hvalue => (mem_values.mp (hmem value hvalue)).2
  case distinct => exact pairwise_firsts _ _

/-- **A cleaned list is left as it is.** -/
theorem keepItems_of_isClean (h : IsClean u items) : keepItems u items ∅ = items := by
  have hvalues : values u items = items := by
    have hmap : items.map (strip u) = items :=
      (List.map_congr_left h.trimmed).trans (List.map_id _)
    rw [values, hmap, List.filter_eq_self]
    exact fun value hvalue => decide_eq_true (h.nonblank value hvalue)
  rw [keepItems_eq, hvalues]
  exact firsts_eq_self (fun _ _ => Finset.notMem_empty _) h.distinct

theorem length_keepItems (items : List String) : (keepItems u items ∅).length ≤ items.length := by
  rw [keepItems_eq]
  calc (firsts (signature u) (values u items) ∅).length
      ≤ (values u items).length := (firsts_sublist _ _).length_le
    _ ≤ (items.map (strip u)).length := List.length_filter_le _ _
    _ = items.length := List.length_map _

/-- The signature has the key. -/
theorem listKey_eq_of_signature_eq {a b : String} (h : signature u a = signature u b) :
    listKey u (.str a) = listKey u (.str b) := by
  have hmem : .key (listKey u (.str a)) ∈ signature u b := by
    rw [← h, signature, List.mem_toFinset, key_mem_signatureOf]
  rwa [signature, List.mem_toFinset, key_mem_signatureOf] at hmem

/-- **Cleaning keeps the members.** -/
theorem mem_members_keepItems (hu : u.Lawful) {m : Member} :
    m ∈ membersFromItems u (keepItems u items ∅) ↔ m ∈ membersFromItems u items := by
  rw [mem_membersFromItems, mem_membersFromItems, keepItems_eq]
  constructor
  · rintro ⟨value, hvalue, hkey, hm⟩
    obtain ⟨⟨raw, hraw, rfl⟩, -⟩ := mem_values.mp ((firsts_sublist _ _).subset hvalue)
    rw [listKey_strip] at hkey
    rw [signatureOf_strip] at hm
    exact ⟨raw, hraw, hkey, hm⟩
  · rintro ⟨raw, hraw, hkey, hm⟩
    have hvalue : strip u raw ∈ values u items :=
      mem_values.mpr ⟨⟨raw, hraw, rfl⟩, fun hblank => hkey (listKey_blank hu hblank)⟩
    obtain ⟨value, hkept, hsame⟩ := exists_mem_firsts hvalue
      (Finset.notMem_empty (signature u (strip u raw)))
    refine ⟨value, hkept, ?_, ?_⟩
    · rw [listKey_eq_of_signature_eq hsame, listKey_strip]
      exact hkey
    · rw [← signatureOf_strip, ← List.mem_toFinset] at hm
      rw [← List.mem_toFinset]
      exact (congrArg (m ∈ ·) hsame).mpr hm

end Kept

/-! ## What cleaning promises -/

/-- **Cleaning a list never changes what it matches.** -/
structure Cleaned (u : Unicode) (limit : Int) (items kept : List String) : Prop where
  result : cleanItems u limit items = .ok (kept, items.length)
  matched : ∀ cell,
    isMember u (membersFromItems u kept) cell = isMember u (membersFromItems u items) cell
  permuted : ∀ pasted : List String, pasted.Perm items → ∃ kept',
    cleanItems u limit pasted = .ok (kept', pasted.length) ∧
      ∀ cell, isMember u (membersFromItems u kept') cell = isMember u (membersFromItems u kept) cell
  clean : IsClean u kept
  again : cleanItems u limit kept = .ok (kept, kept.length)

theorem cleanItems_of_le {u : Unicode} {limit : Int} {items : List String}
    (h : items.length ≤ limit) :
    cleanItems u limit items = .ok (keepItems u items ∅, items.length) :=
  if_neg (Int.not_lt.mpr h)

theorem cleaned_of_le {u : Unicode} (hu : u.Lawful) {limit : Int} {items : List String}
    (h : items.length ≤ limit) : ∃ kept, Cleaned u limit items kept := by
  have hmatched : ∀ (items : List String) (cell : Cell),
      isMember u (membersFromItems u (keepItems u items ∅)) cell =
        isMember u (membersFromItems u items) cell :=
    fun items cell => isMember_congr fun m => mem_members_keepItems hu
  refine ⟨keepItems u items ∅, ?_⟩
  constructor
  case result => exact cleanItems_of_le h
  case matched => exact hmatched items
  case permuted =>
    intro pasted hperm
    refine ⟨keepItems u pasted ∅, cleanItems_of_le (hperm.length_eq ▸ h), fun cell => ?_⟩
    rw [hmatched, hmatched]
    refine isMember_congr fun m => ?_
    simp only [mem_membersFromItems, hperm.mem_iff]
  case clean => exact isClean_keepItems items
  case again =>
    have hlength := length_keepItems items (u := u)
    rw [cleanItems_of_le (by omega), keepItems_of_isClean (isClean_keepItems items)]

/-- Two spellings of one: the digit is also read as a boolean. -/
theorem cleaned_of_le_ones :
    keepItems .ascii ["1.0", " 1", "1.00"] ∅ = ["1.0", "1"] ∧
      ∃ kept, Cleaned .ascii 3 ["1.0", " 1", "1.00"] kept :=
  ⟨by decide +kernel, cleaned_of_le lawful_ascii (by decide)⟩

end FraudAnalyzer.Lists
