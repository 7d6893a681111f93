import FraudAnalyzer.Lists.Matching

/-!
# Membership by item

A list matches a cell when one of its items does. The set is made of what each item adds to it, its
match signature, and of the set only membership is asked.
-/

namespace FraudAnalyzer.Lists

open Python

/-- What an item that is not blank adds to the set: its key and its tokens. -/
def signatureOf (u : Unicode) (item : String) : List Member :=
  .key (listKey u (.str item)) :: tokens u item

/-- One item matches a cell: they have one key, or the item is read as the boolean that the cell is,
or both are words for one boolean. -/
def Matches (u : Unicode) (item : String) (cell : Cell) : Prop :=
  listKey u cell = listKey u (.str item) ∨
    (∃ b, cell = .bool b ∧ asBool u (.str item) = some b) ∨
    isBoolWord u cell = true ∧ isBoolWord u (.str item) = true ∧
      asBool u cell = asBool u (.str item)

section Members

variable {u : Unicode} {d : Decimal} {s item text : String} {items : List String} {cell : Cell}
  {b : Bool} {word : Option Bool} {m : Member} {ms ns : List Member}

theorem listKey_number (h : asNumber u cell = some d) : listKey u cell = numberKey d := by
  unfold listKey
  rw [h]

theorem listKey_text (h : asNumber u (.str s) = none) :
    listKey u (.str s) = u.casefold (strip u s) := by
  unfold listKey
  rw [h]
  rfl

theorem mem_membersFromItems : m ∈ membersFromItems u items ↔
    ∃ item ∈ items, listKey u (.str item) ≠ "" ∧ m ∈ signatureOf u item := by
  rw [membersFromItems, List.mem_flatMap]
  refine exists_congr fun item => and_congr_right fun _ => ?_
  by_cases hkey : listKey u (.str item) = ""
  · simp [hkey]
  · simp [hkey, signatureOf]

@[simp] theorem key_mem_signatureOf :
    .key text ∈ signatureOf u item ↔ text = listKey u (.str item) := by
  simp [signatureOf, tokens]

@[simp] theorem bool_mem_signatureOf :
    .bool b ∈ signatureOf u item ↔ asBool u (.str item) = some b := by
  simp [signatureOf, tokens]

@[simp] theorem word_mem_signatureOf : .word word ∈ signatureOf u item ↔
    isBoolWord u (.str item) = true ∧ word = asBool u (.str item) := by
  simp [signatureOf, tokens]

/-- The three ways for a cell to be in a set. -/
theorem isMember_iff : isMember u ms cell = true ↔
    .key (listKey u cell) ∈ ms ∨ (∃ b, cell = .bool b ∧ .bool b ∈ ms) ∨
      isBoolWord u cell = true ∧ .word (asBool u cell) ∈ ms := by
  unfold isMember
  by_cases hkey : .key (listKey u cell) ∈ ms
  · simp [hkey]
  · cases cell with
    | bool b => simp [hkey, isBoolWord]
    | _ => simp [hkey]

theorem isMember_congr (h : ∀ m, m ∈ ms ↔ m ∈ ns) : isMember u ms cell = isMember u ns cell := by
  rw [Bool.eq_iff_iff, isMember_iff, isMember_iff]
  simp only [h]

/-- **A list matches a cell** when an item that is not blank does. -/
theorem isMember_membersFromItems : isMember u (membersFromItems u items) cell = true ↔
    ∃ item ∈ items, listKey u (.str item) ≠ "" ∧ Matches u item cell := by
  rw [isMember_iff]
  simp only [mem_membersFromItems, key_mem_signatureOf, bool_mem_signatureOf, word_mem_signatureOf,
    Matches]
  constructor
  · rintro (⟨item, hitem, hkey, hsame⟩ | ⟨b, hb, item, hitem, hkey, hflag⟩ |
      ⟨hcell, item, hitem, hkey, hword, hflag⟩)
    · exact ⟨item, hitem, hkey, .inl hsame⟩
    · exact ⟨item, hitem, hkey, .inr (.inl ⟨b, hb, hflag⟩)⟩
    · exact ⟨item, hitem, hkey, .inr (.inr ⟨hcell, hword, hflag⟩)⟩
  · rintro ⟨item, hitem, hkey, hsame | ⟨b, hb, hflag⟩ | ⟨hcell, hword, hflag⟩⟩
    · exact .inl ⟨item, hitem, hkey, hsame⟩
    · exact .inr (.inl ⟨b, hb, item, hitem, hkey, hflag⟩)
    · exact .inr (.inr ⟨hcell, item, hitem, hkey, hword, hflag⟩)

end Members

end FraudAnalyzer.Lists
