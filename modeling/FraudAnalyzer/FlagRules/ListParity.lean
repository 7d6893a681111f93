import FraudAnalyzer.FlagRules.Comparison
import FraudAnalyzer.Lists.Members

/-!
# Value lists and named lists

`in` takes the items from a text, and compares the cell with one after the other; `in_list` looks
the cell up in a set of keys. On items that a text can name, and but for the case of a text, they
match the same cells.
-/

namespace FraudAnalyzer.FlagRules

open Python FraudAnalyzer.Lists Policy

/-- An item that a value list can name. -/
structure IsItem (u : Unicode) (item : String) : Prop where
  trimmed : strip u item = item
  nonblank : item ≠ ""
  comma : ',' ∉ item.toList

/-- A cell that is there and whose text has no blanks around it. -/
structure IsTrimmed (u : Unicode) (cell : Cell) : Prop where
  present : cell ≠ .none
  trimmed : strip u (asText u cell) = asText u cell
  /-- A larger integer has no text: `str` refuses one of more than 4300 digits. -/
  inRange : ∀ n, cell = .int n → (Decimal.ofInt n).inRange = true

/-- An item that is the text of the cell but for the case is that text, or both are
boolean words. -/
def CaseKept (u : Unicode) (item : String) (cell : Cell) : Prop :=
  u.casefold item = u.casefold (asText u cell) →
    item = asText u cell ∨
      isBoolWord u (.str item) = true ∧ isBoolWord u (.str (asText u cell)) = true

/-! ## The items of a value list -/

section Splitting

variable {u : Unicode} {item : String} {items : List String}

theorem splitList_some (u : Unicode) (raw : String) : splitList u (some raw) =
    ((raw.toList.splitOn ',').map fun part => strip u (String.ofList part)).filter (· ≠ "") := by
  unfold splitList
  by_cases hraw : raw = ""
  · subst hraw
    rfl
  · simp only [hraw, if_false]

theorem isSpace_blank (hu : u.Lawful) : u.isSpace ' ' = true := by
  rw [hu.isSpace_ascii ' ' (by decide)]
  rfl

/-- The blank that follows a comma. -/
def IsLead (lead : List Char) : Prop := lead = [] ∨ lead = [' ']

theorem strip_lead (hu : u.Lawful) {lead : List Char} (hlead : IsLead lead) (s : String) :
    strip u (String.ofList (lead ++ s.toList)) = strip u s := by
  rcases hlead with rfl | rfl
  · rw [List.nil_append, String.ofList_toList]
  · rw [List.singleton_append, strip_cons (isSpace_blank hu), String.ofList_toList]

theorem comma_notMem_lead {lead : List Char} (hlead : IsLead lead) (hitem : ',' ∉ item.toList) :
    ',' ∉ lead ++ item.toList := by
  rw [List.mem_append, not_or]
  refine ⟨?_, hitem⟩
  rcases hlead with rfl | rfl
  · exact List.not_mem_nil
  · decide

theorem splitOn_join (hu : u.Lawful) (hitems : ∀ item ∈ items, IsItem u item) {lead : List Char}
    (hlead : IsLead lead) :
    (((lead ++ (join ", " items).toList).splitOn ',').map fun part =>
      strip u (String.ofList part)).filter (· ≠ "") = items := by
  induction items generalizing lead with
  | nil =>
    have hnone : ',' ∉ lead ++ (join ", " []).toList :=
      comma_notMem_lead hlead List.not_mem_nil
    rw [List.splitOn_eq_singleton hnone, List.map_singleton, strip_lead hu hlead]
    rfl
  | cons item rest ih =>
    obtain ⟨hitem, hrest⟩ := List.forall_mem_cons.mp hitems
    have hnone := comma_notMem_lead hlead hitem.comma
    have hkept : ∀ others : List String,
        (item :: others).filter (· ≠ "") = item :: others.filter (· ≠ "") :=
      fun others => List.filter_cons_of_pos (decide_eq_true hitem.nonblank)
    cases rest with
    | nil =>
      rw [join, List.splitOn_eq_singleton hnone, List.map_singleton, strip_lead hu hlead,
        hitem.trimmed, hkept]
      rfl
    | cons next rest =>
      have hlist : lead ++ (join ", " (item :: next :: rest)).toList =
          (lead ++ item.toList) ++ ',' :: ([' '] ++ (join ", " (next :: rest)).toList) := by
        simp [join]
      rw [hlist, List.splitOn_append_cons_self, List.splitOn_eq_singleton hnone]
      rw [List.singleton_append, List.map_cons, strip_lead hu hlead, hitem.trimmed,
        hkept, ih hrest (.inr rfl)]

/-- **A value list is read back**, item by item. -/
theorem splitList_join (hu : u.Lawful) (hitems : ∀ item ∈ items, IsItem u item) :
    splitList u (some (join ", " items)) = items := by
  rw [splitList_some]
  have hlead : IsLead [] := .inl rfl
  exact splitOn_join hu hitems hlead

end Splitting

/-! ## A cell and its text -/

section Texts

variable {u : Unicode} {cell : Cell} {value : Option String} {item : String}

/-- A text that begins with a bracket is no number and no word. -/
theorem reads_bracket (hu : u.Lawful) {s : String} {c : Char} {rest : List Char}
    (hbracket : c = '[' ∨ c = '\x7b') (hlist : s.toList = c :: rest) (hs : strip u s = s) :
    asNumber u (.str s) = none ∧ isBoolWord u (.str s) = false := by
  constructor
  · have hne : s ≠ "" := by
      rintro rfl
      cases hlist
    simp only [asNumber, hs, hne, if_false, parse_bracket u hbracket hlist]
  · refine isBoolWord_bracket hu hbracket ?_
    rw [hs, hlist]
    exact List.mem_cons_self

/-- The text of a cell is read as the cell is. -/
theorem reads_asText (hu : u.Lawful) (hcell : IsTrimmed u cell) (hscale : OnScale cell) :
    asNumber u (.str (asText u cell)) = asNumber u cell ∧
      isBoolWord u (.str (asText u cell)) = isBoolWord u cell := by
  cases cell with
  | none => exact absurd rfl hscale.1
  | bool b => exact absurd rfl (hscale.2 b)
  | int n =>
    exact ⟨asNumber_int hu (hcell.inRange n rfl),
      isBoolWord_number hu fun c hc => isNumberChar_toString hc⟩
  | float x =>
    refine ⟨asNumber_float hu x, isBoolWord_number hu fun c hc => ?_⟩
    rw [show asText u (.float x) = String.ofList x.repr.chars from rfl, String.toList_ofList] at hc
    exact x.repr.all_number c hc
  | str s => exact ⟨rfl, rfl⟩
  | list items => exact reads_bracket hu (.inl rfl) (toList_toStr_list items) hcell.trimmed
  | dict entries => exact reads_bracket hu (.inr rfl) (toList_toStr_dict entries) hcell.trimmed

/-- Only a text is a word. -/
theorem isBoolWord_of_not_str (u : Unicode) (h : ¬ ∃ s, cell = .str s) :
    isBoolWord u cell = false := by
  cases cell with
  | str s => exact absurd ⟨s, rfl⟩ h
  | _ => rfl

/-- A cell that is no boolean equals what its text equals. -/
theorem equals_asText (hu : u.Lawful) (hcell : IsTrimmed u cell) (hscale : OnScale cell) :
    equals u (.str (asText u cell)) value = equals u cell value := by
  obtain ⟨hnumber, hword⟩ := reads_asText hu hcell hscale
  by_cases hstr : ∃ s, cell = .str s
  · obtain ⟨s, rfl⟩ := hstr
    rfl
  · have hnoWord := isBoolWord_of_not_str u hstr
    have htext : OnScale (.str (asText u cell)) := ⟨nofun, fun _ => nofun⟩
    have hwords : (isBoolWord u cell && isBoolWord u (.ofOption value)) = false := by
      rw [hnoWord, Bool.false_and]
    rw [equals_eq_comparison hscale hwords, equals_eq_comparison htext (hword ▸ hwords)]
    unfold comparison
    rw [hnumber]
    rfl

/-- And it is matched by the items that match its text. -/
theorem matches_asText (hu : u.Lawful) (hcell : IsTrimmed u cell) (hscale : OnScale cell) :
    Matches u item (.str (asText u cell)) ↔ Matches u item cell := by
  obtain ⟨hnumber, hword⟩ := reads_asText hu hcell hscale
  by_cases hstr : ∃ s, cell = .str s
  · obtain ⟨s, rfl⟩ := hstr
    rfl
  · have hnoWord := isBoolWord_of_not_str u hstr
    have hkey : listKey u (.str (asText u cell)) = listKey u cell := by
      unfold listKey
      rw [hnumber]
      cases asNumber u cell with
      | some d => rfl
      | none =>
        cases cell with
        | none => exact absurd rfl hscale.1
        | bool b => exact absurd rfl (hscale.2 b)
        | _ => rfl
    have hnoBool : ¬ ∃ b, cell = .bool b ∧ asBool u (.str item) = some b := by
      rintro ⟨b, hb, -⟩
      exact hscale.2 b hb
    simp only [Matches, hkey, hword, hnoWord, hnoBool, Bool.false_eq_true, false_and, or_false,
      reduceCtorEq, exists_false]

end Texts

/-! ## One item -/

section Items

variable {u : Unicode} {cell : Cell} {item s : String} {b : Bool}

/-- A word is folded as it is lowered. -/
theorem casefold_of_isBoolWord (hu : u.Lawful) (hs : strip u s = s)
    (h : isBoolWord u (.str s) = true) : u.casefold s = u.lower s := by
  have hword := isBoolWord_str.mp h
  rw [hs] at hword
  refine hu.casefold_eq_lower s fun c hc => ?_
  have hletter := isLower_iff.mp (isLower_of_mem_word hword hc)
  omega

theorem asBool_of_lower (hs : strip u s = s) (hitem : strip u item = item)
    (h : u.lower s = u.lower item) : asBool u (.str s) = asBool u (.str item) := by
  simp only [asBool, hs, hitem, h]

/-- What is no number has not the key of one. -/
theorem numberKey_ne_listKey (hu : u.Lawful) (hs : strip u s = s)
    (h : asNumber u (.str s) = none) {d : Decimal} (hd : d.inRange = true) :
    numberKey d ≠ listKey u (.str s) := by
  intro hkey
  rw [listKey_text h, hs] at hkey
  have hsome := isSome_of_casefold hu hs hd hkey.symm
  rw [h] at hsome
  cases hsome

theorem asNumber_of_isBoolWord (hu : u.Lawful) (h : isBoolWord u (.str s) = true) :
    asNumber u (.str s) = none := by
  by_contra hsome
  obtain ⟨d, hd⟩ := Option.ne_none_iff_exists'.mp hsome
  rw [isBoolWord_of_asNumber hu hd] at h
  cases h

/-- Two words. -/
theorem equals_words (hu : u.Lawful) (hs : strip u s = s) (hitem : strip u item = item)
    (hword : isBoolWord u (.str s) = true) (hword' : isBoolWord u (.str item) = true) :
    equals u (.str s) (some item) = true ↔ Matches u item (.str s) := by
  have hwords : (isBoolWord u (.str s) && isBoolWord u (.str item)) = true := by
    rw [hword, hword']
    rfl
  have hequals : equals u (.str s) (some item) =
      (asBool u (.str s) == asBool u (.str item)) := if_pos hwords
  rw [hequals, beq_iff_eq]
  constructor
  · intro hsame
    exact .inr (.inr ⟨hword, hword', hsame⟩)
  · rintro (hkey | ⟨b, hb, -⟩ | ⟨-, -, hsame⟩)
    · rw [listKey_text (asNumber_of_isBoolWord hu hword),
        listKey_text (asNumber_of_isBoolWord hu hword'), hs, hitem,
        casefold_of_isBoolWord hu hs hword, casefold_of_isBoolWord hu hitem hword'] at hkey
      exact asBool_of_lower hs hitem hkey
    · cases hb
    · exact hsame

/-- Two texts that are equal but for the case have one key, and so do two spellings of a number. -/
theorem comparison_eq_iff_listKey (hu : u.Lawful) (hs : strip u s = s) (hitem : strip u item = item)
    (hcase : u.casefold item = u.casefold s → item = s) :
    comparison u (.str s) (some item) = .eq ↔ listKey u (.str s) = listKey u (.str item) := by
  have htexts : ¬ ((asNumber u (.str s)).isSome = true ∧ (asNumber u (.str item)).isSome = true) →
      (comparison u (.str s) (some item) = .eq ↔ s = item) := comparison_eq_iff_text
  cases hleft : asNumber u (.str s) with
  | some d =>
    cases hright : asNumber u (.str item) with
    | some e =>
      have hvalue : IsNumber u (.ofOption (some item)) e.value := ⟨e, hright, rfl⟩
      rw [comparison_of_isNumber ⟨d, hleft, rfl⟩ hvalue, compare_eq_iff_eq,
        listKey_number hleft, listKey_number hright,
        numberKey_eq_iff (inRange_of_asNumber_str hleft) (inRange_of_asNumber_str hright)]
    | none =>
      rw [htexts (by simp [hright]), listKey_number hleft]
      refine iff_of_false ?_ (numberKey_ne_listKey hu hitem hright (inRange_of_asNumber_str hleft))
      rintro rfl
      cases hleft.symm.trans hright
  | none =>
    rw [htexts (by simp [hleft])]
    cases hright : asNumber u (.str item) with
    | some e =>
      rw [listKey_number hright]
      refine iff_of_false ?_
        (numberKey_ne_listKey hu hs hleft (inRange_of_asNumber_str hright)).symm
      rintro rfl
      cases hleft.symm.trans hright
    | none =>
      rw [listKey_text hleft, listKey_text hright, hs, hitem]
      constructor
      · rintro rfl
        rfl
      · intro hfold
        exact (hcase hfold.symm).symm

/-- A text and an item. -/
theorem equals_text (hu : u.Lawful) (hs : strip u s = s) (hitem : strip u item = item)
    (hcase : CaseKept u item (.str s)) :
    equals u (.str s) (some item) = true ↔ Matches u item (.str s) := by
  by_cases hwords : (isBoolWord u (.str s) && isBoolWord u (.str item)) = true
  · obtain ⟨hword, hword'⟩ := Bool.and_eq_true_iff.mp hwords
    exact equals_words hu hs hitem hword hword'
  · -- only the keys are left to match, and the item has kept its case
    have htext : OnScale (.str s) := ⟨nofun, fun _ => nofun⟩
    have hkeys : Matches u item (.str s) ↔ listKey u (.str s) = listKey u (.str item) := by
      refine or_iff_left ?_
      rintro (⟨b, hb, -⟩ | ⟨hword, hword', -⟩)
      · cases hb
      · exact hwords (Bool.and_eq_true_iff.mpr ⟨hword, hword'⟩)
    have hkept : u.casefold item = u.casefold s → item = s := by
      intro hfold
      rcases hcase hfold with hsame | ⟨hword', hword⟩
      · exact hsame
      · exact absurd (Bool.and_eq_true_iff.mpr ⟨hword, hword'⟩) hwords
    rw [hkeys, equals_eq_comparison htext (Bool.eq_false_iff.mpr hwords), beq_iff_eq]
    exact comparison_eq_iff_listKey hu hs hitem hkept

/-- The word of a boolean. -/
def boolText (b : Bool) : String := if b then "true" else "false"

theorem boolText_ascii (b : Bool) : IsAscii (boolText b) := by
  have hall : (boolText b).toList.all (fun c => decide (c.toNat < 128)) = true := by
    cases b with
    | true => decide
    | false => decide
  intro c hc
  exact of_decide_eq_true (List.all_eq_true.mp hall c hc)

theorem casefold_boolText (hu : u.Lawful) (b : Bool) : u.casefold (boolText b) = boolText b := by
  rw [hu.casefold_ascii _ (boolText_ascii b)]
  cases b with
  | true => decide
  | false => decide

theorem lower_boolText (hu : u.Lawful) (b : Bool) : u.lower (boolText b) = boolText b := by
  rw [hu.lower_ascii _ (boolText_ascii b)]
  cases b with
  | true => decide
  | false => decide

theorem numberKey_ne_boolText (d : Decimal) (b : Bool) : numberKey d ≠ boolText b := by
  intro hkey
  have hletter : (boolText b).toList.any (fun c => !isNumberChar c) = true := by
    cases b with
    | true => decide
    | false => decide
  obtain ⟨c, hc, hnot⟩ := List.any_eq_true.mp hletter
  rw [isNumberChar_numberKey (hkey ▸ hc)] at hnot
  cases hnot

/-- A text that is lowered to the word of a boolean is read as that boolean. -/
theorem asBool_of_boolText (hitem : strip u item = item) (h : u.lower item = boolText b) :
    asBool u (.str item) = some b := by
  simp only [asBool, hitem, h]
  cases b with
  | true => rfl
  | false => rfl

/-- A boolean and an item. -/
theorem equals_bool (hu : u.Lawful) (hitem : strip u item = item)
    (hcase : CaseKept u item (.bool b)) :
    equals u (.bool b) (some item) = true ↔ Matches u item (.bool b) := by
  have hequals : equals u (.bool b) (some item) = (asBool u (.str item) == some b) := rfl
  rw [hequals, beq_iff_eq]
  constructor
  · intro hflag
    exact .inr (.inl ⟨b, rfl, hflag⟩)
  · rintro (hkey | ⟨b', hb, hflag⟩ | ⟨hword, -⟩)
    · have hkey' : boolText b = listKey u (.str item) := hkey
      cases hnumber : asNumber u (.str item) with
      | some d =>
        rw [listKey_number hnumber] at hkey'
        exact absurd hkey'.symm (numberKey_ne_boolText d b)
      | none =>
        rw [listKey_text hnumber, hitem] at hkey'
        refine asBool_of_boolText hitem ?_
        rcases hcase (hkey'.symm.trans (casefold_boolText hu b).symm) with hsame | ⟨hword, -⟩
        · rw [hsame]
          exact lower_boolText hu b
        · rw [← casefold_of_isBoolWord hu hitem hword, hkey']
    · obtain rfl := Cell.bool.inj hb
      exact hflag
    · cases hword

/-- **The pairwise comparison with an item is a match.** -/
theorem equals_iff_matches (hu : u.Lawful) (hcell : IsTrimmed u cell) (hitem : strip u item = item)
    (hcase : CaseKept u item cell) : equals u cell (some item) = true ↔ Matches u item cell := by
  by_cases hbool : ∃ b, cell = .bool b
  · obtain ⟨b, rfl⟩ := hbool
    exact equals_bool hu hitem hcase
  · have hscale : OnScale cell := ⟨hcell.present, not_exists.mp hbool⟩
    rw [← equals_asText hu hcell hscale, ← matches_asText hu hcell hscale]
    exact equals_text hu hcell.trimmed hitem hcase

end Items

/-! ## Whole lists -/

/-- The condition with the items as a value list. -/
def valueList (c : ConditionSpec) (operator : FlagOperator) (items : List String) : ConditionSpec :=
  { c with operator := operator, value := some (join ", " items) }

/-- The condition with the items as a named list. -/
def namedList (u : Unicode) (c : ConditionSpec) (operator : FlagOperator) (items : List String) :
    ConditionSpec :=
  { c with operator := operator, members := some (membersFromItems u items) }

/-- **A value list and a named list agree** on a cell, and so do their negations. -/
structure ListsAgree (u : Unicode) (c : ConditionSpec) (items : List String) (cell : Cell) :
    Prop where
  isIn : evaluateCondition u (valueList c .in_ items) cell =
    evaluateCondition u (namedList u c .inList items) cell
  notIn : evaluateCondition u (valueList c .notIn items) cell =
    evaluateCondition u (namedList u c .notInList items) cell

section Parity

variable {u : Unicode} {items : List String} {item : String} {cell : Cell}

theorem listKey_ne_empty (hu : u.Lawful) (hitem : IsItem u item) : listKey u (.str item) ≠ "" := by
  cases hnumber : asNumber u (.str item) with
  | some d =>
    rw [listKey_number hnumber]
    exact numberKey_ne_empty d
  | none =>
    rw [listKey_text hnumber, hitem.trimmed]
    exact hu.casefold_ne_empty item hitem.nonblank

/-- One comparison after the other, or one lookup. -/
theorem any_equals_eq_isMember (hu : u.Lawful) (hitems : ∀ item ∈ items, IsItem u item)
    (hcell : IsTrimmed u cell) (hcase : ∀ item ∈ items, CaseKept u item cell) :
    (items.any fun item => equals u cell (some item)) =
      isMember u (membersFromItems u items) cell := by
  rw [Bool.eq_iff_iff, List.any_eq_true, isMember_membersFromItems]
  refine exists_congr fun item => and_congr_right fun hitem => ?_
  rw [equals_iff_matches hu hcell (hitems item hitem).trimmed (hcase item hitem)]
  exact (and_iff_right (listKey_ne_empty hu (hitems item hitem))).symm

/-- **`in` and `in_list` agree** on items that a value list can name, where no item is the cell in
another case. -/
theorem listsAgree_of_caseKept (hu : u.Lawful) (c : ConditionSpec)
    (hitems : ∀ item ∈ items, IsItem u item) (hcell : IsTrimmed u cell)
    (hcase : ∀ item ∈ items, CaseKept u item cell) : ListsAgree u c items cell := by
  have hmember :
      ((splitList u (some (join ", " items))).any fun item => equals u cell (some item)) =
      isMember u (membersFromItems u items) cell := by
    rw [splitList_join hu hitems]
    exact any_equals_eq_isMember hu hitems hcell hcase
  obtain ⟨hpresent, -, -⟩ := hcell
  constructor
  case isIn =>
    cases cell with
    | none => exact absurd rfl hpresent
    | _ => exact hmember
  case notIn =>
    cases cell with
    | none => exact absurd rfl hpresent
    | _ => exact congrArg not hmember

end Parity

namespace Sample

/-- Items of each kind. -/
def pasted : List String := ["2.50", "yes", "ACME-1"]

theorem isItem_pasted : ∀ item ∈ pasted, IsItem .ascii item := by
  have hall : ∀ item ∈ pasted, strip .ascii item = item ∧ item ≠ "" ∧ ',' ∉ item.toList := by
    decide
  intro item hitem
  obtain ⟨htrimmed, hnonblank, hcomma⟩ := hall item hitem
  exact ⟨htrimmed, hnonblank, hcomma⟩

end Sample

theorem listsAgree_of_caseKept_pasted :
    evaluateCondition .ascii (valueList Sample.any .in_ Sample.pasted) (.str "T") = true ∧
      ListsAgree .ascii Sample.any Sample.pasted (.str "T") := by
  refine ⟨by decide, listsAgree_of_caseKept lawful_ascii Sample.any Sample.isItem_pasted ?_ ?_⟩
  · exact ⟨nofun, by decide, fun _ => nofun⟩
  · unfold CaseKept
    decide

end FraudAnalyzer.FlagRules
