import FraudAnalyzer.Lists.Cleaning
import FraudAnalyzer.Lists.Keys
import FraudAnalyzer.Python.Numeral

/-!
# The key as a canonical form

`list_key` on every value that stands for a number: its key is the number's, however the number was
written, and no text that is not a number has it.
-/

namespace FraudAnalyzer.Lists

open Python

/-- What `list_key` is given: a cell, or a finite `Decimal` before `to_jsonable` makes it a text. -/
inductive Given where
  | cell (cell : Cell)
  | decimal (d : Decimal)

namespace Given

/-- `as_number` -/
def asNumber (u : Unicode) : Given → Option Decimal
  | .cell c => Lists.asNumber u c
  | .decimal d => some d

/-- `list_key` -/
def listKey (u : Unicode) : Given → String
  | .cell c => Lists.listKey u c
  | .decimal d => numberKey d

/-- The value is read as a number, within the range of the type, and `q` is that number. -/
def Reads (u : Unicode) (value : Given) (q : ℚ) : Prop :=
  ∃ d, value.asNumber u = some d ∧ d.inRange = true ∧ d.value = q

end Given

/-! ## What is read -/

section Reads

variable {u : Unicode} {value : Given} {d : Decimal} {q : ℚ}

theorem reads_of_asNumber (h : value.asNumber u = some d) (hd : d.inRange = true) :
    value.Reads u q ↔ d.value = q := by
  constructor
  · rintro ⟨d', hd', -, rfl⟩
    rw [h] at hd'
    rw [Option.some.inj hd']
  · rintro rfl
    exact ⟨d, h, hd, rfl⟩

theorem value_ofInt (n : ℤ) : (Decimal.ofInt n).value = n := by
  have hsigned : (Decimal.ofInt n).signed = n := by
    unfold Decimal.signed Decimal.ofInt
    by_cases hneg : n < 0
    · simp only [hneg, decide_true, if_true]
      omega
    · simp only [hneg, decide_false, Bool.false_eq_true, if_false]
      omega
  rw [Decimal.value, hsigned]
  simp [Scientific.value, Decimal.ofInt]

/-- An integer is read as itself. -/
theorem reads_int {n : ℤ} (hn : (Decimal.ofInt n).inRange = true) :
    (Given.cell (.int n)).Reads u q ↔ (n : ℚ) = q := by
  rw [reads_of_asNumber rfl hn, value_ofInt]

/-- A decimal is read as its value. -/
theorem reads_decimal (hd : d.inRange = true) : (Given.decimal d).Reads u q ↔ d.value = q :=
  reads_of_asNumber rfl hd

/-- A text is read as the number that is written, whatever blanks surround it. -/
theorem reads_numeral (hu : u.Lawful) {n : Numeral} (hn : n.decimal.inRange = true) {text : String}
    (htext : strip u text = String.ofList n.text) :
    (Given.cell (.str text)).Reads u q ↔ n.value = q := by
  have hne : String.ofList n.text ≠ "" := by
    intro hempty
    have hparse := parse_text u hn
    rw [hempty] at hparse
    cases hparse
  have hread : (Given.cell (.str text)).asNumber u = some n.decimal := by
    change asNumber u (.str text) = _
    rw [← asNumber_strip, htext,
      asNumber_str hu (fun c hc => isNumberChar_text (String.toList_ofList ▸ hc)) hne]
    exact parse_text u hn
  rw [reads_of_asNumber hread hn, value_decimal]

end Reads

/-! ## One key for each number -/

section Keys

variable {u : Unicode} {value : Given} {d : Decimal} {text : String}

theorem listKey_given (h : value.asNumber u = some d) : value.listKey u = numberKey d := by
  cases value with
  | cell c => exact listKey_number h
  | decimal d' => exact congrArg numberKey (Option.some.inj h)

/-- A text that is no number has no number's key. -/
theorem listKey_ne_numberKey (hu : u.Lawful) (h : asNumber u (.str text) = none)
    (hd : d.inRange = true) : listKey u (.str text) ≠ numberKey d := by
  intro hkey
  rw [listKey_text h] at hkey
  have hsome := isSome_of_casefold hu (strip_strip u text) hd hkey
  rw [asNumber_strip, h] at hsome
  cases hsome

end Keys

/-- `list_key` is a canonical form of numbers, and no key of a number is a text's. -/
structure CanonicalKey (u : Unicode) : Prop where
  number : ∀ {a b : Given} {x y : ℚ}, a.Reads u x → b.Reads u y →
    (a.listKey u = b.listKey u ↔ x = y)
  text : ∀ {s : String} {b : Given} {y : ℚ}, asNumber u (.str s) = none → b.Reads u y →
    (Given.cell (.str s)).listKey u ≠ b.listKey u

theorem canonicalKey {u : Unicode} (hu : u.Lawful) : CanonicalKey u where
  number := by
    rintro a b x y ⟨d, hd, hrange, rfl⟩ ⟨d', hd', hrange', rfl⟩
    rw [listKey_given hd, listKey_given hd']
    exact numberKey_eq_iff hrange hrange'
  text := by
    rintro s b y h ⟨d, hd, hrange, rfl⟩
    rw [listKey_given hd]
    exact listKey_ne_numberKey hu h hrange

namespace Sample

/-- `" +02.00E0"` -/
def two : Numeral where
  sign := .plus
  whole := ['0', '2']
  fraction := some ['0', '0']
  power := some ⟨'E', .none, ['0'], .inr rfl, by decide, List.all_eq_true.mp rfl⟩
  ne_nil := by decide
  isDigit := List.all_eq_true.mp rfl

theorem canonicalKey_two :
    Unicode.ascii.Lawful ∧ CanonicalKey .ascii ∧
      (Given.cell (.str " +02.00E0")).listKey .ascii =
        (Given.decimal ⟨false, 2, 0⟩).listKey .ascii ∧
      (Given.cell (.str " +02.00E0")).listKey .ascii ≠ (Given.cell (.int (-2))).listKey .ascii ∧
      (Given.cell (.str "two")).listKey .ascii ≠ (Given.cell (.int 2)).listKey .ascii := by
  have hcanonical := canonicalKey lawful_ascii
  have hvalue : two.value = 2 := by
    have hwhole : Decimal.digitsValue ['0', '2'] = 2 := by decide
    have hzeros : Decimal.digitsValue ['0', '0'] = 0 := by decide
    have hzero : Decimal.digitsValue ['0'] = 0 := by decide
    norm_num [Numeral.value, two, hwhole, hzeros, hzero, Numeral.exponent, Power.value, Sign.neg]
  have hdecimal : (⟨false, 2, 0⟩ : Decimal).value = 2 := by
    norm_num [Decimal.value, Scientific.value, Decimal.signed]
  have htwo : (Given.cell (.str " +02.00E0")).Reads .ascii 2 :=
    (reads_numeral lawful_ascii (n := two) (by decide) (by decide)).mpr hvalue
  refine ⟨lawful_ascii, hcanonical, ?_, ?_, ?_⟩
  · exact (hcanonical.number htwo ((reads_decimal (by decide)).mpr hdecimal)).mpr rfl
  · rw [ne_eq, hcanonical.number htwo ((reads_int (by decide)).mpr rfl)]
    norm_num
  · exact hcanonical.text (by decide) ((reads_int (by decide)).mpr rfl)

end Sample

end FraudAnalyzer.Lists
