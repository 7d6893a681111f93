import FraudAnalyzer.Python.Cell
import FraudAnalyzer.Python.Decimal

/-!
# List matching

The pure half of `app/features/lists/matching.py`: how a cell is read as a number or a boolean, the
key of an item or a cell, and membership. The member-set cache only remembers
`members_from_items`.
-/

namespace FraudAnalyzer.Lists

open Python

/-- `as_number`; a cell is never a `Decimal`, which `to_jsonable` has made a text. -/
def asNumber (u : Unicode) : Cell → Option Decimal
  | .int n => some (.ofInt n)
  | .float x => Decimal.parse u (String.ofList x.repr.chars)
  | .str s => if strip u s = "" then none else Decimal.parse u (strip u s)
  | _ => none

/-- `_TRUE_WORDS` -/
def trueWords : List String := ["true", "t", "yes", "y"]

/-- `_FALSE_WORDS` -/
def falseWords : List String := ["false", "f", "no", "n"]

/-- `as_bool` -/
def asBool (u : Unicode) : Cell → Option Bool
  | .bool b => some b
  | .int n => if n = 0 then some false else if n = 1 then some true else none
  | .str s =>
    let text := u.lower (strip u s)
    if text ∈ trueWords ∨ text = "1" then some true
    else if text ∈ falseWords ∨ text = "0" then some false
    else none
  | _ => none

/-- `is_bool_word` -/
def isBoolWord (u : Unicode) : Cell → Bool
  | .str s => decide (u.lower (strip u s) ∈ trueWords ++ falseWords)
  | _ => false

/-- The key of a number: its digits without trailing zeros, and the exponent that is left. -/
def numberKey (d : Decimal) : String :=
  let text := (d.digits.reverse.dropWhile (· = '0')).reverse
  if text = [] then "0"
  else
    let exponent := d.exp + (d.digits.length - text.length : Nat)
    (if d.neg then "-" else "") ++ String.ofList text ++
      (if exponent = 0 then "" else "e" ++ toString exponent)

/-- `list_key` -/
def listKey (u : Unicode) (value : Cell) : String :=
  match asNumber u value with
  | some number => numberKey number
  | none =>
    match value with
    | .none => ""
    | .bool b => if b then "true" else "false"
    | value => u.casefold (strip u (value.toStr u))

/-- A member of a list's set: a key, or what `_tokens` adds for boolean cells. -/
inductive Member where
  | key (text : String)
  | bool (b : Bool)
  | word (b : Option Bool)
  deriving DecidableEq

/-- `_tokens` -/
def tokens (u : Unicode) (item : String) : List Member :=
  let asFlag := asBool u (.str item)
  (asFlag.map Member.bool).toList ++ if isBoolWord u (.str item) then [.word asFlag] else []

/-- `members_from_items`; the set is a list, of which only membership is asked. -/
def membersFromItems (u : Unicode) (items : List String) : List Member :=
  items.flatMap fun item =>
    let key := listKey u (.str item)
    if key = "" then [] else .key key :: tokens u item

/-- `is_member` -/
def isMember (u : Unicode) (members : List Member) (cell : Cell) : Bool :=
  if .key (listKey u cell) ∈ members then true
  else
    match cell with
    | .bool b => decide (.bool b ∈ members)
    | cell => if isBoolWord u cell then decide (.word (asBool u cell) ∈ members) else false

end FraudAnalyzer.Lists
