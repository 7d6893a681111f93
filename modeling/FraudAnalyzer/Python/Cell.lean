import FraudAnalyzer.Charts.Models
import FraudAnalyzer.Python.Text

/-!
# Cells

A value of a result row after `to_jsonable`: what the flag rules read and what is hashed.
-/

namespace FraudAnalyzer.Python

inductive Cell where
  | none
  | bool (b : Bool)
  | int (n : Int)
  | float (x : PyFloat)
  | str (s : String)
  | list (items : List Cell)
  | dict (entries : List (String × Cell))

namespace Cell

/-- A text, or `None`. -/
def ofOption : Option String → Cell
  | Option.none => .none
  | some s => .str s

mutual

/-- `repr(value)` -/
def repr (u : Unicode) : Cell → String
  | none => "None"
  | bool true => "True"
  | bool false => "False"
  | int n => toString n
  | float x => String.ofList x.repr.chars
  | str s => Python.repr u s
  | list items => "[" ++ join ", " (reprItems u items) ++ "]"
  | dict entries => "\x7b" ++ join ", " (reprEntries u entries) ++ "\x7d"

def reprItems (u : Unicode) : List Cell → List String
  | [] => []
  | c :: cs => repr u c :: reprItems u cs

def reprEntries (u : Unicode) : List (String × Cell) → List String
  | [] => []
  | (k, c) :: cs => (Python.repr u k ++ ": " ++ repr u c) :: reprEntries u cs

end

/-- `str(value)` -/
def toStr (u : Unicode) : Cell → String
  | str s => s
  | c => c.repr u

mutual

/-- The value as a JSON document. -/
def json : Cell → Json
  | none => .null
  | bool b => .bool b
  | int n => .ofInt n
  | float x => x.json
  | str s => .str s
  | list items => .arr (jsonItems items)
  | dict entries => .obj (jsonEntries entries)

def jsonItems : List Cell → List Json
  | [] => []
  | c :: cs => json c :: jsonItems cs

def jsonEntries : List (String × Cell) → List (String × Json)
  | [] => []
  | (k, c) :: cs => (k, json c) :: jsonEntries cs

end

end Cell

/-- `repr` of a list of strings. -/
def reprList (u : Unicode) (names : List String) : String :=
  "[" ++ join ", " (names.map (repr u)) ++ "]"

end FraudAnalyzer.Python
