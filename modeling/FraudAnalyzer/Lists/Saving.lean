import FraudAnalyzer.Lib.Table
import FraudAnalyzer.Lists.Cleaning

/-!
# The checks of a save

A named list as it is stored, and what `create_list` and `update_list` of
`app/features/lists/service.py` check before they write: the name, the items, and that no other list
has the key of the name.
-/

namespace FraudAnalyzer.Lists

open Python

/-- `item_lists` with the values of `list_items`, in the order of their positions. -/
structure ItemList where
  id : String
  name : String
  nameKey : String
  version : Nat
  description : Option String
  createdBy : Option String
  items : List String
  deriving DecidableEq

/-- `ItemListWrite` -/
structure ItemListWrite where
  name : String
  description : Option String
  items : List String

structure Env where
  unicode : Unicode
  /-- `unicodedata.normalize("NFC", ..)` -/
  nfc : String → String
  maxListItems : Int

/-- `name_key` -/
def Env.nameKey (E : Env) (name : String) : String :=
  E.nfc (E.unicode.casefold (E.nfc (strip E.unicode name)))

/-- `_name_taken`, and what the unique constraint of `name_key` refuses. -/
def isNameTaken (lists : Table ItemList.id) (nameKey : String) (exceptId : Option String) : Bool :=
  lists.rows.any fun r => r.nameKey = nameKey && some r.id ≠ exceptId

/-- `_raise_name_taken` -/
def listNameTaken (u : Unicode) (name : String) : AppError :=
  ⟨.listNameTaken, s!"A list named {repr u name} already exists.", [("name", .str name)]⟩

/-- `(description or "").strip() or None` -/
def cleanDescription (u : Unicode) (description : Option String) : Option String :=
  let text := strip u (description.getD "")
  if text = "" then none else some text

/-- What a save writes, once it is checked, and how many items it was sent. -/
structure Save where
  name : String
  nameKey : String
  description : Option String
  values : List String
  received : Nat
  deriving DecidableEq

/-- The checks that `create_list` and `update_list` begin with. -/
def checkSave (E : Env) (lists : Table ItemList.id) (payload : ItemListWrite)
    (exceptId : Option String) : Except AppError Save :=
  let name := strip E.unicode payload.name
  if name = "" then .error ⟨.requestValidationError, "A list needs a name.", []⟩
  else match cleanItems E.unicode E.maxListItems payload.items with
    | .error e => .error e
    | .ok (values, received) =>
      if isNameTaken lists (E.nameKey name) exceptId then .error (listNameTaken E.unicode name)
      else .ok
        ⟨name, E.nameKey name, cleanDescription E.unicode payload.description, values, received⟩

end FraudAnalyzer.Lists
