import FraudAnalyzer.Lib.Comprehension
import FraudAnalyzer.Queries.Execution
import Mathlib.Algebra.Group.Int.Defs

/-!
# Coercing driver values

`to_jsonable`, from the values a driver returns to those the encoder takes, and the two places that
encode what it returns: the size check of `execute_sql` and `canonical_hash`. The encoder takes less
than Python can hold: integers of 64 bits and texts without surrogates. `to_jsonable` lets both
through as they are. The size check is inside `read_only_connection`, so a row that the encoder
refuses is a failed query, of which no row is shown.
-/

namespace FraudAnalyzer.Queries.Coercion

/-! ## Driver values -/

/-- A Python `str`: code points, surrogates among them. -/
abbrev PyStr := List (Fin 0x110000)

namespace PyStr

def ofChar (c : Char) : Fin 0x110000 where
  val := c.toNat
  isLt := by
    have hvalid : c.toNat < 0xD800 ∨ 0xDFFF < c.toNat ∧ c.toNat < 0x110000 := c.valid
    omega

def ofString (s : String) : PyStr := s.toList.map ofChar

/-- The text has a UTF-8 encoding. -/
def isValid (s : PyStr) : Bool := s.all fun c => c.val < 0xD800 || 0xDFFF < c.val

end PyStr

inductive DriverFloat where
  | finite (x : PyFloat)
  | infinity (negative : Bool)
  | nan

/-- A key of a dict; one that is no text is known by its `str`. -/
inductive Key where
  | str (s : PyStr)
  | other (text : PyStr)
  deriving DecidableEq

/-- `str(k)` -/
def Key.text : Key → PyStr
  | .str s | .other s => s

/-- A value that the code only asks for its text is known by that text. -/
inductive Value where
  | none
  | bool (b : Bool)
  | int (n : Int)
  | float (x : DriverFloat)
  | str (s : PyStr)
  | decimal (text : String)
  | datetime (isoformat : String)
  | date (isoformat : String)
  | time (isoformat : String)
  | uuid (text : String)
  | bytes (data : List UInt8)
  | list (items : List Value)
  | tuple (items : List Value)
  | dict (entries : List (Key × Value))

/-- The digit of six bits in base 64. -/
def b64Char (n : Nat) : Char :=
  if n < 26 then Char.ofNat ('A'.toNat + n)
  else if n < 52 then Char.ofNat ('a'.toNat + (n - 26))
  else if n < 62 then Char.ofNat ('0'.toNat + (n - 52))
  else if n = 62 then '+'
  else '/'

/-- `base64.b64encode` -/
def b64encode : List UInt8 → List Char
  | [] => []
  | [a] => [b64Char (a.toNat / 4), b64Char (a.toNat % 4 * 16), '=', '=']
  | [a, b] =>
    [b64Char (a.toNat / 4), b64Char (a.toNat % 4 * 16 + b.toNat / 16), b64Char (b.toNat % 16 * 4),
      '=']
  | a :: b :: c :: rest =>
    b64Char (a.toNat / 4) :: b64Char (a.toNat % 4 * 16 + b.toNat / 16) ::
      b64Char (b.toNat % 16 * 4 + c.toNat / 64) :: b64Char (c.toNat % 64) :: b64encode rest

namespace Value

/-- A dict whose keys are texts. -/
def ofDict (d : OrderedDict PyStr Value) : Value := dict (d.entries.map fun e => (.str e.1, e.2))

mutual

/-- `to_jsonable` -/
def toJsonable : Value → Value
  | none => none
  | str s => str s
  | bool b => bool b
  | int n => int n
  | float (.finite x) => float (.finite x)
  | float (.infinity _) | float .nan => none
  | decimal text | datetime text | date text | time text | uuid text => str (.ofString text)
  | bytes data => str ((b64encode data).map PyStr.ofChar)
  | list items | tuple items => list (toJsonableItems items)
  | dict entries => ofDict (.ofPairs (toJsonableEntries entries))

def toJsonableItems : List Value → List Value
  | [] => []
  | v :: vs => toJsonable v :: toJsonableItems vs

/-- The pairs of the comprehension. -/
def toJsonableEntries : List (Key × Value) → List (PyStr × Value)
  | [] => []
  | (k, v) :: entries => (k.text, toJsonable v) :: toJsonableEntries entries

end

/-! ## The encoder's domain -/

def inRange (n : Int) : Bool := -2 ^ 63 ≤ n ∧ n < 2 ^ 64

/-- A key the encoder takes. -/
def validKey : Key → Bool
  | .str s => s.isValid
  | .other _ => false

mutual

/-- A value the encoder takes. -/
def encodable : Value → Bool
  | none | bool _ => true
  | int n => inRange n
  | float (.finite _) => true
  | float (.infinity _) | float .nan => false
  | str s => s.isValid
  | decimal _ | datetime _ | date _ | time _ | uuid _ | bytes _ | tuple _ => false
  | list items => encodableItems items
  | dict entries => encodableEntries entries

def encodableItems : List Value → Bool
  | [] => true
  | v :: vs => encodable v && encodableItems vs

def encodableEntries : List (Key × Value) → Bool
  | [] => true
  | (k, v) :: entries => validKey k && encodable v && encodableEntries entries

end

mutual

/-- The integers of the value have 64 bits and its texts no surrogates; an entry does not count when
another one comes with the same text for its key. -/
def fits : Value → Bool
  | int n => inRange n
  | str s => s.isValid
  | none | bool _ | float _ | decimal _ | datetime _ | date _ | time _ | uuid _ | bytes _ => true
  | list items | tuple items => fitsItems items
  | dict entries => fitsEntries entries

def fitsItems : List Value → Bool
  | [] => true
  | v :: vs => fits v && fitsItems vs

def fitsEntries : List (Key × Value) → Bool
  | [] => true
  | (k, v) :: entries =>
    (entries.any (fun e => e.1.text = k.text) || k.text.isValid && fits v) && fitsEntries entries

end

/-! ## What `to_jsonable` returns -/

mutual

/-- A value of the types `to_jsonable` returns, with distinct keys in its dicts. -/
def Plain : Value → Prop
  | none | bool _ | int _ | float (.finite _) | str _ => True
  | float (.infinity _) | float .nan => False
  | decimal _ | datetime _ | date _ | time _ | uuid _ | bytes _ | tuple _ => False
  | list items => PlainItems items
  | dict entries => PlainEntries entries ∧ (entries.map fun e => e.1.text).Nodup

def PlainItems : List Value → Prop
  | [] => True
  | v :: vs => Plain v ∧ PlainItems vs

def PlainEntries : List (Key × Value) → Prop
  | [] => True
  | (k, v) :: entries => (k = .str k.text ∧ Plain v) ∧ PlainEntries entries

end

theorem plainEntries_iff (entries : List (Key × Value)) :
    PlainEntries entries ↔ ∀ e ∈ entries, e.1 = .str e.1.text ∧ Plain e.2 := by
  induction entries with
  | nil => exact iff_of_true trivial fun _ h => nomatch h
  | cons e entries ih => rw [PlainEntries, ih, List.forall_mem_cons]

theorem encodableEntries_eq_all (entries : List (Key × Value)) :
    encodableEntries entries = entries.all fun e => validKey e.1 && encodable e.2 := by
  induction entries with
  | nil => rfl
  | cons e entries ih => rw [encodableEntries, ih, List.all_cons]

theorem plain_ofDict {d : OrderedDict PyStr Value} (h : ∀ e ∈ d.entries, Plain e.2) :
    Plain (ofDict d) := by
  rw [ofDict, Plain, plainEntries_iff, List.forall_mem_map, List.map_map]
  exact ⟨fun e he => ⟨rfl, h e he⟩, d.nodup⟩

theorem encodable_ofDict (d : OrderedDict PyStr Value) :
    (ofDict d).encodable = d.entries.all fun e => e.1.isValid && encodable e.2 := by
  rw [ofDict, encodable, encodableEntries_eq_all, List.all_map]
  rfl

mutual

theorem plain_toJsonable : ∀ v : Value, Plain (toJsonable v)
  | none | bool _ | int _ | str _ | float (.finite _) => trivial
  | float (.infinity _) | float .nan => trivial
  | decimal _ | datetime _ | date _ | time _ | uuid _ | bytes _ => trivial
  | list items | tuple items => by
    rw [toJsonable, Plain]
    exact plainItems_toJsonable items
  | dict entries => by
    rw [toJsonable]
    exact plain_ofDict fun e he =>
      plainEntries_toJsonable entries e (OrderedDict.mem_of_mem_ofPairs he)

theorem plainItems_toJsonable : ∀ items : List Value, PlainItems (toJsonableItems items)
  | [] => trivial
  | v :: vs => ⟨plain_toJsonable v, plainItems_toJsonable vs⟩

theorem plainEntries_toJsonable :
    ∀ entries : List (Key × Value), ∀ e ∈ toJsonableEntries entries, Plain e.2
  | [], _, h => nomatch h
  | (k, v) :: entries, e, h => by
    rw [toJsonableEntries] at h
    rcases List.mem_cons.mp h with rfl | hrest
    · exact plain_toJsonable v
    · exact plainEntries_toJsonable entries e hrest

end

mutual

/-- A plain value is returned as it is. -/
theorem toJsonable_of_plain : ∀ v : Value, Plain v → toJsonable v = v
  | none, _ | bool _, _ | int _, _ | str _, _ | float (.finite _), _ => by rw [toJsonable]
  | list items, h => by
    rw [Plain] at h
    rw [toJsonable, toJsonableItems_of_plain items h]
  | dict entries, h => by
    rw [Plain] at h
    obtain ⟨hplain, hkeys⟩ := h
    have hpairs := toJsonableEntries_of_plain entries hplain
    have hnodup : ((toJsonableEntries entries).map Prod.fst).Nodup := by
      rw [hpairs.1]
      exact hkeys
    rw [toJsonable, ofDict, OrderedDict.entries_ofPairs hnodup, hpairs.2]

theorem toJsonableItems_of_plain :
    ∀ items : List Value, PlainItems items → toJsonableItems items = items
  | [], _ => by rw [toJsonableItems]
  | v :: vs, h => by
    rw [PlainItems] at h
    rw [toJsonableItems, toJsonable_of_plain v h.1, toJsonableItems_of_plain vs h.2]

theorem toJsonableEntries_of_plain : ∀ entries : List (Key × Value), PlainEntries entries →
    (toJsonableEntries entries).map Prod.fst = entries.map (fun e => e.1.text) ∧
      (toJsonableEntries entries).map (fun e => (Key.str e.1, e.2)) = entries
  | [], _ => ⟨rfl, rfl⟩
  | (k, v) :: entries, h => by
    rw [PlainEntries] at h
    obtain ⟨⟨hkey, hv⟩, hentries⟩ := h
    obtain ⟨hkeys, hsame⟩ := toJsonableEntries_of_plain entries hentries
    rw [toJsonableEntries, List.map_cons, List.map_cons, List.map_cons, hkeys, hsame,
      toJsonable_of_plain v hv, ← hkey]
    exact ⟨rfl, rfl⟩

end

/-- `to_jsonable` is idempotent. -/
theorem toJsonable_toJsonable (v : Value) : toJsonable (toJsonable v) = toJsonable v :=
  toJsonable_of_plain _ (plain_toJsonable v)

/-! ## What of it the encoder takes -/

theorem isValid_map_ofChar (cs : List Char) : PyStr.isValid (cs.map PyStr.ofChar) = true := by
  rw [PyStr.isValid, List.all_map, List.all_eq_true]
  intro c _
  have hvalid : c.toNat < 0xD800 ∨ 0xDFFF < c.toNat ∧ c.toNat < 0x110000 := c.valid
  rw [Function.comp_apply, Bool.or_eq_true, decide_eq_true_iff, decide_eq_true_iff]
  exact hvalid.imp_right And.left

theorem any_toJsonableEntries (k : PyStr) (entries : List (Key × Value)) :
    (toJsonableEntries entries).any (fun e => e.1 = k) = entries.any fun e => e.1.text = k := by
  induction entries with
  | nil => rfl
  | cons e entries ih => rw [toJsonableEntries, List.any_cons, List.any_cons, ih]

mutual

/-- The encoder takes what is returned for a value that fits. -/
theorem encodable_toJsonable : ∀ v : Value, (toJsonable v).encodable = v.fits
  | none | bool _ | int _ | str _ | float (.finite _) => by rw [toJsonable, encodable, fits]
  | float (.infinity _) | float .nan => by rw [toJsonable, encodable, fits]
  | decimal _ | datetime _ | date _ | time _ | uuid _ => by
    rw [toJsonable, encodable, fits]
    exact isValid_map_ofChar _
  | bytes _ => by
    rw [toJsonable, encodable, fits]
    exact isValid_map_ofChar _
  | list items | tuple items => by
    rw [toJsonable, encodable, fits]
    exact encodableItems_toJsonable items
  | dict entries => by
    rw [toJsonable, encodable_ofDict, OrderedDict.all_entries_ofPairs, fits]
    exact allLast_toJsonable entries

theorem encodableItems_toJsonable :
    ∀ items : List Value, encodableItems (toJsonableItems items) = fitsItems items
  | [] => by rw [toJsonableItems, encodableItems, fitsItems]
  | v :: vs => by
    rw [toJsonableItems, encodableItems, fitsItems, encodable_toJsonable v,
      encodableItems_toJsonable vs]

theorem allLast_toJsonable : ∀ entries : List (Key × Value),
    OrderedDict.allLast (fun e => e.1.isValid && encodable e.2) (toJsonableEntries entries) =
      fitsEntries entries
  | [] => by rw [toJsonableEntries, OrderedDict.allLast, fitsEntries]
  | (k, v) :: entries => by
    rw [toJsonableEntries, OrderedDict.allLast, fitsEntries, any_toJsonableEntries,
      encodable_toJsonable v, allLast_toJsonable entries]

end

end Value

/-! ## Encoding a result -/

/-- `orjson.dumps`, with `OPT_SORT_KEYS` or without: it takes the values of its domain and raises on
others. -/
structure Encoder (X : Type) where
  dumps (sortKeys : Bool) (v : Value) : Except X ByteArray
  takes : ∀ sortKeys v, (∃ bytes, dumps sortKeys v = .ok bytes) ↔ v.encodable = true

/-- The loop of `execute_sql`: the rows are coerced and measured one after another, with the bytes
and the number of rows so far. -/
def coerceRows {X : Type} (encoder : Encoder X) (budget : Int) :
    List (List Value) → Nat → Nat → Except (Raised X) (List (List Value))
  | [], _, _ => .ok []
  | row :: rows, used, returned =>
    let coerced := row.map Value.toJsonable
    match encoder.dumps false (.list coerced) with
    | .error error => .error (.other error)
    | .ok bytes =>
      if budget < (used + bytes.size : Nat) then .error (.appError (resultTooLarge budget returned))
      else (coerceRows encoder budget rows (used + bytes.size) (returned + 1)).map (coerced :: ·)

/-- `execute_sql` from its loop on. The loop is in the block of `read_only_connection`, which
translates what it raises; `translate` is `translate_db_error`. -/
def executeRows {X : Type} (encoder : Encoder X) (translate : X → AppError) (budget : Int)
    (rows : List (List Value)) : Except AppError (List (List Value)) :=
  (coerceRows encoder budget rows 0 0).mapError (Raised.translate translate)

/-- What `canonical_hash` encodes; the flags are those of the rules, and the names of the columns
are texts of the statement. -/
def hashedValue (columns : List String) (rows : List (List Value))
    (flags : Option { v : Value // v.encodable = true }) : Value :=
  .dict
    [(.str (.ofString "columns"), .list (columns.map fun c => .str (.ofString c))),
      (.str (.ofString "rows"), .list (rows.map .list)),
      (.str (.ofString "flags"), (flags.map Subtype.val).getD (.dict []))]

/-- `canonical_hash` -/
def canonicalHash {X : Type} (encoder : Encoder X) (sha256Hex : Sha256Hex) (columns : List String)
    (rows : List (List Value)) (flags : Option { v : Value // v.encodable = true }) :
    Except X String :=
  (encoder.dumps true (hashedValue columns rows flags)).map
    fun bytes => "sha256:" ++ sha256Hex bytes

/-- What `run_saved_query` encodes of a result: the rows in `execute_sql`, then the payload in
`canonical_hash`, where nothing is translated. -/
def encodeRun {X : Type} (encoder : Encoder X) (translate : X → AppError) (sha256Hex : Sha256Hex)
    (budget : Int) (columns : List String) (rows : List (List Value))
    (flags : Option { v : Value // v.encodable = true }) :
    Except (Raised X) (List (List Value) × String) :=
  match executeRows encoder translate budget rows with
  | .error error => .error (.appError error)
  | .ok coerced =>
    match canonicalHash encoder sha256Hex columns coerced flags with
    | .error error => .error (.other error)
    | .ok hash => .ok (coerced, hash)

/-- A result is coerced into what the encoder takes. -/
structure Encodes {X : Type} (encoder : Encoder X) (translate : X → AppError)
    (sha256Hex : Sha256Hex) (budget : Int) (columns : List String) (rows : List (List Value))
    (flags : Option { v : Value // v.encodable = true }) : Prop where
  inDomain : ∀ row ∈ rows, ∀ v ∈ row, v.toJsonable.encodable = true
  idempotent : ∀ row ∈ rows, ∀ v ∈ row, v.toJsonable.toJsonable = v.toJsonable
  /-- The size check itself raises nothing but that the result is too large. -/
  sizeCheck : ∀ error, coerceRows encoder budget rows 0 0 ≠ .error (.other error)
  /-- Nor does a query fail for another reason once its rows are fetched. -/
  executes : ∀ error, executeRows encoder translate budget rows = .error error →
    ∃ returned, error = resultTooLarge budget returned
  hashes : ∀ coerced, executeRows encoder translate budget rows = .ok coerced →
    ∃ hash, canonicalHash encoder sha256Hex columns coerced flags = .ok hash

section Results

variable {X : Type} {encoder : Encoder X} {translate : X → AppError} {sha256Hex : Sha256Hex}
  {budget : Int} {columns : List String} {rows coerced : List (List Value)}
  {flags : Option { v : Value // v.encodable = true }} {used returned : Nat}

open Value

theorem encodableItems_iff (items : List Value) :
    encodableItems items = true ↔ ∀ v ∈ items, v.encodable = true := by
  induction items with
  | nil => exact iff_of_true rfl fun _ h => nomatch h
  | cons v vs ih => rw [encodableItems, Bool.and_eq_true, ih, List.forall_mem_cons]

/-- A row of coerced values is taken when each of them is. -/
theorem dumps_row {row : List Value} (h : ∀ v ∈ row, v.fits = true) :
    ∃ bytes, encoder.dumps false (.list (row.map toJsonable)) = .ok bytes := by
  rw [encoder.takes, encodable, encodableItems_iff, List.forall_mem_map]
  intro v hv
  rw [encodable_toJsonable]
  exact h v hv

/-- No row of values that fit stops the loop with anything but the budget. -/
theorem coerceRows_ne_other (h : ∀ row ∈ rows, ∀ v ∈ row, v.fits = true) (error : X) :
    coerceRows encoder budget rows used returned ≠ .error (.other error) := by
  induction rows generalizing used returned with
  | nil => exact nofun
  | cons row rows ih =>
    rw [List.forall_mem_cons] at h
    obtain ⟨bytes, hbytes⟩ :
        ∃ bytes, encoder.dumps false (.list (row.map toJsonable)) = .ok bytes :=
      dumps_row h.1
    simp only [coerceRows, hbytes]
    split
    · exact nofun
    · have hrest : coerceRows encoder budget rows (used + bytes.size) (returned + 1) ≠
          .error (.other error) := ih h.2
      cases hrows : coerceRows encoder budget rows (used + bytes.size) (returned + 1) with
      | ok rest => exact nofun
      | error raised =>
        rw [hrows] at hrest
        exact hrest

/-- The loop raises that the result is too large, or what the encoder raises. -/
theorem coerceRows_error {raised : Raised X}
    (h : coerceRows encoder budget rows used returned = .error raised) :
    (∃ shown, raised = .appError (resultTooLarge budget shown)) ∨
      ∃ error, raised = .other error := by
  induction rows generalizing used returned with
  | nil => cases h
  | cons row rows ih =>
    simp only [coerceRows] at h
    split at h
    next error _ =>
      cases h
      exact .inr ⟨error, rfl⟩
    next bytes _ =>
      split at h
      · cases h
        exact .inl ⟨returned, rfl⟩
      · cases hrows : coerceRows encoder budget rows (used + bytes.size) (returned + 1) with
        | ok rest =>
          rw [hrows] at h
          cases h
        | error _ =>
          rw [hrows] at h
          cases h
          exact ih hrows

/-- The encoder has taken every row that the loop returns. -/
theorem encodable_of_coerceRows (h : coerceRows encoder budget rows used returned = .ok coerced) :
    ∀ row ∈ coerced, ∀ v ∈ row, v.encodable = true := by
  induction rows generalizing used returned coerced with
  | nil =>
    cases h
    exact fun _ hrow => nomatch hrow
  | cons row rows ih =>
    simp only [coerceRows] at h
    split at h
    · cases h
    next bytes hbytes =>
      split at h
      · cases h
      · obtain ⟨rest, hrows, rfl⟩ := map_eq_ok.mp h
        have hrow : encodable (.list (row.map toJsonable)) = true :=
          (encoder.takes false _).mp ⟨bytes, hbytes⟩
        rw [encodable, encodableItems_iff] at hrow
        exact List.forall_mem_cons.mpr ⟨hrow, ih hrows⟩

/-- The translation of errors changes no result. -/
theorem executeRows_eq_ok :
    executeRows encoder translate budget rows = .ok coerced ↔
      coerceRows encoder budget rows 0 0 = .ok coerced := by
  unfold executeRows
  cases coerceRows encoder budget rows 0 0 with
  | ok _ => exact ⟨fun h => congrArg _ (Except.ok.inj h), fun h => congrArg _ (Except.ok.inj h)⟩
  | error _ => exact iff_of_false nofun nofun

/-- A query whose rows fit fails only for their size. -/
theorem executeRows_error (h : ∀ row ∈ rows, ∀ v ∈ row, v.fits = true) {error : AppError}
    (herror : executeRows encoder translate budget rows = .error error) :
    ∃ returned, error = resultTooLarge budget returned := by
  unfold executeRows at herror
  cases hrows : coerceRows encoder budget rows 0 0 with
  | ok _ =>
    rw [hrows] at herror
    cases herror
  | error raised =>
    rw [hrows] at herror
    obtain rfl := Except.error.inj herror
    rcases coerceRows_error hrows with ⟨returned, rfl⟩ | ⟨other, rfl⟩
    · exact ⟨returned, rfl⟩
    · exact absurd hrows (coerceRows_ne_other h other)

/-- The hashed value is taken when the rows are. -/
theorem encodable_hashedValue {columns : List String}
    {flags : Option { v : Value // v.encodable = true }}
    (h : ∀ row ∈ coerced, ∀ v ∈ row, v.encodable = true) :
    (hashedValue columns coerced flags).encodable = true := by
  have hkey (s : String) : validKey (.str (.ofString s)) = true := isValid_map_ofChar _
  have hcolumns : encodable (.list (columns.map fun c => .str (.ofString c))) = true := by
    rw [encodable, encodableItems_iff, List.forall_mem_map]
    exact fun c _ => isValid_map_ofChar _
  have hrows : encodable (.list (coerced.map .list)) = true := by
    rw [encodable, encodableItems_iff, List.forall_mem_map]
    exact fun row hrow => (encodableItems_iff row).mpr (h row hrow)
  have hflags : encodable ((flags.map Subtype.val).getD (.dict [])) = true := by
    cases flags with
    | none => rfl
    | some flags => exact flags.property
  rw [hashedValue, encodable, encodableEntries_eq_all, List.all_cons, List.all_cons, List.all_cons,
    hkey, hkey, hkey, hcolumns, hrows, hflags]
  rfl

/-- What `execute_sql` returns is hashed. -/
theorem canonicalHash_of_executeRows
    (h : executeRows encoder translate budget rows = .ok coerced) :
    ∃ hash, canonicalHash encoder sha256Hex columns coerced flags = .ok hash := by
  have hrows : ∀ row ∈ coerced, ∀ v ∈ row, v.encodable = true :=
    encodable_of_coerceRows (executeRows_eq_ok.mp h)
  obtain ⟨bytes, hbytes⟩ := (encoder.takes true _).mpr (encodable_hashedValue hrows)
  exact ⟨_, by rw [canonicalHash, hbytes]; rfl⟩

/-- A value that the encoder refuses fails the query with an `AppError`: the size check has met it
before `canonical_hash` could. -/
theorem encodeRun_ne_other (error : X) :
    encodeRun encoder translate sha256Hex budget columns rows flags ≠ .error (.other error) := by
  unfold encodeRun
  cases hrows : executeRows encoder translate budget rows with
  | error _ => exact nofun
  | ok coerced =>
    obtain ⟨hash, hhash⟩ :
        ∃ hash, canonicalHash encoder sha256Hex columns coerced flags = .ok hash :=
      canonicalHash_of_executeRows hrows
    simp only [hhash]
    exact nofun

/-- **Results are coerced into what the encoder takes** exactly when their integers have 64 bits and
their texts no surrogates, at any depth. -/
theorem encodes_iff (encoder : Encoder X) (translate : X → AppError) (sha256Hex : Sha256Hex)
    (budget : Int) (columns : List String) (rows : List (List Value))
    (flags : Option { v : Value // v.encodable = true }) :
    Encodes encoder translate sha256Hex budget columns rows flags ↔
      ∀ row ∈ rows, ∀ v ∈ row, v.fits = true := by
  constructor
  · intro h row hrow v hv
    rw [← encodable_toJsonable]
    exact h.inDomain row hrow v hv
  · intro h
    refine ⟨fun row hrow v hv => ?_, fun row _ v _ => toJsonable_toJsonable v,
      coerceRows_ne_other h, fun error => executeRows_error h,
      fun coerced => canonicalHash_of_executeRows⟩
    rw [encodable_toJsonable]
    exact h row hrow v hv

end Results

section Example

mutual

/-- A value of the encoder's domain as a document. -/
def Value.json : Value → Json
  | .bool b => .bool b
  | .int n => .ofInt n
  | .float (.finite x) => x.json
  | .str s => .str (String.ofList (s.map fun c => Char.ofNat c.val))
  | .list items => .arr (jsonItems items)
  | .dict entries => .obj (jsonEntries entries)
  | _ => .null

def Value.jsonItems : List Value → List Json
  | [] => []
  | v :: vs => v.json :: jsonItems vs

def Value.jsonEntries : List (Key × Value) → List (String × Json)
  | [] => []
  | (k, v) :: entries =>
    (String.ofList (k.text.map fun c => Char.ofNat c.val), v.json) :: jsonEntries entries

end

/-- The encoder on what it takes. -/
def compactEncoder : Encoder String where
  dumps sortKeys v :=
    if v.encodable then
      .ok (String.ofList (if sortKeys then v.json.sortKeys else v.json).write).toUTF8
    else .error "Integer exceeds 64-bit range"
  takes sortKeys v := by
    split
    next h => exact iff_of_true ⟨_, rfl⟩ h
    next h => exact iff_of_false nofun h

/-- What `translate_db_error` makes of an exception it knows nothing else about. -/
def queryExecutionError (message : String) : AppError := ⟨.queryExecutionError, message, []⟩

/-- A JSON column with an integer of 65 bits is not encoded, and the query fails. -/
theorem wide_integer_raises :
    coerceRows compactEncoder 1000 [[.dict [(.str (.ofString "n"), .int (2 ^ 64))]]] 0 0 =
        .error (.other "Integer exceeds 64-bit range") ∧
      executeRows compactEncoder queryExecutionError 1000
          [[.dict [(.str (.ofString "n"), .int (2 ^ 64))]]] =
        .error (queryExecutionError "Integer exceeds 64-bit range") ∧
      ¬ Encodes compactEncoder queryExecutionError bytesDigest 1000 ["payload"]
        [[.dict [(.str (.ofString "n"), .int (2 ^ 64))]]] none := by
  have hraises : coerceRows compactEncoder 1000
      [[.dict [(.str (.ofString "n"), .int (2 ^ 64))]]] 0 0 =
        .error (.other "Integer exceeds 64-bit range") := by rfl
  exact ⟨hraises, congrArg (Except.mapError _) hraises, fun h => h.sizeCheck _ hraises⟩

end Example

end FraudAnalyzer.Queries.Coercion
