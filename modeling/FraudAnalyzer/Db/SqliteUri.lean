import FraudAnalyzer.Lib.Percent

/-!
# SQLite URI filenames

How SQLite reads a `file:` URI when a database is opened: the path ends at the first `?` or `#`,
the query ends at `#` and is split on `&`, escapes are decoded, and a `mode` parameter sets how the
file is opened. Without one the flags of the caller stand, which for the driver are
read-write-create; a parameter may only restrict them.
-/

namespace FraudAnalyzer.Db

open Percent

/-- How a database file is opened. -/
inductive Access where
  | ro
  | rw
  | rwc
  | memory
  deriving DecidableEq, Repr

namespace Access

/-- The open flags of the access: read-only 1, read-write 2, create 4, memory 128. -/
def flags : Access → Nat
  | ro => 1
  | rw => 2
  | rwc => 6
  | memory => 128

/-- The access a `mode` value names. -/
def ofMode (value : Bytes) : Option Access :=
  if value = bytes "ro" then some ro
  else if value = bytes "rw" then some rw
  else if value = bytes "rwc" then some rwc
  else if value = bytes "memory" then some memory
  else none

/-- A `mode` value applied to the access so far: an error when it is unknown or grants more. -/
def restrict (current : Access) (value : Bytes) : Option Access :=
  match ofMode value with
  | some memory => some memory
  | some access => if access.flags ≤ current.flags then some access else none
  | none => none

end Access

/-- What SQLite is asked to open. -/
structure SqliteTarget where
  file : Bytes
  access : Access
  deriving DecidableEq

def questionMark : UInt8 := 0x3f
def numberSign : UInt8 := 0x23
def ampersand : UInt8 := 0x26
def equalsSign : UInt8 := 0x3d
def slash : UInt8 := 0x2f

/-- A byte of the path part of a URI. -/
def isPathByte (b : UInt8) : Bool := b != questionMark && b != numberSign

/-- The query: what stands between the first `?` and the `#`, if the path ends at a `?`. -/
def queryOf (afterPath : Bytes) : Bytes :=
  match afterPath with
  | b :: rest => if b = questionMark then rest.takeWhile (· != numberSign) else []
  | [] => []

/-- A parameter: its name up to the first `=`, and its value. -/
def parameter (text : Bytes) : Bytes × Bytes :=
  (decode (text.takeWhile (· != equalsSign)), decode ((text.dropWhile (· != equalsSign)).drop 1))

/-- The access the parameters leave, from left to right. -/
def accessOf (current : Access) : List (Bytes × Bytes) → Option Access
  | [] => some current
  | (name, value) :: rest =>
    if name = bytes "mode" then (current.restrict value).bind fun access => accessOf access rest
    else accessOf current rest

/-- The text after the authority, which is empty or `localhost`. -/
def withoutAuthority (text : Bytes) : Option Bytes :=
  match text with
  | a :: b :: rest =>
    if a = slash ∧ b = slash then
      let authority := rest.takeWhile (· != slash)
      if authority = [] ∨ authority = bytes "localhost" then some (rest.dropWhile (· != slash))
      else none
    else some text
  | _ => some text

/-- The scheme of a URI filename. -/
def fileScheme : Bytes := bytes "file:"

/-- Read a URI filename; `none` when SQLite refuses it. -/
def readUri (uri : Bytes) : Option SqliteTarget :=
  if fileScheme.isPrefixOf uri then
    (withoutAuthority (uri.drop fileScheme.length)).bind fun text =>
      let path := text.takeWhile isPathByte
      let parameters := ((queryOf (text.dropWhile isPathByte)).splitOn ampersand).map parameter
      (accessOf .rwc parameters).map fun access => ⟨decode path, access⟩
  else none

end FraudAnalyzer.Db
