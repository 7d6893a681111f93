import FraudAnalyzer.Db.SqliteUri
import FraudAnalyzer.Security.SqlitePaths
import Mathlib.Data.List.TakeWhile

/-!
# Opening a sqlite target

`_sqlite_creator` resolves the stored path, and each connection opens
`file:{resolved}?mode=ro` as a URI. The path is put into the URI as it is. `opensValidated_iff` says
for which resolved paths the URI names that path, read-only.
-/

namespace FraudAnalyzer.Db

open Percent Security

/-- The query part of the URI. -/
def readOnlyQuery : Bytes := bytes "?mode=ro"

/-- `f"file:{resolved}?mode=ro"` -/
def sqliteUri (resolved : AbsolutePath) : Bytes := fileScheme ++ resolved.bytes ++ readOnlyQuery

/-- `_sqlite_creator`: the URI its connections open. -/
def sqliteCreator (env : SqlitePathEnv) (path : String) : Except PathFailure Bytes := do
  let resolved ← resolveSqlitePath env path
  return sqliteUri resolved

/-- What SQLite opens is the path that was validated, read-only; so it is in an allowed directory
and is not the application's database. -/
structure OpensValidated (env : SqlitePathEnv) (resolved : AbsolutePath) : Prop where
  opens : readUri (sqliteUri resolved) = some ⟨resolved.bytes, .ro⟩
  permitted : Permitted env resolved

/-- Nothing in the text means something in a URI: no `?`, no `#` and no escape. -/
structure UriPlain (text : Bytes) : Prop where
  no_question : questionMark ∉ text
  no_number : numberSign ∉ text
  no_escape : ¬ HasEscape text

section Reading

variable {text : Bytes}

/-- A resolved path has one slash at its front. -/
theorem bytes_eq_slash_cons (path : AbsolutePath) :
    ∃ tail, path.bytes = slash :: tail ∧ tail.head? ≠ some slash := by
  have hname : ∀ (n : FileName) (t : Bytes), (n.bytes ++ t).head? ≠ some slash := by
    intro n t h
    obtain ⟨hne, hslash, -⟩ := n.valid
    cases hn : n.bytes with
    | nil => exact hne hn
    | cons b bs =>
      obtain rfl : b = slash := by simpa [hn] using h
      exact hslash (hn ▸ List.mem_cons_self)
  match path with
  | [] => exact ⟨[], rfl, by simp⟩
  | [n] => exact ⟨n.bytes, rfl, by simpa using hname n []⟩
  | n :: m :: rest => exact ⟨n.bytes ++ AbsolutePath.bytes (m :: rest), rfl, hname n _⟩

/-- So no authority is read off it. -/
theorem withoutAuthority_bytes (path : AbsolutePath) :
    withoutAuthority (path.bytes ++ readOnlyQuery) = some (path.bytes ++ readOnlyQuery) := by
  obtain ⟨tail, htail, hhead⟩ := bytes_eq_slash_cons path
  rw [htail]
  cases tail with
  | nil => decide
  | cons b tail =>
    have hb : b ≠ slash := fun h => hhead (by rw [h]; rfl)
    simp [withoutAuthority, hb]

theorem readUri_sqliteUri (path : AbsolutePath) :
    readUri (sqliteUri path) =
      (accessOf .rwc
        (((queryOf ((path.bytes ++ readOnlyQuery).dropWhile isPathByte)).splitOn ampersand).map
          parameter)).map fun access =>
        ⟨decode ((path.bytes ++ readOnlyQuery).takeWhile isPathByte), access⟩ := by
  have hscheme : fileScheme.isPrefixOf (sqliteUri path) = true := by
    rw [sqliteUri, List.append_assoc]
    exact List.isPrefixOf_iff_prefix.mpr (List.prefix_append _ _)
  have hdrop : (sqliteUri path).drop fileScheme.length = path.bytes ++ readOnlyQuery := by
    rw [sqliteUri, List.append_assoc, List.drop_left]
  simp only [readUri, hscheme, if_true, hdrop, withoutAuthority_bytes, Option.bind_some]

/-- The text has none of the bytes that end the path part. -/
theorem all_isPathByte_iff :
    (∀ b ∈ text, isPathByte b = true) ↔ questionMark ∉ text ∧ numberSign ∉ text := by
  constructor
  · intro h
    exact ⟨fun hq => absurd (h _ hq) (by decide), fun hn => absurd (h _ hn) (by decide)⟩
  · rintro ⟨hq, hn⟩ b hb
    simp only [isPathByte, Bool.and_eq_true, bne_iff_ne]
    exact ⟨fun h => hq (h ▸ hb), fun h => hn (h ▸ hb)⟩

/-- The path part of the URI is the whole path or a shorter text. -/
theorem takeWhile_isPathByte (text : Bytes) :
    (text ++ readOnlyQuery).takeWhile isPathByte = text ∧ (∀ b ∈ text, isPathByte b = true) ∨
      ((text ++ readOnlyQuery).takeWhile isPathByte).length < text.length := by
  by_cases hall : ∀ b ∈ text, isPathByte b = true
  · left
    refine ⟨?_, hall⟩
    rw [List.takeWhile_append_of_pos hall, show readOnlyQuery.takeWhile isPathByte = [] by decide,
      List.append_nil]
  · right
    have hle : (text.takeWhile isPathByte).length ≤ text.length :=
      (List.takeWhile_prefix _).length_le
    have hne : (text.takeWhile isPathByte).length ≠ text.length := fun h =>
      hall (List.takeWhile_eq_self_iff.mp ((List.takeWhile_prefix _).eq_of_length h))
    rw [List.takeWhile_append, if_neg hne]
    omega

/-- **The file that is opened is the file that was validated** exactly when the resolved path has
no `?`, no `#` and no `%` with two hexadecimal digits after it. -/
theorem opensValidated_iff (env : SqlitePathEnv) (rawPath : String) (resolved : AbsolutePath)
    (h : resolveSqlitePath env rawPath = .ok resolved) :
    OpensValidated env resolved ↔ UriPlain resolved.bytes := by
  constructor
  · rintro ⟨hopens, -⟩
    rw [readUri_sqliteUri, Option.map_eq_some_iff] at hopens
    obtain ⟨access, -, htarget⟩ := hopens
    have hfile := (SqliteTarget.mk.inj htarget).1
    rcases takeWhile_isPathByte resolved.bytes with ⟨htake, hall⟩ | hshort
    · rw [htake, decode_eq_self_iff] at hfile
      obtain ⟨hq, hn⟩ := all_isPathByte_iff.mp hall
      exact ⟨hq, hn, hfile⟩
    · -- what is decoded is no longer than the path part, so it is not the whole path
      have hlen := decode_length_le ((resolved.bytes ++ readOnlyQuery).takeWhile isPathByte)
      rw [hfile] at hlen
      omega
  · rintro ⟨hq, hn, hescape⟩
    have hall := all_isPathByte_iff.mpr ⟨hq, hn⟩
    have htake : (resolved.bytes ++ readOnlyQuery).takeWhile isPathByte = resolved.bytes := by
      rcases takeWhile_isPathByte resolved.bytes with ⟨htake, -⟩ | hshort
      · exact htake
      · rw [List.takeWhile_append_of_pos hall, List.length_append] at hshort
        omega
    have hdrop : (resolved.bytes ++ readOnlyQuery).dropWhile isPathByte = readOnlyQuery := by
      rw [List.dropWhile_append_of_pos hall]
      decide
    have haccess : accessOf .rwc (((queryOf readOnlyQuery).splitOn ampersand).map parameter) =
        some .ro := by decide
    refine ⟨?_, permitted_of_resolveSqlitePath h⟩
    rw [readUri_sqliteUri, htake, hdrop, haccess, (decode_eq_self_iff _).mpr hescape]
    rfl

end Reading

/-- A server whose own database is `/app/state.db` and whose targets may live under `/data`. -/
def dataServer : SqlitePathEnv where
  fs := { cwd := [], links := [], home := fun _ => none }
  unicode := .ascii
  fsdecode bs := String.ofList (bs.map fun b => Char.ofNat b.toNat)
  sqliteAllowedDirs := "/data"
  resolvedAppDbUrl := "sqlite:////app/state.db"
  urlDatabase _ := some "/app/state.db"

/-- `/data/txns.db` -/
def txnsPath : AbsolutePath := [⟨bytes "data", by decide⟩, ⟨bytes "txns.db", by decide⟩]

theorem opensValidated_iff_txns : OpensValidated dataServer txnsPath ↔ UriPlain txnsPath.bytes :=
  opensValidated_iff dataServer "/data/../data//txns.db" txnsPath rfl

/-- A directory named `%2e%2e` under `/data`: the check accepts the path, and SQLite opens the
application's own database. -/
def escapedPath : AbsolutePath :=
  [⟨bytes "data", by decide⟩, ⟨bytes "%2e%2e", by decide⟩, ⟨bytes "app", by decide⟩,
    ⟨bytes "state.db", by decide⟩]

/-- The path of an accepted connection is decoded again by SQLite, which then opens another file,
here the application's own database; and a `?` in it replaces the read-only mode. -/
theorem opens_other_file :
    resolveSqlitePath dataServer "/data/%2e%2e/app/state.db" = .ok escapedPath ∧
      readUri (sqliteUri escapedPath) = some ⟨bytes "/data/../app/state.db", .ro⟩ ∧
      (dataServer.resolvedPath "/data/../app/state.db").toOption =
        dataServer.appDbSqliteFile.toOption.join ∧
      ¬ OpensValidated dataServer escapedPath ∧
      (sqliteCreator dataServer "/data/x?mode=rwc&y").toOption.bind readUri =
        some ⟨bytes "/data/x", .rwc⟩ := by
  refine ⟨rfl, by decide, by decide, fun h => ?_, by decide⟩
  exact absurd h.opens (by decide)

end FraudAnalyzer.Db
