import FraudAnalyzer.Errors
import FraudAnalyzer.Lib.Percent
import FraudAnalyzer.Python.Text

/-!
# Where a sqlite target may point

`app/security/sqlite_paths.py` and the settings it reads. Paths are `pathlib` paths over a file
system given by its symbolic links; `resolve` follows the links and collapses `..` as the standard
library does, without asking whether the file exists. A resolved path is a list of file names, so
that no empty or `..` component can be left in one.
-/

namespace FraudAnalyzer.Security

open Python Percent

/-! ## Paths -/

/-- The bytes can name a directory entry. -/
def IsFileName (bytes : Bytes) : Prop :=
  bytes ≠ [] ∧ (0x2f : UInt8) ∉ bytes ∧ (0 : UInt8) ∉ bytes ∧ bytes ≠ [0x2e] ∧ bytes ≠ [0x2e, 0x2e]

instance (bytes : Bytes) : Decidable (IsFileName bytes) :=
  inferInstanceAs (Decidable (_ ∧ _))

/-- A directory entry's name: not empty, no slash or zero byte in it, not a dot entry. -/
structure FileName where
  bytes : Bytes
  valid : IsFileName bytes
  deriving DecidableEq

/-- A component of a path that is not resolved. -/
inductive Part where
  | up
  | name (n : FileName)
  deriving DecidableEq

/-- A `Path`: whether it starts at the root, and its parts without the empty and `.` ones. -/
structure PurePath where
  absolute : Bool
  parts : List Part
  deriving DecidableEq

/-- A resolved path: the names from the root. -/
abbrev AbsolutePath := List FileName

/-- `str(path)`, as the file system's bytes. -/
def AbsolutePath.bytes : AbsolutePath → Bytes
  | [] => [0x2f]
  | [n] => 0x2f :: n.bytes
  | n :: rest => 0x2f :: n.bytes ++ AbsolutePath.bytes rest

/-- How the modelled functions fail: with an error of the API or with an exception of the standard
library. -/
inductive PathFailure where
  | invalidConfig (error : AppError)
  | embeddedNull
  | noHome
  | symlinkLoop

/-- The parts of a path's text. Between two slashes there is no slash, so a piece that is neither
empty nor a dot entry is a name unless it has a zero byte. -/
def parseParts : List Bytes → Except PathFailure (List Part)
  | [] => .ok []
  | piece :: rest =>
    if h : IsFileName piece then (parseParts rest).map (.name ⟨piece, h⟩ :: ·)
    else if piece = [0x2e, 0x2e] then (parseParts rest).map (.up :: ·)
    else if piece = [] ∨ piece = [0x2e] then parseParts rest
    else .error .embeddedNull

/-- `Path(text)` -/
def parsePath (text : Bytes) : Except PathFailure PurePath :=
  (parseParts (text.splitOn 0x2f)).map fun parts => ⟨text.head? == some 0x2f, parts⟩

/-- The file system, as far as resolving a path reads it. -/
structure FileSystem where
  /-- The working directory, resolved -/
  cwd : AbsolutePath
  /-- The symbolic links and their targets -/
  links : List (AbsolutePath × PurePath)
  /-- The home directory of `~` and of `~user` -/
  home : FileName → Option PurePath

namespace FileSystem

/-- The target, if the path is a symbolic link. -/
def readlink (fs : FileSystem) (path : AbsolutePath) : Option PurePath :=
  (fs.links.find? fun link => link.1 = path).map Prod.snd

/-- Walk the parts from a directory: `..` drops a name, a name is entered by `enter`. -/
def walk (enter : AbsolutePath → FileName → Option AbsolutePath) :
    AbsolutePath → List Part → Option AbsolutePath
  | path, [] => some path
  | path, .up :: rest => walk enter path.dropLast rest
  | path, .name n :: rest => (enter path n).bind fun path => walk enter path rest

/-- `os.path.realpath`. `opened` holds the links being resolved: meeting one of them again is a
loop. Each level of `depth` resolves a link that is not yet in it, so the number of links is
enough. -/
def realpath (fs : FileSystem) :
    Nat → List AbsolutePath → AbsolutePath → List Part → Option AbsolutePath
  | 0, _, _, _ => none
  | depth + 1, opened, start, parts =>
    walk (fun path n =>
      match fs.readlink (path ++ [n]) with
      | none => some (path ++ [n])
      | some target =>
        if path ++ [n] ∈ opened then none
        else realpath fs depth ((path ++ [n]) :: opened) (if target.absolute then [] else path)
          target.parts) start parts

/-- `path.resolve()` -/
def resolve (fs : FileSystem) (path : PurePath) : Except PathFailure AbsolutePath :=
  match fs.realpath (fs.links.length + 1) [] (if path.absolute then [] else fs.cwd) path.parts with
  | some resolved => .ok resolved
  | none => .error .symlinkLoop

/-- `path.expanduser()` -/
def expanduser (fs : FileSystem) (path : PurePath) : Except PathFailure PurePath :=
  match path.absolute, path.parts with
  | false, .name n :: rest =>
    if n.bytes.head? = some 0x7e then
      match fs.home n with
      | some home => .ok ⟨home.absolute, home.parts ++ rest⟩
      | none => .error .noHome
    else .ok path
  | _, _ => .ok path

end FileSystem

/-- What the check reads besides the path. -/
structure SqlitePathEnv where
  fs : FileSystem
  unicode : Unicode
  /-- `os.fsdecode` -/
  fsdecode : Bytes → String
  /-- `settings.sqlite_allowed_dirs` -/
  sqliteAllowedDirs : String
  /-- `settings.resolved_app_db_url` -/
  resolvedAppDbUrl : String
  /-- `make_url(url).database` -/
  urlDatabase : String → Option String

namespace SqlitePathEnv

variable (env : SqlitePathEnv)

/-- `Path(text).expanduser().resolve()` -/
def resolvedPath (text : String) : Except PathFailure AbsolutePath := do
  let path ← parsePath (bytes text)
  env.fs.resolve (← env.fs.expanduser path)

/-- `settings.sqlite_allowed_dir_list` -/
def sqliteAllowedDirList : Except PathFailure (List AbsolutePath) :=
  ((env.sqliteAllowedDirs.toList.splitOn ',').map String.ofList).filterMapM fun part => do
    if strip env.unicode part = "" then return none
    return some (← env.resolvedPath (strip env.unicode part))

/-- `settings.app_db_sqlite_file` -/
def appDbSqliteFile : Except PathFailure (Option AbsolutePath) :=
  if startsWith env.resolvedAppDbUrl "sqlite" then
    match env.urlDatabase env.resolvedAppDbUrl with
    | none => .ok none
    | some database =>
      if database = "" ∨ database = ":memory:" then .ok none
      else (env.resolvedPath database).map some
  else .ok none

/-- `str(path)` -/
def pathText (path : AbsolutePath) : String := env.fsdecode path.bytes

end SqlitePathEnv

/-- `_is_within`: the path is the root or sits underneath it. -/
def isWithin (path root : AbsolutePath) : Bool := root.isPrefixOf path

/-- `resolve_sqlite_path` -/
def resolveSqlitePath (env : SqlitePathEnv) (rawPath : String) :
    Except PathFailure AbsolutePath := do
  if rawPath = "" then
    throw (.invalidConfig (invalidConfigError "A sqlite connection requires 'sqlite_path'." []))
  let resolved ← env.resolvedPath rawPath
  let appDb ← env.appDbSqliteFile
  if appDb = some resolved then
    throw (.invalidConfig (invalidConfigError
      ("That path is this service's own app-state database. Reading it through a target " ++
        "connection would expose every stored credential, so it is refused.")
      [("sqlite_path", .str rawPath)]))
  let allowed ← env.sqliteAllowedDirList
  if allowed = [] then
    throw (.invalidConfig (invalidConfigError
      ("sqlite target connections are disabled: FAE_SQLITE_ALLOWED_DIRS is empty. Set it to the " ++
        "directory holding the database file, or use a postgres/mysql connection.")
      [("sqlite_path", .str rawPath)]))
  if allowed.any (isWithin resolved) then return resolved
  else
    throw (.invalidConfig (invalidConfigError
      ("sqlite_path is outside the allowed directories. Allowed: " ++
        join ", " (allowed.map env.pathText) ++ ".")
      [("sqlite_path", .str rawPath), ("resolved", .str (env.pathText resolved))]))

/-- A resolved path the check lets through: under an allowed directory, and not the application's
own database. -/
structure Permitted (env : SqlitePathEnv) (path : AbsolutePath) : Prop where
  within : ∃ roots, env.sqliteAllowedDirList = .ok roots ∧ ∃ root ∈ roots, isWithin path root = true
  not_appDb : ∃ appDb, env.appDbSqliteFile = .ok appDb ∧ appDb ≠ some path

/-- **The check permits what it returns.** -/
theorem permitted_of_resolveSqlitePath {env : SqlitePathEnv} {rawPath : String}
    {path : AbsolutePath} (h : resolveSqlitePath env rawPath = .ok path) : Permitted env path := by
  simp only [resolveSqlitePath, bind, Except.bind, pure, Except.pure, throw, throwThe,
    MonadExceptOf.throw] at h
  split at h
  · cases h
  split at h
  · cases h
  next resolved hresolved =>
  split at h
  · cases h
  next appDb happDb =>
  split at h
  · cases h
  next hne =>
  split at h
  · cases h
  next roots hroots =>
  split at h
  · cases h
  split at h
  · next hany =>
    obtain rfl : resolved = path := Except.ok.inj h
    obtain ⟨root, hmem, hwithin⟩ := List.any_eq_true.mp hany
    exact ⟨⟨roots, hroots, root, hmem, hwithin⟩, appDb, happDb, hne⟩
  · cases h

end FraudAnalyzer.Security
