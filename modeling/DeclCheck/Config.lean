import DeclCheck.Files
import DeclCheck.Settings
import DeclCheck.Text.Utf8
import DeclCheck.Toml.Table

/-!
# The configuration of a project

A project may have a configuration file in its directory or in one above it; the nearest one
counts. It sets defaults for checks and for the cache, and everything else in it is refused.
-/
namespace DeclCheck

structure Config where
  maxDiagnostics : Option Int := none
  dedup : Option Bool := none
  format : Option Text := none
  jobs : Option Int := none
  /-- Is the cache used? -/
  enabled : Option Bool := none
  /-- The directory of the cache, from the directory of the configuration on. -/
  dir : Text := []
  deriving DecidableEq, Repr, Inhabited

structure ProjectConfig where
  path : Text
  config : Config
  deriving Repr, Inhabited

inductive ConfigError where
  | stat (path : Text) (error : FileError)
  | unreadable (path : Text) (error : FileError)
  | malformed (path : Text) (failure : Toml.Failure)
  | unknownKeys (path : Text) (keys : List Toml.Key)
  | badFormat (path format : Text)
  | negativeJobs (path : Text)
  | negativeLimit (path : Text)
  deriving Repr

def ConfigError.message : ConfigError → Text
  | stat path e => "failed to stat " ++ path.quote ++ ": " ++ e.message
  | unreadable path e => path ++ ": failed to parse TOML: " ++ e.message
  | malformed path f => path ++ ": failed to parse TOML: " ++ f.message
  | unknownKeys path keys => path ++ ": unknown keys: " ++ Text.join ", " (keys.map Toml.keyText)
  | badFormat path format => path ++ ": [check].format: " ++ OutputFormat.invalidMessage format
  | negativeJobs path => path ++ ": [check].jobs must not be negative"
  | negativeLimit path => path ++ ": [check].max_diagnostics must not be negative"

namespace Config

def fileName : Text := "decaf.toml"

/-! ## From a document -/

open Toml (Key Node Failure)

def typeName : Node → Text
  | .table => "map[string]interface \x7b\x7d"
  | .tables => "[]map[string]interface \x7b\x7d"
  | .leaf (.text _) => "string"
  | .leaf (.integer _) => "int64"
  | .leaf .float => "float64"
  | .leaf (.boolean _) => "bool"
  | .leaf .time => "time.Time"
  | .leaf .list => "[]interface \x7b\x7d"

def failAt (doc : Toml.State) (key : Key) (fault : Toml.Fault) : Failure :=
  let line := (doc.factOf key).line
  { line := if 0 < line then some line else none, lastKey := Toml.keyText key, fault }

def asText (doc : Toml.State) (key : Key) : Node → Except Failure Text
  | .leaf (.text t) => .ok t
  | n => .error (failAt doc key (.wrongType (typeName n) "string"))

def asInteger (doc : Toml.State) (key : Key) : Node → Except Failure Int
  | .leaf (.integer n) => .ok n
  | n => .error (failAt doc key (.wrongType (typeName n) "integer"))

def asBoolean (doc : Toml.State) (key : Key) : Node → Except Failure Bool
  | .leaf (.boolean b) => .ok b
  | n => .error (failAt doc key (.wrongType (typeName n) "boolean"))

abbrev Setter := Toml.State → Key → Node → Config → Except Failure Config

def checkSetters : List (Text × Setter) :=
  [("max_diagnostics", fun doc key n c => do
      return { c with maxDiagnostics := some (← asInteger doc key n) }),
   ("dedup", fun doc key n c => do return { c with dedup := some (← asBoolean doc key n) }),
   ("format", fun doc key n c => do return { c with format := some (← asText doc key n) }),
   ("jobs", fun doc key n c => do return { c with jobs := some (← asInteger doc key n) })]

def cacheSetters : List (Text × Setter) :=
  [("enabled", fun doc key n c => do return { c with enabled := some (← asBoolean doc key n) }),
   ("dir", fun doc key n c => do return { c with dir := ← asText doc key n })]

/-- The setter of a name: one of the same spelling, or else one that differs in letter case. -/
def setter? (setters : List (Text × Setter)) (name : Text) : Option Setter :=
  match setters.find? (·.1 == name) with
  | some (_, f) => some f
  | none => (setters.find? fun (k, _) => name.matchesKeyword k).map (·.2)

/-- Takes the keys of a table that have setters, and gives them with what they set. -/
def takeTable (setters : List (Text × Setter)) (doc : Toml.State) (table : Key)
    (start : Config × List Key) : Except Failure (Config × List Key) :=
  doc.nodes.foldlM (fun (c, taken) (key, n) =>
    if key.dropLast == table && !key.isEmpty then
      match setter? setters (key.getLastD []) with
      | some set => do return (← set doc key n c, key :: taken)
      | none => return (c, taken)
    else return (c, taken)) start

/-- The tables by name, with the name that is shown for each of them. -/
def tables : List (Text × Text × List (Text × Setter)) :=
  [("check", "main.checkConfig", checkSetters), ("cache", "main.cacheConfig", cacheSetters)]

def ofDocument (doc : Toml.State) : Except Failure (Config × List Key) :=
  doc.nodes.foldlM (fun (c, taken) (key, n) =>
    match key with
    | [name] =>
      let named := (tables.find? (·.1 == name)).orElse fun _ =>
        tables.find? fun (k, _) => name.matchesKeyword k
      match named, n with
      | none, _ => return (c, taken)
      | some (_, _, setters), .table => takeTable setters doc key (c, key :: taken)
      | some (_, shown, _), n => .error (failAt doc key (.wrongTable shown (typeName n)))
    | _ => return (c, taken)) ({}, [])

def ofBytes (path bytes : Text) : Except ConfigError Config := do
  let doc ← (Toml.read bytes).mapError (.malformed path)
  let (c, taken) ← (ofDocument doc).mapError (.malformed path)
  let unknown := doc.keys.filter (!taken.contains ·)
  if !unknown.isEmpty then throw (.unknownKeys path unknown)
  if let some f := c.format then
    if (OutputFormat.parse? f).isNone then throw (.badFormat path f)
  if c.jobs.any (· < 0) then throw (.negativeJobs path)
  if c.maxDiagnostics.any (· < 0) then throw (.negativeLimit path)
  return c

/-! ## Finding it -/

variable {m : Type → Type} [Monad m] [MonadFiles m]

/-- The nearest configuration file at or above a directory, up to `steps` directories above. -/
def findWithin : Nat → Text → m (Except ConfigError (Option Text))
  | 0, _ => return .ok none
  | steps + 1, dir => do
    let candidate := Path.join [dir, fileName]
    match ← Files.stat candidate with
    | .ok _ => return .ok (some candidate)
    | .error e =>
      if e.fault != .notFound then return .error (.stat candidate e)
      if Path.dir dir == dir then return .ok none
      findWithin steps (Path.dir dir)

def find (cwd start : Text) : m (Except ConfigError (Option Text)) :=
  let dir := Path.absolute cwd (if start.isEmpty then Path.here else start)
  findWithin (dir.length + 1) dir

def load (cwd target : Text) : m (Except ConfigError (Option ProjectConfig)) := do
  let start := match ← MonadFiles.kindOf target with
    | .ok .regular => Path.dir target
    | _ => target
  match ← find cwd start with
  | .error e => return .error e
  | .ok none => return .ok none
  | .ok (some path) =>
    match ← Files.read path with
    | .error e => return .error (.unreadable path e)
    | .ok bytes => return (ofBytes path bytes).map fun config => some { path, config }

end Config

namespace ProjectConfig

def root (p : ProjectConfig) : Text := Path.dir p.path

def cacheDir (p : ProjectConfig) : Text :=
  let dir := p.config.dir.trim
  if dir.isEmpty || Path.isAbsolute dir then dir else Path.join [p.root, dir]

end ProjectConfig

end DeclCheck
