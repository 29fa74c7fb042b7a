import TrafficSchema.Config.File
import TrafficSchema.Schema.Merge
import TrafficSchema.Schema.Notation

/-!
# Workspaces

A workspace is a directory in which schema files, configuration files and maps of cacheable
endpoints are kept. Names of files are paths within it, with slashes between the directories.

A file that is read has to be there, and to be UTF-8. A file can be written where its directory
is there and no directory has its name.
-/

namespace TrafficSchema

/-- What a name in a workspace stands for. -/
inductive WorkspaceEntry
  | file (content : ByteArray)
  | directory

/-- A directory with everything in it, under normal names. -/
abbrev Workspace := Dict WorkspaceEntry

namespace Workspace

/-! ## Names -/

/-- The parts of a path. -/
def parts (name : String) : List (List Char) :=
  (name.toList.splitOn '/').filter fun part => part ≠ [] ∧ part ≠ ['.']

/-- Whether only a directory can have this name, as it ends with a slash. -/
def namesDirectory (name : String) : Bool :=
  match (name.toList.splitOn '/').getLast? with
  | some part => part = [] ∨ part = ['.']
  | none => true

/-- The normal name of a path. -/
def normal (parts : List (List Char)) : String := String.ofList (['/'].intercalate parts)

/-- What a path stands for. -/
def find? (w : Workspace) (parts : List (List Char)) : Option WorkspaceEntry :=
  if parts = [] then some .directory else w.get? (normal parts)

/-- Whether a path is a directory. -/
def isDirectory (w : Workspace) (parts : List (List Char)) : Bool :=
  match w.find? parts with
  | some .directory => true
  | _ => false

/-! ## Files -/

/-- The bytes of a file. -/
def bytes? (w : Workspace) (name : String) : Option ByteArray :=
  match w.find? (parts name) with
  | some (.file content) => if namesDirectory name then none else some content
  | _ => none

/-- The text of a file that is to be read. -/
def input (w : Workspace) (name : String) : Except SchemaError String :=
  match w.bytes? name with
  | none => .error (.missingFile name)
  | some content =>
    match String.fromUTF8? content with
    | none => .error .file
    | some text => .ok text

/-- Writes a file, replacing the one that was there. -/
def write (w : Workspace) (name : String) (content : ByteArray) : Except SchemaError Workspace :=
  let path := parts name
  if namesDirectory name || w.isDirectory path || !w.isDirectory path.dropLast then .error .file
  else .ok (w.insert (normal path) (.file content))

/-- Makes a directory, and those around it, unless they are there. -/
def makeDirectory (w : Workspace) (name : String) : Except SchemaError Workspace :=
  (List.range (parts name).length).foldlM (fun w n =>
    let path := (parts name).take (n + 1)
    match w.find? path with
    | some .directory => .ok w
    | some (.file _) => .error .file
    | none => .ok (w.insert (normal path) .directory)) w

/-! ## Schemas, maps and configurations -/

/-- Reads a schema file. -/
def readSchema (w : Workspace) (name : String) : Except SchemaError Schema := do
  Schema.ofText (← w.input name)

/-- Reads schema files and merges them from left to right. -/
def readAndMerge (w : Workspace) (names : List String) : Except SchemaError Schema := do
  Schema.mergeAll (← names.mapM w.readSchema)

/-- Writes a schema file. -/
def writeSchema (w : Workspace) (name : String) (s : Schema) (layout : Json.Layout) :
    Except SchemaError Workspace :=
  w.write name (s.toText layout).toUTF8

/-- Reads a map of cacheable endpoints. -/
def readCacheable (w : Workspace) (name : String) : Except SchemaError CacheableEndpoints := do
  match CacheableEndpoints.ofText (← w.input name) with
  | .ok c => .ok c
  | .error e => .error (.invalidSchema e)

/-- Reads a configuration file. -/
def loadConfig (w : Workspace) (name : String) : Except SchemaError Config := do
  Config.ofToml (← w.input name)

end Workspace

end TrafficSchema
