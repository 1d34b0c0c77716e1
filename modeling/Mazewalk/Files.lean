/-!
# Files

A snapshot of the files that a command may look at: a list of paths, each with a file's text or
a directory.  Paths are written with slashes and read component by component, and every
component but the last must be a directory.  A directory exists when it is listed or when
something is listed below it; the root, the working directory and the directories above it always
exist.
-/

namespace Mazewalk

/-- What a path leads to. -/
inductive Files.Node where
  /-- A file, with its text if its bytes are text. -/
  | file (text? : Option String)
  | directory
  deriving DecidableEq, Repr

/-- A snapshot of a part of the file system. -/
structure Files where
  nodes : List (List String × Files.Node)
  deriving DecidableEq, Repr

namespace Files

/-- Why a path could not be used. -/
inductive Error where
  | notFound
  | permissionDenied
  | notDirectory
  | isDirectory
  /-- A component or the whole path is too long. -/
  | nameTooLong
  /-- The path has a NUL character. -/
  | nulInName
  /-- The bytes of the file are not text. -/
  | notText
  deriving DecidableEq, Repr

def Error.message : Error → String
  | notFound => "No such file or directory (os error 2)"
  | permissionDenied => "Permission denied (os error 13)"
  | notDirectory => "Not a directory (os error 20)"
  | isDirectory => "Is a directory (os error 21)"
  | nameTooLong => "File name too long (os error 36)"
  | nulInName => "file name contained an unexpected NUL byte"
  | notText => "stream did not contain valid UTF-8"

/-! ### Paths -/

/-- The components of a path as written, empty ones included. -/
def components (path : String) : List String :=
  (path.toList.splitOn '/').map String.ofList

def join (dir name : String) : String :=
  if dir.isEmpty || dir.toList.getLast? = some '/' then dir ++ name else dir ++ "/" ++ name

/-- The part of a file name after its last dot.  A name has none if it has no dot after its
first character. -/
def extension? (name : String) : Option String :=
  match (name.toList.splitOn '.').reverse with
  | last :: before :: more =>
      if more.isEmpty && before.isEmpty then none else some (String.ofList last)
  | _ => none

/-! ### Looking up -/

/-- What is listed at a resolved path. -/
def node? (files : Files) (path : List String) : Option Node :=
  files.nodes.lookup path

/-- Something is listed below a resolved path. -/
def hasBelow (files : Files) (path : List String) : Bool :=
  files.nodes.any fun (listed, _) => path.isPrefixOf listed && path.length < listed.length

/-- The resolved path is the working directory or a directory above it. -/
def isAbove (path : List String) : Bool :=
  path.all (· == "..")

def isDirectory (files : Files) (path : List String) : Bool :=
  path == ["/"] || isAbove path || files.node? path == some .directory || files.hasBelow path

/-- The directory above a resolved path.  The root is above itself. -/
def parent (path : List String) : List String :=
  if path == ["/"] then path
  else if isAbove path then path ++ [".."]
  else path.dropLast

/-- The greatest number of bytes in a component. -/
def maxName : Nat := 255

/-- The greatest number of bytes in a path. -/
def maxPath : Nat := 4095

/-- Follows the components of a path, starting at a resolved one. -/
def follow (files : Files) : List String → List String → Except Error (List String)
  | here, [] => .ok here
  | here, component :: rest =>
      if files.isDirectory here then
        if component = "" ∨ component = "." then files.follow here rest
        else if component = ".." then files.follow (parent here) rest
        else if maxName < component.utf8ByteSize then .error .nameTooLong
        else files.follow (here ++ [component]) rest
      else if (files.node? here).isSome then .error .notDirectory
      else .error .notFound

/-- Resolves a path.  The last component need not exist. -/
def resolve (files : Files) (path : String) : Except Error (List String) :=
  if path.toList.contains '\x00' then .error .nulInName
  else if path.isEmpty then .error .notFound
  else if maxPath < path.utf8ByteSize then .error .nameTooLong
  else if path.toList.head? = some '/' then files.follow ["/"] (components path)
  else files.follow [] (components path)

def holds (files : Files) (path : String) : Bool :=
  match files.resolve path with
  | .ok resolved => files.isDirectory resolved || (files.node? resolved).isSome
  | .error _ => false

def read (files : Files) (path : String) : Except Error String := do
  let resolved ← files.resolve path
  if files.isDirectory resolved then throw .isDirectory
  match files.node? resolved with
  | some (.file (some text)) => return text
  | some (.file none) => throw .notText
  | _ => throw .notFound

/-- The names in a directory, each once. -/
def list (files : Files) (path : String) : Except Error (List String) := do
  let resolved ← files.resolve path
  if files.isDirectory resolved then
    let below := files.nodes.filterMap fun (listed, _) =>
      if resolved.isPrefixOf listed then (listed.drop resolved.length).head? else none
    return below.eraseDups
  else if (files.node? resolved).isSome then throw .notDirectory
  else throw .notFound

/-! ### Changing -/

def insert (files : Files) (path : List String) (node : Node) : Files :=
  ⟨(path, node) :: files.nodes.filter fun (listed, _) => listed != path⟩

/-- Creates a file without text, or empties the one that is there.  A path that ends in a slash
can only lead to a directory. -/
def create (files : Files) (path : String) : Except Error Files := do
  let named := String.ofList (path.toList.reverse.dropWhile (· == '/')).reverse
  let resolved ← files.resolve (if named.isEmpty then path else named)
  if named != path || files.isDirectory resolved then throw .isDirectory
  return files.insert resolved (.file (some ""))

end Files

end Mazewalk
