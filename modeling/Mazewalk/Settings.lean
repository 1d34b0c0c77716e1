import Mazewalk.Failure
import Mazewalk.Files
import Mazewalk.Toml.Value

/-!
# Settings

The settings of the program come from a TOML file that need not exist.  A setting that the file
leaves out has its default, and fields with other names do not count.
-/

namespace Mazewalk

structure Settings where
  /-- The delay between two steps on the screen, in milliseconds. -/
  tickMs : UInt64 := 400
  /-- A directory of more level files. -/
  levelsDir? : Option String := none
  deriving DecidableEq, Repr

namespace Settings

/-- Why there are no settings. -/
inductive Error where
  | unreadable (path : String) (error : Files.Error)
  /-- The file is no document, or a field has the wrong type. -/
  | document (path : String)
  | zeroTick
  deriving DecidableEq, Repr

def Error.failure : Error → Failure
  | unreadable path error => ⟨s!"failed to read config {path}", [error.message]⟩
  | document path => ⟨s!"invalid config {path}", [Toml.errorMessage]⟩
  | zeroTick => ⟨"tick_ms must be > 0", []⟩

/-- Accepts settings under which the walker moves. -/
def checked (settings : Settings) : Except Error Settings :=
  if settings.tickMs = 0 then .error .zeroTick else .ok settings

def directory? (value : Toml.Value) : Option (Option String) :=
  value.text?.map some

def ofFields? (fields : Toml.Fields) : Option Settings := do
  let tickMs ← fields.readOr? "tick_ms" 400 Toml.Value.uint64?
  let levelsDir? ← fields.readOr? "levels_dir" none directory?
  return ⟨tickMs, levelsDir?⟩

/-- Reads the settings file at a path.  Without a path, or without a file there, the defaults
hold. -/
def load (toml : Toml.Reader) (files : Files) (path? : Option String) : Except Error Settings :=
  match path?.filter files.holds with
  | none => .ok {}
  | some path =>
      match files.read path with
      | .error error => .error (.unreadable path error)
      | .ok text =>
          match (toml text).bind ofFields? with
          | none => .error (.document path)
          | some settings => settings.checked

end Settings

end Mazewalk
