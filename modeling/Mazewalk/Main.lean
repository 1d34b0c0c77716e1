import Mazewalk.CommandLine
import Mazewalk.CommandLine.Options
import Mazewalk.Screen
import Mazewalk.Screen.Terminal
import Mazewalk.Toml.Document

/-!
# The program

The outer layer.  It takes a snapshot of the files that the arguments name, asks `CommandLine`
what to do, and then prints a report or plays a game at the terminal.
-/

namespace Mazewalk

def namesIn (dir : String) : IO (List String) := do
  let entries ← ((← IO.currentDir) / dir).readDir
  return entries.toList.map fun entry => entry.fileName

def nodeAt? (path : String) : IO (Option Files.Node) := do
  try
    let _ ← namesIn path
    return some .directory
  catch _ =>
    try
      return some (.file (String.fromUTF8? (← IO.FS.readBinFile path)))
    catch _ =>
      return none

/-- The snapshot with what a path and the paths above it lead to. -/
def withPath (files : Files) (path : String) : IO Files := do
  let parts := Files.components path
  let prefixes := (List.range parts.length).map fun i => "/".intercalate (parts.take (i + 1))
  (prefixes.filter fun above => !above.isEmpty).foldlM (fun files above => do
    match ← nodeAt? above, files.resolve above with
    | some node, .ok resolved => return files.insert resolved node
    | _, _ => return files) files

def directoryOf (path : String) : String :=
  let above := (Files.components path).dropLast
  if above.isEmpty then "." else "/".intercalate above

/-- The snapshot with the level files of a directory. -/
def withDirectory (files : Files) (dir : String) : IO Files := do
  let files ← withPath files dir
  try
    (← namesIn dir).foldlM (fun files name => withPath files (Files.join dir name)) files
  catch _ =>
    return files

/-- A snapshot of what a command may look at.  The log file is created first. -/
def snapshot (arguments : CommandLine.Arguments) : IO Files := do
  let mut files : Files := ⟨[]⟩
  if let some path := arguments.logFile? then
    files ← withPath files (directoryOf path)
    files ← withPath files path
    try IO.FS.writeFile path "" catch _ => pure ()
  for path? in [arguments.config?, arguments.program?, arguments.levelFile?] do
    if let some path := path? then
      files ← withPath files path
  match Settings.load Toml.read? files arguments.config? with
  | .ok { levelsDir? := some dir, .. } => withDirectory files dir
  | _ => return files

/-- Shows the session, and moves it on until its run is over or it has no time left. -/
partial def animate (session : Session) (tickMs : UInt64) : IO Session := do
  IO.print (Screen.canvasText (Screen.draw session 80 24))
  match session.run? with
  | none => return session
  | some _ =>
      IO.sleep tickMs.toUInt32
      animate session.tick tickMs

/-- Plays a session: each run is shown to its end, and then a key and a line break decide. -/
partial def playSession (session : Session) (tickMs : UInt64) : IO Unit := do
  let session ← animate session tickMs
  let line ← (← IO.getStdin).getLine
  let session :=
    match line.toList with
    | 'r' :: _ => session.restart
    | 'n' :: _ => session.next
    | 'q' :: _ | '\x1b' :: _ | [] => session.quit
    | _ => session
  if session.hasQuit then return
  playSession session tickMs

def perform (result : CommandLine.Result) : IO UInt32 := do
  IO.print result.printed
  IO.eprint result.complaint
  match result with
  | .usage =>
      IO.eprintln ("usage: [--level N | --level-file FILE] [--program FILE | --code TEXT] " ++
        "[--headless] [--config FILE] [--tick-ms N] [--log-file FILE]")
  | .ready (.game levels current program tickMs) =>
      if h : current < levels.length then
        playSession (Session.start levels current program h) tickMs
  | _ => pure ()
  return UInt32.ofNat result.code

end Mazewalk

open Mazewalk in
def main (texts : List String) : IO UInt32 := do
  let files ←
    match CommandLine.Arguments.read? texts with
    | some arguments => snapshot arguments
    | none => pure ⟨[]⟩
  perform (CommandLine.run CommandLine.Arguments.read? Toml.read? texts files)
