/-
The command: reads arguments, lends the files that are asked for, and writes
what comes out. All else is decided elsewhere.
-/
import Stencil.Command.Run

namespace Stencil.Command

open Loading (Files)

def usageText : String :=
  "Usage: stencil [OPTIONS] --template <URL>\n\n"
    ++ "Options:\n"
    ++ "      --template <URL>      Template URL or path\n"
    ++ "      --out <PATH>          Output file (default: standard output)\n"
    ++ "      --xml <NAME> <URL>    Bind the root element of an XML document\n"
    ++ "      --json <NAME> <URL>   Bind the contents of a JSON document\n"
    ++ "      --prop <NAME> <URL>   Bind a properties file\n"
    ++ "  -D <NAME[=VALUE]>         Define a variable\n"
    ++ "      --nojstl              Leave the string functions out\n"
    ++ "      --verbose             Log at debug level\n"
    ++ "  -h, --help                Print help\n"
    ++ "  -V, --version             Print version"

/-- The text of a path from the root. -/
def pathText (path : List String) : String :=
  "/" ++ String.intercalate "/" path

/-- The text of a file, if it can be read. -/
def readFile? (path : List String) : IO (Option String) := do
  try
    return some (← IO.FS.readFile (pathText path))
  catch _ => return none

/-- The directories on the way along a path. -/
def directoriesOn (path : List String) : IO (List (List String)) :=
  ((List.range path.length).map path.take).filterM fun p => do
    try
      return (← (← IO.FS.realPath (pathText p)).isDir)
    catch _ => return false

/-- The files with the directories along a path that are there, and the place
of the file that the path leads to. -/
def place? (files : Files) (path : List String) :
    IO (Files × Option (List String)) := do
  let found ← directoriesOn path
  let files := { files with directories := found ++ files.directories }
  let around := files.canonical? path.dropLast
  return (files, around.bind fun p => path.getLast?.map fun name => p ++ [name])

/-- The path of the file that is missed. -/
def missing? (ending : Ending) : Option (List String) := do
  let url ← Url.parse? none (← ending.error.bind Error.missing?)
  Url.pathTexts? (← url.filePath?)

/-- Runs with the files known so far, and again with the one that is missed
as long as there is one that can be read. -/
partial def runWithFiles (files : Files) (directory : List String)
    (a : Arguments) : IO Ending := do
  let ending := run files directory a
  match missing? ending with
  | none => return ending
  | some path =>
    match ← place? files path with
    | (_, none) => return ending
    | (files, some place) =>
      if files.isFile place then return ending
      else
        match ← readFile? path with
        | none => return ending
        | some text =>
          runWithFiles { files with texts := (place, text) :: files.texts }
            directory a

def report (e : Error) : IO Unit := do
  match e with
  | .template (.failed d) =>
    match d.path? with
    | some path => IO.eprintln s!"XPath: {path}"
    | none => pure ()
  | _ => pure ()
  IO.eprintln e.message

/-- Runs the command in the current directory. -/
def perform (a : Arguments) : IO UInt32 := do
  let directory := absolute [] (← IO.currentDir).toString
  let ending ← runWithFiles ⟨[], [directory]⟩ directory a
  IO.print ending.written
  match a.out.map (absolute directory) with
  | none => pure ()
  | some path =>
    match ending.files.read? path with
    | none => pure ()
    | some text =>
      IO.FS.writeFile (pathText path) text
  match ending.error with
  | none => return 0
  | some e =>
    report e
    return 1

end Stencil.Command

def main (args : List String) : IO UInt32 := do
  match Stencil.Command.Arguments.parse args with
  | .ok a => Stencil.Command.perform a
  | .error .help =>
    IO.println Stencil.Command.usageText
    return 0
  | .error .version =>
    IO.println "stencil"
    return 0
  | .error .usage =>
    IO.eprintln Stencil.Command.usageText
    return 2
