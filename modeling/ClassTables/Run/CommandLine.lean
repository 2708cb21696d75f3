import ClassTables.Run.Basic
/-!
# The command line

What the program prints for its arguments, and the number it exits with: zero when it has done what
was asked, one when a run failed, and two when the arguments are at fault.
-/

namespace ClassTables

/-- What a program leaves behind when it ends. -/
structure Outcome where
  exit : Nat
  stdout : String := ""
  stderr : String := ""
deriving DecidableEq, Repr

def usageLines : List String :=
  ["Usage: cfc --manifest <file.json> [options]",
   "",
   "Options:",
   "  --manifest <file>   Class manifest to compile (required)",
   "  --dest <dir>        Write to <dir>/include and <dir>/source",
   "  --header <file>     Text placed at the top of every generated file",
   "  --footer <file>     Text placed at the bottom of every generated file",
   "  --dry-run           Generate everything but write nothing",
   "  -h, --help          Show this help message"]

/-- Lines as text, each ended. -/
def endLines (lines : List String) : String := String.join (lines.map (· ++ "\n"))

def usage : String := endLines usageLines

/-- Whether the arguments ask for help, as an empty list of arguments does. -/
def asksForHelp (args : List String) : Bool :=
  args.isEmpty || args.any fun a => a == "--help" || a == "-h"

/-- The lines that tell which files were written. -/
def Report.lines (r : Report) : List String :=
  r.files.map fun path => (if r.dryRun then "would write " else "wrote ") ++ path

/-- What the program does with its arguments. -/
def commandLine {m : Type → Type} [Monad m] [FileAccess m] (args : List String) : m Outcome := do
  if asksForHelp args then return { exit := 0, stdout := usage }
  match Options.parse args with
  | .error e => return { exit := 2, stderr := endLines ["error: " ++ e.message, ""] ++ usage }
  | .ok o =>
    match ← (run o).run with
    | .ok report => return { exit := 0, stdout := endLines report.lines }
    | .error e => return { exit := 1, stderr := endLines ["error: " ++ chainText e.chain] }

end ClassTables
