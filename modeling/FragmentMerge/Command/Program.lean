import FragmentMerge.Command.Arguments
import FragmentMerge.Command.Generate
import FragmentMerge.Command.Listing
import FragmentMerge.Command.Merge
import FragmentMerge.Command.Patch
import FragmentMerge.Pattern.Template
import FragmentMerge.Script.Run

/-! The program: from the words of a command line and a disk to an exit code, what is printed, and the
disk afterwards. Here the merge and the generator get the engine and the shell that they run with. -/

namespace FragmentMerge

structure Ending where
  code : Nat
  out : String
  err : String
  disk : Disk

namespace Line

def outText : Line → String
  | .out s => s ++ "\n"
  | .passedOut s => s
  | _ => ""

def errText (verbose : Bool) : Line → String
  | .err s => s ++ "\n"
  | .progress s => if verbose then s ++ "\n" else ""
  | .passedErr s => s
  | _ => ""

end Line

namespace Program

def name : String := "schemaweave"

def versionLine : String := name ++ " 0.1.0"

def defaultConfig : String := "schemaweave.toml"

def usage : List String := [
  "Merge schema fragments into one document",
  "",
  s!"Usage: {name} [OPTIONS] <COMMAND>",
  "",
  "Commands:",
  "  merge      Merge fragments, resolve conflicts and write the merged document",
  "  conflicts  List current name conflicts and the relations pointing at them",
  "  patch      Patch the generated client and materialize feature packages",
  "  generate   Merge, run the generator command, then patch",
  "  help       Print this message or the help of the given subcommand(s)",
  "",
  "Options:",
  "  -c, --config <CONFIG>  Path to config file (default: schemaweave.toml)",
  "  -v, --verbose          Enable verbose output",
  "  -h, --help             Print help",
  "  -V, --version          Print version"]

/-- Saves the report, if asked to, and prints its summary. -/
def finish (path : Option String) (title : String) : Task Nat := do
  let w ← get
  match path with
  | none => pure ()
  | some path =>
    Task.onDisk (.saveReport path) fun d =>
      match d.write path (.text w.report.json) with
      | .ok d => (.ok (), d)
      | .error e => (.error e, d)
    Task.print (.err s!"Report saved to: {path}")
  for line in Listing.summary w.report title do
    Task.print (.out line)
  pure (if w.report.hasErrors then 1 else 0)

def listConflicts (c : Config) : Task Nat := do
  let d ← Task.disk
  let catalog ← Task.ofExcept .load (c.load d [])
  let s ← Task.ofExcept .config (Session.ofConfig catalog c)
  for line in Listing.conflicts s do
    Task.print (.out line)
  pure 0

def execute (c : Config) (report : Option String) : Command → Task Nat
  | .merge => do
    let _ ← Merge.run c
    finish report "Merge Report"
  | .conflicts => listConflicts c
  | .patch => do
    Patch.run c
    finish report "Patch Report"
  | .generate => do
    if ← Merge.run c then
      generate c
      Patch.run c
    finish report "Generate Report"

def start (path : String) (report : Option String) (command : Command) : Task Nat := do
  let d ← Task.disk
  let c ← Task.ofExcept (.loadConfig path) (Config.ofFile d path)
  Task.print (.progress s!"Project root: {c.root}")
  execute c report command

/-- What a task printed, and the disk as it left it. -/
def ending (verbose : Bool) (code : Nat) (w : Work) : Ending :=
  ⟨code, String.join (w.lines.map Line.outText), String.join (w.lines.map (Line.errText verbose)),
    w.disk⟩

def runTask (timestamp : String) (verbose : Bool) (t : Task Nat) (d : Disk) : Ending :=
  match t ⟨d, Report.start timestamp, []⟩ with
  | .ok code w => ending verbose code w
  | .error e w =>
    ending verbose 1 { w with lines := w.lines ++ (Listing.error e.chain).map Line.err }

def run (timestamp : String) (words : List String) (d : Disk) : Ending :=
  match Arguments.parse words with
  | .version => ⟨0, versionLine ++ "\n", "", d⟩
  | .help => ⟨0, String.join (usage.map (· ++ "\n")), "", d⟩
  | .misuse => ⟨2, "", String.join (usage.map (· ++ "\n")), d⟩
  | .run command config verbose report =>
    runTask timestamp verbose (start (config.getD defaultConfig) report command) d

end Program

end FragmentMerge
