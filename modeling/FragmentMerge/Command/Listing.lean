import FragmentMerge.Command.Work

/-! What the commands print: the summary of a report, the list of conflicts, and errors with their
causes. -/

namespace FragmentMerge.Listing

def rule : String := "".pushn '=' 60

def title (s : String) : List String := ["", rule, s, rule, ""]

def severityWord : Severity → String
  | .error => "ERROR"
  | .warn => "WARN"
  | .info => "INFO"

def diagnosticLines (d : Diagnostic) : List String :=
  s!"  [{severityWord d.severity}] {d.code.text}: {d.message}" ::
    match d.location with
    | some l => [s!"    at {l.text}"]
    | none => []

/-- The diagnostics that are more than information. -/
def notable (r : Report) : List Diagnostic := r.diagnostics.filter (·.severity != .info)

def issues (r : Report) : List String :=
  match notable r with
  | [] => ["✓ No issues found!"]
  | ds => "Diagnostics:" :: ds.flatMap diagnosticLines

def summary (r : Report) (name : String) : List String :=
  let s := r.summary
  title name ++ [
    s!"Version: {Report.version}",
    s!"Timestamp: {r.timestamp}",
    "",
    "Summary:",
    s!"  Conflicts resolved: {s.conflictsResolved}",
    s!"  Models emitted:     {s.modelsEmitted}",
    s!"  Enums emitted:      {s.enumsEmitted}",
    s!"  Blocks applied:     {s.blocksApplied}",
    s!"  Blocks skipped:     {s.blocksSkipped}",
    s!"  Features written:   {s.featuresWritten}",
    s!"  Features unchanged: {s.featuresUnchanged}",
    "",
    s!"  Errors:   {s.errors}",
    s!"  Warnings: {s.warnings}",
    s!"  Info:     {s.info}",
    ""] ++ issues r ++ ["", rule]

def referenceLine (side : ItemKey) (col : ColumnKey) : String :=
  "         referenced by " ++ col.text ++
    if col.item.file = side.file then "" else " (cross-file)"

def sideLines (s : Session) (side : ItemKey) : List String :=
  s!"     - {side.text}" :: (s.referring side).map (referenceLine side) ++
    if (s.mappingsTo side).isEmpty then [] else ["         auto-mapped by [relations]"]

def conflictLines (s : Session) (n : Nat) : List Conflict → List String
  | [] => []
  | x :: xs => s!"  {n}. {x.text}" :: x.sides.flatMap (sideLines s) ++ conflictLines s (n + 1) xs

def conflicts (s : Session) : List String :=
  title "Name Conflicts" ++
    match s.conflicts with
    | [] => ["✓ No conflicts", "", rule]
    | xs => conflictLines s 1 xs ++ ["", s!"Total: {xs.length}", rule]

/-- A cause under its number; further lines of its text are indented as far. -/
def numbered (n : Nat) (s : String) : String :=
  let digits := toString n
  "".pushn ' ' (5 - digits.length) ++ digits ++ ": " ++ Text.replaced "\n" "\n       " s

def unnumbered (s : String) : String := "    " ++ Text.replaced "\n" "\n    " s

def numberedFrom (n : Nat) : List String → List String
  | [] => []
  | s :: ss => numbered n s :: numberedFrom (n + 1) ss

def error : List String → List String
  | [] => ["Error: "]
  | [message] => ["Error: " ++ message]
  | [message, cause] => ["Error: " ++ message, "", "Caused by:", unnumbered cause]
  | message :: causes => ["Error: " ++ message, "", "Caused by:"] ++ numberedFrom 0 causes

end FragmentMerge.Listing
