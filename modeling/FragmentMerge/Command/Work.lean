import FragmentMerge.Command.Shell
import FragmentMerge.Features.Plan
import FragmentMerge.Project.Sources
import FragmentMerge.Report.Basic
import FragmentMerge.Session.Resolve

/-! The work of a command: a disk, a report and the lines to print, carried from step to step and kept
when a step fails. -/

namespace FragmentMerge

inductive CommandError where
  | loadConfig (path : String) (error : ConfigError)
  | load (error : LoadError)
  | config (error : ConfigError)
  | resolve (error : ResolveError)
  | writeDocument (path : String) (error : Errno)
  | plan (error : ToolError)
  | postProcess (error : ToolError)
  | generator (ended : Ended) (command : String)
  | saveReport (path : String) (error : Errno)
  /-- No error of a program that ends: the task goes on for ever. -/
  | endless
  deriving DecidableEq, Repr

def CommandError.chain : CommandError → List String
  | loadConfig path error => s!"Failed to load config from {path}" :: error.causes
  | load error => "Failed to load schema fragments" :: error.causes
  | config error => error.causes
  | resolve error => error.causes
  | writeDocument path error => [s!"Failed to write merged schema to {path}", error.message]
  | plan error => error.causes
  | postProcess error => "Failed to post-process generated output" :: error.causes
  | generator ended command => [s!"Generator command exited with {ended.text}: {command}"]
  | saveReport path error => [s!"Failed to save report to {path}", error.message]
  | endless => []

/-- A line to print: a result, a note, or a note on progress that only a verbose run prints; or the
output of the generator, which is passed on as it is. -/
inductive Line where
  | out (s : String)
  | err (s : String)
  | progress (s : String)
  | passedOut (s : String)
  | passedErr (s : String)
  deriving DecidableEq, Repr

structure Work where
  disk : Disk
  report : Report
  lines : List Line

abbrev Task := EStateM CommandError Work

namespace Task

def print (l : Line) : Task Unit := modify fun w => { w with lines := w.lines ++ [l] }

def disk : Task Disk := do
  let w ← get
  pure w.disk

def diagnose (ds : List Diagnostic) : Task Unit := modify fun w => { w with report := w.report.addAll ds }

def count (f : Summary → Summary) : Task Unit :=
  modify fun w => { w with report := { w.report with summary := f w.report.summary } }

def ofExcept (wrap : ε → CommandError) (r : Except ε α) : Task α := fun w =>
  match r with
  | .ok a => .ok a w
  | .error e => .error (wrap e) w

/-- Changes the disk, or fails and leaves it as far as it was changed. -/
def onDisk (wrap : ε → CommandError) (f : Disk → Except ε α × Disk) : Task α := fun w =>
  match f w.disk with
  | (.ok a, disk) => .ok a { w with disk }
  | (.error e, disk) => .error (wrap e) { w with disk }

end Task

end FragmentMerge
