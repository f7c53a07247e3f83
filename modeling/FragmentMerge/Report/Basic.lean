import FragmentMerge.Report.Diagnostic
import FragmentMerge.Data.Json

/-! Reports: the diagnostics of a run, with counts. -/

namespace FragmentMerge

structure Summary where
  errors : Nat
  warnings : Nat
  info : Nat
  conflictsResolved : Nat
  modelsEmitted : Nat
  enumsEmitted : Nat
  blocksApplied : Nat
  blocksSkipped : Nat
  featuresWritten : Nat
  featuresUnchanged : Nat
  deriving DecidableEq, Repr

def Summary.zero : Summary := ⟨0, 0, 0, 0, 0, 0, 0, 0, 0, 0⟩

def Summary.count (s : Summary) : Severity → Summary
  | .error => { s with errors := s.errors + 1 }
  | .warn => { s with warnings := s.warnings + 1 }
  | .info => { s with info := s.info + 1 }

def Summary.entries (s : Summary) : List (String × Nat) :=
  [("errors", s.errors), ("warnings", s.warnings), ("info", s.info),
   ("conflicts_resolved", s.conflictsResolved), ("models_emitted", s.modelsEmitted),
   ("enums_emitted", s.enumsEmitted), ("blocks_applied", s.blocksApplied),
   ("blocks_skipped", s.blocksSkipped), ("features_written", s.featuresWritten),
   ("features_unchanged", s.featuresUnchanged)]

structure Report where
  timestamp : String
  summary : Summary
  diagnostics : List Diagnostic
  deriving DecidableEq, Repr

namespace Report

def major : Nat := 1

def minor : Nat := 0

def version : String := s!"{major}.{minor}"

def start (timestamp : String) : Report := ⟨timestamp, .zero, []⟩

def add (r : Report) (d : Diagnostic) : Report :=
  { r with summary := r.summary.count d.severity, diagnostics := r.diagnostics ++ [d] }

def addAll (r : Report) (ds : List Diagnostic) : Report := ds.foldl add r

def ofDiagnostics (timestamp : String) (ds : List Diagnostic) : Report := (start timestamp).addAll ds

def hasErrors (r : Report) : Bool := r.summary.errors != 0

def tree (r : Report) : Tree :=
  .table [
    ("version", .table [("major", .nat major), ("minor", .nat minor)]),
    ("timestamp", .text r.timestamp),
    ("summary", .table (r.summary.entries.map fun (k, n) => (k, .nat n))),
    ("diagnostics", .list (r.diagnostics.map Diagnostic.tree))]

def json (r : Report) : String := Json.pretty r.tree

def worst? (r : Report) : Option Severity :=
  r.diagnostics.foldl (fun w d => match w with
    | none => some d.severity
    | some s => some (if s.rank < d.severity.rank then d.severity else s)) none

end Report

end FragmentMerge
