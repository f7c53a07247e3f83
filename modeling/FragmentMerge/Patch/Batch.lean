import FragmentMerge.Patch.Edit
import FragmentMerge.Files.Disk
import FragmentMerge.Report.Diagnostic

/-! Batches of edits on files. Every file is read once and before anything is written, goes through
all edits in memory, and is written once if it has changed. -/

namespace FragmentMerge

inductive PatchError where
  | io (path detail : String)
  | malformed (path detail : String)
  deriving DecidableEq, Repr

def PatchError.message : PatchError → String
  | .io path detail => s!"IO error on {path}: {detail}"
  | .malformed path detail => s!"malformed target {path}: {detail}"

/-- Edits of one file, in order. -/
structure Transaction where
  path : String
  edits : List Edit

structure EditReport where
  path : String
  edit : String
  outcome : EditOutcome
  deriving DecidableEq, Repr

structure BatchSummary where
  reports : List EditReport
  filesWritten : Nat
  deriving DecidableEq, Repr

namespace BatchSummary

def applied (s : BatchSummary) : Nat := s.reports.countP (·.outcome == .applied)

def skipped (s : BatchSummary) : Nat := s.reports.length - s.applied

def code : EditOutcome → DiagnosticCode
  | .applied => .patchApplied
  | .alreadyApplied => .patchAlreadyApplied
  | .anchorMissing => .patchAnchorMissing
  | .skippedMode => .info
  | .noop => .info

def diagnostic (r : EditReport) : Diagnostic :=
  ⟨code r.outcome, .info, s!"{r.edit}: {r.outcome.text}", some ⟨r.path, none⟩, []⟩

def diagnostics (s : BatchSummary) : List Diagnostic := s.reports.map diagnostic

end BatchSummary

/-- A file as read, and as it is after the edits so far. -/
structure Snapshot where
  path : String
  stored : String
  current : String
  deriving DecidableEq, Repr

structure Batch where
  transactions : List Transaction
  /-- Leaves out the edits that skip. -/
  extensionMode : Bool

namespace Batch

def readTarget (d : Disk) (path : String) : Except PatchError String :=
  match d.read path with
  | .error e => .error (.io path e.message)
  | .ok (.text s) => .ok s
  | .ok (.binary bs) =>
    match Utf8.decode bs with
    | .ok s => .ok s
    | .error fault => .error (.malformed path fault.message)

def samePath (p q : String) : Bool := Path.steps p == Path.steps q

def open? (d : Disk) (path : String) (snaps : List Snapshot) : Except PatchError Snapshot :=
  match snaps.find? (samePath path ·.path) with
  | some s => .ok s
  | none => (readTarget d path).map fun text => ⟨path, text, text⟩

def close (s : Snapshot) : List Snapshot → List Snapshot
  | [] => [s]
  | t :: ts => if samePath s.path t.path then s :: ts else t :: close s ts

def isLeftOut (extensionMode : Bool) (e : Edit) : Bool := extensionMode && e.skips

def applyEdit (extensionMode : Bool) (content : String) (e : Edit) : EditOutcome × String :=
  if isLeftOut extensionMode e then (.skippedMode, content)
  else
    let (outcome, updated) := e.apply content
    (outcome, updated.getD content)

def applyEdits (extensionMode : Bool) : String → List Edit → List (String × EditOutcome) × String
  | content, [] => ([], content)
  | content, e :: es =>
    let (outcome, content) := applyEdit extensionMode content e
    let (outcomes, content) := applyEdits extensionMode content es
    ((e.name, outcome) :: outcomes, content)

/-- Carries out a transaction in memory. A file whose edits are all left out is not read. -/
def applyTransaction (extensionMode : Bool) (d : Disk) (st : List Snapshot × List EditReport)
    (t : Transaction) : Except PatchError (List Snapshot × List EditReport) :=
  if extensionMode && t.edits.all (·.skips) then
    .ok (st.1, st.2 ++ t.edits.map fun e => ⟨t.path, e.name, .skippedMode⟩)
  else
    (open? d t.path st.1).map fun snap =>
      let (outcomes, current) := applyEdits extensionMode snap.current t.edits
      (close { snap with current } st.1, st.2 ++ outcomes.map fun (name, o) => ⟨t.path, name, o⟩)

def inOrder (snaps : List Snapshot) : List Snapshot :=
  snaps.mergeSort fun s t => !Path.before t.path s.path

def writeAll : List Snapshot → Disk → Nat → Except PatchError Nat × Disk
  | [], d, n => (.ok n, d)
  | s :: ss, d, n =>
    if s.current = s.stored then writeAll ss d n
    else match d.write s.path (.text s.current) with
      | .error e => (.error (.io s.path e.message), d)
      | .ok d => writeAll ss d (n + 1)

def process (b : Batch) (d : Disk) : Except PatchError BatchSummary × Disk :=
  match b.transactions.foldlM (applyTransaction b.extensionMode d) ([], []) with
  | .error e => (.error e, d)
  | .ok (snaps, reports) =>
    match writeAll (inOrder snaps) d 0 with
    | (.error e, d) => (.error e, d)
    | (.ok n, d) => (.ok ⟨reports, n⟩, d)

end Batch

end FragmentMerge
