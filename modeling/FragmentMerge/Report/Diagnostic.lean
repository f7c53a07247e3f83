import FragmentMerge.Data.Decode

/-! Diagnostics: what a run has to say, with a stable code and a severity. -/

namespace FragmentMerge

inductive DiagnosticCode where
  | configMissingBase
  | configMissingGenerator
  | configMissingDatasource
  | configMissingField
  | mergeNameConflict
  | mergeCrossFileRelation
  | mergeUnresolvedConflict
  | mergeActionApplied
  | mergeIntrospectionDiverged
  | patchApplied
  | patchAlreadyApplied
  | patchAnchorMissing
  | featureWritten
  | featureUnchanged
  | info
  | warning
  deriving DecidableEq, Repr

namespace DiagnosticCode

def text : DiagnosticCode → String
  | configMissingBase => "CONFIG_MISSING_BASE"
  | configMissingGenerator => "CONFIG_MISSING_GENERATOR"
  | configMissingDatasource => "CONFIG_MISSING_DATASOURCE"
  | configMissingField => "CONFIG_MISSING_FIELD"
  | mergeNameConflict => "MERGE_NAME_CONFLICT"
  | mergeCrossFileRelation => "MERGE_CROSS_FILE_RELATION"
  | mergeUnresolvedConflict => "MERGE_UNRESOLVED_CONFLICT"
  | mergeActionApplied => "MERGE_ACTION_APPLIED"
  | mergeIntrospectionDiverged => "MERGE_INTROSPECTION_DIVERGED"
  | patchApplied => "PATCH_APPLIED"
  | patchAlreadyApplied => "PATCH_ALREADY_APPLIED"
  | patchAnchorMissing => "PATCH_ANCHOR_MISSING"
  | featureWritten => "FEATURE_WRITTEN"
  | featureUnchanged => "FEATURE_UNCHANGED"
  | info => "INFO"
  | warning => "WARNING"

def all : List DiagnosticCode :=
  [configMissingBase, configMissingGenerator, configMissingDatasource, configMissingField,
   mergeNameConflict, mergeCrossFileRelation, mergeUnresolvedConflict, mergeActionApplied,
   mergeIntrospectionDiverged, patchApplied, patchAlreadyApplied, patchAnchorMissing,
   featureWritten, featureUnchanged, info, warning]

def words : List (String × DiagnosticCode) := all.map fun c => (c.text, c)

end DiagnosticCode

inductive Severity where
  | info
  | warn
  | error
  deriving DecidableEq, Repr

namespace Severity

def text : Severity → String
  | info => "info"
  | warn => "warn"
  | error => "error"

def words : List (String × Severity) := [("info", info), ("warn", warn), ("error", error)]

def rank : Severity → Nat
  | info => 0
  | warn => 1
  | error => 2

end Severity

structure Location where
  file : String
  line : Option Nat
  deriving DecidableEq, Repr

namespace Location

def text (l : Location) : String :=
  match l.line with
  | some n => s!"{l.file}:{n}"
  | none => l.file

def tree (l : Location) : Tree :=
  .table [("file", .text l.file), ("line", .ofOption .nat l.line)]

def ofTree : Decoder Location := fun t => do
  let es ← Decode.record ["file", "line"] t
  let file ← Decode.field es "file" Decode.text
  let line ← Decode.absentable es "line" (Decode.natBelow (Nat.pow 2 64))
  pure ⟨file, line⟩

end Location

structure Diagnostic where
  code : DiagnosticCode
  severity : Severity
  message : String
  location : Option Location
  /-- The keys of the items concerned. -/
  subjects : List String
  deriving DecidableEq, Repr

namespace Diagnostic

def tree (d : Diagnostic) : Tree :=
  .table ([("code", .text d.code.text), ("severity", .text d.severity.text),
    ("message", .text d.message), ("location", .ofOption Location.tree d.location)] ++
    if d.subjects.isEmpty then [] else [("subjects", .texts d.subjects)])

def ofTree : Decoder Diagnostic := fun t => do
  let es ← Decode.record ["code", "severity", "message", "location", "subjects"] t
  let code ← Decode.field es "code" (Decode.word DiagnosticCode.words)
  let severity ← Decode.field es "severity" (Decode.word Severity.words)
  let message ← Decode.field es "message" Decode.text
  let location ← Decode.absentable es "location" Location.ofTree
  let subjects ← Decode.fieldOr es "subjects" (Decode.list Decode.text) []
  pure ⟨code, severity, message, location, subjects⟩

end Diagnostic

end FragmentMerge
