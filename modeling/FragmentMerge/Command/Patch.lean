import FragmentMerge.Command.Work

/-! The patch: build the plan for the generated client and carry it out. -/

namespace FragmentMerge.Patch

def featuresDiagnostic (s : MaterializeSummary) : Diagnostic :=
  ⟨if s.changed then .featureWritten else .featureUnchanged, .info,
    s!"{s.packages} packages: {s.written} written, {s.unchanged} unchanged, {s.removed} removed",
    none, []⟩

def run (c : Config) : Task Unit := do
  Task.print (.progress "Patching generated client...")
  let d ← Task.disk
  let plan ← Task.ofExcept .plan (Plan.build c d)
  let outcome ← Task.onDisk .postProcess plan.execute
  Task.count fun n => { n with
    blocksApplied := outcome.patches.applied
    blocksSkipped := outcome.patches.skipped
    featuresWritten := outcome.features.written
    featuresUnchanged := outcome.features.unchanged }
  Task.diagnose outcome.patches.diagnostics
  Task.diagnose [featuresDiagnostic outcome.features]

end FragmentMerge.Patch
