import FragmentMerge.Command.Work

/-! The generator: a command of the configuration, which is run between the merge and the patch. -/

namespace FragmentMerge.Program

/-- The generator's command, with the path of the document filled in. -/
def generatorCommand (c : Config) (template : String) : String :=
  Text.replaced "\x7bschema\x7d" (c.path c.output.schema) template

/-- Runs the generator in the project's root. -/
def generate [SystemShell] (c : Config) : Task Unit :=
  match c.output.generateCommand with
  | none => Task.print (.err "No output.generate_command configured, skipping generation")
  | some template => do
    let command := generatorCommand c template
    Task.print (.progress s!"Running: {command}")
    let d ← Task.disk
    let effect := SystemShell.run command (d.enter c.root)
    modify fun w => { w with disk := { effect.disk with here := d.here } }
    Task.print (.passedOut effect.out)
    Task.print (.passedErr effect.err)
    if !effect.ended.isSuccess then throw (.generator effect.ended command)

end FragmentMerge.Program
