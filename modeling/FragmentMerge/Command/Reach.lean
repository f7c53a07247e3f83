import FragmentMerge.Command.Program

/-! The part of the disk that a run can look at, so that no more of it has to be read. -/

namespace FragmentMerge

/-- Paths to look at: some alone, and some with all below them. -/
structure Reach where
  alone : List String
  whole : List String
  deriving DecidableEq, Repr

namespace Config

/-- What a run with this configuration can look at. A generator is expected to stay in the root. -/
def reach (c : Config) : Reach :=
  let client := c.path c.output.client
  let generated := if c.output.generateCommand.isSome then [c.root] else []
  ⟨c.path c.output.schema :: Path.join client "index.d.ts" :: Path.join client "index.js" ::
      c.base.toList.map c.path,
    c.path c.output.features :: c.fragments.map c.path ++ generated⟩

end Config

namespace Program

def namedFiles (words : List String) : List String :=
  match Arguments.parse words with
  | .run _ config _ report => config.getD defaultConfig :: report.toList
  | _ => []

/-- What a run with these words can look at, once the files that they name are on the disk. -/
def reach (words : List String) (d : Disk) : Reach :=
  match Arguments.parse words with
  | .run _ config _ _ =>
    match Config.ofFile d (config.getD defaultConfig) with
    | .ok c => c.reach
    | .error _ => ⟨[], []⟩
  | _ => ⟨[], []⟩

end Program

end FragmentMerge
