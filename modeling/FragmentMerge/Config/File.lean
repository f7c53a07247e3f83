import FragmentMerge.Config.Coding
import FragmentMerge.Files.Disk

/-! Configuration files. The directory of the file is the root of the project, always written from the
root of the disk. -/

namespace FragmentMerge

namespace Config

def rootOf (d : Disk) (path : String) : String :=
  let dir := (Path.parent? path).getD ""
  if Path.isAbsolute dir then dir
  else if dir.isEmpty then
    if d.here.isEmpty then "/" else d.hereText ++ "/"
  else Path.join d.hereText dir

def ofFile (d : Disk) (path : String) : Except ConfigError Config :=
  match d.readText path with
  | .error detail => .error (.io s!"{path}: {detail}")
  | .ok s => (parse s).map fun c => { c with root := rootOf d path }

def save (c : Config) (d : Disk) (path : String) : Except ConfigError Disk :=
  match c.write with
  | .error e => .error e
  | .ok s => (d.write path (.text s)).mapError fun e => .io e.message

end Config

end FragmentMerge
