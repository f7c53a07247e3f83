import FragmentMerge.Command.Reach
import FragmentMerge.Report.Timestamp
import Std.Time.DateTime.Timestamp

/-! The command line. It reads the part of the disk that a run can look at, runs the program on it, and
brings the disk in line with the outcome. -/

namespace FragmentMerge.Main

def pathOf (way : List String) : String := "/" ++ "/".intercalate way

def namesAt? (path : String) : IO (Option (List String)) := do
  let here ← IO.currentDir
  try
    let entries ← (here / path).readDir
    pure (some (entries.toList.map fun e => e.fileName))
  catch _ => pure none

def bytesAt? (path : String) : IO (Option (List UInt8)) := do
  try
    let bytes ← IO.FS.readBinFile path
    pure (some bytes.toList)
  catch _ => pure none

/-- Puts on the disk what stands at a place; gives the names in it, if it is a directory. -/
def observe (d : Disk) (way : List String) : IO (Disk × List String) := do
  match ← namesAt? (pathOf way) with
  | some names => pure (if way.isEmpty then d else d.put way .directory, names)
  | none =>
    match ← bytesAt? (pathOf way) with
    | some bytes => pure (d.put way (.file (Content.ofBytes bytes)), [])
    | none => pure (d, [])

partial def observeBelow (d : Disk) (way : List String) : IO Disk := do
  let (d, names) ← observe d way
  names.foldlM (fun d name => observeBelow d (way ++ [name])) d

def observePath (d : Disk) (path : String) : IO (Disk × List String) := do
  let start := if Path.isAbsolute path then [] else d.here
  (Path.segments path).foldlM (fun (d, way) s => do
    if Path.isIdle s then pure (d, way)
    else if s == ".." then pure (d, way.dropLast)
    else
      let way := way ++ [s]
      let (d, _) ← observe d way
      pure (d, way)) (d, start)

def observeReach (d : Disk) (r : Reach) : IO Disk := do
  let d ← r.alone.foldlM (fun d p => do pure (← observePath d p).1) d
  r.whole.foldlM (fun d p => do
    let (d, way) ← observePath d p
    observeBelow d way) d

def settle (before after : Disk) : IO Unit := do
  for (way, e) in before.entries do
    if (after.entry? way).isNone then
      match e with
      | .file _ => try IO.FS.removeFile (pathOf way) catch _ => pure ()
      | .directory => try IO.FS.removeDirAll (pathOf way) catch _ => pure ()
  for (way, e) in after.entries do
    if before.entry? way != some e then
      match e with
      | .directory => IO.FS.createDirAll (pathOf way)
      | .file c => IO.FS.writeBinFile (pathOf way) (ByteArray.mk c.bytes.toArray)

def now : IO String := do
  let t ← Std.Time.Timestamp.now
  pure (Timestamp.text t.toNanosecondsSinceUnixEpoch.val.toNat)

def currentWay : IO (List String) := do
  let here ← IO.currentDir
  pure ((Path.segments here.toString).filter (!·.isEmpty))

def run (words : List String) : IO UInt32 := do
  let here ← currentWay
  let d ← observeReach (Disk.home here) ⟨Program.namedFiles words, []⟩
  let d ← observeReach d (Program.reach words d)
  let e := Program.run (← now) words d
  settle d e.disk
  let out ← IO.getStdout
  let err ← IO.getStderr
  err.putStr e.err
  out.putStr e.out
  pure e.code.toUInt32

end FragmentMerge.Main

def main (words : List String) : IO UInt32 := FragmentMerge.Main.run words
