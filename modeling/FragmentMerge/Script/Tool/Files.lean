import FragmentMerge.Script.Tool.Basic

/-! Tools that make, move and remove files. -/

namespace FragmentMerge

namespace Disk

/-- Moves an entry, and all below it, to another place, where it replaces what stands there. -/
def moveTo (d : Disk) (source target : List String) : Disk :=
  let moved := d.entries.filterMap fun (k, e) =>
    if source.isPrefixOf k then some (target ++ k.drop source.length, e) else none
  let d := (d.prune source).prune target
  { d with entries := d.entries ++ moved }

/-- Copies an entry, and all below it, to another place; directories there are kept. -/
def copyTo (d : Disk) (source target : List String) : Disk :=
  (d.entries.filter fun (k, _) => source.isPrefixOf k).foldl
    (fun d (k, e) => d.put (target ++ k.drop source.length) e) d

def isEmptyAt (d : Disk) (way : List String) : Bool := (d.namesIn way).isEmpty

end Disk

namespace Script

def baseName (p : String) : String :=
  let s := (p.toList.reverse.dropWhile (· == '/')).reverse
  if s.isEmpty then (if p.isEmpty then "" else "/")
  else String.ofList (s.reverse.takeWhile (· != '/')).reverse

def directoryName (p : String) : String :=
  let s := (p.toList.reverse.dropWhile (· == '/')).reverse
  if s.isEmpty then (if p.isEmpty then "." else "/")
  else
    let up := s.reverse.dropWhile (· != '/')
    if up.isEmpty then "."
    else
      let up := up.dropWhile (· == '/')
      if up.isEmpty then "/" else String.ofList up.reverse

def below (directory name : String) : String :=
  if directory.toList.getLast? == some '/' then directory ++ name else directory ++ "/" ++ name

namespace Tool

open Job

def spot (path : String) : Job (Except Errno Disk.Spot) := do
  match (← disk).locate (Octet.decode path) with
  | .ok (.vacant _ _) => pure (.error .notFound)
  | .ok s => pure (.ok s)
  | .error e => pure (.error e)

def wayOf : Disk.Spot → List String
  | .directory way => way
  | .file way _ => way
  | .vacant way _ => way

def touch : Job Unit := do
  let (given, files) ← options ⟨"acfhm", "drt", [("no-create", 'c')]⟩
  if files.isEmpty then misuse "missing file operand"
  for f in files do
    if !(← isThere f) && !gives given 'c' then
      match ← change fun d => d.write (Octet.decode f) (.text "") with
      | .ok () => pure ()
      | .error .isDirectory => complain s!"setting times of {quotedName f}: No such file or directory"
      | .error e => complain s!"cannot touch {quotedName f}: {e.reason}"

def makeOne (tells : Bool) (path : String) : Job Bool := do
  match ← change fun d => d.makeDirectory (Octet.decode path) with
  | .ok () => do
    if tells then print s!"mkdir: created directory {quotedName path}\n"
    pure true
  | .error e => do
    complain s!"cannot create directory {quotedName path}: {e.reason}"
    pure false

def stepsUp (path : String) : List String :=
  let parts := path.toList.splitOn '/'
  (List.range parts.length).filterMap fun i =>
    if (parts[i]?.getD []).isEmpty then none
    else some (String.ofList (List.intercalate ['/'] (parts.take (i + 1))))

def makeAll (tells : Bool) : List String → Job Unit
  | [] => pure ()
  | p :: ps => do
    if ← isDirectory p then makeAll tells ps
    else if !ps.isEmpty && (← isFile p) then complain s!"cannot create directory {quotedName p}: Not a directory"
    else if ← makeOne tells p then makeAll tells ps

def mkdir : Job Unit := do
  let (given, paths) ← options ⟨"pv", "m", [("parents", 'p'), ("verbose", 'v'), ("mode", 'm')]⟩
  if paths.isEmpty then misuse "missing operand"
  for p in paths do
    if gives given 'p' then
      if (stepsUp p).isEmpty && !p.startsWith "/" then
        complain s!"cannot create directory {quotedName p}: No such file or directory"
      else makeAll (gives given 'v') (stepsUp p)
    else
      let _ ← makeOne (gives given 'v') p

def removeEmpty (tells : Bool) (path : String) : Job Bool := do
  let refuse (reason : String) : Job Bool := do
    complain s!"failed to remove {quotedName path}: {reason}"
    pure false
  if tells then print s!"rmdir: removing directory, {quotedName path}\n"
  match ← spot path with
  | .ok (.directory way) =>
    let d ← disk
    if (baseName path) == "." then refuse "Invalid argument"
    else if !d.isEmptyAt way then refuse "Directory not empty"
    else
      modify fun b => { b with disk := d.prune way }
      pure true
  | .ok _ => refuse "Not a directory"
  | .error e => refuse e.reason

def removeEmptyUp (tells : Bool) : List String → Job Unit
  | [] => pure ()
  | p :: ps => do
    if ← removeEmpty tells p then removeEmptyUp tells ps

def rmdir : Job Unit := do
  let (given, paths) ← options ⟨"pv", "", [("parents", 'p'), ("verbose", 'v'),
    ("ignore-fail-on-non-empty", 'i')]⟩
  if paths.isEmpty then misuse "missing operand"
  for p in paths do
    removeEmptyUp (gives given 'v') (if gives given 'p' then (stepsUp p).reverse else [p])

/-- What is told when a directory goes, and all below it, which goes first. -/
def removalsBelow (d : Disk) : Nat → String → List String → List String
  | 0, _, _ => []
  | n + 1, path, way =>
    ((d.namesIn way).flatMap fun name =>
      let inner := below path (Octet.encode name)
      match d.entry? (way ++ [name]) with
      | some .directory => removalsBelow d n inner (way ++ [name])
      | _ => [s!"removed {quotedName inner}\n"]) ++ [s!"removed directory {quotedName path}\n"]

def removeOne (given : List Given) (path : String) : Job Unit := do
  let isTree := gives given 'r' || gives given 'R'
  let tells := gives given 'v'
  let name := baseName path
  match ← spot path with
  | .error .notFound => if !gives given 'f' then complain s!"cannot remove {quotedName path}: {Errno.notFound.reason}"
  | .error .notDirectory =>
    if !gives given 'f' then complain s!"cannot remove {quotedName path}: {Errno.notDirectory.reason}"
  | .error e => complain s!"cannot remove {quotedName path}: {e.reason}"
  | .ok (.directory way) =>
    if isTree && (name == "." || name == "..") then
      complain s!"refusing to remove '.' or '..' directory: skipping {quotedName path}"
    else if isTree || (gives given 'd' && (← disk).isEmptyAt way) then
      let d ← disk
      modify fun b => { b with disk := b.disk.prune way }
      if tells then print (String.join (removalsBelow d (d.entries.length + 1) path way))
    else if gives given 'd' then complain s!"cannot remove {quotedName path}: Directory not empty"
    else complain s!"cannot remove {quotedName path}: Is a directory"
  | .ok spot =>
    modify fun b => { b with disk := b.disk.prune (wayOf spot) }
    if tells then print s!"removed {quotedName path}\n"

def rm : Job Unit := do
  let (given, paths) ← options ⟨"dfiIrRv", "", [("force", 'f'), ("recursive", 'r'), ("dir", 'd'),
    ("verbose", 'v')]⟩
  if paths.isEmpty && !gives given 'f' then misuse "missing operand"
  for p in paths do
    removeOne given p

/-- The target of copies and the paths that go there, each with the path that it gets. -/
def pairs (given : List Given) (paths : List String) : Job (List (String × String)) := do
  let (paths, target, intoDirectory) ← match valueOf? given 't' with
    | some t => do
      if paths.isEmpty then misuse "missing file operand"
      pure (paths, t, true)
    | none =>
      match paths with
      | [] => misuse "missing file operand"
      | [p] => misuse s!"missing destination file operand after {quotedName p}"
      | paths => do
        let target := paths.getLastD ""
        let extra := paths.getD 2 ""
        if gives given 'T' && 2 < paths.length then misuse s!"extra operand {quotedName extra}"
        pure (paths.dropLast, target, 2 < paths.length)
  let isDir ← isDirectory target
  if intoDirectory && !isDir then
    match ← spot target with
    | .error e => fail s!"target {quotedName target}: {e.reason}"
    | .ok _ => fail s!"target {quotedName target}: Not a directory"
  pure (paths.map fun p =>
    (p, if isDir && !gives given 'T' then below target (baseName p) else target))

def tell (given : List Given) (message : String) : Job Unit := do
  if gives given 'v' then print (message ++ "\n")

def copiesBelow (d : Disk) : Nat → String → String → List String → List String
  | 0, _, _, _ => []
  | n + 1, source, target, way =>
    s!"{quotedName source} -> {quotedName target}\n" :: (d.namesIn way).flatMap fun name =>
      let inner := below source (Octet.encode name)
      let goal := below target (Octet.encode name)
      match d.entry? (way ++ [name]) with
      | some .directory => copiesBelow d n inner goal (way ++ [name])
      | _ => [s!"{quotedName inner} -> {quotedName goal}\n"]

def copyOne (given : List Given) (source target : String) : Job Unit := do
  let isTree := gives given 'r' || gives given 'R' || gives given 'a'
  match ← spot source, ← spot target with
  | .error e, _ => complain s!"cannot stat {quotedName source}: {e.reason}"
  | .ok (.directory way), there =>
    if !isTree then complain s!"-r not specified; omitting directory {quotedName source}"
    else match there with
    | .ok (.directory way') =>
      if way.isPrefixOf way' then
        complain s!"cannot copy a directory, {quotedName source}, into itself, {quotedName target}"
      else
        let d ← disk
        modify fun b => { b with disk := b.disk.copyTo way way' }
        if gives given 'v' then
          print (String.join ((copiesBelow d (d.entries.length + 1) source target way).drop 1))
    | .ok _ => complain s!"cannot overwrite non-directory {quotedName target} with directory {quotedName source}"
    | .error _ =>
      match (← disk).locate (Octet.decode target) with
      | .ok (.vacant way' _) =>
        if way.isPrefixOf way' then
          complain s!"cannot copy a directory, {quotedName source}, into itself, {quotedName target}"
        else
          let d ← disk
          modify fun b => { b with disk := b.disk.copyTo way way' }
          if gives given 'v' then
            print (String.join (copiesBelow d (d.entries.length + 1) source target way))
      | .ok _ => pure ()
      | .error e => complain s!"cannot create directory {quotedName target}: {e.reason}"
  | .ok (.file way c), there =>
    match there with
    | .ok (.directory _) =>
      complain s!"cannot overwrite directory {quotedName target} with non-directory"
    | .ok (.file way' _) =>
      if way == way' then complain s!"{quotedName source} and {quotedName target} are the same file"
      else if !gives given 'n' then
        modify fun b => { b with disk := b.disk.put way' (.file c) }
        tell given s!"{quotedName source} -> {quotedName target}"
    | _ =>
      match ← change fun d => d.write (Octet.decode target) c with
      | .ok () => tell given s!"{quotedName source} -> {quotedName target}"
      | .error .isDirectory => complain s!"cannot create regular file {quotedName target}: Not a directory"
      | .error e => complain s!"cannot create regular file {quotedName target}: {e.reason}"
  | .ok _, _ => pure ()

def copyOptions : Options :=
  ⟨"abdfHilLnprRsTuvx", "tS", [("recursive", 'r'), ("archive", 'a'), ("force", 'f'), ("verbose", 'v'),
    ("no-clobber", 'n'), ("target-directory", 't'), ("no-target-directory", 'T')]⟩

def cp : Job Unit := do
  let (given, paths) ← options copyOptions
  for (source, target) in ← pairs given paths do
    copyOne given source target

def moveOne (given : List Given) (source target : String) : Job Unit := do
  let renamed := s!"renamed {quotedName source} -> {quotedName target}"
  match ← spot source, ← spot target with
  | .error e, _ => complain s!"cannot stat {quotedName source}: {e.reason}"
  | .ok origin, .ok goal =>
    let way := wayOf origin
    let way' := wayOf goal
    let isDir := match origin with
      | .directory _ => true
      | _ => false
    let ontoDir := match goal with
      | .directory _ => true
      | _ => false
    if way == way' then complain s!"{quotedName source} and {quotedName target} are the same file"
    else if gives given 'n' then pure ()
    else if isDir && way.isPrefixOf way' then
      complain s!"cannot move {quotedName source} to a subdirectory of itself, {quotedName target}"
    else if isDir && !ontoDir then
      complain s!"cannot overwrite non-directory {quotedName target} with directory {quotedName source}"
    else if !isDir && ontoDir then
      complain s!"cannot overwrite directory {quotedName target} with non-directory"
    else if isDir && !(← disk).isEmptyAt way' then
      complain s!"cannot overwrite {quotedName target}: Directory not empty"
    else
      modify fun b => { b with disk := b.disk.moveTo way way' }
      tell given renamed
  | .ok origin, .error _ =>
    match (← disk).locate (Octet.decode target), origin with
    | .ok (.vacant _ true), .file _ _ => complain s!"cannot move {quotedName source} to {quotedName target}: Not a directory"
    | .ok (.vacant way' _), origin =>
      if (wayOf origin).isPrefixOf way' then
        complain s!"cannot move {quotedName source} to a subdirectory of itself, {quotedName target}"
      else
        modify fun b => { b with disk := b.disk.moveTo (wayOf origin) way' }
        tell given renamed
    | .ok _, _ => pure ()
    | .error e, _ => complain s!"cannot move {quotedName source} to {quotedName target}: {e.reason}"

def mv : Job Unit := do
  let (given, paths) ← options ⟨"bfinTuvZ", "tS", copyOptions.long⟩
  for (source, target) in ← pairs given paths do
    moveOne given source target

def modeRuns? (mode : String) : Option (Option Bool) :=
  if (digitsOnly? mode).isSome then
    if mode.toList.all fun c => '0' ≤ c && c ≤ '7' then
      some (some (mode.toList.reverse.take 3 |>.any fun c => (c.toNat - 48) % 2 == 1))
    else none
  else
    let parts := mode.toList.splitOn ','
    let valid := parts.all fun p =>
      match p.dropWhile fun c => "ugoa".toList.contains c with
      | c :: r => (c == '+' || c == '-' || c == '=') && r.all fun c => "rwxXst".toList.contains c
      | [] => false
    if !valid then none
    else
      some (parts.foldl (fun known p =>
        let p := p.dropWhile fun c => "ugoa".toList.contains c
        if p.contains 'x' then some (p.head? != some '-')
        else if p.head? == some '=' then some false
        else known) none)

def chmod : Job Unit := do
  let args := (← get).call.args
  let isMode (a : String) : Bool := a.startsWith "-" && (modeRuns? a).isSome && 1 < a.length
  let modes := args.filter isMode
  let b ← get
  set { b with call := { b.call with args := args.filter (!isMode ·) } }
  let (given, operands) ← options ⟨"cfvR", "", [("recursive", 'R'), ("verbose", 'v')]⟩
  let (mode, files) ← match modes, operands with
    | m :: _, files => pure (m, files)
    | [], m :: files => pure (m, files)
    | [], [] => misuse "missing operand"
  if files.isEmpty then misuse s!"missing operand after {quotedName mode}"
  match modeRuns? mode with
  | none => misuse s!"invalid mode: {quotedName mode}"
  | some runs =>
    for f in files do
      match ← spot f with
      | .error e => complain s!"cannot access {quotedName f}: {e.reason}"
      | .ok s =>
        let way := wayOf s
        let d ← disk
        let ways := if gives given 'R' then
            d.entries.filterMap fun (k, _) => if way.isPrefixOf k then some k else none
          else [way]
        match runs with
        | none => pure ()
        | some runs => modify fun b =>
          let others := b.runnable.filter (!ways.contains ·)
          { b with runnable := if runs then ways ++ others else others }

def cmp : Job Unit := do
  let (given, files) ← optionsAs 2 ⟨"bls", "in", [("quiet", 's'), ("silent", 's')]⟩
  let quiet := gives given 's'
  let (a, b) ← match files with
    | [] => misuseAs 2 "missing operand after 'cmp'"
    | [a] => pure (a, "-")
    | a :: b :: _ => pure (a, b)
  match ← operandText a, ← operandText b with
  | .error e, _ => failAs 2 s!"{a}: {e.reason}"
  | _, .error e => failAs 2 s!"{b}: {e.reason}"
  | .ok s, .ok t =>
    let n := ((s.zip t).takeWhile fun (c, d) => c == d).length
    if gives given 'l' && !quiet then
      let width := (toString (min s.length t.length)).length
      let octal (c : Char) : String := rightAligned 3 (String.ofList (Nat.toDigits 8 c.toNat))
      for ((c, d), i) in (s.zip t).zipIdx do
        if c != d then
          print (rightAligned width (toString (i + 1)) ++ " " ++ octal c ++ " " ++ octal d ++ "\n")
          setStatus 1
      if s.length != t.length then
        let short := if s.length < t.length then a else b
        let taken := min s.length t.length
        complain (if taken == 0 then s!"EOF on {short} which is empty" else s!"EOF on {short} after byte {taken}")
    else if n < s.length && n < t.length then
      let line := ((s.take n).filter (· == '\n')).length + 1
      if !quiet then print s!"{a} {b} differ: char {n + 1}, line {line}\n"
      setStatus 1
    else if s.length != t.length then
      let short := if s.length < t.length then a else b
      let lines := ((s.take n).filter (· == '\n')).length
      let place := if (s.take n).getLast? == some '\n' then s!"line {lines}" else s!"in line {lines + 1}"
      if !quiet then
        complain (if n == 0 then s!"EOF on {short} which is empty"
          else s!"EOF on {short} after byte {n}, {place}")
      setStatus 1

def tee : Job Unit := do
  let (given, files) ← options ⟨"aip", "", [("append", 'a')]⟩
  let s ← input
  for f in files do
    let old ← if gives given 'a' then fileText f else pure (.ok [])
    let text := (old.toOption.getD []) ++ s
    if f != "/dev/null" then
      match ← change fun d => d.write (Octet.decode f) (Content.ofBytes (Octet.toBytes text)) with
      | .ok () => pure ()
      | .error e => complain s!"{plainName f}: {e.reason}"
  printChars s

end Tool

end Script

end FragmentMerge
