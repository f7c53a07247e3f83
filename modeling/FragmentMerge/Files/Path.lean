import FragmentMerge.Text.Basic

/-! Paths as written. A path is a text of segments between slashes; an empty segment and a dot name
the directory they stand in, and only a dot at the start of a relative path counts as a step. -/

namespace FragmentMerge.Path

def segments (p : String) : List String := (p.toList.splitOn '/').map String.ofList

def ofSegments (ss : List String) : String := "/".intercalate ss

def isAbsolute (p : String) : Bool := p.toList.head? == some '/'

def join (p q : String) : String :=
  if isAbsolute q || p.isEmpty then q
  else if p.toList.getLast? == some '/' then p ++ q
  else p ++ "/" ++ q

def isIdle (s : String) : Bool := s.isEmpty || s == "."

/-- Drops idle segments at the end, but never the first segment. -/
def trimEnd : List String → List String
  | [] => []
  | s :: ss => s :: (ss.reverse.dropWhile isIdle).reverse

/-- The path without its last step; the empty path and the root have none. -/
def parent? (p : String) : Option String :=
  match trimEnd (segments p) with
  | [] => none
  | [s] => if s.isEmpty then none else some ""
  | ss =>
    match trimEnd ss.dropLast with
    | [""] => some "/"
    | up => some (ofSegments up)

/-- The steps of a path, and whether it starts at the root. Paths with equal steps are one path. -/
def steps (p : String) : Bool × List String :=
  match segments p with
  | [] => (false, [])
  | s :: ss =>
    let rest := ss.filter (!isIdle ·)
    if isAbsolute p then (true, rest)
    else (false, if s.isEmpty then rest else s :: rest)

def rank (s : String) : Nat := if s == "." then 0 else if s == ".." then 1 else 2

def stepBefore (a b : String) : Bool := rank a < rank b || (rank a == rank b && a < b)

def stepsBefore : List String → List String → Bool
  | _, [] => false
  | [], _ :: _ => true
  | a :: as, b :: bs => if a = b then stepsBefore as bs else stepBefore a b

/-- The order of paths, step by step; those that start at the root come first. -/
def before (p q : String) : Bool :=
  let r := steps p
  let s := steps q
  if r.1 = s.1 then stepsBefore r.2 s.2 else r.1

def dropSteps : Nat → List String → List String
  | 0, ss => ss.dropWhile isIdle
  | _, [] => []
  | n + 1, s :: ss => if isIdle s then dropSteps (n + 1) ss else dropSteps n ss

/-- The path as seen from a directory above it; any other path stays as it is. -/
def below (root p : String) : String :=
  let r := steps root
  let s := steps p
  if r = (false, []) then p
  else if r.1 = s.1 && r.2.isPrefixOf s.2 then ofSegments (dropSteps r.2.length (segments p))
  else p

/-- The name before the last dot and the extension after it; a dot that starts the name is part of
it. -/
def splitExtension (name : String) : String × Option String :=
  if name == ".." then (name, none)
  else match Text.cutLast? '.' name.toList with
  | some (c :: stem, ext) => (String.ofList (c :: stem), some (String.ofList ext))
  | _ => (name, none)

end FragmentMerge.Path
