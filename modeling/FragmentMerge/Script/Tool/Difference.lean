import FragmentMerge.Script.Tool.Files

/-! `diff`: the lines in which two files differ. -/

namespace FragmentMerge.Script.Tool

open Job

/-- The lengths of the longest common rows of a text's ends with those of another one: for each end of the
second text, the first end being given. -/
def commonNext [BEq α] (a : α) (bs : List α) (before : List Nat) : List Nat :=
  match bs, before with
  | b :: bs, here :: next :: more =>
    let after := commonNext a bs (next :: more)
    (if a == b then next + 1 else max here (after.headD 0)) :: after
  | _, _ => [0]

/-- For each end of the first text, the lengths of its longest common rows with the ends of the
second. -/
def commonLengths [BEq α] (bs : List α) : List α → List (List Nat)
  | [] => [List.replicate (bs.length + 1) 0]
  | a :: as =>
    let below := commonLengths bs as
    commonNext a bs (below.headD []) :: below

def apart [BEq α] : Nat → List α → List α → List (List Nat) → List Bool × List Bool
  | 0, as, bs, _ => (as.map fun _ => true, bs.map fun _ => true)
  | _, [], bs, _ => ([], bs.map fun _ => true)
  | _, as, [], _ => (as.map fun _ => true, [])
  | n + 1, a :: as, b :: bs, here :: next :: more =>
    if a == b then
      let (x, y) := apart n as bs ((next :: more).map List.tail)
      (false :: x, false :: y)
    else if next.headD 0 ≥ (here.drop 1).headD 0 then
      let (x, y) := apart n as (b :: bs) (next :: more)
      (true :: x, y)
    else
      let (x, y) := apart n (a :: as) bs ((here :: next :: more).map List.tail)
      (x, true :: y)
  | _, as, bs, _ => (as.map fun _ => true, bs.map fun _ => true)

/-- Moves runs of elements that are apart as far back as the text allows: a run may go one further when
the element after it is like its first one. -/
def slid [BEq α] (as : Array α) (marks : Array Bool) : Nat → Nat → Nat → Array Bool
  | 0, _, _ => marks
  | n + 1, start, i =>
    if as.size ≤ i then marks
    else if marks.getD i false then slid as marks n start (i + 1)
    else if start < i && as[start]? == as[i]? then
      let marks := (marks.setIfInBounds start false).setIfInBounds i true
      slid as marks n (start + 1) (i + 1)
    else slid as marks n (i + 1) (i + 1)

/-- A place where texts differ: the lines of each, counted from nought, from one to before another. -/
structure Hunk where
  start : Nat
  stop : Nat
  newStart : Nat
  newStop : Nat
  deriving DecidableEq, Repr

def hunks (i j : Nat) : Nat → List Bool → List Bool → List Hunk
  | 0, _, _ => []
  | n + 1, x, y =>
    match x, y with
    | false :: x, false :: y => hunks (i + 1) (j + 1) n x y
    | [], [] => []
    | x, y =>
      let gone := (x.takeWhile id).length
      let come := (y.takeWhile id).length
      if gone + come == 0 then []
      else ⟨i, i + gone, j, j + come⟩ :: hunks (i + gone) (j + come) n (x.drop gone) (y.drop come)

/-- Where two texts differ. Lines that both start or end with are common to them. -/
def differences [BEq α] (as bs : List α) : List Hunk :=
  let lead := ((as.zip bs).takeWhile fun (a, b) => a == b).length
  let as' := as.drop lead
  let bs' := bs.drop lead
  let tail := ((as'.reverse.zip bs'.reverse).takeWhile fun (a, b) => a == b).length
  let inner := as'.take (as'.length - tail)
  let inner' := bs'.take (bs'.length - tail)
  let (x, y) := apart (inner.length + inner'.length + 1) inner inner' (commonLengths inner' inner)
  let around (marks : List Bool) : List Bool :=
    List.replicate lead false ++ marks ++ List.replicate tail false
  let slide (texts : List α) (marks : List Bool) : List Bool :=
    (slid texts.toArray (around marks).toArray (2 * texts.length + 2) 0 0).toList
  let x := if y.any id then around x else slide as x
  let y := if x.any id then around y else slide bs y
  hunks 0 0 (as.length + bs.length + 1) x y

namespace Hunk

def range (first last : Nat) : String :=
  if first + 1 == last then s!"{last}" else if first == last then s!"{first}" else s!"{first + 1},{last}"

def marked (mark : String) (row : List Char) : String :=
  let text := mark ++ String.ofList row
  if row.getLast? == some '\n' then text else text ++ "\n\\ No newline at end of file\n"

def text (h : Hunk) (as bs : List (List Char)) : String :=
  let gone := (as.drop h.start).take (h.stop - h.start)
  let come := (bs.drop h.newStart).take (h.newStop - h.newStart)
  let letter := if gone.isEmpty then "a" else if come.isEmpty then "d" else "c"
  range h.start h.stop ++ letter ++ range h.newStart h.newStop ++ "\n" ++
    String.join (gone.map (marked "< ")) ++ (if letter == "c" then "---\n" else "") ++
    String.join (come.map (marked "> "))

end Hunk

def comparable (given : List Given) (row : List Char) : List Char :=
  let row := if gives given 'i' then row.map Char.toLower else row
  if gives given 'w' then row.filter fun c => c == '\n' || !isSpace c
  else if gives given 'b' then
    let words := (row.splitOnP isSpace).filter (!·.isEmpty)
    (if row.head?.any isSpace then [' '] else []) ++ List.intercalate [' '] words
  else row

def compareFiles (given : List Given) (head a b : String) : Job Unit := do
  match ← operandText a, ← operandText b with
  | .error e, .error why => do
    complainAs 2 s!"{a}: {e.reason}"
    complainAs 2 s!"{b}: {why.reason}"
  | .error e, _ => complainAs 2 s!"{a}: {e.reason}"
  | _, .error e => complainAs 2 s!"{b}: {e.reason}"
  | .ok s, .ok t =>
    let rows := wholeRows s
    let rows' := wholeRows t
    let isBlank (r : List Char) : Bool := r == ['\n'] || r.isEmpty
    let found := differences (rows.map (comparable given)) (rows'.map (comparable given))
    let found := if gives given 'B' then found.filter fun h =>
        !(((rows.drop h.start).take (h.stop - h.start)) ++
          (rows'.drop h.newStart).take (h.newStop - h.newStart)).all isBlank
      else found
    if found.isEmpty then
      if gives given 's' then print s!"Files {a} and {b} are identical\n"
    else
      if gives given 'q' then print s!"Files {a} and {b} differ\n"
      else if s.contains '\x00' || t.contains '\x00' then
        print s!"Binary files {a} and {b} differ\n"
      else print (head ++ String.join (found.map fun h => h.text rows rows'))
      let status := (← get).status
      setStatus (max status (if (s.contains '\x00' || t.contains '\x00') && !gives given 'q' then 2 else 1))

def compareTrees (given : List Given) : Nat → String → String → Job Unit
  | 0, _, _ => pure ()
  | n + 1, a, b => do
    let d ← disk
    let names (path : String) : List String :=
      match d.locate (Octet.decode path) with
      | .ok (.directory way) => (d.namesIn way).map Octet.encode
      | _ => []
    let all := ((names a ++ names b).eraseDups).mergeSort fun x y => x ≤ y
    for name in all do
      let p := below a name
      let other := below b name
      if !(names b).contains name then do
        if gives given 'N' then pure () else print s!"Only in {a}: {name}\n"
        setStatus (max (← get).status 1)
      else if !(names a).contains name then do
        print s!"Only in {b}: {name}\n"
        setStatus (max (← get).status 1)
      else if (← isDirectory p) && (← isDirectory other) then
        if gives given 'r' then compareTrees given n p other
        else print s!"Common subdirectories: {p} and {other}\n"
      else if ← isDirectory p then do
        print s!"File {p} is a directory while file {other} is a regular file\n"
        setStatus (max (← get).status 1)
      else if ← isDirectory other then do
        print s!"File {p} is a regular file while file {other} is a directory\n"
        setStatus (max (← get).status 1)
      else
        let letters := given.map fun g => "-" ++ g.letter.toString
        compareFiles given (" ".intercalate ("diff" :: letters ++ [p, other]) ++ "\n") p other

def diff : Job Unit := do
  let (given, files) ← optionsAs 2 ⟨"abBiNqrsw", "", [("brief", 'q'), ("ignore-case", 'i'), ("recursive", 'r'),
    ("report-identical-files", 's'), ("ignore-all-space", 'w'), ("ignore-space-change", 'b'),
    ("ignore-blank-lines", 'B'), ("new-file", 'N'), ("text", 'a')]⟩
  match files with
  | [a, b] =>
    if (← isDirectory a) && (← isDirectory b) then
      compareTrees given ((← disk).entries.length + 1) a b
    else if ← isDirectory a then compareFiles given "" (below a (baseName b)) b
    else if ← isDirectory b then compareFiles given "" a (below b (baseName a))
    else compareFiles given "" a b
  | [] => misuseAs 2 "missing operand after 'diff'"
  | [a] => misuseAs 2 s!"missing operand after {quotedName a}"
  | _ :: _ :: c :: _ => misuseAs 2 s!"extra operand {quotedName c}"

end FragmentMerge.Script.Tool
