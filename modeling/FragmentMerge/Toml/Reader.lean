import FragmentMerge.Toml.Scalar

/-! Reads a TOML document into a tree. Tables grow entry by entry, and each remembers how it came
to be, because only some of them may be opened again. -/

namespace FragmentMerge.Toml

/-- How a table came to be: by its own header or as an inline table, as a step on the way to a
header, or as a step on the way to a dotted key. -/
inductive Origin where
  | header
  | passed
  | dotted
  deriving DecidableEq, Repr

inductive Node where
  | value (t : Tree)
  | table (origin : Origin) (entries : List (String × Node))
  | tables (items : List (List (String × Node)))
  deriving Inhabited

abbrev Entries := List (String × Node)

mutual

def Node.tree : Node → Tree
  | .value t => t
  | .table _ es => .table (treesOf es)
  | .tables items => .list (tablesOf items)

def treesOf : List (String × Node) → List (String × Tree)
  | [] => []
  | (k, n) :: es => (k, n.tree) :: treesOf es

def tablesOf : List (List (String × Node)) → List Tree
  | [] => []
  | es :: items => .table (treesOf es) :: tablesOf items

end

/-- Replaces the entry of a key, or adds it at the end. -/
def put (k : String) (n : Node) : Entries → Entries
  | [] => [(k, n)]
  | (k', n') :: es => if k' = k then (k, n) :: es else (k', n') :: put k n es

def changeLast (f : Entries → Option Entries) : List Entries → Option (List Entries)
  | [] => none
  | [es] => (f es).map fun es => [es]
  | es :: items => (changeLast f items).map fun items => es :: items

/-- Goes down a path and changes the entries of the table at its end, knowing that table's origin.
Tables that are not there are made with the origin `made`. A dotted key may not pass a table that
has its own header. -/
def changeAt (made : Origin) (f : Origin → Entries → Option Entries) :
    List String → Origin → Entries → Option Entries
  | [], o, es => f o es
  | k :: path, _, es =>
    match es.lookup k with
    | none => (changeAt made f path made []).map fun sub => put k (.table made sub) es
    | some (.value _) => none
    | some (.tables items) =>
      (changeLast (changeAt made f path .header) items).map fun items => put k (.tables items) es
    | some (.table o sub) =>
      if made = .dotted ∧ o = .header then none
      else (changeAt made f path o sub).map fun sub => put k (.table o sub) es

def splitPath : List String → Option (List String × String)
  | [] => none
  | k :: ks => some ((k :: ks).dropLast, (k :: ks).getLastD k)

def openTable (path : List String) (root : Entries) : Option Entries :=
  (splitPath path).bind fun (up, k) =>
    changeAt .passed (fun _ es =>
      match es.lookup k with
      | none => some (put k (.table .header []) es)
      | some (.table .passed sub) => some (put k (.table .header sub) es)
      | some _ => none) up .header root

def openItem (path : List String) (root : Entries) : Option Entries :=
  (splitPath path).bind fun (up, k) =>
    changeAt .passed (fun _ es =>
      match es.lookup k with
      | none => some (put k (.tables [[]]) es)
      | some (.tables items) => some (put k (.tables (items ++ [[]])) es)
      | some _ => none) up .header root

/-- Adds the value of a key, which may be dotted, to a table. A table made by a dotted key takes
values only through dotted keys, and only such a table does. -/
def assign (path : List String) (n : Node) (o : Origin) (es : Entries) : Option Entries :=
  (splitPath path).bind fun (up, k) =>
    changeAt .dotted (fun o es =>
      if decide (o = .dotted) == up.isEmpty then none
      else match es.lookup k with
      | none => some (put k n es)
      | some _ => none) up o es

def isBare (c : Char) : Bool := c.isAlphanum || c == '-' || c == '_'

def simpleKey? (s : List Char) : Option (String × List Char) :=
  match s with
  | '"' :: t => (basic? s.length t).map fun (k, r) => (String.ofList k, r)
  | '\'' :: t => (literal? t).map fun (k, r) => (String.ofList k, r)
  | _ =>
    let k := s.takeWhile isBare
    if k.isEmpty then none else some (String.ofList k, s.drop k.length)

/-- The deepest nesting of values, and the longest dotted key. -/
def depthLimit : Nat := 80

def keyWithin : Nat → List Char → Option (List String × List Char)
  | 0, _ => none
  | n + 1, s =>
    match simpleKey? (spaces s) with
    | none => none
    | some (k, r) =>
      match spaces r with
      | '.' :: r => (keyWithin n r).map fun (ks, r) => (k :: ks, r)
      | r => some ([k], r)

def key? (s : List Char) : Option (List String × List Char) := keyWithin (depthLimit - 1) s

def skipComment : List Char → List Char
  | '#' :: s => s.dropWhile isPrintable
  | s => s

def gapWithin : Nat → List Char → List Char
  | 0, s => s
  | n + 1, s =>
    match newline? (skipComment (spaces s)) with
    | some r => gapWithin n r
    | none => spaces s

def gap (s : List Char) : List Char := gapWithin s.length s

def itemsWithin (item : List Char → Option (Tree × List Char)) :
    Nat → List Char → Option (List Tree × List Char)
  | 0, _ => none
  | n + 1, s =>
    match gap s with
    | ']' :: r => some ([], r)
    | s =>
      match item s with
      | none => none
      | some (t, r) =>
        match gap r with
        | ']' :: r => some ([t], r)
        | ',' :: r => (itemsWithin item n r).map fun (ts, r) => (t :: ts, r)
        | _ => none

def pair? (item : List Char → Option (Tree × List Char)) (s : List Char) :
    Option (List String × Tree × List Char) := do
  let (path, r) ← key? s
  let r ← expect? '=' r
  let (t, r) ← item (spaces r)
  some (path, t, r)

def pairsWithin (item : List Char → Option (Tree × List Char)) :
    Nat → Entries → List Char → Option (Entries × List Char)
  | 0, _, _ => none
  | n + 1, es, s => do
    let (path, t, r) ← pair? item s
    let es ← assign path (.value t) .header es
    match spaces r with
    | '\x7d' :: r => some (es, r)
    | ',' :: r => pairsWithin item n es r
    | _ => none

/-- A value, with at most the given number of brackets around its innermost parts. -/
def valueWithin : Nat → List Char → Option (Tree × List Char)
  | depth, s =>
    match s with
    | '[' :: r =>
      match depth with
      | 0 => none
      | d + 1 => (itemsWithin (valueWithin d) s.length r).map fun (ts, r) => (.list ts, r)
    | '\x7b' :: r =>
      match depth with
      | 0 => none
      | d + 1 =>
        match spaces r with
        | '\x7d' :: r => some (.table [], r)
        | r => (pairsWithin (valueWithin d) s.length [] r).map fun (es, r) =>
            (.table (treesOf es), r)
    | c :: _ =>
      if c = '"' || c = '\'' then
        (string? s).map fun (t, r) => (.text (String.ofList t), r)
      else scalar? s
    | [] => none

def value? (s : List Char) : Option (Tree × List Char) := valueWithin (depthLimit - 1) s

/-- What follows the end of the line, when only blanks and a comment stand before it. -/
def lineEnd? (s : List Char) : Option (List Char) :=
  match skipComment (spaces s) with
  | [] => some []
  | r => newline? r

structure Draft where
  root : Entries
  here : List String

def Draft.assign (d : Draft) (path : List String) (t : Tree) : Option Draft :=
  (changeAt .passed (Toml.assign path (.value t)) d.here .header d.root).map fun root =>
    { d with root }

def headerEnd? (close : List Char) (s : List Char) : Option (List Char) :=
  (Text.after? close s).bind lineEnd?

def line? (d : Draft) (s : List Char) : Option (Draft × List Char) :=
  match spaces s with
  | '[' :: '[' :: r => do
    let (path, r) ← key? r
    let r ← headerEnd? [']', ']'] r
    let root ← openItem path d.root
    some (⟨root, path⟩, r)
  | '[' :: r => do
    let (path, r) ← key? r
    let r ← headerEnd? [']'] r
    let root ← openTable path d.root
    some (⟨root, path⟩, r)
  | s =>
    match lineEnd? s with
    | some r => some (d, r)
    | none => do
      let (path, t, r) ← pair? value? s
      let r ← lineEnd? r
      let d ← d.assign path t
      some (d, r)

def linesWithin : Nat → Draft → List Char → Option Draft
  | 0, _, _ => none
  | n + 1, d, s =>
    if s.isEmpty then some d
    else match line? d s with
      | none => none
      | some (d, r) => linesWithin n d r

def skipMark : List Char → List Char
  | '\uFEFF' :: s => s
  | s => s

/-- The table that a document writes; none when it is no TOML. -/
def read? (s : String) : Option Tree :=
  let cs := skipMark s.toList
  (linesWithin (cs.length + 1) ⟨[], []⟩ cs).map fun d => .table (treesOf d.root)

end FragmentMerge.Toml
