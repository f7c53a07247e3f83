import FragmentMerge.Pattern.Property.Composite

/-! Patterns as trees. A pattern matches a text, one character of a set, or a place between characters,
or is put together from patterns in a row, in a choice, in a numbered group or in a loop. The functions
that put patterns together keep them plain: no row stands in a row, no choice in a choice, and texts
that follow one another are one text. -/

namespace FragmentMerge.Pattern

/-- The two sides of a place in a text; a side is absent at an end of the text. -/
structure Place where
  left : Option Char
  right : Option Char

inductive Alphabet where
  | unicode
  | ascii
  deriving DecidableEq

def asciiDigits : Ranges := [(0x30, 0x39)]

def asciiSpaces : Ranges := [(9, 13), (0x20, 0x20)]

def asciiWord : Ranges := [(0x30, 0x39), (0x41, 0x5A), (0x5F, 0x5F), (0x61, 0x7A)]

def Alphabet.word : Alphabet → Ranges
  | unicode => wordCharacters
  | ascii => asciiWord

inductive Look where
  | textStart
  | textEnd
  | lineStart
  | lineEnd
  | lineStartWide
  | lineEndWide
  | edge (a : Alphabet)
  | noEdge (a : Alphabet)
  | wordStart (a : Alphabet)
  | wordEnd (a : Alphabet)
  | beforeWord (a : Alphabet)
  | afterWord (a : Alphabet)
  deriving DecidableEq

def Alphabet.sideIn (a : Alphabet) : Option Char → Bool
  | none => false
  | some c => a.word.has c

/-- The wide line ends know a carriage return too, and never split it from its line feed. -/
def Look.holds (p : Place) : Look → Bool
  | .textStart => p.left.isNone
  | .textEnd => p.right.isNone
  | .lineStart => p.left.isNone || p.left == some '\n'
  | .lineEnd => p.right.isNone || p.right == some '\n'
  | .lineStartWide =>
    p.left.isNone || p.left == some '\n' || (p.left == some '\r' && p.right != some '\n')
  | .lineEndWide =>
    p.right.isNone || p.right == some '\r' || (p.right == some '\n' && p.left != some '\r')
  | .edge a => a.sideIn p.left != a.sideIn p.right
  | .noEdge a => a.sideIn p.left == a.sideIn p.right
  | .wordStart a => !a.sideIn p.left && a.sideIn p.right
  | .wordEnd a => a.sideIn p.left && !a.sideIn p.right
  | .beforeWord a => !a.sideIn p.left
  | .afterWord a => !a.sideIn p.right

inductive Expr where
  | empty
  | text (s : List Char)
  | one (set : Ranges)
  | look (l : Look)
  | cat (a b : Expr)
  | alt (a b : Expr)
  | group (index : Nat) (e : Expr)
  | loop (e : Expr) (min : Nat) (max : Option Nat) (greedy : Bool)
  deriving DecidableEq

namespace Expr

/-- The length of the shortest text that matches; none when an empty set has to match. -/
def minLength? : Expr → Option Nat
  | empty => some 0
  | text s => some s.length
  | one set => if set.isEmpty then none else some 1
  | look _ => some 0
  | cat a b => do pure ((← a.minLength?) + (← b.minLength?))
  | alt a b => do pure (min (← a.minLength?) (← b.minLength?))
  | group _ e => e.minLength?
  | loop e lo _ _ => e.minLength?.map (lo * ·)

/-- Whether some text that is not empty has to match. -/
def takes (e : Expr) : Bool := e.minLength?.any (0 < ·)

/-- Whether only the empty text can match. -/
def onlyEmpty : Expr → Bool
  | empty => true
  | text s => s.isEmpty
  | one _ => false
  | look _ => true
  | cat a b => a.onlyEmpty && b.onlyEmpty
  | alt a b => a.onlyEmpty && b.onlyEmpty
  | group _ e => e.onlyEmpty
  | loop e _ hi _ => hi.isSome && e.onlyEmpty

def nodes : Expr → Nat
  | cat a b => a.nodes + b.nodes + 1
  | alt a b => a.nodes + b.nodes + 1
  | group _ e => e.nodes + 1
  | loop e _ _ _ => e.nodes + 1
  | _ => 1

def ofSet (set : Ranges) : Expr :=
  match set.single? with
  | some c => text [c]
  | none => one set

def set? : Expr → Option Ranges
  | text [c] => some (Ranges.single c)
  | one set => some set
  | _ => none

def row : Expr → List Expr
  | empty => []
  | cat a b => a :: b.row
  | e => [e]

def branches : Expr → List Expr
  | alt a b => a :: b.branches
  | e => [e]

def link : Expr → List Expr → List Expr
  | text s, text t :: es => text (s ++ t) :: es
  | e, es => e :: es

def ofRow : List Expr → Expr
  | [] => empty
  | [e] => e
  | e :: es => cat e (ofRow es)

def inRow (es : List Expr) : Expr := ofRow ((es.flatMap row).foldr link [])

def ofBranches : List Expr → Expr
  | [] => one []
  | [e] => e
  | e :: es => alt e (ofBranches es)

def sharedPrefix : List Expr → List Expr → List Expr
  | a :: as, b :: bs => if a = b then a :: sharedPrefix as bs else []
  | _, _ => []

/-- What several rows begin with. -/
def commonStart : List (List Expr) → List Expr
  | [] => []
  | r :: rs => rs.foldl sharedPrefix r

/-- A choice: of characters it is a set, and what all branches begin with stands before it. -/
def choiceWithin : Nat → List Expr → Expr
  | 0, es => ofBranches es
  | n + 1, es =>
    let es := es.flatMap branches
    match es with
    | [] => one []
    | [e] => e
    | _ =>
      match es.mapM set? with
      | some sets => ofSet (Ranges.normal sets.flatten)
      | none =>
        let rows := es.map row
        let start := commonStart rows
        if rows.any (·.length < 2) || start.isEmpty then ofBranches es
        else
          inRow (start ++ [choiceWithin n (rows.map fun r => inRow (r.drop start.length))])

def choice (es : List Expr) : Expr :=
  choiceWithin (es.foldl (fun n e => n + e.nodes) 1) es

/-- A loop. Around what can only match the empty text it runs at most once. -/
def repeated (e : Expr) (lo : Nat) (hi : Option Nat) (greedy : Bool) : Expr :=
  let (lo, hi) := if e.onlyEmpty then (min lo 1, some (min (hi.getD 1) 1)) else (lo, hi)
  if lo = 0 && hi = some 0 then empty
  else if lo = 1 && hi = some 1 then e
  else loop e lo hi greedy

end Expr

end FragmentMerge.Pattern
