import FragmentMerge.Pattern.Search
import FragmentMerge.Text.Matching

/-! Templates: text in which a dollar sign refers to a group of a find, by number or by name. A
doubled dollar sign stands for one, and one that starts no reference stands for itself. With them
patterns are an engine. -/

namespace FragmentMerge.Pattern

inductive Reference where
  | number (n : Nat)
  | name (s : String)

def isReferenceChar (c : Char) : Bool := c.isAlphanum || c == '_'

def digits? (s : List Char) : Option Nat :=
  let ds := match s with
    | '+' :: r => r
    | r => r
  if ds.isEmpty || !ds.all Char.isDigit then none
  else
    let n := ds.foldl (fun n c => n * 10 + (c.toNat - 48)) 0
    if n < Nat.pow 2 64 then some n else none

def Reference.of (s : List Char) : Reference :=
  match digits? s with
  | some n => .number n
  | none => .name (String.ofList s)

def reference? (s : List Char) : Option (Reference × List Char) :=
  match s with
  | '\x7b' :: r =>
    let body := r.takeWhile (· != '\x7d')
    match r.drop body.length with
    | [] => none
    | _ :: r => some (.of body, r)
  | _ =>
    let body := s.takeWhile isReferenceChar
    if body.isEmpty then none else some (.of body, s.drop body.length)

def referred (names : List (String × Nat)) (groups : List (Option (List Char))) :
    Reference → List Char
  | .number n => Finder.groupText groups n
  | .name s => (names.lookup s).elim [] (Finder.groupText groups)

def expandWithin (names : List (String × Nat)) (groups : List (Option (List Char))) :
    Nat → List Char → List Char
  | 0, _ => []
  | _, [] => []
  | n + 1, '$' :: '$' :: s => '$' :: expandWithin names groups n s
  | n + 1, '$' :: s =>
    match reference? s with
    | some (ref, r) => referred names groups ref ++ expandWithin names groups n r
    | none => '$' :: expandWithin names groups n s
  | n + 1, c :: s => c :: expandWithin names groups n s

end FragmentMerge.Pattern

namespace FragmentMerge

def Pattern.expand (p : Pattern) (groups : List (Option (List Char))) (template : List Char) :
    List Char :=
  Pattern.expandWithin p.names groups (template.length + 1) template

def Pattern.replaceFirst (p : Pattern) (template s : List Char) : List Char :=
  match p.find none s with
  | none => s
  | some sp =>
    s.take sp.skip ++ p.expand sp.groups template ++ (s.drop sp.skip).drop sp.size

/-- The engine of the program. -/
instance Pattern.engine : PatternEngine where
  compile? s := match Pattern.compile? s with
    | .ok p => .ok ⟨p.matches, p.replaceFirst⟩
    | .error e => .error e.message

end FragmentMerge
