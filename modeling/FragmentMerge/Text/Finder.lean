import FragmentMerge.Text.Basic

/-! Finders: ways to look for a place in a text. A find is given by lengths, so that the text before
it, the find and the text after it always make up the text again. -/

namespace FragmentMerge

/-- A find after `skip` characters, `size` characters long, with the texts of its groups; group 0 is
the find itself, and a group that took no part has no text. -/
structure Span where
  skip : Nat
  size : Nat
  groups : List (Option (List Char))

/-- Looks for the first find, knowing the character to the left of the text. -/
abbrev Finder := Option Char → List Char → Option Span

structure Find where
  gap : List Char
  text : List Char
  groups : List (Option (List Char))

namespace Finder

/-- The text of a group; empty when there is no such group or it took no part. -/
def groupText (groups : List (Option (List Char))) (i : Nat) : List Char :=
  (groups.getD i none).getD []

def literal (p : List Char) : Finder := fun _ s =>
  (Text.find? p s).map fun (a, _) => ⟨a.length, p.length, [some p]⟩

/-- All finds from left to right, and the text after the last one. An empty find directly after
another find does not count; `fresh` says that none ends here. `held` is text that was passed over
since the last find. -/
def findsWithin (f : Finder) :
    Nat → Option Char → Bool → List Char → List Char → List Find × List Char
  | 0, _, _, held, s => ([], held ++ s)
  | n + 1, left, fresh, held, s =>
    match f left s with
    | none => ([], held ++ s)
    | some sp =>
      let upto := s.take sp.skip
      let text := (s.drop sp.skip).take sp.size
      let rest := (s.drop sp.skip).drop sp.size
      if upto.isEmpty && text.isEmpty && !fresh then
        match s with
        | [] => ([], held)
        | c :: s => findsWithin f n (some c) true (held ++ [c]) s
      else
        let left := (upto ++ text).getLast?.or left
        let (finds, tail) := findsWithin f n left false [] rest
        (⟨held ++ upto, text, sp.groups⟩ :: finds, tail)

def finds (f : Finder) (s : List Char) : List Find × List Char :=
  findsWithin f (2 * s.length + 2) none true [] s

def replaceEach (r : Find → List Char) (found : List Find × List Char) : List Char :=
  found.1.flatMap (fun x => x.gap ++ r x) ++ found.2

def upToFirst? (f : Finder) (s : List Char) : Option (List Char) :=
  (f none s).map fun sp => s.take (sp.skip + sp.size)

end Finder

end FragmentMerge
