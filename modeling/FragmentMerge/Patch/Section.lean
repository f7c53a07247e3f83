import FragmentMerge.Text.Basic

/-! Guarded sections: a part of a file between two marker lines, which can be replaced and removed
without touching the text around it. -/

namespace FragmentMerge

inductive Placement where
  | prologue
  | epilogue
  deriving DecidableEq, Repr

namespace Section

def beginMark (sentinel : List Char) : List Char := "// ".toList ++ sentinel ++ ":begin".toList

def endMark (sentinel : List Char) : List Char := "// ".toList ++ sentinel ++ ":end".toList

def trimLines (s : List Char) : List Char := (s.reverse.dropWhile (· == '\n')).reverse

def guarded (sentinel body : List Char) : List Char :=
  beginMark sentinel ++ '\n' :: trimLines body ++ '\n' :: endMark sentinel

/-- The text before the first begin marker, and the text after the end marker that follows. -/
def locate? (sentinel s : List Char) : Option (List Char × List Char) :=
  (Text.find? (beginMark sentinel) s).bind fun (before, _) =>
    (Text.find? (endMark sentinel) (s.drop before.length)).map fun (_, after) => (before, after)

/-- Puts a section in the place of the one with its sentinel, or at an end of the text. -/
def splice (sentinel body : List Char) (p : Placement) (s : List Char) : List Char :=
  match locate? sentinel s with
  | some (before, after) => before ++ guarded sentinel body ++ after
  | none =>
    match p with
    | .prologue => guarded sentinel body ++ '\n' :: s
    | .epilogue =>
      if s.isEmpty || s.getLast? == some '\n' then s ++ guarded sentinel body ++ ['\n']
      else s ++ '\n' :: guarded sentinel body ++ ['\n']

def dropNewline : List Char → List Char
  | '\n' :: s => s
  | s => s

/-- Removes a section with its line break. -/
def remove (sentinel s : List Char) : List Char :=
  match locate? sentinel s with
  | some (before, after) => before ++ dropNewline after
  | none => s

end Section

end FragmentMerge
