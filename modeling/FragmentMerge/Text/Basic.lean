/-! Text as a list of characters: blanks, cuts at a character and searches for a piece of text.
Every search returns the parts around the find, so that nothing is lost: the parts and the
piece, put together, give the text back. -/

namespace FragmentMerge.Text

/-- The characters with the Unicode property `White_Space`. -/
def isBlank (c : Char) : Bool :=
  let n := c.toNat
  (9 ≤ n && n ≤ 13) || n == 0x20 || n == 0x85 || n == 0xA0 || n == 0x1680 ||
    (0x2000 ≤ n && n ≤ 0x200A) || n == 0x2028 || n == 0x2029 || n == 0x202F || n == 0x205F ||
    n == 0x3000

def trimLeft (s : List Char) : List Char := s.dropWhile isBlank

def trimRight (s : List Char) : List Char := (s.reverse.dropWhile isBlank).reverse

def trim (s : List Char) : List Char := trimRight (trimLeft s)

/-- What follows `p`, when the text starts with `p`. -/
def after? : (p s : List Char) → Option (List Char)
  | [], s => some s
  | _ :: _, [] => none
  | a :: p, b :: s => if a = b then after? p s else none

theorem after?_eq_some_iff {p s r : List Char} : after? p s = some r ↔ s = p ++ r := by
  induction p generalizing s with
  | nil => simp [after?, eq_comm]
  | cons a p ih =>
    cases s with
    | nil => simp [after?]
    | cons b s => by_cases h : a = b <;> simp [after?, h, ih, eq_comm]

def startsWith (s p : List Char) : Bool := (after? p s).isSome

/-- What stands before `p`, when the text ends with `p`. -/
def before? (p s : List Char) : Option (List Char) := (after? p.reverse s.reverse).map List.reverse

def endsWith (s p : List Char) : Bool := (before? p s).isSome

/-- The parts before and after the first `sep`. -/
def cutFirst? (sep : Char) : List Char → Option (List Char × List Char)
  | [] => none
  | c :: s => if c = sep then some ([], s) else (cutFirst? sep s).map fun (a, b) => (c :: a, b)

/-- The parts before and after the last `sep`. -/
def cutLast? (sep : Char) : List Char → Option (List Char × List Char)
  | [] => none
  | c :: s =>
    match cutLast? sep s with
    | some (a, b) => some (c :: a, b)
    | none => if c = sep then some ([], s) else none

/-- The parts before and after the first occurrence of `p`. -/
def find? (p : List Char) : List Char → Option (List Char × List Char)
  | [] => if p = [] then some ([], []) else none
  | c :: s =>
    match after? p (c :: s) with
    | some r => some ([], r)
    | none => (find? p s).map fun (a, b) => (c :: a, b)

theorem append_of_find? {p s a b : List Char} (h : find? p s = some (a, b)) : s = a ++ p ++ b := by
  induction s generalizing a with
  | nil =>
    simp only [find?] at h
    split at h <;> simp_all
  | cons c s ih =>
    simp only [find?] at h
    split at h
    · rename_i r hr
      simp only [Option.some.injEq, Prod.mk.injEq] at h
      obtain ⟨rfl, rfl⟩ := h
      simpa using after?_eq_some_iff.1 hr
    · simp only [Option.map_eq_some_iff, Prod.mk.injEq, Prod.exists] at h
      obtain ⟨a', b', h', rfl, rfl⟩ := h
      simp [ih h']

def contains (s p : List Char) : Bool := (find? p s).isSome

/-- Cuts at every occurrence of `p`, left to right and without overlap. A piece `p` that is empty
occurs nowhere here. -/
def piecesWithin (p : List Char) : Nat → List Char → List (List Char)
  | 0, s => [s]
  | n + 1, s =>
    if p = [] then [s]
    else match find? p s with
      | none => [s]
      | some (a, b) => a :: piecesWithin p n b

def pieces (p s : List Char) : List (List Char) := piecesWithin p s.length s

def replace (p r s : List Char) : List Char := r.intercalate (pieces p s)

/-- The text between line feeds; a text that ends in one has an empty last piece. -/
def lines (s : List Char) : List (List Char) := s.splitOn '\n'

def unlines (ls : List (List Char)) : List Char := ['\n'].intercalate ls

def newlines (s : List Char) : Nat := s.count '\n'

end FragmentMerge.Text

namespace FragmentMerge

def Text.trimmed (s : String) : String := String.ofList (Text.trim s.toList)

def Text.isPieceOf (p s : String) : Bool := Text.contains s.toList p.toList

def Text.replaced (p r s : String) : String :=
  String.ofList (Text.replace p.toList r.toList s.toList)

end FragmentMerge
