/-! Patterns with wildcards. A character of a pattern that is quoted stands for itself. -/

namespace FragmentMerge.Script

abbrev Marked := Char × Bool

inductive SetItem where
  | range (a b : Char)
  | kind (name : String)
  deriving DecidableEq, Repr

inductive Wildcard where
  | char (c : Char)
  | any
  | star
  | set (negated : Bool) (items : List SetItem)
  deriving DecidableEq, Repr

def isPunctuation (c : Char) : Bool := '!' ≤ c && c ≤ '~' && !c.isAlphanum

def kind? (name : String) : Option (Char → Bool) :=
  match name with
  | "alnum" => some Char.isAlphanum
  | "alpha" => some Char.isAlpha
  | "blank" => some fun c => c == ' ' || c == '\t'
  | "cntrl" => some fun c => c.toNat < 32 || c.toNat == 127
  | "digit" => some Char.isDigit
  | "graph" => some fun c => '!' ≤ c && c ≤ '~'
  | "lower" => some Char.isLower
  | "print" => some fun c => ' ' ≤ c && c ≤ '~'
  | "punct" => some isPunctuation
  | "space" => some fun c => c == ' ' || ('\t' ≤ c && c ≤ '\r')
  | "upper" => some Char.isUpper
  | "xdigit" => some fun c => c.isDigit || ('a' ≤ c && c ≤ 'f') || ('A' ≤ c && c ≤ 'F')
  | _ => none

def SetItem.has (c : Char) : SetItem → Bool
  | range a b => a ≤ c && c ≤ b
  | kind name => ((kind? name).map (· c)).getD false

def kindName? (s : List Marked) : Option (String × List Marked) :=
  match s with
  | (':', false) :: s =>
    let name := s.takeWhile fun m => m.1.isAlpha
    match s.drop name.length with
    | (':', _) :: (']', _) :: rest =>
      let name := String.ofList (name.map (·.1))
      (kind? name).map fun _ => (name, rest)
    | _ => none
  | _ => none

def setChar? : List Marked → Option (Char × List Marked)
  | ('\\', false) :: m :: s => some (m.1, s)
  | m :: s => some (m.1, s)
  | [] => none

/-- The items of a set up to its closing bracket; none if there is no such bracket. A bracket that
comes first stands for itself. -/
def setItems : Nat → Bool → List Marked → Option (List SetItem × List Marked)
  | 0, _, _ => none
  | n + 1, isFirst, s =>
    match s with
    | [] => none
    | m :: rest =>
      if m == (']', false) && !isFirst then some ([], rest)
      else
        let kind := if m == ('[', false) then kindName? rest else none
        match kind with
        | some (name, rest) =>
          (setItems n false rest).map fun (items, s) => (.kind name :: items, s)
        | none => do
          let (a, rest) ← setChar? s
          match rest with
          | ('-', false) :: (c, q) :: rest' =>
            if (c, q) == (']', false) then
              let (items, s) ← setItems n false rest
              some (.range a a :: items, s)
            else
              let (b, rest) ← setChar? ((c, q) :: rest')
              let (items, s) ← setItems n false rest
              some (.range a b :: items, s)
          | _ =>
            let (items, s) ← setItems n false rest
            some (.range a a :: items, s)

def wildcardsWithin : Nat → List Marked → List Wildcard
  | 0, _ => []
  | _, [] => []
  | n + 1, (c, quoted) :: s =>
    if quoted then .char c :: wildcardsWithin n s
    else match c with
    | '*' => .star :: wildcardsWithin n s
    | '?' => .any :: wildcardsWithin n s
    | '\\' =>
      match s with
      | (c, _) :: s => .char c :: wildcardsWithin n s
      | [] => [.char '\\']
    | '[' =>
      let (negated, t) := match s with
        | ('!', false) :: t => (true, t)
        | t => (false, t)
      match setItems (t.length + 1) true t with
      | some (items, rest) => .set negated items :: wildcardsWithin n rest
      | none => .char '[' :: wildcardsWithin n s
    | c => .char c :: wildcardsWithin n s

def wildcards (s : List Marked) : List Wildcard := wildcardsWithin (s.length + 1) s

def Wildcard.takes (c : Char) : Wildcard → Bool
  | char a => a == c
  | any => true
  | star => false
  | set negated items => items.any (·.has c) != negated

def fits : List Wildcard → List Char → Bool
  | [], s => s.isEmpty
  | .star :: ws, s => fits ws s || fitsLater ws s
  | w :: ws, c :: s => w.takes c && fits ws s
  | _ :: _, [] => false
where
  /-- Whether the pattern matches what follows some first characters. -/
  fitsLater (ws : List Wildcard) : List Char → Bool
    | [] => false
    | _ :: s => fits ws s || fitsLater ws s

end FragmentMerge.Script
