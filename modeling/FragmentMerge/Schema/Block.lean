import FragmentMerge.Text.Basic

/-! Blocks: a keyword, a name and a body in braces. A header starts a line; its brace is closed by
the one that brings the nesting back, where quotes and comments do not count. -/

namespace FragmentMerge

structure Block where
  keyword : String
  name : String
  body : String
  text : String
  line : Nat
  deriving DecidableEq, Repr

structure BlockError where
  keyword : String
  name : String
  line : Nat
  deriving DecidableEq, Repr

def BlockError.message (e : BlockError) : String :=
  s!"{e.keyword} '{e.name}' opened on line {e.line} is never closed"

namespace Block

/-- What the reader of a body is inside of. -/
inductive Mode where
  | code
  | quote
  | escape
  | comment
  deriving DecidableEq, Repr

/-- The mode and nesting after a character, knowing the next one. -/
def scanStep (mode : Mode) (depth : Nat) (c : Char) (next : Option Char) : Mode × Nat :=
  match mode with
  | .escape => (.quote, depth)
  | .quote => (if c = '\\' then .escape else if c = '"' then .code else .quote, depth)
  | .comment => (if c = '\n' then .code else .comment, depth)
  | .code =>
    if c = '"' then (.quote, depth)
    else if c = '/' && next == some '/' then (.comment, depth)
    else if c = '\x7b' then (.code, depth + 1)
    else if c = '\x7d' then (.code, depth - 1)
    else (.code, depth)

def scanBody (mode : Mode) (depth : Nat) : List Char → Option (List Char × List Char)
  | [] => none
  | c :: s =>
    let after := scanStep mode depth c s.head?
    if after.2 = 0 then some ([], s)
    else (scanBody after.1 after.2 s).map fun (body, rest) => (c :: body, rest)

/-- Letters that a keyword may hold in either case; the long s and the sign of the kelvin are cases
of s and k. -/
def isKeywordChar (c : Char) : Bool := c.isAlpha || c == 'ſ' || c == '\u212A'

def isNameStart (c : Char) : Bool := isKeywordChar c || c == '_'

def isNameChar (c : Char) : Bool := isNameStart c || c.isDigit

def isSpace (c : Char) : Bool := c == ' ' || c == '\t'

structure Header where
  keyword : List Char
  name : List Char
  /-- From the keyword to the brace. -/
  text : List Char
  rest : List Char

/-- The header at the start of a line. -/
def header? (s : List Char) : Option Header :=
  let s := s.dropWhile isSpace
  let keyword := s.takeWhile isKeywordChar
  let r := s.drop keyword.length
  let gap := r.takeWhile isSpace
  let r := r.drop gap.length
  let name := r.takeWhile isNameChar
  let r := r.drop name.length
  let space := r.takeWhile isSpace
  match name, r.drop space.length with
  | n :: _, '\x7b' :: rest =>
    if keyword.isEmpty || gap.isEmpty || !isNameStart n then none
    else some ⟨keyword, name, keyword ++ gap ++ name ++ space ++ ['\x7b'], rest⟩
  | _, _ => none

def nextLine : List Char → Option (List Char)
  | [] => none
  | c :: s => if c = '\n' then some s else nextLine s

/-- The blocks from a line's start on; `line` is the number of that line. After a block the search
goes on with the next line. -/
def extractWithin : Nat → Nat → List Char → Except BlockError (List Block)
  | 0, _, _ => .ok []
  | n + 1, line, s =>
    match header? s with
    | none =>
      match nextLine s with
      | none => .ok []
      | some r => extractWithin n (line + 1) r
    | some h =>
      let keyword := String.ofList (h.keyword.map Char.toLower)
      let name := String.ofList h.name
      match scanBody .code 1 h.rest with
      | none => .error ⟨keyword, name, line⟩
      | some (body, rest) =>
        let block : Block :=
          ⟨keyword, name, String.ofList body, String.ofList (h.text ++ body ++ ['\x7d']), line⟩
        match nextLine rest with
        | none => .ok [block]
        | some r =>
          (extractWithin n (line + Text.newlines body + 1) r).map (block :: ·)

/-- The blocks of a text in the order in which they stand. -/
def extract (text : String) : Except BlockError (List Block) :=
  let s := text.toList
  extractWithin (s.length + 1) 1 s

/-- The lines of the body that are not blank, trimmed. -/
def bodyLines (b : Block) : List String :=
  ((Text.lines b.body.toList).map Text.trim).filter (!·.isEmpty) |>.map String.ofList

end Block

end FragmentMerge
