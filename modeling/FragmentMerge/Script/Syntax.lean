/-! Scripts for the usual shell, as trees. -/

namespace FragmentMerge.Script

/-- What is taken from a parameter. A colon makes an empty value count as none. -/
inductive Use where
  | value
  | length
  | orElse (colon : Bool)
  | orAssign (colon : Bool)
  | ifSet (colon : Bool)
  | orFail (colon : Bool)
  | cutStart (longest : Bool)
  | cutEnd (longest : Bool)
  /-- A use that does not exist; it is a fault only when the word is expanded. -/
  | bad
  deriving DecidableEq, Repr

inductive Opening where
  | read
  | write
  | overwrite
  | append
  | readWrite
  deriving DecidableEq, Repr

mutual

/-- A part of a word. What is quoted stays in one piece when the word is expanded, and has no
wildcards. -/
inductive Piece where
  | text (s : List Char) (quoted : Bool)
  /-- A quotation, which makes a word even of nothing. -/
  | quotes
  | parameter (name : String) (use : Use) (word : List Piece) (quoted : Bool)
  /-- What a command prints. -/
  | output (body : Command) (quoted : Bool)
  | arithmetic (body : List Piece) (quoted : Bool)

inductive Redirect where
  | file (stream : Nat) (opening : Opening) (target : List Piece)
  | copy (stream : Nat) (source : List Piece)
  /-- A text that stands below the line, by its number. -/
  | here (stream : Nat) (number : Nat)

inductive Command where
  | nothing
  | simple (line : Nat) (assignments : List (String × List Piece)) (words : List (List Piece))
    (redirects : List Redirect)
  | pipe (commands : List Command)
  | both (a b : Command)
  | either (a b : Command)
  | next (a b : Command)
  | negated (c : Command)
  | background (c : Command)
  | subshell (line : Nat) (c : Command) (redirects : List Redirect)
  | redirected (line : Nat) (c : Command) (redirects : List Redirect)
  | choose (test yes no : Command)
  /-- A loop that goes on as long as the test succeeds, or as it fails. -/
  | loop (untilTrue : Bool) (test body : Command)
  | each (line : Nat) (name : String) (words : List (List Piece)) (body : Command)
  | select (line : Nat) (word : List Piece) (branches : List (List (List Piece) × Command))
  | define (name : String) (body : Command)

end

abbrev Word := List Piece

/-- The text of a word without quotations and expansions. -/
def plain? : Word → Option String
  | [] => some ""
  | [.text s false] => some (String.ofList s)
  | _ => none

def isNameStart (c : Char) : Bool := c.isAlpha || c == '_'

def isNameChar (c : Char) : Bool := c.isAlphanum || c == '_'

def isName : List Char → Bool
  | [] => false
  | c :: s => isNameStart c && s.all isNameChar

/-- The builtins that a function cannot replace; a fault in one of them ends the script. -/
def specialBuiltins : List String :=
  ["break", ":", "continue", ".", "eval", "exec", "exit", "export", "local", "readonly", "return", "set",
    "shift", "times", "trap", "unset"]

end FragmentMerge.Script
