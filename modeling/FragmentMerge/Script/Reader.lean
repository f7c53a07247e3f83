import FragmentMerge.Script.Syntax

/-! Reads a script. It is read line by line, since a line may run before the next one is read. Which
words are keywords, and whether line ends count, depends on what is expected next. -/

namespace FragmentMerge.Script

structure SyntaxFault where
  line : Nat
  message : String
  deriving Repr

inductive Keyword where
  | bang
  | case
  | do
  | done
  | elif
  | else
  | esac
  | fi
  | for
  | if
  | in
  | then
  | until
  | while
  | opened
  | closed
  deriving DecidableEq, Repr

namespace Keyword

def text : Keyword → String
  | bang => "!"
  | case => "case"
  | .do => "do"
  | done => "done"
  | elif => "elif"
  | .else => "else"
  | esac => "esac"
  | fi => "fi"
  | .for => "for"
  | .if => "if"
  | .in => "in"
  | .then => "then"
  | .until => "until"
  | .while => "while"
  | opened => "\x7b"
  | closed => "\x7d"

def all : List Keyword :=
  [bang, case, .do, done, elif, .else, esac, fi, .for, .if, .in, .then, .until, .while, opened, closed]

def ofText? (s : String) : Option Keyword := all.find? fun k => k.text == s

def endsList : Keyword → Bool
  | .do => true
  | done => true
  | elif => true
  | .else => true
  | esac => true
  | fi => true
  | .then => true
  | closed => true
  | _ => false

end Keyword

inductive Arrow where
  | file (o : Opening)
  | copy
  | here (stripTabs : Bool)
  deriving DecidableEq, Repr

inductive Token where
  | endOfFile
  | newline
  | semicolon
  | ampersand
  | andIf
  | orIf
  | bar
  | opened
  | closed
  | endCase
  | redirect (stream : Nat) (arrow : Arrow)
  | word (w : Word)
  | keyword (k : Keyword)

namespace Token

def text : Token → String
  | endOfFile => "end of file"
  | newline => "newline"
  | semicolon => "\";\""
  | ampersand => "\"&\""
  | andIf => "\"&&\""
  | orIf => "\"||\""
  | bar => "\"|\""
  | opened => "\"(\""
  | closed => "\")\""
  | endCase => "\";;\""
  | redirect _ _ => "redirection"
  | word _ => "word"
  | keyword k => "\"" ++ k.text ++ "\""

def endsList : Token → Bool
  | endOfFile => true
  | closed => true
  | endCase => true
  | keyword k => k.endsList
  | _ => false

def same (a b : Token) : Bool := a.text == b.text

end Token

/-- A text that is announced and stands below the line. -/
structure Announced where
  number : Nat
  mark : List Char
  stripTabs : Bool
  quoted : Bool

/-- Where the reader is: what is left, the line, the last token and whether it comes again, what is
expected next, and the texts below lines, announced and read. -/
structure Scan where
  rest : List Char
  line : Nat
  last : Token
  again : Bool
  keywords : Bool
  newlines : Bool
  isMark : Bool
  announced : List Announced
  texts : List (Nat × Word)
  count : Nat

abbrev Reading := EStateM SyntaxFault Scan

namespace Reading

def fail (message : String) : Reading α := do throw ⟨(← get).line, message⟩

def unexpected : Reading α := do fail s!"{(← get).last.text} unexpected"

def missing (t : Token) : Reading α := do
  fail s!"{(← get).last.text} unexpected (expecting {t.text})"

def expects (keywords newlines : Bool) : Reading Unit :=
  modify fun s => { s with keywords, newlines }

def putBack : Reading Unit := modify fun s => { s with again := true }

/-- Drops line ends that a backslash hides. -/
def dropHidden : Nat → List Char → Nat × List Char
  | n, '\\' :: '\n' :: s => dropHidden (n + 1) s
  | n, s => (n, s)

def peek : Reading (Option Char) := do
  let s ← get
  let (n, rest) := dropHidden s.line s.rest
  set { s with line := n, rest }
  pure rest.head?

/-- Takes the next character, even a backslash before a line end. -/
def takeRaw : Reading (Option Char) := do
  let s ← get
  match s.rest with
  | [] => pure none
  | c :: rest =>
    set { s with rest, line := if c = '\n' then s.line + 1 else s.line }
    pure (some c)

def take : Reading (Option Char) := do
  let _ ← peek
  takeRaw

def takeIf (c : Char) : Reading Bool := do
  if (← peek) = some c then
    let _ ← take
    pure true
  else pure false

def takeWhile (p : Char → Bool) : Nat → Reading (List Char)
  | 0 => pure []
  | n + 1 => do
    match ← peek with
    | some c =>
      if p c then
        let _ ← take
        pure (c :: (← takeWhile p n))
      else pure []
    | none => pure []

end Reading

inductive Surround where
  /-- A word of its own. -/
  | bare
  | double
  /-- A text below a line. -/
  | below
  /-- In the braces of a parameter, quoted or not; `inner` when quoted in the braces once more. -/
  | braces (quoted inner : Bool)
  | arithmetic
  deriving DecidableEq

namespace Surround

def quotes : Surround → Bool
  | bare => false
  | braces quoted _ => quoted
  | _ => true

end Surround

/-- Adds a character to pieces, which stand last first, as do the characters of their texts. -/
def addChar (c : Char) (quoted : Bool) : List Piece → List Piece
  | .text s q :: ps => if q = quoted then .text (c :: s) q :: ps else .text [c] quoted :: .text s q :: ps
  | ps => .text [c] quoted :: ps

def addChars (s : List Char) (quoted : Bool) (ps : List Piece) : List Piece :=
  s.foldl (fun ps c => addChar c quoted ps) ps

def Piece.turned : Piece → Piece
  | .text s q => .text s.reverse q
  | p => p

def inOrder (ps : List Piece) : Word := (ps.map Piece.turned).reverse

def endsWord (c : Char) : Bool := " \t\n;&|<>()".toList.contains c

def isSpecialName (c : Char) : Bool := c.isDigit || "!#$*-?@".toList.contains c

def isBlank (c : Char) : Bool := c == ' ' || c == '\t'

namespace Reading

/-- Takes what is in single quotes, after the first of them. -/
def singleQuoted : Nat → List Piece → Reading (List Piece)
  | 0, _ => fail "Unterminated quoted string"
  | n + 1, ps => do
    match ← takeRaw with
    | none => fail "Unterminated quoted string"
    | some '\'' => pure ps
    | some c => singleQuoted n (addChar c true ps)

def escaped (around : Surround) (ps : List Piece) : Reading (List Piece) := do
  match ← takeRaw with
  | none => pure (addChar '\\' true ps)
  | some c =>
    let isPlain := match around with
      | .bare => true
      | .braces false _ => true
      | .double => ['\\', '`', '$', '"'].contains c
      | .below => ['\\', '`', '$'].contains c
      | .braces true _ => ['\\', '`', '$', '"', '\x7d'].contains c
      | .arithmetic => ['\\', '`', '$', '"'].contains c
    pure (addChar c true (if isPlain then ps else addChar '\\' true ps))

def backquoted (quoted : Bool) : Nat → Reading (List Char)
  | 0 => fail "EOF in backquote substitution"
  | n + 1 => do
    match ← take with
    | none => fail "EOF in backquote substitution"
    | some '`' => pure []
    | some '\\' =>
      match ← takeRaw with
      | none => fail "EOF in backquote substitution"
      | some c =>
        let rest ← backquoted quoted n
        let isPlain := c == '\\' || c == '`' || c == '$' || (quoted && c == '"')
        pure (if isPlain then c :: rest else '\\' :: c :: rest)
    | some c => do pure (c :: (← backquoted quoted n))

/-- Takes lines up to the one that is the mark. -/
def linesBelow (a : Announced) : Nat → Bool → Reading (List Char)
  | 0, _ => pure []
  | n + 1, isStart => do
    let s ← get
    let start := if a.stripTabs && isStart then s.rest.dropWhile (· == '\t') else s.rest
    let row := start.takeWhile (· != '\n')
    let after := start.drop row.length
    match start with
    | [] => do
      set { s with rest := [] }
      pure []
    | _ =>
      set { s with rest := after.drop 1, line := s.line + if after.isEmpty then 0 else 1 }
      if isStart && row == a.mark then pure []
      else
        let slashes := (row.reverse.takeWhile (· == '\\')).length
        let rest ← linesBelow a n (a.quoted || slashes % 2 == 0)
        pure (row ++ after.take 1 ++ rest)

/-- The use of a parameter in braces, after its name. -/
def use : Reading Use := do
  let colon ← takeIf ':'
  match ← peek with
  | some '-' => let _ ← take; pure (.orElse colon)
  | some '=' => let _ ← take; pure (.orAssign colon)
  | some '+' => let _ ← take; pure (.ifSet colon)
  | some '?' => let _ ← take; pure (.orFail colon)
  | some '\x7d' => let _ ← take; pure (if colon then .bad else .value)
  | some '%' =>
    if colon then pure .bad
    else
      let _ ← take
      pure (.cutEnd (← takeIf '%'))
  | some '#' =>
    if colon then pure .bad
    else
      let _ ← take
      pure (.cutStart (← takeIf '#'))
  | some _ => let _ ← take; pure .bad
  | none => pure .bad

def nameInBraces : Nat → Reading (Option String)
  | n => do
    match ← peek with
    | some c =>
      if isNameStart c then pure (some (String.ofList (← takeWhile isNameChar n)))
      else if c.isDigit then pure (some (String.ofList (← takeWhile Char.isDigit n)))
      else if isSpecialName c then
        let _ ← take
        pure (some (String.ofList [c]))
      else pure none
    | none => pure none

/-- What stands in the braces of a parameter up to the word: its name and its use. -/
def parameterHead (n : Nat) : Reading (String × Use) := do
  if (← peek) = some '#' then
    let _ ← take
    let saved ← get
    match ← nameInBraces n with
    | some name =>
      if (← peek) = some '\x7d' then pure (name, .length)
      else if isName name.toList || name.toList.all Char.isDigit then pure (name, .bad)
      else
        set saved
        pure ("#", ← use)
    | none => pure ("#", ← use)
  else
    match ← nameInBraces n with
    | some name => pure (name, ← use)
    | none =>
      let _ ← if (← peek) = some '\x7d' then pure none else take
      pure ("", .bad)

def fresh : Reading Unit := modify fun s => { s with again := false }

def unfinished (around : Surround) : Reading α :=
  match around with
  | .double => fail "Unterminated quoted string"
  | .braces true _ => fail "Unterminated quoted string"
  | .arithmetic => fail "Missing '))'"
  | _ => fail "Missing '\x7d'"

def operator? : Reading (Option Token) := do
  let pick (c : Char) (two one : Token) : Reading (Option Token) := do
    let _ ← take
    pure (some (if ← takeIf c then two else one))
  match ← peek with
  | none => pure (some .endOfFile)
  | some '\n' => let _ ← take; pure (some .newline)
  | some '&' => pick '&' .andIf .ampersand
  | some '|' => pick '|' .orIf .bar
  | some ';' => pick ';' .endCase .semicolon
  | some '(' => let _ ← take; pure (some .opened)
  | some ')' => let _ ← take; pure (some .closed)
  | some _ => pure none

def arrow : Reading (Nat × Arrow) := do
  if ← takeIf '>' then
    if ← takeIf '>' then pure (1, .file .append)
    else if ← takeIf '|' then pure (1, .file .overwrite)
    else if ← takeIf '&' then pure (1, .copy)
    else pure (1, .file .write)
  else
    let _ ← take
    if ← takeIf '<' then pure (0, .here (← takeIf '-'))
    else if ← takeIf '&' then pure (0, .copy)
    else if ← takeIf '>' then pure (0, .file .readWrite)
    else pure (0, .file .read)

def dropBlanks : Nat → Reading Unit
  | 0 => pure ()
  | n + 1 => do
    match ← peek with
    | some c =>
      if isBlank c then
        let _ ← take
        dropBlanks n
      else if c = '#' then
        modify fun s => { s with rest := s.rest.dropWhile (· != '\n') }
      else pure ()
    | none => pure ()

/-- The name and the first characters of the value, if a word assigns. -/
def assignment? : Word → Option (String × Word)
  | .text s false :: ps =>
    let name := s.takeWhile (· != '=')
    match s.drop name.length with
    | _ :: value =>
      if isName name then
        some (String.ofList name, if value.isEmpty then ps else .text value false :: ps)
      else none
    | [] => none
  | _ => none

def markText (w : Word) : List Char :=
  w.flatMap fun
    | .text s _ => s
    | _ => []

def isQuoted (w : Word) : Bool :=
  w.any fun
    | .quotes => true
    | .text _ q => q
    | _ => false

mutual

/-- Takes the rest of a word, or of the part of it that is surrounded. -/
def pieces : Nat → Surround → Nat → List Piece → Reading (List Piece)
  | 0, _, _, _ => fail "end of file unexpected"
  | n + 1, around, parens, ps => do
    match ← peek with
    | none =>
      match around with
      | .bare => pure ps
      | .below => pure ps
      | around => unfinished around
    | some c =>
      let more (ps : List Piece) := pieces n around parens ps
      let plain : Reading (List Piece) := do
        let _ ← take
        more (addChar c around.quotes ps)
      if around == .bare && endsWord c then pure ps
      else match c with
      | '\'' =>
        match around with
        | .bare => do
          let _ ← take
          more (← singleQuoted n (.quotes :: ps))
        | .braces false _ => do
          let _ ← take
          more (← singleQuoted n (.quotes :: ps))
        | _ => plain
      | '"' =>
        match around with
        | .bare => do
          let _ ← take
          more (← pieces n .double 0 (.quotes :: ps))
        | .braces false _ => do
          let _ ← take
          more (← pieces n .double 0 (.quotes :: ps))
        | .braces true inner => do
          let _ ← take
          pieces n (.braces true !inner) parens ps
        | .double => do
          let _ ← take
          pure ps
        | _ => plain
      | '\\' => do
        let _ ← take
        more (← escaped around ps)
      | '$' => do
        let _ ← take
        more (← dollar n around ps)
      | '`' =>
        if (← get).isMark then plain
        else
          let _ ← take
          let inner ← backquoted around.quotes n
          let saved ← get
          set { saved with rest := inner, line := 1, again := false, announced := [] }
          let body ← commands n true
          readBelow n
          let s ← get
          set { s with rest := saved.rest, line := saved.line, announced := saved.announced,
                       again := false }
          more (.output body around.quotes :: ps)
      | '\x7d' =>
        match around with
        | .braces _ false => do
          let _ ← take
          pure ps
        | _ => plain
      | '(' =>
        match around with
        | .arithmetic => do
          let _ ← take
          pieces n around (parens + 1) (addChar c true ps)
        | _ => plain
      | ')' =>
        match around, parens with
        | .arithmetic, 0 => do
          let _ ← take
          if ← takeIf ')' then pure ps else more (addChar c true ps)
        | .arithmetic, parens + 1 => do
          let _ ← take
          pieces n around parens (addChar c true ps)
        | _, _ => plain
      | _ => plain

def dollar : Nat → Surround → List Piece → Reading (List Piece)
  | 0, _, _ => fail "end of file unexpected"
  | n + 1, around, ps => do
    let quoted := around.quotes
    if (← get).isMark then pure (addChar '$' quoted ps)
    else match ← peek with
    | some '(' => do
      let _ ← take
      if ← takeIf '(' then
        let body ← pieces n .arithmetic 0 []
        pure (.arithmetic (inOrder body) quoted :: ps)
      else
        let saved ← get
        set { saved with again := false, announced := [] }
        let body ← commands n true
        let t ← token n
        if !t.same .closed then missing .closed
        let s ← get
        set { s with rest := [] }
        readBelow n
        let t ← get
        set { t with rest := s.rest, line := s.line, announced := saved.announced, again := false }
        pure (.output body quoted :: ps)
    | some '\x7b' => do
      let _ ← take
      let (name, use) ← parameterHead n
      match use with
      | .value => pure (.parameter name .value [] quoted :: ps)
      | use =>
        let surround := match use with
          | .cutStart _ => .braces false false
          | .cutEnd _ => .braces false false
          | _ => .braces quoted false
        let word ← pieces n surround 0 []
        pure (.parameter name use (inOrder word) quoted :: ps)
    | some c =>
      if isNameStart c then
        let name ← takeWhile isNameChar n
        pure (.parameter (String.ofList name) .value [] quoted :: ps)
      else if isSpecialName c then
        let _ ← take
        pure (.parameter (String.ofList [c]) .value [] quoted :: ps)
      else pure (addChar '$' quoted ps)
    | none => pure (addChar '$' quoted ps)

def readBelow : Nat → Reading Unit
  | 0 => pure ()
  | n + 1 => do
    match (← get).announced with
    | [] => pure ()
    | a :: more =>
      modify fun s => { s with announced := more }
      let line := (← get).line
      let body ← linesBelow a ((← get).rest.length + 1) true
      let word ←
        if a.quoted then pure [Piece.text body true]
        else do
          let saved ← get
          set { saved with rest := body, line, again := false, isMark := false }
          let ps ← pieces n .below 0 []
          let s ← get
          set { s with rest := saved.rest, line := saved.line, again := saved.again, last := saved.last,
                       isMark := saved.isMark }
          pure (inOrder ps)
      modify fun s => { s with texts := s.texts ++ [(a.number, word)] }
      readBelow n

/-- The next token; keywords are words unless they are expected. -/
def token : Nat → Reading Token
  | 0 => fail "end of file unexpected"
  | n + 1 => do
    let s ← get
    let (keywords, newlines) := (s.keywords, s.newlines)
    let t ← if newlines then tokenBelow n else rawToken n
    modify fun s => { s with keywords := false, newlines := false, isMark := false }
    match t with
    | .word w =>
      match keywords, (plain? w).bind Keyword.ofText? with
      | true, some k => do
        modify fun s => { s with last := .keyword k }
        pure (.keyword k)
      | _, _ => pure t
    | t => pure t

def tokenBelow : Nat → Reading Token
  | 0 => fail "end of file unexpected"
  | n + 1 => do
    match ← rawToken n with
    | .newline => do
      readBelow n
      tokenBelow n
    | t => pure t

def rawToken : Nat → Reading Token
  | 0 => fail "end of file unexpected"
  | n + 1 => do
    if (← get).again then
      fresh
      pure (← get).last
    else
      dropBlanks n
      let t ← match ← operator? with
        | some t => pure t
        | none => do
          let ps ← pieces n .bare 0 []
          let c ← peek
          let w := inOrder ps
          let stream := match w with
            | [] => some none
            | [.text [d] false] => if d.isDigit then some (some (d.toNat - 48)) else none
            | _ => none
          match stream with
          | some stream =>
            if c = some '<' || c = some '>' then do
              let (standard, arrow) ← arrow
              pure (.redirect (stream.getD standard) arrow)
            else pure (.word w)
          | none => pure (.word w)
      modify fun s => { s with last := t }
      pure t

/-- Commands up to a token that ends them. At least one has to come, unless `empty`. -/
def commands : Nat → Bool → Reading Command
  | 0, _ => fail "end of file unexpected"
  | n + 1, empty => do
    expects true true
    let t ← token n
    match t with
    | .endOfFile => do
      readBelow n
      putBack
      pure .nothing
    | t => do
      putBack
      if empty && t.endsList then pure .nothing
      else
        let c ← andOr n
        let (c, ended) ← separator n c
        if ended then pure c
        else
          match ← commands n true with
          | .nothing => pure c
          | more => pure (.next c more)

/-- What ends a command of a list, and whether the list ends with it. -/
def separator : Nat → Command → Reading (Command × Bool)
  | 0, _ => fail "end of file unexpected"
  | n + 1, c => do
    match ← token n with
    | .ampersand => pure (.background c, false)
    | .semicolon => pure (c, false)
    | .newline => do
      putBack
      pure (c, false)
    | .endOfFile => do
      readBelow n
      putBack
      pure (c, true)
    | _ => do
      putBack
      pure (c, true)

def andOr : Nat → Reading Command
  | 0 => fail "end of file unexpected"
  | n + 1 => do
    let c ← pipeline n
    andOrMore n c

def andOrMore : Nat → Command → Reading Command
  | 0, _ => fail "end of file unexpected"
  | n + 1, c => do
    match ← token n with
    | .andIf => do
      expects true true
      andOrMore n (.both c (← pipeline n))
    | .orIf => do
      expects true true
      andOrMore n (.either c (← pipeline n))
    | _ => do
      putBack
      pure c

def pipeline : Nat → Reading Command
  | 0 => fail "end of file unexpected"
  | n + 1 => do
    match ← token n with
    | .keyword .bang => do
      expects true false
      let c ← command n
      pure (.negated (← pipeMore n c))
    | _ => do
      putBack
      let c ← command n
      pipeMore n c

def pipeMore : Nat → Command → Reading Command
  | 0, _ => fail "end of file unexpected"
  | n + 1, c => do
    match ← pipeRest n with
    | [] => pure c
    | cs => pure (.pipe (c :: cs))

def pipeRest : Nat → Reading (List Command)
  | 0 => fail "end of file unexpected"
  | n + 1 => do
    match ← token n with
    | .bar => do
      expects true true
      let c ← command n
      pure (c :: (← pipeRest n))
    | _ => do
      putBack
      pure []

def command : Nat → Reading Command
  | 0 => fail "end of file unexpected"
  | n + 1 => do
    let line := (← get).line
    match ← token n with
    | .keyword .if => do
      let c ← ifElse n
      redirects n line c
    | .keyword .while => do
      redirects n line (← loop n false)
    | .keyword .until => do
      redirects n line (← loop n true)
    | .keyword .for => do
      redirects n line (← each n line)
    | .keyword .case => do
      redirects n line (← select n line)
    | .opened => do
      let c ← commands n false
      close n .closed
      expects true false
      pure (.subshell line c (← redirectList n))
    | .keyword .opened => do
      let c ← commands n false
      close n (.keyword .closed)
      redirects n line c
    | .word _ => do
      putBack
      simple n line true [] [] []
    | .redirect _ _ => do
      putBack
      simple n line true [] [] []
    | _ => unexpected

def close : Nat → Token → Reading Unit
  | 0, _ => fail "end of file unexpected"
  | n + 1, t => do
    if !(← token n).same t then missing t

def ifElse : Nat → Reading Command
  | 0 => fail "end of file unexpected"
  | n + 1 => do
    let test ← commands n false
    close n (.keyword .then)
    let yes ← commands n false
    match ← token n with
    | .keyword .elif => pure (.choose test yes (← ifElse n))
    | .keyword .else => do
      let no ← commands n false
      close n (.keyword .fi)
      pure (.choose test yes no)
    | _ => do
      putBack
      close n (.keyword .fi)
      pure (.choose test yes .nothing)

def loop : Nat → Bool → Reading Command
  | 0, _ => fail "end of file unexpected"
  | n + 1, untilTrue => do
    let test ← commands n false
    close n (.keyword .do)
    let body ← commands n false
    close n (.keyword .done)
    pure (.loop untilTrue test body)

def each : Nat → Nat → Reading Command
  | 0, _ => fail "end of file unexpected"
  | n + 1, line => do
    match ← token n with
    | .word w =>
      match plain? w with
      | some name =>
        if !isName name.toList then fail "Bad for loop variable"
        expects true true
        let words ← match ← token n with
          | .keyword .in => wordList n
          | .semicolon => pure [[.quotes, .parameter "@" .value [] true]]
          | _ => do
            putBack
            pure [[.quotes, .parameter "@" .value [] true]]
        expects true true
        close n (.keyword .do)
        let body ← commands n false
        close n (.keyword .done)
        pure (.each line name words body)
      | none => fail "Bad for loop variable"
    | _ => fail "Bad for loop variable"

def wordList : Nat → Reading (List Word)
  | 0 => fail "end of file unexpected"
  | n + 1 => do
    match ← token n with
    | .word w => do pure (w :: (← wordList n))
    | .newline => pure []
    | .semicolon => pure []
    | _ => unexpected

def select : Nat → Nat → Reading Command
  | 0, _ => fail "end of file unexpected"
  | n + 1, line => do
    match ← token n with
    | .word w => do
      expects true true
      close n (.keyword .in)
      pure (.select line w (← branches n))
    | _ => missing (.word [])

def branches : Nat → Reading (List (List Word × Command))
  | 0 => fail "end of file unexpected"
  | n + 1 => do
    expects true true
    let t ← token n
    if t.same (.keyword .esac) then pure []
    else
      let t ← if t.same .opened then token n else pure t
      let patterns ← patternList n t
      let body ← commands n true
      expects true true
      match ← token n with
      | .keyword .esac => pure [(patterns, body)]
      | .endCase => do pure ((patterns, body) :: (← branches n))
      | _ => missing .endCase

/-- Patterns up to a closing bracket; the first token of them is given. -/
def patternList : Nat → Token → Reading (List Word)
  | 0, _ => fail "end of file unexpected"
  | n + 1, t => do
    let w := match t with
      | .word w => w
      | .keyword k => [.text k.text.toList false]
      | _ => []
    match ← token n with
    | .bar => do
      let t ← token n
      pure (w :: (← patternList n t))
    | .closed => pure [w]
    | _ => missing .closed

def redirects : Nat → Nat → Command → Reading Command
  | 0, _, _ => fail "end of file unexpected"
  | n + 1, line, c => do
    expects true false
    match ← redirectList n with
    | [] => pure c
    | rs => pure (.redirected line c rs)

def redirectList : Nat → Reading (List Redirect)
  | 0 => fail "end of file unexpected"
  | n + 1 => do
    match ← token n with
    | .redirect stream arrow => do
      let r ← target n stream arrow
      pure (r :: (← redirectList n))
    | _ => do
      putBack
      pure []

def target : Nat → Nat → Arrow → Reading Redirect
  | 0, _, _ => fail "end of file unexpected"
  | n + 1, stream, arrow => do
    match arrow with
    | .here stripTabs => do
      modify fun s => { s with isMark := true }
      match ← token n with
      | .word w => do
        let s ← get
        let a : Announced := ⟨s.count, markText w, stripTabs, isQuoted w⟩
        set { s with announced := s.announced ++ [a], count := s.count + 1 }
        pure (.here stream a.number)
      | _ => unexpected
    | .copy => do
      match ← token n with
      | .word w =>
        match plain? w with
        | some s =>
          match s.toList with
          | [c] => if c.isDigit || c = '-' then pure (.copy stream w) else fail "Bad fd number"
          | _ => fail "Bad fd number"
        | none => pure (.copy stream w)
      | _ => unexpected
    | .file opening => do
      match ← token n with
      | .word w => pure (.file stream opening w)
      | _ => unexpected

/-- A command of words. Assignments come before them, redirections anywhere. -/
def simple : Nat → Nat → Bool → List (String × Word) → List Word → List Redirect → Reading Command
  | 0, _, _, _, _, _ => fail "end of file unexpected"
  | n + 1, line, leads, sets, words, rs => do
    match ← token n with
    | .word w =>
      match leads, assignment? w with
      | true, some s => simple n line true (s :: sets) words rs
      | _, _ => simple n line false sets (w :: words) rs
    | .redirect stream arrow => do
      let r ← target n stream arrow
      simple n line leads sets words (r :: rs)
    | .opened =>
      match sets, words, rs with
      | [], [w], [] => do
        close n .closed
        let name := (plain? w).getD ""
        if !isName name.toList || specialBuiltins.contains name then fail "Bad function name"
        expects true true
        pure (.define name (← command n))
      | _, _, _ => do
        putBack
        pure (.simple line sets.reverse words.reverse rs.reverse)
    | _ => do
      putBack
      pure (.simple line sets.reverse words.reverse rs.reverse)

end

def lineMore : Nat → Command → Reading Command
  | 0, _ => fail "end of file unexpected"
  | n + 1, c => do
    expects true false
    let t ← token n
    match t with
    | .newline => do
      readBelow n
      pure c
    | .endOfFile => do
      readBelow n
      putBack
      pure c
    | _ => do
      putBack
      let d ← andOr n
      let join (d : Command) : Command :=
        match c with
        | .nothing => d
        | c => .next c d
      match ← token n with
      | .ampersand => lineMore n (join (.background d))
      | .semicolon => lineMore n (join d)
      | .newline => do
        putBack
        lineMore n (join d)
      | .endOfFile => do
        readBelow n
        putBack
        pure (join d)
      | _ => unexpected

end Reading

namespace Scan

/-- Texts below lines are numbered from `count` on. -/
def ofText (s : List Char) (count : Nat) : Scan :=
  ⟨s, 1, .newline, false, false, false, false, [], [], count⟩

def limit (s : Scan) : Nat := 16 * s.rest.length + 64

def isDone (s : Scan) : Bool := s.rest.isEmpty

def readLine (s : Scan) : EStateM.Result SyntaxFault Scan Command :=
  Reading.lineMore s.limit .nothing { s with again := false, announced := [], texts := [] }

end Scan

end FragmentMerge.Script
