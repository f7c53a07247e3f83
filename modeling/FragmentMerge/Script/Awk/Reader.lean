import FragmentMerge.Script.Format
import FragmentMerge.Script.Awk.Syntax

/-! Reads programs of `awk`. -/

namespace FragmentMerge.Script.Awk

inductive Token where
  | number (x : Float)
  | text (s : String)
  | regular (s : String)
  | name (x : String)
  /-- A name that an opening bracket follows. -/
  | call (x : String)
  | builtin (x : String)
  | keyword (x : String)
  | sign (s : String)
  | newline

namespace Token

def keywords : List String :=
  ["BEGIN", "END", "function", "func", "if", "else", "while", "for", "do", "break", "continue", "next",
    "nextfile", "exit", "return", "delete", "in", "getline", "print", "printf"]

def builtins : List String :=
  ["length", "substr", "index", "split", "sub", "gsub", "match", "sprintf", "sin", "cos", "atan2", "exp",
    "log", "sqrt", "int", "rand", "srand", "tolower", "toupper", "system", "close", "fflush"]

/-- The signs, longer ones first. -/
def signs : List String :=
  ["&&", "||", "++", "--", "+=", "-=", "*=", "/=", "%=", "^=", "==", "<=", ">=", "!=", "!~", ">>", "\x7b",
    "\x7d", "(", ")", "[", "]", ";", ",", "+", "-", "*", "/", "%", "^", "!", ">", "<", "|", "?", ":", "~", "$",
    "="]

/-- Whether a slash behind the token divides. -/
def isOperand : Token → Bool
  | number _ => true
  | text _ => true
  | regular _ => true
  | name _ => true
  | builtin _ => true
  | sign s => [")", "]", "$", "++", "--"].contains s
  | _ => false

def isSign (s : String) : Token → Bool
  | sign t => s == t
  | _ => false

def isKeyword (s : String) : Token → Bool
  | keyword t => s == t
  | _ => false

end Token

def isNameStart (c : Char) : Bool := c.isAlpha || c == '_'

def isNameChar (c : Char) : Bool := c.isAlphanum || c == '_'

def escape : List Char → List Char × List Char
  | [] => (['\\'], [])
  | c :: s =>
    if isOctal c then
      let ds := ((c :: s).takeWhile isOctal).take 3
      ([Char.ofNat ((digits 8 0 ds).1 % 256)], (c :: s).drop ds.length)
    else
      let plain := [('"', '"'), ('\\', '\\'), ('/', '/'), ('a', '\x07'), ('b', '\x08'), ('f', '\x0c'),
        ('n', '\n'), ('r', '\r'), ('t', '\t'), ('v', '\x0b')]
      match plain.lookup c with
      | some d => ([d], s)
      | none => (['\\', c], s)

def escapedWithin : Nat → List Char → List Char
  | 0, s => s
  | _, [] => []
  | n + 1, '\\' :: s =>
    let (t, rest) := escape s
    t ++ escapedWithin n rest
  | n + 1, c :: s => c :: escapedWithin n s

def escaped (s : String) : String := String.ofList (escapedWithin s.length s.toList)

def quoted? : Nat → List Char → Option (List Char × List Char)
  | 0, _ => none
  | _, [] => none
  | _, '"' :: s => some ([], s)
  | n + 1, '\\' :: '\n' :: s => quoted? n s
  | n + 1, '\\' :: s => do
    let (t, rest) := escape s
    let (more, rest) ← quoted? n rest
    pure (t ++ more, rest)
  | n + 1, c :: s => do
    if c == '\n' then none
    else do
      let (more, rest) ← quoted? n s
      pure (c :: more, rest)

/-- The text up to a slash that is not in a set, and what follows it. -/
def slashed? (inSet : Bool) : List Char → Option (List Char × List Char)
  | [] => none
  | '\n' :: _ => none
  | '\\' :: c :: s => (slashed? inSet s).map fun (t, rest) => ('\\' :: c :: t, rest)
  | c :: s =>
    if c == '/' && !inSet then some ([], s)
    else
      let inSet := if inSet then c != ']' else c == '['
      (slashed? inSet s).map fun (t, rest) => (c :: t, rest)

/-- Reads the tokens of a program; the tokens so far stand latest first. -/
def tokensWithin : Nat → List Token → List Char → Except String (List Token)
  | 0, ts, _ => .ok ts.reverse
  | _, ts, [] => .ok ts.reverse
  | n + 1, ts, c :: s =>
    if c == '\n' then tokensWithin n (.newline :: ts) s
    else if isSpace c then tokensWithin n ts s
    else if c == '#' then tokensWithin n ts (s.dropWhile (· != '\n'))
    else if c == '\\' && s.head? == some '\n' then tokensWithin n ts s.tail
    else if c == '"' then
      match quoted? (s.length + 1) s with
      | some (t, rest) => tokensWithin n (.text (String.ofList t) :: ts) rest
      | none => .error "runaway string constant"
    else if c == '/' && !(ts.head?.map Token.isOperand).getD false then
      match slashed? false s with
      | some (t, rest) => tokensWithin n (.regular (String.ofList t) :: ts) rest
      | none => .error "runaway regular expression"
    else if c.isDigit || (c == '.' && (s.head?.map Char.isDigit).getD false) then
      match decimal? (c :: s) with
      | some (x, rest) => tokensWithin n (.number x :: ts) rest
      | none => .error "syntax error"
    else if isNameStart c then
      let name := String.ofList (c :: s.takeWhile isNameChar)
      let rest := s.drop (name.length - 1)
      let t :=
        if Token.keywords.contains name then Token.keyword (if name == "func" then "function" else name)
        else if Token.builtins.contains name then .builtin name
        else if rest.head? == some '(' then .call name
        else .name name
      tokensWithin n (t :: ts) rest
    else
      match Token.signs.find? fun sign => sign.toList.isPrefixOf (c :: s) with
      | some sign => tokensWithin n (.sign sign :: ts) ((c :: s).drop sign.length)
      | none => .error "unexpected character"

def tokens (s : String) : Except String (List Token) := tokensWithin (s.length + 1) [] s.toList

abbrev Read := EStateM String (List Token)

namespace Read

def wrong : Read α := throw "syntax error"

def peek : Read (Option Token) := do pure (← get).head?

def sees (s : String) : Read Bool := do pure ((← peek).any (Token.isSign s))

def seesWord (s : String) : Read Bool := do pure ((← peek).any (Token.isKeyword s))

def skip : Read Unit := modify List.tail

def takes (s : String) : Read Bool := do
  if ← sees s then
    skip
    pure true
  else pure false

def takesWord (s : String) : Read Bool := do
  if ← seesWord s then
    skip
    pure true
  else pure false

def expect (s : String) : Read Unit := do
  if !(← takes s) then wrong

def lines : Read Unit :=
  modify fun ts => ts.dropWhile fun t => match t with
    | .newline => true
    | _ => false

def ends : Read Unit :=
  modify fun ts => ts.dropWhile fun t => match t with
    | .newline => true
    | .sign s => s == ";"
    | _ => false

def anyName : Read String := do
  match ← peek with
  | some (.name x) => do
    skip
    pure x
  | _ => wrong

/-- Whether what is next may be joined to what stands before it. -/
def seesOperand : Read Bool := do
  pure <| match ← peek with
    | some (.number _) => true
    | some (.text _) => true
    | some (.regular _) => true
    | some (.name _) => true
    | some (.call _) => true
    | some (.builtin _) => true
    | some (.sign s) => ["$", "!", "(", "-", "+", "++", "--"].contains s
    | _ => false

def isTarget : Expr → Bool
  | .name _ => true
  | .item _ _ => true
  | .field _ => true
  | _ => false

structure Place where
  /-- Whether a sign for larger compares. -/
  compares : Bool
  /-- Whether `in` asks for an index. -/
  asks : Bool

def Place.inside : Place := ⟨true, true⟩

def updates : List (String × Operator) :=
  [("+=", .add), ("-=", .subtract), ("*=", .multiply), ("/=", .divide), ("%=", .remainder), ("^=", .power)]

def sums : List (String × Operator) := [("+", .add), ("-", .subtract)]

def products : List (String × Operator) := [("*", .multiply), ("/", .divide), ("%", .remainder)]

def comparisons : List (String × Comparison) :=
  [("<", .less), ("<=", .atMost), ("==", .equal), ("!=", .unequal), (">=", .atLeast), (">", .greater)]

def takesOf (signs : List (String × α)) : Read (Option α) := do
  match ← peek with
  | some (.sign s) =>
    match signs.lookup s with
    | some a => do
      skip
      pure (some a)
    | none => pure none
  | _ => pure none

mutual

def expr : Nat → Place → Read Expr
  | 0, _ => wrong
  | n + 1, p => do
    let test ← either n p
    if ← takes "?" then
      lines
      let yes ← expr n p
      lines
      expect ":"
      lines
      pure (.choose test yes (← expr n p))
    else pure test

def either : Nat → Place → Read Expr
  | 0, _ => wrong
  | n + 1, p => do moreEither n p (← both n p)

def moreEither : Nat → Place → Expr → Read Expr
  | 0, _, _ => wrong
  | n + 1, p, e => do
    if ← takes "||" then
      lines
      moreEither n p (.either e (← both n p))
    else pure e

def both : Nat → Place → Read Expr
  | 0, _ => wrong
  | n + 1, p => do moreBoth n p (← member n p)

def moreBoth : Nat → Place → Expr → Read Expr
  | 0, _, _ => wrong
  | n + 1, p, e => do
    if ← takes "&&" then
      lines
      moreBoth n p (.both e (← member n p))
    else pure e

def member : Nat → Place → Read Expr
  | 0, _ => wrong
  | n + 1, p => do moreMember n p (← fitting n p)

def moreMember : Nat → Place → Expr → Read Expr
  | 0, _, _ => wrong
  | n + 1, p, e => do
    if p.asks && (← takesWord "in") then
      let keys := match e with
        | .row es => es
        | e => [e]
      moreMember n p (.isIn keys (← anyName))
    else pure e

def fitting : Nat → Place → Read Expr
  | 0, _ => wrong
  | n + 1, p => do moreFitting n p (← comparing n p)

def moreFitting : Nat → Place → Expr → Read Expr
  | 0, _, _ => wrong
  | n + 1, p, e => do
    if ← takes "~" then moreFitting n p (.fits true e (← comparing n p))
    else if ← takes "!~" then moreFitting n p (.fits false e (← comparing n p))
    else pure e

def comparing : Nat → Place → Read Expr
  | 0, _ => wrong
  | n + 1, p => do
    let a ← outputOf n (← joined n p)
    if !p.compares && (← sees ">") then pure a
    else match ← takesOf comparisons with
    | some c => pure (.compare c a (← outputOf n (← joined n p)))
    | none => pure a

/-- Reads `getline` from what a command prints. -/
def outputOf : Nat → Expr → Read Expr
  | 0, _ => wrong
  | n + 1, e => do
    match ← get with
    | .sign "|" :: .keyword "getline" :: ts => do
      set ts
      outputOf n (.readOutput (← target n) e)
    | _ => pure e

def joined : Nat → Place → Read Expr
  | 0, _ => wrong
  | n + 1, p => do moreJoined n p (← sum n p)

def moreJoined : Nat → Place → Expr → Read Expr
  | 0, _, _ => wrong
  | n + 1, p, e => do
    if ← seesOperand then moreJoined n p (.join e (← sum n p)) else pure e

def sum : Nat → Place → Read Expr
  | 0, _ => wrong
  | n + 1, p => do moreSum n p (← product n p)

def moreSum : Nat → Place → Expr → Read Expr
  | 0, _, _ => wrong
  | n + 1, p, e => do
    match ← takesOf sums with
    | some op => moreSum n p (.binary op e (← product n p))
    | none => pure e

def product : Nat → Place → Read Expr
  | 0, _ => wrong
  | n + 1, p => do moreProduct n p (← signed n p)

def moreProduct : Nat → Place → Expr → Read Expr
  | 0, _, _ => wrong
  | n + 1, p, e => do
    match ← takesOf products with
    | some op => moreProduct n p (.binary op e (← signed n p))
    | none => pure e

def signed : Nat → Place → Read Expr
  | 0, _ => wrong
  | n + 1, p => do
    if ← takes "!" then pure (.denied (← signed n p))
    else if ← takes "-" then pure (.negated (← signed n p))
    else if ← takes "+" then pure (.numeric (← signed n p))
    else power n p

def power : Nat → Place → Read Expr
  | 0, _ => wrong
  | n + 1, p => do
    let e ← stepped n p
    if ← takes "^" then pure (.binary .power e (← signed n p)) else pure e

def stepped : Nat → Place → Read Expr
  | 0, _ => wrong
  | n + 1, p => do
    if ← takes "++" then pure (.step true true (← operand n p))
    else if ← takes "--" then pure (.step true false (← operand n p))
    else do
      let e ← operand n p
      if !isTarget e then pure e
      else if ← takes "++" then pure (.step false true e)
      else if ← takes "--" then pure (.step false false e)
      else if ← takes "=" then pure (.assign e (← expr n p))
      else match ← takesOf updates with
      | some op => pure (.update op e (← expr n p))
      | none => pure e

def target : Nat → Read (Option Expr)
  | 0 => wrong
  | n + 1 => do
    match ← peek with
    | some (.name _) => do pure (some (← operand n .inside))
    | some (.sign "$") => do pure (some (← operand n .inside))
    | _ => pure none

def list : Nat → Place → Read (List Expr)
  | 0, _ => wrong
  | n + 1, p => do
    let e ← expr n p
    if ← takes "," then
      lines
      pure (e :: (← list n p))
    else pure [e]

def args : Nat → Read (List Expr)
  | 0 => wrong
  | n + 1 => do
    if ← takes ")" then pure []
    else do
      let es ← list n .inside
      expect ")"
      pure es

def operand : Nat → Place → Read Expr
  | 0, _ => wrong
  | n + 1, p => do
    match ← peek with
    | some (.number x) => do
      skip
      pure (.number x)
    | some (.text s) => do
      skip
      pure (.text s)
    | some (.regular s) => do
      skip
      pure (.regular s)
    | some (.name x) => do
      skip
      if ← takes "[" then
        let keys ← list n .inside
        expect "]"
        pure (.item x keys)
      else pure (.name x)
    | some (.call x) => do
      skip
      skip
      pure (.call x (← args n))
    | some (.builtin x) => do
      skip
      if ← takes "(" then pure (.builtin x (← args n))
      else if x == "length" then pure (.builtin x [])
      else wrong
    | some (.keyword "getline") => do
      skip
      let t ← target n
      if ← takes "<" then pure (.readFile t (← stepped n p)) else pure (.readRecord t)
    | some (.sign "$") => do
      skip
      if ← takes "++" then pure (.field (.step true true (← operand n p)))
      else if ← takes "--" then pure (.field (.step true false (← operand n p)))
      else if ← takes "-" then pure (.field (.negated (← operand n p)))
      else pure (.field (← operand n p))
    | some (.sign "(") => do
      skip
      let es ← list n .inside
      expect ")"
      match es with
      | [e] => pure (.row [e])
      | es => pure (.row es)
    | some (.sign "-") => do pure (← signed n p)
    | some (.sign "+") => do pure (← signed n p)
    | some (.sign "!") => do pure (← signed n p)
    | _ => wrong

end

mutual

def statement : Nat → Read Statement
  | 0 => wrong
  | n + 1 => do
    match ← peek with
    | some (.sign "\x7b") => do
      skip
      let s ← block n
      pure s
    | some (.sign ";") => do
      skip
      lines
      pure .nothing
    | some (.keyword "if") => do
      skip
      expect "("
      let test ← expr n .inside
      expect ")"
      lines
      let yes ← statement n
      let before ← get
      ends
      if ← takesWord "else" then
        lines
        pure (.choose test yes (← statement n))
      else do
        set before
        pure (.choose test yes .nothing)
    | some (.keyword "while") => do
      skip
      expect "("
      let test ← expr n .inside
      expect ")"
      if ← takes ";" then
        lines
        pure (.loop (some test) .nothing .nothing)
      else do
        lines
        pure (.loop (some test) .nothing (← statement n))
    | some (.keyword "do") => do
      skip
      lines
      let body ← statement n
      ends
      if !(← takesWord "while") then wrong
      expect "("
      let test ← expr n .inside
      expect ")"
      finish
      pure (.loopOnce body test)
    | some (.keyword "for") => do
      skip
      expect "("
      match ← get with
      | .name x :: .keyword "in" :: .name a :: .sign ")" :: ts => do
        set ts
        lines
        pure (.each x a (← statement n))
      | _ => do
        let first ← if ← sees ";" then pure .nothing else plain n
        expect ";"
        lines
        let test ← if ← sees ";" then pure none else do pure (some (← expr n .inside))
        expect ";"
        lines
        let step ← if ← sees ")" then pure .nothing else plain n
        expect ")"
        if ← takes ";" then
          lines
          pure (.block [first, .loop test step .nothing])
        else do
          lines
          let body ← statement n
          pure (.block [first, .loop test step body])
    | _ => do
      let s ← plain n
      finish
      pure s

def finish : Read Unit := do
  match ← peek with
  | some (.sign ";") => do
    skip
    lines
  | some .newline => lines
  | some (.sign "\x7d") => pure ()
  | none => pure ()
  | _ => wrong

def block : Nat → Read Statement
  | 0 => wrong
  | n + 1 => do
    lines
    let ss ← statements n
    lines
    pure (.block ss)

def statements : Nat → Read (List Statement)
  | 0 => wrong
  | n + 1 => do
    lines
    if ← takes "\x7d" then pure []
    else do
      let s ← statement n
      pure (s :: (← statements n))

/-- Reads a statement that holds no other one. -/
def plain : Nat → Read Statement
  | 0 => wrong
  | n + 1 => do
    match ← peek with
    | some (.keyword "print") => do
      skip
      let (es, o) ← printed n
      pure (.print es o)
    | some (.keyword "printf") => do
      skip
      let (es, o) ← printed n
      pure (.printf es o)
    | some (.keyword "next") => word .next
    | some (.keyword "nextfile") => word .nextFile
    | some (.keyword "break") => word .stop
    | some (.keyword "continue") => word .again
    | some (.keyword "exit") => do
      skip
      pure (.exit (← value n))
    | some (.keyword "return") => do
      skip
      pure (.back (← value n))
    | some (.keyword "delete") => do
      skip
      let x ← anyName
      if ← takes "[" then
        let keys ← list n .inside
        expect "]"
        pure (.delete x (some keys))
      else pure (.delete x none)
    | _ => do pure (.expr (← expr n .inside))

def word (s : Statement) : Read Statement := do
  skip
  pure s

def atEnd : Read Bool := do
  pure <| match ← peek with
    | none => true
    | some .newline => true
    | some (.sign s) => [";", "\x7d", ")"].contains s
    | _ => false

def value : Nat → Read (Option Expr)
  | 0 => wrong
  | n + 1 => do
    if ← atEnd then pure none else pure (some (← expr n .inside))

def printed : Nat → Read (List Expr × Option (Outlet × Expr))
  | 0 => wrong
  | n + 1 => do
    let here ← peek
    let isBare := here.any fun t => Token.isSign ">" t || Token.isSign ">>" t || Token.isSign "|" t
    let es ← if isBare || (← atEnd) then pure [] else list n ⟨false, true⟩
    let es := match es with
      | [.row es] => es
      | es => es
    if ← takes ">" then pure (es, some (.file, ← expr n ⟨false, true⟩))
    else if ← takes ">>" then pure (es, some (.append, ← expr n ⟨false, true⟩))
    else if ← takes "|" then pure (es, some (.command, ← expr n ⟨false, true⟩))
    else pure (es, none)

end

def params : Nat → Read (List String)
  | 0 => wrong
  | n + 1 => do
    if ← takes ")" then pure []
    else do
      let x ← anyName
      if ← takes "," then lines
      pure (x :: (← params n))

/-- Reads the body of a rule; a rule without one prints its record. -/
def body (n : Nat) : Read Statement := do
  if ← takes "\x7b" then block n else pure (.print [] none)

def program (size : Nat) : Nat → Program → Read Program
  | 0, _ => wrong
  | n + 1, p => do
    ends
    let rule (t : Trigger) : Read Program := do
      let b ← body size
      pure { p with rules := p.rules ++ [⟨t, b⟩] }
    match ← peek with
    | none => pure p
    | some (.keyword "function") => do
      skip
      let name ← match ← peek with
        | some (.name x) => pure x
        | some (.call x) => pure x
        | _ => wrong
      skip
      expect "("
      let xs ← params size
      lines
      expect "\x7b"
      let b ← block size
      program size n { p with functions := p.functions ++ [(name, ⟨xs, b⟩)] }
    | some (.keyword "BEGIN") => do
      skip
      expect "\x7b"
      let b ← block size
      program size n { p with rules := p.rules ++ [⟨.start, b⟩] }
    | some (.keyword "END") => do
      skip
      expect "\x7b"
      let b ← block size
      program size n { p with rules := p.rules ++ [⟨.finish, b⟩] }
    | some (.sign "\x7b") => do program size n (← rule .always)
    | _ => do
      let e ← expr size .inside
      if ← takes "," then
        lines
        let last ← expr size .inside
        program size n (← rule (.range e last))
      else program size n (← rule (.test e))

end Read

def Program.parse (s : String) : Except String Program := do
  let ts ← tokens s
  match Read.program (40 * ts.length + 100) (ts.length + 1) ⟨[], []⟩ ts with
  | .ok p _ => .ok p
  | .error e _ => .error e

end FragmentMerge.Script.Awk
