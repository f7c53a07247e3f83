/-! Programs of `awk`: rules that say what to do with records, and functions. -/

namespace FragmentMerge.Script.Awk

inductive Operator where
  | add
  | subtract
  | multiply
  | divide
  | remainder
  | power
  deriving DecidableEq, Repr

inductive Comparison where
  | less
  | atMost
  | equal
  | unequal
  | atLeast
  | greater
  deriving DecidableEq, Repr

inductive Expr where
  | number (x : Float)
  | text (s : String)
  /-- An expression between slashes. -/
  | regular (s : String)
  | name (x : String)
  | item (array : String) (keys : List Expr)
  | field (e : Expr)
  /-- Several expressions in brackets. -/
  | row (es : List Expr)
  | isIn (keys : List Expr) (array : String)
  | assign (target e : Expr)
  | update (op : Operator) (target e : Expr)
  /-- Adds one, or takes one away; its value is the one before or after. -/
  | step (before up : Bool) (target : Expr)
  | binary (op : Operator) (a b : Expr)
  | negated (e : Expr)
  | numeric (e : Expr)
  | denied (e : Expr)
  | compare (c : Comparison) (a b : Expr)
  | join (a b : Expr)
  | fits (does : Bool) (e pattern : Expr)
  | both (a b : Expr)
  | either (a b : Expr)
  | choose (test yes no : Expr)
  | call (function : String) (args : List Expr)
  | builtin (function : String) (args : List Expr)
  | readRecord (target : Option Expr)
  | readFile (target : Option Expr) (file : Expr)
  | readOutput (target : Option Expr) (command : Expr)

inductive Outlet where
  | file
  | append
  | command
  deriving DecidableEq, Repr

inductive Statement where
  | expr (e : Expr)
  | print (args : List Expr) (outlet : Option (Outlet × Expr))
  | printf (args : List Expr) (outlet : Option (Outlet × Expr))
  | choose (test : Expr) (yes no : Statement)
  /-- A loop with a test before each round, and a step after it. -/
  | loop (test : Option Expr) (step body : Statement)
  /-- A loop with a test after each round. -/
  | loopOnce (body : Statement) (test : Expr)
  | each (name array : String) (body : Statement)
  | block (ss : List Statement)
  | next
  | nextFile
  | exit (e : Option Expr)
  | stop
  | again
  | back (e : Option Expr)
  | delete (array : String) (keys : Option (List Expr))

def Statement.nothing : Statement := .block []

inductive Trigger where
  | start
  | finish
  | always
  | test (e : Expr)
  | range (first last : Expr)

structure Rule where
  trigger : Trigger
  body : Statement

structure Function where
  params : List String
  body : Statement

structure Program where
  rules : List Rule
  functions : List (String × Function)

end FragmentMerge.Script.Awk
