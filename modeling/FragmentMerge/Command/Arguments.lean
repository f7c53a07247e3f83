import FragmentMerge.Text.Basic

/-! The command line: options, a command and its options. The options for the configuration and for
verbose output may stand on either side of the command. -/

namespace FragmentMerge

inductive Command where
  | merge
  | conflicts
  | patch
  | generate
  deriving DecidableEq, Repr

def Command.words : List (String × Command) :=
  [("merge", .merge), ("conflicts", .conflicts), ("patch", .patch), ("generate", .generate)]

def Command.reports : Command → Bool
  | .conflicts => false
  | _ => true

/-- What the command line asks for. -/
inductive Request where
  | run (command : Command) (config : Option String) (verbose : Bool) (report : Option String)
  | help
  | version
  | misuse
  deriving DecidableEq, Repr

namespace Arguments

/-- The options given so far on one side of the command. -/
structure Options where
  config : Option String
  verbose : Bool
  report : Option String
  deriving DecidableEq, Repr

def Options.none : Options := ⟨.none, false, .none⟩

inductive Flag where
  | config
  | verbose
  | report
  | help
  | version
  deriving DecidableEq, Repr

/-- The flags known on a side of the command: the version can be asked for before it only, and a
report only by a command that has one. -/
def known (c : Option Command) : Flag → Bool
  | .version => c.isNone
  | .report => c.any Command.reports
  | _ => true

def longFlags : List (String × Flag) :=
  [("config", .config), ("verbose", .verbose), ("report", .report), ("help", .help),
   ("version", .version)]

def shortFlags : List (Char × Flag) :=
  [('c', .config), ('v', .verbose), ('r', .report), ('h', .help), ('V', .version)]

def longFlag? (c : Option Command) (name : List Char) : Option Flag :=
  (longFlags.lookup (String.ofList name)).filter (known c)

def shortFlag? (c : Option Command) (name : Char) : Option Flag :=
  (shortFlags.lookup name).filter (known c)

/-- Sets an option that takes a value; a value is never empty, and no option is given twice. -/
def Options.setValue (o : Options) (f : Flag) (v : String) : Option Options :=
  if v.isEmpty then .none
  else match f with
  | .config => if o.config.isSome then .none else some { o with config := some v }
  | .report => if o.report.isSome then .none else some { o with report := some v }
  | _ => .none

def Options.setVerbose (o : Options) : Option Options :=
  if o.verbose then .none else some { o with verbose := true }

def isValue (s : String) : Bool :=
  match s.toList with
  | ['-'] => true
  | '-' :: _ => false
  | _ => true

/-- What a word with flags comes to. -/
inductive Taken where
  | options (o : Options)
  | wants (o : Options) (f : Flag)
  | stop (r : Request)

/-- The letters of a word of short flags. The first that takes a value takes the rest of the word. -/
def shortLetters (c : Option Command) (o : Options) : List Char → Taken
  | [] => .options o
  | l :: ls =>
    match shortFlag? c l with
    | .none => .stop .misuse
    | some .help => .stop .help
    | some .version => .stop .version
    | some .verbose =>
      match o.setVerbose with
      | some o => shortLetters c o ls
      | .none => .stop .misuse
    | some f =>
      match ls with
      | [] => .wants o f
      | ls =>
        let v := match ls with
          | '=' :: v => v
          | v => v
        match o.setValue f (String.ofList v) with
        | some o => .options o
        | .none => .stop .misuse

def longWord (c : Option Command) (o : Options) (s : List Char) : Taken :=
  let (name, value) := match Text.cutFirst? '=' s with
    | some (name, value) => (name, some value)
    | .none => (s, .none)
  match longFlag? c name, value with
  | .none, _ => .stop .misuse
  | some .help, .none => .stop .help
  | some .version, .none => .stop .version
  | some .verbose, .none =>
    match o.setVerbose with
    | some o => .options o
    | .none => .stop .misuse
  | some .config, .none => .wants o .config
  | some .report, .none => .wants o .report
  | some f, some v =>
    match o.setValue f (String.ofList v) with
    | some o => .options o
    | .none => .stop .misuse

/-- What the options before and after the command ask for together; those after it come first. -/
def request (c : Command) (outer inner : Options) : Request :=
  .run c (inner.config.or outer.config) (inner.verbose || outer.verbose) inner.report

/-- Reads words: `wanted` is a flag whose value comes next, `outer` are the options before the
command. -/
def read (c : Option Command) (outer o : Options) (wanted : Option Flag) : List String → Request
  | [] =>
    match wanted, c with
    | .none, some c => request c outer o
    | _, _ => .misuse
  | w :: ws =>
    match wanted with
    | some f =>
      if isValue w then
        match o.setValue f w with
        | some o => read c outer o .none ws
        | .none => .misuse
      else .misuse
    | .none =>
      let go (t : Taken) : Request :=
        match t with
        | .options o => read c outer o .none ws
        | .wants o f => read c outer o (some f) ws
        | .stop r => r
      match w.toList with
      | ['-', '-'] =>
        match c, ws with
        | some c, [] => request c outer o
        | _, _ => .misuse
      | '-' :: '-' :: s => go (longWord c o s)
      | ['-'] => .misuse
      | '-' :: s => go (shortLetters c o s)
      | _ =>
        match c with
        | some _ => .misuse
        | .none =>
          if w = "help" then
            match ws with
            | [] => .help
            | [topic] =>
              if topic = "help" || (Command.words.lookup topic).isSome then .help else .misuse
            | _ => .misuse
          else match Command.words.lookup w with
            | some c => read (some c) o .none .none ws
            | .none => .misuse

def parse (words : List String) : Request := read .none .none .none .none words

end Arguments

end FragmentMerge
