import FragmentMerge.Script.Awk.Machine
import FragmentMerge.Script.Awk.Reader

/-! Runs programs of `awk`. Every function takes a number that bounds how deep expressions lie in one another
and how often loops go round. -/

namespace FragmentMerge.Script.Awk

open Work

/-- Runs a command of the shell on an input, or on what the program reads if there is none; gives what it
prints if that is taken. -/
abbrev Commands := String → Option (List Char) → Bool → Act String

def compute (op : Operator) (x y : Float) : Float :=
  match op with
  | .add => x + y
  | .subtract => x - y
  | .multiply => x * y
  | .divide => x / y
  | .power => Float.pow x y
  | .remainder =>
    let a := fraction x
    let b := fraction y
    if b.above == 0 || (strangeText? x).isSome then 0 / 0
    else if (strangeText? y).isSome then x
    else
      let n := a.above * b.below % (b.above * a.below)
      let r := Float.ofNat n / Float.ofNat (a.below * b.below)
      if a.negative then -r else r

def holds (c : Comparison) (o : Option Ordering) : Bool :=
  match c, o with
  | .less, some .lt => true
  | .atMost, some .lt => true
  | .atMost, some .eq => true
  | .equal, some .eq => true
  | .unequal, o => o != some .eq
  | .atLeast, some .gt => true
  | .atLeast, some .eq => true
  | .greater, some .gt => true
  | _, _ => false

/-- The text that replaces a find; an ampersand stands for what was found. -/
def replacement (found : List Char) : List Char → List Char
  | '\\' :: '&' :: s => '&' :: replacement found s
  | '\\' :: '\\' :: '&' :: s => '\\' :: (found ++ replacement found s)
  | '&' :: s => found ++ replacement found s
  | c :: s => c :: replacement found s
  | [] => []

/-- Replaces the finds in a text, or only the first one; gives how many there were. After a find there is
no empty one. -/
def replaced (r : Regular) (new : List Char) (all : Bool) :
    Nat → Bool → Option Char → List Char → List Char × Nat
  | 0, _, _, s => (s, 0)
  | n + 1, isAfter, left, s =>
    match r.find? left s with
    | none => (s, 0)
    | some f =>
      let found := (s.drop f.start).take f.length
      let lead := s.take f.start
      let rest := s.drop (f.start + f.length)
      if f.length == 0 && f.start == 0 && isAfter then
        match s with
        | [] => ([], 0)
        | c :: s =>
          let (t, k) := replaced r new all n false (some c) s
          (c :: t, k)
      else
        let text := lead ++ replacement found new
        if !all then (text ++ rest, 1)
        else if f.length == 0 then
          match rest with
          | [] => (text, 1)
          | c :: rest =>
            let (t, k) := replaced r new all n false (some c) rest
            (text ++ c :: t, k + 1)
        else
          let (t, k) := replaced r new all n true found.getLast? rest
          (text ++ t, k + 1)

def directiveText (d : Directive) (form : String) (v : Value) : Option (List Char) :=
  match d.kind with
  | 's' => some (d.text (v.toText form).toList)
  | 'c' =>
    let c := match v with
      | .number x => [Char.ofNat (wholePart x % 256).toNat]
      | v => (v.toText form).toList.take 1
    some (d.pad false [] c)
  | k =>
    let x := v.toNumber
    if k == 'd' || k == 'i' then
      match strangeText? x with
      | some s => some (d.pad false [] s.toList)
      | none => some (d.signed (max (-numberLimit) (min 18446744073709551615 (wholePart x))))
    else if ['o', 'u', 'x', 'X'].contains k then
      some (d.unsigned (wholePart x % (2 * numberLimit + 2)).toNat)
    else if ['f', 'F', 'e', 'E', 'g', 'G'].contains k then
      match strangeText? x with
      | some s => some (d.pad false [] s.toList)
      | none => some (d.real (fraction x))
    else none

/-- Fills a number into a directive for each star in it. -/
def starred : List Char → List Value → List Char × List Value
  | '*' :: s, v :: vs =>
    let (t, rest) := starred s vs
    ((toString (wholePart v.toNumber)).toList ++ t, rest)
  | c :: s, vs =>
    if c.isAlpha || c == '%' then (c :: s, vs)
    else
      let (t, rest) := starred s vs
      (c :: t, rest)
  | [], vs => ([], vs)

def formattedAll (form : String) : Nat → List Char → List Value → Except String (List Char)
  | 0, _, _ => .ok []
  | _, [], _ => .ok []
  | n + 1, '%' :: '%' :: s, vs => (formattedAll form n s vs).map ('%' :: ·)
  | n + 1, '%' :: s, vs => do
    let (s, vs) := starred s vs
    let (d, rest, _) := directive s ⟨[], [], [], false⟩
    match vs with
    | [] => throw "not enough arguments passed to printf"
    | v :: vs =>
      match directiveText d form v with
      | some t => do pure (t ++ (← formattedAll form n rest vs))
      | none => throw "improper conversion in printf"
  | n + 1, c :: s, vs => (formattedAll form n s vs).map (c :: ·)

def part (s : List Char) (start : Float) (length : Option Float) : List Char :=
  let first := (Float.floor (start + 0.5))
  let last := match length with
    | some n => first + Float.floor (n + 0.5)
    | none => 1 / 0
  let top := Float.ofNat (s.length + 1)
  let last := if last < top then last else top
  let first := if first < 1 then 1 else first
  if first < last then (s.drop (first.toUInt64.toNat - 1)).take (last - first).toUInt64.toNat else []

def placeOf (t : List Char) : Nat → List Char → Nat
  | n, s =>
    if t.isPrefixOf s then n
    else match s with
    | [] => 0
    | _ :: s => placeOf t (n + 1) s

def mathOf? (function : String) : Option (Float → Float) :=
  [("sin", Float.sin), ("cos", Float.cos), ("exp", Float.exp), ("log", Float.log),
    ("sqrt", Float.sqrt)].lookup function

/-- Ends a command that was fed, or a file. -/
def closeChannel (commands : Commands) (name : String) : Work Bool := do
  match ← channel? name with
  | none => pure false
  | some c => do
    modify fun m => { m with channels := m.channels.filter (·.1 != name) }
    match c with
    | .feeds text => do
      let _ ← act (commands name (some text.toList) false)
    | _ => pure ()
    pure true

def send (text : String) : Option (Outlet × String) → Work Unit
  | none => modify fun m => { m with held := m.held ++ text }
  | some (.file, path) => writeFile path text false
  | some (.append, path) => writeFile path text true
  | some (.command, name) => do
    match ← channel? name with
    | some (.feeds old) => putChannel name (.feeds (old ++ text))
    | _ => do
      release
      putChannel name (.feeds text)

def assignment? (w : String) : Option (String × String) :=
  let name := w.toList.takeWhile isNameChar
  match name, w.toList.drop name.length with
  | c :: _, '=' :: value =>
    if isNameStart c then some (String.ofList name, escaped (String.ofList value)) else none
  | _, _ => none

/-- Opens the next file among the arguments; tells whether there is one. -/
def openNext (any : Bool) : Nat → Work Bool
  | 0 => pure false
  | n + 1 => do
    let count := (← global "ARGC").toNumber.toUInt64.toNat
    let place := (← get).place
    if count ≤ place then
      if any then pure false
      else do
        let .ok s ← fileText "-" | pure false
        modify fun m => { m with rest := some s, isOver := true }
        pure true
    else do
      modify fun m => { m with place := place + 1 }
      let (key, found, t) := (← table 0).find "" (.number (Float.ofNat place)) false
      let w ← if found then textOf (t.get key) else pure ""
      if w.isEmpty then openNext any n
      else match assignment? w with
      | some (name, value) => do
        setVariable name (Value.ofInput value)
        openNext any n
      | none =>
        match ← fileText w with
        | .ok s => do
          setGlobal "FILENAME" (.text w)
          setGlobal "FNR" (.ofNat 0)
          modify fun m => { m with rest := some s }
          pure true
        | .error e => wrong s!"cannot open \"{w}\" ({e.reason})"

/-- Reads the next record of the files among the arguments. `any` is whether one has been opened. -/
def nextRecord : Nat → Work (Option String)
  | 0 => pure none
  | n + 1 => do
    let m ← get
    match m.rest with
    | none =>
      if m.isOver then pure none
      else do
        let any := ((← global "FILENAME").toText "").isEmpty
        if ← openNext (!any) 100000 then nextRecord n
        else do
          modify fun m => { m with isOver := true }
          pure none
    | some s =>
      match ← cutRecord s with
      | some (r, rest) => do
        modify fun m => { m with rest := some rest }
        setGlobal "NR" (.number ((← global "NR").toNumber + 1))
        setGlobal "FNR" (.number ((← global "FNR").toNumber + 1))
        pure (some (String.ofList r))
      | none => do
        modify fun m => { m with rest := none }
        nextRecord n

mutual

def eval (p : Program) (commands : Commands) : Nat → Expr → Work Value
  | 0, _ => throw .exit
  | n + 1, e => do
    match e with
    | .number x => pure (.number x)
    | .text s => pure (.text s)
    | .regular s => do
      let r ← regular s
      pure (.ofBool (r.isIn ((← textOf (← field 0)).toList)))
    | .name x => valueOf x
    | .item a keys => do
      let i ← tableOf a
      let key ← keyOf p commands n keys
      let (text, _, t) := (← table i).find (← form) key true
      putTable i t
      pure (t.get text)
    | .field e => do
      let x := (← eval p commands n e).toNumber
      if x < 0 then wrong "negative field index"
      else field x.toUInt64.toNat
    | .row es => do
      match es with
      | [e] => eval p commands n e
      | es => keyOf p commands n es
    | .isIn keys a => do
      let i ← tableOf a
      let key ← keyOf p commands n keys
      let (_, found, t) := (← table i).find (← form) key false
      putTable i t
      pure (.ofBool found)
    | .assign target e => do
      let v ← eval p commands n e
      put p commands n target v
      pure v
    | .update op target e => do
      let y := (← eval p commands n e).toNumber
      let x := (← eval p commands n target).toNumber
      let v := Value.number (compute op x y)
      put p commands n target v
      pure v
    | .step before up target => do
      let x := (← eval p commands n target).toNumber
      let y := if up then x + 1 else x - 1
      put p commands n target (.number y)
      pure (.number (if before then y else x))
    | .binary op a b => do
      let x := (← eval p commands n a).toNumber
      let y := (← eval p commands n b).toNumber
      pure (.number (compute op x y))
    | .negated e => do pure (.number (-(← eval p commands n e).toNumber))
    | .numeric e => do pure (.number (← eval p commands n e).toNumber)
    | .denied e => do pure (.ofBool !(← eval p commands n e).isTrue)
    | .compare c a b => do
      let v ← eval p commands n a
      let w ← eval p commands n b
      pure (.ofBool (holds c (v.order (← form) w)))
    | .join a b => do
      let s ← textOf (← eval p commands n a)
      let t ← textOf (← eval p commands n b)
      pure (.text (s ++ t))
    | .fits does e pattern => do
      let s ← textOf (← eval p commands n e)
      let r ← patternOf p commands n pattern
      pure (.ofBool (r.isIn s.toList == does))
    | .both a b => do
      if (← eval p commands n a).isTrue then pure (.ofBool (← eval p commands n b).isTrue)
      else pure (.ofBool false)
    | .either a b => do
      if (← eval p commands n a).isTrue then pure (.ofBool true)
      else pure (.ofBool (← eval p commands n b).isTrue)
    | .choose test yes no => do
      if (← eval p commands n test).isTrue then eval p commands n yes else eval p commands n no
    | .call f args => callFunction p commands n f args
    | .builtin f args => callBuiltin p commands n f args
    | .readRecord target => do
      match ← nextRecord 100000 with
      | none => pure (.ofNat 0)
      | some r => do
        put p commands n (target.getD (.field (.number 0))) (Value.ofInput r)
        pure (.ofNat 1)
    | .readFile target file => do
      let path ← textOf (← eval p commands n file)
      match ← channel? path with
      | some (.reads rest) => readFrom p commands n target path rest false
      | _ =>
        match ← fileText path with
        | .ok s => readFrom p commands n target path s false
        | .error _ => pure (.number (-1))
    | .readOutput target command => do
      let name ← textOf (← eval p commands n command)
      match ← channel? name with
      | some (.reads rest) => readFrom p commands n target name rest true
      | _ => do
        release
        let text ← act (commands name none true)
        readFrom p commands n target name text.toList true

def readFrom (p : Program) (commands : Commands) : Nat → Option Expr → String → List Char → Bool → Work Value
  | 0, _, _, _, _ => throw .exit
  | n + 1, target, name, s, counts => do
    match ← cutRecord s with
    | none => do
      putChannel name (.reads [])
      pure (.ofNat 0)
    | some (r, rest) => do
      putChannel name (.reads rest)
      if counts && target.isNone then setGlobal "NR" (.number ((← global "NR").toNumber + 1))
      put p commands n (target.getD (.field (.number 0))) (Value.ofInput (String.ofList r))
      pure (.ofNat 1)

def keyOf (p : Program) (commands : Commands) : Nat → List Expr → Work Value
  | 0, _ => throw .exit
  | n + 1, es => do
    match es with
    | [e] => eval p commands n e
    | es => do
      let vs ← evalAll p commands n es
      pure (.text ((← globalText "SUBSEP").intercalate (← vs.mapM textOf)))

def evalAll (p : Program) (commands : Commands) : Nat → List Expr → Work (List Value)
  | 0, _ => throw .exit
  | _, [] => pure []
  | n + 1, e :: es => do
    let v ← eval p commands n e
    pure (v :: (← evalAll p commands n es))

def patternOf (p : Program) (commands : Commands) : Nat → Expr → Work Regular
  | 0, _ => throw .exit
  | n + 1, e => do
    match e with
    | .regular s => regular s
    | .row [e] => patternOf p commands n e
    | e => do regular (← textOf (← eval p commands n e))

def put (p : Program) (commands : Commands) : Nat → Expr → Value → Work Unit
  | 0, _, _ => throw .exit
  | n + 1, target, v => do
    match target with
    | .name x => setVariable x v
    | .item a keys => do
      let i ← tableOf a
      let key ← keyOf p commands n keys
      let (text, _, t) := (← table i).find (← form) key true
      putTable i (t.set text v)
    | .field e => do
      let x := (← eval p commands n e).toNumber
      if x < 0 then wrong "negative field index"
      else setField x.toUInt64.toNat v
    | .row [e] => put p commands n e v
    | _ => pure ()

def callFunction (p : Program) (commands : Commands) : Nat → String → List Expr → Work Value
  | 0, _, _ => throw .exit
  | n + 1, name, args => do
    match p.functions.lookup name with
    | none => wrong s!"function {name} never defined"
    | some f => do
      let cells ← argCells p commands n args
      let given := f.params.zip cells
      let free := (f.params.drop cells.length).map fun x => (x, Cell.value .unset)
      modify fun m => { m with frames := (given ++ free) :: m.frames }
      let v ← try
          run p commands n f.body
          pure Value.unset
        catch s =>
          match s with
          | .back v => pure v
          | s => throw s
      modify fun m => { m with frames := m.frames.tail }
      pure v

/-- The values of arguments; a name of an array, or of nothing so far, stands for itself. -/
def argCells (p : Program) (commands : Commands) : Nat → List Expr → Work (List Cell)
  | 0, _ => throw .exit
  | _, [] => pure []
  | n + 1, e :: es => do
    let c ← match e with
      | .name x => do
        match ← cell? x with
        | some (.array i) => pure (Cell.array i)
        | some (.pending i) => pure (Cell.pending i)
        | some (.value .unset) => pendingCell x
        | none => pendingCell x
        | some c => pure c
      | e => do pure (Cell.value (← eval p commands n e))
    pure (c :: (← argCells p commands n es))

def pendingCell (x : String) : Work Cell := do
  let i ← newTable .empty
  putCell x (.pending i)
  pure (.pending i)

def callBuiltin (p : Program) (commands : Commands) : Nat → String → List Expr → Work Value
  | 0, _, _ => throw .exit
  | n + 1, f, args => do
    let value (i : Nat) : Work Value :=
      match args[i]? with
      | some e => eval p commands n e
      | none => pure .unset
    let text (i : Nat) : Work String := do textOf (← value i)
    match f with
    | "length" =>
      match args with
      | [] => do pure (.ofNat (← textOf (← field 0)).length)
      | [.name x] => do
        match ← cell? x with
        | some (.array i) => do pure (.ofNat (← table i).count)
        | _ => do pure (.ofNat (← text 0).length)
      | _ => do pure (.ofNat (← text 0).length)
    | "substr" => do
      let s ← text 0
      let start := (← value 1).toNumber
      let length ← if args.length < 3 then pure none else do pure (some (← value 2).toNumber)
      pure (.text (String.ofList (part s.toList start length)))
    | "index" => do
      let s ← text 0
      let t ← text 1
      pure (.ofNat (placeOf t.toList 1 s.toList))
    | "split" => do
      let s ← text 0
      let a ← match (args[1]? : Option Expr) with
        | some (.name x) => pure x
        | _ => wrong "type error"
      let ps ← match (args[2]? : Option Expr) with
        | none => do parts (← globalText "FS") false s.toList
        | some (.regular r) => parts r true s.toList
        | some e => do parts (← textOf (← eval p commands n e)) false s.toList
      putTable (← tableOf a) (.ofList (ps.map fun t => Value.ofInput (String.ofList t)))
      pure (.ofNat ps.length)
    | "match" => do
      let s ← text 0
      let r ← patternOf p commands n (args.getD 1 (.text ""))
      let (start, length) : Nat × Int := match r.find? none s.toList with
        | some found => (found.start + 1, found.length)
        | none => (0, -1)
      setGlobal "RSTART" (.ofNat start)
      setGlobal "RLENGTH" (.number (Float.ofInt length))
      pure (.ofNat start)
    | "sprintf" => do
      match ← evalAll p commands n args with
      | [] => wrong "not enough arguments passed to sprintf"
      | v :: vs =>
        let s ← textOf v
        match formattedAll (← form) (s.length + 1) s.toList vs with
        | .ok t => pure (.text (String.ofList t))
        | .error e => wrong e
    | "tolower" => do pure (.text ((← text 0).map Char.toLower))
    | "toupper" => do pure (.text ((← text 0).map Char.toUpper))
    | "int" => do
      let x := (← value 0).toNumber
      pure (.number (if x < 0 then Float.ceil x else Float.floor x))
    | "atan2" => do
      let y := (← value 0).toNumber
      pure (.number (Float.atan2 y (← value 1).toNumber))
    | "rand" => do
      let m ← get
      let seed := (wholePart m.seed * 1103515245 + 12345) % 2147483648
      set { m with seed := Float.ofInt seed }
      pure (.number (Float.ofInt seed / 2147483648))
    | "srand" => do
      let old := (← get).seed
      let new ← if args.isEmpty then pure (Value.ofNat 0) else value 0
      modify fun m => { m with seed := new.toNumber }
      pure (.number old)
    | "system" => do
      let command ← text 0
      release
      let _ ← act (commands command none false)
      pure (.ofNat (← get).shell.status)
    | "close" => do pure (.number (if ← closeChannel commands (← text 0) then 0 else -1))
    | "fflush" => do
      release
      pure (.ofNat 0)
    | f =>
      if f == "sub" || f == "gsub" then do
        let r ← patternOf p commands n (args.getD 0 (.text ""))
        let new ← text 1
        let target := args.getD 2 (.field (.number 0))
        let s ← textOf (← eval p commands n target)
        let (t, count) := replaced r new.toList (f == "gsub") (s.length + 2) false none s.toList
        if 0 < count then put p commands n target (.text (String.ofList t))
        pure (.ofNat count)
      else
        match mathOf? f with
        | some g => do pure (.number (g (← value 0).toNumber))
        | none => wrong "syntax error"

def run (p : Program) (commands : Commands) : Nat → Statement → Work Unit
  | 0, _ => throw .exit
  | n + 1, s => do
    match s with
    | .expr e => do
      let _ ← eval p commands n e
    | .print args outlet => do
      let vs ← evalAll p commands n args
      let form ← globalText "OFMT"
      let line ← if args.isEmpty then textOf (← field 0)
        else do pure ((← globalText "OFS").intercalate (vs.map (·.toText form)))
      let text := line ++ (← globalText "ORS")
      send text (← outletOf p commands n outlet)
    | .printf args outlet => do
      match ← evalAll p commands n args with
      | [] => wrong "no arguments in call to printf"
      | v :: vs =>
        let s ← textOf v
        match formattedAll (← form) (s.length + 1) s.toList vs with
        | .ok t => do send (String.ofList t) (← outletOf p commands n outlet)
        | .error e => wrong e
    | .choose test yes no => do
      if (← eval p commands n test).isTrue then run p commands n yes else run p commands n no
    | .loop test step body => do
      let goes ← match test with
        | some e => do pure (← eval p commands n e).isTrue
        | none => pure true
      if goes then
        if ← round p commands n body then
          run p commands n step
          run p commands n (.loop test step body)
    | .loopOnce body test => do
      if ← round p commands n body then
        if (← eval p commands n test).isTrue then run p commands n (.loopOnce body test)
    | .each x a body => do
      let i ← tableOf a
      let (keys, t) := (← table i).keys
      putTable i t
      each p commands n x body keys
    | .block ss => runAll p commands n ss
    | .next => throw .next
    | .nextFile => throw .nextFile
    | .exit e => do
      match e with
      | some e => do
        let x := (← eval p commands n e).toNumber
        modify fun m => { m with status := (wholePart x % 256).toNat }
      | none => pure ()
      throw .exit
    | .stop => throw .stop
    | .again => throw .again
    | .back e => do
      match e with
      | some e => throw (.back (← eval p commands n e))
      | none => throw (.back .unset)
    | .delete a keys => do
      let i ← tableOf a
      match keys with
      | none => putTable i .empty
      | some keys => do
        let key ← keyOf p commands n keys
        putTable i ((← table i).remove (← form) key)

def runAll (p : Program) (commands : Commands) : Nat → List Statement → Work Unit
  | 0, _ => throw .exit
  | _, [] => pure ()
  | n + 1, s :: ss => do
    run p commands n s
    runAll p commands n ss

/-- Runs the body of a loop; tells whether the loop goes on. -/
def round (p : Program) (commands : Commands) : Nat → Statement → Work Bool
  | 0, _ => throw .exit
  | n + 1, body => do
    try
      run p commands n body
      pure true
    catch s =>
      match s with
      | .stop => pure false
      | .again => pure true
      | s => throw s

def each (p : Program) (commands : Commands) : Nat → String → Statement → List String → Work Unit
  | 0, _, _, _ => throw .exit
  | _, _, _, [] => pure ()
  | n + 1, x, body, key :: keys => do
    setVariable x (.text key)
    if ← round p commands n body then each p commands n x body keys

def outletOf (p : Program) (commands : Commands) : Nat → Option (Outlet × Expr) →
    Work (Option (Outlet × String))
  | 0, _ => throw .exit
  | _, none => pure none
  | n + 1, some (kind, e) => do pure (some (kind, ← textOf (← eval p commands n e)))

end

def limit : Nat := 1000000

def applies (p : Program) (commands : Commands) (index : Nat) (t : Trigger) : Work Bool := do
  let test (e : Expr) : Work Bool := do pure (← eval p commands limit e).isTrue
  match t with
  | .always => pure true
  | .test e => test e
  | .range first last => do
    let isOpen := (← get).ranges.contains index
    if isOpen || (← test first) then
      let ends ← test last
      modify fun m =>
        let others := m.ranges.filter (· != index)
        { m with ranges := if ends then others else index :: others }
      pure true
    else pure false
  | _ => pure false

def follow (p : Program) (commands : Commands) : List (Rule × Nat) → Work Unit
  | [] => pure ()
  | (r, i) :: rs => do
    if ← applies p commands i r.trigger then run p commands limit r.body
    follow p commands rs

def records (p : Program) (commands : Commands) : Nat → Work Unit
  | 0 => pure ()
  | n + 1 => do
    match ← nextRecord 100000 with
    | none => pure ()
    | some r => do
      setRecord (Value.ofInput r)
      try
        follow p commands p.rules.zipIdx
      catch s =>
        match s with
        | .next => pure ()
        | .nextFile => modify fun m => { m with rest := none }
        | s => throw s
      records p commands n

def runRules (p : Program) (commands : Commands) (picks : Trigger → Bool) : Work Unit :=
  (p.rules.filter fun r => picks r.trigger).forM fun r => run p commands limit r.body

def Trigger.isStart : Trigger → Bool
  | start => true
  | _ => false

def Trigger.isFinish : Trigger → Bool
  | finish => true
  | _ => false

def runProgram (p : Program) (commands : Commands) : Work Unit := do
  let starts := p.rules.all (·.trigger.isStart)
  try
    runRules p commands Trigger.isStart
    if !starts then records p commands limit
  catch s =>
    match s with
    | .exit => pure ()
    | s => throw s
  runRules p commands Trigger.isFinish

def closeAll (commands : Commands) : Work Unit := do
  for (name, _) in (← get).channels do
    let _ ← closeChannel commands name
  release

structure Invocation where
  sets : List (String × String)
  separator : Option String
  files : List String
  args : List String

namespace Invocation

def read (c : Invocation) : Nat → List String → Except String Invocation
  | 0, ws => .ok { c with args := ws }
  | _, [] => .ok c
  | n + 1, w :: ws =>
    let valued (letter : Char) (value : List Char) : Except String Invocation := do
      let (value, ws) ← match value, ws with
        | [], v :: ws => pure (v, ws)
        | [], [] => throw s!"option requires an argument -- {letter}"
        | value, ws => pure (String.ofList value, ws)
      if letter == 'F' then read { c with separator := some value } n ws
      else if letter == 'f' then read { c with files := c.files ++ [value] } n ws
      else match assignment? value with
      | some set => read { c with sets := c.sets ++ [set] } n ws
      | none => throw s!"improper assignment: -v {value}"
    match w.toList with
    | ['-', '-'] => .ok { c with args := ws }
    | ['-'] => .ok { c with args := w :: ws }
    | '-' :: letter :: value =>
      if "Ffv".toList.contains letter then valued letter value else .error s!"not an option: {w}"
    | _ => .ok { c with args := w :: ws }

end Invocation

def startGlobals : List (String × Cell) :=
  [("FS", " "), ("OFS", " "), ("ORS", "\n"), ("RS", "\n"), ("SUBSEP", "\x1c"), ("CONVFMT", "%.6g"),
    ("OFMT", "%.6g"), ("FILENAME", "")].map (fun (k, v) => (k, Cell.value (.text v))) ++
  [("NR", 0), ("FNR", 0), ("NF", 0), ("RSTART", 0), ("RLENGTH", -1)].map fun (k, x) => (k, .value (.number x))

def Machine.start (s : Shell) (args : List String) (environment : List (String × String)) : Machine :=
  let arguments := ("awk" :: args).zipIdx.foldl (fun (t : Table) (w, i) =>
    let (key, _, t) := t.find "" (.number (Float.ofNat i)) true
    t.set key (Value.ofInput w)) Table.empty
  let known := environment.foldl (fun (t : Table) (k, v) =>
    let (key, _, t) := t.find "" (.text k) true
    t.set key (Value.ofInput v)) Table.empty
  { shell := s
    globals := ("ARGV", .array 0) :: ("ENVIRON", .array 1) ::
      ("ARGC", .value (.ofNat (args.length + 1))) :: startGlobals
    frames := []
    tables := #[arguments, known]
    record := .unset
    fields := #[]
    held := ""
    channels := []
    place := 1
    rest := none
    isOver := false
    ranges := []
    seed := 0
    status := 0
    known := [] }

def awk (commands : Commands) (name : String) (args : List String) (environment : List (String × String)) :
    Act Unit := do
  let fail (message : String) : Act Unit := do
    Act.printError s!"{name}: {message}\n"
    Act.setStatus 2
  match Invocation.read ⟨[], none, [], []⟩ (args.length + 1) args with
  | .error e => fail e
  | .ok c =>
    let disk := (← get).disk
    let texts := c.files.map fun f => (f, (disk.read (Octet.decode f)).toOption.map fun t =>
      String.ofList (Octet.ofBytes t.bytes))
    match texts.find? (·.2.isNone), c.files, c.args with
    | some (f, _), _, _ => fail s!"cannot open \"{f}\" (No such file or directory)"
    | none, [], [] => Act.setStatus 0
    | none, files, args =>
      let source := if files.isEmpty then args.headD "" else "\n".intercalate (texts.filterMap (·.2))
      let args := if files.isEmpty then args.drop 1 else args
      match Program.parse source with
      | .error e => fail s!"line 1: {e}"
      | .ok p =>
        let work : Work Unit := do
          for (name, value) in c.sets do
            setVariable name (Value.ofInput value)
          match c.separator with
          | some fs => setGlobal "FS" (.text (escaped fs))
          | none => pure ()
          try
            runProgram p commands
          catch s =>
            match s with
            | .exit => pure ()
            | s => do
              closeAll commands
              throw s
          closeAll commands
        let s ← get
        match work (Machine.start s args environment) with
        | .ok _ m => do
          set m.shell
          Act.setStatus m.status
        | .error why m => do
          set m.shell
          match why with
          | .fault message => fail s!"run time error: {message}"
          | .halt h => throw h
          | _ => Act.setStatus m.status

end FragmentMerge.Script.Awk
