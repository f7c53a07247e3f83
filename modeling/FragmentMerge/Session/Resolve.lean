import FragmentMerge.Session.Step

/-! Resolution: conflicts are put to a resolver until none remains, then the name rules run, and both
are repeated until nothing changes. -/

namespace FragmentMerge

/-- Answers choices, with a state of its own. No answer leaves the conflict as it is. -/
abbrev Resolver (σ : Type) := Choice → σ → Option (ItemKey × Action) × σ

/-- The first candidate with a rule is treated by its first rule. -/
def answerBy (rules : List (ItemKey × Action)) (c : Choice) : Option (ItemKey × Action) :=
  c.candidates.findSome? fun k => rules.find? (·.1 == k)

def ruleResolver (rules : List (ItemKey × Action)) : Resolver Unit := fun c _ => (answerBy rules c, ())

structure Resolution where
  resolved : Nat
  passes : Nat
  deriving DecidableEq, Repr

structure Outcome (σ α : Type) where
  result : Except ResolveError α
  session : Session
  state : σ

namespace Session

/-- Checks an answer to a choice, and queues it. -/
def accept (s : Session) (c : Choice) : Option (ItemKey × Action) → Except ResolveError Session
  | none => .error (.unresolved c.conflict)
  | some (target, action) =>
    if !c.candidates.contains target then .error (.invalidChoice target c.conflict)
    else match action.newName? with
      | some name =>
        if s.catalog.isTaken target name then .error (.nameTaken target name)
        else .ok (s.suggest target action)
      | none => .ok (s.suggest target action)

/-- Settles conflicts, with a limit on the rounds; none when the limit is met. A conflict that comes
twice in a row has not been touched by its answer. -/
def settleWithin (ask : Resolver σ) :
    Nat → Session → σ → Nat → Option Conflict → Option (Outcome σ Nat)
  | 0, _, _, _, _ => none
  | n + 1, s, st, resolved, previous =>
    match s.nextStep with
    | (.error e, s) => some ⟨.error e, s, st⟩
    | (.ok .done, s) => some ⟨.ok resolved, s, st⟩
    | (.ok (.choice c), s) =>
      if previous = some c.conflict then some ⟨.error (.stalled c.conflict), s, st⟩
      else
        let (answer, st) := ask c st
        match s.accept c answer with
        | .error e => some ⟨.error e, s, st⟩
        | .ok s => settleWithin ask n s st (resolved + 1) (some c.conflict)

/-- Applies what a rule found for a name: attributes go to the models that will bear the final name,
and all models of the name are renamed with what refers to them. -/
def applyMatch (s : Session) (name : String) (found : RuleMatch) : Session :=
  let final := found.newName.getD name
  let fresh := found.attributes.foldl
    (fun as line => if as.contains (final, line) then as else as ++ [(final, line)]) s.attributes
  let s := { s with attributes := fresh }
  if final = name then s
  else
    let targets := (s.catalog.models.filter (·.key.name == name)).map (·.key)
    { s with queue := s.queue ++ targets.map fun k => (k, .renameAll final .model) }

def applyRules (s : Session) (name : String) : Session :=
  match s.rules.outcome? name with
  | none => s
  | some found => s.applyMatch name found

def visibleNames (s : Session) : List String :=
  ((s.catalog.models.filter fun m => s.current.isVisible m.key).map (·.key.name)).eraseDups

/-- One pass of the name rules; tells whether there is anything new. -/
def introspect (s : Session) : Bool × Session :=
  if s.rules.isEmpty then (false, s)
  else
    let s' := s.visibleNames.foldl applyRules s
    if s'.queue.length = s.queue.length && s'.attributes.length = s.attributes.length then (false, s')
    else (true, s'.replay)

/-- Settles and passes by turns; `left` is the number of passes that may still change something. -/
def convergeWithin (ask : Resolver σ) (rounds : Nat) :
    Nat → Session → σ → Resolution → Option (Outcome σ Resolution)
  | left, s, st, r =>
    match settleWithin ask rounds s st 0 none with
    | none => none
    | some ⟨.error e, s, st⟩ => some ⟨.error e, s, st⟩
    | some ⟨.ok n, s, st⟩ =>
      let r := { r with resolved := r.resolved + n }
      match s.introspect with
      | (false, s) => some ⟨.ok r, s, st⟩
      | (true, s) =>
        match left with
        | 0 => some ⟨.error (.diverged s.maxPasses), s, st⟩
        | left + 1 => convergeWithin ask rounds left s st { r with passes := r.passes + 1 }

/-- Resolves all conflicts, with a limit on the rounds between two passes of the name rules. -/
def resolveWithin (ask : Resolver σ) (rounds : Nat) (s : Session) (st : σ) :
    Option (Outcome σ Resolution) :=
  convergeWithin ask rounds s.maxPasses s st ⟨0, 0⟩

/-- More rounds than a resolution that comes to an end can take: each of them adds to the queue, and no
queue in memory holds as many entries. -/
def roundLimit : Nat := 0x7fffffffffffffff

/-- Resolves all conflicts; none when the resolver goes round in circles for ever. -/
def resolve? (ask : Resolver σ) (s : Session) (st : σ) : Option (Outcome σ Resolution) :=
  resolveWithin ask roundLimit s st

/-- Resolves all conflicts. To go round in circles for ever counts as diverging here. -/
def resolve (ask : Resolver σ) (s : Session) (st : σ) : Outcome σ Resolution :=
  (resolve? ask s st).getD ⟨.error (.diverged s.maxPasses), s, st⟩

end Session

end FragmentMerge
