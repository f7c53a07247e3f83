import FragmentMerge.Session.Basic

/-! One step of the resolution: the first conflict that remains once the configured relations have
been mapped. -/

namespace FragmentMerge

inductive Step where
  | done
  | choice (c : Choice)
  deriving DecidableEq, Repr

inductive Turn where
  | ended (r : Except ResolveError Step)
  | again

namespace Session

def inPhase (s : Session) (phase : Phase) : Session := { s with phase }

def mappedSides (s : Session) (c : Conflict) : List ItemKey :=
  c.sides.filter fun side => !(s.mappingsTo side).isEmpty

/-- The remaps to queue for a conflict: the configured ones that are not active yet. -/
def pendingRemaps (s : Session) (c : Conflict) : Remaps :=
  (c.sides.flatMap s.mappingsTo).filter (!s.isActive ·)

def queueRemaps (s : Session) (es : Remaps) : Session :=
  es.foldl (fun s e => s.suggest e.2 (.remap e.1 e.2 .model)) s

/-- When one side alone is mapped, the other one is to give way. -/
def candidatesOf (c : Conflict) (mapped : List ItemKey) : List ItemKey :=
  match mapped with
  | [side] => c.sides.filter (· != side)
  | _ => c.sides

def crossingError? (s : Session) (c : Conflict) : Option ResolveError :=
  if s.crossFile then none
  else c.sides.findSome? fun side =>
    (s.crossing? side).map fun col => .crossFileRelation col side

def turn (s : Session) : Turn × Session :=
  let s := (s.inPhase .awaiting).replay
  match s.conflicts with
  | [] => (.ended (.ok .done), s.inPhase .done)
  | c :: _ =>
    match s.crossingError? c with
    | some e => (.ended (.error e), s)
    | none =>
      let references := s.referring c.left
      let mapped := s.mappedSides c
      let s := s.queueRemaps (s.pendingRemaps c)
      let s := if mapped.isEmpty then s else (s.inPhase .autoMapped).replay
      if !mapped.isEmpty && !s.conflicts.contains c then (.again, s)
      else (.ended (.ok (.choice ⟨c, candidatesOf c mapped, mapped, references⟩)),
        s.inPhase .userChoice)

/-- Takes turns up to a limit; none when the limit is met. -/
def stepWithin : Nat → Session → Option (Except ResolveError Step × Session)
  | 0, _ => none
  | n + 1, s =>
    match s.turn with
    | (.ended r, s) => some (r, s)
    | (.again, s) => stepWithin n s

/-- Each turn but the last makes a configured relation active, so the relations bound the turns. -/
def nextStep (s : Session) : Except ResolveError Step × Session :=
  (stepWithin (s.mapper.length + 1) s).getD (.ok .done, s)

end Session

end FragmentMerge
