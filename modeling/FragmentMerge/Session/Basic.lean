import FragmentMerge.Session.Replay
import FragmentMerge.Session.Rules

/-! Sessions: a loaded catalog with a queue of actions. The catalog itself never changes; what it
looks like under the queue is a replay, made anew whenever the queue has grown. -/

namespace FragmentMerge

inductive Phase where
  | awaiting
  | autoMapped
  | userChoice
  | done
  deriving DecidableEq, Repr

/-- A conflict put to the resolver: the sides that it may act on, the sides whose relations have been
mapped, and the columns that refer to the name. -/
structure Choice where
  conflict : Conflict
  candidates : List ItemKey
  autoMapped : List ItemKey
  references : List ColumnKey
  deriving DecidableEq, Repr

inductive ResolveError where
  | crossFileRelation (column : ColumnKey) (target : ItemKey)
  | unresolved (conflict : Conflict)
  | invalidChoice (target : ItemKey) (conflict : Conflict)
  | nameTaken (target : ItemKey) (name : String)
  | stalled (conflict : Conflict)
  | diverged (passes : Nat)
  | config (error : ConfigError)
  deriving DecidableEq, Repr

namespace ResolveError

def message : ResolveError → String
  | crossFileRelation column target =>
    s!"relation {column.text} points at {target.text} across fragments, " ++
      "but cross-file relations are disabled"
  | unresolved conflict => s!"no resolution for conflict: {conflict.text}"
  | invalidChoice target conflict => s!"{target.text} is not a candidate for conflict: {conflict.text}"
  | nameTaken target name =>
    s!"cannot rename {target.text} to '{name}': the fragment already declares it"
  | stalled conflict => s!"resolution did not change conflict: {conflict.text}"
  | diverged passes => s!"introspection rules still rewriting after {passes} passes"
  | config error => error.message

def causes : ResolveError → List String
  | config error => error.causes
  | e => [e.message]

end ResolveError

structure Session where
  pristine : Catalog
  /-- The configured targets of relation columns. -/
  mapper : Remaps
  links : Links
  crossFile : Bool
  rules : Rules
  maxPasses : Nat
  queue : List (ItemKey × Action)
  /-- Attributes to add, each to the models of a name. -/
  attributes : List (String × String)
  current : Replay
  phase : Phase

namespace Session

def new (c : Catalog) : Session :=
  ⟨c, [], [], false, [], NameRules.initial.maxPasses, [], [], Replay.start c [], .awaiting⟩

def withCrossFile (s : Session) (enabled : Bool) : Session := { s with crossFile := enabled }

def withMapping (s : Session) (source : ColumnKey) (target : ItemKey) : Session :=
  { s with mapper := upsert source target s.mapper }

def withExtended (s : Session) (child parent : ItemKey) : Session :=
  let links := upsert child parent s.links
  { s with links, current := { s.current with extended := links } }

def withRules (s : Session) (rules : Rules) (maxPasses : Nat) : Session :=
  { s with rules, maxPasses }

def suggest (s : Session) (target : ItemKey) (action : Action) : Session :=
  { s with queue := s.queue ++ [(target, action)] }

def replay (s : Session) : Session :=
  { s with current := Replay.run s.pristine s.links s.queue s.attributes }

def ofConfig [PatternEngine] (catalog : Catalog) (c : Config) : Except ConfigError Session := do
  let rules ← Rules.ofConfig c.introspection
  let relations ← c.relationTable
  let parents ← c.extendedTable
  let s := ((new catalog).withCrossFile c.crossFile).withRules rules c.introspection.maxPasses
  let s := relations.foldl (fun s (source, target) => s.withMapping source target) s
  let s := parents.foldl (fun s (child, parent) => s.withExtended child parent) s
  pure s.replay

def catalog (s : Session) : Catalog := s.current.catalog

def hidden (s : Session) : List ItemKey := s.current.hidden

def conflicts (s : Session) : List Conflict := s.current.conflicts

def referring (s : Session) (target : ItemKey) : List ColumnKey := s.current.referring target.name

/-- The configured mappings that send relations with the name of an item to this item. -/
def mappingsTo (s : Session) (target : ItemKey) : Remaps :=
  (s.referring target).filterMap fun col =>
    s.mapper.find? fun e => e.1 == col && e.2 == target

def isActive (s : Session) (e : ColumnKey × ItemKey) : Bool := s.current.remaps.contains e

/-- The first relation column in another fragment than the given item. -/
def crossing? (s : Session) (target : ItemKey) : Option ColumnKey :=
  (s.referring target).find? fun col => col.item.file != target.file

end Session

end FragmentMerge
