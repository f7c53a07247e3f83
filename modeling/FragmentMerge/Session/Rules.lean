import FragmentMerge.Config.Basic

/-! Name rules made ready for use. The first rule that matches a name says what happens to all models
of this name. -/

namespace FragmentMerge

inductive Matcher where
  | exact (name : String)
  | pattern (p : Matching)

structure Rule where
  matcher : Matcher
  rename : Option String
  attributes : List String

structure RuleMatch where
  newName : Option String
  attributes : List String
  deriving DecidableEq, Repr

abbrev Rules := List Rule

namespace Rule

/-- A name counts before a pattern, when a rule has both. -/
def matcherOf [PatternEngine] (i : Nat) (r : NameRule) : Except ConfigError Matcher :=
  match r.name, r.pattern with
  | some name, _ => .ok (.exact name)
  | none, some p => (compilePattern p).map .pattern
  | none, none => .error (NameRule.unnamed i)

def of [PatternEngine] (i : Nat) (r : NameRule) : Except ConfigError Rule :=
  (matcherOf i r).map fun m => ⟨m, r.rename, r.attributes.map Text.trimmed⟩

def outcome? (r : Rule) (name : String) : Option RuleMatch :=
  let found (newName : Option String) : RuleMatch := ⟨newName.filter (!·.isEmpty), r.attributes⟩
  match r.matcher with
  | .exact exact => if exact = name then some (found r.rename) else none
  | .pattern p =>
    if p.occursIn name.toList then
      some (found (r.rename.map fun t => String.ofList (p.replaceFirst t.toList name.toList)))
    else none

end Rule

namespace Rules

def ofRules [PatternEngine] (i : Nat) : List NameRule → Except ConfigError Rules
  | [] => .ok []
  | r :: rs => do
    let rule ← Rule.of i r
    let rules ← ofRules (i + 1) rs
    pure (rule :: rules)

def ofConfig [PatternEngine] (c : NameRules) : Except ConfigError Rules := ofRules 0 c.rules

def outcome? (rules : Rules) (name : String) : Option RuleMatch := rules.findSome? (Rule.outcome? · name)

end Rules

end FragmentMerge
