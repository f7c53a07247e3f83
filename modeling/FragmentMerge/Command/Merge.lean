import FragmentMerge.Command.Work
import FragmentMerge.Document

/-! The merge: load the fragments, settle their conflicts, and write the document. What goes wrong with
the project itself becomes a diagnostic of severity error, and then nothing is written. -/

namespace FragmentMerge.Merge

def note (code : DiagnosticCode) (severity : Severity) (message : String) (subjects : List String) :
    Diagnostic :=
  ⟨code, severity, message, none, subjects⟩

def loadDiagnostic? (e : LoadError) : Option Diagnostic :=
  let failed (code : DiagnosticCode) (file : Option String) : Diagnostic :=
    ⟨code, .error, e.message, file.map fun f => ⟨f, none⟩, []⟩
  match e with
  | .missingBase => some (failed .configMissingBase none)
  | .config (.missingField field) =>
    some (failed (if field = "base" then .configMissingBase else .configMissingField) none)
  | .missingGenerator file => some (failed .configMissingGenerator (some file))
  | .missingDatasource file => some (failed .configMissingDatasource (some file))
  | _ => none

def conflictDiagnostic (c : Catalog) (x : Conflict) : Diagnostic :=
  ⟨.mergeNameConflict, .info, x.text, some ⟨x.right.file, (c.model? x.right).map (·.line)⟩,
    [x.left.text, x.right.text]⟩

/-- A warning for each parent that has not been loaded. -/
def parentWarnings (s : Session) : List Diagnostic :=
  (s.current.extended.filter fun e => !s.catalog.contains e.2).map fun (child, parent) =>
    note .warning .warn s!"{child.text} extends {parent.text}, which was not loaded"
      [child.text, parent.text]

def conflictSubjects (s : Session) : List String :=
  s.conflicts.flatMap fun x => [x.left.text, x.right.text]

def resolveDiagnostic? (s : Session) (e : ResolveError) : Option Diagnostic :=
  let unsettled (hint : String) :=
    note .mergeUnresolvedConflict .error (e.message ++ hint) (conflictSubjects s)
  match e with
  | .unresolved _ => some (unsettled "; add a [[resolve]] entry")
  | .invalidChoice _ _ => some (unsettled "")
  | .nameTaken _ _ => some (unsettled "")
  | .stalled _ => some (unsettled "")
  | .crossFileRelation column target =>
    some ⟨.mergeCrossFileRelation, .error,
      s!"{column.text} refers to {target.text} across fragments; " ++
        "set cross_file_relations = true or add a [relations] entry",
      some ⟨column.item.file, none⟩, [column.text, target.text]⟩
  | .diverged _ => some (note .mergeIntrospectionDiverged .error e.message [])
  | .config _ => none

def applied (message subject : String) : Diagnostic :=
  note .mergeActionApplied .info message [subject]

def mutationDiagnostic? : Mutation → Option Diagnostic
  | .removed key kind => some (applied s!"skipped {kind.text} {key.text}" key.text)
  | .renamed old new retyped =>
    some (applied s!"renamed {old.text} to {new.name} ({retyped} columns retyped)" old.text)
  | .remapped source target none =>
    some (applied s!"remapped {source.text} to {target.text}" source.text)
  | .remapped source target (some shadow) =>
    some (applied s!"remapped {source.text} to {target.text} (shadows {shadow.text})" source.text)
  | .attributeAdded key line => some (applied s!"added {line} to {key.text}" key.text)
  | .nameTaken key name =>
    some ⟨.warning, .warn, s!"rename of {key.text} to {name} refused: the name is taken",
      some ⟨key.file, none⟩, [key.text]⟩
  | .absent _ _ => none

def extraBlocks (c : Config) : List String :=
  (c.generators.filter (·.enabled)).map ExtraGenerator.block

def writeDocument (path : String) (doc : Document) (d : Disk) : Except Errno Unit × Disk :=
  let ready := match Path.parent? path with
    | some up => d.makeDirectories up
    | none => .ok d
  match ready with
  | .error e => (.error e, d)
  | .ok d =>
    match d.write path (.text doc.text) with
    | .error e => (.error e, d)
    | .ok d => (.ok (), d)

def publish (c : Config) (s : Session) : Task Unit := do
  Task.diagnose (s.current.log.filterMap mutationDiagnostic?)
  let doc := Document.ofReplay s.current (extraBlocks c)
  let path := c.path c.output.schema
  Task.onDisk (.writeDocument path) (writeDocument path doc)
  Task.count fun n => { n with modelsEmitted := doc.models, enumsEmitted := doc.enums }
  Task.print (.progress s!"Merged schema written to: {path}")

/-- Settles the conflicts of a loaded catalog and publishes the result. Rules that rename in a circle keep
it busy for ever; then it has no result, and `endless` stands for that. -/
def settle [PatternEngine] (c : Config) (catalog : Catalog) : Task Bool := do
  let s ← Task.ofExcept .config (Session.ofConfig catalog c)
  let answers ← Task.ofExcept .config c.answers
  Task.diagnose (s.conflicts.map (conflictDiagnostic s.catalog))
  Task.diagnose (parentWarnings s)
  Task.print (.progress s!"Resolving conflicts with {answers.length} configured resolutions")
  match s.resolve? (ruleResolver answers) () with
  | none => throw .endless
  | some ⟨.ok r, s, _⟩ =>
    Task.count fun n => { n with conflictsResolved := r.resolved }
    publish c s
    pure true
  | some ⟨.error e, s, _⟩ =>
    match resolveDiagnostic? s e with
    | some d =>
      Task.diagnose [d]
      pure false
    | none => throw (.resolve e)

/-- Merges the fragments; false when nothing was written. -/
def run [PatternEngine] (c : Config) : Task Bool := do
  Task.print (.progress "Loading fragments...")
  let d ← Task.disk
  match c.load d [] with
  | .ok catalog => settle c catalog
  | .error e =>
    match loadDiagnostic? e with
    | some d =>
      Task.diagnose [d]
      pure false
    | none => throw (.load e)

end FragmentMerge.Merge
