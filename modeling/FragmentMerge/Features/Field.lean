import FragmentMerge.Patch.Edit

/-! Fields of the generated types. A field is looked for in the type of its model, on a line of its
own and before the first closing brace. -/

namespace FragmentMerge.Field

def typeHead (model : List Char) : List Char :=
  "export type ".toList ++ model ++ " = \x7b".toList

/-- What follows a field's name, mark and colon, if it is acceptable. -/
def afterName? (ok : List Char → Bool) (field s : List Char) : Option (List Char) :=
  match Text.after? field s with
  | none => none
  | some ('?' :: r) => (Text.after? [':', ' '] r).filter ok
  | some r => (Text.after? [':', ' '] r).filter ok

def afterBlanks? (ok : List Char → Bool) (field : List Char) : List Char → Option (List Char)
  | [] => afterName? ok field []
  | c :: s =>
    if c = ' ' || c = '\t' then (afterBlanks? ok field s).or (afterName? ok field (c :: s))
    else afterName? ok field (c :: s)

/-- What follows the first line with the field, if no brace closes the type before it. -/
def afterField? (ok : List Char → Bool) (field : List Char) : List Char → Option (List Char)
  | [] => none
  | c :: s =>
    match if c = '\n' then afterBlanks? ok field s else none with
    | some r => some r
    | none => if c = '\x7d' then none else afterField? ok field s

/-- The first type with the field: the text before it, and what follows the field. -/
def seek? (ok : List Char → Bool) (head field : List Char) :
    List Char → Option (Nat × List Char)
  | [] => (Text.after? head []).bind fun r => (afterField? ok field r).map (0, ·)
  | c :: s =>
    match (Text.after? head (c :: s)).bind (afterField? ok field) with
    | some r => some (0, r)
    | none => (seek? ok head field s).map fun (n, r) => (n + 1, r)

/-- Finds a field from the opening of its type up to where its own type starts. -/
def finder (model field : String) : Finder := fun _ s =>
  (seek? (fun _ => true) (typeHead model.toList) field.toList s).map fun (n, r) =>
    let text := (s.take (s.length - r.length)).drop n
    ⟨n, text.length, [some text, some text]⟩

def hasType (s : List Char) : Bool :=
  match s with
  | [] => false
  | c :: _ => c != '\n'

/-- Finds a field with its type, which goes up to the end of the line; group 1 is all before it. -/
def typeFinder (model field : String) : Finder := fun _ s =>
  (seek? hasType (typeHead model.toList) field.toList s).map fun (n, r) =>
    let lead := (s.take (s.length - r.length)).drop n
    let type := r.takeWhile (· != '\n')
    ⟨n, lead.length + type.length, [some (lead ++ type), some lead, some type]⟩

def typeEdit (model field type : String) : Edit :=
  (Edit.of s!"field type {model}.{field}" <| .replaceEach (typeFinder model field) fun groups =>
    Finder.groupText groups 1 ++ type.toList).skipping

def deprecationEdit (model field message : String) : Edit :=
  (Edit.of s!"deprecate {model}.{field}" <| .insertLines (.pattern (finder model field)) (-1)
    s!"  /** @deprecated {message} ({model}.{field}) */").skipping

end FragmentMerge.Field
