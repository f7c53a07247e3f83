import FragmentMerge.Catalog.Load

/-! Full-text search: each indexed model gets a column that holds the search vector of its fields, and
an index over it. -/

namespace FragmentMerge

def FullText.columnName : String := "textSearch"

def FullText.weighted (language : String) (f : IndexField) : String :=
  s!"setweight(to_tsvector('{language}', coalesce({f.name}, '')), '{f.weight}')"

def FullText.column (t : FullText) (fields : List IndexField) : Column :=
  let vector := " || ".intercalate (fields.map (weighted t.language))
  ⟨columnName, "Unsupported(\"tsvector\")?", ["@default(dbgenerated(\"" ++ vector ++ "\"))"]⟩

def FullText.indexLine : Column := Column.raw s!"@@index([{columnName}], type: Gin)"

def Model.addSearch (t : FullText) (fields : List IndexField) (m : Model) : Model :=
  if (m.column? FullText.columnName).isSome then m
  else { m with columns := m.columns ++ [t.column fields, FullText.indexLine] }

namespace Catalog

/-- Adds the search column for one configured index; an index on an excluded model does not
count. -/
def addIndex (t : FullText) (excluded : ItemKey → Bool) (c : Catalog)
    (index : String × List IndexField) : Except LoadError Catalog :=
  match ItemKey.parse index.1 with
  | .error e => .error (.config (.invalidKey e))
  | .ok k =>
    if excluded k then .ok c
    else match c.changeModel? k (Model.addSearch t index.2) with
    | none => .error (.unknownModel k.text)
    | some c => .ok c

/-- What was added stays in place when a later index is refused. -/
def addIndexes (t : FullText) (excluded : ItemKey → Bool) :
    Catalog → List (String × List IndexField) → Option LoadError × Catalog
  | c, [] => (none, c)
  | c, i :: is =>
    match c.addIndex t excluded i with
    | .error e => (some e, c)
    | .ok c => addIndexes t excluded c is

def addFullText (t : FullText) (excluded : ItemKey → Bool) (c : Catalog) :
    Option LoadError × Catalog :=
  c.addIndexes t excluded t.indexes.entries

/-- The catalog with all search columns, or the reason why one cannot be added. -/
def withFullText (t : FullText) (excluded : ItemKey → Bool) (c : Catalog) :
    Except LoadError Catalog :=
  match c.addFullText t excluded with
  | (some e, _) => .error e
  | (none, c) => .ok c

end Catalog

end FragmentMerge
