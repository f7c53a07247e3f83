import FragmentMerge.Pattern.Property.Age
import FragmentMerge.Pattern.Property.Break
import FragmentMerge.Pattern.Property.WritingExtension

/-! Sets of characters by the names of properties and of their values. Capitals, blanks, dashes,
underscores and an `is` in front make no difference to a name. -/

namespace FragmentMerge.Pattern

def isSeparator (c : Char) : Bool := c == ' ' || c == '_' || c == '-'

def plainName (s : List Char) : List Char :=
  (s.filter fun c => c.toNat < 0x80 && !isSeparator c).map Char.toLower

/-- The name without what makes no difference. The short name of comments, `isc`, stays whole, so that
it is not taken for the category of other characters. -/
def propertyKey : List Char → String
  | 'i' :: s => shortened s
  | 'I' :: s => shortened s
  | s => String.ofList (plainName s)
where
  shortened (s : List Char) : String :=
    if s.head? = some 's' || s.head? = some 'S' then
      let rest := plainName s.tail
      if rest = ['c'] then "isc" else String.ofList rest
    else String.ofList ('i' :: plainName s)

def spelledOut (names : List (String × String)) (key : String) : String :=
  (names.lookup key).getD key

def categoryNamed? (key : String) : Option Ranges :=
  match key with
  | "any" => some Ranges.full
  | "ascii" => some [(0, 0x7F)]
  | "assigned" => some (Ranges.complement unassigned)
  | _ => (categoryNames.lookup key).map category

/-- Keys that stand for a category though a property has the same short name. -/
def categoryKeys : List String := ["cf", "sc", "lc"]

/-- The characters that have a property, or that are of a category or of a writing system. -/
def property? (name : List Char) : Option Ranges :=
  let key := propertyKey name
  let had := if categoryKeys.contains key then none else hasProperty? (spelledOut binaryNames key)
  had <|> categoryNamed? key <|> (writingNames.lookup key).map writing

def propertyValue? (name value : List Char) : Option Ranges :=
  let key := propertyKey value
  match propertyKey name with
  | "gc" => categoryNamed? key
  | "generalcategory" => categoryNamed? key
  | "sc" => (writingNames.lookup key).map writing
  | "script" => (writingNames.lookup key).map writing
  | "scx" => (writingNames.lookup key).map writingExtension
  | "scriptextensions" => (writingNames.lookup key).map writingExtension
  | "age" => age? key
  | "gcb" => clusterClass? (spelledOut clusterNames key)
  | "graphemeclusterbreak" => clusterClass? (spelledOut clusterNames key)
  | "wb" => wordClass? (spelledOut wordNames key)
  | "wordbreak" => wordClass? (spelledOut wordNames key)
  | "sb" => sentenceClass? (spelledOut sentenceNames key)
  | "sentencebreak" => sentenceClass? (spelledOut sentenceNames key)
  | _ => none

end FragmentMerge.Pattern
