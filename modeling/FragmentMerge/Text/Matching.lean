/-! Patterns, known by what they do to a text. The engine that reads them stays open: whatever is said of
a configuration or of a session holds for every engine. -/

namespace FragmentMerge

/-- A pattern that an engine has read: whether a text has a find, and the text with a template, filled
in for the first find, in its place. -/
structure Matching where
  occursIn : (text : List Char) → Bool
  replaceFirst : (template text : List Char) → List Char

/-- Reads patterns, or says what is wrong with them. -/
class PatternEngine where
  compile? : String → Except String Matching

end FragmentMerge
