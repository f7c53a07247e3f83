import FragmentMerge.Pattern.Property.Binary
import FragmentMerge.Pattern.Property.Category

/-! Properties that follow from others. -/

namespace FragmentMerge.Pattern

def whiteSpace : Ranges :=
  [(9, 13), (0x20, 0x20), (0x85, 0x85), (0xA0, 0xA0), (0x1680, 0x1680), (0x2000, 0x200A),
   (0x2028, 0x2029), (0x202F, 0x202F), (0x205F, 0x205F), (0x3000, 0x3000)]

def decimalDigits : Ranges := category "Nd"

def smallLetters : Ranges := Ranges.union (category "Ll") (binary "otherlowercase")

def capitalLetters : Ranges := Ranges.union (category "Lu") (binary "otheruppercase")

def letters : Ranges :=
  Ranges.normal (category "L" ++ category "Nl" ++ binary "otheralphabetic")

def wordCharacters : Ranges :=
  Ranges.normal (letters ++ category "M" ++ decimalDigits ++ category "Pc" ++ binary "joincontrol")

def casedLetters : Ranges := Ranges.normal (smallLetters ++ capitalLetters ++ category "Lt")

/-- Marks and signs that do not part a letter from its neighbours. -/
def caseIgnorable : Ranges :=
  Ranges.normal (["Mn", "Me", "Cf", "Lm", "Sk"].flatMap category ++
    [(0x27, 0x27), (0x2E, 0x2E), (0x3A, 0x3A), (0xB7, 0xB7), (0x387, 0x387), (0x55F, 0x55F),
     (0x5F4, 0x5F4), (0x2018, 0x2019), (0x2024, 0x2024), (0x2027, 0x2027), (0xFE13, 0xFE13),
     (0xFE52, 0xFE52), (0xFE55, 0xFE55), (0xFF07, 0xFF07), (0xFF0E, 0xFF0E), (0xFF1A, 0xFF1A)])

def mathSigns : Ranges := Ranges.union (category "Sm") (binary "othermath")

def graphemeExtend : Ranges :=
  Ranges.normal (category "Me" ++ category "Mn" ++ binary "othergraphemeextend")

def graphemeBase : Ranges :=
  Ranges.diff (Ranges.diff assigned
    (Ranges.normal (surrogates ++ ["Cc", "Cf", "Co", "Zl", "Zp"].flatMap category))) graphemeExtend

def patternCharacters : Ranges :=
  Ranges.union (binary "patternsyntax") (binary "patternwhitespace")

def nameStart : Ranges :=
  Ranges.diff (Ranges.normal (category "L" ++ category "Nl" ++ binary "otheridstart"))
    patternCharacters

def nameContinue : Ranges :=
  Ranges.diff (Ranges.normal (nameStart ++ ["Mn", "Mc", "Nd", "Pc"].flatMap category ++
    binary "otheridcontinue")) patternCharacters

/-- Characters of names that stop being such once they are replaced by what they stand for. -/
def unstableContinue : Ranges :=
  [(0x37A, 0x37A), (0x309B, 0x309C), (0xFC5E, 0xFC63), (0xFDFA, 0xFDFB), (0xFE70, 0xFE70),
   (0xFE72, 0xFE72), (0xFE74, 0xFE74), (0xFE76, 0xFE76), (0xFE78, 0xFE78), (0xFE7A, 0xFE7A),
   (0xFE7C, 0xFE7C), (0xFE7E, 0xFE7E)]

def unstableStart : Ranges :=
  Ranges.union unstableContinue [(0xE33, 0xE33), (0xEB3, 0xEB3), (0xFF9E, 0xFF9F)]

def defaultIgnorable : Ranges :=
  Ranges.diff (Ranges.diff
    (Ranges.normal (binary "otherdefaultignorablecodepoint" ++ category "Cf" ++
      binary "variationselector"))
    [(0xFFF9, 0xFFFB), (0x13430, 0x1343F)]) (binary "prependedconcatenationmark")

def caseMapped : Ranges :=
  Ranges.normal (["changeswhenlowercased", "changeswhentitlecased",
    "changeswhenuppercased"].flatMap binary)

def hasProperty? (name : String) : Option Ranges :=
  match name with
  | "alphabetic" => some letters
  | "cased" => some casedLetters
  | "caseignorable" => some caseIgnorable
  | "changeswhencasemapped" => some caseMapped
  | "defaultignorablecodepoint" => some defaultIgnorable
  | "graphemebase" => some graphemeBase
  | "graphemeextend" => some graphemeExtend
  | "idcontinue" => some nameContinue
  | "idstart" => some nameStart
  | "lowercase" => some smallLetters
  | "math" => some mathSigns
  | "uppercase" => some capitalLetters
  | "whitespace" => some whiteSpace
  | "xidcontinue" => some (Ranges.diff nameContinue unstableContinue)
  | "xidstart" => some (Ranges.diff nameStart unstableStart)
  | _ => (binaryTable.lookup name).map Ranges.ofRuns

end FragmentMerge.Pattern
