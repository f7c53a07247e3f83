import FragmentMerge.Pattern.Property.Composite

/-! The classes of code points that say where a text may be broken: between what is seen as one
character, between words and between sentences. Classes that follow from other properties are made
of them, and the others stand in tables. -/

namespace FragmentMerge.Pattern

def graphemeTable : List (String × List String) := [
  ("cr", ["d"]),
  ("lf", ["a"]),
  ("zwj", ["200d"]),
  ("regionalindicator", ["1f1e6+1a"]),
  ("prepend", ["600+6 d7 31 180+2 50 46b 1036e f f4+2 20d 56d 1 f8 49+6 2bc 1bb"]),
  ("l", ["1100+60 9800+1d"]),
  ("v", ["1160+48 c608+17 959c 3+4"]),
  ("t", ["11a8+58 c5cb+31"])]

def wordTable : List (String × List String) := [
  ("cr", ["d"]),
  ("lf", ["a"]),
  ("zwj", ["200d"]),
  ("regionalindicator", ["1f1e6+1a"]),
  ("newline", ["b+2 78 1fa2+2"]),
  ("wsegspace", ["20 165f 97f+7 1+3 54 fa0"]),
  ("katakana", ["3031+5 65+2 3+5b 1+4 f0+10 d0+2f 1+58 cc0e+38 b052+4 1+7 1+2 1 11f+3 32 e+4"]),
  ("hebrewletter", ["5d0+1b 4+4 f52a 1+a 1+d 1+5 1 1+2 1+2 1+a"]),
  ("aletter", [
    "41+1a 6+1a 2f a 4 5+17 1+1f 1+1e0 6+22 70+5 1+2 2+4 1 6 1+3 1 1+14 1+53 1+8b 8+a6 1+26 2+4 1",
    "1+29 1 68 2c+2b 23+2 1+63 1 f+2 7+2 a+3 2 f+2 1+1e 1d+59 b 18+21 9+2 4 5+16 4 9 3 17+19 7+b",
    "5+18 1+6 11+2a 3a+36 3 12 7+a f+10 4+8 2+2 2+16 1+7 1 3+4 3 10 d+2 1+3 e+2 a 8+6 4+2 2+16",
    "1+7 1+2 1+2 1+2 1f+4 1 13+3 10+9 1+3 1+16 1+7 1+2 1+5 3 12 f+2 17 b+8 2+2 2+16 1+7 1+2 1+5 3",
    "1e+2 1+3 f 11 1+6 3+3 1+4 3+2 1 1+2 3+2 3+3 3+c 16 34+8 1+3 1+17 1+10 3 1a+3 2 2+2 1e 4+8",
    "1+3 1+17 1+a 1+5 3 1f+2 1+2 f+2 11+9 1+3 1+29 2 10 5+3 8+3 18+6 5+12 3+18 1+9 1 2+7 139 3f+8",
    "1+24 1b+5 113+26 1 5 2+2b 1+14d 1+4 2+7 1 1+4 2+29 1+4 2+21 1+4 2+7 1 1+4 2+f 1+39 1+4 2+43",
    "25+10 10+56 2+6 3+26c 2+11 1+1a 5+4b 3+b 7+12 d+13 e+12 e+d 1+3 af+59 7+5 2+22 1 5+46 a+1f",
    "e1+17 ee+2f 11+8 36+1e d+2 a+2c 1a+24 29+3 a+24 2+b 5+2b 2+3 29+4 1+6 1+2 3 5+c0 40+116 2+6",
    "2+26 2+6 2+8 1 1 1 1+1f 2+35 1+7 1 3+3 1+7 3+4 2+6 4+d 5+3 1+7 74 d 10+d 65 4 2+a 1 3+5 6 1",
    "1 1+4 1+b 2+4 5+5 4 11+29 32d+34 716+e5 6+4 3+2 c+26 1 5 2+38 7 10+17 9+7 1+7 1+7 1+7 1+7",
    "1+7 1+7 1+7 50 1d5 35+2 c8+2b 1+5e 11+20 6e40+48d 43+2e 2+10d 3+10 a+2 14+2f 10+1f 2+50",
    "18+c6 2+2 1 1+8 15+10 1+3 1+4 1+17 1d+34 e+32 3e+6 3 1+2 b+1c a+17 19+1d 7+2f 1c 30+29 17+3",
    "1+8 94+b 7+3 c+6 2+6 2+6 9+7 1+7 1+3a 6+73 1d+2ba4 c+17 4+31 2304+7 c+5 38+62 21+16b 12+40",
    "2+36 28+c 74+5 1+87 24+1a 6+1a 45+1f 3+6 2+6 2+6 2+3 23+c 1+1a 1+13 1+2 1+f 2+e 22+7b 45+35",
    "10b+1d 3+31 2f+20 d+1e 5+26 a+1e 2+24 4+8 1+5 2a+9e 12+24 4+24 4+28 8+34 c+b 1+f 1+7 1+2 1+b",
    "1+f 1+7 1+2 3+34 c+137 9+16 a+8 18+6 1+2a 1+9 45+6 2 1+2c 1+2 3 2+17 a+17 9+1f 41+13 1+2",
    "a+16 a+1a 46+38 6+2 40 f+4 1+3 1+1d 2a+1d 3+1d 23+8 1+1c 1b+36 a+16 a+13 d+12 6e+49 37+33",
    "d+33 d+24 26+1c 9+17 fa+2a 6+2 10+3 3b+1d a 8+16 2a+12 2e+15 1b+17 c+35 39+2 2 d+2d 20+19",
    "1a+24 1d 2 8+23 3 c+30 e+4 15 1 23+12 1+19 13+2 3f+7 1 1+4 1+f 1+a 7+2f 26+8 2+2 2+16 1+7",
    "1+2 1+5 3 12 c+5 1e+a 1 2 1+26 1 19 1 2c+35 12+4 14+3 1e+30 14+2 1 b8+2f 29+4 24+30 14 3b+2b",
    "d 147+2c 74+40 1f+8 2 2+8 1+2 1+18 f 1 5e+8 2+27 10 1 1c a+28 7 15 b+2e 13 12+49 c7+21 1f+9",
    "1+25 11 31+1e 70+7 1+2 1+26 15 19+6 1+2 1+20 e 147+13 f 1+d 1+22 7c 4f+39a 66+6f 11+c4",
    "a4c+61 f+430 11+6 19+f9b 5+247 1ab9+1e 6e2+239 7+1f 11+4f 11+1e 12+30 10+4 1f+15 5+13 1b0+2d",
    "d3+40 80+4b 5 42+d 40+2 1 4c1c+6b 5+d 3+9 7+a 1766+55 1+47 1+2 2 2+2 2+4 1+c 1 1+7 1+41 1+4",
    "2+8 1+7 1+1c 1+4 1+5 1 3+7 1+154 2+19 1+19 1+1f 1+19 1+1f 1+19 1+1f 1+19 1+1f 1+19 1+8",
    "734+1f 6+6 105+3e 92+2d a+7 10 141+1e 12+2c 1e4+1c e4+1e 2 1ef+7 1+4 1+2 1+f 1+c5 3b+44 7",
    "4b4+4 1+1b 1+2 1 2 1+a 1+4 1 1 6 4 1 1 1+3 1+2 1 2 1 1 1 1 1+2 1 2+4 1+7 1+4 1+4 1 1+a 1+11",
    "5+3 1+5 1+11 274+1a 6+1a 6+1a"]),
  ("singlequote", ["27"]),
  ("doublequote", ["22"]),
  ("midnumlet", ["2e 1fe9+2 a de2d b4 6"]),
  ("midletter", ["3a 7c 2cf 1d7 94 1a32 ddeb 41 c4"]),
  ("midnum", ["2c e 342 20a 82+2 5e 18b 184b ddcb 3 3b 3 b7 e"]),
  ("extendnumlet", ["5f 1fcf f+2 13 ddde+2 18+3 ef"])]

def sentenceTable : List (String × List String) := [
  ("cr", ["d"]),
  ("lf", ["a"]),
  ("sep", ["85 1fa2+2"]),
  ("sp", ["9 1+2 13 7f 15df 97f+b 24 2f fa0"]),
  ("aterm", ["2e 1ff5 de2d bb"]),
  ("scontinue", ["2c+2 c 522 ae+2 1ea 1009 5 80a+2 fec ce0e+2 1 1d+2 1d+2 3 2 a a8+2 c 49"]),
  ("close", [
    "22 4+3 31 1 1d 1 2d f e7e+4 75d+2 97b+8 19+2 a+2 36+2 e+2 279+4 1d+2 430+6 7+e 4f+2 1f+a",
    "193+16 3f+4 20+2 402+e e+2 2+a 18 12+8 1ab+a 2+8 1+3 cd1e+2 d7+2 1c+10 2+2 10+6 a9+2 31 1 1d",
    "1 1+2 1+2 f712+3"])]

def clusterExtend : Ranges := Ranges.union graphemeExtend (binary "emojimodifier")

/-- Spacing marks that begin a cluster of their own. -/
def lonelyMarks : Ranges :=
  [(0x102B, 0x102C), (0x1038, 0x1038), (0x1062, 0x1064), (0x1067, 0x106D), (0x1083, 0x1083),
   (0x1087, 0x108C), (0x108F, 0x108F), (0x109A, 0x109C), (0x1A61, 0x1A61), (0x1A63, 0x1A64),
   (0xAA7B, 0xAA7B), (0xAA7D, 0xAA7D), (0x11720, 0x11721)]

def clusterSpacing : Ranges :=
  Ranges.diff (Ranges.diff
    (Ranges.normal ([(0xE33, 0xE33), (0xEB3, 0xEB3)] ++ category "Mc")) lonelyMarks) graphemeExtend

def clusterControl : Ranges :=
  let silent := Ranges.inter unassigned defaultIgnorable
  Ranges.diff (Ranges.diff (Ranges.diff
    (Ranges.normal (silent ++ ["Zl", "Zp", "Cc", "Cf"].flatMap category))
    [(0xA, 0xA), (0xD, 0xD), (0x200C, 0x200D)])
    (binary "prependedconcatenationmark")) graphemeExtend

/-- Syllables of an initial and a vowel, which stand at equal distances among those with a final. -/
def openSyllables : Ranges := (List.range 399).map fun i => (0xAC00 + 28 * i, 0xAC00 + 28 * i)

def clusterClass? (name : String) : Option Ranges :=
  match name with
  | "extend" => some clusterExtend
  | "spacingmark" => some clusterSpacing
  | "control" => some clusterControl
  | "lv" => some openSyllables
  | "lvt" => some (Ranges.diff [(0xAC00, 0xD7A3)] openSyllables)
  | _ => (graphemeTable.lookup name).map Ranges.ofRuns

def clusterNames : List (String × String) := [
  ("cn", "control"), ("ex", "extend"), ("pp", "prepend"), ("ri", "regionalindicator"),
  ("sm", "spacingmark")]

def joiner : Ranges := [(0x200D, 0x200D)]

def wordExtend : Ranges :=
  Ranges.diff (Ranges.normal (graphemeExtend ++ category "Mc" ++ binary "emojimodifier")) joiner

/-- Signs before a number, and the decimal separator of Arabic numbers. -/
def numberSigns : Ranges :=
  [(0x600, 0x605), (0x66B, 0x66B), (0x6DD, 0x6DD), (0x890, 0x891), (0x8E2, 0x8E2),
   (0x110BD, 0x110BD), (0x110CD, 0x110CD)]

def wordNumeric : Ranges := Ranges.union numberSigns decimalDigits

def formatSigns : Ranges :=
  Ranges.diff (Ranges.diff (Ranges.diff (category "Cf") (binary "prependedconcatenationmark"))
    [(0x200C, 0x200D)]) graphemeExtend

def wordClass? (name : String) : Option Ranges :=
  match name with
  | "extend" => some wordExtend
  | "format" => some (Ranges.diff formatSigns [(0x200B, 0x200B)])
  | "numeric" => some wordNumeric
  | _ => (wordTable.lookup name).map Ranges.ofRuns

def wordNames : List (String × String) := [
  ("dq", "doublequote"), ("ex", "extendnumlet"), ("fo", "format"), ("hl", "hebrewletter"),
  ("ka", "katakana"), ("le", "aletter"), ("mb", "midnumlet"), ("ml", "midletter"),
  ("mn", "midnum"), ("nl", "newline"), ("nu", "numeric"), ("ri", "regionalindicator"),
  ("sq", "singlequote")]

def sentenceExtend : Ranges :=
  Ranges.normal (graphemeExtend ++ category "Mc" ++ joiner)

/-- Small letters of a script without case, whose capitals serve for titles. -/
def caselessSmall : Ranges := [(0x10D0, 0x10FA), (0x10FD, 0x10FF)]

def titleCapitals : Ranges := [(0x1C90, 0x1CBA), (0x1CBD, 0x1CBF)]

def sentenceLower : Ranges :=
  Ranges.diff (Ranges.diff (Ranges.diff smallLetters graphemeExtend) (category "Mc")) caselessSmall

def sentenceUpper : Ranges := Ranges.diff (Ranges.union capitalLetters (category "Lt")) titleCapitals

def sentenceLetters : Ranges :=
  Ranges.diff (Ranges.diff (Ranges.diff
    (Ranges.union [(0x5F3, 0x5F3), (0x70F, 0x70F)] letters) sentenceLower) sentenceUpper)
    sentenceExtend

def fullStops : Ranges := Ranges.ofRuns ((sentenceTable.lookup "aterm").getD [])

def sentenceClass? (name : String) : Option Ranges :=
  match name with
  | "extend" => some sentenceExtend
  | "format" => some formatSigns
  | "lower" => some sentenceLower
  | "upper" => some sentenceUpper
  | "oletter" => some sentenceLetters
  | "numeric" => some (Ranges.union wordNumeric [(0x66C, 0x66C)])
  | "sterm" => some (Ranges.diff (binary "sentenceterminal") fullStops)
  | _ => (sentenceTable.lookup name).map Ranges.ofRuns

def sentenceNames : List (String × String) := [
  ("at", "aterm"), ("cl", "close"), ("ex", "extend"), ("fo", "format"), ("le", "oletter"),
  ("lo", "lower"), ("nu", "numeric"), ("sc", "scontinue"), ("se", "sep"), ("st", "sterm"),
  ("up", "upper")]

end FragmentMerge.Pattern
