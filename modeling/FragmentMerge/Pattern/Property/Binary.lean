import FragmentMerge.Pattern.Ranges

/-! Properties that a code point has or has not, and that do not follow from others. -/

namespace FragmentMerge.Pattern

/-- The code points of every property, by its name in small letters and without separators. -/
def binaryTable : List (String × List String) := [
  ("asciihexdigit", ["30+a 7+6 1a+6"]),
  ("bidicontrol", ["61c 19f1+2 1a+5 37+4"]),
  ("bidimirrored", [
    "28+2 12 1 1c 1 1d 1 2d f e7e+4 75d+2 99c+2 a+2 36+2 e+2 b1 c0+4 3+6 3 3+2 3+4 1+4 1 1 4+9 5",
    "1+12 5+4 9+2 1 1+8 1+20 2+4 5 9+2 2+13 5+2 9+5 2+2 4+18 2+10 8+4 14+2 7+2 43d+e 4a 2+4 1+2",
    "1+3 5+4 5+3 3+e 193+16 2+6 1+e 8 7+6 3 4+5 1+2 2+5 4 1+3 2+2 a+6 2+2 c+13 1+4 2 1 2 1+4 5+2",
    "6+3 18+2 b+2 4+4 1+2 2+2 4+2b 2+8 1+28 5 1 3+5 5+3 4 3+5 1 100 203+4 3+2 1+2 e+2 2+a 2b+8",
    "1ab+a 2+8 ce3d+6 5+2 a2+2 12 1 1c 1 1d 1 1+2 1+2 d777 39 39 39 39"]),
  ("changeswhencasefolded", [
    "41+1a 5a a+17 1+8 20 1 1 1 1 1 1 1 1 1 1 1 1 1 1 1 1 1 1 1 1 1 1 1 1 1 1 1 2 1 1 1 1 1 1 1",
    "1+2 1 1 1 1 1 1 1 1 1 1 1 1 1 1 1 1 1 1 1 1 1 1 1+2 1 1 1 1+2 1 1+2 1+3 2+4 1+2 1+3 3+2 1+2",
    "1 1 1+2 1 2 1+2 1+3 1 1+2 3 7+2 1+2 1+2 1 1 1 1 1 1 1 1 2 1 1 1 1 1 1 1 1 2+2 1 1+3 1 1 1 1",
    "1 1 1 1 1 1 1 1 1 1 1 1 1 1 1 1 1 1 1 1 1 1 1 1 1 7+2 1+2 2 1+4 1 1 1 1 f6 2a 1 3 8 6 1+3 1",
    "1+2 1+11 1+9 16 c+3 3+2 1 1 1 1 1 1 1 1 1 1 1 1 1+2 2+2 1 1+2 2+33 30 1 1 1 1 1 1 1 1 1 1 1",
    "1 1 1 1 1 9 1 1 1 1 1 1 1 1 1 1 1 1 1 1 1 1 1 1 1 1 1 1 1 1 1 1 1+2 1 1 1 1 1 1 2 1 1 1 1 1",
    "1 1 1 1 1 1 1 1 1 1 1 1 1 1 1 1 1 1 1 1 1 1 1 1 1 1 1 1 1 1 1 1 1 1 1 1 1 1 1 1 1 1 2+26 30",
    "b18+26 1 5 32a+6 882+a 6+2b 2+3 140 1 1 1 1 1 1 1 1 1 1 1 1 1 1 1 1 1 1 1 1 1 1 1 1 1 1 1 1",
    "1 1 1 1 1 1 1 1 1 1 1 1 1 1 1 1 1 1 1 1 1 1 1 1 1 1 1 1 1 1 1 1 1 1 1 1 1 1 1 1 1 1 1 1 1 1",
    "5+2 2 1 1 1 1 1 1 1 1 1 1 1 1 1 1 1 1 1 1 1 1 1 1 1 1 1 1 1 1 1 1 1 1 1 1 1 1 1 1 1 1 1 1 1",
    "1 1 1 1 1 9+8 8+6 a+8 8+8 8+6 b 1 1 1 8+8 10+30 2+3 2+6 5+3 2+6 b+4 c+5 5+3 2+6 129 3+2 6",
    "2d+10 13 332+1a 730+30 30 1+3 2 1 1 1+4 1 2 8+3 1 1 1 1 1 1 1 1 1 1 1 1 1 1 1 1 1 1 1 1 1 1",
    "1 1 1 1 1 1 1 1 1 1 1 1 1 1 1 1 1 1 1 1 1 1 1 1 1 1 1 8 1 4 794d 1 1 1 1 1 1 1 1 1 1 1 1 1 1",
    "1 1 1 1 1 1 1 1 13 1 1 1 1 1 1 1 1 1 1 1 1 1 87 1 1 1 1 1 1 3 1 1 1 1 1 1 1 1 1 1 1 1 1 1 1",
    "1 1 1 1 1 1 1 1 1 1 1 1 1 1 1 a 1 1+2 1 1 1 1 4 1 2 1 3 1 1 1 1 1 1 1 1 1 1+5 1+5 1 1 1 1 1",
    "1 1 1+4 1 1+2 3 5 1 1 1 18 37a+50 4f40+7 c+5 409+1a 4c5+28 88+24 9c+b 1+f 1+7 1+2 6ea+33",
    "9d+16 b3a+20 5580+20 7aa0+22"]),
  ("changeswhenlowercased", [
    "41+1a 65+17 1+7 21 1 1 1 1 1 1 1 1 1 1 1 1 1 1 1 1 1 1 1 1 1 1 1 1 1 1 1 2 1 1 1 1 1 1 1 2 1",
    "1 1 1 1 1 1 1 1 1 1 1 1 1 1 1 1 1 1 1 1 1 1+2 1 1 3+2 1 1+2 1+3 2+4 1+2 1+3 3+2 1+2 1 1 1+2",
    "1 2 1+2 1+3 1 1+2 3 7+2 1+2 1+2 1 1 1 1 1 1 1 1 2 1 1 1 1 1 1 1 1 2+2 1 1+3 1 1 1 1 1 1 1 1",
    "1 1 1 1 1 1 1 1 1 1 1 1 1 1 1 1 1 1 1 1 1 7+2 1+2 2 1+4 1 1 1 1 121 1 3 8 6 1+3 1 1+2 1+11",
    "1+9 23 8 1 1 1 1 1 1 1 1 1 1 1 5 2 1+2 2+33 30 1 1 1 1 1 1 1 1 1 1 1 1 1 1 1 1 9 1 1 1 1 1 1",
    "1 1 1 1 1 1 1 1 1 1 1 1 1 1 1 1 1 1 1 1 1+2 1 1 1 1 1 1 2 1 1 1 1 1 1 1 1 1 1 1 1 1 1 1 1 1",
    "1 1 1 1 1 1 1 1 1 1 1 1 1 1 1 1 1 1 1 1 1 1 1 1 1 1 1 1 1 1 2+26 b49+26 1 5 2d2+56 893 6+2b",
    "2+3 140 1 1 1 1 1 1 1 1 1 1 1 1 1 1 1 1 1 1 1 1 1 1 1 1 1 1 1 1 1 1 1 1 1 1 1 1 1 1 1 1 1 1",
    "1 1 1 1 1 1 1 1 1 1 1 1 1 1 1 1 1 1 1 1 1 1 1 1 1 1 1 1 1 1 1 1 9 1 1 1 1 1 1 1 1 1 1 1 1 1",
    "1 1 1 1 1 1 1 1 1 1 1 1 1 1 1 1 1 1 1 1 1 1 1 1 1 1 1 1 1 1 1 1 1 1 1 9+8 8+6 a+8 8+8 8+6 b",
    "1 1 1 8+8 18+8 8+8 8+8 8+5 b+5 b+4 c+5 b+5 129 3+2 6 2d+10 13 332+1a 730+30 30 1+3 2 1 1 1+4",
    "1 2 8+3 1 1 1 1 1 1 1 1 1 1 1 1 1 1 1 1 1 1 1 1 1 1 1 1 1 1 1 1 1 1 1 1 1 1 1 1 1 1 1 1 1 1",
    "1 1 1 1 1 1 1 8 1 4 794d 1 1 1 1 1 1 1 1 1 1 1 1 1 1 1 1 1 1 1 1 1 1 13 1 1 1 1 1 1 1 1 1 1",
    "1 1 1 87 1 1 1 1 1 1 3 1 1 1 1 1 1 1 1 1 1 1 1 1 1 1 1 1 1 1 1 1 1 1 1 1 1 1 1 1 1 a 1 1+2 1",
    "1 1 1 4 1 2 1 3 1 1 1 1 1 1 1 1 1 1+5 1+5 1 1 1 1 1 1 1 1+4 1 1+2 3 5 1 1 1 18 572b+1a",
    "4c5+28 88+24 9c+b 1+f 1+7 1+2 6ea+33 9d+16 b3a+20 5580+20 7aa0+22"]),
  ("changeswhentitlecased", [
    "61+1a 3a 29+18 1+8 1 1 1 1 1 1 1 1 1 1 1 1 1 1 1 1 1 1 1 1 1 1 1 1 1 1 1 1 2 1 1 1 1 1 1 1+2",
    "1 1 1 1 1 1 1 1 1 1 1 1 1 1 1 1 1 1 1 1 1 1 1 2 1 1+3 2 1 2 3 5 2 3+3 2 2 1 1 2 4 2 3 1 2 3",
    "1 4 1+2 1+2 1 1 1 1 1 1 1 1 1+2 1 1 1 1 1 1 1 1 1+3 1 1 3 1 1 1 1 1 1 1 1 1 1 1 1 1 1 1 1 1",
    "1 1 3 1 1 1 1 1 1 1 1 8 2+2 1 4 1 1 1 1+6 1+2 1 1+2 3+2 1+4 1+5 2 1+2 2 7 2 1+2 3+6 5 a+2 a6",
    "2b 1 3 3+3 12 1b+23 1+2 3+3 1 1 1 1 1 1 1 1 1 1 1 1+5 1 2 2 34+30 1 1 1 1 1 1 1 1 1 1 1 1 1",
    "1 1 1 1 9 1 1 1 1 1 1 1 1 1 1 1 1 1 1 1 1 1 1 1 1 1 1 1 1 1 1 2 1 1 1 1 1 1+2 1 1 1 1 1 1 1",
    "1 1 1 1 1 1 1 1 1 1 1 1 1 1 1 1 1 1 1 1 1 1 1 1 1 1 1 1 1 1 1 1 1 1 1 1 1 1 1 1 1 31+27",
    "e70+6 882+9 1 ee 3 10 72 1 1 1 1 1 1 1 1 1 1 1 1 1 1 1 1 1 1 1 1 1 1 1 1 1 1 1 1 1 1 1 1 1 1",
    "1 1 1 1 1 1 1 1 1 1 1 1 1 1 1 1 1 1 1 1 1 1 1 1 1 1 1 1 1 1 1 1 1 1 1 1 1 1 1 1+7 5 1 1 1 1",
    "1 1 1 1 1 1 1 1 1 1 1 1 1 1 1 1 1 1 1 1 1 1 1 1 1 1 1 1 1 1 1 1 1 1 1 1 1 1 1 1 1 1 1+9 8+6",
    "a+8 8+8 8+6 a+8 8+8 8+e 2+8 8+8 8+8 8+5 1+2 6 3+3 1+2 8+4 2+2 8+8 a+3 1+2 156 21+10 4 34b+1a",
    "746+30 1 3+2 1 1 1 6 2 a 1 1 1 1 1 1 1 1 1 1 1 1 1 1 1 1 1 1 1 1 1 1 1 1 1 1 1 1 1 1 1 1 1 1",
    "1 1 1 1 1 1 1 1 1 1 1 1 1 1 1 8 1 4 c+26 1 5 7913 1 1 1 1 1 1 1 1 1 1 1 1 1 1 1 1 1 1 1 1 1",
    "1 13 1 1 1 1 1 1 1 1 1 1 1 1 1 87 1 1 1 1 1 1 3 1 1 1 1 1 1 1 1 1 1 1 1 1 1 1 1 1 1 1 1 1 1",
    "1 1 1 1 1 1 1 1 a 1 2 1 1 1 1 4 4 1+2 2 1 1 1 1 1 1 1 1 1 b 1 1 1 1 1 1 1 4 1 2 3 5 1 1 1a",
    "35c 1c+50 4f40+7 c+5 429+1a 4cd+28 88+24 9b+b 1+f 1+7 1+2 703+33 7d+16 b3a+20 5580+20",
    "7aa2+22"]),
  ("changeswhenuppercased", [
    "61+1a 3a 29+18 1+8 1 1 1 1 1 1 1 1 1 1 1 1 1 1 1 1 1 1 1 1 1 1 1 1 1 1 1 1 2 1 1 1 1 1 1 1+2",
    "1 1 1 1 1 1 1 1 1 1 1 1 1 1 1 1 1 1 1 1 1 1 1 2 1 1+3 2 1 2 3 5 2 3+3 2 2 1 1 2 4 2 3 1 2 3",
    "1 5+2 1+2 1+2 1 1 1 1 1 1 1 1+2 1 1 1 1 1 1 1 1 1+2 1+2 1 3 1 1 1 1 1 1 1 1 1 1 1 1 1 1 1 1",
    "1 1 1 3 1 1 1 1 1 1 1 1 8 2+2 1 4 1 1 1 1+6 1+2 1 1+2 3+2 1+4 1+5 2 1+2 2 7 2 1+2 3+6 5 a+2",
    "a6 2b 1 3 3+3 12 1b+23 1+2 3+3 1 1 1 1 1 1 1 1 1 1 1 1+5 1 2 2 34+30 1 1 1 1 1 1 1 1 1 1 1 1",
    "1 1 1 1 1 9 1 1 1 1 1 1 1 1 1 1 1 1 1 1 1 1 1 1 1 1 1 1 1 1 1 1 2 1 1 1 1 1 1+2 1 1 1 1 1 1",
    "1 1 1 1 1 1 1 1 1 1 1 1 1 1 1 1 1 1 1 1 1 1 1 1 1 1 1 1 1 1 1 1 1 1 1 1 1 1 1 1 1 1 31+27",
    "b48+2b 2+3 2f8+6 882+9 1 ee 3 10 72 1 1 1 1 1 1 1 1 1 1 1 1 1 1 1 1 1 1 1 1 1 1 1 1 1 1 1 1",
    "1 1 1 1 1 1 1 1 1 1 1 1 1 1 1 1 1 1 1 1 1 1 1 1 1 1 1 1 1 1 1 1 1 1 1 1 1 1 1 1 1 1 1 1 1",
    "1+7 5 1 1 1 1 1 1 1 1 1 1 1 1 1 1 1 1 1 1 1 1 1 1 1 1 1 1 1 1 1 1 1 1 1 1 1 1 1 1 1 1 1 1 1",
    "1 1 1 1+9 8+6 a+8 8+8 8+6 a+8 8+8 8+e 2+35 1+2 4 1 3+3 1+2 4 3+4 2+2 8+8 a+3 1+2 4 151 21+10",
    "4 34b+1a 746+30 1 3+2 1 1 1 6 2 a 1 1 1 1 1 1 1 1 1 1 1 1 1 1 1 1 1 1 1 1 1 1 1 1 1 1 1 1 1",
    "1 1 1 1 1 1 1 1 1 1 1 1 1 1 1 1 1 1 1 1 8 1 4 c+26 1 5 7913 1 1 1 1 1 1 1 1 1 1 1 1 1 1 1 1",
    "1 1 1 1 1 1 13 1 1 1 1 1 1 1 1 1 1 1 1 1 87 1 1 1 1 1 1 3 1 1 1 1 1 1 1 1 1 1 1 1 1 1 1 1 1",
    "1 1 1 1 1 1 1 1 1 1 1 1 1 a 1 2 1 1 1 1 4 4 1+2 2 1 1 1 1 1 1 1 1 1 b 1 1 1 1 1 1 1 4 1 2 3",
    "5 1 1 1a 35c 1c+50 4f40+7 c+5 429+1a 4cd+28 88+24 9b+b 1+f 1+7 1+2 703+33 7d+16 b3a+20",
    "5580+20 7aa2+22"]),
  ("dash", [
    "2d 55c 33 e41 405 809+6 3d 27 f 186 c04 2 1f+2 4 1c 1be 13 6f cd90+2 25 a a9 e60 13e"]),
  ("deprecated", ["149 529 903 1 829+2 8c5+6 2b9+2 ddcd6"]),
  ("diacritic", [
    "5e 1 47 6 4 2+2 1f7+9f 1+8 5+6 11+2 4 9+2 fd+5 d1 37+2d 1 1+2 1+2 1 83+8 4+2 86+2 4+2 3+3",
    "43+1b 5b+b 3a+b 22+2 7e+8 29+a 10+1c 3d 10 3+4 1c 4a 10 6e 10 6e 10 2f+3 3c 10 7 77 6e 10 6e",
    "10 6d+2 10 7c 6f c+6 1 6b d+5 4b+2 1b 1 1 4+2 42+3 1+2 3e 70 1+2 28+2 4+5 19+7 1 a+2 2c1+3",
    "3b4+2 1e 94+b 9 15b+3 124 14+8 2 30+f 2+b 68 f 26+9 36+2 3a b+2 42+2 40+6 52+19 4 6 2+3",
    "32+3f 30+24 5+c 25+b 1bd 1+3 b+3 d+3 d+3 d+2 cf0+3 13d 1fa+6 69+4 5f 7572 c+2 1 1c+2 52+2",
    "e+22 66+3 6d+2 c 25 97 1b+12 39+4 24 5f c 24 95+3 41+4 33 64+5 9+3 80+2 4f30 301+10 10e 1 2f",
    "2d+2 43 2fc 49f+6 1+2a 1+9 27d+3 4 a5+2 23b+6 26 1a+5 18f+3 46+b 31+4 c0 29 48+2 78+2 3e 4c",
    "9+3 68+2 b2+2 50+2 10 18+7 3+5 59+3 1+2 d+2 5f 3 7b+2 fb+2 7e 76+2 73 10d+2 102+2 4 9c 53 12",
    "51 1a5 102 1+2 51 1a9+2 17 14ec+f 2cd9 9c0+5 3b+7 234+2 222+11 50+2 3ffe+4 1+7 1+2 1f01+2e",
    "2+17 220+3 3+6 8+8 2+7 1e+4 e82+3e c2+7 177 3d+4 2fe+2 2e0+7 6d+3 1+3"]),
  ("emoji", [
    "23 6 5+a 6f 4 1f8d c d8 16 5a+6 f+2 16f+2 c a6 19+b 4+3 c7 e7+2 a 9 3a+4 1+5 9 2 2+2 2 4 2",
    "1+2 2 3 3+2 8+3 5 1 5+c b+2 2 1+2 1 12 2+2 12+6 1 1+2 3+2 5 2+2 4+2 b+2 5+2 2 5+2 1 1+2 14+2",
    "5+6 1+4 2 4 2 2+6 1 2 1 1 6 3 6 a+2 f 2 4 1 4+3 1 b+2 30+3 9 e e 174+2 1cf+3 13+2 33 4 4da c",
    "259 1 1bd6a ca a0+2 c+2 e 2+a 4b+1a 1+2 17 14 2+9 15+2 ae+22 2+70 2+2 1+3 2+53 2+3 1+107",
    "1+3f b+6 1+18 7+2 2+8 c 2+4 2 4+2 d+2 2 8+2 9 5+3 c+3 8+3 2 1 4 6 3 6+56 30+46 5+8 2+3 4+a 3",
    "1+2 3 2+a e3+c 4 11b+2f 1+a 1+b9 70+d 3+a 5+38 7+f 2+b 6+9"]),
  ("emojicomponent", ["23 6 5+a 1fd3 d5 dd2b f3d6+1a 1fb+5 5b0+4 c066c+60"]),
  ("emojimodifier", ["1f3fb+5"]),
  ("emojimodifierbase", [
    "261d db 10+4 1cc77 3c+3 2 2+3 75+2 2+b 15+13 3 4+3 1+3 7 1 18 c9+2 4 15 4+2 ae+3 3+5 53 10+3",
    "9 b 23f 2 8+8 6 9+a 2+3 38 3d+2 1+2 1 11+3 1+d e5+3 2a+9"]),
  ("emojipresentation", [
    "231a+2 cd+4 3 2 209+2 15+2 32+c 2b 13 d 8+2 11+2 5+2 8 5 15 7+2 1 4 2 7 4+2 1c 23 1 4+3 1",
    "3d+3 18 e 35b+2 33 4 1c4ae ca be 2+a 4b+1a 1 18 14 2+5 1+3 15+2 ae+21 c+9 1+46 1+16 c+2b 4+5",
    "c+11 3 3+47 1 1+bb 2+3f d+4 1+18 12 1a+2 d 56+55 30+46 6 3+3 2+3 4+4 b+2 7+9 e3+c 4 11b+2f",
    "1+a 1+b9 70+d 3+a 5+38 7+f 2+b 6+9"]),
  ("extendedpictographic", [
    "a9 4 1f8d c d8 16 5a+6 f+2 16f+2 c 5f 46 19+b 4+3 c7 e7+2 a 9 3a+4 1+6 1+c 1+72 a+76 2+b 1 1",
    "6 3 6 a+2 f 2 4 1 4+3 1 b+5 2d+3 9 e e 174+2 1cf+3 13+2 33 4 4da c 259 1 1bd66+100 d+3 1f",
    "3c+6 c+2 e 2+a 12+39 1b+f a 14 2+9 1+4 9+1b2 5+13e 8+10a 30+80 74+c 55+2b c+4 38+8 a+6 28+8",
    "1e+4 a+4 2+3e c+2f 1+a 1+1b9 100+3fe"]),
  ("extender", [
    "b7 218+2 36e 1b9 276 89 59 2f0 7f 943 38 263 18e 44 1389 2b+5 67+2 5d+3 6f16 5f6 3c2 16 89",
    "6c 15+2 547b 810+2 5cb 1b 4 4c7 125 74+2 1f2+3 4cf 50a9+2 49c+2 1 7158+2 4b1 354+3"]),
  ("graphemelink", [
    "94d 7f 7f 7f 7f 7f 7f 7f 6d+2 10 7c 6f 7f c9 b4+2 6d9+2 1e 9d 28d e3 65+2 46+2 118b 7a86 25",
    "97 8e 6c 135 f6 5e51 606 29 e 39 79+2 8b 74 b4 62 80+3 71 7f fc 7f 76 74 10d 103+2 a1 53 12",
    "51 1a5 104+2 51 1a9+2 41ec"]),
  ("hexdigit", ["30+a 7+6 1a+6 fea9+a 7+6 1a+6"]),
  ("hyphen", ["2d 7f 4dc 127b 809+2 e05 2e3 cd67 a9 57"]),
  ("idsbinaryoperator", ["2ff0+2 2+a 1f1"]),
  ("idstrinaryoperator", ["2ff2+2"]),
  ("idsunaryoperator", ["2ffe+2"]),
  ("idcompatmathcontinue", ["b2+2 5 1fb6 3+b 1+f 173 4 16 1b4a2 19 1f 19 1f 19 1f 19 1f 19"]),
  ("idcompatmathstart", ["2202 4 16 1b4a2 19 1f 19 1f 19 1f 19 1f 19"]),
  ("ideographic", [
    "3006+2 19+9 e+3 3c5+19c0 40+5200 5900+16e 2+6a 750a 1b+17f8 8+4d6 29+a 2467+18c 4d04+a6e0",
    "20+103a 6+de 2+1682 e+1d31 f+26e 9a2+21e 5e2+134b 5+1060"]),
  ("joincontrol", ["200c+2"]),
  ("logicalorderexception", ["e40+5 7b+5 af0+3 2 90fa+2 2 1+2"]),
  ("modifiercombiningmark", ["654+2 2 83 6 3+2 1e1+2 1+3 3 1f"]),
  ("noncharactercodepoint", [
    "fdd0+20 20e+2 fffe+2 fffe+2 fffe+2 fffe+2 fffe+2 fffe+2 fffe+2 fffe+2 fffe+2 fffe+2 fffe+2",
    "fffe+2 fffe+2 fffe+2 fffe+2 fffe+2"]),
  ("otheralphabetic", [
    "345 1d+d 240+e 1 1+2 1+2 1 48+b 30+d 1+7 10 65+7 4+4 2+2 4 23 1e+10 66+b 65+2 3+9 1+3 1+4 6a",
    "3c+c 3+7 6+14 36+2 2+f 1+2 5+3 a+2 1d+3 3a+7 2+2 2+2 a a+2 1d+3 3a+5 4+2 2+2 4 1e+2 3 b+3",
    "3a+8 1+3 1+2 15+2 16+3 4+3 3a+7 2+2 2+2 9+2 a+2 1e 3b+5 3+3 1+3 a 28+5 39+7 1+3 1+3 8+2 b+2",
    "1d+3 3a+7 1+3 1+3 8+2 b+2 f c+4 3a+7 1+3 1+3 a a+2 1d+3 4b+6 1 1+8 12+2 3d 2+7 12 63 2+6 1+2",
    "10 a3+13 9+b 1+24 6e+c 1 2+4 17+4 4+3 1+3 2+7 3+4 d+c 1 a+4 674+2 1e+2 1e+2 1e+2 42+13 bc+2",
    "22 76+c 4+9 de+5 39+a 2+14 4a+2 b+3 31+5 30+f 3c+3 1e+9 2+2 39+b 32+13 19c+22 6c1+34 8f6+20",
    "7874+8 22+2 162 8 17+5 58+2 32+10 1 39 26+5 1c+c 2d+4 30+c 25 43+e c 8+2 2d+3 32 1+3 2+2 5",
    "2c+5 5 ed+8 4f33 857+5 686+3 1+2 5+4 314+4 41 141+2 4f 103+3 35+e 2d+2 b+3 2d+9 9 3d+3 24+c",
    "12+2 39+3 30+d e+2 5c+9 2 6 2 9d+a 17+4 3a+7 2+2 2+2 a a+2 54+9 1 2 1+4 1+2 67+d 1+3 6a+12",
    "ed+7 2+7 1d+2 52+f 1 6a+b 67+e 101+d f7+6 1+2 2+2 3 1 8e+7 2+6 4 1c+a 2a+5 1+4 12+b 2e+e",
    "197+8 1+7 53+16 1+e 7a+6 3 1+2 1+3 1 3 42+5 1+2 1+4 15c+4 9+2 1 30+7 3+3 41dd+11 e20 1+37",
    "7+4 5d+2 4cac 2361+7 1+11 2+7 1+2 1+5 64 8b7 7e8+1a 6+1a 6+1a"]),
  ("otherdefaultignorablecodepoint", [
    "34f e0f+2 653+2 8af 10fe ce3b 4f+9 d0007 1+1e 60+80 f0+e10"]),
  ("othergraphemeextend", [
    "9be 18 166 18 66 18 e8 1 4+2 1+2 9+2 67 18 77 f 935 1e 400 5 1 5+2 65 47+2 418 1021+2 7923",
    "6c 55dd+2 1220 74 108 e 9 60 9 2 1+3 5 e0 c f1 106 279 c 603 50ae+2 6173+2 6+6 c2ead+60"]),
  ("otheridcontinue", ["b7 2cf fe1+9 668 631+2 10ed ce69"]),
  ("otheridstart", ["1885+2 891 15 f6c+2"]),
  ("otherlowercase", [
    "aa f 1f5+9 7+2 1e+5 60 34 d81 c2f+3f d 22+25 2b1 d 10+d d3+10 350+1a 792+2 7a1e+2 d2 81+3",
    "3+2 362+4 9 5c16 2+3 1+2a 1+9 d875+3e"]),
  ("othermath", [
    "5e 371+3 2 1a+2 2+2 1c20 1b+3 b 20+4 18+2 e+2 41+d 4 3+2 4+5 12 4 2+a 1 3+5 6 3+2 2+2 1+3",
    "1+6 3+4 5+5 4b+5 2+4 1+2 1+2 1 1+5 2+2 4+2 4+12 2+2 1 1+7 1 6+2 122+4 a8+2 1 18 11 1bd+2 c+9",
    "5+5 5+2 2+2 3+5 e 1 2+6 18+2 39 1 1d+4 9+2 156+2 1f+a 193+16 3f+4 20+2 d463 1 4 d3 1 d4c1+55",
    "1+47 1+2 2 2+2 2+4 1+c 1 1+7 1+41 1+4 2+8 1+7 1+1c 1+4 1+5 1 3+7 1+154 2+19 1+19 1+1f 1+19",
    "1+1f 1+19 1+1f 1+19 1+1f 1+19 1+8 2+32 1600+4 1+1b 1+2 1 2 1+a 1+4 1 1 6 4 1 1 1+3 1+2 1 2 1",
    "1 1 1 1+2 1 2+4 1+7 1+4 1+4 1 1+a 1+11 5+3 1+5 1+11"]),
  ("otheruppercase", ["2160+10 346+1a 1cc60+1a 6+1a 6+1a"]),
  ("patternsyntax", [
    "21+f a+7 1a+4 1 1a+4 22+7 1 1+2 1 1+2 4 4 3 17 1f 1f18+18 8+f 2+13 1+a 131+2d0 a0+276 1e+46c",
    "200+80 181+3 4+19 f cd0d+2 105+2"]),
  ("patternwhitespace", ["9+5 12 64 1f88+2 18+2"]),
  ("prependedconcatenationmark", ["600+6 d7 31 180+2 50 107da f"]),
  ("quotationmark", ["22 4 83 f 1f5c+8 19+2 e07 1c9+4 d+3 ce21+4 bd 4 5a+2"]),
  ("radical", ["2e80+1a 1+59 c+d6"]),
  ("regionalindicator", ["1f1e6+1a"]),
  ("sentenceterminal", [
    "21 c 10 549 93+3 b4 2b+3 f6 3d 1 3+2 125+2 6e4+2 316 4+2 305 c6+2 9d+2 2d 5 13a+2 162+4 a2+2",
    "a+2 2+2 1d+3 bb+2 41+2 3a4 17+2 9+3 caf+3 132 d 16+2 1ad 74fc 10e+2 e3 3 17e+2 56+2 5f 98+2",
    "93+3 90+2 f9 5226 2+2 3b 3+2 a9 c 10 41 af4+2 4fd+5 2c+4 bd+2 75+4 7f+3 81+2 6 10+2 58+2 1+2",
    "6c 12a+2 75+2 175+2 5+f 69+2 f9+3 205 1 fb+2 57+2 1a4+2 2b4+2 4a+2 4b29+2 85 41+2 b 229+2",
    "128 4e06 1de8"]),
  ("softdotted", [
    "69+2 c4 119 1e 34 14 140 62 1 1909 33 d 3 84 9d 1a5 d6+2 b32 1a7a5+2 32+2 32+2 32+2 32+2",
    "32+2 32+2 32+2 32+2 32+2 32+2 32+2 32+2 886 131+2 1a"]),
  ("terminalpunctuation", [
    "21 a 1 b+2 3 33e 8 201 39 48 e 1+3 b4 2b+b 1 eb+2 36+6 1+8 1f 105+2 4f4+2 ac 4+6 137+2 315+8",
    "305 7c+3 47+2 9d+3 3 27+4 2+2 13a+2 162+4 a2+2 a+2 1+3 1d+3 bb+5 3e+2 3a4 17+2 9+3 caf+3 132",
    "d 4 a 1+2 3+2 1ac+2 74fb+2 10d+3 e3+5 17e+2 56+2 5f 97+3 93+3 7f 10+2 f9 5226 2+2 39+3 1+4",
    "a9 a 1 b+2 3 41 2 43a 30 486 c7 136+2 98+6 44+6 59+4 3b8+5 2c+4 bd+7 70+4 7f+3 81+2 6 10+2",
    "58+5 6c 12a+2 75+3 c+2 166+4 3+f 69+2 f9+3 205 1 fb+2 57+2 4+2 19e+3 2d 285+2 4a+2 52b+5",
    "45f9+2 85 41+3 a 229+2 127+2 4e06 1de7+4"]),
  ("unifiedideograph", [
    "3400+19c0 40+5200 5a0e+2 1 1+2 a 1 1+2 2+3 105d6+a6e0 20+103a 6+de 2+1682 e+1d31 f+26e",
    "11a2+134b 5+1060"]),
  ("variationselector", ["180b+3 1 e5f0+10 d02f0+f0"])]

def binaryNames : List (String × String) := [
  ("ahex", "asciihexdigit"), ("alpha", "alphabetic"), ("bidic", "bidicontrol"),
  ("bidim", "bidimirrored"), ("ci", "caseignorable"), ("cwcf", "changeswhencasefolded"),
  ("cwcm", "changeswhencasemapped"), ("cwl", "changeswhenlowercased"),
  ("cwt", "changeswhentitlecased"), ("cwu", "changeswhenuppercased"),
  ("di", "defaultignorablecodepoint"), ("dep", "deprecated"), ("dia", "diacritic"),
  ("ecomp", "emojicomponent"), ("emod", "emojimodifier"), ("ebase", "emojimodifierbase"),
  ("epres", "emojipresentation"), ("extpict", "extendedpictographic"), ("ext", "extender"),
  ("grbase", "graphemebase"), ("grext", "graphemeextend"), ("grlink", "graphemelink"),
  ("hex", "hexdigit"), ("idsb", "idsbinaryoperator"), ("idst", "idstrinaryoperator"),
  ("idsu", "idsunaryoperator"), ("idc", "idcontinue"), ("ids", "idstart"), ("ideo", "ideographic"),
  ("joinc", "joincontrol"), ("loe", "logicalorderexception"), ("lower", "lowercase"),
  ("mcm", "modifiercombiningmark"), ("nchar", "noncharactercodepoint"),
  ("oalpha", "otheralphabetic"), ("odi", "otherdefaultignorablecodepoint"),
  ("ogrext", "othergraphemeextend"), ("oidc", "otheridcontinue"), ("oids", "otheridstart"),
  ("olower", "otherlowercase"), ("omath", "othermath"), ("oupper", "otheruppercase"),
  ("patsyn", "patternsyntax"), ("patws", "patternwhitespace"),
  ("pcm", "prependedconcatenationmark"), ("qmark", "quotationmark"), ("ri", "regionalindicator"),
  ("sterm", "sentenceterminal"), ("sd", "softdotted"), ("term", "terminalpunctuation"),
  ("uideo", "unifiedideograph"), ("upper", "uppercase"), ("vs", "variationselector"),
  ("wspace", "whitespace"), ("space", "whitespace"), ("xidc", "xidcontinue"), ("xids", "xidstart")]

def binary (name : String) : Ranges := Ranges.ofRuns ((binaryTable.lookup name).getD [])

end FragmentMerge.Pattern
