import FragmentMerge.Pattern.Ranges

/-! The writing system of every code point. Code points of no known system are left out. -/

namespace FragmentMerge.Pattern

def writingTable : List (String × List String) := [
  ("Adlm", ["1e900+4c 4+a 4+2"]),
  ("Aghb", ["10530+34 b"]),
  ("Ahom", ["11700+1b 2+f 4+17"]),
  ("Arab", [
    "600+5 1+6 1+e 1+3 1+20 1+a b+1a 1+6c 1+22 50+30 f0+1f 1+2 5+4b 1+1d f250+73 10+16b 2+50 2+36",
    "7 20+10 70+5 1+87 f63+1f 43+3 37+4 df00+4 1+1b 1+2 1 2 1+a 1+4 1 1 6 4 1 1 1+3 1+2 1 2 1 1 1",
    "1 1+2 1 2+4 1+7 1+4 1+4 1 1+a 1+11 5+3 1+5 1+11 34+2"]),
  ("Armi", ["10840+16 1+9"]),
  ("Armn", ["531+26 2+32 2+3 f583+5"]),
  ("Avst", ["10b00+36 3+7"]),
  ("Bali", ["1b00+4d 1+32"]),
  ("Bamu", ["a6a0+58 c108+239"]),
  ("Bass", ["16ad0+1e 2+6"]),
  ("Batk", ["1bc0+34 8+4"]),
  ("Beng", ["980+4 1+8 2+2 2+16 1+7 1 3+4 2+9 2+2 2+4 8 4+2 1+5 2+19"]),
  ("Bhks", ["11c00+9 1+2d 1+e a+1d"]),
  ("Bopo", ["2ea+2 2e19+2b 70+20"]),
  ("Brah", ["11000+4e 4+24 9"]),
  ("Brai", ["2800+100"]),
  ("Bugi", ["1a00+1c 2+2"]),
  ("Buhd", ["1740+14"]),
  ("Cakm", ["11100+35 1+12"]),
  ("Cans", ["1400+280 230+46 101ba+10"]),
  ("Cari", ["102a0+31"]),
  ("Cham", ["aa00+37 9+e 2+a 2+4"]),
  ("Cher", ["13a0+56 2+6 9772+50"]),
  ("Chrs", ["10fb0+1c"]),
  ("Copt", ["3e2+e 2890+74 5+7"]),
  ("Cpmn", ["12f90+63"]),
  ("Cprt", ["10800+6 2 1+2c 1+2 3 2"]),
  ("Cyrl", ["400+85 2+a9 1750+b a0 4c 1067+20 7840+60 578e+2 e200+3e 21"]),
  ("Deva", ["900+51 4+f 2+1a 9f60+20 7200+a"]),
  ("Diak", ["11900+7 2 2+8 1+2 1+1e 1+2 2+c 9+a"]),
  ("Dogr", ["11800+3c"]),
  ("Dsrt", ["10400+50"]),
  ("Dupl", ["1bc00+6b 5+d 3+9 7+a 2+4"]),
  ("Egyp", ["13000+456 a+f9b"]),
  ("Elba", ["10500+28"]),
  ("Elym", ["10fe0+17"]),
  ("Ethi", [
    "1200+49 1+4 2+7 1 1+4 2+29 1+4 2+21 1+4 2+7 1 1+4 2+f 1+39 1+4 2+43 2+20 3+1a 19e6+17 9+7",
    "1+7 1+7 1+7 1+7 1+7 1+7 1+7 7d22+6 2+6 2+6 9+7 1+7 13cb1+7 1+4 1+2 1+f"]),
  ("Gara", ["10d40+26 3+1d 8+2"]),
  ("Geor", ["10a0+26 1 5 2+2b 1+4 b90+2b 2+3 1040+26 1 5"]),
  ("Glag", ["2c00+60 1b3a0+7 1+11 2+7 1+2 1+5"]),
  ("Gong", ["11d60+6 1+2 1+25 1+2 1+6 7+a"]),
  ("Gonm", ["11d00+7 1+2 1+2c 3 1+2 1+9 8+a"]),
  ("Goth", ["10330+1b"]),
  ("Gran", ["11300+4 1+8 2+2 2+16 1+7 1+2 1+5 2+9 2+2 2+3 2 6 5+7 2+7 3+5"]),
  ("Grek", [
    "370+4 1+3 2+4 1 4 1 1+3 1 1+14 1+3f e+10 1926+5 32+5 4+5 54 140+16 2+6 2+26 2+6 2+8 1 1 1",
    "1+1f 2+35 1+f 1+e 2+6 1+13 2+3 1+9 127 8a3e 55da+4f 11 d05f+46"]),
  ("Gujr", ["a81+3 1+9 1+3 1+16 1+7 1+2 1+5 2+a 1+3 1+3 2 f+4 2+c 7+7"]),
  ("Gukh", ["16100+3a"]),
  ("Guru", ["a01+3 1+6 4+2 2+16 1+7 1+2 1+2 1+2 2 1+5 4+2 2+3 3 7+4 1 7+11"]),
  ("Hang", [
    "1100+100 1e2e+2 101+5e 71+1f 41+1f 76e1+1d 283+2ba4 c+17 4+31 27a4+1f 3+6 2+6 2+6 2+3"]),
  ("Hani", [
    "2e80+1a 1+59 c+d6 2f 1 19+9 e+4 3c4+19c0 40+5200 5900+16e 2+6a 7508+2 c+2 900e+a6e0 20+103a",
    "6+de 2+1682 e+1d31 f+26e 9a2+21e 5e2+134b 5+1060"]),
  ("Hano", ["1720+15"]),
  ("Hatr", ["108e0+13 1+2 5+5"]),
  ("Hebr", ["591+37 8+1b 4+6 f528+1a 1+5 1 1+2 1+2 1+a"]),
  ("Hira", ["3041+56 6+3 17f61+11f 12 1d+3 40ad"]),
  ("Hluw", ["14400+247"]),
  ("Hmng", ["16b00+46 a+a 1+7 1+15 5+13"]),
  ("Hmnp", ["1e100+2d 3+e 2+a 4+2"]),
  ("Hung", ["10c80+33 d+33 7+6"]),
  ("Ital", ["10300+24 9+3"]),
  ("Java", ["a980+4e 2+a 4+2"]),
  ("Kali", ["a900+2e 1"]),
  ("Kana", ["30a1+5a 2+3 f0+10 d0+2f 1+58 cc0e+a 1+2d b052+4 1+7 1+2 1 11f+3 32 e+4"]),
  ("Kawi", ["11f00+11 1+29 3+1d"]),
  ("Khar", ["10a00+4 1+2 5+8 1+3 1+1d 2+3 4+a 7+9"]),
  ("Khmr", ["1780+5e 2+a 6+a 1e6+20"]),
  ("Khoj", ["11200+12 1+2f"]),
  ("Kits", ["16fe4 1b1b+1d6 29"]),
  ("Knda", ["c80+d 1+3 1+17 1+a 1+5 2+9 1+3 1+4 7+2 6+2 1+4 2+a 1+3"]),
  ("Krai", ["16d40+3a"]),
  ("Kthi", ["11080+43 a"]),
  ("Lana", ["1a20+3f 1+1d 2+b 6+a 6+e"]),
  ("Laoo", ["e81+2 1 1+5 1+18 1 1+17 2+5 1 1+7 1+a 2+4"]),
  ("Latn", [
    "41+1a 6+1a 2f f 5+17 1+1f 1+1c1 27+5 1a1b+26 6+31 5+4 5+d 1+46 41+100 171 d 10+d 8d+2 6 1b",
    "11+29 ad7+20 7aa2+66 3+43 2+2 1 1+8 15+e 330+2b 1+9 1+4 4f96+7 41a+1a 6+1a 825+6 1+2a 1+9",
    "d745+1f 6+6"]),
  ("Lepc", ["1c00+38 3+f 3+3"]),
  ("Limb", ["1900+1f 1+c 4+c 4 3+c"]),
  ("Lina", ["10600+137 9+16 a+8"]),
  ("Linb", ["10000+c 1+1a 1+13 1+2 1+f 2+e 22+7b"]),
  ("Lisu", ["a4d0+30 7ab0"]),
  ("Lyci", ["10280+1d"]),
  ("Lydi", ["10920+1a 5"]),
  ("Mahj", ["11150+27"]),
  ("Maka", ["11ee0+19"]),
  ("Mand", ["840+1c 2"]),
  ("Mani", ["10ac0+27 4+c"]),
  ("Marc", ["11c70+20 2+16 1+e"]),
  ("Medf", ["16e40+5b"]),
  ("Mend", ["1e800+c5 2+10"]),
  ("Merc", ["109a0+18 4+14 2+2e"]),
  ("Mero", ["10980+20"]),
  ("Mlym", ["d00+d 1+3 1+33 1+3 1+6 4+10 2+1a"]),
  ("Modi", ["11600+45 b+a"]),
  ("Mong", ["1800+2 2 1+14 6+59 7+2b fdb5+d"]),
  ("Mroo", ["16a40+1f 1+a 4+2"]),
  ("Mtei", ["aae0+17 c9+2e 2+a"]),
  ("Mult", ["11280+7 1 1+4 1+f 1+b"]),
  ("Mymr", ["1000+a0 9940+1f 61+20 6c50+14"]),
  ("Nagm", ["1e4d0+2a"]),
  ("Nand", ["119a0+8 2+2e 2+b"]),
  ("Narb", ["10a80+20"]),
  ("Nbat", ["10880+1f 8+9"]),
  ("Newa", ["11400+5c 1+5"]),
  ("Nkoo", ["7c0+3b 2+3"]),
  ("Nshu", ["16fe1 418e+18c"]),
  ("Ogam", ["1680+1d"]),
  ("Olck", ["1c50+30"]),
  ("Onao", ["1e5d0+2b 4"]),
  ("Orkh", ["10c00+49"]),
  ("Orya", ["b01+3 1+8 2+2 2+16 1+7 1+2 1+5 2+9 2+2 2+3 7+3 4+2 1+5 2+12"]),
  ("Osge", ["104b0+24 4+24"]),
  ("Osma", ["10480+1e 2+a"]),
  ("Ougr", ["10f70+1a"]),
  ("Palm", ["10860+20"]),
  ("Pauc", ["11ac0+39"]),
  ("Perm", ["10350+2b"]),
  ("Phag", ["a840+38"]),
  ("Phli", ["10b60+13 5+8"]),
  ("Phlp", ["10b80+12 7+4 c+7"]),
  ("Phnx", ["10900+1c 3"]),
  ("Plrd", ["16f00+4b 4+39 7+11"]),
  ("Prti", ["10b40+16 2+8"]),
  ("Rjng", ["a930+24 b"]),
  ("Rohg", ["10d00+28 8+a"]),
  ("Runr", ["16a0+4b 3+b"]),
  ("Samr", ["800+2e 2+f"]),
  ("Sarb", ["10a60+20"]),
  ("Saur", ["a880+46 8+c"]),
  ("Sgnw", ["1d800+28c f+5 1+f"]),
  ("Shaw", ["10450+30"]),
  ("Shrd", ["11180+60"]),
  ("Sidd", ["11580+36 2+26"]),
  ("Sind", ["112b0+3b 5+a"]),
  ("Sinh", ["d81+3 1+12 3+18 1+9 1 2+7 3 4+6 1 1+8 6+a 2+3 103ec+14"]),
  ("Sogd", ["10f30+2a"]),
  ("Sogo", ["10f00+28"]),
  ("Sora", ["110d0+19 7+a"]),
  ("Soyo", ["11a50+53"]),
  ("Sund", ["1b80+40 100+8"]),
  ("Sunu", ["11bc0+22 e+a"]),
  ("Sylo", ["a800+2d"]),
  ("Syrc", ["700+e 1+3c 2+3 110+b"]),
  ("Tagb", ["1760+d 1+3 1+2"]),
  ("Takr", ["11680+3a 6+a"]),
  ("Tale", ["1950+1e 2+5"]),
  ("Talu", ["1980+2c 4+1a 6+b 3+2"]),
  ("Taml", ["b82+2 1+6 3+3 1+4 3+2 1 1+2 3+2 3+3 3+c 4+5 3+3 1+4 2 6 e+15 113c5+32 d"]),
  ("Tang", ["16fe0 1f+17f8 8+300 200+9"]),
  ("Tavt", ["aa80+43 18+5"]),
  ("Telu", ["c00+d 1+3 1+17 1+10 2+9 1+3 1+4 7+2 1+3 2 2+4 2+a 7+9"]),
  ("Tfng", ["2d30+38 7+2 e"]),
  ("Tglg", ["1700+16 9"]),
  ("Thaa", ["780+32"]),
  ("Thai", ["e01+3a 5+1c"]),
  ("Tibt", ["f00+48 1+24 4+27 1+24 1+f 1+7 4+2"]),
  ("Tirh", ["11480+48 8+a"]),
  ("Tnsa", ["16a70+4f 1+a"]),
  ("Todr", ["105c0+34"]),
  ("Toto", ["1e290+1f"]),
  ("Tutg", ["11380+a 1 2 1+26 1+a 1 2 1+4 1+a 1+2 8+2"]),
  ("Ugar", ["10380+1e 1"]),
  ("Vaii", ["a500+12c"]),
  ("Vith", ["10570+b 1+f 1+7 1+2 1+b 1+f 1+7 1+2"]),
  ("Wara", ["118a0+53 c"]),
  ("Wcho", ["1e2c0+3a 5"]),
  ("Xpeo", ["103a0+24 4+e"]),
  ("Xsux", ["12000+39a 66+6f 1+5 b+c4"]),
  ("Yezi", ["10e80+2a 1+3 2+2"]),
  ("Yiii", ["a000+48d 3+37"]),
  ("Zanb", ["11a00+48"]),
  ("Zinh", [
    "300+70 115+2 1c4+b 1a 2e0+4 115b+1f 201+3 1+d 1+7 4 6 3+2 c6+40 20c+2 c2+21 f39+4 6b+2",
    "cd65+10 10+e 3cf e2 105a bbc4+2e 2+17 220+3 11+8 2+7 1e+4 c2f52+f0"]),
  ("Zyyy", [
    "0+41 1a+6 1a+2f 1+f 1+5 17 1f 1c1+27 5+5 2+14 74 9 6 1 27d 6 e 3 20 9c 204 81+2 4d9 195+4",
    "122 5ef+3 47+2 cb+2 1 4cd d 7+4 1+6 1+3 2 305+c 2+57 1+b 3+b 1+f 11+21 3f+26 1+3 2+6 1+1b",
    "1+11 29+3 4+29a 16+b 15+3a0 100+274 2+20 1+69 200+5e 192+15 1 1+19 f+8 4+4 5b+2 3 5a+2 93+10",
    "20+26 9 30+40 1f+51 2f 58+a8 19c0+40 5900+22 66+3 a5+a f4 a0 18b e+2 51d2+2 d0+a 16+23 1+13",
    "1+4 93 1+20 1a+6 1a+b a 2d+2 40+7 1+7 a+5 102+3 4+2d 3+9 50+d 33+2d e4+1b b9a4+4 f5c+fa",
    "6+1b4 9c+74 3c+f6 a+27 2+3e 3+11 8+2 7+1e 4+3d d5+14 c+14 c+57 9+19 87+55 1+47 1+2 2 2+2 2+4",
    "1+c 1 1+7 1+41 1+4 2+8 1+7 1+1c 1+4 1+5 1 3+7 1+154 2+124 2+32 1471+44 4c+3d 2c2+2c 4+64 c+f",
    "2+f 1+f 1+25 a+ae 38+1a 1+2 d+2c 4+9 7+2 e+6 9a+3d8 4+11 3+d 3+77 4+5f 6+c 4 f+c 4+38 8+a",
    "6+28 8+1e 2+c 4+2 3e+154 c+e 2+d 3+a 5+38 7+f 2+b 6+9 7+93 1+66 c0407 1e+60"])]

def writingNames : List (String × String) := [
  ("adlm", "Adlm"), ("adlam", "Adlm"), ("aghb", "Aghb"), ("caucasianalbanian", "Aghb"),
  ("ahom", "Ahom"), ("arab", "Arab"), ("arabic", "Arab"), ("armi", "Armi"),
  ("imperialaramaic", "Armi"), ("armn", "Armn"), ("armenian", "Armn"), ("avst", "Avst"),
  ("avestan", "Avst"), ("bali", "Bali"), ("balinese", "Bali"), ("bamu", "Bamu"), ("bamum", "Bamu"),
  ("bass", "Bass"), ("bassavah", "Bass"), ("batk", "Batk"), ("batak", "Batk"), ("beng", "Beng"),
  ("bengali", "Beng"), ("bhks", "Bhks"), ("bhaiksuki", "Bhks"), ("bopo", "Bopo"),
  ("bopomofo", "Bopo"), ("brah", "Brah"), ("brahmi", "Brah"), ("brai", "Brai"),
  ("braille", "Brai"), ("bugi", "Bugi"), ("buginese", "Bugi"), ("buhd", "Buhd"), ("buhid", "Buhd"),
  ("cakm", "Cakm"), ("chakma", "Cakm"), ("cans", "Cans"), ("canadianaboriginal", "Cans"),
  ("cari", "Cari"), ("carian", "Cari"), ("cham", "Cham"), ("cher", "Cher"), ("cherokee", "Cher"),
  ("chrs", "Chrs"), ("chorasmian", "Chrs"), ("copt", "Copt"), ("coptic", "Copt"), ("qaac", "Copt"),
  ("cpmn", "Cpmn"), ("cyprominoan", "Cpmn"), ("cprt", "Cprt"), ("cypriot", "Cprt"),
  ("cyrl", "Cyrl"), ("cyrillic", "Cyrl"), ("deva", "Deva"), ("devanagari", "Deva"),
  ("diak", "Diak"), ("divesakuru", "Diak"), ("dogr", "Dogr"), ("dogra", "Dogr"), ("dsrt", "Dsrt"),
  ("deseret", "Dsrt"), ("dupl", "Dupl"), ("duployan", "Dupl"), ("egyp", "Egyp"),
  ("egyptianhieroglyphs", "Egyp"), ("elba", "Elba"), ("elbasan", "Elba"), ("elym", "Elym"),
  ("elymaic", "Elym"), ("ethi", "Ethi"), ("ethiopic", "Ethi"), ("gara", "Gara"), ("garay", "Gara"),
  ("geor", "Geor"), ("georgian", "Geor"), ("glag", "Glag"), ("glagolitic", "Glag"),
  ("gong", "Gong"), ("gunjalagondi", "Gong"), ("gonm", "Gonm"), ("masaramgondi", "Gonm"),
  ("goth", "Goth"), ("gothic", "Goth"), ("gran", "Gran"), ("grantha", "Gran"), ("grek", "Grek"),
  ("greek", "Grek"), ("gujr", "Gujr"), ("gujarati", "Gujr"), ("gukh", "Gukh"),
  ("gurungkhema", "Gukh"), ("guru", "Guru"), ("gurmukhi", "Guru"), ("hang", "Hang"),
  ("hangul", "Hang"), ("hani", "Hani"), ("han", "Hani"), ("hano", "Hano"), ("hanunoo", "Hano"),
  ("hatr", "Hatr"), ("hatran", "Hatr"), ("hebr", "Hebr"), ("hebrew", "Hebr"), ("hira", "Hira"),
  ("hiragana", "Hira"), ("hluw", "Hluw"), ("anatolianhieroglyphs", "Hluw"), ("hmng", "Hmng"),
  ("pahawhhmong", "Hmng"), ("hmnp", "Hmnp"), ("nyiakengpuachuehmong", "Hmnp"), ("hung", "Hung"),
  ("oldhungarian", "Hung"), ("ital", "Ital"), ("olditalic", "Ital"), ("java", "Java"),
  ("javanese", "Java"), ("kali", "Kali"), ("kayahli", "Kali"), ("kana", "Kana"),
  ("katakana", "Kana"), ("kawi", "Kawi"), ("khar", "Khar"), ("kharoshthi", "Khar"),
  ("khmr", "Khmr"), ("khmer", "Khmr"), ("khoj", "Khoj"), ("khojki", "Khoj"), ("kits", "Kits"),
  ("khitansmallscript", "Kits"), ("knda", "Knda"), ("kannada", "Knda"), ("krai", "Krai"),
  ("kiratrai", "Krai"), ("kthi", "Kthi"), ("kaithi", "Kthi"), ("lana", "Lana"),
  ("taitham", "Lana"), ("laoo", "Laoo"), ("lao", "Laoo"), ("latn", "Latn"), ("latin", "Latn"),
  ("lepc", "Lepc"), ("lepcha", "Lepc"), ("limb", "Limb"), ("limbu", "Limb"), ("lina", "Lina"),
  ("lineara", "Lina"), ("linb", "Linb"), ("linearb", "Linb"), ("lisu", "Lisu"), ("lyci", "Lyci"),
  ("lycian", "Lyci"), ("lydi", "Lydi"), ("lydian", "Lydi"), ("mahj", "Mahj"), ("mahajani", "Mahj"),
  ("maka", "Maka"), ("makasar", "Maka"), ("mand", "Mand"), ("mandaic", "Mand"), ("mani", "Mani"),
  ("manichaean", "Mani"), ("marc", "Marc"), ("marchen", "Marc"), ("medf", "Medf"),
  ("medefaidrin", "Medf"), ("mend", "Mend"), ("mendekikakui", "Mend"), ("merc", "Merc"),
  ("meroiticcursive", "Merc"), ("mero", "Mero"), ("meroitichieroglyphs", "Mero"), ("mlym", "Mlym"),
  ("malayalam", "Mlym"), ("modi", "Modi"), ("mong", "Mong"), ("mongolian", "Mong"),
  ("mroo", "Mroo"), ("mro", "Mroo"), ("mtei", "Mtei"), ("meeteimayek", "Mtei"), ("mult", "Mult"),
  ("multani", "Mult"), ("mymr", "Mymr"), ("myanmar", "Mymr"), ("nagm", "Nagm"),
  ("nagmundari", "Nagm"), ("nand", "Nand"), ("nandinagari", "Nand"), ("narb", "Narb"),
  ("oldnortharabian", "Narb"), ("nbat", "Nbat"), ("nabataean", "Nbat"), ("newa", "Newa"),
  ("nkoo", "Nkoo"), ("nko", "Nkoo"), ("nshu", "Nshu"), ("nushu", "Nshu"), ("ogam", "Ogam"),
  ("ogham", "Ogam"), ("olck", "Olck"), ("olchiki", "Olck"), ("onao", "Onao"), ("olonal", "Onao"),
  ("orkh", "Orkh"), ("oldturkic", "Orkh"), ("orya", "Orya"), ("oriya", "Orya"), ("osge", "Osge"),
  ("osage", "Osge"), ("osma", "Osma"), ("osmanya", "Osma"), ("ougr", "Ougr"),
  ("olduyghur", "Ougr"), ("palm", "Palm"), ("palmyrene", "Palm"), ("pauc", "Pauc"),
  ("paucinhau", "Pauc"), ("perm", "Perm"), ("oldpermic", "Perm"), ("phag", "Phag"),
  ("phagspa", "Phag"), ("phli", "Phli"), ("inscriptionalpahlavi", "Phli"), ("phlp", "Phlp"),
  ("psalterpahlavi", "Phlp"), ("phnx", "Phnx"), ("phoenician", "Phnx"), ("plrd", "Plrd"),
  ("miao", "Plrd"), ("prti", "Prti"), ("inscriptionalparthian", "Prti"), ("rjng", "Rjng"),
  ("rejang", "Rjng"), ("rohg", "Rohg"), ("hanifirohingya", "Rohg"), ("runr", "Runr"),
  ("runic", "Runr"), ("samr", "Samr"), ("samaritan", "Samr"), ("sarb", "Sarb"),
  ("oldsoutharabian", "Sarb"), ("saur", "Saur"), ("saurashtra", "Saur"), ("sgnw", "Sgnw"),
  ("signwriting", "Sgnw"), ("shaw", "Shaw"), ("shavian", "Shaw"), ("shrd", "Shrd"),
  ("sharada", "Shrd"), ("sidd", "Sidd"), ("siddham", "Sidd"), ("sind", "Sind"),
  ("khudawadi", "Sind"), ("sinh", "Sinh"), ("sinhala", "Sinh"), ("sogd", "Sogd"),
  ("sogdian", "Sogd"), ("sogo", "Sogo"), ("oldsogdian", "Sogo"), ("sora", "Sora"),
  ("sorasompeng", "Sora"), ("soyo", "Soyo"), ("soyombo", "Soyo"), ("sund", "Sund"),
  ("sundanese", "Sund"), ("sunu", "Sunu"), ("sunuwar", "Sunu"), ("sylo", "Sylo"),
  ("sylotinagri", "Sylo"), ("syrc", "Syrc"), ("syriac", "Syrc"), ("tagb", "Tagb"),
  ("tagbanwa", "Tagb"), ("takr", "Takr"), ("takri", "Takr"), ("tale", "Tale"), ("taile", "Tale"),
  ("talu", "Talu"), ("newtailue", "Talu"), ("taml", "Taml"), ("tamil", "Taml"), ("tang", "Tang"),
  ("tangut", "Tang"), ("tavt", "Tavt"), ("taiviet", "Tavt"), ("telu", "Telu"), ("telugu", "Telu"),
  ("tfng", "Tfng"), ("tifinagh", "Tfng"), ("tglg", "Tglg"), ("tagalog", "Tglg"), ("thaa", "Thaa"),
  ("thaana", "Thaa"), ("thai", "Thai"), ("tibt", "Tibt"), ("tibetan", "Tibt"), ("tirh", "Tirh"),
  ("tirhuta", "Tirh"), ("tnsa", "Tnsa"), ("tangsa", "Tnsa"), ("todr", "Todr"), ("todhri", "Todr"),
  ("toto", "Toto"), ("tutg", "Tutg"), ("tulutigalari", "Tutg"), ("ugar", "Ugar"),
  ("ugaritic", "Ugar"), ("vaii", "Vaii"), ("vai", "Vaii"), ("vith", "Vith"), ("vithkuqi", "Vith"),
  ("wara", "Wara"), ("warangciti", "Wara"), ("wcho", "Wcho"), ("wancho", "Wcho"), ("xpeo", "Xpeo"),
  ("oldpersian", "Xpeo"), ("xsux", "Xsux"), ("cuneiform", "Xsux"), ("yezi", "Yezi"),
  ("yezidi", "Yezi"), ("yiii", "Yiii"), ("yi", "Yiii"), ("zanb", "Zanb"),
  ("zanabazarsquare", "Zanb"), ("zinh", "Zinh"), ("inherited", "Zinh"), ("qaai", "Zinh"),
  ("zyyy", "Zyyy"), ("common", "Zyyy")]

def writing (code : String) : Ranges := Ranges.ofRuns ((writingTable.lookup code).getD [])

end FragmentMerge.Pattern
