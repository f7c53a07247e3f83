import FragmentMerge.Data.Digest

/-! Other sums of byte sequences: MD5, SHA-1, SHA-512 and the check sum of `cksum`. -/

namespace FragmentMerge.Digest

def littleEndian (n : Nat) : Nat → List UInt8
  | 0 => []
  | k + 1 => UInt8.ofNat n :: littleEndian (n / 256) k

/-- The words of bytes of which the first counts least. -/
def reversedWords : List UInt8 → List UInt32
  | a :: b :: c :: d :: r =>
    ((d.toUInt32 <<< 24) ||| (c.toUInt32 <<< 16) ||| (b.toUInt32 <<< 8) ||| a.toUInt32) :: reversedWords r
  | _ => []

def rotateLeft (x n : UInt32) : UInt32 := (x <<< n) ||| (x >>> (32 - n))

def sines : List UInt32 :=
  [0xd76aa478, 0xe8c7b756, 0x242070db, 0xc1bdceee, 0xf57c0faf, 0x4787c62a, 0xa8304613, 0xfd469501,
   0x698098d8, 0x8b44f7af, 0xffff5bb1, 0x895cd7be, 0x6b901122, 0xfd987193, 0xa679438e, 0x49b40821,
   0xf61e2562, 0xc040b340, 0x265e5a51, 0xe9b6c7aa, 0xd62f105d, 0x02441453, 0xd8a1e681, 0xe7d3fbc8,
   0x21e1cde6, 0xc33707d6, 0xf4d50d87, 0x455a14ed, 0xa9e3e905, 0xfcefa3f8, 0x676f02d9, 0x8d2a4c8a,
   0xfffa3942, 0x8771f681, 0x6d9d6122, 0xfde5380c, 0xa4beea44, 0x4bdecfa9, 0xf6bb4b60, 0xbebfbc70,
   0x289b7ec6, 0xeaa127fa, 0xd4ef3085, 0x04881d05, 0xd9d4d039, 0xe6db99e5, 0x1fa27cf8, 0xc4ac5665,
   0xf4292244, 0x432aff97, 0xab9423a7, 0xfc93a039, 0x655b59c3, 0x8f0ccc92, 0xffeff47d, 0x85845dd1,
   0x6fa87e4f, 0xfe2ce6e0, 0xa3014314, 0x4e0811a1, 0xf7537e82, 0xbd3af235, 0x2ad7d2bb, 0xeb86d391]

structure Quartet where
  a : UInt32
  b : UInt32
  c : UInt32
  d : UInt32

def turns (round : Nat) : List UInt32 :=
  match round with
  | 0 => [7, 12, 17, 22]
  | 1 => [5, 9, 14, 20]
  | 2 => [4, 11, 16, 23]
  | _ => [6, 10, 15, 21]

def mixed (block : List UInt32) (q : Quartet) (step : UInt32 × Nat) : Quartet :=
  let (k, i) := step
  let (f, g) := match i / 16 with
    | 0 => ((q.b &&& q.c) ||| ((~~~ q.b) &&& q.d), i)
    | 1 => ((q.d &&& q.b) ||| ((~~~ q.d) &&& q.c), 5 * i + 1)
    | 2 => (q.b ^^^ q.c ^^^ q.d, 3 * i + 5)
    | _ => (q.c ^^^ (q.b ||| (~~~ q.d)), 7 * i)
  let x := q.a + f + k + block.getD (g % 16) 0
  ⟨q.d, q.b + rotateLeft x ((turns (i / 16)).getD (i % 4) 0), q.b, q.c⟩

def mixAll : Nat → Quartet → List UInt32 → Quartet
  | 0, q, _ => q
  | n + 1, q, ws =>
    if ws.isEmpty then q
    else
      let r := sines.zipIdx.foldl (mixed (ws.take 16)) q
      mixAll n ⟨q.a + r.a, q.b + r.b, q.c + r.c, q.d + r.d⟩ (ws.drop 16)

def md5 (bs : List UInt8) : String :=
  let n := bs.length
  let ws := reversedWords (bs ++ 0x80 :: List.replicate ((119 - n % 64) % 64) 0 ++ littleEndian (8 * n) 8)
  let q := mixAll ws.length ⟨0x67452301, 0xefcdab89, 0x98badcfe, 0x10325476⟩ ws
  hex ([q.a, q.b, q.c, q.d].flatMap fun w => littleEndian w.toNat 4)

def widen : Nat → List UInt32 → List UInt32
  | 0, ws => ws
  | n + 1, ws =>
    widen n (rotateLeft (ws.getD 2 0 ^^^ ws.getD 7 0 ^^^ ws.getD 13 0 ^^^ ws.getD 15 0) 1 :: ws)

structure Quintet where
  a : UInt32
  b : UInt32
  c : UInt32
  d : UInt32
  e : UInt32

def stirred (q : Quintet) (step : UInt32 × Nat) : Quintet :=
  let (w, i) := step
  let (f, k) : UInt32 × UInt32 := match i / 20 with
    | 0 => ((q.b &&& q.c) ||| ((~~~ q.b) &&& q.d), 0x5a827999)
    | 1 => (q.b ^^^ q.c ^^^ q.d, 0x6ed9eba1)
    | 2 => ((q.b &&& q.c) ||| (q.b &&& q.d) ||| (q.c &&& q.d), 0x8f1bbcdc)
    | _ => (q.b ^^^ q.c ^^^ q.d, 0xca62c1d6)
  ⟨rotateLeft q.a 5 + f + q.e + k + w, q.a, rotateLeft q.b 30, q.c, q.d⟩

def stirAll : Nat → Quintet → List UInt32 → Quintet
  | 0, q, _ => q
  | n + 1, q, ws =>
    if ws.isEmpty then q
    else
      let r := (widen 64 (ws.take 16).reverse).reverse.zipIdx.foldl stirred q
      stirAll n ⟨q.a + r.a, q.b + r.b, q.c + r.c, q.d + r.d, q.e + r.e⟩ (ws.drop 16)

def sha1 (bs : List UInt8) : String :=
  let ws := words (pad bs)
  let q := stirAll ws.length ⟨0x67452301, 0xefcdab89, 0x98badcfe, 0x10325476, 0xc3d2e1f0⟩ ws
  hex ([q.a, q.b, q.c, q.d, q.e].flatMap fun w => bigEndian w.toNat 4)

def wideConstants : List UInt64 :=
  [0x428a2f98d728ae22, 0x7137449123ef65cd, 0xb5c0fbcfec4d3b2f, 0xe9b5dba58189dbbc,
   0x3956c25bf348b538, 0x59f111f1b605d019, 0x923f82a4af194f9b, 0xab1c5ed5da6d8118,
   0xd807aa98a3030242, 0x12835b0145706fbe, 0x243185be4ee4b28c, 0x550c7dc3d5ffb4e2,
   0x72be5d74f27b896f, 0x80deb1fe3b1696b1, 0x9bdc06a725c71235, 0xc19bf174cf692694,
   0xe49b69c19ef14ad2, 0xefbe4786384f25e3, 0x0fc19dc68b8cd5b5, 0x240ca1cc77ac9c65,
   0x2de92c6f592b0275, 0x4a7484aa6ea6e483, 0x5cb0a9dcbd41fbd4, 0x76f988da831153b5,
   0x983e5152ee66dfab, 0xa831c66d2db43210, 0xb00327c898fb213f, 0xbf597fc7beef0ee4,
   0xc6e00bf33da88fc2, 0xd5a79147930aa725, 0x06ca6351e003826f, 0x142929670a0e6e70,
   0x27b70a8546d22ffc, 0x2e1b21385c26c926, 0x4d2c6dfc5ac42aed, 0x53380d139d95b3df,
   0x650a73548baf63de, 0x766a0abb3c77b2a8, 0x81c2c92e47edaee6, 0x92722c851482353b,
   0xa2bfe8a14cf10364, 0xa81a664bbc423001, 0xc24b8b70d0f89791, 0xc76c51a30654be30,
   0xd192e819d6ef5218, 0xd69906245565a910, 0xf40e35855771202a, 0x106aa07032bbd1b8,
   0x19a4c116b8d2d0c8, 0x1e376c085141ab53, 0x2748774cdf8eeb99, 0x34b0bcb5e19b48a8,
   0x391c0cb3c5c95a63, 0x4ed8aa4ae3418acb, 0x5b9cca4f7763e373, 0x682e6ff3d6b2b8a3,
   0x748f82ee5defb2fc, 0x78a5636f43172f60, 0x84c87814a1f0ab72, 0x8cc702081a6439ec,
   0x90befffa23631e28, 0xa4506cebde82bde9, 0xbef9a3f7b2c67915, 0xc67178f2e372532b,
   0xca273eceea26619c, 0xd186b8c721c0c207, 0xeada7dd6cde0eb1e, 0xf57d4f7fee6ed178,
   0x06f067aa72176fba, 0x0a637dc5a2c898a6, 0x113f9804bef90dae, 0x1b710b35131c471b,
   0x28db77f523047d84, 0x32caab7b40c72493, 0x3c9ebe0a15c9bebc, 0x431d67c49c100d4c,
   0x4cc5d4becb3e42b6, 0x597f299cfc657e2a, 0x5fcb6fab3ad6faec, 0x6c44198c4a475817]

def wideInitial : List UInt64 :=
  [0x6a09e667f3bcc908, 0xbb67ae8584caa73b, 0x3c6ef372fe94f82b, 0xa54ff53a5f1d36f1,
   0x510e527fade682d1, 0x9b05688c2b3e6c1f, 0x1f83d9abfb41bd6b, 0x5be0cd19137e2179]

def rotateWide (x n : UInt64) : UInt64 := (x >>> n) ||| (x <<< (64 - n))

def extendWide : Nat → List UInt64 → List UInt64
  | 0, ws => ws
  | n + 1, ws =>
    let w2 := ws.getD 1 0
    let w15 := ws.getD 14 0
    let s0 := rotateWide w15 1 ^^^ rotateWide w15 8 ^^^ (w15 >>> 7)
    let s1 := rotateWide w2 19 ^^^ rotateWide w2 61 ^^^ (w2 >>> 6)
    extendWide n ((ws.getD 15 0 + s0 + ws.getD 6 0 + s1) :: ws)

def roundWide (s : List UInt64) (kw : UInt64 × UInt64) : List UInt64 :=
  match s with
  | [a, b, c, d, e, f, g, h] =>
    let s1 := rotateWide e 14 ^^^ rotateWide e 18 ^^^ rotateWide e 41
    let t1 := h + s1 + ((e &&& f) ^^^ ((~~~ e) &&& g)) + kw.1 + kw.2
    let s0 := rotateWide a 28 ^^^ rotateWide a 34 ^^^ rotateWide a 39
    [t1 + s0 + ((a &&& b) ^^^ (a &&& c) ^^^ (b &&& c)), a, b, c, d + t1, e, f, g]
  | s => s

def compressWide : Nat → List UInt64 → List UInt64 → List UInt64
  | 0, s, _ => s
  | n + 1, s, ws =>
    if ws.isEmpty then s
    else
      let r := (wideConstants.zip (extendWide 64 (ws.take 16).reverse).reverse).foldl roundWide s
      compressWide n (List.zipWith (· + ·) s r) (ws.drop 16)

def wideWords : Nat → List UInt8 → List UInt64
  | 0, _ => []
  | n + 1, bs =>
    if bs.isEmpty then []
    else (bs.take 8).foldl (fun w b => (w <<< 8) ||| b.toUInt64) 0 :: wideWords n (bs.drop 8)

def sha512 (bs : List UInt8) : String :=
  let n := bs.length
  let padded := bs ++ 0x80 :: List.replicate ((239 - n % 128) % 128) 0 ++ bigEndian (8 * n) 16
  let ws := wideWords padded.length padded
  hex ((compressWide ws.length wideInitial ws).flatMap fun w => bigEndian w.toNat 8)

def shiftBits : Nat → UInt32 → UInt32
  | 0, r => r
  | n + 1, r =>
    shiftBits n (if r &&& 0x80000000 != 0 then (r <<< 1) ^^^ 0x04c11db7 else r <<< 1)

def checkSum (bs : List UInt8) : Nat :=
  let length := littleEndian bs.length (if bs.isEmpty then 0 else (Nat.log2 bs.length) / 8 + 1)
  let r := (bs ++ length).foldl (fun (r : UInt32) (b : UInt8) => shiftBits 8 (r ^^^ (b.toUInt32 <<< 24))) 0
  (~~~ r).toNat

end FragmentMerge.Digest
