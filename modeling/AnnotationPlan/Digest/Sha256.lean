/-!
# SHA-256

The digest of a sequence of bytes, as the Secure Hash Standard defines it. The bytes
are padded to blocks of sixty-four; each block is stretched to sixty-four words of 32
bits, and these drive sixty-four rounds on a state of eight words. The digest is
written as sixty-four hexadecimal digits.
-/

namespace AnnotationPlan.Sha256

/-- The first 32 bits of the fractional parts of the cube roots of the first
sixty-four primes. -/
def constants : Array UInt32 := #[
  0x428a2f98, 0x71374491, 0xb5c0fbcf, 0xe9b5dba5, 0x3956c25b, 0x59f111f1, 0x923f82a4, 0xab1c5ed5,
  0xd807aa98, 0x12835b01, 0x243185be, 0x550c7dc3, 0x72be5d74, 0x80deb1fe, 0x9bdc06a7, 0xc19bf174,
  0xe49b69c1, 0xefbe4786, 0x0fc19dc6, 0x240ca1cc, 0x2de92c6f, 0x4a7484aa, 0x5cb0a9dc, 0x76f988da,
  0x983e5152, 0xa831c66d, 0xb00327c8, 0xbf597fc7, 0xc6e00bf3, 0xd5a79147, 0x06ca6351, 0x14292967,
  0x27b70a85, 0x2e1b2138, 0x4d2c6dfc, 0x53380d13, 0x650a7354, 0x766a0abb, 0x81c2c92e, 0x92722c85,
  0xa2bfe8a1, 0xa81a664b, 0xc24b8b70, 0xc76c51a3, 0xd192e819, 0xd6990624, 0xf40e3585, 0x106aa070,
  0x19a4c116, 0x1e376c08, 0x2748774c, 0x34b0bcb5, 0x391c0cb3, 0x4ed8aa4a, 0x5b9cca4f, 0x682e6ff3,
  0x748f82ee, 0x78a5636f, 0x84c87814, 0x8cc70208, 0x90befffa, 0xa4506ceb, 0xbef9a3f7, 0xc67178f2]

/-- The state of eight words. -/
structure State where
  /-- The first word. -/
  a : UInt32
  /-- The second word. -/
  b : UInt32
  /-- The third word. -/
  c : UInt32
  /-- The fourth word. -/
  d : UInt32
  /-- The fifth word. -/
  e : UInt32
  /-- The sixth word. -/
  f : UInt32
  /-- The seventh word. -/
  g : UInt32
  /-- The eighth word. -/
  h : UInt32

/-- The first 32 bits of the fractional parts of the square roots of the first eight
primes. -/
def State.start : State :=
  ⟨0x6a09e667, 0xbb67ae85, 0x3c6ef372, 0xa54ff53a, 0x510e527f, 0x9b05688c, 0x1f83d9ab, 0x5be0cd19⟩

/-- A word turned to the right by a number of bits between one and thirty-one. -/
def rotate (x : UInt32) (n : UInt32) : UInt32 := (x >>> n) ||| (x <<< (32 - n))

/-- The bytes with a one, zeros and the length in bits behind them, so that the whole is
a number of blocks. -/
def pad (bytes : Array UInt8) : Array UInt8 :=
  let zeros := (119 - bytes.size % 64) % 64
  let bits := (8 * bytes.size).toUInt64
  let length := (List.range 8).map (fun i => (bits >>> (8 * (7 - i)).toUInt64).toUInt8)
  bytes ++ #[0x80] ++ (List.replicate zeros (0 : UInt8)).toArray ++ length.toArray

/-- The word at a place of the bytes, its first byte the highest. -/
def word (bytes : Array UInt8) (i : Nat) : UInt32 :=
  (bytes.getD i 0).toUInt32 <<< 24 ||| (bytes.getD (i + 1) 0).toUInt32 <<< 16
    ||| (bytes.getD (i + 2) 0).toUInt32 <<< 8 ||| (bytes.getD (i + 3) 0).toUInt32

/-- The next word of a stretched block, from those before it. -/
def nextWord (w : Array UInt32) : UInt32 :=
  let x := w.getD (w.size - 15) 0
  let y := w.getD (w.size - 2) 0
  let s0 := rotate x 7 ^^^ rotate x 18 ^^^ (x >>> 3)
  let s1 := rotate y 17 ^^^ rotate y 19 ^^^ (y >>> 10)
  w.getD (w.size - 16) 0 + s0 + w.getD (w.size - 7) 0 + s1

/-- The sixty-four words of the block that begins at a place of the bytes. -/
def schedule (bytes : Array UInt8) (start : Nat) : Array UInt32 :=
  let w := ((List.range 16).map (fun i => word bytes (start + 4 * i))).toArray
  (List.range 48).foldl (fun w _ => w.push (nextWord w)) w

/-- One round. -/
def round (s : State) (k w : UInt32) : State :=
  let s1 := rotate s.e 6 ^^^ rotate s.e 11 ^^^ rotate s.e 25
  let choice := (s.e &&& s.f) ^^^ ((~~~s.e) &&& s.g)
  let t1 := s.h + s1 + choice + k + w
  let s0 := rotate s.a 2 ^^^ rotate s.a 13 ^^^ rotate s.a 22
  let majority := (s.a &&& s.b) ^^^ (s.a &&& s.c) ^^^ (s.b &&& s.c)
  ⟨t1 + (s0 + majority), s.a, s.b, s.c, s.d + t1, s.e, s.f, s.g⟩

/-- The state after the block that begins at a place of the bytes. -/
def compress (bytes : Array UInt8) (s : State) (start : Nat) : State :=
  let w := schedule bytes start
  let t := (List.range 64).foldl (fun t i => round t (constants.getD i 0) (w.getD i 0)) s
  ⟨s.a + t.a, s.b + t.b, s.c + t.c, s.d + t.d, s.e + t.e, s.f + t.f, s.g + t.g, s.h + t.h⟩

/-- The eight hexadecimal digits of a word. -/
def wordText (x : UInt32) : List Char :=
  List.leftpad 8 '0' (Nat.toDigits 16 x.toNat)

/-- **The digest of a sequence of bytes**, in hexadecimal digits. -/
def digest (bytes : Array UInt8) : String :=
  let padded := pad bytes
  let s := (List.range (padded.size / 64)).foldl (fun s i => compress padded s (64 * i)) State.start
  String.ofList ([s.a, s.b, s.c, s.d, s.e, s.f, s.g, s.h].flatMap wordText)

end AnnotationPlan.Sha256
