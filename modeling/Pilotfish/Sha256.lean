import Pilotfish.BigEndian

/-!
# SHA-256

The hash of FIPS 180-4 on byte lists. Rounds run over a window of the sixteen latest schedule
words, so nothing is indexed past its end.

Results:
1. `length_digest`: a digest has 32 bytes.
-/

namespace Sha256

/-- The eight words of the chaining state. -/
structure State where
  a : UInt32
  b : UInt32
  c : UInt32
  d : UInt32
  e : UInt32
  f : UInt32
  g : UInt32
  h : UInt32

def initial : State where
  a := 0x6a09e667
  b := 0xbb67ae85
  c := 0x3c6ef372
  d := 0xa54ff53a
  e := 0x510e527f
  f := 0x9b05688c
  g := 0x1f83d9ab
  h := 0x5be0cd19

def constants : List UInt32 :=
  [0x428a2f98, 0x71374491, 0xb5c0fbcf, 0xe9b5dba5, 0x3956c25b, 0x59f111f1, 0x923f82a4, 0xab1c5ed5,
   0xd807aa98, 0x12835b01, 0x243185be, 0x550c7dc3, 0x72be5d74, 0x80deb1fe, 0x9bdc06a7, 0xc19bf174,
   0xe49b69c1, 0xefbe4786, 0x0fc19dc6, 0x240ca1cc, 0x2de92c6f, 0x4a7484aa, 0x5cb0a9dc, 0x76f988da,
   0x983e5152, 0xa831c66d, 0xb00327c8, 0xbf597fc7, 0xc6e00bf3, 0xd5a79147, 0x06ca6351, 0x14292967,
   0x27b70a85, 0x2e1b2138, 0x4d2c6dfc, 0x53380d13, 0x650a7354, 0x766a0abb, 0x81c2c92e, 0x92722c85,
   0xa2bfe8a1, 0xa81a664b, 0xc24b8b70, 0xc76c51a3, 0xd192e819, 0xd6990624, 0xf40e3585, 0x106aa070,
   0x19a4c116, 0x1e376c08, 0x2748774c, 0x34b0bcb5, 0x391c0cb3, 0x4ed8aa4a, 0x5b9cca4f, 0x682e6ff3,
   0x748f82ee, 0x78a5636f, 0x84c87814, 0x8cc70208, 0x90befffa, 0xa4506ceb, 0xbef9a3f7, 0xc67178f2]

def rotr (x n : UInt32) : UInt32 := (x >>> n) ||| (x <<< (32 - n))

/-- One round on the word at the front of the window, which then moves on by one. -/
def round (acc : State × List UInt32) (k : UInt32) : State × List UInt32 :=
  let (s, window) := acc
  let word (i : Nat) := window.getD i 0
  let t1 := s.h + (rotr s.e 6 ^^^ rotr s.e 11 ^^^ rotr s.e 25) +
    ((s.e &&& s.f) ^^^ (~~~s.e &&& s.g)) + k + word 0
  let t2 := (rotr s.a 2 ^^^ rotr s.a 13 ^^^ rotr s.a 22) +
    ((s.a &&& s.b) ^^^ (s.a &&& s.c) ^^^ (s.b &&& s.c))
  let next := (rotr (word 14) 17 ^^^ rotr (word 14) 19 ^^^ (word 14 >>> 10)) + word 9 +
    (rotr (word 1) 7 ^^^ rotr (word 1) 18 ^^^ (word 1 >>> 3)) + word 0
  (⟨t1 + t2, s.a, s.b, s.c, s.d + t1, s.e, s.f, s.g⟩, window.tail ++ [next])

/-- The big-endian words of a block. -/
def words : List UInt8 → List UInt32
  | a :: b :: c :: d :: rest =>
      (a.toUInt32 <<< 24 ||| b.toUInt32 <<< 16 ||| c.toUInt32 <<< 8 ||| d.toUInt32) :: words rest
  | _ => []

def compress (s : State) (block : List UInt8) : State :=
  let t := (constants.foldl round (s, words block)).1
  ⟨s.a + t.a, s.b + t.b, s.c + t.c, s.d + t.d, s.e + t.e, s.f + t.f, s.g + t.g, s.h + t.h⟩

def pad (message : List UInt8) : List UInt8 :=
  message ++ 0x80 :: List.replicate ((119 - message.length % 64) % 64) 0 ++
    BigEndian.bytes 8 (8 * message.length)

def compressBlocks : (count : Nat) → State → List UInt8 → State
  | 0, s, _ => s
  | count + 1, s, data => compressBlocks count (compress s (data.take 64)) (data.drop 64)

def digest (message : List UInt8) : List UInt8 :=
  let data := pad message
  let s := compressBlocks (data.length / 64) initial data
  [s.a, s.b, s.c, s.d, s.e, s.f, s.g, s.h].flatMap fun w => BigEndian.bytes 4 w.toNat

theorem length_digest (message : List UInt8) : (digest message).length = 32 := by
  simp [digest, BigEndian.length_bytes]

/-- The digest of `abc`. -/
example : digest [97, 98, 99] =
    [0xba, 0x78, 0x16, 0xbf, 0x8f, 0x01, 0xcf, 0xea, 0x41, 0x41, 0x40, 0xde, 0x5d, 0xae, 0x22, 0x23,
     0xb0, 0x03, 0x61, 0xa3, 0x96, 0x17, 0x7a, 0x9c, 0xb4, 0x10, 0xff, 0x61, 0xf2, 0x00, 0x15, 0xad] := by
  decide +kernel

end Sha256
