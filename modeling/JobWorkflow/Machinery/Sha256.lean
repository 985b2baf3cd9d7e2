import Mathlib.Data.List.Basic

/-!
# Machinery/Sha256 — `hashlib.sha256`

The hash function over bytes, with the digest written out in hexadecimal.  Words are 32 bits wide
and read most significant byte first.
-/

namespace Sha256

abbrev Word := BitVec 32

/-! ## The rounds -/

def ch (x y z : Word) : Word := (x &&& y) ^^^ (~~~x &&& z)

def maj (x y z : Word) : Word := (x &&& y) ^^^ (x &&& z) ^^^ (y &&& z)

def bigSigma0 (x : Word) : Word := x.rotateRight 2 ^^^ x.rotateRight 13 ^^^ x.rotateRight 22

def bigSigma1 (x : Word) : Word := x.rotateRight 6 ^^^ x.rotateRight 11 ^^^ x.rotateRight 25

def smallSigma0 (x : Word) : Word := x.rotateRight 7 ^^^ x.rotateRight 18 ^^^ x >>> 3

def smallSigma1 (x : Word) : Word := x.rotateRight 17 ^^^ x.rotateRight 19 ^^^ x >>> 10

/-- The constants of the rounds. -/
def roundConstants : List Word :=
  [0x428a2f98, 0x71374491, 0xb5c0fbcf, 0xe9b5dba5, 0x3956c25b, 0x59f111f1, 0x923f82a4, 0xab1c5ed5,
    0xd807aa98, 0x12835b01, 0x243185be, 0x550c7dc3, 0x72be5d74, 0x80deb1fe, 0x9bdc06a7, 0xc19bf174,
    0xe49b69c1, 0xefbe4786, 0x0fc19dc6, 0x240ca1cc, 0x2de92c6f, 0x4a7484aa, 0x5cb0a9dc, 0x76f988da,
    0x983e5152, 0xa831c66d, 0xb00327c8, 0xbf597fc7, 0xc6e00bf3, 0xd5a79147, 0x06ca6351, 0x14292967,
    0x27b70a85, 0x2e1b2138, 0x4d2c6dfc, 0x53380d13, 0x650a7354, 0x766a0abb, 0x81c2c92e, 0x92722c85,
    0xa2bfe8a1, 0xa81a664b, 0xc24b8b70, 0xc76c51a3, 0xd192e819, 0xd6990624, 0xf40e3585, 0x106aa070,
    0x19a4c116, 0x1e376c08, 0x2748774c, 0x34b0bcb5, 0x391c0cb3, 0x4ed8aa4a, 0x5b9cca4f, 0x682e6ff3,
    0x748f82ee, 0x78a5636f, 0x84c87814, 0x8cc70208, 0x90befffa, 0xa4506ceb, 0xbef9a3f7, 0xc67178f2]

/-- The chaining value, and the variables of a block. -/
structure State where
  a : Word
  b : Word
  c : Word
  d : Word
  e : Word
  f : Word
  g : Word
  h : Word

def State.initial : State where
  a := 0x6a09e667
  b := 0xbb67ae85
  c := 0x3c6ef372
  d := 0xa54ff53a
  e := 0x510e527f
  f := 0x9b05688c
  g := 0x1f83d9ab
  h := 0x5be0cd19

/-- One round, with its constant and its word of the schedule. -/
def State.round (s : State) (kw : Word × Word) : State :=
  let t₁ := s.h + bigSigma1 s.e + ch s.e s.f s.g + kw.1 + kw.2
  let t₂ := bigSigma0 s.a + maj s.a s.b s.c
  { a := t₁ + t₂, b := s.a, c := s.b, d := s.c, e := s.d + t₁, f := s.e, g := s.f, h := s.g }

def State.add (s t : State) : State where
  a := s.a + t.a
  b := s.b + t.b
  c := s.c + t.c
  d := s.d + t.d
  e := s.e + t.e
  f := s.f + t.f
  g := s.g + t.g
  h := s.h + t.h

def State.words (s : State) : List Word := [s.a, s.b, s.c, s.d, s.e, s.f, s.g, s.h]

/-- So many words more of the schedule; the newest word is the first. -/
def extend : ℕ → List Word → List Word
  | 0, w => w
  | n + 1, w =>
    let next := smallSigma1 (w.getD 1 0) + w.getD 6 0 + smallSigma0 (w.getD 14 0) + w.getD 15 0
    extend n (next :: w)

/-- The schedule of a block of 16 words. -/
def schedule (block : List Word) : List Word := (extend 48 block.reverse).reverse

def State.compress (s : State) (block : List Word) : State :=
  s.add ((roundConstants.zip (schedule block)).foldl State.round s)

/-! ## Bytes and digits -/

/-- The bytes of a number, most significant first. -/
def bigEndian : ℕ → ℕ → List ℕ
  | 0, _ => []
  | width + 1, n => bigEndian width (n / 256) ++ [n % 256]

/-- The message, a one bit, zeros up to a whole number of blocks, and the length in bits. -/
def pad (message : List ℕ) : List ℕ :=
  message ++ [0x80] ++ List.replicate ((119 - message.length % 64) % 64) 0 ++
    bigEndian 8 (8 * message.length)

/-- Every four bytes make a word. -/
def toWords : List ℕ → List Word
  | a :: b :: c :: d :: rest =>
    BitVec.ofNat 32 (((a * 256 + b) * 256 + c) * 256 + d) :: toWords rest
  | _ => []

/-- The chaining value after so many blocks. -/
def hashBlocks : ℕ → State → List Word → State
  | 0, s, _ => s
  | n + 1, s, ws => hashBlocks n (s.compress (ws.take 16)) (ws.drop 16)

/-- `sha256(message).digest()`, as words. -/
def digest (message : List ℕ) : List Word :=
  (hashBlocks ((pad message).length / 64) State.initial (toWords (pad message))).words

def hexDigits (w : Word) : List Char :=
  (List.range 8).map fun i => Nat.digitChar ((w.toNat >>> (28 - 4 * i)) % 16)

/-- `sha256(s.encode()).hexdigest()`. -/
def hexdigest (s : String) : String :=
  .ofList ((digest (s.toUTF8.data.toList.map UInt8.toNat)).flatMap hexDigits)

example : hexdigest "abc" = "ba7816bf8f01cfea414140de5dae2223b00361a396177a9cb410ff61f20015ad" := by
  decide +kernel

end Sha256
