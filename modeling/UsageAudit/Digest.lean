/-!
# Digests

The SHA-256 digest of a text, in hexadecimal. The message is padded to blocks of 64 bytes; each block
is expanded to 64 words and mixed into a state of eight words.
-/

namespace UsageAudit.Digest

/-- The constants of the 64 rounds. -/
def roundConstants : List UInt32 := [
  0x428a2f98, 0x71374491, 0xb5c0fbcf, 0xe9b5dba5, 0x3956c25b, 0x59f111f1, 0x923f82a4, 0xab1c5ed5,
  0xd807aa98, 0x12835b01, 0x243185be, 0x550c7dc3, 0x72be5d74, 0x80deb1fe, 0x9bdc06a7, 0xc19bf174,
  0xe49b69c1, 0xefbe4786, 0x0fc19dc6, 0x240ca1cc, 0x2de92c6f, 0x4a7484aa, 0x5cb0a9dc, 0x76f988da,
  0x983e5152, 0xa831c66d, 0xb00327c8, 0xbf597fc7, 0xc6e00bf3, 0xd5a79147, 0x06ca6351, 0x14292967,
  0x27b70a85, 0x2e1b2138, 0x4d2c6dfc, 0x53380d13, 0x650a7354, 0x766a0abb, 0x81c2c92e, 0x92722c85,
  0xa2bfe8a1, 0xa81a664b, 0xc24b8b70, 0xc76c51a3, 0xd192e819, 0xd6990624, 0xf40e3585, 0x106aa070,
  0x19a4c116, 0x1e376c08, 0x2748774c, 0x34b0bcb5, 0x391c0cb3, 0x4ed8aa4a, 0x5b9cca4f, 0x682e6ff3,
  0x748f82ee, 0x78a5636f, 0x84c87814, 0x8cc70208, 0x90befffa, 0xa4506ceb, 0xbef9a3f7, 0xc67178f2]

/-- The state that is mixed with the blocks. -/
structure State where
  a : UInt32
  b : UInt32
  c : UInt32
  d : UInt32
  e : UInt32
  f : UInt32
  g : UInt32
  h : UInt32

/-- The state before the first block. -/
def State.initial : State :=
  ⟨0x6a09e667, 0xbb67ae85, 0x3c6ef372, 0xa54ff53a, 0x510e527f, 0x9b05688c, 0x1f83d9ab, 0x5be0cd19⟩

/-- Rotates a word to the right. -/
def rotate (x : UInt32) (n : UInt32) : UInt32 := (x >>> n) ||| (x <<< (32 - n))

/-- The message with its padding: a single one bit, zeros, and the length in bits. -/
def padded (message : List UInt8) : List UInt8 :=
  let length := message.length
  let zeros : List UInt8 := List.replicate ((119 - length % 64) % 64) 0
  let bits : List UInt8 := (List.range 8).map fun i => UInt8.ofNat ((length * 8) >>> (8 * (7 - i)))
  message ++ [0x80] ++ zeros ++ bits

/-- The bytes as words, the first byte of each word weighing most. -/
def words : List UInt8 → List UInt32
  | a :: b :: c :: d :: rest =>
    ((a.toUInt32 <<< 24) ||| (b.toUInt32 <<< 16) ||| (c.toUInt32 <<< 8) ||| d.toUInt32) ::
      words rest
  | _ => []

/-- The words of a block expanded to 64, held in reverse. -/
def expand : Nat → List UInt32 → List UInt32
  | 0, schedule => schedule
  | n + 1, schedule =>
    let word (back : Nat) : UInt32 := schedule.getD (back - 1) 0
    let s0 := rotate (word 15) 7 ^^^ rotate (word 15) 18 ^^^ (word 15 >>> 3)
    let s1 := rotate (word 2) 17 ^^^ rotate (word 2) 19 ^^^ (word 2 >>> 10)
    expand n ((word 16 + s0 + word 7 + s1) :: schedule)

/-- One round: the state with one word of the schedule and its constant mixed in. -/
def State.round (s : State) (word constant : UInt32) : State :=
  let s1 := rotate s.e 6 ^^^ rotate s.e 11 ^^^ rotate s.e 25
  let choice := (s.e &&& s.f) ^^^ (~~~s.e &&& s.g)
  let t1 := s.h + s1 + choice + constant + word
  let s0 := rotate s.a 2 ^^^ rotate s.a 13 ^^^ rotate s.a 22
  let majority := (s.a &&& s.b) ^^^ (s.a &&& s.c) ^^^ (s.b &&& s.c)
  ⟨t1 + (s0 + majority), s.a, s.b, s.c, s.d + t1, s.e, s.f, s.g⟩

/-- The state with one block mixed in. -/
def State.block (s : State) (block : List UInt32) : State :=
  let schedule := (expand 48 block.reverse).reverse
  let t := (schedule.zip roundConstants).foldl (fun s (word, constant) => s.round word constant) s
  ⟨s.a + t.a, s.b + t.b, s.c + t.c, s.d + t.d, s.e + t.e, s.f + t.f, s.g + t.g, s.h + t.h⟩

/-- The state with so many blocks mixed in. -/
def State.blocks (s : State) : Nat → List UInt32 → State
  | 0, _ => s
  | n + 1, message => (s.block (message.take 16)).blocks n (message.drop 16)

/-- A digit in base sixteen. -/
def hexDigit (n : Nat) : Char :=
  if n < 10 then Char.ofNat (48 + n) else Char.ofNat (87 + n)

/-- A word as eight digits in base sixteen. -/
def hexWord (x : UInt32) : List Char :=
  (List.range 8).map fun i => hexDigit ((x.toNat >>> (4 * (7 - i))) % 16)

/-- The SHA-256 digest of a text in hexadecimal. -/
def sha256 (text : String) : String :=
  let message := words (padded text.toUTF8.toList)
  let s := State.initial.blocks (message.length / 16) message
  String.ofList ([s.a, s.b, s.c, s.d, s.e, s.f, s.g, s.h].flatMap hexWord)

end UsageAudit.Digest
