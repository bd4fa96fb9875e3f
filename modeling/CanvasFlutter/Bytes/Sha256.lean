/-!
# `CanvasFlutter.Bytes.Sha256` — the SHA-256 digest

## Contents
- **Constants.** `initial`, `roundConstants`.
- **Blocks.** `padded`, `words`, `schedule`, `compress`.
- **Digests.** `digest`, and `hexDigest`, its text.
-/

namespace CanvasFlutter.Sha256

/-! ## Constants -/

/-- The state before the first block. -/
def initial : List UInt32 :=
  [0x6a09e667, 0xbb67ae85, 0x3c6ef372, 0xa54ff53a, 0x510e527f, 0x9b05688c, 0x1f83d9ab, 0x5be0cd19]

/-- One constant for each of the 64 rounds. -/
def roundConstants : List UInt32 := [
  0x428a2f98, 0x71374491, 0xb5c0fbcf, 0xe9b5dba5, 0x3956c25b, 0x59f111f1, 0x923f82a4, 0xab1c5ed5,
  0xd807aa98, 0x12835b01, 0x243185be, 0x550c7dc3, 0x72be5d74, 0x80deb1fe, 0x9bdc06a7, 0xc19bf174,
  0xe49b69c1, 0xefbe4786, 0x0fc19dc6, 0x240ca1cc, 0x2de92c6f, 0x4a7484aa, 0x5cb0a9dc, 0x76f988da,
  0x983e5152, 0xa831c66d, 0xb00327c8, 0xbf597fc7, 0xc6e00bf3, 0xd5a79147, 0x06ca6351, 0x14292967,
  0x27b70a85, 0x2e1b2138, 0x4d2c6dfc, 0x53380d13, 0x650a7354, 0x766a0abb, 0x81c2c92e, 0x92722c85,
  0xa2bfe8a1, 0xa81a664b, 0xc24b8b70, 0xc76c51a3, 0xd192e819, 0xd6990624, 0xf40e3585, 0x106aa070,
  0x19a4c116, 0x1e376c08, 0x2748774c, 0x34b0bcb5, 0x391c0cb3, 0x4ed8aa4a, 0x5b9cca4f, 0x682e6ff3,
  0x748f82ee, 0x78a5636f, 0x84c87814, 0x8cc70208, 0x90befffa, 0xa4506ceb, 0xbef9a3f7, 0xc67178f2]

/-! ## Blocks -/

/-- A number in `count` bytes, the most significant first. -/
def bigEndian (count n : Nat) : List UInt8 :=
  (List.range count).reverse.map fun i => (n / Nat.pow 256 i).toUInt8

/-- A message filled up to whole blocks of 64 bytes: one bit, zeros, and its length in bits. -/
def padded (message : List UInt8) : List UInt8 :=
  let length := message.length
  let zeros := (119 - length % 64) % 64
  message ++ 0x80 :: (List.replicate zeros 0 ++ bigEndian 8 (8 * length))

/-- Four bytes at a time as words; fewer than four at the end are left out. -/
def words : List UInt8 → List UInt32
  | a :: b :: c :: d :: rest =>
      (a.toUInt32 <<< 24 ||| b.toUInt32 <<< 16 ||| c.toUInt32 <<< 8 ||| d.toUInt32) :: words rest
  | _ => []

/-- A word turned to the right. -/
def rotate (x : UInt32) (by_ : UInt32) : UInt32 := x >>> by_ ||| x <<< (32 - by_)

/-- The next word of a schedule, given the words before it, the latest first. -/
def nextWord (latestFirst : List UInt32) : UInt32 :=
  let at_ (i : Nat) := latestFirst.getD (i - 1) 0
  let s0 := rotate (at_ 15) 7 ^^^ rotate (at_ 15) 18 ^^^ at_ 15 >>> 3
  let s1 := rotate (at_ 2) 17 ^^^ rotate (at_ 2) 19 ^^^ at_ 2 >>> 10
  at_ 16 + s0 + at_ 7 + s1

/-- The 64 words of a block's schedule. -/
def schedule (block : List UInt32) : List UInt32 :=
  ((List.range 48).foldl (fun latestFirst _ => nextWord latestFirst :: latestFirst)
    block.reverse).reverse

/-- The state after one round. -/
def round (state : List UInt32) (constant word : UInt32) : List UInt32 :=
  match state with
  | [a, b, c, d, e, f, g, h] =>
      let s1 := rotate e 6 ^^^ rotate e 11 ^^^ rotate e 25
      let choice := (e &&& f) ^^^ (~~~e &&& g)
      let t1 := h + s1 + choice + constant + word
      let s0 := rotate a 2 ^^^ rotate a 13 ^^^ rotate a 22
      let majority := (a &&& b) ^^^ (a &&& c) ^^^ (b &&& c)
      [t1 + s0 + majority, a, b, c, d + t1, e, f, g]
  | other => other

/-- The state after one block of sixteen words. -/
def compress (state block : List UInt32) : List UInt32 :=
  let after := (roundConstants.zip (schedule block)).foldl (fun s (k, w) => round s k w) state
  List.zipWith (· + ·) state after

/-- The state after some blocks. Each round takes a block of sixteen words. -/
def compressAll : (fuel : Nat) → List UInt32 → List UInt32 → List UInt32
  | 0, state, _ => state
  | fuel + 1, state, ws =>
      if ws.isEmpty then state else compressAll fuel (compress state (ws.take 16)) (ws.drop 16)

/-! ## Digests -/

/-- The eight words of a message's digest. -/
def digest (message : List UInt8) : List UInt32 :=
  let ws := words (padded message)
  compressAll ws.length initial ws

/-- The eight hexadecimal digits of a word. -/
def hexWord (word : UInt32) : List Char :=
  (List.range 8).reverse.map fun i => Nat.digitChar (word.toNat / Nat.pow 16 i % 16)

/-- A message's digest in hexadecimal. -/
def hexDigest (message : ByteArray) : String :=
  String.ofList ((digest message.data.toList).flatMap hexWord)

end CanvasFlutter.Sha256
