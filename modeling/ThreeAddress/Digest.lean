import ThreeAddress.Text

/-!
# BLAKE2b-256

The unkeyed hash with 32 bytes of output. The text is cut into blocks of 128 bytes, the
last one filled up with zeros, and the eight chaining words absorb one block after
another together with the count of bytes read so far.
-/

namespace ThreeAddress.Digest

abbrev Words (n : Nat) := Vector UInt64 n

/-- The words the chaining value starts from. -/
def seed : Words 8 :=
  #v[0x6a09e667f3bcc908, 0xbb67ae8584caa73b, 0x3c6ef372fe94f82b, 0xa54ff53a5f1d36f1,
     0x510e527fade682d1, 0x9b05688c2b3e6c1f, 0x1f83d9abfb41bd6b, 0x5be0cd19137e2179]

/-- The order in which each of the twelve rounds takes the words of the block. -/
def schedule : List (Vector (Fin 16) 16) :=
  [#v[0, 1, 2, 3, 4, 5, 6, 7, 8, 9, 10, 11, 12, 13, 14, 15],
   #v[14, 10, 4, 8, 9, 15, 13, 6, 1, 12, 0, 2, 11, 7, 5, 3],
   #v[11, 8, 12, 0, 5, 2, 15, 13, 10, 14, 3, 6, 7, 1, 9, 4],
   #v[7, 9, 3, 1, 13, 12, 11, 14, 2, 6, 5, 10, 4, 0, 15, 8],
   #v[9, 0, 5, 7, 2, 4, 10, 15, 14, 1, 11, 12, 6, 8, 3, 13],
   #v[2, 12, 6, 10, 0, 11, 8, 3, 4, 13, 7, 5, 15, 14, 1, 9],
   #v[12, 5, 1, 15, 14, 13, 4, 10, 0, 7, 6, 3, 9, 2, 8, 11],
   #v[13, 11, 7, 14, 12, 1, 3, 9, 5, 0, 15, 4, 8, 6, 2, 10],
   #v[6, 15, 14, 9, 11, 3, 0, 8, 12, 2, 13, 7, 1, 4, 10, 5],
   #v[10, 2, 8, 4, 7, 6, 1, 5, 15, 11, 9, 14, 3, 12, 13, 0],
   #v[0, 1, 2, 3, 4, 5, 6, 7, 8, 9, 10, 11, 12, 13, 14, 15],
   #v[14, 10, 4, 8, 9, 15, 13, 6, 1, 12, 0, 2, 11, 7, 5, 3]]

/-- The columns and diagonals a round mixes, in order. -/
def quarters : List (Fin 16 × Fin 16 × Fin 16 × Fin 16) :=
  [(0, 4, 8, 12), (1, 5, 9, 13), (2, 6, 10, 14), (3, 7, 11, 15),
   (0, 5, 10, 15), (1, 6, 11, 12), (2, 7, 8, 13), (3, 4, 9, 14)]

def rotateRight (x : UInt64) (n : UInt64) : UInt64 := (x >>> n) ||| (x <<< (64 - n))

/-- Mixes two words of the block into four words of the state. -/
def mix (v : Words 16) (a b c d : Fin 16) (x y : UInt64) : Words 16 :=
  let v := v.set a (v[a] + v[b] + x)
  let v := v.set d (rotateRight (v[d] ^^^ v[a]) 32)
  let v := v.set c (v[c] + v[d])
  let v := v.set b (rotateRight (v[b] ^^^ v[c]) 24)
  let v := v.set a (v[a] + v[b] + y)
  let v := v.set d (rotateRight (v[d] ^^^ v[a]) 16)
  let v := v.set c (v[c] + v[d])
  v.set b (rotateRight (v[b] ^^^ v[c]) 63)

/-- The round mixes its eight quarters, each with the next two words of the block. -/
def round (block v : Words 16) (order : Vector (Fin 16) 16) : Words 16 :=
  (quarters.zip (List.finRange 8)).foldl (fun v ((a, b, c, d), i) =>
    mix v a b c d block[order[2 * i.val]] block[order[2 * i.val + 1]]) v

/-- Absorbs one block. `count` is the number of bytes read with it. -/
def absorb (h : Words 8) (block : Words 16) (count : Nat) (last : Bool) : Words 8 :=
  let v : Words 16 := h ++ seed
  let v := v.set 12 (v[12] ^^^ UInt64.ofNat count)
  let v := v.set 13 (v[13] ^^^ UInt64.ofNat (count >>> 64))
  let v := if last then v.set 14 (~~~v[14]) else v
  let v := schedule.foldl (round block) v
  Vector.ofFn fun i : Fin 8 => h[i] ^^^ v[i.val] ^^^ v[i.val + 8]

/-- The first eight bytes as a word, the low byte first. Missing bytes count as zero. -/
def wordOf (t : Text) : UInt64 :=
  (t.take 8).foldr (fun b w => w <<< 8 ||| b.toUInt64) 0

/-- The first 128 bytes as words. -/
def blockOf (t : Text) : Words 16 := Vector.ofFn fun i => wordOf (t.drop (8 * i.val))

/-- Absorbs `blocks + 1` blocks, of which the last one may be short. -/
def absorbAll : (blocks : Nat) → (count : Nat) → Words 8 → Text → Words 8
  | 0, count, h, t => absorb h (blockOf t) (count + t.length) true
  | n + 1, count, h, t =>
    absorbAll n (count + 128) (absorb h (blockOf t) (count + 128) false) (t.drop 128)

/-- The eight bytes of a word, the low byte first. -/
def bytesOf (w : UInt64) : Text :=
  (List.range 8).map fun i => (w >>> UInt64.ofNat (8 * i)).toUInt8

/-- The words that a text hashes to. -/
def words (t : Text) : Words 8 :=
  -- the first word also holds the length of the output and the shape of the hash
  let h := seed.set 0 (seed[0] ^^^ 0x01010020)
  absorbAll ((t.length - 1) / 128) 0 h t

end Digest

/-- The BLAKE2b-256 hash of a text, in hexadecimal. -/
def Text.digest (t : Text) : Text :=
  Text.toHex (((Digest.words t).toList.take 4).flatMap Digest.bytesOf)

end ThreeAddress
