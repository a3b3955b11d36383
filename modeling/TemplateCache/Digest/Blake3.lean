/-!
# BLAKE3

The hash of a byte sequence: chunks of sixteen blocks are compressed one block after another, and
the chaining values of chunks are joined in pairs, the left subtree holding the largest power of
two of chunks that leaves some for the right.
-/

namespace TemplateCache.Blake3

abbrev Words := List UInt32

def initial : Words :=
  [0x6a09e667, 0xbb67ae85, 0x3c6ef372, 0xa54ff53a, 0x510e527f, 0x9b05688c, 0x1f83d9ab, 0x5be0cd19]

/-- How the words of a block are reordered after each round. -/
def permutation : List Nat := [2, 6, 3, 10, 7, 0, 4, 13, 1, 11, 12, 5, 9, 14, 15, 8]

def chunkStart : UInt32 := 1
def chunkEnd : UInt32 := 2
def parent : UInt32 := 4
def root : UInt32 := 8

def blockBytes : Nat := 64
def chunkBytes : Nat := 1024

def rotateRight (w : UInt32) (n : UInt32) : UInt32 := (w >>> n) ||| (w <<< (32 - n))

def word (ws : Words) (i : Nat) : UInt32 := ws.getD i 0

/-- Mixes two words of a message into four words of the state. -/
def mix (s : Words) (a b c d : Nat) (x y : UInt32) : Words :=
  let va := word s a + word s b + x
  let vd := rotateRight (word s d ^^^ va) 16
  let vc := word s c + vd
  let vb := rotateRight (word s b ^^^ vc) 12
  let va := va + vb + y
  let vd := rotateRight (vd ^^^ va) 8
  let vc := vc + vd
  let vb := rotateRight (vb ^^^ vc) 7
  (((s.set a va).set b vb).set c vc).set d vd

/-- The quarters of a round: the columns of the state, then its diagonals. -/
def quarters : List (Nat × Nat × Nat × Nat) :=
  [(0, 4, 8, 12), (1, 5, 9, 13), (2, 6, 10, 14), (3, 7, 11, 15),
    (0, 5, 10, 15), (1, 6, 11, 12), (2, 7, 8, 13), (3, 4, 9, 14)]

def round (s message : Words) : Words :=
  quarters.zipIdx.foldl (fun s ((a, b, c, d), i) =>
    mix s a b c d (word message (2 * i)) (word message (2 * i + 1))) s

def permute (message : Words) : Words := permutation.map (word message)

/-- Applies rounds, reordering the message between them. -/
def rounds : Nat → Words → Words → Words
  | 0, s, _ => s
  | n + 1, s, message => rounds n (round s message) (permute message)

/-- Compresses a block into a chaining value. -/
def compress (chaining message : Words) (counter : UInt64) (length flags : UInt32) : Words :=
  let s := chaining ++ initial.take 4 ++
    [counter.toUInt32, (counter >>> 32).toUInt32, length, flags]
  let out := rounds 7 s message
  (out.take 8).zipWith (· ^^^ ·) (out.drop 8)

/-- Four bytes, the lowest first. -/
def littleEndian (bytes : List UInt8) : UInt32 :=
  bytes.foldr (fun b w => w * 256 + b.toUInt32) 0

/-- The words of a block, padded with zeros. -/
def blockWords (block : List UInt8) : Words :=
  (List.range 16).map fun i => littleEndian ((block.drop (4 * i)).take 4)

/-- Compresses the blocks of a chunk; `last` is added to the flags of the last one. -/
def compressBlocks (counter : UInt64) (last : UInt32) :
    (fuel : Nat) → (flags : UInt32) → Words → List UInt8 → Words
  | 0, _, chaining, _ => chaining
  | fuel + 1, flags, chaining, bytes =>
    if bytes.length ≤ blockBytes then
      compress chaining (blockWords bytes) counter bytes.length.toUInt32
        (flags ||| chunkEnd ||| last)
    else
      let next := compress chaining (blockWords (bytes.take blockBytes)) counter 64 flags
      compressBlocks counter last fuel 0 next (bytes.drop blockBytes)

def chunkValue (counter : Nat) (last : UInt32) (bytes : List UInt8) : Words :=
  compressBlocks counter.toUInt64 last 16 chunkStart initial bytes

/-- How many of `n` chunks go to the left, for more than one. -/
def leftChunks (n : Nat) : Nat := Nat.pow 2 (n - 1).log2

/-- The chaining value of a tree of chunks; `last` is added to the flags at its top. -/
def treeValue : (fuel : Nat) → (counter : Nat) → (last : UInt32) → List UInt8 → Words
  | 0, counter, last, bytes => chunkValue counter last bytes
  | fuel + 1, counter, last, bytes =>
    if bytes.length ≤ chunkBytes then chunkValue counter last bytes
    else
      let left := leftChunks ((bytes.length + chunkBytes - 1) / chunkBytes)
      let a := treeValue fuel counter 0 (bytes.take (left * chunkBytes))
      let b := treeValue fuel (counter + left) 0 (bytes.drop (left * chunkBytes))
      compress initial (a ++ b) 0 64 (parent ||| last)

def hexDigits (n count : Nat) : List Char :=
  let digits := Nat.toDigits 16 n
  List.replicate (count - digits.length) '0' ++ digits

/-- The bytes of a word, the lowest first, as hexadecimal digits. -/
def wordHex (w : UInt32) : List Char :=
  [w, w >>> 8, w >>> 16, w >>> 24].flatMap fun v => hexDigits (v &&& 0xff).toNat 2

/-- The 256-bit hash as hexadecimal digits. -/
def hex (bytes : List UInt8) : List Char :=
  (treeValue bytes.length 0 root bytes).flatMap wordHex

end TemplateCache.Blake3
