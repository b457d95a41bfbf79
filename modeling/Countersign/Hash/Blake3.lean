import Countersign.Data.Bytes
import Countersign.Data.Split

/-!
# BLAKE3

The hash `Blake3.hash` of a byte string, 32 bytes. A message is cut into chunks of 1024 bytes, a
chunk into blocks of 64; `compress` mixes one block into a chaining value. Chunks are the leaves of
a binary tree, whose levels `pairUp` builds; the topmost node is compressed as the root.
-/

namespace Countersign.Blake3

/-- A state or a message block of sixteen words. -/
abbrev Block := Vector UInt32 16

abbrev Chain := Vector UInt32 8

def iv : Chain :=
  #v[0x6A09E667, 0xBB67AE85, 0x3C6EF372, 0xA54FF53A, 0x510E527F, 0x9B05688C, 0x1F83D9AB, 0x5BE0CD19]

/-! ## Compression -/

def rotateRight (x n : UInt32) : UInt32 := (x >>> n) ||| (x <<< (32 - n))

/-- Mixes two message words into four state words. -/
def mix (v : Block) (a b c d : Fin 16) (x y : UInt32) : Block :=
  let a1 := v[a] + v[b] + x
  let d1 := rotateRight (v[d] ^^^ a1) 16
  let c1 := v[c] + d1
  let b1 := rotateRight (v[b] ^^^ c1) 12
  let a2 := a1 + b1 + y
  let d2 := rotateRight (d1 ^^^ a2) 8
  let c2 := c1 + d2
  let b2 := rotateRight (b1 ^^^ c2) 7
  (((v.set a a2).set b b2).set c c2).set d d2

/-- Mixes a message block into the columns of the state, then into its diagonals. -/
def round (v m : Block) : Block :=
  let v := mix v 0 4 8 12 m[0] m[1]
  let v := mix v 1 5 9 13 m[2] m[3]
  let v := mix v 2 6 10 14 m[4] m[5]
  let v := mix v 3 7 11 15 m[6] m[7]
  let v := mix v 0 5 10 15 m[8] m[9]
  let v := mix v 1 6 11 12 m[10] m[11]
  let v := mix v 2 7 8 13 m[12] m[13]
  mix v 3 4 9 14 m[14] m[15]

/-- The order of the message words in the next round. -/
def permute (m : Block) : Block :=
  #v[m[2], m[6], m[3], m[10], m[7], m[0], m[4], m[13],
     m[1], m[11], m[12], m[5], m[9], m[14], m[15], m[8]]

/-- `n` rounds, the message permuted in between. -/
def rounds : Nat → Block → Block → Block
  | 0, v, _ => v
  | n + 1, v, m => rounds n (round v m) (permute m)

/-- What is compressed: a block, the chaining value before it, its place and its role. -/
structure Node where
  chain : Chain
  block : Block
  counter : UInt64
  length : UInt32
  flags : UInt32
  deriving DecidableEq, Repr

def chunkStart : UInt32 := 1
def chunkEnd : UInt32 := 2
def parent : UInt32 := 4
def root : UInt32 := 8

def Node.compress (n : Node) (extra : UInt32) : Chain :=
  let v : Block :=
    #v[n.chain[0], n.chain[1], n.chain[2], n.chain[3], n.chain[4], n.chain[5], n.chain[6],
       n.chain[7], iv[0], iv[1], iv[2], iv[3], n.counter.toUInt32, (n.counter >>> 32).toUInt32,
       n.length, n.flags ||| extra]
  let w := rounds 7 v n.block
  Vector.ofFn fun i : Fin 8 => w[i.val] ^^^ w[i.val + 8]

/-! ## The tree -/

/-- Up to 64 bytes as words, zeros after the last byte. -/
def blockOfBytes (bs : Bytes) : Block :=
  Vector.ofFn fun i : Fin 16 => UInt32.ofNat (ofLe ((bs.drop (4 * i.val)).take 4))

/-- The last block of a chunk, after its earlier blocks have been compressed. -/
def chunkNode (counter : UInt64) (chain : Chain) (start : UInt32) : List Bytes → Node
  | [] => ⟨chain, blockOfBytes [], counter, 0, start ||| chunkEnd⟩
  | [b] => ⟨chain, blockOfBytes b, counter, UInt32.ofNat b.length, start ||| chunkEnd⟩
  | b :: bs =>
    chunkNode counter (Node.compress ⟨chain, blockOfBytes b, counter, 64, start⟩ 0) 0 bs

def leaf (counter : UInt64) (chunk : Bytes) : Node :=
  chunkNode counter iv chunkStart (chunksOf 64 chunk)

def leaves (counter : UInt64) : List Bytes → List Node
  | [] => []
  | c :: cs => leaf counter c :: leaves (counter + 1) cs

/-- The node above two nodes. -/
def join (l r : Node) : Node := ⟨iv, l.compress 0 ++ r.compress 0, 0, 64, parent⟩

/-- The next level of the tree; a node without partner moves up unchanged. -/
def pairUp : List Node → List Node
  | l :: r :: rest => join l r :: pairUp rest
  | rest => rest

/-- The topmost node over a level, which fewer than `n` levels reach. -/
def top : Nat → List Node → Node
  | _, [] => leaf 0 []
  | 0, l :: _ => l
  | n + 1, l :: ls => if ls.isEmpty then l else top n (pairUp (l :: ls))

def wordBytes (ws : Chain) : FixedBytes 32 :=
  ⟨ws.toList.flatMap fun w => leBytes 4 w.toNat, by
    simp [List.length_flatMap, List.map_const']⟩

def hash (message : Bytes) : FixedBytes 32 :=
  let chunks := chunksOf 1024 message
  wordBytes ((top chunks.length (leaves 0 chunks)).compress root)

end Countersign.Blake3
