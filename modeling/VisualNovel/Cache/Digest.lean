/-!
This module contains the BLAKE3 digest. A message is cut into chunks of 1024 bytes and a chunk into blocks of
64 bytes, the leaves of a binary tree whose nodes are all compressed by one function of 16 words.
-/

namespace VisualNovel
namespace Digest

def initial : Vector UInt32 8 :=
  #v[0x6a09e667, 0xbb67ae85, 0x3c6ef372, 0xa54ff53a, 0x510e527f, 0x9b05688c, 0x1f83d9ab, 0x5be0cd19]

/--
The order of the message words after a round.
-/
def permutation : Vector (Fin 16) 16 :=
  #v[2, 6, 3, 10, 7, 0, 4, 13, 1, 11, 12, 5, 9, 14, 15, 8]

def rotateRight (x : UInt32) (n : UInt32) : UInt32 :=
  (x >>> n) ||| (x <<< (32 - n))

/--
Mixes two message words into four words of the state.
-/
def quarter (a b c d : Fin 16) (x y : UInt32) (s : Vector UInt32 16) : Vector UInt32 16 :=
  let sa := s[a] + s[b] + x
  let sd := rotateRight (s[d] ^^^ sa) 16
  let sc := s[c] + sd
  let sb := rotateRight (s[b] ^^^ sc) 12
  let sa := sa + sb + y
  let sd := rotateRight (sd ^^^ sa) 8
  let sc := sc + sd
  let sb := rotateRight (sb ^^^ sc) 7
  (((s.set a sa).set b sb).set c sc).set d sd

/--
Mixes the columns of the state, and then its diagonals.
-/
def round (m s : Vector UInt32 16) : Vector UInt32 16 :=
  let s := quarter 0 4 8 12 m[0] m[1] s
  let s := quarter 1 5 9 13 m[2] m[3] s
  let s := quarter 2 6 10 14 m[4] m[5] s
  let s := quarter 3 7 11 15 m[6] m[7] s
  let s := quarter 0 5 10 15 m[8] m[9] s
  let s := quarter 1 6 11 12 m[10] m[11] s
  let s := quarter 2 7 8 13 m[12] m[13] s
  quarter 3 4 9 14 m[14] m[15] s

def rounds : Nat → Vector UInt32 16 → Vector UInt32 16 → Vector UInt32 16
  | 0, _, s => s
  | n + 1, m, s => rounds n (permutation.map (m[·])) (round m s)

/--
A node of the tree, before it is compressed.
-/
structure Node where
  chain : Vector UInt32 8
  block : Vector UInt32 16
  counter : UInt64 := 0
  length : UInt32 := 64
  flags : UInt32

def chunkStart : UInt32 := 1
def chunkEnd : UInt32 := 2
def parentFlag : UInt32 := 4
def rootFlag : UInt32 := 8

/--
The first half of the compressed words.
-/
def Node.compress (n : Node) : Vector UInt32 8 :=
  let tail : Vector UInt32 4 := #v[n.counter.toUInt32, (n.counter >>> 32).toUInt32, n.length, n.flags]
  let s := rounds 7 n.block (n.chain ++ (initial.take 4 ++ tail))
  (s.take 8).zipWith (· ^^^ ·) (s.drop 8)

/--
The words of a node of which the first half is mixed with the second.
-/
def Node.state (n : Node) : Vector UInt32 16 :=
  let tail : Vector UInt32 4 := #v[n.counter.toUInt32, (n.counter >>> 32).toUInt32, n.length, n.flags]
  rounds 7 n.block (n.chain ++ (initial.take 4 ++ tail))

theorem Node.compress_zero (n : Node) : n.compress[0] = n.state[0] ^^^ n.state[8] := by
  have hcompress : n.compress = (n.state.take 8).zipWith (· ^^^ ·) (n.state.drop 8) := rfl
  rw [hcompress]
  generalize n.state = s
  have hfirst : (s.take 8)[0] = s[0] := Vector.getElem_take ..
  have hsecond : (s.drop 8)[0] = s[8] := Vector.getElem_drop ..
  rw [Vector.getElem_zipWith, hfirst, hsecond]

def word (a b c d : UInt8) : UInt32 :=
  a.toUInt32 ||| (b.toUInt32 <<< 8) ||| (c.toUInt32 <<< 16) ||| (d.toUInt32 <<< 24)

/--
The words of a block, least significant bytes first. Missing bytes count as zero.
-/
def words (bytes : List UInt8) : Vector UInt32 16 :=
  let bytes := bytes.toArray
  Vector.ofFn fun i =>
    let byte (k : Nat) := bytes.getD (4 * i.val + k) 0
    word (byte 0) (byte 1) (byte 2) (byte 3)

/--
The last block of a chunk. The blocks before it are compressed one after another.
-/
def chunk (index : Nat) (chain : Vector UInt32 8) (flags : UInt32) (bytes : List UInt8) : Node :=
  if bytes.length ≤ 64 then
    { chain, block := words bytes, counter := index.toUInt64, length := bytes.length.toUInt32
      flags := flags ||| chunkEnd }
  else
    let node : Node := { chain, block := words (bytes.take 64), counter := index.toUInt64, flags }
    chunk index node.compress 0 (bytes.drop 64)
termination_by bytes.length

def parentNode (left right : Node) : Node :=
  { chain := initial, block := left.compress ++ right.compress, flags := parentFlag }

/--
The number of chunks on the left side of the tree: the largest power of two that leaves something to the
right.
-/
def leftChunks (length : Nat) : Nat :=
  Nat.pow 2 ((length - 1) / 1024).log2

theorem leftChunks_lt {length : Nat} (h : 1024 < length) : 1024 * leftChunks length < length := by
  have : Nat.pow 2 ((length - 1) / 1024).log2 ≤ (length - 1) / 1024 := Nat.log2_self_le (by omega)
  unfold leftChunks
  omega

theorem leftChunks_pos (length : Nat) : 0 < leftChunks length :=
  Nat.two_pow_pos _

/--
The top of the tree over a message whose first chunk has the given number.
-/
def tree (index : Nat) (bytes : List UInt8) : Node :=
  if bytes.length ≤ 1024 then
    chunk index initial chunkStart bytes
  else
    let count := leftChunks bytes.length
    parentNode (tree index (bytes.take (1024 * count))) (tree (index + count) (bytes.drop (1024 * count)))
termination_by bytes.length
decreasing_by
  all_goals
    have := @leftChunks_lt bytes.length (by omega)
    have := leftChunks_pos bytes.length
    simp
    omega

def hexByte (n : UInt32) : List Char :=
  let n := n.toNat % 256
  [Nat.digitChar (n / 16), Nat.digitChar (n % 16)]

def hexWord (w : UInt32) : List Char :=
  hexByte w ++ hexByte (w >>> 8) ++ hexByte (w >>> 16) ++ hexByte (w >>> 24)

/--
The first 16 bytes of the digest in hexadecimal digits.
-/
def hex (bytes : List UInt8) : String :=
  let root := tree 0 bytes
  let out := { root with flags := root.flags ||| rootFlag }.compress
  String.ofList ((out.take 4).toList.flatMap hexWord)

end Digest
end VisualNovel
