import Fillout.Bytes

set_option autoImplicit false

/-! # BLAKE3

The BLAKE3 digest of a byte string, without a key and with 32 bytes of output.

The bytes are cut into chunks of 1024, the chunks into blocks of 64. The compression function turns
a block and the eight words that came out of the block before it into eight new words. The results
of the chunks are joined in pairs by a binary tree, in which every left part is a full tree of
chunks; the last compression of all is marked as the root.
-/

namespace Fillout

namespace Blake3

/-- The words that a compression hands on. -/
abbrev Chain := Vector UInt32 8

/-- The words of a message block, or the working state of a compression. -/
abbrev Block := Vector UInt32 16

/-- The words that every chunk and every inner node starts with. -/
def initial : Chain :=
  #v[0x6A09E667, 0xBB67AE85, 0x3C6EF372, 0xA54FF53A,
    0x510E527F, 0x9B05688C, 0x1F83D9AB, 0x5BE0CD19]

/-- The place from which each word of a message comes in the next round. -/
def permutation : Vector (Fin 16) 16 := #v[2, 6, 3, 10, 7, 0, 4, 13, 1, 11, 12, 5, 9, 14, 15, 8]

/-- The mark of the first block of a chunk. -/
def chunkStart : UInt32 := 1

/-- The mark of the last block of a chunk. -/
def chunkEnd : UInt32 := 2

/-- The mark of an inner node. -/
def parent : UInt32 := 4

/-- The mark of the last compression. -/
def root : UInt32 := 8

/-! ## Compression -/

/-- Rotates a word to the right by `n` bits, of which there are 1 to 31. -/
def rotateRight (x n : UInt32) : UInt32 := (x >>> n) ||| (x <<< (32 - n))

/-- Mixes two words of the message into four words of the state. -/
def mix (s : Block) (a b c d : Fin 16) (x y : UInt32) : Block :=
  let s := s.set a (s[a] + s[b] + x)
  let s := s.set d (rotateRight (s[d] ^^^ s[a]) 16)
  let s := s.set c (s[c] + s[d])
  let s := s.set b (rotateRight (s[b] ^^^ s[c]) 12)
  let s := s.set a (s[a] + s[b] + y)
  let s := s.set d (rotateRight (s[d] ^^^ s[a]) 8)
  let s := s.set c (s[c] + s[d])
  s.set b (rotateRight (s[b] ^^^ s[c]) 7)

/-- One round: the columns of the state, then its diagonals. -/
def round (s m : Block) : Block :=
  let s := mix s 0 4 8 12 m[0] m[1]
  let s := mix s 1 5 9 13 m[2] m[3]
  let s := mix s 2 6 10 14 m[4] m[5]
  let s := mix s 3 7 11 15 m[6] m[7]
  let s := mix s 0 5 10 15 m[8] m[9]
  let s := mix s 1 6 11 12 m[10] m[11]
  let s := mix s 2 7 8 13 m[12] m[13]
  mix s 3 4 9 14 m[14] m[15]

/-- The message of the next round. -/
def permute (m : Block) : Block := permutation.map fun i => m[i]

/-- `n` rounds, each with the message permuted once more. -/
def rounds : (n : Nat) → Block → Block → Block
  | 0, s, _ => s
  | n + 1, s, m => rounds n (round s m) (permute m)

/-- Compresses a block that holds `length` bytes of the chunk number `counter`. -/
def compress (chain : Chain) (block : Block) (counter length : Nat) (marks : UInt32) : Chain :=
  let start : Block :=
    #v[chain[0], chain[1], chain[2], chain[3], chain[4], chain[5], chain[6], chain[7],
      initial[0], initial[1], initial[2], initial[3],
      UInt32.ofNat counter, UInt32.ofNat (counter / 2 ^ 32), UInt32.ofNat length, marks]
  let s := rounds 7 start block
  #v[s[0] ^^^ s[8], s[1] ^^^ s[9], s[2] ^^^ s[10], s[3] ^^^ s[11],
    s[4] ^^^ s[12], s[5] ^^^ s[13], s[6] ^^^ s[14], s[7] ^^^ s[15]]

/-! ## Chunks -/

/-- The words of at most 64 bytes; missing bytes are zero. -/
def blockOfBytes (b : Bytes) : Block :=
  Vector.ofFn fun i => UInt32.ofNat (Bytes.ofLittleEndian ((b.drop (4 * i)).take 4))

/-- The bytes of the words of a chain, the lowest byte of each word first. -/
def bytesOfChain (chain : Chain) : Bytes :=
  chain.toList.flatMap fun w => Bytes.littleEndian 4 w.toNat

theorem length_bytesOfChain (chain : Chain) : (bytesOfChain chain).length = 32 := by
  have h : ∀ ws : List UInt32,
      (ws.flatMap fun w => Bytes.littleEndian 4 w.toNat).length = 4 * ws.length := by
    intro ws
    induction ws with
    | nil => rfl
    | cons w ws ih =>
      rw [List.flatMap_cons, List.length_append, ih, Bytes.length_littleEndian, List.length_cons]
      omega
  simp [bytesOfChain, h]

/-- Compresses the blocks of a chunk, from a given chain on. The marks in `first` are for the first
of the blocks, those in `last` for the last one. -/
def compressBlocks (counter : Nat) (first last : UInt32) (chain : Chain) (b : Bytes) : Chain :=
  if b.length ≤ 64 then compress chain (blockOfBytes b) counter b.length (first ||| last)
  else
    compressBlocks counter 0 last (compress chain (blockOfBytes (b.take 64)) counter 64 first)
      (b.drop 64)
termination_by b.length
decreasing_by
  rw [List.length_drop]
  omega

/-- The result of a chunk. `marks` are further marks for its last block. -/
def chunk (counter : Nat) (marks : UInt32) (b : Bytes) : Chain :=
  compressBlocks counter chunkStart (chunkEnd ||| marks) initial b

/-! ## The tree -/

/-- The number of bytes in the left part of a tree over `n` bytes: as many chunks as possible, in a
number that is a power of two, so that something is left for the right part. -/
def leftLength (n : Nat) : Nat := 1024 * 2 ^ ((n - 1) / 1024).log2

theorem leftLength_pos (n : Nat) : 0 < leftLength n :=
  Nat.mul_pos (by decide) (Nat.two_pow_pos _)

theorem leftLength_lt {n : Nat} (h : 1024 < n) : leftLength n < n := by
  have := Nat.log2_self_le (n := (n - 1) / 1024) (by omega)
  unfold leftLength
  omega

/-- The result of the tree over bytes whose first chunk has the number `counter`. `marks` are
further marks for its last compression. -/
def tree (counter : Nat) (marks : UInt32) (b : Bytes) : Chain :=
  if _h : b.length ≤ 1024 then chunk counter marks b
  else
    let n := leftLength b.length
    let left := tree counter 0 (b.take n)
    let right := tree (counter + n / 1024) 0 (b.drop n)
    compress initial (left ++ right) 0 64 (parent ||| marks)
termination_by b.length
decreasing_by
  · have := leftLength_lt (Nat.lt_of_not_le _h)
    rw [List.length_take]
    omega
  · have := leftLength_pos b.length
    rw [List.length_drop]
    omega

/-- The digest of a byte string. -/
def hash (b : Bytes) : Bytes := bytesOfChain (tree 0 root b)

@[simp] theorem length_hash (b : Bytes) : (hash b).length = 32 := length_bytesOfChain _

end Blake3

end Fillout
