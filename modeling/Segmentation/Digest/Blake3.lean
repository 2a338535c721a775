/-!
# BLAKE3

The BLAKE3 hash with its default length of 32 bytes, over lists of bytes.  The
input is cut into chunks of 1024 bytes and these into blocks of 64; the chunks
are the leaves of a binary tree in which a node with no partner rises unchanged.
-/

namespace Segmentation.Blake3

abbrev Word := UInt32

/-- The state of the compression function: four rows of four words. -/
abbrev State := Vector Word 16

abbrev Block := Vector Word 16

abbrev ChainingValue := Vector Word 8

def initialValue : ChainingValue :=
  #v[0x6a09e667, 0xbb67ae85, 0x3c6ef372, 0xa54ff53a, 0x510e527f, 0x9b05688c, 0x1f83d9ab,
    0x5be0cd19]

def chunkStart : Word := 1
def chunkEnd : Word := 2
def parentNode : Word := 4
def rootNode : Word := 8

def rotateRight (word : Word) (count : Word) : Word :=
  (word >>> count) ||| (word <<< (32 - count))

/-- Mixes two message words into one column or diagonal. -/
def mix (state : State) (a b c d : Fin 16) (x y : Word) : State :=
  let va := state[a] + state[b] + x
  let vd := rotateRight (state[d] ^^^ va) 16
  let vc := state[c] + vd
  let vb := rotateRight (state[b] ^^^ vc) 12
  let va := va + vb + y
  let vd := rotateRight (vd ^^^ va) 8
  let vc := vc + vd
  let vb := rotateRight (vb ^^^ vc) 7
  (((state.set a va).set b vb).set c vc).set d vd

/-- Mixes the columns and then the diagonals. -/
def round (state : State) (m : Block) : State :=
  let state := mix state 0 4 8 12 m[0] m[1]
  let state := mix state 1 5 9 13 m[2] m[3]
  let state := mix state 2 6 10 14 m[4] m[5]
  let state := mix state 3 7 11 15 m[6] m[7]
  let state := mix state 0 5 10 15 m[8] m[9]
  let state := mix state 1 6 11 12 m[10] m[11]
  let state := mix state 2 7 8 13 m[12] m[13]
  mix state 3 4 9 14 m[14] m[15]

/-- The order in which a round takes the words of the block before it. -/
def permute (m : Block) : Block :=
  #v[m[2], m[6], m[3], m[10], m[7], m[0], m[4], m[13], m[1], m[11], m[12], m[5], m[9], m[14],
    m[15], m[8]]

def rounds : Nat → State → Block → State
  | 0, state, _ => state
  | count + 1, state, m => rounds count (round state m) (permute m)

/-- What a node of the tree feeds into its last compression. -/
structure Node where
  input : ChainingValue
  block : Block
  counter : UInt64
  length : Word
  flags : Word

namespace Node

/-- The chaining value of a node, where `extra` are flags besides its own. -/
def value (node : Node) (extra : Word) : ChainingValue :=
  let h := node.input
  let state : State :=
    #v[h[0], h[1], h[2], h[3], h[4], h[5], h[6], h[7], initialValue[0], initialValue[1],
      initialValue[2], initialValue[3], node.counter.toUInt32, (node.counter >>> 32).toUInt32,
      node.length, node.flags ||| extra]
  let out := rounds 7 state node.block
  Vector.ofFn fun (i : Fin 8) => out[i.val] ^^^ out[i.val + 8]

end Node

/-- The word at a place of a block in little-endian order; missing bytes are zero. -/
def wordAt (bytes : List UInt8) (place : Nat) : Word :=
  let byte (i : Nat) : Word := (bytes.getD (4 * place + i) 0).toUInt32
  byte 0 ||| (byte 1 <<< 8) ||| (byte 2 <<< 16) ||| (byte 3 <<< 24)

def blockOf (bytes : List UInt8) : Block :=
  Vector.ofFn fun place => wordAt bytes place.val

/-- A list in parts of `size`, the last one as long as what is left; the empty list
is one empty part.  `count` bounds the number of parts. -/
def parts (size : Nat) : Nat → List UInt8 → List (List UInt8)
  | 0, bytes => [bytes]
  | count + 1, bytes =>
    if bytes.length ≤ size then [bytes]
    else bytes.take size :: parts size count (bytes.drop size)

/-- The node of a chunk from its blocks. -/
def chunkNode (counter : UInt64) : ChainingValue → Word → List (List UInt8) → Node
  | input, start, [] => ⟨input, blockOf [], counter, 0, start ||| chunkEnd⟩
  | input, start, [block] =>
    ⟨input, blockOf block, counter, UInt32.ofNat block.length, start ||| chunkEnd⟩
  | input, start, block :: rest =>
    let node : Node := ⟨input, blockOf block, counter, 64, start⟩
    chunkNode counter (node.value 0) 0 rest

def leaf (chunk : List UInt8) (counter : Nat) : Node :=
  chunkNode (UInt64.ofNat counter) initialValue chunkStart (parts 64 16 chunk)

def parent (left right : Node) : Node :=
  ⟨initialValue, (left.value 0 ++ right.value 0 : Vector Word 16), 0, 64, parentNode⟩

/-- One level of the tree: neighbours are joined, and a last node without one rises. -/
def pairUp : List Node → List Node
  | left :: right :: rest => parent left right :: pairUp rest
  | nodes => nodes

/-- The root over a row of nodes, after at most `height` levels. -/
def rootOf : Nat → List Node → Option Node
  | _, [] => none
  | _, [node] => some node
  | 0, _ :: _ :: _ => none
  | height + 1, nodes => rootOf height (pairUp nodes)

def bytesOf (word : Word) : List UInt8 :=
  [word.toUInt8, (word >>> 8).toUInt8, (word >>> 16).toUInt8, (word >>> 24).toUInt8]

/-- The 32 bytes of the hash. -/
def hash (input : List UInt8) : List UInt8 :=
  let leaves := (parts 1024 input.length input).mapIdx fun counter chunk => leaf chunk counter
  match rootOf leaves.length leaves with
  | none => []
  | some root => (root.value rootNode).toList.flatMap bytesOf

/-- Bytes in hexadecimal digits, two for each. -/
def hex (bytes : List UInt8) : String :=
  String.ofList (bytes.flatMap fun byte =>
    [Nat.digitChar (byte.toNat / 16), Nat.digitChar (byte.toNat % 16)])

end Segmentation.Blake3
