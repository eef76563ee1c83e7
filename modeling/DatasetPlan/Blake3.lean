/-! The BLAKE3 hash function, in its plain mode and with its default output of 32 bytes. -/

namespace DatasetPlan.Blake3

abbrev ChainingValue := Vector UInt32 8

abbrev Block := Vector UInt32 16

def initial : ChainingValue :=
  #v[0x6A09E667, 0xBB67AE85, 0x3C6EF372, 0xA54FF53A, 0x510E527F, 0x9B05688C, 0x1F83D9AB, 0x5BE0CD19]

def permutation : Vector (Fin 16) 16 :=
  #v[2, 6, 3, 10, 7, 0, 4, 13, 1, 11, 12, 5, 9, 14, 15, 8]

def chunkStart : UInt32 := 1
def chunkEnd : UInt32 := 2
def parent : UInt32 := 4
def root : UInt32 := 8

def chunkBytes : Nat := 1024
def blockBytes : Nat := 64

def rotateRight (word count : UInt32) : UInt32 :=
  (word >>> count) ||| (word <<< (32 - count))

def quarter (v : Block) (a b c d : Fin 16) (x y : UInt32) : Block :=
  let va := v[a] + v[b] + x
  let vd := rotateRight (v[d] ^^^ va) 16
  let vc := v[c] + vd
  let vb := rotateRight (v[b] ^^^ vc) 12
  let va := va + vb + y
  let vd := rotateRight (vd ^^^ va) 8
  let vc := vc + vd
  let vb := rotateRight (vb ^^^ vc) 7
  (((v.set a va).set b vb).set c vc).set d vd

def round (v m : Block) : Block :=
  let v := quarter v 0 4 8 12 m[0] m[1]
  let v := quarter v 1 5 9 13 m[2] m[3]
  let v := quarter v 2 6 10 14 m[4] m[5]
  let v := quarter v 3 7 11 15 m[6] m[7]
  let v := quarter v 0 5 10 15 m[8] m[9]
  let v := quarter v 1 6 11 12 m[10] m[11]
  let v := quarter v 2 7 8 13 m[12] m[13]
  quarter v 3 4 9 14 m[14] m[15]

/-- Each round but the first sees the message words permuted once more. -/
def rounds : Nat → Block → Block → Block
  | 0, v, _ => v
  | n + 1, v, m => rounds n (round v m) (permutation.map fun i => m[i])

def compress (cv : ChainingValue) (block : Block) (counter : UInt64) (length flags : UInt32) :
    ChainingValue :=
  let state : Block := #v[cv[0], cv[1], cv[2], cv[3], cv[4], cv[5], cv[6], cv[7],
    initial[0], initial[1], initial[2], initial[3],
    counter.toUInt32, (counter >>> 32).toUInt32, length, flags]
  let v := rounds 7 state block
  Vector.ofFn fun i : Fin 8 => v[i.val] ^^^ v[i.val + 8]

def byteAt (input : ByteArray) (i : Nat) : UInt32 :=
  if h : i < input.size then input[i].toUInt32 else 0

def wordAt (input : ByteArray) (i : Nat) : UInt32 :=
  byteAt input i ||| (byteAt input (i + 1) <<< 8) ||| (byteAt input (i + 2) <<< 16) |||
    (byteAt input (i + 3) <<< 24)

def blockAt (input : ByteArray) (start : Nat) : Block :=
  Vector.ofFn fun i : Fin 16 => wordAt input (start + 4 * i.val)

/-- The number of parts of `size` bytes; an empty input has one empty part. -/
def parts (length size : Nat) : Nat :=
  max 1 ((length + size - 1) / size)

/-- The value of one chunk; `last` is added to the flags of its last block. -/
def chunk (input : ByteArray) (number : Nat) (last : UInt32) : ChainingValue :=
  let start := number * chunkBytes
  let length := min chunkBytes (input.size - start)
  let blocks := parts length blockBytes
  (List.range blocks).foldl (fun cv k =>
    compress cv (blockAt input (start + k * blockBytes)) number.toUInt64
      (min blockBytes (length - k * blockBytes)).toUInt32
      ((if k = 0 then chunkStart else 0) ||| (if k + 1 = blocks then chunkEnd ||| last else 0)))
    initial

def join (left right : ChainingValue) (flags : UInt32) : ChainingValue :=
  compress initial (left ++ right) 0 blockBytes.toUInt32 (parent ||| flags)

/-- Neighbours are joined in pairs; a value without a neighbour moves up as it is. -/
def joinPairs : List ChainingValue → List ChainingValue
  | left :: right :: rest => join left right 0 :: joinPairs rest
  | rest => rest

theorem length_joinPairs_le : (cvs : List ChainingValue) → (joinPairs cvs).length ≤ cvs.length
  | [] => Nat.le_refl _
  | [_] => Nat.le_refl _
  | _ :: _ :: rest => by
      have := length_joinPairs_le rest
      simp only [joinPairs, List.length_cons]
      omega

def joinAll : List ChainingValue → ChainingValue
  | [] => initial
  | [value] => value
  | [left, right] => join left right root
  | left :: right :: third :: rest =>
      joinAll (join left right 0 :: joinPairs (third :: rest))
termination_by cvs => cvs.length
decreasing_by
  have := length_joinPairs_le (third :: rest)
  simp only [List.length_cons] at *
  omega

def digest (input : ByteArray) : ChainingValue :=
  match parts input.size chunkBytes with
  | 1 => chunk input 0 root
  | n => joinAll ((List.range n).map fun number => chunk input number 0)

def byteHex (byte : UInt32) : String :=
  String.ofList [Nat.digitChar (byte.toNat / 16 % 16), Nat.digitChar (byte.toNat % 16)]

def wordHex (word : UInt32) : String :=
  byteHex word ++ byteHex (word >>> 8) ++ byteHex (word >>> 16) ++ byteHex (word >>> 24)

def hex (value : ChainingValue) : String :=
  String.join (value.toList.map wordHex)

end DatasetPlan.Blake3
