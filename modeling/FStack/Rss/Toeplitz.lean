import Mathlib.Data.BitVec

/-!
# The Toeplitz hash

`toeplitz_hash` slides a 32-bit window over the key, one bit for each bit of the
data, and XORs the window into the hash wherever the data bit is set. Key bits
beyond the key length enter the window as zeros.
-/

namespace FStack

/-- Bit `b` of a byte from its most significant end: `byte & (1<<(7-b))`. -/
def msbBit (byte : UInt8) (b : Nat) : Bool := byte.toNat.testBit (7 - b)

/-- A byte of the key array. -/
def keyByte (key : List UInt8) (i : Nat) : UInt8 := key.getD i 0

/-- `default_rsskey_40bytes`. -/
def defaultRsskey40bytes : List UInt8 :=
  [0xd1, 0x81, 0xc6, 0x2c, 0xf7, 0xf4, 0xdb, 0x5b,
   0x19, 0x83, 0xa2, 0xfc, 0x94, 0x3e, 0x1a, 0xdb,
   0xd9, 0x38, 0x9e, 0x6b, 0xd1, 0x03, 0x9c, 0x2c,
   0xa7, 0x44, 0x99, 0xad, 0x59, 0x3d, 0x56, 0xd9,
   0xf3, 0x25, 0x3c, 0x06, 0x2a, 0xdc, 0x1f, 0xfc]

/-- `default_rsskey_52bytes`. -/
def defaultRsskey52bytes : List UInt8 :=
  [0x44, 0x39, 0x79, 0x6b, 0xb5, 0x4c, 0x50, 0x23,
   0xb6, 0x75, 0xea, 0x5b, 0x12, 0x4f, 0x9f, 0x30,
   0xb8, 0xa2, 0xc0, 0x3d, 0xdf, 0xdc, 0x4d, 0x02,
   0xa0, 0x8c, 0x9b, 0x33, 0x4a, 0xf6, 0x4a, 0x4c,
   0x05, 0xc6, 0xfa, 0x34, 0x39, 0x58, 0xd8, 0x55,
   0x7d, 0x99, 0x58, 0x3a, 0xe1, 0x38, 0xc9, 0x2e,
   0x81, 0x15, 0x03, 0x66]

/-- `symmetric_rsskey`. -/
def symmetricRsskey : List UInt8 :=
  [0x6d, 0x5a, 0x6d, 0x5a, 0x6d, 0x5a, 0x6d, 0x5a,
   0x6d, 0x5a, 0x6d, 0x5a, 0x6d, 0x5a, 0x6d, 0x5a,
   0x6d, 0x5a, 0x6d, 0x5a, 0x6d, 0x5a, 0x6d, 0x5a,
   0x6d, 0x5a, 0x6d, 0x5a, 0x6d, 0x5a, 0x6d, 0x5a,
   0x6d, 0x5a, 0x6d, 0x5a, 0x6d, 0x5a, 0x6d, 0x5a,
   0x6d, 0x5a, 0x6d, 0x5a, 0x6d, 0x5a, 0x6d, 0x5a,
   0x6d, 0x5a, 0x6d, 0x5a]

/-- The variables of `toeplitz_hash`: the hash so far and the key window. -/
structure ToeplitzState where
  hash : BitVec 32
  v : BitVec 32
deriving DecidableEq, Repr

/-- The first window: `(key[0]<<24) + (key[1]<<16) + (key[2]<<8) + key[3]`. -/
def toeplitzWindow (key : List UInt8) : BitVec 32 :=
  BitVec.ofNat 32
    ((keyByte key 0).toNat * 2 ^ 24 + (keyByte key 1).toNat * 2 ^ 16 +
      (keyByte key 2).toNat * 2 ^ 8 + (keyByte key 3).toNat)

/-- The body of the inner loop, for bit `b` of data byte `i`. -/
def toeplitzBit (keylen : Nat) (key : List UInt8) (i : Nat) (byte : UInt8) (state : ToeplitzState)
    (b : Nat) : ToeplitzState where
  hash := if msbBit byte b then state.hash ^^^ state.v else state.hash
  v :=
    let v := state.v <<< 1
    if i + 4 < keylen ∧ msbBit (keyByte key (i + 4)) b then v ||| 1 else v

/-- The inner loop. -/
def toeplitzByte (keylen : Nat) (key : List UInt8) (i : Nat) (byte : UInt8)
    (state : ToeplitzState) : ToeplitzState :=
  (List.range 8).foldl (toeplitzBit keylen key i byte) state

/-- The outer loop, from data byte `i` on. -/
def toeplitzLoop (keylen : Nat) (key : List UInt8) : Nat → List UInt8 → ToeplitzState →
    ToeplitzState
  | _, [], state => state
  | i, byte :: rest, state =>
    toeplitzLoop keylen key (i + 1) rest (toeplitzByte keylen key i byte state)

/-- `toeplitz_hash`. -/
def toeplitzHash (keylen : Nat) (key data : List UInt8) : BitVec 32 :=
  (toeplitzLoop keylen key 0 data { hash := 0, v := toeplitzWindow key }).hash

end FStack
