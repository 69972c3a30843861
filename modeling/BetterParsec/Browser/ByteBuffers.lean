import BetterParsec.Browser.Channels
import BetterParsec.Library.Utf16

set_option autoImplicit false
set_option linter.all false

/-!
# The byte buffer of the browser

`ByteBuffer` of `web/stream/buffer.ts` over an array that may be a view into a longer
one.  `useDataView` and the readers address the memory below the view, `set` and
`subarray` the view itself.
-/

namespace BetterParsec

open LittleEndian (overwrite slice take_overwrite length_overwrite)
open BrowserInput (encodeInto textDecode utf16Length utf16Size)

namespace BrowserBuffer

-- `memory` are the bytes of its `ArrayBuffer`.
structure Uint8Array where
  memory : List UInt8
  byteOffset : Nat
  length : Nat
  inside : byteOffset + length ≤ memory.length

namespace Uint8Array

def new (length : Nat) : Uint8Array :=
  ⟨List.replicate length 0, 0, length, by rw [List.length_replicate, Nat.zero_add]⟩

def bytes (array : Uint8Array) : List UInt8 := slice array.memory array.byteOffset array.length

-- An array of its own with the bytes of this one.
def copy (array : Uint8Array) : Uint8Array where
  memory := array.bytes
  byteOffset := 0
  length := array.length
  inside := by
    have inside := array.inside
    rw [bytes, LittleEndian.length_slice _ _ _ inside, Nat.zero_add]

-- Both ends are cut to the array.
def subarray (array : Uint8Array) (first last : Nat) : List UInt8 :=
  (array.bytes.take last).drop first

-- Bytes at a place of the memory.
def store (array : Uint8Array) (first : Nat) (field : List UInt8) : Uint8Array :=
  if fits : first + field.length ≤ array.memory.length then
    { array with
      memory := overwrite array.memory first field
      inside := by rw [length_overwrite _ _ _ fits]; exact array.inside }
  else array

end Uint8Array

-- What `setUint8` to `setUint32` store.
def fieldOf (littleEndian : Bool) (width n : Nat) : List UInt8 :=
  if littleEndian then LittleEndian.bytes width n else BigEndian.bytes width n

structure ByteBuffer where
  position : Nat
  limit : Nat
  littleEndian : Bool
  buffer : Uint8Array

namespace ByteBuffer

def new (length : Nat) (littleEndian : Bool) : ByteBuffer :=
  ⟨0, length, littleEndian, Uint8Array.new length⟩

-- The constructor over an array.
def overArray (value : Uint8Array) (littleEndian : Bool) : ByteBuffer :=
  ⟨0, value.length, littleEndian, value⟩

def bytesUsed (b : ByteBuffer) (amount : Nat) (reading : Bool) : Except String ByteBuffer :=
  let b := { b with position := b.position + amount }
  if reading ∧ b.position > b.limit then .error "failed to read over the limit" else .ok b

-- The view is the place in the memory where it begins.
def useDataView (b : ByteBuffer) (length : Nat) (reading : Bool) (index : Option Nat) :
    Except String (ByteBuffer × Nat) :=
  let position := index.getD b.position
  let maxPosition := position + length
  if maxPosition > b.buffer.length then .error "failed to write over the capacity"
  else do
    let b := { b with limit := if maxPosition > b.limit then maxPosition else b.limit }
    let b ← if index.isNone then b.bytesUsed length reading else pure b
    pure (b, position)

def set (b : ByteBuffer) (place : Nat) (field : List UInt8) : ByteBuffer :=
  { b with buffer := b.buffer.store place field }

-- An index of zero is falsy, but it is not null.
def putU8Array (b : ByteBuffer) (data : List UInt8) (index : Option Nat) :
    Except String ByteBuffer :=
  let position := match index with
    | some (index + 1) => index + 1
    | _ => b.position
  let maxPosition := position + data.length
  if maxPosition > b.buffer.length then .error "failed to write over the capacity"
  else
    let b := { b with limit := if maxPosition > b.limit then maxPosition else b.limit }
    let b := b.set (b.buffer.byteOffset + position) data
    if index.isNone then b.bytesUsed data.length false else .ok b

-- The integers of one width: `useDataView`, then the field at its place.
def putField (b : ByteBuffer) (field : List UInt8) (index : Option Nat) :
    Except String ByteBuffer := do
  let (b, view) ← b.useDataView field.length false index
  pure (b.set view field)

def putU8 (b : ByteBuffer) (data : UInt8) (index : Option Nat) : Except String ByteBuffer :=
  b.putField [data] index

def putBool (b : ByteBuffer) (data : Bool) : Except String ByteBuffer :=
  b.putU8 (if data then 1 else 0) none

def putI8 (b : ByteBuffer) (data : Int8) (index : Option Nat) : Except String ByteBuffer :=
  b.putField [data.toUInt8] index

def putU16 (b : ByteBuffer) (data : UInt16) (index : Option Nat) : Except String ByteBuffer :=
  b.putField (fieldOf b.littleEndian 2 data.toNat) index

def putI16 (b : ByteBuffer) (data : Int16) (index : Option Nat) : Except String ByteBuffer :=
  b.putField (fieldOf b.littleEndian 2 data.toUInt16.toNat) index

def putU32 (b : ByteBuffer) (data : UInt32) (index : Option Nat) : Except String ByteBuffer :=
  b.putField (fieldOf b.littleEndian 4 data.toNat) index

-- `setInt32` is called without the endianness.
def putI32 (b : ByteBuffer) (data : Int32) (index : Option Nat) : Except String ByteBuffer :=
  b.putField (fieldOf false 4 data.toUInt32.toNat) index

-- `useDataView` has counted the bytes, and they are counted again.
def putU64 (b : ByteBuffer) (data : UInt64) (index : Option Nat) : Except String ByteBuffer := do
  let hi := data.toNat / 0x100000000
  let lo := data.toNat % 0x100000000
  let (b, view) ← b.useDataView 8 false index
  let b :=
    if b.littleEndian then (b.set view (fieldOf true 4 lo)).set (view + 4) (fieldOf true 4 hi)
    else (b.set view (fieldOf false 4 hi)).set (view + 4) (fieldOf false 4 lo)
  b.bytesUsed 8 false

-- A text is its code units; `encodeInto` says how many it read.
def putUtf8Raw (b : ByteBuffer) (text : List UInt16) : Except String ByteBuffer := do
  let result := encodeInto (Utf16.decode text) (b.buffer.length - b.position)
  let b := b.set (b.buffer.byteOffset + b.position) result.2
  let b ← b.bytesUsed result.2.length false
  if result.1 ≠ text.length then .error "failed to put utf8 text" else .ok b

-- The number as the bits of its single precision.
def putF32 (b : ByteBuffer) (data : UInt32) : Except String ByteBuffer :=
  if b.position + 4 > b.buffer.memory.length then .error "RangeError"
  else
    let b := b.set b.position (fieldOf b.littleEndian 4 data.toNat)
    b.bytesUsed 4 false

-- Into a fresh array of this length.
def get (b : ByteBuffer) (length : Nat) : Except String (List UInt8 × ByteBuffer) := do
  let data := b.buffer.subarray b.position (b.position + length)
  let b ← b.bytesUsed length true
  pure (overwrite (List.replicate length 0) 0 data, b)

-- `getUint8` to `getUint32`, big-endian, and behind the memory an error.
def getUint (b : ByteBuffer) (width : Nat) : Except String (Nat × ByteBuffer) :=
  if b.position + width > b.buffer.memory.length then .error "RangeError"
  else do
    let byte := BigEndian.value (slice b.buffer.memory b.position width)
    let b ← b.bytesUsed width true
    pure (byte, b)

def getU8 (b : ByteBuffer) : Except String (UInt8 × ByteBuffer) := do
  let (byte, b) ← b.getUint 1
  pure (UInt8.ofNat byte, b)

def getU16 (b : ByteBuffer) : Except String (UInt16 × ByteBuffer) := do
  let (byte, b) ← b.getUint 2
  pure (UInt16.ofNat byte, b)

def getU32 (b : ByteBuffer) : Except String (UInt32 × ByteBuffer) := do
  let (byte, b) ← b.getUint 4
  pure (UInt32.ofNat byte, b)

def getBool (b : ByteBuffer) : Except String (Bool × ByteBuffer) := do
  let (byte, b) ← b.getU8
  pure (byte != 0, b)

def getUtf8Raw (b : ByteBuffer) (length : Nat) : Except String (List UInt16 × ByteBuffer) := do
  let (buffer, b) ← b.get length
  pure (Utf16.encode (textDecode buffer), b)

def flip (b : ByteBuffer) : ByteBuffer := { b with limit := b.position, position := 0 }

def getRemainingBuffer (b : ByteBuffer) : List UInt8 := b.buffer.subarray b.position b.limit

end ByteBuffer

section Calls

-- The calls that write without an index.
inductive Put where
  | u8 (data : UInt8)
  | bool (data : Bool)
  | i8 (data : Int8)
  | u16 (data : UInt16)
  | i16 (data : Int16)
  | u32 (data : UInt32)
  | i32 (data : Int32)
  | u64 (data : UInt64)
  | f32 (data : UInt32)
  | u8Array (data : List UInt8)
  | utf8Raw (text : List UInt16)
  deriving DecidableEq

inductive Get where
  | u8
  | u16
  | u32
  | bool
  | utf8Raw (length : Nat)
  deriving DecidableEq

inductive Got where
  | u8 (data : UInt8)
  | u16 (data : UInt16)
  | u32 (data : UInt32)
  | bool (data : Bool)
  | utf8Raw (text : List UInt16)
  deriving DecidableEq

def ByteBuffer.put (b : ByteBuffer) : Put → Except String ByteBuffer
  | .u8 data => b.putU8 data none
  | .bool data => b.putBool data
  | .i8 data => b.putI8 data none
  | .u16 data => b.putU16 data none
  | .i16 data => b.putI16 data none
  | .u32 data => b.putU32 data none
  | .i32 data => b.putI32 data none
  | .u64 data => b.putU64 data none
  | .f32 data => b.putF32 data
  | .u8Array data => b.putU8Array data none
  | .utf8Raw text => b.putUtf8Raw text

def ByteBuffer.putAll (b : ByteBuffer) (puts : List Put) : Except String ByteBuffer :=
  puts.foldlM ByteBuffer.put b

def ByteBuffer.getOne (b : ByteBuffer) : Get → Except String (Got × ByteBuffer)
  | .u8 => do let (data, b) ← b.getU8; pure (.u8 data, b)
  | .u16 => do let (data, b) ← b.getU16; pure (.u16 data, b)
  | .u32 => do let (data, b) ← b.getU32; pure (.u32 data, b)
  | .bool => do let (data, b) ← b.getBool; pure (.bool data, b)
  | .utf8Raw length => do let (text, b) ← b.getUtf8Raw length; pure (.utf8Raw text, b)

def ByteBuffer.getAll : ByteBuffer → List Get → Except String (List Got)
  | _, [] => .ok []
  | b, get :: rest => do
    let (got, b) ← b.getOne get
    let later ← b.getAll rest
    pure (got :: later)

example : ((ByteBuffer.new 8 true).putAll [.u16 0x0102, .bool true, .utf8Raw [0xE9]]).map
    (fun b => b.flip.getRemainingBuffer) = .ok [2, 1, 1, 0xC3, 0xA9] := by
  decide +kernel

end Calls

end BrowserBuffer

end BetterParsec
