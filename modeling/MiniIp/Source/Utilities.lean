import Mathlib.Logic.Function.Basic

/-!
# Memory and byte order

Source: utilities.h:40-129 (`memory_copy`, `memory_compare`, `memory_move`,
`read_be16`, `read_be32`, `write_be16`, `write_be32`). A buffer is the memory seen from its
first byte, addressed by signed offsets as C pointer arithmetic does; offsets
outside the array belong to whatever lies next to it. The conversions C makes
between `int` and the 32-bit `size_t` of `sizeof` are `sizeT`.
-/

set_option autoImplicit false

namespace MiniIp.Source

abbrev Ip := UInt32
abbrev Port := UInt16
abbrev Time := UInt32

/-- Memory relative to the start of a buffer. -/
abbrev Memory := Int → UInt8

structure Mac where
  address : Vector UInt8 6
  deriving DecidableEq, Repr

/-- The value of an `int` where C converts it to `size_t`. -/
def sizeT (n : Int) : Int := n % 4294967296

def readBe16 (memory : Memory) (pointer : Int) : UInt16 :=
  (memory pointer).toUInt16 <<< 8 ||| (memory (pointer + 1)).toUInt16

def readBe32 (memory : Memory) (pointer : Int) : UInt32 :=
  (memory pointer).toUInt32 <<< 24 ||| (memory (pointer + 1)).toUInt32 <<< 16 |||
    (memory (pointer + 2)).toUInt32 <<< 8 ||| (memory (pointer + 3)).toUInt32

/-- A `u32` field read without conversion, on the little-endian target. -/
def readRaw32 (memory : Memory) (pointer : Int) : UInt32 :=
  (memory (pointer + 3)).toUInt32 <<< 24 ||| (memory (pointer + 2)).toUInt32 <<< 16 |||
    (memory (pointer + 1)).toUInt32 <<< 8 ||| (memory pointer).toUInt32

def writeByte (value : UInt8) (pointer : Int) (memory : Memory) : Memory :=
  Function.update memory pointer value

def writeBe16 (value : UInt16) (pointer : Int) (memory : Memory) : Memory :=
  writeByte value.toUInt8 (pointer + 1) (writeByte (value >>> 8).toUInt8 pointer memory)

def writeBe32 (value : UInt32) (pointer : Int) (memory : Memory) : Memory :=
  writeByte value.toUInt8 (pointer + 3) (writeByte (value >>> 8).toUInt8 (pointer + 2)
    (writeByte (value >>> 16).toUInt8 (pointer + 1)
      (writeByte (value >>> 24).toUInt8 pointer memory)))

/-- `memory_copy` into a buffer, the source given by its bytes. -/
def writeBytes : List UInt8 → Int → Memory → Memory
  | [], _, memory => memory
  | value :: rest, pointer, memory => writeBytes rest (pointer + 1) (writeByte value pointer memory)

/-- `memory_copy` out of a buffer. -/
def readBytes (memory : Memory) (pointer : Int) : Nat → List UInt8
  | 0 => []
  | size + 1 => memory pointer :: readBytes memory (pointer + 1) size

def readMac (memory : Memory) (pointer : Int) : Mac :=
  ⟨Vector.ofFn fun i => memory (pointer + i.val)⟩

def writeMac (mac : Mac) (pointer : Int) (memory : Memory) : Memory :=
  writeBytes mac.address.toList pointer memory

@[simp] theorem readBytes_length (memory : Memory) (pointer : Int) (size : Nat) :
    (readBytes memory pointer size).length = size := by
  induction size generalizing pointer with
  | zero => rfl
  | succ size ih => simp [readBytes, ih]

/-- The first loop of `memory_move`; `i` goes down to 0. -/
def moveBackward (source dest : Int) : Nat → Memory → Memory
  | 0, memory => writeByte (memory source) dest memory
  | i + 1, memory =>
    moveBackward source dest i (writeByte (memory (source + (i + 1 : Nat))) (dest + (i + 1 : Nat)) memory)

/-- The second loop, with the bytes that are left to copy. -/
def moveForward : Nat → Int → Int → Memory → Memory
  | 0, _, _, memory => memory
  | size + 1, source, dest, memory => moveForward size (source + 1) (dest + 1) (writeByte (memory source) dest memory)

def memoryMove (source dest size : Int) (memory : Memory) : Memory :=
  if dest = source then memory
  else if dest > source then
    -- `i` starts at `size`
    if size < 0 then memory else moveBackward source dest size.toNat memory
  else moveForward size.toNat source dest memory

/-- `get_elapsed` of the clock module: the 32-bit difference of two times. -/
def getElapsed (start now : Time) : Time := now - start

end MiniIp.Source
