import Mathlib.Algebra.Order.Group.Int
import MiniIp.Source.Utilities

/-!
# Formatted text

Source: utilities.c:7-223 (`write_char`, `write_number`, `read_number`, `format_string`). The format is the memory from its
first character to its terminator; a read behind that is an error. `<stdarg.h>` is a parameter. The output goes to a
memory seen from the start of the buffer. The strings that are arguments are given by their bytes before the
terminator, and lie outside the buffer.
-/

set_option autoImplicit false

namespace MiniIp.Source

inductive FormatError where
  | readPastEnd
  | outOfFuel
  deriving DecidableEq, Repr

/-- What `va_arg` returns for a type, and the arguments behind it. The null pointer is no string. -/
structure StdArg (VaList : Type) where
  int : VaList → UInt32 × VaList
  longLong : VaList → UInt64 × VaList
  text : VaList → Option (List UInt8) × VaList

structure FormatFlags where
  zeroPad : Bool := false
  noSign : Bool := false
  alwaysSign : Bool := false
  leftJustify : Bool := false
  sizeGiven : Bool := false
  uppercase : Bool := false
  hex : Bool := false
  signed : Bool := false
  binary : Bool := false
  bigNumber : Bool := false
  deriving DecidableEq, Repr

/-- `buffer` and the memory it points into. -/
structure Output where
  buffer : Int
  memory : Memory

/-- An `int`. -/
def intOf (value : UInt32) : Int := if value.toNat < 2147483648 then value.toNat else value.toNat - 4294967296

/-- A `long long`. -/
def longLongOf (value : UInt64) : Int :=
  if value.toNat < 9223372036854775808 then value.toNat else value.toNat - 18446744073709551616

/-- The result of an operation on values of type `int`. -/
def intWrap (n : Int) : Int := (n + 2147483648) % 4294967296 - 2147483648

def writeChar (c : UInt8) (stop : Int) (out : Output) : Output :=
  if out.buffer ≠ stop then ⟨out.buffer + 1, writeByte c out.buffer out.memory⟩ else out

/-- `write_char` for one character after another. -/
def writeChars : List UInt8 → Int → Output → Output
  | [], _, out => out
  | c :: rest, stop, out => writeChars rest stop (writeChar c stop out)

/-- "0123456789ABCDEF" or "0123456789abcdef" -/
def formatTable (uppercase : Bool) : List UInt8 :=
  [48, 49, 50, 51, 52, 53, 54, 55, 56, 57] ++
    if uppercase then [65, 66, 67, 68, 69, 70] else [97, 98, 99, 100, 101, 102]

/-- The characters in `number_buffer`, with the room that is left there. -/
def numberChars (table : List UInt8) (base : Nat) : Nat → Nat → List UInt8
  | 0, _ => []
  | room + 1, value =>
    table.getD (value % base) 0 :: if value / base ≠ 0 then numberChars table base room (value / base) else []

def padChar (flags : FormatFlags) : UInt8 := if flags.zeroPad then 48 else 32

/-- The value is printed behind a '-'. -/
def isNegative (value : Int) (flags : FormatFlags) : Bool := flags.signed && !flags.noSign && decide (value < 0)

/-- '+', '-' or nothing. -/
def signChar (value : Int) (flags : FormatFlags) : UInt8 :=
  if !flags.signed && flags.alwaysSign then 43 else if isNegative value flags then 45 else 0

/-- `unsigned_value` -/
def unsignedValue (value : Int) (flags : FormatFlags) : Nat :=
  let value := if isNegative value flags then -value else value
  if flags.bigNumber then (value % 18446744073709551616).toNat else (value % 4294967296).toNat

def writeNumber (value width : Int) (flags : FormatFlags) (stop : Int) (out : Output) : Output :=
  let base := if flags.hex then 16 else if flags.binary then 2 else 10
  let sign := signChar value flags
  let numberBuffer := numberChars (formatTable flags.uppercase) base 64 (unsignedValue value flags)
  let length : Int := numberBuffer.length + if sign ≠ 0 then 1 else 0
  let pad := List.replicate (if width > length then width - length else 0).toNat (padChar flags)
  let out := if flags.leftJustify then out else writeChars pad stop out
  let out := if sign ≠ 0 then writeChar sign stop out else out
  let out := writeChars numberBuffer.reverse stop out
  if flags.leftJustify then writeChars pad stop out else out

/-- "nullptr" -/
def nullptrText : List UInt8 := [110, 117, 108, 108, 112, 116, 114]

/-- The loop that measures a text up to `width`. -/
def textLength (width : Int) : List UInt8 → Nat → Nat
  | [], length => length
  | _ :: rest, length => if (length : Int) < width then textLength width rest (length + 1) else length

/-- A negative `pad` would be counted down through all values of its type. -/
def writeText (argument : Option (List UInt8)) (width : Int) (flags : FormatFlags) (stop : Int) (out : Output) : Output :=
  let text := argument.getD nullptrText
  let length := if flags.sizeGiven then textLength width text 0 else text.length
  let padLength : Int := if flags.sizeGiven then width - length else 0
  let pad := List.replicate (padLength % 4294967296).toNat (padChar flags)
  let out := if flags.leftJustify then out else writeChars pad stop out
  let out := writeChars (text.take length) stop out
  if flags.leftJustify then writeChars pad stop out else out

/-- `*string` -/
def readChar (string : List UInt8) : Except FormatError UInt8 := string.head?.elim (.error .readPastEnd) .ok

/-- What is known of a directive while it is scanned. -/
structure Directive (VaList : Type) where
  flags : FormatFlags
  width : Int
  arguments : VaList

variable {VaList : Type}

/-- The loop body over the flags; there is no result where it breaks. -/
def flagStep (va : StdArg VaList) (c : UInt8) (d : Directive VaList) : Option (Directive VaList) :=
  if c = 48 then some { d with flags := { d.flags with zeroPad := true } }
  else if c = 60 then some { d with flags := { d.flags with leftJustify := true } }
  else if c = 43 then some { d with flags := { d.flags with alwaysSign := true } }
  else if c = 32 then some { d with flags := { d.flags with noSign := true } }
  else if c = 95 then
    let width := intOf (va.int d.arguments).1
    if width < 0 then
      some ⟨{ d.flags with sizeGiven := true, leftJustify := true }, intWrap (-width), (va.int d.arguments).2⟩
    else some ⟨d.flags, width, (va.int d.arguments).2⟩
  else none

/-- Returns the string where the loop breaks. -/
def scanFlags (va : StdArg VaList) : List UInt8 → Directive VaList → Except FormatError (List UInt8 × Directive VaList)
  | [], _ => .error .readPastEnd
  | c :: rest, d => (flagStep va c d).elim (.ok (c :: rest, d)) (scanFlags va rest)

/-- `'0' <= c && c <= '9'` -/
def isDigit (c : UInt8) : Bool := 48 ≤ c ∧ c ≤ 57

def scanWidth : List UInt8 → Int → Except FormatError (List UInt8 × Int)
  | [], _ => .error .readPastEnd
  | c :: rest, width =>
    if isDigit c then scanWidth rest (intWrap (10 * width + (c.toNat - 48))) else .ok (c :: rest, width)

/-- A directive up to its letters: the conversion, and the string behind. -/
structure Scanned (VaList : Type) where
  conversion : UInt8
  string : List UInt8
  directive : Directive VaList

def scanDirective (va : StdArg VaList) (string : List UInt8) (arguments : VaList) :
    Except FormatError (Scanned VaList) := do
  let flagged ← scanFlags va string ⟨{}, 0, arguments⟩
  let digit ← readChar flagged.1
  let sized ← scanWidth flagged.1 flagged.2.width
  let conversion ← readChar sized.1
  let next ← readChar sized.1.tail
  return {
    conversion := conversion
    string := if next = 108 then sized.1.tail.tail else sized.1.tail
    directive := {
      flags := { flagged.2.flags with
        sizeGiven := flagged.2.flags.sizeGiven || isDigit digit
        bigNumber := flagged.2.flags.bigNumber || next = 108 }
      width := sized.2
      arguments := flagged.2.arguments } }

/-- `read_number` -/
def readNumberArgument (va : StdArg VaList) (d : Directive VaList) : Int × VaList :=
  if d.flags.bigNumber then (longLongOf (va.longLong d.arguments).1, (va.longLong d.arguments).2)
  else (intOf (va.int d.arguments).1, (va.int d.arguments).2)

/-- The argument of a 'u' is not extended as a signed number. -/
def readUnsignedArgument (va : StdArg VaList) (d : Directive VaList) : Int × VaList :=
  if d.flags.bigNumber then (longLongOf (va.longLong d.arguments).1, (va.longLong d.arguments).2)
  else ((va.int d.arguments).1.toNat, (va.int d.arguments).2)

/-- The branches over the conversion; returns the arguments that are left. -/
def convert (va : StdArg VaList) (c : UInt8) (d : Directive VaList) (stop : Int) (out : Output) : VaList × Output :=
  if c = 116 then ((va.text d.arguments).2, writeText (va.text d.arguments).1 d.width d.flags stop out)
  else if c = 99 then ((va.int d.arguments).2, writeChar (va.int d.arguments).1.toUInt8 stop out)
  else if c = 117 then
    let argument := readUnsignedArgument va d
    (argument.2, writeNumber argument.1 d.width d.flags stop out)
  else if c = 115 then
    let argument := readNumberArgument va d
    (argument.2, writeNumber argument.1 d.width { d.flags with signed := true } stop out)
  else if c = 104 ∨ c = 72 then
    let argument := readNumberArgument va d
    (argument.2, writeNumber argument.1 d.width
      { d.flags with hex := true, uppercase := d.flags.uppercase || c = 72 } stop out)
  else if c = 98 then
    let argument := readNumberArgument va d
    (argument.2, writeNumber argument.1 d.width { d.flags with binary := true } stop out)
  else if c = 123 then (d.arguments, writeChar 123 stop out)
  else (d.arguments, out)

/-- The loop over the format. -/
def formatLoop (va : StdArg VaList) (stop : Int) : Nat → List UInt8 → VaList → Output → Except FormatError Output
  | 0, _, _, _ => .error .outOfFuel
  | fuel + 1, string, arguments, out => do
    let c ← readChar string
    if c = 0 then return out
    if c ≠ 123 then formatLoop va stop fuel string.tail arguments (writeChar c stop out)
    else
      let scanned ← scanDirective va string.tail arguments
      let converted := convert va scanned.conversion scanned.directive stop out
      let brace ← readChar scanned.string
      formatLoop va stop fuel (if brace = 125 then scanned.string.tail else scanned.string) converted.1 converted.2

/-- Returns the length and the memory; every pass of the loop takes a character, so the fuel is never spent. -/
def formatString (va : StdArg VaList) (string : List UInt8) (bufferSize : Int) (arguments : VaList) (memory : Memory) :
    Except FormatError (Int × Memory) := do
  let out ← formatLoop va bufferSize (string.length + 1) string arguments ⟨0, memory⟩
  return (out.buffer - 0, out.memory)

end MiniIp.Source
