import MiniIp.Source.Utilities

/-!
# Addresses as text

Source: ip.c:34-84 (`string_to_ip`, `ip_to_string`) and mac.c:18-64 (`char_to_hex`, `string_to_mac`,
`mac_to_string`). A string that is read is the memory from its first character on, with its terminator and what lies
behind; a string that is written is the sequence of the bytes that are written.
-/

set_option autoImplicit false

namespace MiniIp.Source

/-- `*string`. -/
def currentChar (string : List UInt8) : UInt8 := string.headD 0

/-- The loop over the decimal digits of a field. -/
def readNumber (number : UInt8) : List UInt8 → UInt8 × List UInt8
  | [] => (number, [])
  | c :: rest =>
    -- '0' and '9'
    if 48 ≤ c ∧ c ≤ 57 then readNumber (number * 10 + c - 48) rest
    else (number, c :: rest)

/-- The fields that are left. -/
def readFields (ip : Ip) (string : List UInt8) : Nat → Ip
  | 0 => ip
  | left + 1 =>
    let field := readNumber 0 string
    readFields (ip ||| field.1.toUInt32 <<< (UInt32.ofNat left * 8))
      (if currentChar field.2 = 46 then field.2.tail else field.2) left

def stringToIp (string : List UInt8) : Ip := readFields 0 string 4

/-- The digits of `fragment` in the room that is left in `buffer`. -/
def fragmentDigits : Nat → UInt8 → List UInt8
  | 0, _ => []
  | room + 1, fragment =>
    if fragment = 0 then [] else (fragment % 10 + 48) :: fragmentDigits room (fragment / 10)

def fragmentToString (fragment : UInt8) : List UInt8 :=
  let zero : List UInt8 := if fragment = 0 then [48] else []
  let buffer := zero ++ fragmentDigits (3 - zero.length) fragment
  buffer.reverse

def ipToString (ip : Ip) : List UInt8 :=
  ((List.range 4).flatMap fun i =>
    fragmentToString (ip >>> (UInt32.ofNat (3 - i) * 8) &&& 0xFF).toUInt8 ++ if i ≠ 3 then [46] else []) ++ [0]

/-- `1 << 5`, the bit by which small letters differ from capitals. -/
def caseBit : UInt8 := 32

def charToHex (c : UInt8) : UInt8 :=
  if 48 ≤ c ∧ c ≤ 57 then c - 48
  else
    let c := c ||| caseBit
    -- 'a' and 'f'
    if 97 ≤ c ∧ c ≤ 102 then c - 97 + 10 else 0

/-- `mac.address[i] = byte` -/
def setByte (mac : Mac) (i : Fin 6) (byte : UInt8) : Mac := ⟨mac.address.set i byte⟩

/-- The bytes of the address that are left, in their order. -/
def readAddress (mac : Mac) (string : List UInt8) : List (Fin 6) → Mac
  | [] => mac
  | i :: rest =>
    if currentChar string = 0 ∨ currentChar string.tail = 0 then mac
    else
      let string' := string.tail.tail
      readAddress (setByte mac i (charToHex (currentChar string.tail) ||| charToHex (currentChar string) <<< 4))
        (if currentChar string' = 58 then string'.tail else string') rest

/-- The variable `mac` is not initialised. -/
def stringToMac (mac : Mac) (string : List UInt8) : Mac := readAddress mac string (List.finRange 6)

/-- "0123456789ABCDEF" -/
def hexTable : List UInt8 := [48, 49, 50, 51, 52, 53, 54, 55, 56, 57, 65, 66, 67, 68, 69, 70]

/-- One byte of the address. -/
def byteToString (byte caseTransform : UInt8) : List UInt8 :=
  [hexTable.getD (byte >>> 4 &&& 0xF).toNat 0 ||| caseTransform,
    hexTable.getD (byte >>> 0 &&& 0xF).toNat 0 ||| caseTransform]

/-- What the loop writes for a byte of the address, in its place. -/
def placeToString (mac : Mac) (caseTransform : UInt8) (i : Fin 6) : List UInt8 :=
  byteToString (mac.address.get i) caseTransform ++ if i ≠ 5 then [58] else []

def macToString (mac : Mac) (lowercase : Bool) : List UInt8 :=
  let caseTransform := if lowercase then caseBit else 0
  (List.finRange 6).flatMap (placeToString mac caseTransform) ++ [0]

end MiniIp.Source
