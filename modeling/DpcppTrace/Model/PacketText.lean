import DpcppTrace.Foundation.Bytes

/-! # Texts of the remote protocol

Packets carry bytes as hexadecimal digits or as escaped binary, and numbers as hexadecimal numerals.
Both decoders accept any character: a character that is no digit has the value minus one, and an
upper-case digit the value its offset from the lower-case letters gives.
-/

namespace DpcppTrace.Model

open Foundation

def hexMap : Bytes := str "0123456789abcdef"

/-- The characters `hexMap[(v >> 4) & 0xf]` and `hexMap[v & 0xf]`. -/
def hexPair (v : UInt8) : Bytes :=
  [hexMap.getD ((v >>> 4) &&& 0xf).toNat 0, hexMap.getD (v &&& 0xf).toNat 0]

/-- `encode` of a byte sequence. -/
def encode (data : Bytes) : Bytes := data.flatMap hexPair

def hexDigitToInt (c : UInt8) : ℤ :=
  if 0x61 ≤ c ∧ c ≤ 0x66 then 10 + c.toNat - 0x61
  else if 0x41 ≤ c ∧ c ≤ 0x46 then 10 + c.toNat - 0x61
  else if 0x30 ≤ c ∧ c ≤ 0x39 then c.toNat - 0x30
  else -1

/-- The byte of two characters. -/
def decodePair (high low : UInt8) : UInt8 :=
  UInt8.ofInt (hexDigitToInt high <<< (4 : ℕ)) + UInt8.ofInt (hexDigitToInt low)

/-- `decode`, which reads two characters at a time; `after` is the character behind the data, which
an odd number of characters takes in. -/
def decode (after : UInt8) : Bytes → Bytes
  | [] => []
  | [high] => [decodePair high after]
  | high :: low :: rest => decodePair high low :: decode after rest

/-- The bytes that `escape` replaces. -/
def reserved (c : UInt8) : Bool := c = 0x23 ∨ c = 0x24 ∨ c = 0x7d ∨ c = 0x2a

def escape (data : Bytes) : Bytes :=
  data.flatMap fun c => if reserved c then [0x7d, c ^^^ 0x20] else [c]

def trim (v : Bytes) : Bytes :=
  match v.dropWhile (· = 0x30) with
  | [] => [0x30]
  | rest => rest

/-- `encode` of an integer of `width` bytes. -/
def encodeInt (width : ℕ) (num : BitVec (8 * width)) : Bytes :=
  trim (encode (leBytes width num.toNat).reverse)

/-- The largest value of an integer type of `width` bytes. -/
def integerMax (signed : Bool) (width : ℕ) : BitVec (8 * width) :=
  if signed then BitVec.intMax (8 * width) else BitVec.allOnes (8 * width)

/-- `result <<= 4; result |= nibble`. -/
def pushNibble {bits : ℕ} (result : BitVec bits) (c : UInt8) : BitVec bits :=
  (result <<< 4) ||| (UInt8.ofInt (hexDigitToInt c)).toBitVec.setWidth bits

/-- `parseInt` for an integer type of `width` bytes. -/
def parseInt (signed : Bool) (width : ℕ) (num : Bytes) : BitVec (8 * width) :=
  if num.length > width * 2 then integerMax signed width
  else num.foldl pushNibble 0

/-- `parseInt<uint64_t>` and `parseInt<size_t>`. -/
def parseUInt64 (num : Bytes) : UInt64 := ⟨parseInt false 8 num⟩

/-- `parseInt<int>`. -/
def parseInt32 (num : Bytes) : Int32 := ⟨⟨parseInt true 4 num⟩⟩

/-- The loop of `decodeString`: what was decoded, whether a first character is pending, and its
contribution. -/
structure DecodeString where
  ret : Bytes := []
  flip : Bool := false
  realChar : UInt8 := 0

def DecodeString.next (s : DecodeString) (c : UInt8) : DecodeString :=
  if s.flip then
    let realChar := s.realChar + UInt8.ofInt (hexDigitToInt c)
    { ret := s.ret ++ [realChar], flip := false, realChar }
  else { s with realChar := UInt8.ofInt (hexDigitToInt c) <<< 4, flip := true }

def decodeString (text : Bytes) : Bytes := (text.foldl DecodeString.next {}).ret

def checksum (message : Bytes) : UInt8 := message.foldl (· + ·) 0

/-- The frame of a reply, behind an acknowledgement if there is to be one. -/
def createResponse (response : Bytes) (ack : Bool) : Bytes :=
  (if ack then str "+" else []) ++ str "$" ++ response ++ str "#" ++ hexPair (checksum response)

/-- `{:02x}` of an `int`. -/
def formatHex2 (code : Int32) : Bytes :=
  let digits := trim (encode (leBytes 4 code.toInt.natAbs).reverse)
  if code < 0 then str "-" ++ digits else List.replicate (2 - digits.length) 0x30 ++ digits

/-- `{:x}` of a non-negative number below `2^64`. -/
def formatHex (num : ℕ) : Bytes := trim (encode (leBytes 8 num).reverse)

end DpcppTrace.Model
