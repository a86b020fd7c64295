import DualCan.Bits.Bytes
import DualCan.Bits.Double

/-!
# The DBC bit codec

`bits.py`. Payloads are lists of bytes, values are integers without bound. A Motorola start bit numbers the bits
of a byte from the right; the code walks them in network order, from the most significant bit of byte 0 on.
-/

namespace DualCan.Dbc

open DualCan.Bits

/-- `"big_endian"` or `"little_endian"`. -/
inductive ByteOrder where
  | bigEndian
  | littleEndian
  deriving DecidableEq, Repr

/-- The exceptions that the functions below raise. -/
inductive PyError where
  | indexError
  | overflowError
  | valueError
  deriving DecidableEq, Repr

/-! ## Raw values -/

/-- `int.from_bytes(data, "little")`. -/
def fromBytesLittle (data : List UInt8) : ℕ := data.foldr (fun byte rest => byte.toNat + 2 ^ 8 * rest) 0

/-- The passes of the loop of `decode_signal`, from pass `i` on. -/
def decodeLoop (data : List UInt8) (networkStart : ℕ) : (count i value : ℕ) → Except PyError ℕ
  | 0, _, value => .ok value
  | count + 1, i, value =>
    let networkBit := networkStart + i
    match data[networkBit / 8]? with
    | none => .error .indexError
    | some byte =>
      let bit := 7 - networkBit % 8
      decodeLoop data networkStart count (i + 1) ((value <<< 1) ||| ((byte.toNat >>> bit) &&& 1))

/-- `decode_signal`. -/
def decodeSignal (data : List UInt8) (startBit length : ℕ) (byteOrder : ByteOrder) : Except PyError ℕ :=
  if length = 0 then .ok 0
  else
    match byteOrder with
    | .littleEndian =>
      let firstByte := startBit / 8
      let offset := startBit % 8
      let raw := fromBytesLittle (data.drop firstByte) >>> offset
      .ok (raw &&& ((1 <<< length) - 1))
    | .bigEndian =>
      let networkStart := 8 * (startBit / 8) + (7 - startBit % 8)
      decodeLoop data networkStart length 0 0

/-- The passes of a loop of `encode_signal`, from pass `i` on. The two loops differ in the bit that a pass
writes and in the bit of the value that it writes there. -/
def encodeLoop (byteIndex bitInByte : ℕ → ℕ) (valueBit : ℕ → Bool) : (count i : ℕ) → List UInt8 → List UInt8
  | 0, _, data => data
  | count + 1, i, data =>
    if byteIndex i ≥ data.length then data
    else
      encodeLoop byteIndex bitInByte valueBit count (i + 1) (data.modify (byteIndex i) fun byte =>
        if valueBit i then setBit byte (bitInByte i) else clearBit byte (bitInByte i))

/-- `(value >> i) & 1`. -/
def valueBit (value : ℤ) (i : ℕ) : Bool := (value >>> i) % 2 = 1

/-- `encode_signal`. -/
def encodeSignal (data : List UInt8) (startBit length : ℕ) (value : ℤ) (byteOrder : ByteOrder) : List UInt8 :=
  if length = 0 then data
  else
    match byteOrder with
    | .littleEndian =>
      encodeLoop (fun i => (startBit + i) / 8) (fun i => (startBit + i) % 8) (fun i => valueBit value i) length 0
        data
    | .bigEndian =>
      let networkStart := 8 * (startBit / 8) + (7 - startBit % 8)
      encodeLoop (fun i => (networkStart + i) / 8) (fun i => 7 - (networkStart + i) % 8)
        (fun i => valueBit value (length - 1 - i)) length 0 data

/-! ## Scaled values -/

/-- An `int` or a `float`. -/
inductive Number where
  | int (n : ℤ)
  | float (x : Double)

namespace Number

def value? : Number → Option ℚ
  | .int n => some n
  | .float x => x.value?

/-- What an operand becomes where the other one is a `float`. -/
def toFloat : Number → Except PyError Double
  | .int n => if |roundDouble n| < 2 ^ 1024 then .ok (.ofRat n) else .error .overflowError
  | .float x => .ok x

def mul : Number → Number → Except PyError Number
  | .int a, .int b => .ok (.int (a * b))
  | a, b => do return .float ((← a.toFloat).mul (← b.toFloat))

def add : Number → Number → Except PyError Number
  | .int a, .int b => .ok (.int (a + b))
  | a, b => do return .float ((← a.toFloat).add (← b.toFloat))

end Number

/-- The default scale and offset. -/
def defaultScale : Number := .float (.ofRat 1)

def defaultOffset : Number := .float (.ofRat 0)

/-- `decode_signal_value`; a signed signal of no bits shifts by a negative count. -/
def decodeSignalValue (data : List UInt8) (startBit length : ℕ) (byteOrder : ByteOrder) (isSigned : Bool)
    (scale offset : Number) : Except PyError Number := do
  let raw ← decodeSignal data startBit length byteOrder
  if isSigned = true ∧ length = 0 then throw .valueError
  let raw : ℤ := if isSigned = true ∧ raw &&& (1 <<< (length - 1)) ≠ 0 then raw - (1 <<< length : ℕ) else raw
  (← (Number.int raw).mul scale).add offset

end DualCan.Dbc
