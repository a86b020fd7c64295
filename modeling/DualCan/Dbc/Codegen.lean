import DualCan.Dbc.Layout

/-!
# Generated pack and unpack functions

`codegen.py`: what `_message_source` puts into the lines of the two functions of a message, and what the C
functions made of these lines do. Both work on two words of 64 bits, one for the Motorola signals and one for the
Intel signals. `none` is the undefined behaviour of a conversion out of range.

A structure is the list of its fields, in the order of the signals.
-/

namespace DualCan.Dbc

open DualCan.Bits

/-- A signal as `cantools` gives it, which refuses signals of no bits; scale and offset as `float()` has them. -/
structure Signal extends Span where
  name : String
  isSigned : Bool
  scale : Double
  offset : Double
  length_pos : 0 < length

structure Message where
  length : ℕ
  signals : List Signal

/-- The exceptions of the generator. -/
inductive GenerateError where
  /-- `signal ... does not fit in one 64-bit CAN payload` -/
  | doesNotFit (name : String)
  /-- `int()` of an infinity or of a NaN. -/
  | overflowError
  | valueError
  deriving DecidableEq, Repr

/-! ## The generator -/

/-- `_signal_shift`. -/
def signalShift (signal : Signal) : Except GenerateError ℕ :=
  let shift : ℤ :=
    match signal.byteOrder with
    | .bigEndian =>
      let networkStart := 8 * (signal.startBit / 8) + (7 - signal.startBit % 8)
      64 - ((networkStart + signal.length : ℕ) : ℤ)
    | .littleEndian => signal.startBit
  if shift < 0 ∨ shift + signal.length > 64 then .error (.doesNotFit signal.name) else .ok shift.toNat

/-- The C type of a field. -/
inductive FieldType where
  | signed (width : ℕ)
  | unsigned (width : ℕ)
  | double
  deriving DecidableEq, Repr

/-- `_field_type`. -/
def fieldType (signal : Signal) : FieldType :=
  if signal.scale = .ofRat 1 ∧ signal.offset = .ofRat 0 then
    if signal.isSigned then
      if signal.length ≤ 8 then .signed 8
      else if signal.length ≤ 16 then .signed 16 else if signal.length ≤ 32 then .signed 32 else .signed 64
    else
      if signal.length ≤ 8 then .unsigned 8
      else if signal.length ≤ 16 then .unsigned 16 else if signal.length ≤ 32 then .unsigned 32 else .unsigned 64
  else .double

/-- `_mask_literal`. -/
def maskLiteral (length : ℕ) : BitVec 64 :=
  if length ≥ 64 then 0xFFFFFFFFFFFFFFFF#64 else BitVec.ofNat 64 ((1 <<< length) - 1)

/-- `_sign_literal`. -/
def signLiteral (length : ℕ) : BitVec 64 := BitVec.ofNat 64 (1 <<< (length - 1))

/-- `_extension_literal`. -/
def extensionLiteral (length : ℕ) : BitVec 64 := 0xFFFFFFFFFFFFFFFF#64 &&& ~~~BitVec.ofNat 64 ((1 <<< length) - 1)

/-- `_number_literal`: the literal denotes the number itself. -/
def numberLiteral : Double → Except GenerateError Double
  | .finite value h => .ok (.finite value h)
  | .infinity _ => .error .overflowError
  | .nan => .error .valueError

/-- A line of a pack function: `word |= ((raw) & mask) << shift`. -/
structure PackLine where
  byteOrder : ByteOrder
  negOffset : Double
  scale : Double
  mask : BitVec 64
  shift : ℕ

/-- A block of an unpack function; the sign bit and the bits above it, where it extends the sign. -/
structure UnpackBlock where
  byteOrder : ByteOrder
  shift : ℕ
  mask : BitVec 64
  extension : Option (BitVec 64 × BitVec 64)
  isSigned : Bool
  fieldType : FieldType
  scale : Double
  offset : Double

/-- The generated functions of a message. -/
structure MessageCode where
  length : ℕ
  packLines : List PackLine
  unpackBlocks : List UnpackBlock

def packLine (signal : Signal) : Except GenerateError PackLine := do
  let shift ← signalShift signal
  let scale ← numberLiteral signal.scale
  let negOffset ← numberLiteral signal.offset.neg
  return ⟨signal.byteOrder, negOffset, scale, maskLiteral signal.length, shift⟩

def unpackBlock (signal : Signal) : Except GenerateError UnpackBlock := do
  let shift ← signalShift signal
  let scale ← numberLiteral signal.scale
  let offset ← numberLiteral signal.offset
  let extension :=
    if signal.isSigned ∧ signal.length < 64 then
      some (signLiteral signal.length, extensionLiteral signal.length)
    else none
  return ⟨signal.byteOrder, shift, maskLiteral signal.length, extension, signal.isSigned, fieldType signal, scale,
    offset⟩

/-- `_message_source`. -/
def messageSource (message : Message) : Except GenerateError MessageCode := do
  let packLines ← message.signals.mapM packLine
  let unpackBlocks ← message.signals.mapM unpackBlock
  return ⟨message.length, packLines, unpackBlocks⟩

/-! ## The generated functions -/

/-- The value of a field. -/
inductive FieldValue where
  | int (n : ℤ)
  | double (x : Double)

/-- `(double)message->field`. -/
def FieldValue.toDouble : FieldValue → Double
  | .int n => .ofRat n
  | .double x => x

/-- A conversion to an integer type, undefined where the integer part is not one of its values. -/
def convertInteger (low high : ℤ) (x : Double) : Option ℤ := do
  let n ← x.truncate
  guard (low ≤ n ∧ n < high)
  return n

/-- `(field type)(x)`. -/
def FieldType.convert : FieldType → Double → Option FieldValue
  | .signed width, x => (convertInteger (-2 ^ (width - 1)) (2 ^ (width - 1)) x).map .int
  | .unsigned width, x => (convertInteger 0 (2 ^ width) x).map .int
  | .double, x => some (.double x)

/-- `project_dbc_round`. -/
def projectDbcRound (value : Double) : Option ℤ :=
  convertInteger (-2 ^ 63) (2 ^ 63)
    (if value.isNonneg then value.add (.ofRat (1 / 2)) else value.add (.ofRat (-(1 / 2))))

/-- The two words of a function, `be_word` and `le_word`. -/
structure Words where
  be : BitVec 64
  le : BitVec 64

def Words.word (words : Words) : ByteOrder → BitVec 64
  | .bigEndian => words.be
  | .littleEndian => words.le

/-- `word |= bits`. -/
def Words.or (words : Words) (byteOrder : ByteOrder) (bits : BitVec 64) : Words :=
  match byteOrder with
  | .bigEndian => { words with be := words.be ||| bits }
  | .littleEndian => { words with le := words.le ||| bits }

/-- The raw value of a field; a cast of an `int64_t` to `uint64_t` keeps its bits. -/
def PackLine.raw (line : PackLine) (field : FieldValue) : Option (BitVec 64) := do
  let n ← projectDbcRound ((field.toDouble.add line.negOffset).div line.scale)
  return BitVec.ofInt 64 n

/-- The lines of a pack function. -/
def packWords : List PackLine → List FieldValue → Words → Option Words
  | line :: lines, field :: fields, words => do
    let raw ← line.raw field
    packWords lines fields (words.or line.byteOrder ((raw &&& line.mask) <<< line.shift))
  | _, _, words => some words

/-- `data[index]` of a pack function. -/
def Words.byte (words : Words) (index : ℕ) : UInt8 :=
  let beByte : BitVec 8 := ((words.be >>> (8 * (7 - index))) &&& 0xFF#64).setWidth 8
  let leByte : BitVec 8 := ((words.le >>> (8 * index)) &&& 0xFF#64).setWidth 8
  ⟨beByte ||| leByte⟩

/-- A pack function: the bytes that it writes to `data`, which has room for eight. -/
def MessageCode.pack (code : MessageCode) (fields : List FieldValue) : Option (List UInt8) := do
  let words ← packWords code.packLines fields ⟨0#64, 0#64⟩
  guard (code.length ≤ 8)
  return (List.range code.length).map words.byte

/-- The loop of an unpack function. -/
def readWords (data : List UInt8) (length : ℕ) : Words :=
  (List.range length).foldl
    (fun words index =>
      let byte : BitVec 64 := (data.getD index 0).toBitVec.setWidth 64
      ⟨(words.be <<< 8) ||| byte, words.le ||| (byte <<< (8 * index))⟩)
    ⟨0#64, 0#64⟩

def UnpackBlock.raw (block : UnpackBlock) (words : Words) : BitVec 64 :=
  let raw := (words.word block.byteOrder >>> block.shift) &&& block.mask
  match block.extension with
  | some (sign, extension) => if raw &&& sign ≠ 0#64 then raw ||| extension else raw
  | none => raw

def UnpackBlock.field (block : UnpackBlock) (words : Words) : Option FieldValue :=
  let raw := block.raw words
  let x : Double := if block.isSigned then .ofRat raw.toInt else .ofRat raw.toNat
  block.fieldType.convert ((x.mul block.scale).add block.offset)

/-- An unpack function. -/
def MessageCode.unpack (code : MessageCode) (data : List UInt8) : Option (List FieldValue) := do
  guard (code.length ≤ 8)
  let words := readWords data code.length
  code.unpackBlocks.mapM fun block => block.field words

end DualCan.Dbc
