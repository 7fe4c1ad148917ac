import TxScope.CompactSize
import TxScope.Recorder
import TxScope.Text.Blank
import TxScope.Transaction.Basic
import TxScope.Transaction.Error

/-!
# Reading a transaction

Version, inputs, outputs, lock time, in this order. The bytes 00 01 after the version announce
witnesses, one stack for each input, between the outputs and the lock time. The first field that is
short ends the reading and is named in the error; bytes after the lock time are an error too. The
loops over inputs, outputs and witnesses are recorded; `decode` leaves the record out.
-/

namespace TxScope

/-- The failure of a read, said of the field it belongs to. -/
def Reader.during {α : Type} (stage : Stage) (read : Reader Truncated α) :
    Reader DecodeError α :=
  read.mapError (.truncated stage)

def Recorder.during {α : Type} (stage : Stage) (read : Recorder Truncated α) :
    Recorder DecodeError α :=
  read.mapError (.truncated stage)

/-- The next 32 bytes, as the hash they are. -/
def Hash256.read : Reader Truncated Hash256 := fun c =>
  if h : 32 ≤ c.remaining then
    (.ok ⟨c.rest.take 32, List.length_take_of_le h⟩, c.advance 32)
  else (.error (c.shortage 32), c)

namespace Input

/-- The bytes of an input with an empty script. -/
def minimumSize : Nat := 32 + 4 + 1 + 4

/-- An input as it stands before its witness is known. -/
def read : Reader Truncated Input := do
  let prevHash ← Hash256.read
  let prevIndex ← Reader.uint32
  let scriptSig ← CompactSize.readPrefixed
  let sequence ← Reader.uint32
  return { prevHash, prevIndex, scriptSig, sequence, witness := [] }

/-- A count and that many items, each behind its length, for the input of number `index`. -/
def readWitness (index : Nat) : Recorder Truncated (List Bytes) := do
  let count ← CompactSize.read
  Recorder.counted (.witness index) count 1 fun _ => CompactSize.readPrefixed

/-- Gives each input its witness, in order; the first input has number `index`. -/
def readWitnesses : (index : Nat) → List Input → Recorder DecodeError (List Input)
  | _, [] => pure []
  | index, i :: is => do
    let witness ← (readWitness index).during (.witness index)
    let rest ← readWitnesses (index + 1) is
    return { i with witness } :: rest

end Input

namespace Output

/-- The bytes of an output with an empty script. -/
def minimumSize : Nat := 8 + 1

def read : Reader Truncated Output := do
  let value ← Reader.uint64
  let scriptPubKey ← CompactSize.readPrefixed
  return { value, scriptPubKey }

end Output

namespace Transaction

/-- The marker and flag that announce witnesses. -/
def witnessMarker : Bytes := [0x00, 0x01]

/-- Passes over the marker, if it is there. -/
def readMarker : Reader DecodeError Bool := do
  let marked ← Reader.lookingAt witnessMarker
  if marked then
    let _ ← (Reader.bytes witnessMarker.length).during .version
    return true
  else return false

def readInputs : Recorder DecodeError (List Input) := do
  let count ← CompactSize.read.during .inputCount
  Recorder.counted .inputs count Input.minimumSize fun index => Input.read.during (.input index)

def readOutputs : Recorder DecodeError (List Output) := do
  let count ← CompactSize.read.during .outputCount
  Recorder.counted .outputs count Output.minimumSize fun index =>
    Output.read.during (.output index)

/-- Gives the inputs their witnesses, if the transaction has any. -/
def readAttached (hasWitness : Bool) (bare : List Input) : Recorder DecodeError (List Input) :=
  if hasWitness then Input.readWitnesses 0 bare else pure bare

/-- Reads the fields from version to lock time. `raw` is the whole byte string. -/
def read (raw : Bytes) : Recorder DecodeError Transaction := do
  let version ← Reader.int32.during .version
  let hasWitness ← readMarker
  let start ← (Reader.position : Reader DecodeError Nat)
  let bare ← readInputs
  let outputs ← readOutputs
  let stop ← (Reader.position : Reader DecodeError Nat)
  let inputs ← readAttached hasWitness bare
  let lockTime ← Reader.uint32.during .lockTime
  return { version, hasWitness, inputs, outputs, lockTime, raw, body := ⟨start, stop⟩ }

/-- Reads a byte string that is one transaction from first byte to last, and tells the loops that
were run, in their order. -/
def decodeRecorded (raw : Bytes) : Except DecodeError Transaction × List CountedLoop :=
  if raw.isEmpty then (.error .emptyInput, [])
  else
    match read raw (Cursor.start raw) with
    | ((.error e, _), loops) => (.error e, loops)
    | ((.ok tx, c), loops) =>
      (if c.atEnd then .ok tx else .error (.trailingBytes c.remaining), loops)

def decode (raw : Bytes) : Except DecodeError Transaction := (decodeRecorded raw).1

/-- The bytes that a text in hexadecimal stands for. Blank characters around it do not count. -/
def bytesOfHex (text : String) : Except DecodeError Bytes :=
  let trimmed := Text.trim text
  if trimmed.isEmpty then .error .emptyInput
  else (Hex.decode trimmed).mapError .invalidHex

end Transaction

end TxScope
