import Mathlib.Tactic
import Mathlib.Data.Fintype.Pi

/-!
# The C1 input normalizer

`C1InputNormalizer` of `koshi-terminal/src/engine.rs`: eight-bit C1 controls in the terminal input become their
seven-bit `ESC` forms, and the markers that open and close a synchronized update are found. The state carries an
escape-sequence position, the open part of a UTF-8 code point and the last eight normalized bytes across chunks.
-/

namespace Koshi.Terminal

def escapeByte : UInt8 := 0x1b
def cancelByte : UInt8 := 0x18
def substituteByte : UInt8 := 0x1a

/-- The marker that opens or closes a synchronized update. -/
inductive SynchronizedControl where
  | beginControl
  | endControl
  deriving DecidableEq, Repr

/-- `ESC [ ? 2026 h`. -/
def beginSynchronizedOutputBytes : List UInt8 := [0x1b, 0x5b, 0x3f, 0x32, 0x30, 0x32, 0x36, 0x68]

/-- `ESC [ ? 2026 l`. -/
def endSynchronizedOutputBytes : List UInt8 := [0x1b, 0x5b, 0x3f, 0x32, 0x30, 0x32, 0x36, 0x6c]

def SynchronizedControl.markerBytes : SynchronizedControl → List UInt8
  | beginControl => beginSynchronizedOutputBytes
  | endControl => endSynchronizedOutputBytes

inductive C1StringKind where
  | dcs
  | osc
  | dropped
  deriving DecidableEq, Repr

inductive C1InputState where
  | ground
  | escape
  | escapeIntermediate
  | csi
  | string (stringKind : C1StringKind)
  | stringEscape (stringKind : C1StringKind)
  deriving DecidableEq, Repr

/-- The normalizer between two chunks. The trailing bytes are a ring: the next byte goes to `trailingStartIndex`. -/
structure C1InputNormalizer where
  inputState : C1InputState
  remainingUtf8ContinuationCount : Nat
  trailingBytes : Fin 8 → UInt8
  trailingByteCount : Nat
  trailingStartIndex : Fin 8
  deriving DecidableEq

/-- The bytes that go out for one chunk, with each marker's control and the index its bytes end at. -/
structure NormalizedTerminalInput where
  normalizer : C1InputNormalizer
  normalizedBytes : List UInt8
  synchronizedControls : List (Nat × SynchronizedControl)
  deriving DecidableEq

/-! ### UTF-8 -/

variable (byte : UInt8)

def isContinuationByte : Bool := byte &&& 0xc0 = 0x80

/-- The byte count of the code point at the front, by the table of well-formed UTF-8; `0` when there is none. -/
def countCodePointBytes : List UInt8 → Nat
  | [] => 0
  | first :: rest =>
    if first < 0x80 then 1
    else match rest with
      | [] => 0
      | second :: rest =>
        if 0xc2 ≤ first ∧ first ≤ 0xdf then if isContinuationByte second then 2 else 0
        else match rest with
          | [] => 0
          | third :: rest =>
            let isThreeByteStart := (first = 0xe0 ∧ 0xa0 ≤ second ∧ second ≤ 0xbf) ∨
              (((0xe1 ≤ first ∧ first ≤ 0xec) ∨ (0xee ≤ first ∧ first ≤ 0xef)) ∧ isContinuationByte second) ∨
              (first = 0xed ∧ 0x80 ≤ second ∧ second ≤ 0x9f)
            if isThreeByteStart then if isContinuationByte third then 3 else 0
            else match rest with
              | [] => 0
              | fourth :: _ =>
                let isFourByteStart := (first = 0xf0 ∧ 0x90 ≤ second ∧ second ≤ 0xbf) ∨
                  ((0xf1 ≤ first ∧ first ≤ 0xf3) ∧ isContinuationByte second) ∨
                  (first = 0xf4 ∧ 0x80 ≤ second ∧ second ≤ 0x8f)
                if isFourByteStart ∧ isContinuationByte third ∧ isContinuationByte fourth then 4 else 0

/-- The loop of `from_utf8`, which stops at the first code point that is not well formed. -/
def countValidUtf8Loop : Nat → List UInt8 → Nat
  | 0, _ => 0
  | turnCount + 1, textBytes =>
    let codePointByteCount := countCodePointBytes textBytes
    if codePointByteCount = 0 then 0
    else codePointByteCount + countValidUtf8Loop turnCount (textBytes.drop codePointByteCount)

def countValidUtf8PrefixBytes (textBytes : List UInt8) : Nat := countValidUtf8Loop textBytes.length textBytes

/-! ### Bytes -/

def isFinalByte : Bool := 0x40 ≤ byte && byte ≤ 0x7e

/-- The bytes that end a scan inside a control sequence. -/
def isControlSequenceStop : Bool :=
  byte = cancelByte || byte = substituteByte || byte = escapeByte || isFinalByte byte

/-- The bytes that end a scan inside a string body. -/
def isStringBodyStop (stringKind : C1StringKind) (byte : UInt8) : Bool :=
  byte = cancelByte || byte = substituteByte || byte = escapeByte || 0x80 ≤ byte || (byte = 0x07 && stringKind = .osc)

def findFinalByteControl : Option SynchronizedControl :=
  if byte = 0x68 then some .beginControl else if byte = 0x6c then some .endControl else none

variable (normalizer : C1InputNormalizer) (terminalInputBytes : List UInt8)

namespace C1InputNormalizer

def default : C1InputNormalizer := ⟨.ground, 0, fun _ => 0, 0, 0⟩

/-! ### The trailing bytes -/

/-- The contents of the ring, oldest byte first. -/
def listTrailingBytes (normalizer : C1InputNormalizer) : List UInt8 :=
  (List.range normalizer.trailingByteCount).map fun index => normalizer.trailingBytes
    (normalizer.trailingStartIndex + Fin.ofNat 8 (8 - normalizer.trailingByteCount + index))

def pushTrailingByte (trailingByte : UInt8) : C1InputNormalizer :=
  { normalizer with
    trailingBytes := Function.update normalizer.trailingBytes normalizer.trailingStartIndex trailingByte
    trailingStartIndex := normalizer.trailingStartIndex + 1
    trailingByteCount := min (normalizer.trailingByteCount + 1) 8 }

/-- Records bytes that went out; eight or more replace the ring and restart it. -/
def pushTrailingBytes (trailingBytes : List UInt8) : C1InputNormalizer :=
  if trailingBytes.length ≥ 8 then
    { normalizer with
      trailingBytes := fun index => (trailingBytes.drop (trailingBytes.length - 8)).getD index 0
      trailingByteCount := 8
      trailingStartIndex := 0 }
  else trailingBytes.foldl pushTrailingByte normalizer

/-- Whether the last eight bytes are the marker of `synchronizedControl`. -/
def isSynchronizedControlInTrailingBytes (synchronizedControl : SynchronizedControl) : Bool :=
  if normalizer.trailingByteCount ≠ 8 then false
  else synchronizedControl.markerBytes.zipIdx.all fun (expectedByte, trailingByteIndex) =>
    normalizer.trailingBytes (normalizer.trailingStartIndex + Fin.ofNat 8 trailingByteIndex) = expectedByte

/-! ### One byte -/

/-- The state after the byte behind an `ESC`. -/
def advanceEscape (terminalInputByte : UInt8) : C1InputState :=
  if terminalInputByte = cancelByte ∨ terminalInputByte = substituteByte then .ground
  else if terminalInputByte = escapeByte then .escape
  else if 0x20 ≤ terminalInputByte ∧ terminalInputByte ≤ 0x2f then .escapeIntermediate
  else if terminalInputByte = 0x50 then .string .dcs
  else if terminalInputByte = 0x58 ∨ terminalInputByte = 0x5e ∨ terminalInputByte = 0x5f then .string .dropped
  else if terminalInputByte = 0x5b then .csi
  else if terminalInputByte = 0x5d then .string .osc
  else if 0x30 ≤ terminalInputByte ∧ terminalInputByte ≤ 0x7e then .ground
  else .escape

/-- The state after a byte that is not rewritten, with the control its final byte can complete. -/
def advanceTerminalInputState (inputState : C1InputState) (terminalInputByte : UInt8) :
    C1InputState × Option SynchronizedControl :=
  match inputState with
  | .ground => (if terminalInputByte = escapeByte then .escape else .ground, none)
  | .escape => (advanceEscape terminalInputByte, none)
  | .escapeIntermediate =>
    (if terminalInputByte = cancelByte ∨ terminalInputByte = substituteByte ∨
        (0x30 ≤ terminalInputByte ∧ terminalInputByte ≤ 0x7e) then .ground
      else if terminalInputByte = escapeByte then .escape
      else .escapeIntermediate, none)
  | .csi =>
    if terminalInputByte = cancelByte ∨ terminalInputByte = substituteByte then (.ground, none)
    else if terminalInputByte = escapeByte then (.escape, none)
    else if isFinalByte terminalInputByte then (.ground, findFinalByteControl terminalInputByte)
    else (.csi, none)
  | .string stringKind =>
    (if terminalInputByte = cancelByte ∨ terminalInputByte = substituteByte then .ground
      else if terminalInputByte = escapeByte then .stringEscape stringKind
      else if terminalInputByte = 0x07 ∧ stringKind = .osc then .ground
      else .string stringKind, none)
  | .stringEscape stringKind =>
    (if terminalInputByte = cancelByte ∨ terminalInputByte = substituteByte ∨ terminalInputByte = 0x5c then .ground
      else if terminalInputByte = escapeByte then .stringEscape stringKind
      else .string stringKind, none)

def countAnnouncedContinuations : Nat :=
  if 0xc2 ≤ byte ∧ byte ≤ 0xdf then 1
  else if 0xe0 ≤ byte ∧ byte ≤ 0xef then 2
  else if 0xf0 ≤ byte ∧ byte ≤ 0xf4 then 3
  else 0

/-- The seven-bit form of an eight-bit control that opens a string or a sequence in the ground state. -/
def findGroundReplacement : Option (List UInt8 × C1InputState) :=
  if byte = 0x90 then some ([0x1b, 0x50], .string .dcs)
  else if byte = 0x98 then some ([0x1b, 0x58], .string .dropped)
  else if byte = 0x9e then some ([0x1b, 0x5e], .string .dropped)
  else if byte = 0x9d then some ([0x1b, 0x5d], .string .osc)
  else if byte = 0x9b then some ([0x1b, 0x5b], .csi)
  else if byte = 0x9f then some ([0x1b, 0x5f], .string .dropped)
  else none

/-- Whether the state is a string body or an `ESC` in one. -/
def isInString : C1InputState → Bool
  | .string _ | .stringEscape _ => true
  | _ => false

def findReplacement (inputState : C1InputState) (byte : UInt8) : Option (List UInt8 × C1InputState) :=
  if inputState = .ground then findGroundReplacement byte
  else if isInString inputState ∧ byte = 0x9c then some ([0x1b, 0x5c], .ground)
  else none

/-- The bytes in which a UTF-8 code point is followed. -/
def followsUtf8 : C1InputState → Bool
  | .ground | .string _ => true
  | _ => false

/-- The rest of `normalize_terminal_input_byte`, for a byte that is no part of a UTF-8 code point. -/
def normalizeControlByte (terminalInputByte : UInt8) :
    C1InputNormalizer × Option (List UInt8) × Option SynchronizedControl :=
  match findReplacement normalizer.inputState terminalInputByte with
  | some (replacementBytes, inputState) => ({ normalizer with inputState }, some replacementBytes, none)
  | none =>
    let advanced := advanceTerminalInputState normalizer.inputState terminalInputByte
    ({ normalizer with inputState := advanced.1 }, none, advanced.2)

/-- One byte on the slow path: the replacement bytes, if any, and the control a final byte can complete. -/
def normalizeTerminalInputByte (terminalInputByte : UInt8) :
    C1InputNormalizer × Option (List UInt8) × Option SynchronizedControl :=
  if followsUtf8 normalizer.inputState then
    if normalizer.remainingUtf8ContinuationCount ≠ 0 ∧ isContinuationByte terminalInputByte then
      ({ normalizer with
        remainingUtf8ContinuationCount := normalizer.remainingUtf8ContinuationCount - 1 }, none, none)
    else
      let announced := countAnnouncedContinuations terminalInputByte
      if announced ≠ 0 then ({ normalizer with remainingUtf8ContinuationCount := announced }, none, none)
      else normalizeControlByte { normalizer with remainingUtf8ContinuationCount := 0 } terminalInputByte
  else normalizeControlByte { normalizer with remainingUtf8ContinuationCount := 0 } terminalInputByte

/-! ### The fast scans -/

/-- The leading bytes that cannot change the normalizer state. -/
def getPlainTerminalInputByteCount : Nat :=
  if normalizer.remainingUtf8ContinuationCount ≠ 0 then 0
  else match normalizer.inputState with
    | .ground => countValidUtf8PrefixBytes (terminalInputBytes.takeWhile (· ≠ escapeByte))
    | .csi => (terminalInputBytes.takeWhile fun byte => !isControlSequenceStop byte).length
    | .string stringKind => (terminalInputBytes.takeWhile fun byte => !isStringBodyStop stringKind byte).length
    | .escape | .escapeIntermediate | .stringEscape _ => 0

def findCompleteControlSequenceByteCount : Option Nat :=
  if normalizer.inputState ≠ .ground then none
  else match terminalInputBytes with
    | first :: second :: parameterBytes =>
      if first = escapeByte ∧ second = 0x5b then
        match parameterBytes.findIdx? isControlSequenceStop with
        | none => none
        | some finalByteIndex =>
          if isFinalByte (parameterBytes.getD finalByteIndex 0) then some (finalByteIndex + 3) else none
      else none
    | _ => none

end C1InputNormalizer

/-! ### One chunk -/

/-- The loop variables of `normalize_terminal_input_bytes`; no buffer is built while nothing was rewritten. -/
structure NormalizeLoop where
  normalizer : C1InputNormalizer
  normalizedBytes : Option (List UInt8)
  synchronizedControls : List (Nat × SynchronizedControl)
  byteIndex : Nat

namespace NormalizeLoop

/-- A marker that the trailing bytes confirm is listed with the index its bytes end at. -/
def recordControl (loop : NormalizeLoop) (synchronizedControl : Option SynchronizedControl) : NormalizeLoop :=
  match synchronizedControl.filter (loop.normalizer.isSynchronizedControlInTrailingBytes ·) with
  | none => loop
  | some synchronizedControl =>
    { loop with
      synchronizedControls := loop.synchronizedControls ++
        [((loop.normalizedBytes.map List.length).getD loop.byteIndex, synchronizedControl)] }

def copyBytes (loop : NormalizeLoop) (normalizer : C1InputNormalizer) (copiedBytes : List UInt8) : NormalizeLoop :=
  { loop with
    normalizer := normalizer.pushTrailingBytes copiedBytes
    normalizedBytes := loop.normalizedBytes.map (· ++ copiedBytes)
    byteIndex := loop.byteIndex + copiedBytes.length }

def replaceByte (loop : NormalizeLoop) (normalizer : C1InputNormalizer) (terminalInputBytes : List UInt8)
    (replacementBytes : List UInt8) : NormalizeLoop :=
  { loop with
    normalizer := normalizer.pushTrailingBytes replacementBytes
    normalizedBytes := some (loop.normalizedBytes.getD (terminalInputBytes.take loop.byteIndex) ++ replacementBytes)
    byteIndex := loop.byteIndex + 1 }

/-- One turn of the loop: a plain run, a complete control sequence, or one byte on the slow path. -/
def step (loop : NormalizeLoop) : NormalizeLoop :=
  let remainingBytes := terminalInputBytes.drop loop.byteIndex
  let plainByteCount := loop.normalizer.getPlainTerminalInputByteCount remainingBytes
  if plainByteCount ≠ 0 then loop.copyBytes loop.normalizer (remainingBytes.take plainByteCount)
  else match loop.normalizer.findCompleteControlSequenceByteCount remainingBytes with
    | some controlSequenceByteCount =>
      let controlSequenceBytes := remainingBytes.take controlSequenceByteCount
      (loop.copyBytes { loop.normalizer with remainingUtf8ContinuationCount := 0 } controlSequenceBytes).recordControl
        (findFinalByteControl (controlSequenceBytes.getLastD 0))
    | none =>
      match remainingBytes with
      | [] => loop
      | terminalInputByte :: _ =>
        let normalized := loop.normalizer.normalizeTerminalInputByte terminalInputByte
        (match normalized.2.1 with
          | some replacementBytes => loop.replaceByte normalized.1 terminalInputBytes replacementBytes
          | none => loop.copyBytes normalized.1 [terminalInputByte]).recordControl normalized.2.2

def run (terminalInputBytes : List UInt8) : Nat → NormalizeLoop → NormalizeLoop
  | 0, loop => loop
  | turnCount + 1, loop =>
    if loop.byteIndex < terminalInputBytes.length then run terminalInputBytes turnCount (loop.step terminalInputBytes)
    else loop

end NormalizeLoop

/-- Normalizes one chunk. Every turn reads a byte, so one turn per byte is enough. -/
def C1InputNormalizer.normalizeTerminalInputBytes :
    NormalizedTerminalInput :=
  let loop := NormalizeLoop.run terminalInputBytes terminalInputBytes.length ⟨normalizer, none, [], 0⟩
  ⟨loop.normalizer, loop.normalizedBytes.getD terminalInputBytes, loop.synchronizedControls⟩

end Koshi.Terminal
