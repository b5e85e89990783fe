import Koshi.Terminal.InputNormalizer

/-!
# Synchronized output

`SynchronizedOutput` of `koshi-terminal/src/engine.rs`: the bytes of an open synchronized update are held back and
released together. Each call of the release function is recorded with what brought it about. Timestamps count
nanoseconds, and the allocator answers each `try_reserve` of a call from a given list.
-/

namespace Koshi.Terminal

def maxSynchronizedOutputByteCount : Nat := 0x200000

def synchronizedOutputTimeoutDuration : Nat := 150000000

/-- The bytes of a marker, of either kind. -/
def synchronizedMarkerByteCount : Nat := beginSynchronizedOutputBytes.length

/-- The held bytes, and the time at which they are released at the latest. -/
structure SynchronizedOutput where
  bufferedBytes : List UInt8
  deadline : Option Nat
  deriving DecidableEq, Repr

def SynchronizedOutput.default : SynchronizedOutput := ⟨[], none⟩

/-- Why the release function was called. -/
inductive ReleaseCause where
  /-- The bytes were never held. -/
  | direct
  /-- The update ended, or the buffer was full. -/
  | buffered
  /-- The deadline passed. -/
  | expired
  /-- No memory could be reserved to hold more. -/
  | unreserved
  deriving DecidableEq, Repr

/-- One call of the release function. -/
structure Release where
  releasedBytes : List UInt8
  cause : ReleaseCause
  deriving DecidableEq, Repr

/-- The loop variables of `process_normalized_bytes`, with the calls of the release function so far. -/
structure SynchronizedLoop where
  output : SynchronizedOutput
  inputByteIndex : Nat
  nextControlIndex : Nat
  reservationCount : Nat
  releases : List Release
  hasReleasedBytes : Bool

namespace SynchronizedLoop

variable (normalizedInputBytes : List UInt8) (synchronizedControls : List (Nat × SynchronizedControl))
  (monotonicTimestamp : Nat) (canReserve : Nat → Bool)

variable (loop : SynchronizedLoop)

/-- One call of the release function. -/
def release (releasedBytes : List UInt8) (cause : ReleaseCause) : SynchronizedLoop :=
  { loop with releases := loop.releases ++ [⟨releasedBytes, cause⟩] }

def releaseBufferedBytes (cause : ReleaseCause) : SynchronizedLoop :=
  if loop.output.bufferedBytes = [] then { loop with output := ⟨[], none⟩ }
  else { loop.release loop.output.bufferedBytes cause with output := ⟨[], none⟩, hasReleasedBytes := true }

/-- The first `Begin` marker that ends behind the input byte index, with its place among the controls. -/
def findBeginControl : Option (Nat × Nat) :=
  ((synchronizedControls.drop loop.nextControlIndex).zipIdx.find? fun entry =>
    entry.1.2 = .beginControl ∧ entry.1.1 > loop.inputByteIndex).map fun entry =>
      (loop.nextControlIndex + entry.2, entry.1.1)

/-- Nothing is held: the bytes up to the next `Begin` marker go out, and the marker is held. -/
def stepDirect : SynchronizedLoop :=
  match loop.findBeginControl synchronizedControls with
  | none =>
    { loop.release (normalizedInputBytes.drop loop.inputByteIndex) .direct with
      inputByteIndex := normalizedInputBytes.length
      hasReleasedBytes := loop.hasReleasedBytes || loop.inputByteIndex < normalizedInputBytes.length }
  | some (controlIndex, controlEndIndex) =>
    let heldByteCount := min synchronizedMarkerByteCount (controlEndIndex - loop.inputByteIndex)
    let directReleaseEndIndex := controlEndIndex - heldByteCount
    let heldBytes := (normalizedInputBytes.drop directReleaseEndIndex).take (controlEndIndex - directReleaseEndIndex)
    let released := loop.release ((normalizedInputBytes.drop loop.inputByteIndex).take
      (directReleaseEndIndex - loop.inputByteIndex)) .direct
    let hasReleasedBytes := loop.hasReleasedBytes || loop.inputByteIndex < directReleaseEndIndex
    if canReserve loop.reservationCount then
      { released with
        output :=
          ⟨loop.output.bufferedBytes ++ heldBytes, some (monotonicTimestamp + synchronizedOutputTimeoutDuration)⟩
        inputByteIndex := controlEndIndex
        nextControlIndex := controlIndex + 1
        reservationCount := loop.reservationCount + 1
        hasReleasedBytes }
    else
      { released.release heldBytes .unreserved with
        inputByteIndex := controlEndIndex
        nextControlIndex := controlIndex + 1
        reservationCount := loop.reservationCount + 1
        hasReleasedBytes := true }

/-- The last markers of each kind among the bytes just read, by their start in the buffer. -/
structure ScannedControls where
  lastBeginIndex : Option Nat
  lastEndIndex : Option Nat
  nextControlIndex : Nat

/-- The inner loop over the controls that end by `inputEndIndex`; no value where the marker starts before the held
bytes, which the source expects not to happen. -/
def scanControls (bufferedByteCount inputByteIndex inputEndIndex : Nat) :
    List (Nat × SynchronizedControl) → ScannedControls → Option ScannedControls
  | [], scanned => some scanned
  | (controlEndIndex, control) :: restControls, scanned =>
    if controlEndIndex > inputEndIndex then some scanned
    else if controlEndIndex > inputByteIndex then
      if bufferedByteCount + controlEndIndex - inputByteIndex < synchronizedMarkerByteCount then none
      else
        let controlStartIndex := bufferedByteCount + controlEndIndex - inputByteIndex - synchronizedMarkerByteCount
        scanControls bufferedByteCount inputByteIndex inputEndIndex restControls (match control with
          | .beginControl => { scanned with
              lastBeginIndex := some controlStartIndex, nextControlIndex := scanned.nextControlIndex + 1 }
          | .endControl => { scanned with
              lastEndIndex := some controlStartIndex, nextControlIndex := scanned.nextControlIndex + 1 })
    else scanControls bufferedByteCount inputByteIndex inputEndIndex restControls
      { scanned with nextControlIndex := scanned.nextControlIndex + 1 }

/-- `apply_buffered_controls`: a finished update goes out, and the bytes from a later `Begin` marker stay. -/
def applyBufferedControls (lastBeginIndex lastEndIndex : Option Nat) : SynchronizedLoop :=
  match lastEndIndex with
  | none =>
    if lastBeginIndex.isSome then
      { loop with output := { loop.output with
          deadline := some (monotonicTimestamp + synchronizedOutputTimeoutDuration) } }
    else loop
  | some endIndex =>
    match lastBeginIndex.filter (fun beginIndex => beginIndex > endIndex) with
    | some beginIndex =>
      { loop.release (loop.output.bufferedBytes.take beginIndex) .buffered with
        output := ⟨loop.output.bufferedBytes.drop beginIndex,
          some (monotonicTimestamp + synchronizedOutputTimeoutDuration)⟩
        hasReleasedBytes := true }
    | none => loop.releaseBufferedBytes .buffered

def releaseFullBuffer : SynchronizedLoop :=
  if loop.output.deadline.isSome ∧ loop.output.bufferedBytes.length = maxSynchronizedOutputByteCount then
    loop.releaseBufferedBytes .buffered
  else loop

/-- Bytes are held: the next ones join them, as far as the buffer goes. -/
def stepHeld : Option SynchronizedLoop :=
  let availableByteCount := maxSynchronizedOutputByteCount - loop.output.bufferedBytes.length
  let readByteCount := min availableByteCount (normalizedInputBytes.length - loop.inputByteIndex)
  if canReserve loop.reservationCount then
    let inputEndIndex := loop.inputByteIndex + readByteCount
    (scanControls loop.output.bufferedBytes.length loop.inputByteIndex inputEndIndex
      (synchronizedControls.drop loop.nextControlIndex) ⟨none, none, loop.nextControlIndex⟩).map fun scanned =>
        let read : SynchronizedLoop := { loop with
          output := { loop.output with bufferedBytes := loop.output.bufferedBytes ++
            (normalizedInputBytes.drop loop.inputByteIndex).take readByteCount }
          reservationCount := loop.reservationCount + 1
          nextControlIndex := scanned.nextControlIndex }
        releaseFullBuffer
          { read.applyBufferedControls monotonicTimestamp scanned.lastBeginIndex scanned.lastEndIndex with
            inputByteIndex := inputEndIndex }
  else some { loop.releaseBufferedBytes .unreserved with reservationCount := loop.reservationCount + 1 }

/-- One turn of the loop. -/
def step : Option SynchronizedLoop :=
  if loop.output.deadline = none then
    some (loop.stepDirect normalizedInputBytes synchronizedControls monotonicTimestamp canReserve)
  else loop.stepHeld normalizedInputBytes synchronizedControls monotonicTimestamp canReserve

/-- At most `turnCount` turns; no value where the source would panic or turn on. -/
def run : Nat → SynchronizedLoop → Option SynchronizedLoop
  | 0, loop => if loop.inputByteIndex < normalizedInputBytes.length then none else some loop
  | turnCount + 1, loop =>
    if loop.inputByteIndex < normalizedInputBytes.length then
      (loop.step normalizedInputBytes synchronizedControls monotonicTimestamp canReserve).bind (run turnCount)
    else some loop

end SynchronizedLoop

namespace SynchronizedOutput

/-- Whether the deadline has passed. -/
def isExpired (output : SynchronizedOutput) (monotonicTimestamp : Nat) : Bool :=
  output.deadline.any (· ≤ monotonicTimestamp)

/-- One chunk. A turn reads a byte or empties the buffer, so two turns per byte and one more are enough. -/
def processNormalizedBytes (output : SynchronizedOutput) (normalizedInputBytes : List UInt8)
    (synchronizedControls : List (Nat × SynchronizedControl)) (monotonicTimestamp : Nat) (canReserve : Nat → Bool) :
    Option SynchronizedLoop :=
  let loop : SynchronizedLoop := ⟨output, 0, 0, 0, [], false⟩
  let started := if output.isExpired monotonicTimestamp then loop.releaseBufferedBytes .expired else loop
  started.run normalizedInputBytes synchronizedControls monotonicTimestamp canReserve
    (2 * normalizedInputBytes.length + 1)

/-- What a passed deadline releases, between two chunks. -/
def releaseExpiredBytes (output : SynchronizedOutput) (monotonicTimestamp : Nat) : SynchronizedLoop :=
  let loop : SynchronizedLoop := ⟨output, 0, 0, 0, [], false⟩
  if output.isExpired monotonicTimestamp then loop.releaseBufferedBytes .expired else loop

end SynchronizedOutput

/-! ### Whole streams -/

/-- A marker of the stream, where the part of it that can be held starts, and where it ends. The bytes of a marker
that came in an earlier chunk than its last byte are not held for it. -/
structure SynchronizedMarker where
  startIndex : Nat
  endIndex : Nat
  control : SynchronizedControl
  deriving DecidableEq, Repr

/-- The markers of a chunk that follows `precedingByteCount` bytes. -/
def listMarkers (precedingByteCount : Nat) (synchronizedControls : List (Nat × SynchronizedControl)) :
    List SynchronizedMarker :=
  synchronizedControls.map fun control =>
    ⟨precedingByteCount + (control.1 - synchronizedMarkerByteCount), precedingByteCount + control.1, control.2⟩

/-- A pane's input so far: what the normalizer gave, its markers, and what was released and is still held. -/
structure SynchronizedStream where
  normalizer : C1InputNormalizer
  inputBytes : List UInt8
  markers : List SynchronizedMarker
  output : SynchronizedOutput
  releases : List Release

/-- What can happen next. -/
inductive SynchronizedEvent where
  /-- A chunk of terminal input at a time, and how each reservation of memory goes. -/
  | chunk (terminalInputBytes : List UInt8) (monotonicTimestamp : Nat) (canReserve : Nat → Bool)
  /-- The deadline is looked at. -/
  | expire (monotonicTimestamp : Nat)

namespace SynchronizedStream

def start : SynchronizedStream := ⟨C1InputNormalizer.default, [], [], SynchronizedOutput.default, []⟩

/-- One event; no value where the source would panic. -/
def step (stream : SynchronizedStream) : SynchronizedEvent → Option SynchronizedStream
  | .chunk terminalInputBytes monotonicTimestamp canReserve =>
    let normalized := stream.normalizer.normalizeTerminalInputBytes terminalInputBytes
    (stream.output.processNormalizedBytes normalized.normalizedBytes normalized.synchronizedControls monotonicTimestamp
      canReserve).map fun loop =>
        { normalizer := normalized.normalizer
          inputBytes := stream.inputBytes ++ normalized.normalizedBytes
          markers := stream.markers ++ listMarkers stream.inputBytes.length normalized.synchronizedControls
          output := loop.output
          releases := stream.releases ++ loop.releases }
  | .expire monotonicTimestamp =>
    let loop := stream.output.releaseExpiredBytes monotonicTimestamp
    some { stream with output := loop.output, releases := stream.releases ++ loop.releases }

/-- A sequence of events from a fresh engine. -/
def run (events : List SynchronizedEvent) : Option SynchronizedStream := events.foldlM step start

end SynchronizedStream

end Koshi.Terminal
