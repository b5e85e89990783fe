import Mathlib.Algebra.Group.Nat.Defs
import Mathlib.Data.List.Basic

/-!
# The paint window

How many bytes of painted updates one connection may have in flight (`koshi-runtime/src/ipc_server/paint_window.rs`).
The writing thread records each update it sends and each paint report it reads, and changes the window after every
third measurement of a round trip.

Durations are nanoseconds. Sums, products and quotients that the source leaves unsaturated are checked: `none` is a
panic or an overflow.
-/

namespace Koshi.Runtime

/-- A reading of the monotonic clock, in nanoseconds. Its seconds are a nonnegative `i64`. -/
structure Instant where
  nanoseconds : Nat
  inRange : nanoseconds < 2 ^ 63 * 1000000000
  deriving DecidableEq

def Instant.saturatingDurationSince (instant earlier : Instant) : Nat := instant.nanoseconds - earlier.nanoseconds

def Duration.fromMillis (milliseconds : Nat) : Nat := milliseconds * 1000000

def Duration.asMicros (duration : Nat) : Nat := duration / 1000

/-! ### Checked arithmetic -/

/-- A value below `bound`, or an overflow. -/
def checked (bound value : Nat) : Option Nat := if value < bound then some value else none

/-- A quotient, or a division by zero. -/
def checkedDiv (numerator denominator : Nat) : Option Nat :=
  if denominator = 0 then none else some (numerator / denominator)

def Duration.checkedMul (duration : Nat) (factor : Nat) : Option Nat :=
  checked (2 ^ 64 * 1000000000) (duration * factor)

/-! ### Constants -/

def initialWindowByteCount : Nat := 64 * 1024

def minimumWindowByteCount : Nat := 4 * 1024

def maximumWindowByteCount : Nat := 4 * 1024 * 1024

def maximumWindowStepByteCount : Nat := 4 * 1024

def windowStepDuration : Nat := Duration.fromMillis 10

def measurementCountPerChange : Nat := 3

def minimumRoundTripDuration : Nat := Duration.fromMillis 1

def roundTripGrowthMarginDuration : Nat := Duration.fromMillis 25

def roundTripFastGrowthMarginDuration : Nat := Duration.fromMillis 5

def roundTripShrinkMarginDuration : Nat := Duration.fromMillis 50

def latencySpikeMarginDuration : Nat := Duration.fromMillis 100

def minimumIdleDuration : Nat := Duration.fromMillis 100

/-! ### State -/

/-- The measurements since the last change of the window. -/
structure MeasurementBatch where
  measurementCount : Nat
  lowestRoundTrip : Option Nat
  lowestFilledRoundTrip : Option Nat
  deriving DecidableEq

def MeasurementBatch.default : MeasurementBatch := ⟨0, none, none⟩

/-- One update sent and not yet reported painted. -/
structure InFlightUpdate where
  updateSequence : Nat
  sentAt : Instant
  endBytePosition : Nat
  /-- The bytes in flight reached the window once the update went out. -/
  isWindowFilled : Bool
  deriving DecidableEq

structure PaintWindow where
  windowByteCount : Nat
  isDoubling : Bool
  baseRoundTrip : Option Nat
  measurementBatch : MeasurementBatch
  /-- The last update sent when the window last changed. -/
  changedThroughUpdateSequence : Nat
  /-- The updates sent and not yet reported painted, oldest first. -/
  inFlightUpdates : List InFlightUpdate
  /-- The written byte count at the end of the last update reported painted. -/
  paintedBytePosition : Nat
  lastSentUpdateSequence : Nat
  hasPaintReport : Bool
  flightEmptiedAt : Option Instant
  deriving DecidableEq

structure PaintedUpdateReport where
  updateSequence : Nat
  reportedAt : Instant
  deriving DecidableEq

inductive PaintReportError where
  | unsentUpdate (reportedUpdateSequence lastSentUpdateSequence : Nat)
  deriving DecidableEq

def scaleByteCount (byteCount : Nat) (numerator denominator : Nat) : Option Nat := do
  let product ← checked (2 ^ 128) (byteCount * Duration.asMicros numerator)
  let scaledByteCount ← checkedDiv product (Duration.asMicros denominator)
  some (min scaledByteCount (2 ^ 64 - 1))

namespace PaintWindow

/-- The window of a connection that has sent nothing. -/
def new : PaintWindow where
  windowByteCount := initialWindowByteCount
  isDoubling := true
  baseRoundTrip := none
  measurementBatch := .default
  changedThroughUpdateSequence := 0
  inFlightUpdates := []
  paintedBytePosition := 0
  lastSentUpdateSequence := 0
  hasPaintReport := false
  flightEmptiedAt := none

variable (paintWindow : PaintWindow)

/-- The next update may go out when the connection has written `writtenByteCount` bytes. -/
def canSendUpdate (writtenByteCount : Nat) : Bool :=
  if paintWindow.inFlightUpdates.isEmpty then true
  else paintWindow.hasPaintReport && writtenByteCount - paintWindow.paintedBytePosition < paintWindow.windowByteCount

/-- A window over the initial one drops to it, the base and the batch are cleared, and the window doubles. -/
def startWindowOver : PaintWindow :=
  { paintWindow with
    windowByteCount := min paintWindow.windowByteCount initialWindowByteCount
    isDoubling := true
    baseRoundTrip := none
    measurementBatch := .default }

/-- The idle time is longer than two base round trips. -/
def isIdlePastBase (baseRoundTrip : Option Nat) (idleDuration : Nat) : Option Bool :=
  match baseRoundTrip with
  | none => some true
  | some baseRoundTrip => (Duration.checkedMul baseRoundTrip 2).map fun doubled => decide (idleDuration > doubled)

/-- The flight was empty for long enough before `writeStartedAt` that the window starts over. -/
def isIdleBefore (writeStartedAt : Instant) : Option Bool :=
  if paintWindow.inFlightUpdates.isEmpty then
    match paintWindow.flightEmptiedAt with
    | none => some false
    | some flightEmptiedAt =>
      let idleDuration := writeStartedAt.saturatingDurationSince flightEmptiedAt
      (isIdlePastBase paintWindow.baseRoundTrip idleDuration).map fun isIdlePastBase =>
        decide (idleDuration > minimumIdleDuration) && isIdlePastBase
  else some false

def buildInFlightUpdate (updateSequence endBytePosition : Nat) (sentAt : Instant) : InFlightUpdate where
  updateSequence := updateSequence
  sentAt := sentAt
  endBytePosition := endBytePosition
  isWindowFilled := decide (endBytePosition - paintWindow.paintedBytePosition ≥ paintWindow.windowByteCount)

def recordUpdateSent (updateSequence endBytePosition : Nat) (writeStartedAt sentAt : Instant) : Option PaintWindow := do
  let isIdle ← paintWindow.isIdleBefore writeStartedAt
  let paintWindow := if isIdle then paintWindow.startWindowOver else paintWindow
  some { paintWindow with
    inFlightUpdates := paintWindow.inFlightUpdates ++
      [paintWindow.buildInFlightUpdate updateSequence endBytePosition sentAt]
    lastSentUpdateSequence := updateSequence }

def isFilledExcessBelow (baseRoundTrip : Nat) (filledRoundTrip : Option Nat) (margin : Nat) : Bool :=
  filledRoundTrip.any fun filledRoundTrip => filledRoundTrip - baseRoundTrip < margin

variable (baseRoundTrip measuredRoundTrip : Nat)

/-- The window times the base over the measured round trip; it stops doubling. -/
def scaleWindow : Option PaintWindow :=
  (scaleByteCount paintWindow.windowByteCount baseRoundTrip measuredRoundTrip).map fun windowByteCount =>
    { paintWindow with windowByteCount, isDoubling := false }

def changeForSpike : Option PaintWindow :=
  if measuredRoundTrip - baseRoundTrip > latencySpikeMarginDuration ∧
      measuredRoundTrip - baseRoundTrip > baseRoundTrip / 2 then
    paintWindow.scaleWindow baseRoundTrip measuredRoundTrip
  else some paintWindow

def changeDoubling (filledRoundTrip : Option Nat) : Option PaintWindow :=
  if measuredRoundTrip - baseRoundTrip > roundTripGrowthMarginDuration then
    paintWindow.scaleWindow baseRoundTrip measuredRoundTrip
  else if isFilledExcessBelow baseRoundTrip filledRoundTrip roundTripGrowthMarginDuration then
    some { paintWindow with windowByteCount := min (paintWindow.windowByteCount * 2) (2 ^ 64 - 1) }
  else some paintWindow

def growWindow (byteCount : Nat) : Option PaintWindow :=
  (checked (2 ^ 64) (paintWindow.windowByteCount + byteCount)).map fun windowByteCount =>
    { paintWindow with windowByteCount }

def changeBySteps (filledRoundTrip : Option Nat) : Option PaintWindow := do
  let scaledByteCount ← scaleByteCount paintWindow.windowByteCount windowStepDuration measuredRoundTrip
  let windowStepByteCount := min scaledByteCount maximumWindowStepByteCount
  if measuredRoundTrip - baseRoundTrip > roundTripShrinkMarginDuration then
    some { paintWindow with windowByteCount := paintWindow.windowByteCount - windowStepByteCount }
  else if isFilledExcessBelow baseRoundTrip filledRoundTrip roundTripFastGrowthMarginDuration then do
    let twoSteps ← checked (2 ^ 64) (2 * windowStepByteCount)
    paintWindow.growWindow twoSteps
  else if isFilledExcessBelow baseRoundTrip filledRoundTrip roundTripGrowthMarginDuration then
    paintWindow.growWindow windowStepByteCount
  else some paintWindow

/-- Changes the window once, from the base, the batch's lowest round trip, and its lowest round trip of an update that
filled the window. -/
def changeWindow (filledRoundTrip : Option Nat) : Option PaintWindow := do
  let paintWindow ← paintWindow.changeForSpike baseRoundTrip measuredRoundTrip
  let paintWindow ←
    if paintWindow.isDoubling then paintWindow.changeDoubling baseRoundTrip measuredRoundTrip filledRoundTrip
    else paintWindow.changeBySteps baseRoundTrip measuredRoundTrip filledRoundTrip
  some { paintWindow with
    windowByteCount := max minimumWindowByteCount (min paintWindow.windowByteCount maximumWindowByteCount) }

def lowerRoundTrip (lowestRoundTrip : Option Nat) (roundTrip : Nat) : Nat :=
  (lowestRoundTrip.map fun lowest => min lowest roundTrip).getD roundTrip

def recordMeasurement (paintedUpdate : InFlightUpdate) (roundTrip : Nat) : Option PaintWindow := do
  let baseRoundTrip := lowerRoundTrip paintWindow.baseRoundTrip roundTrip
  let paintWindow := { paintWindow with baseRoundTrip := some baseRoundTrip }
  if paintedUpdate.updateSequence ≤ paintWindow.changedThroughUpdateSequence then some paintWindow
  else do
    let measurementBatch := paintWindow.measurementBatch
    let measurementCount ← checked (2 ^ 32) (measurementBatch.measurementCount + 1)
    let measuredRoundTrip := lowerRoundTrip measurementBatch.lowestRoundTrip roundTrip
    let lowestFilledRoundTrip :=
      if paintedUpdate.isWindowFilled then some (lowerRoundTrip measurementBatch.lowestFilledRoundTrip roundTrip)
      else measurementBatch.lowestFilledRoundTrip
    if measurementCount < measurementCountPerChange then
      some { paintWindow with
        measurementBatch := ⟨measurementCount, some measuredRoundTrip, lowestFilledRoundTrip⟩ }
    else
      changeWindow { paintWindow with
        measurementBatch := .default
        changedThroughUpdateSequence := paintWindow.lastSentUpdateSequence } baseRoundTrip measuredRoundTrip
        lowestFilledRoundTrip

/-- The loop that takes the updates up to `updateSequence` off the flight; the last one taken is the painted one. -/
def takePaintedUpdates (updateSequence : Nat) : Option InFlightUpdate → List InFlightUpdate →
    Option InFlightUpdate × List InFlightUpdate
  | paintedUpdate, [] => (paintedUpdate, [])
  | paintedUpdate, inFlightUpdate :: inFlightUpdates =>
    if inFlightUpdate.updateSequence ≤ updateSequence then
      takePaintedUpdates updateSequence (some inFlightUpdate) inFlightUpdates
    else (paintedUpdate, inFlightUpdate :: inFlightUpdates)

def measureRoundTrip (paintedUpdateReport : PaintedUpdateReport) (paintedUpdate : InFlightUpdate) : Nat :=
  max (paintedUpdateReport.reportedAt.saturatingDurationSince paintedUpdate.sentAt) minimumRoundTripDuration

/-- Takes the client's report: the window after it, and why the report was refused. -/
def recordUpdatePainted (paintedUpdateReport : PaintedUpdateReport) :
    Option (PaintWindow × Except PaintReportError Unit) :=
  if paintedUpdateReport.updateSequence > paintWindow.lastSentUpdateSequence then
    some (paintWindow, .error (.unsentUpdate paintedUpdateReport.updateSequence paintWindow.lastSentUpdateSequence))
  else
    match takePaintedUpdates paintedUpdateReport.updateSequence none paintWindow.inFlightUpdates with
    | (none, inFlightUpdates) => some ({ paintWindow with inFlightUpdates }, .ok ())
    | (some paintedUpdate, inFlightUpdates) => do
      let paintWindow ← recordMeasurement
        { paintWindow with
          inFlightUpdates
          hasPaintReport := true
          paintedBytePosition := paintedUpdate.endBytePosition
          flightEmptiedAt := if inFlightUpdates.isEmpty then some paintedUpdateReport.reportedAt
            else paintWindow.flightEmptiedAt }
        paintedUpdate (measureRoundTrip paintedUpdateReport paintedUpdate)
      some (paintWindow, .ok ())

end PaintWindow

end Koshi.Runtime
