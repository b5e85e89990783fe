import Koshi.Core.KeyText

/-!
# Events of the host terminal

What the parser of the outer terminal's input reports (`koshi-input/src/host.rs`). The window-size event, which no
parser step builds, is left out.
-/

namespace Koshi.Input.Host

open Koshi.Core

/-- Modifier keys reported with one key or mouse event. -/
structure Modifiers where
  bits : BitVec 8
  deriving DecidableEq, Repr

namespace Modifiers

def none : Modifiers := ⟨0⟩

def shift : Modifiers := ⟨1⟩

def alt : Modifiers := ⟨2⟩

def control : Modifiers := ⟨4⟩

def super : Modifiers := ⟨8⟩

def hyper : Modifiers := ⟨16⟩

def «meta» : Modifiers := ⟨32⟩

def capsLock : Modifiers := ⟨64⟩

def numLock : Modifiers := ⟨128⟩

def hasAllModifiers (modifiers requiredModifiers : Modifiers) : Bool :=
  modifiers.bits &&& requiredModifiers.bits == requiredModifiers.bits

/-- `BitOr`. -/
def union (leftModifiers rightModifiers : Modifiers) : Modifiers := ⟨leftModifiers.bits ||| rightModifiers.bits⟩

end Modifiers

/-- A key identity that can be bound or sent to a pane. -/
inductive KeyCode where
  | char (character : Char)
  | enter
  | backspace
  | tab
  | escape
  | left
  | right
  | up
  | down
  | home
  | «end»
  | backTab
  | pageUp
  | pageDown
  | insert
  | delete
  | function (functionKeyNumber : Nat)
  /-- A reported key with no key form of its own, by its codepoint. -/
  | codepoint (codepoint : Nat)
  deriving DecidableEq, Repr

deriving instance Repr for KeyEventKind

structure KeyEvent where
  code : KeyCode
  keyEventKind : KeyEventKind
  modifiers : Modifiers
  shiftedKey : Option Char
  baseLayoutKey : Option Char
  associatedText : List Char
  deriving DecidableEq, Repr

/-- A key press with no alternatives and no text. -/
def KeyEvent.fromKeyCodeAndModifiers (code : KeyCode) (modifiers : Modifiers) : KeyEvent :=
  ⟨code, .press, modifiers, .none, .none, []⟩

def KeyEvent.fromKeyCode (code : KeyCode) : KeyEvent := .fromKeyCodeAndModifiers code .none

inductive MouseButton where
  | left
  | middle
  | right
  deriving DecidableEq, Repr

inductive MouseEventKind where
  | down (button : MouseButton)
  | up (button : MouseButton)
  | drag (button : MouseButton)
  | moved
  | scrollUp
  | scrollDown
  | scrollLeft
  | scrollRight
  deriving DecidableEq, Repr

/-- One mouse event with zero-based cell coordinates. -/
structure MouseEvent where
  mouseEventKind : MouseEventKind
  column : Nat
  row : Nat
  modifiers : Modifiers
  deriving DecidableEq, Repr

structure KittyGraphicsReply where
  imageId : Nat
  isSuccessful : Bool
  deriving DecidableEq, Repr

/-- The status an XTSMGRAPHICS reply reports. -/
inductive GraphicAttributeError where
  | invalidItem
  | invalidAction
  | failure
  deriving DecidableEq, Repr

/-- The result of one XTSMGRAPHICS item query. -/
inductive GraphicAttributeReply where
  /-- The color-register count, or the reported error. -/
  | palette (reply : GraphicAttributeError ⊕ Nat)
  /-- The Sixel geometry in pixels, or the reported error. -/
  | geometry (reply : GraphicAttributeError ⊕ (Nat × Nat))
  deriving DecidableEq, Repr

structure PixelCellSize where
  pixelWidth : Nat
  pixelHeight : Nat
  width_pos : 0 < pixelWidth
  height_pos : 0 < pixelHeight
  deriving DecidableEq, Repr

def PixelCellSize.fromPixelDimensions (pixelWidth pixelHeight : Nat) : Option PixelCellSize :=
  if h : 0 < pixelWidth ∧ 0 < pixelHeight then some ⟨pixelWidth, pixelHeight, h.1, h.2⟩ else .none

/-- One complete event of the host terminal. -/
inductive Event where
  | key (keyEvent : KeyEvent)
  | mouse (mouseEvent : MouseEvent)
  | cellSize (cellSize : PixelCellSize)
  /-- Text between the bracketed-paste markers. -/
  | paste (text : List Char)
  | focusIn
  | focusOut
  | primaryDeviceAttributes (attributes : List Nat)
  | terminalFeatures (features : List UInt8)
  | sixelGraphicsAttributeReply (reply : GraphicAttributeReply)
  | kittyGraphicsReply (reply : KittyGraphicsReply)
  | keyboardEnhancementFlags (enhancementFlags : Nat)
  deriving DecidableEq, Repr

end Koshi.Input.Host
