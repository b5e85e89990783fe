/-!
# Decoding UTF-8 with replacement

The bytes of a text as characters, where each maximal part that begins no character is one replacement character.
-/

namespace Koshi.Base

/-- A byte that continues a character. -/
def isContinuationByte (byte : UInt8) : Bool := 0x80 ≤ byte && byte ≤ 0xbf

def continuationBits (byte : UInt8) : Nat := byte.toNat % 64

def isSecondOfThree (leadByte second : UInt8) : Bool :=
  if leadByte = 0xe0 then 0xa0 ≤ second && second ≤ 0xbf
  else if leadByte = 0xed then 0x80 ≤ second && second ≤ 0x9f
  else isContinuationByte second

def isSecondOfFour (leadByte second : UInt8) : Bool :=
  if leadByte = 0xf0 then 0x90 ≤ second && second ≤ 0xbf
  else if leadByte = 0xf4 then 0x80 ≤ second && second ≤ 0x8f
  else isContinuationByte second

/-- The character that starts with `leadByte` and how many of the bytes after it belong to it; without one, how many
belong to the part that is replaced. -/
def decodeUtf8From (leadByte : UInt8) (bytes : List UInt8) : Option Char × Nat :=
  if leadByte ≤ 0x7f then (some (Char.ofNat leadByte.toNat), 0)
  else if 0xc2 ≤ leadByte && leadByte ≤ 0xdf then
    match bytes with
    | second :: _ =>
      if isContinuationByte second then
        (some (Char.ofNat (leadByte.toNat % 32 * 64 + continuationBits second)), 1)
      else (none, 0)
    | [] => (none, 0)
  else if 0xe0 ≤ leadByte && leadByte ≤ 0xef then
    match bytes with
    | second :: laterBytes =>
      if isSecondOfThree leadByte second then
        match laterBytes with
        | thirdByte :: _ =>
          if isContinuationByte thirdByte then
            (some (Char.ofNat (leadByte.toNat % 16 * 4096 + continuationBits second * 64 +
              continuationBits thirdByte)), 2)
          else (none, 1)
        | [] => (none, 1)
      else (none, 0)
    | [] => (none, 0)
  else if 0xf0 ≤ leadByte && leadByte ≤ 0xf4 then
    match bytes with
    | second :: laterBytes =>
      if isSecondOfFour leadByte second then
        match laterBytes with
        | thirdByte :: lastBytes =>
          if isContinuationByte thirdByte then
            match lastBytes with
            | fourthByte :: _ =>
              if isContinuationByte fourthByte then
                (some (Char.ofNat (leadByte.toNat % 8 * 262144 + continuationBits second * 4096 +
                  continuationBits thirdByte * 64 + continuationBits fourthByte)), 3)
              else (none, 2)
            | [] => (none, 2)
          else (none, 1)
        | [] => (none, 1)
      else (none, 0)
    | [] => (none, 0)
  else (none, 0)

def decodeUtf8LossyFrom : (skippedByteCount : Nat) → List UInt8 → List Char
  | _, [] => []
  | skippedByteCount + 1, _ :: bytes => decodeUtf8LossyFrom skippedByteCount bytes
  | 0, byte :: bytes =>
    let (character, takenByteCount) := decodeUtf8From byte bytes
    character.getD '\uFFFD' :: decodeUtf8LossyFrom takenByteCount bytes

def fromUtf8Lossy (bytes : List UInt8) : List Char := decodeUtf8LossyFrom 0 bytes

def fromUtf8Character : List UInt8 → Option Char
  | [] => none
  | byte :: bytes =>
    match decodeUtf8From byte bytes with
    | (some character, takenByteCount) => if takenByteCount = bytes.length then some character else none
    | (none, _) => none

example : fromUtf8Lossy [0x6f, 0xc3, 0xa9, 0xff, 0xe2, 0x82, 0x41] = ['o', 'é', '\uFFFD', '\uFFFD', 'A'] := by decide

end Koshi.Base
