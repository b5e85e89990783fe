import Koshi.Terminal.RowEncoding

/-!
# Row snapshots

One row as frames and history share it (`koshi-terminal/src/grid/row_snapshot.rs`): its cells in the row encoding, how
it ends, and the image data the encoding leaves out. A snapshot never changes once built. The decoded cells that the
source keeps beside it are a cache of `decodeRowCells` and left out.
-/

namespace Koshi.Terminal

/-- Everything the terminal records about a row apart from its cells. -/
structure RowMetadata where
  rowEnd : RowEnd
  hasPromptMark : Bool
  deriving DecidableEq, Repr

def RowMetadata.default : RowMetadata := ⟨.hard, false⟩

instance : Inhabited RowMetadata := ⟨.default⟩

/-- The tail carries a Kitty placeholder or a native image fragment. -/
def CellExtra.hasImageData (cellExtra : CellExtra) : Bool :=
  cellExtra.imagePlaceholder.isSome || !cellExtra.imageFragments.isEmpty

/-- The continuation tail of a cell with image data. -/
def Cell.getImageCellExtra (cell : Cell) : Option CellExtra := cell.combining.filter (·.hasImageData)

/-- Replaces the continuation tail. -/
def Cell.setCellExtra (cell : Cell) (cellExtra : CellExtra) : Cell := { cell with combining := some cellExtra }

/-- One cell of a row with image data: its column and its whole continuation tail. -/
structure RowImageCell where
  columnIndex : Nat
  cellExtra : CellExtra
  deriving DecidableEq, Repr

structure RowSnapshot where
  encodedRowBytes : List UInt8
  rowMetadata : RowMetadata
  textByteCount : Nat
  imageCells : List RowImageCell
  deriving DecidableEq

def listImageCells (columnIndex : Nat) (rowCells : List Cell) : List RowImageCell :=
  (rowCells.zipIdx columnIndex).filterMap fun (cell, index) =>
    cell.getImageCellExtra.map fun cellExtra => ⟨index, cellExtra⟩

namespace RowSnapshot

def fromPaddedRowCells (rowCells : List Cell) (columnCount : Nat) (plainRowStyle : Option Style)
    (rowMetadata : RowMetadata) : RowSnapshot :=
  let (encodedRowBytes, textByteCount) :=
    encodeRowCellsWithBuffers rowCells columnCount plainRowStyle.isSome rowMetadata.rowEnd
  let cellsWithImageData := if plainRowStyle.isSome then [] else rowCells
  ⟨encodedRowBytes, rowMetadata, textByteCount, listImageCells 0 cellsWithImageData⟩

def fromRowCells (rowCells : List Cell) (rowMetadata : RowMetadata) : RowSnapshot :=
  fromPaddedRowCells rowCells rowCells.length none rowMetadata

/-- Puts each image cell's tail back on the cell at its column; `none` where the source panics, on a column past
`rowCells`. -/
def restoreImageCells : List RowImageCell → List Cell → Option (List Cell)
  | [], rowCells => some rowCells
  | imageCell :: imageCells, rowCells =>
    if imageCell.columnIndex < rowCells.length then
      restoreImageCells imageCells (rowCells.modify imageCell.columnIndex (·.setCellExtra imageCell.cellExtra))
    else none

/-- Every cell of the row; `none` where the source panics, on bytes that do not decode. -/
def decodeRowCells (snapshot : RowSnapshot) : Option (List Cell) :=
  match Terminal.decodeRowCells snapshot.encodedRowBytes with
  | .error _ => none
  | .ok decodedRow => restoreImageCells snapshot.imageCells decodedRow.rowCells

/-- The row's shape, read from the header; `none` where the source panics. -/
def getEncodedRowShape (snapshot : RowSnapshot) : Option EncodedRowShape :=
  match readRowHeader snapshot.encodedRowBytes with
  | .error _ => none
  | .ok (encodedRowShape, _) => some encodedRowShape

end RowSnapshot

/-- Why a stored row does not read as a snapshot; the base64 text around its bytes is left out. -/
inductive StoredRowError where
  | undecodable (error : RowDecodeError)
  | rowEndMismatch
  | imageCellPastRow (columnIndex : Nat)
  | imageCellsOutOfOrder
  | imageCellWithoutImage (columnIndex : Nat)
  deriving DecidableEq, Repr

def restoreStoredImageCells : (previousColumnIndex : Option Nat) → List RowImageCell → List Cell →
    Except StoredRowError (List Cell)
  | _, [], rowCells => .ok rowCells
  | previousColumnIndex, imageCell :: imageCells, rowCells =>
    if previousColumnIndex.any (imageCell.columnIndex ≤ ·) then .error .imageCellsOutOfOrder
    else if imageCell.columnIndex < rowCells.length then
      if !imageCell.cellExtra.hasImageData then .error (.imageCellWithoutImage imageCell.columnIndex)
      else restoreStoredImageCells (some imageCell.columnIndex) imageCells
        (rowCells.modify imageCell.columnIndex (·.setCellExtra imageCell.cellExtra))
    else .error (.imageCellPastRow imageCell.columnIndex)

def RowSnapshot.fromStoredRow (encodedRowBytes : List UInt8) (rowMetadata : RowMetadata)
    (imageCells : List RowImageCell) : Except StoredRowError RowSnapshot :=
  match Terminal.decodeRowCells encodedRowBytes with
  | .error error => .error (.undecodable error)
  | .ok decodedRow =>
    if decodedRow.rowEnd ≠ rowMetadata.rowEnd then .error .rowEndMismatch
    else do
      let rowCells ← restoreStoredImageCells none imageCells decodedRow.rowCells
      .ok (.fromRowCells rowCells rowMetadata)

def computeTextByteCount (rowCells : List Cell) (rowEnd : RowEnd) : Nat :=
  let retainedCellCount := if rowEnd = .hard then countRowContentCells rowCells else rowCells.length
  (((rowCells.take retainedCellCount).filter (·.displayWidth ≠ 0)).map fun cell =>
    cell.character.utf8Size + countUtf8Bytes (listEncodedCombiningCharacters cell)).sum

end Koshi.Terminal
