import Koshi.Ipc.Proof.PaintedUpdate

/-!
# The parts of an encoded update

The part writer's bytes are the parts of an abstract list of sections. The invariant names the sections of each
closed part and of the part being filled; joined, they are the panes encoded so far. A part is never larger than the
size limit, or than a part that holds one empty section.
-/

namespace Koshi.Ipc

open Koshi.Core Base OpenSection List Option

/-! ### Joining sections -/

/-- Adds a section to the panes read so far: it opens a pane, or goes on with the rows of the last one. -/
def joinSection (changes : List PaneUpdate) (paneSection : PaneSection) : Option (List PaneUpdate) :=
  match paneSection.paneHeader with
  | some paneHeader => some (changes ++ [⟨paneSection.paneId, paneHeader, paneSection.rowInstructions⟩])
  | none =>
    match changes.getLast? with
    | none => none
    | some last =>
      if last.paneId = paneSection.paneId then
        some (changes.dropLast ++
          [{ last with rowInstructions := last.rowInstructions ++ paneSection.rowInstructions }])
      else none

/-- The panes a list of sections describes; `none` where a section goes on with no pane or with another one. -/
def joinSections (paneSections : List PaneSection) : Option (List PaneUpdate) := paneSections.foldlM joinSection []

variable {paneSections : List PaneSection}

theorem joinSections_concat {changes : List PaneUpdate} (h : joinSections paneSections = some changes)
    (paneSection : PaneSection) :
    joinSections (paneSections ++ [paneSection]) = joinSection changes paneSection := by
  unfold joinSections at h ⊢
  rw [foldlM_append, h]
  cases hjoin : joinSection changes paneSection <;> simp [bind, Option.bind, hjoin]

theorem joinSection_continued (changes : List PaneUpdate) (update : PaneUpdate)
    (rowInstructions : List RowInstruction) :
    joinSection (changes ++ [update]) ⟨update.paneId, none, rowInstructions⟩ =
      some (changes ++ [{ update with rowInstructions := update.rowInstructions ++ rowInstructions }]) := by
  simp [joinSection]

variable {update : PaneUpdate} {paneSection : PaneSection}

theorem joinSection_addInstruction {changes done : List PaneUpdate}
    (h : joinSection changes paneSection = some (done ++ [update])) (row : RowInstruction) :
    joinSection changes { paneSection with rowInstructions := paneSection.rowInstructions ++ [row] } =
      some (done ++ [{ update with rowInstructions := update.rowInstructions ++ [row] }]) := by
  unfold joinSection at h ⊢
  dsimp only
  split at h
  · rename_i paneHeader hheader
    obtain ⟨rfl, hl⟩ := append_inj' (Option.some.inj h) rfl
    obtain rfl := singleton_injective hl
    rfl
  · split at h
    · exact absurd h (by simp)
    · split_ifs at h with hs
      obtain ⟨rfl, hl⟩ := append_inj' (Option.some.inj h) rfl
      obtain rfl := singleton_injective hl
      rw [if_pos hs, append_assoc]

variable {changes joined : List PaneUpdate}

theorem mem_of_joinSection (h : joinSection changes paneSection = some joined) (row : RowInstruction)
    (hm : row ∈ paneSection.rowInstructions ∨ ∃ update ∈ changes, row ∈ update.rowInstructions) :
    ∃ update ∈ joined, row ∈ update.rowInstructions := by
  unfold joinSection at h
  split at h
  · obtain rfl := Option.some.inj h
    rcases hm with hm | ⟨update, hupd, hm⟩
    · exact ⟨_, mem_append_right _ (mem_singleton_self _), hm⟩
    · exact ⟨update, mem_append_left _ hupd, hm⟩
  · split at h
    · exact absurd h (by simp)
    · rename_i last hl
      split_ifs at h
      obtain rfl := Option.some.inj h
      rcases hm with hm | ⟨update, hupd, hm⟩
      · exact ⟨_, mem_append_right _ (mem_singleton_self _), mem_append_right _ hm⟩
      · have hsp := dropLast_append_getLast? last hl
        rw [← hsp, mem_append, mem_singleton] at hupd
        rcases hupd with hupd | rfl
        · exact ⟨update, mem_append_left _ hupd, hm⟩
        · exact ⟨_, mem_append_right _ (mem_singleton_self _), mem_append_left _ hm⟩

theorem mem_of_foldlM_joinSection (h : paneSections.foldlM joinSection changes = some joined)
    (row : RowInstruction) (hm : (∃ paneSection ∈ paneSections, row ∈ paneSection.rowInstructions) ∨
      ∃ update ∈ changes, row ∈ update.rowInstructions) :
    ∃ update ∈ joined, row ∈ update.rowInstructions := by
  induction paneSections generalizing changes with
  | nil =>
    obtain rfl := Option.some.inj h
    rcases hm with ⟨_, hm, _⟩ | hm
    · exact absurd hm not_mem_nil
    · exact hm
  | cons paneSection paneSections ih =>
    rw [foldlM_cons] at h
    obtain ⟨next, hn, hr⟩ := bind_eq_some_iff.1 h
    apply ih hr
    rcases hm with ⟨other, ho, hm⟩ | hm
    · rcases mem_cons.1 ho with rfl | ho
      · exact Or.inr (mem_of_joinSection hn row (Or.inl hm))
      · exact Or.inl ⟨other, ho, hm⟩
    · exact Or.inr (mem_of_joinSection hn row (Or.inr hm))

/-! ### Sizes -/

/-- The most bytes a part takes: the limit, or a part that holds one section without instructions. -/
def partByteCountBound (maximumPartByteCount : Nat) : Nat := max maximumPartByteCount 111

theorem encodeSectionHeader_length_le (paneHeader : Option PaneHeader) :
    (encodeSectionHeader paneHeader).length ≤ 73 := by
  cases paneHeader with
  | none => decide
  | some paneHeader =>
    have hwin : (encodePaneWindow paneHeader.paneWindow).length ≤ 30 := by
      cases paneHeader.paneWindow with
      | none => decide
      | some paneWin =>
        have hco := writeVarint_length_le paneWin.columnCount.toNat
        have hrows := writeVarint_length_le paneWin.rowCount.toNat
        have hoff := writeVarint_length_le paneWin.viewRowOffset.toNat
        simp only [encodePaneWindow, length_append]
        omega
    have hro := writeVarint_length_le paneHeader.cursor.rowIndex.toNat
    have hcol := writeVarint_length_le paneHeader.cursor.columnIndex.toNat
    have htop := writeVarint_length_le paneHeader.viewTopRowIndex.toNat
    have hrt := writeVarint_length_le paneHeader.retainedLineCount.toNat
    simp only [encodeSectionHeader, encodePaneHeader, length_cons, length_append, length_nil]
    omega

theorem encodeRowInstruction_length_pos (row : RowInstruction) : 1 ≤ (encodeRowInstruction row).length := by
  cases row <;> simp [encodeRowInstruction]

theorem encodeSection_length_pos (paneSection : PaneSection) : 1 ≤ (encodeSection paneSection).length := by
  have hby := paneSection.paneId.byteCount
  simp only [encodeSection, length_append]
  omega

theorem length_le_flatMap {α : Type} {write : α → List UInt8} (hwr : ∀ value, 1 ≤ (write value).length)
    (values : List α) : values.length ≤ (values.flatMap write).length := by
  induction values with
  | nil => exact Nat.zero_le _
  | cons value values ih =>
    have hvalue := hwr value
    simp only [flatMap_cons, length_cons, length_append]
    omega

/-! ### The writer's invariant -/

variable {Frame Preview : Type} (json : StructureJson Frame Preview) (opening : PaintedUpdateOpening Frame Preview)

/-- The part with the given index: the first one carries the opening. -/
def partAt (index : Nat) (isLastPart : Bool) (paneSections : List PaneSection) : PaintedUpdatePart Frame Preview :=
  ⟨if index = 0 then some opening else none, isLastPart, paneSections⟩

def openingBytesAt (index : Nat) : List UInt8 := if index = 0 then writtenOpening json opening else []

def partByteCount (index : Nat) (paneSections : List PaneSection) : Nat :=
  partFrameByteCount + (openingBytesAt json opening index).length + (paneSections.flatMap encodeSection).length

structure Written (maximumPartByteCount : Nat) (writer : PartWriter) (closed : List (List PaneSection))
    (current : List PaneSection) : Prop where
  maximum : writer.maximumPartByteCount = maximumPartByteCount
  payloads : writer.partPayloads =
    closed.mapIdx fun index paneSections => encodePart json (partAt opening index false paneSections)
  openingBytes : writer.openingBytes = openingBytesAt json opening closed.length
  openingFlags : writer.openingFlags = openingFlags json opening
  sectionBytes : writer.sectionBytes = current.flatMap encodeSection
  sectionCount : writer.sectionCount = current.length
  closedSizes : ∀ index paneSections, closed[index]? = some paneSections →
    partByteCount json opening index paneSections ≤ partByteCountBound maximumPartByteCount
  size : partByteCount json opening closed.length current ≤ partByteCountBound maximumPartByteCount

/-- The section being filled holds these instructions. -/
structure Opens (open' : OpenSection) (paneSection : PaneSection) : Prop where
  paneId : open'.paneId = paneSection.paneId
  headerBytes : open'.headerBytes = encodeSectionHeader paneSection.paneHeader
  instructionBytes : open'.instructionBytes = paneSection.rowInstructions.flatMap encodeRowInstruction
  instructionCount : open'.instructionCount = paneSection.rowInstructions.length

section Steps

variable {json opening} {maximumPartByteCount : Nat} {writer : PartWriter} {closed : List (List PaneSection)}
  {current : List PaneSection}

theorem opens_fromPaneUpdate (update : PaneUpdate) :
    Opens (.fromPaneUpdate update) ⟨update.paneId, some update.paneHeader, []⟩ := ⟨rfl, rfl, rfl, rfl⟩

theorem opens_fromContinuedPaneId (paneId : PaneUuid) : Opens (.fromContinuedPaneId paneId) ⟨paneId, none, []⟩ :=
  ⟨rfl, rfl, rfl, rfl⟩

theorem Opens.addInstruction {open' : OpenSection} {paneSection : PaneSection} (h : Opens open' paneSection)
    (row : RowInstruction) :
    Opens (open'.addInstruction (encodeRowInstruction row))
      { paneSection with rowInstructions := paneSection.rowInstructions ++ [row] } where
  __ := h
  instructionBytes := by simp [OpenSection.addInstruction, h.instructionBytes]
  instructionCount := by simp [OpenSection.addInstruction, h.instructionCount]

theorem Opens.length_le {open' : OpenSection} (h : Opens open' paneSection) :
    (encodeSection paneSection).length ≤ open'.computeByteCountBound := by
  have hvarint := writeVarint_length_le paneSection.rowInstructions.length
  have huuid := paneSection.paneId.byteCount
  unfold encodeSection OpenSection.computeByteCountBound
  rw [h.headerBytes, h.instructionBytes]
  simp only [length_append, sectionFrameByteCount, maxVarintByteCount]
  omega

section

variable (h : Written json opening maximumPartByteCount writer closed current)

include h

theorem Written.byteCount :
    partFrameByteCount + writer.openingBytes.length + writer.sectionBytes.length =
      partByteCount json opening closed.length current := by
  rw [h.openingBytes, h.sectionBytes, partByteCount]

theorem Written.addSection {open' : OpenSection} {paneSection : PaneSection} (hopens : Opens open' paneSection)
    (hroom : partByteCount json opening closed.length current + open'.computeByteCountBound ≤
      partByteCountBound maximumPartByteCount) :
    Written json opening maximumPartByteCount (writer.addSection open') closed (current ++ [paneSection]) where
  __ := h
  sectionBytes := by
    simp only [PartWriter.addSection, h.sectionBytes, hopens.paneId, hopens.headerBytes, hopens.instructionBytes,
      hopens.instructionCount, flatMap_append, flatMap_singleton, encodeSection]
  sectionCount := by simp [PartWriter.addSection, h.sectionCount]
  size := by
    have hlen := hopens.length_le
    simp only [partByteCount, flatMap_append, flatMap_singleton, length_append] at hroom ⊢
    omega

theorem Written.closePart_payload (isLastPart : Bool) :
    (writer.closePart isLastPart).partPayloads = writer.partPayloads ++
      [encodePart json (partAt opening closed.length isLastPart current)] := by
  have hf : writer.partPayloads.isEmpty = decide (closed.length = 0) := by
    rw [h.payloads]
    cases closed <;> simp
  simp only [PartWriter.closePart, h.openingFlags, h.openingBytes, h.sectionBytes, h.sectionCount, hf, encodePart,
    partAt, encodePartFlags, openingBytesAt]
  by_cases hcz : closed.length = 0
  · simp only [hcz, decide_true, if_true, map_some, getD_some]
    rfl
  · simp only [hcz, decide_false, Bool.false_eq_true, if_false, map_none, getD_none]
    rfl

theorem Written.closePart :
    Written json opening maximumPartByteCount (writer.closePart false) (closed ++ [current]) [] where
  __ := h
  payloads := by
    rw [h.closePart_payload, h.payloads, mapIdx_append]
    simp
  openingBytes := by simp [PartWriter.closePart, openingBytesAt]
  sectionBytes := rfl
  sectionCount := rfl
  closedSizes := by
    intro index paneSections hg
    rcases Nat.lt_or_ge index closed.length with hlt | hge
    · rw [List.getElem?_append_left hlt] at hg
      exact h.closedSizes index paneSections hg
    · rw [List.getElem?_append_right hge] at hg
      obtain ⟨hidx, hsecs⟩ := List.getElem?_eq_some_iff.1 hg
      have hz : index - closed.length = 0 := by
        simpa using hidx
      obtain rfl : index = closed.length := by omega
      simp only [hz, getElem_cons_zero] at hsecs
      rw [← hsecs]
      exact h.size
  size := by simp [partByteCount, openingBytesAt, partByteCountBound, partFrameByteCount, maxVarintByteCount]

end

/-! ### One pane -/

/-- While a pane is written: `update` stands for the instructions taken so far, after the panes already done. -/
def Filling (json : StructureJson Frame Preview) (opening : PaintedUpdateOpening Frame Preview)
    (maximumPartByteCount : Nat) (done : List PaneUpdate) (update : PaneUpdate)
    (state : PartWriter × OpenSection) : Prop :=
  ∃ closed current paneSection previous,
    Written json opening maximumPartByteCount state.1 closed current ∧
      Opens state.2 paneSection ∧ paneSection.paneId = update.paneId ∧
      partByteCount json opening closed.length current + state.2.computeByteCountBound ≤
        partByteCountBound maximumPartByteCount ∧
      joinSections (closed.flatten ++ current) = some previous ∧
      joinSection previous paneSection = some (done ++ [update])

theorem canTake_iff (h : Written json opening maximumPartByteCount writer closed current)
    (byteCount : Nat) : writer.canTakeSectionBytes byteCount = true ↔
      partByteCount json opening closed.length current + byteCount ≤ maximumPartByteCount := by
  rw [PartWriter.canTakeSectionBytes, decide_eq_true_eq, h.byteCount, h.maximum]

theorem bound_addInstruction (open' : OpenSection) (instructionBytes : List UInt8) :
    (open'.addInstruction instructionBytes).computeByteCountBound =
      open'.computeByteCountBound + instructionBytes.length := by
  simp [OpenSection.addInstruction, OpenSection.computeByteCountBound, Nat.add_assoc]

variable {done : List PaneUpdate}

variable {state next : PartWriter × OpenSection}

theorem Filling.instructionStep (h : Filling json opening maximumPartByteCount done update state) {row : RowInstruction}
    (hstep : encodeInstructionStep update.paneId state row = .ok next) :
    Filling json opening maximumPartByteCount done
      { update with rowInstructions := update.rowInstructions ++ [row] } next := by
  obtain ⟨closed, current, paneSection, previous, hwt, hopens, hpa, hroom, hprev, hjoin⟩ := h
  have hle : maximumPartByteCount ≤ partByteCountBound maximumPartByteCount := Nat.le_max_left _ _
  unfold encodeInstructionStep at hstep
  dsimp only at hstep
  split_ifs at hstep with htake hn
  · -- the row goes on in the next part
    obtain rfl := Except.ok.inj hstep
    have hcz := (hwt.addSection hopens hroom).closePart
    rw [Bool.not_eq_true', Bool.not_eq_false, canTake_iff hcz] at hn
    refine ⟨_, _, _, done ++ [update], hcz, (opens_fromContinuedPaneId update.paneId).addInstruction
      row, rfl, ?_, ?_, joinSection_continued done update [row]⟩
    · rw [bound_addInstruction]
      exact hn.trans hle
    · rw [append_nil, flatten_append, flatten_singleton, ← append_assoc, joinSections_concat hprev, hjoin]
  · obtain rfl := Except.ok.inj hstep
    rw [Bool.not_eq_true', Bool.not_eq_false, canTake_iff hwt] at htake
    refine ⟨_, _, _, previous, hwt, hopens.addInstruction row, hpa, ?_, hprev, joinSection_addInstruction hjoin row⟩
    rw [bound_addInstruction]
    exact htake.trans hle

theorem Filling.instructions (h : Filling json opening maximumPartByteCount done update state)
    {rowInstructions : List RowInstruction}
    (hrun : rowInstructions.foldlM (encodeInstructionStep update.paneId) state = .ok next) :
    Filling json opening maximumPartByteCount done
      { update with rowInstructions := update.rowInstructions ++ rowInstructions } next := by
  induction rowInstructions generalizing update state with
  | nil =>
    obtain rfl := Except.ok.inj hrun
    rw [append_nil]
    exact h
  | cons row rowInstructions ih =>
    rw [foldlM_cons] at hrun
    obtain ⟨middle, hstep, hrun⟩ := bind_eq_ok hrun
    have hr := ih (h.instructionStep hstep) hrun
    dsimp only at hr
    rwa [append_assoc, singleton_append] at hr

def Holds (json : StructureJson Frame Preview) (opening : PaintedUpdateOpening Frame Preview)
    (maximumPartByteCount : Nat) (done : List PaneUpdate) (writer : PartWriter) : Prop :=
  ∃ closed current, Written json opening maximumPartByteCount writer closed current ∧
    joinSections (closed.flatten ++ current) = some done

theorem bound_fromPaneUpdate (update : PaneUpdate) :
    (OpenSection.fromPaneUpdate update).computeByteCountBound ≤ 99 := by
  have hheader := encodeSectionHeader_length_le (some update.paneHeader)
  simp only [encodeSectionHeader] at hheader
  simp only [OpenSection.computeByteCountBound, OpenSection.fromPaneUpdate, sectionFrameByteCount, maxVarintByteCount,
    length_nil]
  omega

theorem Holds.openPane (h : Holds json opening maximumPartByteCount done writer) (update : PaneUpdate) :
    Filling json opening maximumPartByteCount done { update with rowInstructions := [] }
      (if !writer.canTakeSectionBytes (OpenSection.fromPaneUpdate update).computeByteCountBound then
        writer.closePart false else writer, .fromPaneUpdate update) := by
  obtain ⟨closed, current, hwt, hjoin⟩ := h
  have hle : maximumPartByteCount ≤ partByteCountBound maximumPartByteCount := Nat.le_max_left _ _
  split_ifs with htake
  · refine ⟨_, _, _, done, hwt.closePart, opens_fromPaneUpdate update, rfl, ?_, ?_, rfl⟩
    · -- an empty part takes every header
      have hbo := bound_fromPaneUpdate update
      have hleast : 111 ≤ partByteCountBound maximumPartByteCount := Nat.le_max_right _ _
      simp only [partByteCount, openingBytesAt, length_append, length_singleton, flatMap_nil,
        length_nil, partFrameByteCount, maxVarintByteCount, Nat.add_eq_zero_iff, Nat.one_ne_zero, and_false,
        if_false]
      omega
    · rw [append_nil, flatten_append, flatten_singleton]
      exact hjoin
  · rw [Bool.not_eq_true', Bool.not_eq_false, canTake_iff hwt] at htake
    exact ⟨_, _, _, done, hwt, opens_fromPaneUpdate update, rfl, htake.trans hle, hjoin, rfl⟩

theorem Holds.paneStep (h : Holds json opening maximumPartByteCount done writer) {next : PartWriter}
    (hstep : encodePaneStep writer update = .ok next) :
    Holds json opening maximumPartByteCount (done ++ [update]) next := by
  have hop := h.openPane update
  unfold encodePaneStep at hstep
  obtain ⟨state, hrun, hstep⟩ := bind_eq_ok hstep
  obtain rfl := Except.ok.inj hstep
  obtain ⟨closed, current, paneSection, previous, hwt, hopens, _, hroom, hprev, hjoin⟩ :=
    hop.instructions hrun
  refine ⟨closed, current ++ [paneSection], hwt.addSection hopens hroom, ?_⟩
  rw [← append_assoc, joinSections_concat hprev, hjoin]
  rfl

theorem Holds.panes {done changes : List PaneUpdate} (h : Holds json opening maximumPartByteCount done writer)
    {next : PartWriter} (hrun : changes.foldlM encodePaneStep writer = .ok next) :
    Holds json opening maximumPartByteCount (done ++ changes) next := by
  induction changes generalizing done writer with
  | nil =>
    obtain rfl := Except.ok.inj hrun
    rw [append_nil]
    exact h
  | cons update changes ih =>
    rw [foldlM_cons] at hrun
    obtain ⟨middle, hstep, hrun⟩ := bind_eq_ok hrun
    have hr := ih (h.paneStep hstep) hrun
    rwa [append_assoc, singleton_append] at hr

end Steps

/-! ### The whole update -/

def buildParts (closed : List (List PaneSection)) (last : List PaneSection) : List (PaintedUpdatePart Frame Preview) :=
  closed.mapIdx (partAt opening · false ·) ++ [partAt opening closed.length true last]

section Parts

variable {opening} {closed : List (List PaneSection)} {last : List PaneSection}

theorem flatMap_buildParts : (buildParts opening closed last).flatMap (·.paneSections) = closed.flatten ++ last := by
  have hcz : (closed.mapIdx (partAt opening · false ·)).map (·.paneSections) = closed := by
    apply ext_getElem
    · simp
    · intro index hf hse
      simp [partAt]
  rw [buildParts, flatMap_append, flatMap_def, hcz]
  simp [partAt]

theorem getElem?_buildParts {index : Nat} {part : PaintedUpdatePart Frame Preview}
    (h : (buildParts opening closed last)[index]? = some part) :
    ∃ paneSections, part = partAt opening index (decide (index = closed.length)) paneSections ∧
      (closed[index]? = some paneSections ∨ index = closed.length ∧ paneSections = last) := by
  have hlen : (closed.mapIdx (partAt opening · false ·)).length = closed.length := by simp
  unfold buildParts at h
  rcases Nat.lt_or_ge index closed.length with hlt | hge
  · rw [List.getElem?_append_left (hlen ▸ hlt), List.getElem?_mapIdx] at h
    obtain ⟨paneSections, hg, rfl⟩ := map_eq_some_iff.1 h
    refine ⟨paneSections, ?_, Or.inl hg⟩
    rw [decide_eq_false (Nat.ne_of_lt hlt)]
  · rw [List.getElem?_append_right (hlen ▸ hge), hlen] at h
    obtain ⟨hidx, hpart⟩ := List.getElem?_eq_some_iff.1 h
    rw [length_singleton, Nat.lt_one_iff] at hidx
    obtain rfl : index = closed.length := by omega
    simp only [hidx, getElem_cons_zero] at hpart
    exact ⟨last, by rw [← hpart, decide_eq_true rfl], Or.inr ⟨rfl, rfl⟩⟩

end Parts

theorem encodePart_length_le (index : Nat) (isLastPart : Bool) (paneSections : List PaneSection) :
    (encodePart json (partAt opening index isLastPart paneSections)).length ≤
      partByteCount json opening index paneSections := by
  have hvarint := writeVarint_length_le paneSections.length
  have hopening : (((partAt opening index isLastPart paneSections).updateOpening.map (writtenOpening json)).getD []) =
      openingBytesAt json opening index := by
    unfold partAt openingBytesAt
    split_ifs <;> rfl
  simp only [encodePart, hopening, partByteCount, partFrameByteCount, maxVarintByteCount, length_append,
    length_singleton]
  simp only [partAt]
  omega

theorem decode_partAt {index : Nat} {isLastPart : Bool}
    (hwellFormed : ∀ paneSection ∈ paneSections, ∀ row ∈ paneSection.rowInstructions,
      row.IsWellFormed) (hsize : partByteCount json opening index paneSections < 2 ^ 64) :
    decodeSessionBinaryFrame json.parseFrame json.parsePreview
        (encodePart json (partAt opening index isLastPart paneSections)) =
      .ok (.paintedUpdatePart (partAt opening index isLastPart paneSections)) := by
  have hsecs := length_le_flatMap encodeSection_length_pos paneSections
  have hopening : (((partAt opening index isLastPart paneSections).updateOpening.map (writtenOpening json)).getD []) =
      openingBytesAt json opening index := by
    unfold partAt openingBytesAt
    split_ifs <;> rfl
  unfold partByteCount at hsize
  refine decodeFrame_encodePart json hwellFormed ?_ ?_ ?_
  · intro paneSection hm
    have hrows := length_le_flatMap encodeRowInstruction_length_pos paneSection.rowInstructions
    have hsec : (encodeSection paneSection).length ≤ (paneSections.flatMap encodeSection).length :=
      (sublist_flatten_of_mem (List.mem_map_of_mem hm)).length_le
    simp only [encodeSection, length_append] at hsec
    omega
  · rw [hopening]
    omega
  · show paneSections.length < 2 ^ 64
    omega

theorem encodeParts_eq (seq : UInt64) (fr : Option Frame) (pv : PlacementPreviewUpdate Preview)
    (changes : List PaneUpdate) (maximumPartByteCount : UInt64) :
    encodePaintedUpdateInParts seq (fr.map json.writeFrame) (pv.write json.writePreview) changes maximumPartByteCount =
      if maximumPartByteCount.toNat < partFrameByteCount + (writtenOpening json ⟨seq, fr, pv⟩).length then
        .error (.structureTooLarge ((fr.map json.writeFrame).getD []).length
          (((placementPreviewJson (pv.write json.writePreview)).map List.length).getD 0))
      else
        changes.foldlM encodePaneStep ⟨maximumPartByteCount.toNat, [],
            writtenOpening json ⟨seq, fr, pv⟩,
            openingFlags json ⟨seq, fr, pv⟩, [], 0⟩ >>= fun writer =>
          pure (writer.closePart true).partPayloads := rfl

theorem exists_parts_of_encode {seq : UInt64} {fr : Option Frame} {pv : PlacementPreviewUpdate Preview}
    {changes : List PaneUpdate} {maximumPartByteCount : UInt64} {pays : List (List UInt8)}
    (h : encodePaintedUpdateInParts seq (fr.map json.writeFrame) (pv.write json.writePreview)
      changes maximumPartByteCount = .ok pays) :
    ∃ closed last,
      pays = (buildParts ⟨seq, fr, pv⟩ closed last).map (encodePart json) ∧
      joinSections (closed.flatten ++ last) = some changes ∧
      (∀ index paneSections, closed[index]? = some paneSections ∨ index = closed.length ∧ paneSections = last →
        partByteCount json ⟨seq, fr, pv⟩ index paneSections ≤ partByteCountBound maximumPartByteCount.toNat) := by
  have hsmall : ¬maximumPartByteCount.toNat < partFrameByteCount + (writtenOpening json ⟨seq, fr, pv⟩).length := by
    intro hlarge
    rw [encodeParts_eq, if_pos hlarge] at h
    exact absurd h (by simp)
  rw [encodeParts_eq, if_neg hsmall] at h
  have hst : Holds json ⟨seq, fr, pv⟩ maximumPartByteCount.toNat []
      ⟨maximumPartByteCount.toNat, [], writtenOpening json ⟨seq, fr, pv⟩, openingFlags json ⟨seq, fr, pv⟩, [], 0⟩ := by
    refine ⟨[], [], ⟨rfl, rfl, rfl, rfl, rfl, rfl, fun index paneSections hg => ?_, ?_⟩, rfl⟩
    · exact absurd hg (by simp)
    · exact (not_lt.1 hsmall).trans (Nat.le_max_left _ _)
  obtain ⟨writer, hrun, hpays⟩ := bind_eq_ok h
  obtain ⟨closed, last, hwt, hjoin⟩ := hst.panes hrun
  refine ⟨closed, last, ?_, hjoin, ?_⟩
  · rw [← Except.ok.inj hpays, hwt.closePart_payload, hwt.payloads, buildParts, map_append, map_singleton]
    congr 1
    exact ext_getElem (by simp) (by simp)
  · rintro index paneSections (hg | ⟨rfl, rfl⟩)
    · exact hwt.closedSizes index paneSections hg
    · exact hwt.size

structure ReadsBackAs (opening : PaintedUpdateOpening Frame Preview) (changes : List PaneUpdate)
    (payloads : List (List UInt8)) (parts : List (PaintedUpdatePart Frame Preview)) : Prop where
  decoded : payloads.map (decodeSessionBinaryFrame json.parseFrame json.parsePreview) =
    parts.map fun part => .ok (.paintedUpdatePart part)
  nonempty : parts ≠ []
  opened : ∀ index part, parts[index]? = some part → part.updateOpening = if index = 0 then some opening else none
  ended : ∀ index part, parts[index]? = some part → part.isLastPart = decide (index + 1 = parts.length)
  joined : joinSections (parts.flatMap (·.paneSections)) = some changes

/-- **Painted updates are read back.** Whatever the part size limit, the payloads of an encoded update decode to parts
that carry the opening once, the end once, and exactly the panes, headers and row instructions that were encoded. A
payload is at most the largest frame when the limit is, as it is for `encode_painted_update`. -/
theorem encodePaintedUpdate_readsBack (json : StructureJson Frame Preview) (updateSequence : UInt64)
    (frame : Option Frame) (preview : PlacementPreviewUpdate Preview) (updates : List PaneUpdate)
    (hwellFormed : ∀ update ∈ updates, ∀ row ∈ update.rowInstructions, row.IsWellFormed) :
    (∀ (maximumPartByteCount : UInt64) (payloads : List (List UInt8)),
      encodePaintedUpdateInParts updateSequence (frame.map json.writeFrame) (preview.write json.writePreview)
        updates maximumPartByteCount = .ok payloads →
      (maximumPartByteCount.toNat ≤ maxFrameByteCount → ∀ payload ∈ payloads, payload.length ≤ maxFrameByteCount) ∧
        ∃ parts, ReadsBackAs json ⟨updateSequence, frame, preview⟩ updates payloads parts) ∧
    ∀ payloads : List (List UInt8),
      encodePaintedUpdate updateSequence (frame.map json.writeFrame) (preview.write json.writePreview)
        updates = .ok payloads →
      (∀ payload ∈ payloads, payload.length ≤ maxFrameByteCount) ∧
        ∃ parts, ReadsBackAs json ⟨updateSequence, frame, preview⟩ updates payloads parts := by
  have hinParts : ∀ (maximumPartByteCount : UInt64) (payloads : List (List UInt8)),
      encodePaintedUpdateInParts updateSequence (frame.map json.writeFrame) (preview.write json.writePreview)
        updates maximumPartByteCount = .ok payloads →
      (maximumPartByteCount.toNat ≤ maxFrameByteCount → ∀ payload ∈ payloads, payload.length ≤ maxFrameByteCount) ∧
        ∃ parts, ReadsBackAs json ⟨updateSequence, frame, preview⟩ updates payloads parts := by
    intro maximumPartByteCount payloads h
    obtain ⟨closed, last, rfl, hjoin, hsizes⟩ := exists_parts_of_encode json h
    have hlimit : partByteCountBound maximumPartByteCount.toNat < 2 ^ 64 := by
      have hlt := maximumPartByteCount.toNat_lt
      unfold partByteCountBound
      omega
    have hlen : (buildParts (⟨updateSequence, frame, preview⟩ : PaintedUpdateOpening Frame Preview)
        closed last).length = closed.length + 1 := by simp [buildParts]
    constructor
    · intro hmaximum payload hpayload
      obtain ⟨part, hpart, rfl⟩ := List.mem_map.1 hpayload
      obtain ⟨index, hget⟩ := List.getElem?_of_mem hpart
      obtain ⟨paneSections, rfl, hsecs⟩ := getElem?_buildParts hget
      have hsize := (encodePart_length_le json ⟨updateSequence, frame, preview⟩ index
        (decide (index = closed.length)) paneSections).trans (hsizes index paneSections hsecs)
      unfold partByteCountBound at hsize
      unfold maxFrameByteCount at hmaximum ⊢
      omega
    · refine ⟨buildParts ⟨updateSequence, frame, preview⟩ closed last, ⟨?_, ?_, ?_, ?_, ?_⟩⟩
      · rw [List.map_map]
        apply map_congr_left
        intro part hpart
        obtain ⟨index, hget⟩ := List.getElem?_of_mem hpart
        obtain ⟨paneSections, rfl, hsecs⟩ := getElem?_buildParts hget
        refine decode_partAt json _ ?_ ((hsizes index paneSections hsecs).trans_lt hlimit)
        intro paneSection hsection row hrow
        have hmem : paneSection ∈ closed.flatten ++ last := by
          rcases hsecs with hsecs | ⟨_, rfl⟩
          · exact mem_append_left _ (mem_flatten.2 ⟨paneSections, mem_of_getElem? hsecs, hsection⟩)
          · exact mem_append_right _ hsection
        obtain ⟨update, hupdate, hrow⟩ :=
          mem_of_foldlM_joinSection hjoin row (Or.inl ⟨paneSection, hmem, hrow⟩)
        exact hwellFormed update hupdate row hrow
      · exact ne_nil_of_length_pos (hlen ▸ Nat.succ_pos _)
      · intro index part hget
        obtain ⟨paneSections, rfl, _⟩ := getElem?_buildParts hget
        rfl
      · intro index part hget
        obtain ⟨paneSections, rfl, _⟩ := getElem?_buildParts hget
        rw [hlen]
        simp [partAt]
      · rw [flatMap_buildParts]
        exact hjoin
  refine ⟨hinParts, fun payloads h => ?_⟩
  obtain ⟨hsize, hparts⟩ := hinParts _ payloads h
  exact ⟨hsize (by decide), hparts⟩

/-- A JSON codec on numbers below ten, as one digit. -/
def digitJson : StructureJson (Fin 10) (Fin 10) where
  writeFrame digit := [UInt8.ofNat (48 + digit.val)]
  parseFrame bytes := ((List.finRange 10).find? fun digit => bytes = [UInt8.ofNat (48 + digit.val)]).elim
    (.error "not a digit") .ok
  writePreview digit := [UInt8.ofNat (48 + digit.val)]
  parsePreview bytes := ((List.finRange 10).find? fun digit => bytes = [UInt8.ofNat (48 + digit.val)]).elim
    (.error "not a digit") .ok
  parse_writeFrame := by decide
  writeFrame_ne_nil _ := cons_ne_nil _ _
  parse_writePreview := by decide
  writePreview_ne_nil _ := cons_ne_nil _ _

/-- A pane of two rows, the first kept and the second new. -/
def twoRowPane : PaneUpdate where
  paneId := ⟨List.replicate 16 7, rfl⟩
  paneHeader := ⟨⟨0, 1, true, false, some .bar⟩, 0, 0, some ⟨3, 2, 0, false⟩⟩
  rowInstructions := [.keep 1, .new [2, 65, 66]]

theorem twoRowPane_isWellFormed : ∀ update ∈ [twoRowPane], ∀ row ∈ update.rowInstructions, row.IsWellFormed := by
  intro update hupd row hro
  obtain rfl := mem_singleton.1 hupd
  simp only [twoRowPane, mem_cons, not_mem_nil, or_false] at hro
  rcases hro with rfl | rfl
  · show (1 : UInt16) ≠ 0
    decide
  · exact ⟨[65, 66], rfl⟩

/-- The theorem at a part size that cuts the update into two parts, between the two rows of its pane. -/
theorem encodePaintedUpdate_readsBack_twoRowPane :
    (∀ payloads, encodePaintedUpdateInParts 1 (some [53]) (.replaced [57]) [twoRowPane] 58 = .ok payloads →
      ∃ parts, ReadsBackAs digitJson ⟨1, some 5, .replaced 9⟩ [twoRowPane] payloads parts) ∧
      (encodePaintedUpdateInParts 1 (some [53]) (.replaced [57]) [twoRowPane] 58).toOption.map List.length = some 2 :=
  ⟨fun payloads h => ((encodePaintedUpdate_readsBack digitJson 1 (some 5) (.replaced 9) [twoRowPane]
    twoRowPane_isWellFormed).1 58 payloads h).2, by decide⟩

theorem encodeParts_nil {jsonBytes : List UInt8} {maximumPartByteCount : UInt64}
    (h : partFrameByteCount + (encodeOpening 1 jsonBytes none).length ≤ maximumPartByteCount.toNat) :
    encodePaintedUpdateInParts 1 (some jsonBytes) .unchanged [] maximumPartByteCount =
      .ok [[paintedUpdateFrameKind] ++ ([partOpensUpdateFlag ||| partEndsUpdateFlag] ++
        (encodeOpening 1 jsonBytes none ++ (writeVarint 0 ++ [])))] := by
  unfold encodePaintedUpdateInParts
  rw [getD_some, placementPreviewJson, if_neg (not_lt.2 h)]
  rfl

theorem exists_payload_above {byteCount : Nat} {maximumPartByteCount : UInt64} (hlarge : maxFrameByteCount ≤ byteCount)
    (hft : byteCount + 32 ≤ maximumPartByteCount.toNat) :
    ∃ payload, encodePaintedUpdateInParts 1 (some (List.replicate byteCount 32)) .unchanged [] maximumPartByteCount =
      .ok [payload] ∧ maxFrameByteCount < payload.length := by
  have hopening : (encodeOpening 1 (List.replicate byteCount 32) none).length =
      (writeVarint (1 : UInt64).toNat).length + ((writeVarint byteCount).length + byteCount) := by
    simp only [encodeOpening, length_append, length_replicate, append_nil]
  have hseq := writeVarint_length_le (1 : UInt64).toNat
  have hc := writeVarint_length_le byteCount
  refine ⟨_, encodeParts_nil ?_, ?_⟩
  · rw [hopening, partFrameByteCount, maxVarintByteCount]
    omega
  · simp only [length_append, length_singleton, hopening]
    omega

/-- With a part size limit above the largest frame a payload is larger than a frame: 16 MiB of JSON and a limit of
32 MiB. -/
theorem encodePaintedUpdateInParts_above_maxFrame :
    ∃ payload, encodePaintedUpdateInParts 1 (some (List.replicate 16777216 32)) .unchanged [] 33554432 =
      .ok [payload] ∧ maxFrameByteCount < payload.length :=
  exists_payload_above (by decide) (by decide)

end Koshi.Ipc
