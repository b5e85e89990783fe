import Mathlib.Tactic
import Koshi.Daemon.LinkSink

/-!
# What a send does to the link

A send may drop the link's writer, spend credit or record an ended pane; the link it is on, whether that is open or
paused, and the closing panes stay. What it writes goes to the writer that was there.
-/

namespace Koshi.Daemon

open Base Ipc Option Function

namespace LinkState

/-- The same link, as open and as paused as before, perhaps without its writer. -/
structure Narrows (linkState later : LinkState) : Prop where
  linkGeneration : later.linkGeneration = linkState.linkGeneration
  linkProtocolVersion : later.linkProtocolVersion = linkState.linkProtocolVersion
  isPaused : later.isPaused = linkState.isPaused
  closingPaneIds : later.closingPaneIds = linkState.closingPaneIds
  frameWriter : ∀ {link}, later.frameWriter = some link → linkState.frameWriter = some link

structure CarriesEvent (linkState : LinkState) (paneId : PaneUuid) (link : Nat) : Prop where
  frameWriter : linkState.frameWriter = some link
  isOpen : linkState.linkProtocolVersion ≠ none
  isPaused : linkState.isPaused = false
  isWanted : paneId ∉ linkState.closingPaneIds

variable {linkState : LinkState}

variable {link granted : Nat} {wr : Bool} {fr : LinkFrame} {paneId : PaneUuid} {unsent : List UInt8}

theorem Narrows.refl (linkState : LinkState) : linkState.Narrows linkState := ⟨rfl, rfl, rfl, rfl, id⟩

theorem narrows_dropWriter (linkState : LinkState) : linkState.Narrows { linkState with frameWriter := none } :=
  ⟨rfl, rfl, rfl, rfl, nofun⟩

theorem narrows_grantOutput (linkState : LinkState) (paneId : PaneUuid) (granted : Nat) :
    linkState.Narrows (linkState.grantPaneOutput paneId granted) := by
  unfold grantPaneOutput
  split_ifs
  · exact .refl linkState
  · exact ⟨rfl, rfl, rfl, rfl, id⟩

theorem narrows_removeEndedPane (linkState : LinkState) (paneId : PaneUuid) :
    linkState.Narrows (linkState.removeEndedPane paneId) := ⟨rfl, rfl, rfl, rfl, id⟩

theorem narrows_recordEndedPane (linkState : LinkState) (paneId : PaneUuid) :
    linkState.Narrows (linkState.recordEndedPane paneId) := ⟨rfl, rfl, rfl, rfl, id⟩

theorem narrows_markClosing (linkState : LinkState) : linkState.Narrows linkState.markClosing :=
  ⟨rfl, rfl, rfl, rfl, id⟩

/-! ### Responses -/

theorem narrows_sendResponse (linkState : LinkState) (linkGeneration : Nat) (resp : SupervisorResponse)
    (wr : Bool) : linkState.Narrows (linkState.sendResponse linkGeneration resp wr).2 := by
  unfold sendResponse
  split
  · exact .refl linkState
  · split
    · exact .refl linkState
    · split
      · exact .refl linkState
      · exact linkState.narrows_dropWriter

/-- A response goes out on the current link, when that is the one its request arrived on. -/
theorem sendResponse_wrote {linkGeneration : Nat} {response : SupervisorResponse}
    (h : (linkState.sendResponse linkGeneration response wr).1 = .wrote link fr) :
    linkState.linkGeneration = linkGeneration ∧ linkState.frameWriter = some link ∧ fr = .response response := by
  unfold sendResponse at h
  split at h
  · cases h
  · next hgen =>
    split at h
    · cases h
    · next hwtr =>
      split at h
      · obtain ⟨rfl, rfl⟩ := SendOutcome.wrote.inj h
        exact ⟨not_not.1 hgen, hwtr, rfl⟩
      · cases h

/-! ### Events -/

theorem narrows_sendEvent (linkState : LinkState) (paneId : PaneUuid) (ev : SupervisorEvent) (wr : Bool) :
    linkState.Narrows (linkState.sendEvent paneId ev wr).2 := by
  unfold sendEvent
  split
  · exact .refl linkState
  · split
    · split
      · exact .refl linkState
      · split
        · exact .refl linkState
        · exact linkState.narrows_dropWriter
    · exact .refl linkState

theorem sendEvent_wrote {event : SupervisorEvent} (h : (linkState.sendEvent paneId event wr).1 = .wrote link fr) :
    linkState.CarriesEvent paneId link ∧ fr = .event event := by
  unfold sendEvent at h
  split at h
  · cases h
  · next hwant =>
    split at h
    · next hop =>
      split at h
      · cases h
      · next hwtr =>
        split at h
        · obtain ⟨rfl, rfl⟩ := SendOutcome.wrote.inj h
          refine ⟨⟨hwtr, ?_, hop.2, fun hcl => hwant (.inr hcl)⟩, rfl⟩
          exact isSome_iff_ne_none.1 hop.1
        · cases h
    · cases h

theorem narrows_writePart (linkState : LinkState) (paneId : PaneUuid) (unsent : List UInt8)
    (wr : Bool) : linkState.Narrows (linkState.writeOutputPart paneId unsent wr).2 := by
  unfold writeOutputPart
  split
  · exact .refl linkState
  · split
    · exact .refl linkState
    · split
      · exact .refl linkState
      · split
        · split
          · exact .refl linkState
          · exact linkState.narrows_dropWriter
        · dsimp only
          split
          · exact .refl linkState
          · split
            · exact ⟨rfl, rfl, rfl, rfl, id⟩
            · exact linkState.narrows_dropWriter

theorem endedPaneIds_writePart (linkState : LinkState) (paneId : PaneUuid) (unsent : List UInt8) (wr : Bool) :
    (linkState.writeOutputPart paneId unsent wr).2.endedPaneIds = linkState.endedPaneIds := by
  unfold writeOutputPart
  split
  · rfl
  · split
    · rfl
    · split
      · rfl
      · split
        · split <;> rfl
        · dsimp only
          split
          · rfl
          · split <;> rfl

theorem endedPaneIds_grantOutput (linkState : LinkState) (paneId : PaneUuid) (granted : Nat) :
    (linkState.grantPaneOutput paneId granted).endedPaneIds = linkState.endedPaneIds := by
  unfold grantPaneOutput
  split_ifs <;> rfl

theorem endedPaneIds_sendEvent (linkState : LinkState) (paneId : PaneUuid) (ev : SupervisorEvent)
    (wr : Bool) : (linkState.sendEvent paneId ev wr).2.endedPaneIds = linkState.endedPaneIds := by
  unfold sendEvent
  split
  · rfl
  · split
    · split
      · rfl
      · split <;> rfl
    · rfl

/-- A written part is the first of the unsent output, and the session server reads it as such. -/
theorem writeOutputPart_wrote {sent : Nat} (hwant : paneId ∉ linkState.closingPaneIds)
    (h : (linkState.writeOutputPart paneId unsent wr).1 = some (sent, link, fr)) :
    linkState.CarriesEvent paneId link ∧ fr.readEvent = some (.output paneId (unsent.take sent)) := by
  unfold writeOutputPart at h
  split at h
  · cases h
  · next hver =>
    split at h
    · cases h
    · next hpaused =>
      split at h
      · cases h
      · next hwtr =>
        have hcarries : ∀ {number}, linkState.frameWriter = some number → linkState.CarriesEvent paneId number :=
          fun hnum => ⟨hnum, by rw [hver]; exact some_ne_none _, by simpa using hpaused, hwant⟩
        split at h
        · split at h
          · obtain ⟨rfl, rfl, rfl⟩ := by simpa using h
            refine ⟨hcarries hwtr, ?_⟩
            rw [List.take_length]
            rfl
          · cases h
        · dsimp only at h
          split at h
          · cases h
          · split at h
            · simp only [Option.some.injEq, Prod.mk.injEq] at h
              obtain ⟨rfl, rfl, rfl⟩ := h
              exact ⟨hcarries hwtr, LinkFrame.readEvent_binary _ _⟩
            · cases h

/-! ### Credit -/

theorem outputCreditByPaneId_sendEvent (linkState : LinkState) (paneId : PaneUuid) (ev : SupervisorEvent) (wr : Bool) :
    (linkState.sendEvent paneId ev wr).2.outputCreditByPaneId = linkState.outputCreditByPaneId := by
  unfold sendEvent
  split
  · rfl
  · split
    · split
      · rfl
      · split <;> rfl
    · rfl

theorem outputCreditByPaneId_of_unwritten {later : LinkState}
    (h : linkState.writeOutputPart paneId unsent wr = (none, later)) :
    later.outputCreditByPaneId = linkState.outputCreditByPaneId := by
  unfold writeOutputPart at h
  split at h
  · cases h
    rfl
  · split at h
    · cases h
      rfl
    · split at h
      · cases h
        rfl
      · split at h
        · split at h
          · cases h
          · cases h
            rfl
        · dsimp only at h
          split at h
          · cases h
            rfl
          · split at h
            · cases h
            · cases h
              rfl

theorem writeOutputPart_spends {sent : Nat} {later : LinkState}
    (hver : ∀ version, linkState.linkProtocolVersion = some version → outputWindowProtocolVersion ≤ version)
    (hbo : linkState.getOutputCredit paneId ≤ paneOutputWindowByteCount)
    (h : linkState.writeOutputPart paneId unsent wr = (some (sent, link, fr), later)) :
    sent ≤ unsent.length ∧
      later.getOutputCredit paneId + sent = linkState.getOutputCredit paneId ∧
      ∀ j, j ≠ paneId → later.getOutputCredit j = linkState.getOutputCredit j := by
  unfold writeOutputPart at h
  split at h
  · cases h
  · next version hknown =>
    have hwin := hver version hknown
    split at h
    · cases h
    · split at h
      · cases h
      · rw [if_neg (by omega)] at h
        dsimp only at h
        split at h
        · cases h
        · split at h
          · simp only [Prod.mk.injEq, Option.some.injEq] at h
            obtain ⟨⟨rfl, rfl, rfl⟩, rfl⟩ := h
            have hle := Nat.min_le_right unsent.length (linkState.getOutputCredit paneId)
            have hsmall : paneOutputWindowByteCount < u32Max + 1 := by decide
            refine ⟨Nat.min_le_left _ _, ?_, fun j ho => ?_⟩
            · unfold getOutputCredit at hle hbo ⊢
              simp only [update_self, getD_some]
              rw [Nat.mod_eq_of_lt (by omega)]
              omega
            · unfold getOutputCredit
              simp only [update_of_ne ho]
          · cases h

theorem getOutputCredit_grantOutput (hop : paneId ∉ linkState.closingPaneIds)
    (hroom : linkState.getOutputCredit paneId + granted ≤ paneOutputWindowByteCount) :
    (linkState.grantPaneOutput paneId granted).getOutputCredit paneId = linkState.getOutputCredit paneId + granted := by
  have hsmall : paneOutputWindowByteCount ≤ u32Max := by decide
  have hsum : satAdd32 (linkState.getOutputCredit paneId) granted =
      linkState.getOutputCredit paneId + granted := Nat.min_eq_left (hroom.trans hsmall)
  rw [grantPaneOutput, if_neg hop]
  show (update linkState.outputCreditByPaneId paneId _ paneId).getD _ = _
  rw [update_self, getD_some, hsum, Nat.min_eq_left hroom]

theorem getOutputCredit_grantOutput_of_ne {j : PaneUuid} (ho : j ≠ paneId) :
    (linkState.grantPaneOutput paneId granted).getOutputCredit j = linkState.getOutputCredit j := by
  unfold grantPaneOutput
  split_ifs
  · rfl
  · show (update linkState.outputCreditByPaneId paneId _ j).getD _ = _
    rw [update_of_ne ho]
    rfl

theorem getOutputCredit_grantOutput_le (j : PaneUuid) (hbo : linkState.getOutputCredit j ≤ paneOutputWindowByteCount) :
    (linkState.grantPaneOutput paneId granted).getOutputCredit j ≤ paneOutputWindowByteCount := by
  by_cases ho : j = paneId
  · subst ho
    unfold grantPaneOutput
    split_ifs
    · exact hbo
    · show (update linkState.outputCreditByPaneId j _ j).getD _ ≤ _
      rw [update_self]
      exact Nat.min_le_right _ _
  · rw [getOutputCredit_grantOutput_of_ne ho]
    exact hbo

end LinkState

end Koshi.Daemon
