import GameLobby.Proofs.Message.Size
import GameLobby.Proofs.Session.Plan

/-!
# What senders are told

A request that is rejected is rejected with a short text, since the registry's own texts, which name
connections and rooms, are never passed on (`plan_error_brief`). So the answer to it fits a frame
(`Brief.fits_answer`). A request that opens a room leaves its sender the owner of a room with the
next number (`roomOf?_openRoomPlan`).
-/

namespace GameLobby

/-! ## Rejections -/

/-- No rejection has the code of success. -/
theorem Rejection.code_ne_ok (e : Rejection) : e.code.value ≠ 0 := by
  cases e with
  | invalidCdKey entry => cases entry <;> decide
  | _ =>
    simp only [code]
    decide

/-- A rejection with a text of its own. -/
def Rejection.Brief (e : Rejection) : Prop :=
  ∀ text, e ≠ .failure text

theorem Rejection.brief_ofRefusal (entry : Entry) (e : Refusal) : (ofRefusal entry e).Brief := by
  cases e <;> exact nofun

theorem Rejection.Brief.length_message {e : Rejection} (h : e.Brief) :
    (Wire.terminated (Text.utf8 e.message)).length ≤ 40 := by
  cases e with
  | failure text => exact absurd rfl (h text)
  | _ =>
    simp only [Rejection.message]
    decide +kernel

/-- The answer that a request is rejected fits a frame. -/
theorem Rejection.Brief.fits_answer {e : Rejection} (h : e.Brief) (ticketId : UInt32) :
    (Message.resultMessage (e.answer ticketId)).fits := by
  have htext := h.length_message
  refine Message.fits_iff.mpr ?_
  show 6 + (1 + ((4 + (Wire.terminated (Text.utf8 e.message)).length) + (4 + 0))) ≤ 1024
  omega

/-- The answer that a request was carried out fits a frame. -/
theorem Message.fits_ok (ticketId : UInt32) : (resultMessage (.ok ticketId)).fits :=
  fits_iff.mpr (by show 6 + (1 + ((4 + 1) + (4 + 0))) ≤ 1024; omega)

/-- The answer that a room was opened fits a frame. -/
theorem Message.fits_resultId_ok (id ticketId : UInt32) : (resultId (.ok id ticketId)).fits :=
  fits_iff.mpr (by show 6 + (1 + ((4 + 1) + (4 + (4 + 0)))) ≤ 1024; omega)

namespace Session

open Deed Registry

variable {rules : Rules} {v : Visitor} {reg : Registry} {e : Rejection}

/-! ## Reasons of rejections -/

theorem enterPlan_error_brief {entry : Entry} {credentials : Credentials}
    {patchlevel ticketId : UInt32}
    (h : enterPlan rules v reg entry credentials patchlevel ticketId = .error e) : e.Brief := by
  unfold enterPlan at h
  split at h
  · cases h
    exact nofun
  split at h
  · cases h
  split at h
  · cases h
    exact Rejection.brief_ofRefusal entry _
  · cases h

theorem subscribePlan_error_brief {topic : Topic} {on : Bool} {rest : Registry → List Deed}
    (h : subscribePlan v reg topic on rest = .error e) : e.Brief := by
  unfold subscribePlan at h
  split at h
  · cases h
    exact nofun
  · cases h

theorem openRoomPlan_error_brief {r : AddGameServer} (h : openRoomPlan rules v reg r = .error e) :
    e.Brief := by
  unfold openRoomPlan at h
  split at h
  · cases h
    exact nofun
  dsimp only at h
  split at h
  · cases h
    exact nofun
  split at h
  · cases h
    exact nofun
  · cases h

theorem ownRoom?_error_brief {id : RoomId} (h : ownRoom? v reg id = .error e) : e.Brief := by
  unfold ownRoom? at h
  split at h
  · cases h
    exact nofun
  split at h
  · cases h
  · cases h
    exact nofun

theorem closeRoomPlan_error_brief {r : RemoveServer} (h : closeRoomPlan v reg r = .error e) :
    e.Brief := by
  unfold closeRoomPlan at h
  split at h
  · rename_i hown
    cases h
    exact ownRoom?_error_brief hown
  · cases h

theorem changeRoomPlan_error_brief {r : ChangeGameServer} (h : changeRoomPlan v reg r = .error e) :
    e.Brief := by
  unfold changeRoomPlan at h
  split at h
  · rename_i hown
    cases h
    exact ownRoom?_error_brief hown
  dsimp only at h
  split at h
  · cases h
    exact nofun
  · cases h

theorem joinRoomPlan_error_brief {r : JoinServer} (h : joinRoomPlan v reg r = .error e) :
    e.Brief := by
  unfold joinRoomPlan at h
  split at h
  · cases h
    exact nofun
  split at h
  · cases h
    exact nofun
  split at h
  · cases h
    exact nofun
  split at h
  · rename_i hchange
    cases h
    rcases changeSeat_error hchange with rfl | rfl <;> exact nofun
  · cases h

theorem leaveRoomPlan_error_brief {r : LeaveServer} (h : leaveRoomPlan v reg r = .error e) :
    e.Brief := by
  unfold leaveRoomPlan at h
  split at h
  · cases h
    exact nofun
  split at h
  · cases h
    exact nofun
  split at h
  · rename_i hleft
    cases h
    rcases leaveSeat_error hleft with rfl | rfl | rfl <;> exact nofun
  · cases h

/-- No text of the registry gets into an answer. -/
theorem plan_error_brief {r : Request} (h : plan rules v reg r = .error e) : e.Brief := by
  cases r with simp only [plan] at h
  | chat r =>
    split at h
    · cases h
      exact nofun
    · cases h
  | motd r =>
    split at h
    · cases h
      exact nofun
    · cases h
  | login r => exact enterPlan_error_brief h
  | newAccount r => exact enterPlan_error_brief h
  | watchChat r => exact subscribePlan_error_brief h
  | unwatchChat r => exact subscribePlan_error_brief h
  | watchLogins r => exact subscribePlan_error_brief h
  | unwatchLogins r => exact subscribePlan_error_brief h
  | watchRooms r => exact subscribePlan_error_brief h
  | unwatchRooms r => exact subscribePlan_error_brief h
  | openRoom r => exact openRoomPlan_error_brief h
  | closeRoom r => exact closeRoomPlan_error_brief h
  | changeRoom r => exact changeRoomPlan_error_brief h
  | joinRoom r => exact joinRoomPlan_error_brief h
  | leaveRoom r => exact leaveRoomPlan_error_brief h

/-! ## Rooms opened -/

/-- Whoever opens a room owns a room with the next number afterwards. -/
theorem roomOf?_openRoomPlan {r : AddGameServer} {ds : List Deed}
    (h : openRoomPlan rules v reg r = .ok ds) :
    ∃ room, (afterAll reg ds).roomOf? v.conn = some room ∧ room.id = ⟨reg.lastRoomId + 1⟩ := by
  obtain ⟨a, -, -, rfl⟩ := openRoomPlan_ok h
  rw [afterAll_append, afterAll_append, afterAll_roomClosed]
  have hnone : (reg.closeRoom v.conn).2.roomOf? v.conn = none := by
    rw [roomOf?_closeRoom, if_pos rfl]
  have hfree := roomOf?_seatGivenUp r.ticketId hnone
  refine ⟨.opened ⟨reg.lastRoomId + 1⟩ v.conn a.uid (offeredSettings rules v r), ?_, rfl⟩
  have hlast : (afterAll (reg.closeRoom v.conn).2
      (seatGivenUp v (reg.closeRoom v.conn).2 r.ticketId)).lastRoomId = reg.lastRoomId :=
    (lastRoomId_seatGivenUp r.ticketId).trans lastRoomId_closeRoom
  rw [← hlast]
  exact roomOf?_openRoom_of_none hfree

end Session

end GameLobby
