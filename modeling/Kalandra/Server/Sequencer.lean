import Kalandra.Server.Storage

/-!
# The sequencer

The server's `Sequencer` assigns each room's frames their log indices. Its source, `sequencer.rs`,
is not in the sources. The model follows §4.5.2 step 3 and the tests that drive it: the sequencer
keeps a next log index per room, recovers it on the first frame of a room from the storage's latest
index plus one (`test_sequencer_restart`), stamps it and an HLC timestamp into the frame, increments
it, and returns `AcceptFrame`, `StoreFrame` and `BroadcastToRoom`, the three actions
`room_manager_test` expects of an accepted frame. Validation of epoch and membership is the room
manager's, before it calls the sequencer.

The sequencer's clock is not in the sources either. The model stamps the time of the call, the
`now` the room manager reads from its environment: the physical part of a hybrid logical clock. The
clock's logical counter, which would tell apart frames stamped at one instant, is not modelled, and
neither is the `context_id` the sequencer rewrites (room_manager.rs:439); nothing modelled reads
either.
-/

namespace Kalandra

/-- The actions of the sequencer (`SequencerAction`). -/
inductive SequencerAction
  | acceptFrame (roomId : RoomId) (logIndex : Nat) (frame : Frame)
  | rejectFrame (roomId : RoomId) (reason : String) (originalFrame : Frame)
  | storeFrame (roomId : RoomId) (logIndex : Nat) (frame : Frame)
  | broadcastToRoom (roomId : RoomId) (frame : Frame)
  deriving DecidableEq, Repr

/-- Modelled from the spec: the per-room state of the sequencer. -/
structure RoomSequencer where
  nextLogIndex : Nat
  deriving DecidableEq, Repr

/-- Modelled from the spec: the sequencer, with the rooms it has seen. -/
structure Sequencer where
  rooms : RoomId → Option RoomSequencer

namespace Sequencer

def new : Sequencer := ⟨fun _ => none⟩

/-- The index the next frame of a room receives: the cached one, or the one recovered from the
storage's latest index. -/
def nextLogIndex (seq : Sequencer) (storage : MemoryStorage) (room : RoomId) : Nat :=
  match seq.rooms room with
  | some rs => rs.nextLogIndex
  | none => (storage.latestLogIndex room).elim 0 (· + 1)

/-- Modelled from the spec: `Sequencer::process_frame`, stamping the time `now` of the call. -/
def processFrame (seq : Sequencer) (frame : Frame) (storage : MemoryStorage) (now : Nat) :
    Sequencer × List SequencerAction :=
  let room := frame.header.roomId
  let logIndex := seq.nextLogIndex storage room
  let sequenced := frame.sequenced logIndex now
  (⟨Function.update seq.rooms room (some ⟨logIndex + 1⟩)⟩,
    [.acceptFrame room logIndex sequenced, .storeFrame room logIndex sequenced,
      .broadcastToRoom room sequenced])

@[simp] theorem new_rooms (r : RoomId) : new.rooms r = none := rfl

theorem nextLogIndex_processFrame (seq : Sequencer) (frame : Frame) (storage : MemoryStorage) (now : Nat)
    (r : RoomId) :
    (seq.processFrame frame storage now).1.nextLogIndex storage r =
      if r = frame.header.roomId then seq.nextLogIndex storage r + 1 else seq.nextLogIndex storage r := by
  unfold processFrame nextLogIndex
  by_cases hr : r = frame.header.roomId
  · subst hr; simp
  · simp [hr]

end Sequencer

end Kalandra
