import Kalandra.Mls.Adapter

/-!
# Storage

The server's storage: a per-room append-only log of frames with a compare-and-set write, and a slot
for the room's latest `MlsGroupState`. The `Storage` trait and `MemoryStorage` are not in the
sources; this is the interface §6 gives and that `storage_test.rs` exercises. `store_frame` accepts
exactly the next index of the log and otherwise answers `Conflict { expected, got }`, so a log is
always the frames `0, 1, 2, ...` in the order they were stored.

The loads of `MemoryStorage` cannot fail, so they are total here.
-/

namespace Kalandra

/-- The errors of a storage write. -/
inductive StorageError
  | conflict (expected got : Nat)
  deriving DecidableEq, Repr

/-- Modelled from the spec: `MemoryStorage`, a log of frames and an MLS state per room. -/
structure MemoryStorage where
  frames : RoomId → List Frame
  mlsStates : RoomId → Option MlsGroupState

namespace MemoryStorage

/-- Empty storage. -/
def empty : MemoryStorage := ⟨fun _ => [], fun _ => none⟩

/-- `store_frame`: append at the expected index, or report the conflict. -/
def storeFrame (s : MemoryStorage) (room : RoomId) (logIndex : Nat) (frame : Frame) :
    Except StorageError MemoryStorage :=
  if logIndex = (s.frames room).length then
    .ok { s with frames := Function.update s.frames room (s.frames room ++ [frame]) }
  else .error (.conflict (s.frames room).length logIndex)

/-- `load_frames`: up to `limit` frames from index `from`. -/
def loadFrames (s : MemoryStorage) (room : RoomId) (fromIndex limit : Nat) : List Frame :=
  ((s.frames room).drop fromIndex).take limit

/-- `latest_log_index`. -/
def latestLogIndex (s : MemoryStorage) (room : RoomId) : Option Nat :=
  if s.frames room = [] then none else some ((s.frames room).length - 1)

def storeMlsState (s : MemoryStorage) (room : RoomId) (state : MlsGroupState) : MemoryStorage :=
  { s with mlsStates := Function.update s.mlsStates room (some state) }

def loadMlsState (s : MemoryStorage) (room : RoomId) : Option MlsGroupState := s.mlsStates room

@[simp] theorem empty_frames (r : RoomId) : empty.frames r = [] := rfl
@[simp] theorem empty_mlsStates (r : RoomId) : empty.mlsStates r = none := rfl

@[simp] theorem storeMlsState_frames (s : MemoryStorage) (r : RoomId) (st : MlsGroupState) :
    (s.storeMlsState r st).frames = s.frames := rfl

theorem storeFrame_eq_ok {s s' : MemoryStorage} {r i f} (h : s.storeFrame r i f = .ok s') :
    i = (s.frames r).length ∧ s' = { s with frames := Function.update s.frames r (s.frames r ++ [f]) } := by
  unfold storeFrame at h
  split at h
  · exact ⟨‹_›, (Except.ok.inj h).symm⟩
  · cases h

theorem latestLogIndex_eq (s : MemoryStorage) (r : RoomId) :
    (s.latestLogIndex r).elim 0 (· + 1) = (s.frames r).length := by
  unfold latestLogIndex
  split
  · simp [*]
  · simp only [Option.elim_some]
    have : (s.frames r).length ≠ 0 := by simpa [List.length_eq_zero]
    omega

end MemoryStorage

end Kalandra
