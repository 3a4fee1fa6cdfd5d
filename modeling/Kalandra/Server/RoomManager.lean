import Kalandra.Server.Sequencer

/-!
# The room manager

`room_manager.rs`: the server's per-room MLS groups, the sequencer and the room metadata, and the
operations that create rooms, change their membership, answer sync requests and process frames.

Every method that takes `&mut self` and returns a `Result` is a function to the new manager and the
result, `RoomManager G × Except RoomError α`. Rust keeps whatever the method changed before an early
`?` return, and so does the model: `process_frame` has called the sequencer by the time it validates
signatures and merges commits, and the manager it returns on those errors is the one the sequencer
left.
-/

namespace Kalandra

/-- The errors of the room manager that the modelled paths can raise. -/
inductive RoomError
  | mlsValidation (e : MlsError)
  | roomNotFound (roomId : RoomId)
  | roomAlreadyExists (roomId : RoomId)
  | invalidEpoch (expected actual : Nat)
  | notMember (memberId : MemberId)
  deriving DecidableEq, Repr

/-- The actions the room manager returns to its driver (`RoomAction`). -/
inductive RoomAction
  | broadcast (roomId : RoomId) (frame : Frame) (excludeSender : Bool) (processedAt : Nat)
  | persistFrame (roomId : RoomId) (logIndex : Nat) (frame : Frame) (processedAt : Nat)
  | persistMlsState (roomId : RoomId) (state : MlsGroupState) (processedAt : Nat)
  | reject (senderId : MemberId) (reason : String) (processedAt : Nat)
  | sendSyncResponse (senderId : MemberId) (roomId : RoomId) (frames : List Bytes) (hasMore : Bool)
      (serverEpoch : Nat) (processedAt : Nat)
  deriving DecidableEq, Repr

/-- Who created a room, and when. -/
structure RoomMetadata where
  creator : MemberId
  createdAt : Nat
  deriving DecidableEq, Repr

/-- The room manager's state. -/
structure RoomManager (G : Type) where
  groups : RoomId → Option G
  sequencer : Sequencer
  roomMetadata : RoomId → Option RoomMetadata

/-- The frame a sequencer action carries, if it is one to validate. -/
def SequencerAction.frameToValidate : SequencerAction → Option Frame
  | .acceptFrame _ _ f | .storeFrame _ _ f | .broadcastToRoom _ f => some f
  | .rejectFrame _ _ _ => none

/-- The conversion of a sequencer action into a room action. -/
def SequencerAction.toRoomAction (now : Nat) : SequencerAction → RoomAction
  | .acceptFrame room i f => .persistFrame room i f now
  | .storeFrame room i f => .persistFrame room i f now
  | .broadcastToRoom room f => .broadcast room f false now
  | .rejectFrame _ reason orig => .reject orig.header.senderId reason now

namespace RoomManager

variable {G : Type} (A : MlsAdapter G) (V : SignatureValidator)

/-- `RoomManager::new`. -/
def new : RoomManager G := ⟨fun _ => none, Sequencer.new, fun _ => none⟩

/-- `has_room`. -/
def hasRoom (rm : RoomManager G) (room : RoomId) : Bool := (rm.roomMetadata room).isSome

/-- `epoch`. -/
def epoch (rm : RoomManager G) (room : RoomId) : Option Nat := (rm.groups room).map A.epoch

/-- The manager with a room's group replaced. -/
def setGroup (rm : RoomManager G) (room : RoomId) (g : G) : RoomManager G :=
  { rm with groups := Function.update rm.groups room (some g) }

@[simp] theorem new_groups (r : RoomId) : (new : RoomManager G).groups r = none := rfl
@[simp] theorem new_sequencer : (new : RoomManager G).sequencer = Sequencer.new := rfl

@[simp] theorem setGroup_sequencer (rm : RoomManager G) (r : RoomId) (g : G) :
    (rm.setGroup r g).sequencer = rm.sequencer := rfl

theorem setGroup_groups (rm : RoomManager G) (r r' : RoomId) (g : G) :
    (rm.setGroup r g).groups r' = if r' = r then some g else rm.groups r' := by
  simp only [setGroup, Function.update_apply]

/-! ### Validation -/

/-- `validate_frame_basic`: the epoch against the in-memory group, then membership and a stored key
against the stored state when there is one, and epoch 0 when there is none. -/
def validateFrameBasic (frame : Frame) (group : G) (mlsState : Option MlsGroupState) :
    Except RoomError Unit :=
  let frameEpoch := frame.header.epoch
  if frameEpoch ≠ A.epoch group then .error (.invalidEpoch (A.epoch group) frameEpoch)
  else
    let senderId := frame.header.senderId
    match mlsState with
    | some state =>
      if !state.isMember senderId then .error (.notMember senderId)
      else if (state.memberKey senderId).isNone then .error (.mlsValidation (.memberNotFound senderId))
      else .ok ()
    | none => if frameEpoch ≠ 0 then .error (.invalidEpoch 0 frameEpoch) else .ok ()

/-- The signature check of one frame: skipped for unknown opcodes, for Commit, Proposal and Welcome,
and when no state is stored. -/
def validateFrameSignature (frame : Frame) (mlsState : Option MlsGroupState) : Except RoomError Unit :=
  match frame.header.opcodeEnum with
  | some .commit | some .proposal | some .welcome | none => .ok ()
  | some _ =>
    match mlsState with
    | some state =>
      match V frame state with
      | .error e => .error (.mlsValidation e)
      | .ok (.reject reason) => .error (.mlsValidation (.validationFailed reason))
      | .ok .accept => .ok ()
    | none => .ok ()

/-- `validate_sequenced_actions_signatures`. -/
def validateSequencedActionsSignatures : List SequencerAction → Option MlsGroupState → Except RoomError Unit
  | [], _ => .ok ()
  | a :: rest, mlsState =>
    match a.frameToValidate with
    | none => validateSequencedActionsSignatures rest mlsState
    | some f =>
      match validateFrameSignature V f mlsState with
      | .error e => .error e
      | .ok () => validateSequencedActionsSignatures rest mlsState

/-! ### Operations -/

/-- `create_room`. -/
def createRoom (rm : RoomManager G) (room : RoomId) (creator : MemberId) (now : Nat) :
    RoomManager G × Except RoomError Unit :=
  if rm.hasRoom room then (rm, .error (.roomAlreadyExists room))
  else match A.new room creator with
    | .error e => (rm, .error (.mlsValidation e))
    | .ok (g, _) =>
      ({ rm.setGroup room g with
          roomMetadata := Function.update rm.roomMetadata room (some ⟨creator, now⟩) }, .ok ())

/-- `add_members`, `remove_members` and `leave_room`: look the group up and apply one MLS
operation to it. -/
def withGroup (rm : RoomManager G) (room : RoomId) (op : G → Except MlsError (List MlsAction × G)) :
    RoomManager G × Except RoomError (List MlsAction) :=
  match rm.groups room with
  | none => (rm, .error (.roomNotFound room))
  | some g =>
    match op g with
    | .error e => (rm, .error (.mlsValidation e))
    | .ok (actions, g') => (rm.setGroup room g', .ok actions)

@[simp] theorem createRoom_sequencer (rm : RoomManager G) (room : RoomId) (creator : MemberId) (now : Nat) :
    (rm.createRoom A room creator now).1.sequencer = rm.sequencer := by
  unfold createRoom
  split
  · rfl
  · split <;> rfl

@[simp] theorem withGroup_sequencer (rm : RoomManager G) (room : RoomId) (op : G → Except MlsError (List MlsAction × G)) :
    (rm.withGroup room op).1.sequencer = rm.sequencer := by
  unfold withGroup
  split
  · rfl
  · split <;> rfl

def addMembers (rm : RoomManager G) (room : RoomId) (keyPackages : List Bytes) :=
  withGroup rm room (A.addMembersFromBytes · keyPackages)

def removeMembers (rm : RoomManager G) (room : RoomId) (memberIds : List MemberId) :=
  withGroup rm room (A.removeMembers · memberIds)

def leaveRoom (rm : RoomManager G) (room : RoomId) :=
  withGroup rm room A.leaveGroup

/-- `handle_sync_request`: up to `limit` stored frames from `from_log_index`, each encoded with
`Frame::encode` (a parameter: the codec is not in the sources), and whether the storage holds a frame
past the last one loaded. -/
def handleSyncRequest (encode : Frame → Bytes) (rm : RoomManager G) (room : RoomId) (senderId : MemberId)
    (fromLogIndex limit now : Nat) (storage : MemoryStorage) : Except RoomError RoomAction :=
  match rm.groups room with
  | none => .error (.roomNotFound room)
  | some group =>
    let frames := storage.loadFrames room fromLogIndex limit
    let lastLoadedIndex := if frames.isEmpty then fromLogIndex - 1 else fromLogIndex + frames.length - 1
    let hasMore := (storage.latestLogIndex room).any (lastLoadedIndex < ·)
    .ok (.sendSyncResponse senderId room (frames.map encode) hasMore (A.epoch group) now)

/-- The MLS step of a Commit: merge the pending commit if the group has one, else process the
frame as a peer's commit. -/
def applyCommit (group : G) (frame : Frame) : Except MlsError G :=
  if A.hasPendingCommit group then A.mergePendingCommit group
  else (A.processMessage group frame).map Prod.snd

/-- `process_frame`. -/
def processFrame (rm : RoomManager G) (frame : Frame) (now : Nat) (storage : MemoryStorage) :
    RoomManager G × Except RoomError (List RoomAction) :=
  let room := frame.header.roomId
  match rm.groups room with
  | none => (rm, .error (.roomNotFound room))
  | some group =>
    let mlsState := storage.loadMlsState room
    match validateFrameBasic A frame group mlsState with
    | .error e => (rm, .error e)
    | .ok () =>
      let isCommit := frame.header.opcodeEnum == some .commit
      let sequenced := rm.sequencer.processFrame frame storage now
      let rm := { rm with sequencer := sequenced.1 }
      match validateSequencedActionsSignatures V sequenced.2 mlsState with
      | .error e => (rm, .error e)
      | .ok () =>
        let roomActions := sequenced.2.map (SequencerAction.toRoomAction now)
        if isCommit then
          match applyCommit A group frame with
          | .error e => (rm, .error (.mlsValidation e))
          | .ok group' =>
            let rm := rm.setGroup room group'
            match A.exportGroupState group' with
            | .error e => (rm, .error (.mlsValidation e))
            | .ok state => (rm, .ok (roomActions ++ [.persistMlsState room state now]))
        else (rm, .ok roomActions)

end RoomManager

end Kalandra
