import Kalandra.Proto.Frame

/-!
# The harness's model of a client

`lockframe-harness` checks the client against a reference model, `ModelClient`, which its module
documentation calls the specification: a client is a set of room memberships, each with an epoch,
the messages it has received and the index its next send is counted at, and no cryptography. The
model-based test applies random `Operation`s to the model and to real clients and compares whether
each succeeds.

This module translates `model/client.rs` and `model/operation.rs`. The model's `ModelWorld` is left
out: the `ModelServer` it drives is not among the sources.
-/

namespace Kalandra

namespace Harness

/-- `ClientId` (`u8`). -/
abbrev ClientId := UInt8

/-- `ModelRoomId` (`u8`). -/
abbrev ModelRoomId := UInt8

/-- `ModelMessage`. -/
structure ModelMessage where
  senderId : ClientId
  content : Bytes
  logIndex : Nat
  deriving DecidableEq, Repr

/-- `ModelRoomState`. -/
structure ModelRoomState where
  epoch : Nat
  messages : List ModelMessage
  nextSendIndex : Nat
  deriving DecidableEq, Repr

/-- `ModelRoomState::new`. -/
def ModelRoomState.new : ModelRoomState := ⟨0, [], 0⟩

/-- `OperationError`. -/
inductive OperationError
  | roomAlreadyExists
  | roomNotFound
  | notMember
  | invalidClient
  deriving DecidableEq, Repr

/-- `OperationResult`. -/
inductive OperationResult
  | ok
  | error (e : OperationError)
  deriving DecidableEq, Repr

/-- `OperationResult::is_ok`. -/
def OperationResult.isOk : OperationResult → Bool
  | .ok => true
  | .error _ => false

/-- `SmallMessage`. -/
structure SmallMessage where
  seed : UInt8
  sizeClass : UInt8
  deriving DecidableEq, Repr

/-- `SmallMessage::to_bytes`: 0, 8, 64 or 256 bytes counting up from the seed, wrapping. -/
def SmallMessage.toBytes (m : SmallMessage) : Bytes :=
  let len := match m.sizeClass.toNat % 4 with
    | 0 => 0
    | 1 => 8
    | 2 => 64
    | _ => 256
  (List.range len).map fun i => m.seed + UInt8.ofNat i

/-- `Operation`. -/
inductive Operation
  | createRoom (clientId : ClientId) (roomId : ModelRoomId)
  | sendMessage (clientId : ClientId) (roomId : ModelRoomId) (content : SmallMessage)
  | leaveRoom (clientId : ClientId) (roomId : ModelRoomId)
  | advanceTime (millis : UInt16)
  | deliverPending
  deriving DecidableEq, Repr

/-- `ModelClient`. -/
structure ModelClient where
  id : ClientId
  rooms : ModelRoomId → Option ModelRoomState

namespace ModelClient

/-- `ModelClient::new`. -/
def new (id : ClientId) : ModelClient := ⟨id, fun _ => none⟩

/-- `is_member`. -/
def isMember (m : ModelClient) (room : ModelRoomId) : Bool := (m.rooms room).isSome

/-- `epoch`. -/
def epoch (m : ModelClient) (room : ModelRoomId) : Option Nat := (m.rooms room).map (·.epoch)

/-- `messages`. -/
def messages (m : ModelClient) (room : ModelRoomId) : Option (List ModelMessage) := (m.rooms room).map (·.messages)

/-- `create_room`: the client becomes the sole member of a new room. -/
def createRoom (m : ModelClient) (room : ModelRoomId) : ModelClient × OperationResult :=
  if (m.rooms room).isSome then (m, .error .roomAlreadyExists)
  else ({ m with rooms := Function.update m.rooms room (some .new) }, .ok)

/-- `leave_room`. -/
def leaveRoom (m : ModelClient) (room : ModelRoomId) : ModelClient × OperationResult :=
  match m.rooms room with
  | none => (m, .error .notMember)
  | some _ => ({ m with rooms := Function.update m.rooms room none }, .ok)

/-- `send_message`: the index the send is counted at, and the count moved on. -/
def sendMessage (m : ModelClient) (room : ModelRoomId) : ModelClient × Except OperationError Nat :=
  match m.rooms room with
  | none => (m, .error .notMember)
  | some rs =>
    ({ m with rooms := Function.update m.rooms room (some { rs with nextSendIndex := rs.nextSendIndex + 1 }) },
      .ok rs.nextSendIndex)

/-- `receive_message`. -/
def receiveMessage (m : ModelClient) (room : ModelRoomId) (message : ModelMessage) : ModelClient :=
  match m.rooms room with
  | none => m
  | some rs => { m with rooms := Function.update m.rooms room (some { rs with messages := rs.messages ++ [message] }) }

/-- `join_room`, whose body is `create_room`'s. -/
def joinRoom (m : ModelClient) (room : ModelRoomId) : ModelClient × OperationResult := m.createRoom room

/-- `advance_epoch`. -/
def advanceEpoch (m : ModelClient) (room : ModelRoomId) : ModelClient :=
  match m.rooms room with
  | none => m
  | some rs => { m with rooms := Function.update m.rooms room (some { rs with epoch := rs.epoch + 1 }) }

end ModelClient

end Harness

end Kalandra
