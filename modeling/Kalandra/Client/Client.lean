import Kalandra.Client.Codec
import Kalandra.Mls.Adapter
import Mathlib.Logic.Relation

/-!
# The client

`client.rs`: the client's rooms, each an MLS group with the sender keys of its epoch and the
client's leaf index, and `Client::handle`, which turns one event into actions.

`handle` takes `&mut self` and returns a `Result`, so it is a function to the new client and the
result. What a handler changed before an early `?` return stays changed, as in Rust:
`handle_commit` keeps the processed group when re-deriving the sender keys fails.

The environment answers two calls. `now` is read only by `MlsGroup::new`, whose adapter does not
take it, and `random_bytes` fills the 16 bytes `handle_send_message` draws: those bytes are an
argument of `handle`.
-/

namespace Kalandra

/-- `SENDER_KEY_LABEL`. -/
def senderKeyLabel : String := "kalandra sender keys v1"

/-- `SENDER_KEY_CONTEXT`. -/
def senderKeyContext : Bytes := []

/-- `SENDER_KEY_SECRET_SIZE`. -/
def senderKeySecretSize : Nat := 32

/-- The errors the client's handlers raise (`ClientError`). -/
inductive ClientError
  | roomNotFound (roomId : RoomId)
  | epochMismatch (expected actual : Nat)
  | roomAlreadyExists (roomId : RoomId)
  | mls (reason : String)
  | senderKey (e : SenderKeyError)
  | invalidFrame (reason : String)
  | invalidState (reason : String)
  deriving DecidableEq, Repr

/-- `RoomStateSnapshot`. -/
structure RoomStateSnapshot where
  roomId : RoomId
  epoch : Nat
  mlsState : Bytes
  myLeafIndex : Nat
  deriving DecidableEq, Repr

/-- `ClientAction`. -/
inductive ClientAction
  | send (frame : Frame)
  | deliverMessage (roomId : RoomId) (senderId : MemberId) (plaintext : Bytes) (logIndex timestamp : Nat)
  | roomRemoved (roomId : RoomId) (reason : String)
  | persistRoom (snapshot : RoomStateSnapshot)
  | log (message : String)
  deriving DecidableEq, Repr

/-- `ClientEvent`. -/
inductive ClientEvent
  | createRoom (roomId : RoomId)
  | sendMessage (roomId : RoomId) (plaintext : Bytes)
  | frameReceived (frame : Frame)
  | tick (now : Nat)
  | leaveRoom (roomId : RoomId)
  | joinRoom (roomId : RoomId) (welcome : Bytes)
  | addMembers (roomId : RoomId) (keyPackages : List Bytes)
  deriving DecidableEq, Repr

/-- `RoomState`. -/
structure RoomState (G : Type) where
  mlsGroup : G
  senderKeys : SenderKeyStore
  myLeafIndex : Nat

/-- `Client`, with its identity's `sender_id`. -/
structure Client (G : Type) where
  identity : MemberId
  rooms : RoomId → Option (RoomState G)

/-- `convert_mls_actions`. The MLS layer's deliveries and removals carry room 0. -/
def convertMlsActions (actions : List MlsAction) : List ClientAction :=
  actions.map fun
    | .sendCommit f | .sendProposal f | .sendMessage f => .send f
    | .sendWelcome f => .send f
    | .deliverMessage sender plaintext => .deliverMessage 0 sender plaintext 0 0
    | .removeGroup reason => .roomRemoved 0 reason
    | .log message => .log message

/-- The text of the log action of `handle_create_room`, with the room in lower-case hexadecimal. -/
def createdRoomMessage (room : RoomId) : String :=
  "Created room " ++ String.mk (Nat.toDigits 16 room) ++ " at epoch 0"

namespace Client

variable {G : Type} (A : MlsAdapter G) (cs : CipherSuite)

/-- `Client::new`. -/
def new (senderId : MemberId) : Client G := ⟨senderId, fun _ => none⟩

/-- The client with one room's state replaced. -/
def setRoom (c : Client G) (room : RoomId) (rs : RoomState G) : Client G :=
  { c with rooms := Function.update c.rooms room (some rs) }

/-- `Client::epoch`. -/
def epoch (c : Client G) (room : RoomId) : Option Nat := (c.rooms room).map fun rs => A.epoch rs.mlsGroup

/-- `initialize_sender_keys`: the store of the group's epoch, from the secret it exports. -/
def initializeSenderKeys (g : G) : Except ClientError SenderKeyStore :=
  match A.exportSecret g senderKeyLabel senderKeyContext senderKeySecretSize with
  | .error e => .error (.mls e.toString)
  | .ok secret => .ok (SenderKeyStore.initializeEpoch cs secret (A.epoch g) (A.memberLeafIndices g))

/-- `handle_create_room`. -/
def handleCreateRoom (c : Client G) (room : RoomId) : Client G × Except ClientError (List ClientAction) :=
  if (c.rooms room).isSome then (c, .error (.roomAlreadyExists room))
  else match A.new room c.identity with
    | .error e => (c, .error (.mls e.toString))
    | .ok (g, mlsActions) =>
      match initializeSenderKeys A cs g with
      | .error e => (c, .error e)
      | .ok keys =>
        (c.setRoom room ⟨g, keys, A.ownLeafIndex g⟩,
          .ok (convertMlsActions mlsActions ++ [.log (createdRoomMessage room)]))

/-- The header of the frame `handle_send_message` builds. -/
def appMessageHeader (room : RoomId) (senderId : MemberId) (epoch : Nat) : FrameHeader :=
  (((FrameHeader.new .appMessage).setRoomId room).setSenderId senderId).setEpoch epoch

@[simp] theorem appMessageHeader_roomId (room : RoomId) (senderId : MemberId) (epoch : Nat) :
    (appMessageHeader room senderId epoch).roomId = room := rfl

@[simp] theorem appMessageHeader_senderId (room : RoomId) (senderId : MemberId) (epoch : Nat) :
    (appMessageHeader room senderId epoch).senderId = senderId := rfl

@[simp] theorem appMessageHeader_epoch (room : RoomId) (senderId : MemberId) (epoch : Nat) :
    (appMessageHeader room senderId epoch).epoch = epoch := rfl

@[simp] theorem appMessageHeader_opcodeEnum (room : RoomId) (senderId : MemberId) (epoch : Nat) :
    (appMessageHeader room senderId epoch).opcodeEnum = some .appMessage := rfl

/-- `handle_send_message`. -/
def handleSendMessage (c : Client G) (random : Bytes) (room : RoomId) (plaintext : Bytes) :
    Client G × Except ClientError (List ClientAction) :=
  match c.rooms room with
  | none => (c, .error (.roomNotFound room))
  | some rs =>
    match rs.senderKeys.encrypt cs rs.myLeafIndex plaintext random with
    | .error e => (c, .error (.senderKey e))
    | .ok (encrypted, keys) =>
      (c.setRoom room { rs with senderKeys := keys },
        .ok [.send ⟨appMessageHeader room c.identity (A.epoch rs.mlsGroup), serializeEncryptedMessage encrypted⟩])

/-- `handle_app_message`. -/
def handleAppMessage (c : Client G) (room : RoomId) (frame : Frame) :
    Client G × Except ClientError (List ClientAction) :=
  match c.rooms room with
  | none => (c, .error (.roomNotFound room))
  | some rs =>
    if frame.header.epoch ≠ A.epoch rs.mlsGroup then
      (c, .error (.epochMismatch (A.epoch rs.mlsGroup) frame.header.epoch))
    else match deserializeEncryptedMessage frame.payload with
      | .error e => (c, .error (.invalidFrame e))
      | .ok encrypted =>
        match rs.senderKeys.decrypt cs encrypted with
        | .error e => (c, .error (.senderKey e))
        | .ok (plaintext, keys) =>
          (c.setRoom room { rs with senderKeys := keys },
            .ok [.deliverMessage room frame.header.senderId plaintext frame.header.logIndex frame.header.hlcTimestamp])

/-- `handle_commit`. The processed group stays when re-deriving the keys fails. -/
def handleCommit (c : Client G) (room : RoomId) (frame : Frame) :
    Client G × Except ClientError (List ClientAction) :=
  match c.rooms room with
  | none => (c, .error (.roomNotFound room))
  | some rs =>
    match A.processMessage rs.mlsGroup frame with
    | .error e => (c, .error (.mls e.toString))
    | .ok (mlsActions, g) =>
      match initializeSenderKeys A cs g with
      | .error e => (c.setRoom room { rs with mlsGroup := g }, .error e)
      | .ok keys =>
        (c.setRoom room { rs with mlsGroup := g, senderKeys := keys, myLeafIndex := A.ownLeafIndex g },
          .ok (convertMlsActions mlsActions ++ [.persistRoom ⟨room, A.epoch g, [], A.ownLeafIndex g⟩]))

/-- `handle_welcome`. -/
def handleWelcome (c : Client G) : Client G × Except ClientError (List ClientAction) :=
  (c, .error (.invalidState "Welcome frame processing requires KeyPackage management (not yet implemented)"))

/-- `handle_join_room`. -/
def handleJoinRoom (c : Client G) : Client G × Except ClientError (List ClientAction) :=
  (c, .error (.invalidState "Join room requires KeyPackage management (not yet implemented)"))

/-- `handle_frame`: dispatch on the opcode; every opcode but `AppMessage`, `Commit` and `Welcome` goes
to the MLS group as it is. -/
def handleFrame (c : Client G) (frame : Frame) : Client G × Except ClientError (List ClientAction) :=
  let room := frame.header.roomId
  match frame.header.opcodeEnum with
  | none => (c, .error (.invalidFrame ("Unknown opcode: " ++ toString frame.header.opcode)))
  | some .appMessage => handleAppMessage A cs c room frame
  | some .commit => handleCommit A cs c room frame
  | some .welcome => handleWelcome c
  | some _ =>
    match c.rooms room with
    | none => (c, .error (.roomNotFound room))
    | some rs =>
      match A.processMessage rs.mlsGroup frame with
      | .error e => (c, .error (.mls e.toString))
      | .ok (mlsActions, g) => (c.setRoom room { rs with mlsGroup := g }, .ok (convertMlsActions mlsActions))

/-- `handle_add_members`. -/
def handleAddMembers (c : Client G) (room : RoomId) (keyPackages : List Bytes) :
    Client G × Except ClientError (List ClientAction) :=
  match c.rooms room with
  | none => (c, .error (.roomNotFound room))
  | some rs =>
    match A.addMembersFromBytes rs.mlsGroup keyPackages with
    | .error e => (c, .error (.mls e.toString))
    | .ok (mlsActions, g) => (c.setRoom room { rs with mlsGroup := g }, .ok (convertMlsActions mlsActions))

/-- `handle_leave_room`. -/
def handleLeaveRoom (c : Client G) (room : RoomId) : Client G × Except ClientError (List ClientAction) :=
  match c.rooms room with
  | none => (c, .error (.roomNotFound room))
  | some _ => ({ c with rooms := Function.update c.rooms room none }, .ok [.roomRemoved room "Left room"])

/-- `Client::handle`, with the bytes the environment's `random_bytes` gives. -/
def handle (c : Client G) (random : Bytes) : ClientEvent → Client G × Except ClientError (List ClientAction)
  | .createRoom room => handleCreateRoom A cs c room
  | .sendMessage room plaintext => handleSendMessage A cs c random room plaintext
  | .frameReceived frame => handleFrame A cs c frame
  | .tick _ => (c, .ok [])
  | .leaveRoom room => handleLeaveRoom c room
  | .joinRoom _ _ => handleJoinRoom c
  | .addMembers room keyPackages => handleAddMembers A c room keyPackages

/-- A sequence of events, each with the bytes the environment gives during it, and the results. -/
def run (c : Client G) : List (ClientEvent × Bytes) → Client G × List (Except ClientError (List ClientAction))
  | [] => (c, [])
  | (event, random) :: events =>
    let step := c.handle A cs random event
    let rest := run step.1 events
    (rest.1, step.2 :: rest.2)

@[simp] theorem run_nil (c : Client G) : c.run A cs [] = (c, []) := rfl

theorem run_cons (c : Client G) (event : ClientEvent) (random : Bytes) (events : List (ClientEvent × Bytes)) :
    c.run A cs ((event, random) :: events) =
      (((c.handle A cs random event).1.run A cs events).1,
        (c.handle A cs random event).2 :: ((c.handle A cs random event).1.run A cs events).2) := rfl

theorem setRoom_rooms (c : Client G) (room r : RoomId) (rs : RoomState G) :
    (c.setRoom room rs).rooms r = if r = room then some rs else c.rooms r := by
  simp only [setRoom, Function.update_apply]

/-! ### What each handler can do

One statement per handler: it fails with the client unchanged, or it succeeds in the one way its
code allows (`handle_commit` has a second way to fail, which keeps the processed group). -/

theorem handleCreateRoom_cases (c : Client G) (room : RoomId) :
    (∃ e, c.handleCreateRoom A cs room = (c, .error e)) ∨
      ∃ g acts keys, A.new room c.identity = .ok (g, acts) ∧ initializeSenderKeys A cs g = .ok keys ∧
        c.handleCreateRoom A cs room =
          (c.setRoom room ⟨g, keys, A.ownLeafIndex g⟩, .ok (convertMlsActions acts ++ [.log (createdRoomMessage room)])) := by
  unfold handleCreateRoom
  split
  · exact .inl ⟨_, rfl⟩
  · split
    · exact .inl ⟨_, rfl⟩
    · rename_i g acts hg
      split
      · exact .inl ⟨_, rfl⟩
      · rename_i keys hk
        exact .inr ⟨g, acts, keys, hg, hk, rfl⟩

theorem handleSendMessage_cases (c : Client G) (random : Bytes) (room : RoomId) (plaintext : Bytes) :
    (∃ e, c.handleSendMessage A cs random room plaintext = (c, .error e)) ∨
      ∃ rs m keys, c.rooms room = some rs ∧ rs.senderKeys.encrypt cs rs.myLeafIndex plaintext random = .ok (m, keys) ∧
        c.handleSendMessage A cs random room plaintext = (c.setRoom room { rs with senderKeys := keys },
          .ok [.send ⟨appMessageHeader room c.identity (A.epoch rs.mlsGroup), serializeEncryptedMessage m⟩]) := by
  unfold handleSendMessage
  split
  · exact .inl ⟨_, rfl⟩
  · rename_i rs hr
    split
    · exact .inl ⟨_, rfl⟩
    · rename_i m keys he
      exact .inr ⟨rs, m, keys, hr, he, rfl⟩

theorem handleAppMessage_cases (c : Client G) (room : RoomId) (frame : Frame) :
    (∃ e, c.handleAppMessage A cs room frame = (c, .error e)) ∨
      ∃ rs m plaintext keys, c.rooms room = some rs ∧ frame.header.epoch = A.epoch rs.mlsGroup ∧
        deserializeEncryptedMessage frame.payload = .ok m ∧ rs.senderKeys.decrypt cs m = .ok (plaintext, keys) ∧
        c.handleAppMessage A cs room frame = (c.setRoom room { rs with senderKeys := keys },
          .ok [.deliverMessage room frame.header.senderId plaintext frame.header.logIndex frame.header.hlcTimestamp]) := by
  unfold handleAppMessage
  split
  · exact .inl ⟨_, rfl⟩
  · rename_i rs hr
    split
    · exact .inl ⟨_, rfl⟩
    · rename_i he
      split
      · exact .inl ⟨_, rfl⟩
      · rename_i m hd
        split
        · exact .inl ⟨_, rfl⟩
        · rename_i plaintext keys hk
          exact .inr ⟨rs, m, plaintext, keys, hr, not_not.mp he, hd, hk, rfl⟩

theorem handleCommit_cases (c : Client G) (room : RoomId) (frame : Frame) :
    (∃ e, c.handleCommit A cs room frame = (c, .error e)) ∨
      ∃ rs acts g, c.rooms room = some rs ∧ A.processMessage rs.mlsGroup frame = .ok (acts, g) ∧
        ((∃ e, initializeSenderKeys A cs g = .error e ∧
            c.handleCommit A cs room frame = (c.setRoom room { rs with mlsGroup := g }, .error e)) ∨
          ∃ keys, initializeSenderKeys A cs g = .ok keys ∧
            c.handleCommit A cs room frame =
              (c.setRoom room { rs with mlsGroup := g, senderKeys := keys, myLeafIndex := A.ownLeafIndex g },
                .ok (convertMlsActions acts ++ [.persistRoom ⟨room, A.epoch g, [], A.ownLeafIndex g⟩]))) := by
  unfold handleCommit
  split
  · exact .inl ⟨_, rfl⟩
  · rename_i rs hr
    split
    · exact .inl ⟨_, rfl⟩
    · rename_i acts g hp
      split
      · rename_i e he
        exact .inr ⟨rs, acts, g, hr, hp, .inl ⟨e, he, rfl⟩⟩
      · rename_i keys hk
        exact .inr ⟨rs, acts, g, hr, hp, .inr ⟨keys, hk, rfl⟩⟩

theorem handleFrame_cases (c : Client G) (frame : Frame) :
    (frame.header.opcodeEnum = some .appMessage ∧
        c.handleFrame A cs frame = c.handleAppMessage A cs frame.header.roomId frame) ∨
      (frame.header.opcodeEnum = some .commit ∧
        c.handleFrame A cs frame = c.handleCommit A cs frame.header.roomId frame) ∨
      (∃ e, c.handleFrame A cs frame = (c, .error e)) ∨
      ∃ rs acts g, c.rooms frame.header.roomId = some rs ∧ A.processMessage rs.mlsGroup frame = .ok (acts, g) ∧
        c.handleFrame A cs frame =
          (c.setRoom frame.header.roomId { rs with mlsGroup := g }, .ok (convertMlsActions acts)) := by
  dsimp only [handleFrame]
  split
  · exact .inr (.inr (.inl ⟨_, rfl⟩))
  · exact .inl ⟨‹_›, rfl⟩
  · exact .inr (.inl ⟨‹_›, rfl⟩)
  · exact .inr (.inr (.inl ⟨_, rfl⟩))
  · split
    · exact .inr (.inr (.inl ⟨_, rfl⟩))
    · rename_i rs hr
      split
      · exact .inr (.inr (.inl ⟨_, rfl⟩))
      · rename_i acts g hp
        exact .inr (.inr (.inr ⟨rs, acts, g, hr, hp, rfl⟩))

theorem handleAddMembers_cases (c : Client G) (room : RoomId) (keyPackages : List Bytes) :
    (∃ e, c.handleAddMembers A room keyPackages = (c, .error e)) ∨
      ∃ rs acts g, c.rooms room = some rs ∧ A.addMembersFromBytes rs.mlsGroup keyPackages = .ok (acts, g) ∧
        c.handleAddMembers A room keyPackages =
          (c.setRoom room { rs with mlsGroup := g }, .ok (convertMlsActions acts)) := by
  unfold handleAddMembers
  split
  · exact .inl ⟨_, rfl⟩
  · rename_i rs hr
    split
    · exact .inl ⟨_, rfl⟩
    · rename_i acts g hp
      exact .inr ⟨rs, acts, g, hr, hp, rfl⟩

theorem handleLeaveRoom_cases (c : Client G) (room : RoomId) :
    (∃ e, c.handleLeaveRoom room = (c, .error e)) ∨
      ((c.rooms room).isSome ∧ c.handleLeaveRoom room =
        ({ c with rooms := Function.update c.rooms room none }, .ok [.roomRemoved room "Left room"])) := by
  unfold handleLeaveRoom
  split
  · exact .inl ⟨_, rfl⟩
  · exact .inr ⟨by simp [*], rfl⟩

theorem handleSendMessage_eq_ok {c : Client G} {random : Bytes} {room : RoomId} {plaintext : Bytes}
    {actions : List ClientAction} (h : (c.handleSendMessage A cs random room plaintext).2 = .ok actions) :
    ∃ rs m keys, c.rooms room = some rs ∧ rs.senderKeys.encrypt cs rs.myLeafIndex plaintext random = .ok (m, keys) ∧
      actions = [.send ⟨appMessageHeader room c.identity (A.epoch rs.mlsGroup), serializeEncryptedMessage m⟩] ∧
      (c.handleSendMessage A cs random room plaintext).1 = c.setRoom room { rs with senderKeys := keys } := by
  rcases handleSendMessage_cases A cs c random room plaintext with ⟨e, he⟩ | ⟨rs, m, keys, hr, hk, he⟩
  · rw [he] at h
    cases h
  · rw [he] at h ⊢
    exact ⟨rs, m, keys, hr, hk, (Except.ok.inj h).symm, rfl⟩

theorem handle_frameReceived (c : Client G) (random : Bytes) (frame : Frame) :
    c.handle A cs random (.frameReceived frame) = c.handleFrame A cs frame := rfl

theorem handleFrame_appMessage {frame : Frame} (h : frame.header.opcodeEnum = some .appMessage) (c : Client G) :
    c.handleFrame A cs frame = c.handleAppMessage A cs frame.header.roomId frame := by
  simp [handleFrame, h]

theorem handleAppMessage_of_deserialize {c : Client G} {room : RoomId} {rs : RoomState G} {frame : Frame}
    {m : EncryptedMessage} (hr : c.rooms room = some rs) (he : frame.header.epoch = A.epoch rs.mlsGroup)
    (hd : deserializeEncryptedMessage frame.payload = .ok m) :
    c.handleAppMessage A cs room frame =
      match rs.senderKeys.decrypt cs m with
      | .error e => (c, .error (.senderKey e))
      | .ok (plaintext, keys) =>
        (c.setRoom room { rs with senderKeys := keys },
          .ok [.deliverMessage room frame.header.senderId plaintext frame.header.logIndex frame.header.hlcTimestamp]) := by
  simp [handleAppMessage, hr, he, hd]

end Client

/-! ### Traffic

Sending and receiving application messages moves a room only through its sender keys. -/

namespace RoomState

variable {G : Type} (cs : CipherSuite)

/-- One change of a room by its sender keys alone: `encrypt` for the client's own leaf, or a
`decrypt`. -/
inductive KeysStep : RoomState G → RoomState G → Prop
  | encrypt {rs : RoomState G} {plaintext random : Bytes} {m : EncryptedMessage} {keys : SenderKeyStore} :
      rs.senderKeys.encrypt cs rs.myLeafIndex plaintext random = .ok (m, keys) →
        KeysStep rs { rs with senderKeys := keys }
  | decrypt {rs : RoomState G} {m : EncryptedMessage} {plaintext : Bytes} {keys : SenderKeyStore} :
      rs.senderKeys.decrypt cs m = .ok (plaintext, keys) → KeysStep rs { rs with senderKeys := keys }

theorem KeysStep.invariant {P : RoomState G → Prop} (hP : ∀ {a b}, KeysStep cs a b → P a → P b)
    {a b : RoomState G} (h : Relation.ReflTransGen (KeysStep cs) a b) (ha : P a) : P b := by
  induction h with
  | refl => exact ha
  | tail _ hbc ih => exact hP hbc ih

theorem KeysStep.keeps {a b : RoomState G} (h : KeysStep cs a b) :
    b.mlsGroup = a.mlsGroup ∧ b.myLeafIndex = a.myLeafIndex ∧ b.senderKeys.epoch = a.senderKeys.epoch ∧
      ∀ leaf g, a.senderKeys.Stale leaf g → b.senderKeys.Stale leaf g := by
  cases h with
  | @encrypt _ _ _ _ he =>
    obtain ⟨_, -, -, hk⟩ := SenderKeyStore.encrypt_eq_ok cs he
    exact ⟨rfl, rfl, by rw [hk]; rfl, fun _ _ hs => hs.encrypt cs he⟩
  | @decrypt _ _ _ hd =>
    obtain ⟨-, _, _, -, hk, -⟩ := SenderKeyStore.decrypt_eq_ok cs hd
    exact ⟨rfl, rfl, by rw [hk]; rfl, fun _ _ hs => hs.decrypt cs hd⟩

end RoomState

/-- Sending, receiving an `AppMessage` frame, and ticking. -/
def ClientEvent.isTraffic : ClientEvent → Bool
  | .sendMessage _ _ | .tick _ => true
  | .frameReceived f => f.header.opcodeEnum == some .appMessage
  | _ => false

namespace Client

variable {G : Type} (A : MlsAdapter G) (cs : CipherSuite)

theorem setRoom_keysStep {c : Client G} {room r : RoomId} {rs₀ rs₁ rs : RoomState G}
    (h₀ : c.rooms room = some rs₀) (h : RoomState.KeysStep cs rs₀ rs₁) (hr : c.rooms r = some rs) :
    ∃ rs', (c.setRoom room rs₁).rooms r = some rs' ∧ Relation.ReflTransGen (RoomState.KeysStep cs) rs rs' := by
  rw [setRoom_rooms]
  split_ifs with hroom
  · subst hroom
    rw [hr] at h₀
    cases h₀
    exact ⟨rs₁, rfl, .single h⟩
  · exact ⟨rs, hr, .refl⟩

theorem handle_traffic {c : Client G} {r : RoomId} {rs : RoomState G} (hr : c.rooms r = some rs)
    {event : ClientEvent} (he : event.isTraffic) (random : Bytes) :
    ∃ rs', (c.handle A cs random event).1.rooms r = some rs' ∧
      Relation.ReflTransGen (RoomState.KeysStep cs) rs rs' := by
  cases event with
  | sendMessage room plaintext =>
    rcases handleSendMessage_cases A cs c random room plaintext with ⟨e, h⟩ | ⟨rs₀, m, keys, h₀, hk, h⟩
    · exact ⟨rs, by simp only [handle, h, hr], .refl⟩
    · simp only [handle, h]
      exact setRoom_keysStep cs h₀ (.encrypt hk) hr
  | frameReceived frame =>
    simp only [ClientEvent.isTraffic, beq_iff_eq] at he
    rcases handleAppMessage_cases A cs c frame.header.roomId frame with ⟨e, h⟩ | ⟨rs₀, m, p, keys, h₀, -, -, hd, h⟩
    · exact ⟨rs, by simp only [handle, handleFrame_appMessage A cs he, h, hr], .refl⟩
    · simp only [handle, handleFrame_appMessage A cs he, h]
      exact setRoom_keysStep cs h₀ (.decrypt hd) hr
  | tick => exact ⟨rs, hr, .refl⟩
  | _ => cases he

theorem run_traffic {r : RoomId} (events : List (ClientEvent × Bytes)) (he : ∀ e ∈ events, e.1.isTraffic) :
    ∀ {c : Client G} {rs : RoomState G}, c.rooms r = some rs →
      ∃ rs', (c.run A cs events).1.rooms r = some rs' ∧ Relation.ReflTransGen (RoomState.KeysStep cs) rs rs' := by
  induction events with
  | nil => exact fun hr => ⟨_, hr, .refl⟩
  | cons e events ih =>
    intro c rs hr
    obtain ⟨rs₁, h₁, hstep⟩ := handle_traffic A cs hr (he e (List.mem_cons_self _ _)) e.2
    obtain ⟨rs₂, h₂, hrun⟩ := ih (fun e' he' => he e' (List.mem_cons_of_mem _ he')) h₁
    exact ⟨rs₂, h₂, hstep.trans hrun⟩

end Client

/-- The frames of the `Send` actions of a run's `Ok` results, in order. -/
def sentFrames (results : List (Except ClientError (List ClientAction))) : List Frame :=
  results.flatMap fun
    | .ok actions => actions.filterMap fun
      | .send f => some f
      | _ => none
    | .error _ => []

end Kalandra
