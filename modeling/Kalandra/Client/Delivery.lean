import Kalandra.Client.Keys

/-!
# Delivery of application messages

What `handle_app_message` delivers, and whom it names as the sender.

The client's own chain is the one it sends with and the one it reads its own messages with.
Sending moves that chain past the generation it used, and only new keys for the room bring it back:
so the server's sequenced copy of the client's own message, which the server broadcasts to the
sender too, is refused as `TooOldGeneration` (`own_echo_rejected`), whatever messages the client
sends and receives in between.

A message is delivered once. The key that opened it is deleted, or its chain stepped past it, so any
later frame of the same room and epoch whose payload reads as the same message is refused as
`TooOldGeneration`
(`delivered_message_refused_again`): replaying a sequenced frame delivers nothing twice.

The sender a delivery names is the header's `sender_id`. Decryption reads the payload alone, so a
frame whose header names another member is delivered under that member's name
(`delivered_sender_is_header_sender`).
-/

namespace Kalandra

/-- The numbers of a room that go on the wire fit their Rust types: the sender keys' epoch a `u64`,
the leaf index and the generation of the client's own chain a `u32`. -/
def RoomState.FitsWire {G : Type} (rs : RoomState G) : Prop :=
  rs.senderKeys.epoch < 2 ^ 64 ∧ rs.myLeafIndex < 2 ^ 32 ∧
    (rs.senderKeys.generation rs.myLeafIndex).all (· < 2 ^ 32) = true

instance {G : Type} (rs : RoomState G) : Decidable rs.FitsWire := inferInstanceAs (Decidable (_ ∧ _))

namespace Client

variable {G : Type} (A : MlsAdapter G) (cs : CipherSuite)

theorem send_then_traffic {c : Client G} {random : Bytes} {r : RoomId} {m : Bytes} {f : Frame}
    (hsend : (c.handle A cs random (.sendMessage r m)).2 = .ok [.send f])
    (events : List (ClientEvent × Bytes)) (hevents : ∀ e ∈ events, e.1.isTraffic) :
    ∃ rs enc rs', c.rooms r = some rs ∧ rs.senderKeys.encrypt cs rs.myLeafIndex m random = .ok enc ∧
      f = ⟨appMessageHeader r c.identity (A.epoch rs.mlsGroup), serializeEncryptedMessage enc.1⟩ ∧
      ((c.handle A cs random (.sendMessage r m)).1.run A cs events).1.rooms r = some rs' ∧
      rs'.mlsGroup = rs.mlsGroup ∧ rs'.myLeafIndex = rs.myLeafIndex ∧
      rs'.senderKeys.epoch = rs.senderKeys.epoch ∧ rs'.senderKeys.Stale rs.myLeafIndex enc.1.generation := by
  obtain ⟨rs, msg, keys, hr, henc, hf, hc⟩ := handleSendMessage_eq_ok A cs hsend
  have h₁ : (c.handle A cs random (.sendMessage r m)).1.rooms r = some { rs with senderKeys := keys } := by
    simp [handle, hc, setRoom_rooms]
  obtain ⟨rs', h₂, hsteps⟩ := run_traffic A cs events hevents h₁
  have hkeys : keys.epoch = rs.senderKeys.epoch := by
    obtain ⟨_, -, -, hk⟩ := SenderKeyStore.encrypt_eq_ok cs henc
    rw [hk]; rfl
  obtain ⟨hg, hl, he, hs⟩ := RoomState.KeysStep.invariant cs
    (P := fun b => b.mlsGroup = rs.mlsGroup ∧ b.myLeafIndex = rs.myLeafIndex ∧
      b.senderKeys.epoch = rs.senderKeys.epoch ∧ b.senderKeys.Stale rs.myLeafIndex msg.generation)
    (fun hab ⟨h₁, h₂, h₃, h₄⟩ => by
      obtain ⟨k₁, k₂, k₃, k₄⟩ := hab.keeps cs
      exact ⟨k₁.trans h₁, k₂.trans h₂, k₃.trans h₃, k₄ _ _ h₄⟩)
    hsteps ⟨rfl, rfl, hkeys, SenderKeyStore.encrypt_stale cs henc⟩
  exact ⟨rs, (msg, keys), rs', hr, henc, by simpa using hf, h₂, hg, hl, he, hs⟩

/-- The server's sequenced copy of a message the client sent, received after any sends and
`AppMessage` frames, is refused as too old. -/
theorem own_echo_rejected (c : Client G) (random : Bytes) (r : RoomId) (m : Bytes) (f : Frame)
    (hsend : (c.handle A cs random (.sendMessage r m)).2 = .ok [.send f])
    (hfit : ∀ rs ∈ c.rooms r, rs.FitsWire) (hrandom : random.length = 16)
    (events : List (ClientEvent × Bytes)) (hevents : ∀ e ∈ events, e.1.isTraffic)
    (logIndex timestamp : Nat) (random' : Bytes) :
    (((c.handle A cs random (.sendMessage r m)).1.run A cs events).1.handle A cs random'
      (.frameReceived ⟨{ f.header with logIndex, hlcTimestamp := timestamp }, f.payload⟩)).2 =
        .error (.senderKey .tooOldGeneration) := by
  generalize hcopy : (⟨{ f.header with logIndex, hlcTimestamp := timestamp }, f.payload⟩ : Frame) = copy
  obtain ⟨rs, ⟨msg, keys⟩, rs', hr, henc, hf, h₂, hg, hl, he, hs⟩ := send_then_traffic A cs hsend events hevents
  obtain ⟨ch, hch, hmsg, -⟩ := SenderKeyStore.encrypt_eq_ok cs henc
  subst hf hmsg
  obtain ⟨hE, hL, hG⟩ := hfit rs hr
  have hgen : ch.generation < 2 ^ 32 := by simpa [SenderKeyStore.generation, hch] using hG
  have hop : copy.header.opcodeEnum = some .appMessage := by rw [← hcopy]; rfl
  have hroom : copy.header.roomId = r := by rw [← hcopy]; rfl
  have hepoch : copy.header.epoch = A.epoch rs'.mlsGroup := by rw [← hcopy, hg]; rfl
  rw [handle_frameReceived, handleFrame_appMessage A cs hop, hroom, handleAppMessage_of_deserialize A cs h₂ hepoch
      (by rw [← hcopy]; exact deserialize_serialize_eq _ (by simp [hrandom])),
    SenderKeyStore.decrypt_of_stale cs]
  · simp only [Nat.mod_eq_of_lt hE, he]
  · simpa only [Nat.mod_eq_of_lt hL, Nat.mod_eq_of_lt hgen, hl] using hs

theorem testEnvRandom_length : testEnvRandom.length = 16 := rfl

/-- The creator's message, then a second one, then the sequenced copy of the first, at log index 0. -/
theorem creator_echo_rejected :
    ∃ f, (creatorClient.handle referenceMls referenceSuite testEnvRandom (.sendMessage 1 [104, 105])).2 =
        .ok [.send f] ∧
      ((((creatorClient.handle referenceMls referenceSuite testEnvRandom (.sendMessage 1 [104, 105])).1.run
          referenceMls referenceSuite [(.sendMessage 1 [121, 111], testEnvRandom)]).1.handle referenceMls
          referenceSuite testEnvRandom (.frameReceived (f.withLogIndex 0))).2 =
        .error (.senderKey .tooOldGeneration)) :=
  ⟨_, rfl, own_echo_rejected referenceMls referenceSuite creatorClient testEnvRandom 1 [104, 105] _ rfl
    (by decide) testEnvRandom_length _ (by decide) 0 0 testEnvRandom⟩

/-- The creator sends a message and the sequenced copy comes back: it is refused, not delivered. -/
theorem own_echo_not_delivered :
    ∃ f, (creatorClient.handle referenceMls referenceSuite testEnvRandom (.sendMessage 1 [104, 105])).2 =
        .ok [.send f] ∧
      ((creatorClient.handle referenceMls referenceSuite testEnvRandom (.sendMessage 1 [104, 105])).1.handle
          referenceMls referenceSuite testEnvRandom (.frameReceived (f.withLogIndex 0))).2 =
        .error (.senderKey .tooOldGeneration) :=
  ⟨_, rfl, rfl⟩

/-- For an `AppMessage` frame, the header's `sender_id` reaches nothing but the delivery: changing it
leaves the state alone and delivers the same plaintext under the new sender. -/
theorem delivered_sender_is_header_sender (c : Client G) (random : Bytes) (f : Frame)
    (hop : f.header.opcodeEnum = some .appMessage) (s : MemberId) :
    (c.handle A cs random (.frameReceived ⟨f.header.setSenderId s, f.payload⟩)).1 =
        (c.handle A cs random (.frameReceived f)).1 ∧
      ∀ actions, (c.handle A cs random (.frameReceived f)).2 = .ok actions →
        ∃ p, actions = [.deliverMessage f.header.roomId f.header.senderId p f.header.logIndex f.header.hlcTimestamp] ∧
          (c.handle A cs random (.frameReceived ⟨f.header.setSenderId s, f.payload⟩)).2 =
            .ok [.deliverMessage f.header.roomId s p f.header.logIndex f.header.hlcTimestamp] := by
  simp only [handle, handleFrame_appMessage A cs hop,
    @handleFrame_appMessage G A cs ⟨f.header.setSenderId s, f.payload⟩ (by simpa using hop),
    FrameHeader.setSenderId_roomId]
  rcases hr : c.rooms f.header.roomId with _ | rs
  · simp [handleAppMessage, hr]
  · by_cases he : f.header.epoch = A.epoch rs.mlsGroup
    · rcases hd : deserializeEncryptedMessage f.payload with e | msg
      · simp [handleAppMessage, hr, he, hd]
      · rcases hdec : rs.senderKeys.decrypt cs msg with e | ⟨p, keys⟩ <;>
          simp [handleAppMessage, hr, he, hd, hdec]
    · simp [handleAppMessage, hr, he]

theorem deliver_then_traffic {c : Client G} {random : Bytes} {f : Frame}
    (hop : f.header.opcodeEnum = some .appMessage) {actions : List ClientAction}
    (hok : (c.handle A cs random (.frameReceived f)).2 = .ok actions)
    (events : List (ClientEvent × Bytes)) (hevents : ∀ e ∈ events, e.1.isTraffic) :
    ∃ rs m rs', c.rooms f.header.roomId = some rs ∧ f.header.epoch = A.epoch rs.mlsGroup ∧
      deserializeEncryptedMessage f.payload = .ok m ∧ m.epoch = rs.senderKeys.epoch ∧
      ((c.handle A cs random (.frameReceived f)).1.run A cs events).1.rooms f.header.roomId = some rs' ∧
      rs'.mlsGroup = rs.mlsGroup ∧ rs'.senderKeys.epoch = rs.senderKeys.epoch ∧
      rs'.senderKeys.Stale m.senderIndex m.generation := by
  rw [handle_frameReceived, handleFrame_appMessage A cs hop] at hok ⊢
  rcases handleAppMessage_cases A cs c f.header.roomId f with ⟨e, h⟩ | ⟨rs, m, p, keys, hr, he, hd, hdec, h⟩
  · rw [h] at hok
    cases hok
  · rw [h]
    have h₁ : (c.setRoom f.header.roomId { rs with senderKeys := keys }).rooms f.header.roomId =
        some { rs with senderKeys := keys } := by simp [setRoom_rooms]
    obtain ⟨rs', h₂, hsteps⟩ := run_traffic A cs events hevents h₁
    obtain ⟨hme, c₀, c₁, -, rfl, -⟩ := SenderKeyStore.decrypt_eq_ok cs hdec
    obtain ⟨hg, hE, hs⟩ := RoomState.KeysStep.invariant cs
      (P := fun b => b.mlsGroup = rs.mlsGroup ∧ b.senderKeys.epoch = rs.senderKeys.epoch ∧
        b.senderKeys.Stale m.senderIndex m.generation)
      (fun hab ⟨h₁, h₂, h₃⟩ => by
        obtain ⟨k₁, -, k₃, k₄⟩ := hab.keeps cs
        exact ⟨k₁.trans h₁, k₃.trans h₂, k₄ _ _ h₃⟩)
      hsteps ⟨rfl, rfl, SenderKeyStore.decrypt_stale cs hdec⟩
    exact ⟨rs, m, rs', hr, he, hd, hme, h₂, hg, hE, hs⟩

/-- After a delivery and any traffic after it, an `AppMessage` frame of the same room and epoch whose
payload reads as the same message is refused as too old, whatever its header and trailing bytes. -/
theorem delivered_message_refused_again (c : Client G) (random : Bytes) (f : Frame)
    (hop : f.header.opcodeEnum = some .appMessage) (actions : List ClientAction)
    (hok : (c.handle A cs random (.frameReceived f)).2 = .ok actions)
    (events : List (ClientEvent × Bytes)) (hevents : ∀ e ∈ events, e.1.isTraffic) (f' : Frame)
    (hop' : f'.header.opcodeEnum = some .appMessage) (hroom : f'.header.roomId = f.header.roomId)
    (hepoch : f'.header.epoch = f.header.epoch)
    (hpayload : deserializeEncryptedMessage f'.payload = deserializeEncryptedMessage f.payload) (random' : Bytes) :
    (((c.handle A cs random (.frameReceived f)).1.run A cs events).1.handle A cs random'
      (.frameReceived f')).2 = .error (.senderKey .tooOldGeneration) := by
  obtain ⟨rs, m, rs', -, he, hd, hme, h₂, hg, hE, hs⟩ := deliver_then_traffic A cs hop hok events hevents
  rw [handle_frameReceived, handleFrame_appMessage A cs hop', hroom,
    handleAppMessage_of_deserialize A cs h₂ (by rw [hepoch, he, hg]) (by rw [hpayload, hd]),
    SenderKeyStore.decrypt_of_stale cs (by rw [hE, hme]) hs]

end Client

set_option maxRecDepth 20000 in
/-- The creator's own message with the header's sender changed to 7, a non-member, is delivered as
member 7's. -/
theorem forged_sender_delivered :
    ∃ f, (creatorClient.handle referenceMls referenceSuite testEnvRandom (.sendMessage 1 [104, 105])).2 =
        .ok [.send f] ∧
      (creatorClient.handle referenceMls referenceSuite testEnvRandom
          (.frameReceived ⟨f.header.setSenderId 7, f.payload⟩)).2 = .ok [.deliverMessage 1 7 [104, 105] 0 0] ∧
      payloadPosition f = some (0, 0, 0, toBeBytes 8 0 ++ testEnvRandom) ∧
      (creatorClient.rooms 1).map (fun rs => referenceMls.members rs.mlsGroup) = some [(0, 42)] :=
  ⟨_, rfl, rfl, by decide, by decide⟩

set_option maxRecDepth 20000 in
/-- The creator reads its own message before sending it (the chain of its leaf steps to generation 1),
sends another, and then gets a copy of the first at log index 3: the copy is refused. -/
theorem creator_message_delivered_once :
    ∃ f, (creatorClient.handle referenceMls referenceSuite testEnvRandom (.sendMessage 1 [104, 105])).2 =
        .ok [.send f] ∧
      (creatorClient.handle referenceMls referenceSuite testEnvRandom (.frameReceived f)).2 =
        .ok [.deliverMessage 1 42 [104, 105] 0 0] ∧
      (((creatorClient.handle referenceMls referenceSuite testEnvRandom (.frameReceived f)).1.run referenceMls
          referenceSuite [(.sendMessage 1 [1], testEnvRandom)]).1.handle referenceMls referenceSuite testEnvRandom
          (.frameReceived (f.withLogIndex 3))).2 = .error (.senderKey .tooOldGeneration) := by
  refine ⟨_, rfl, rfl, Client.delivered_message_refused_again referenceMls referenceSuite creatorClient testEnvRandom _
    ?_ [.deliverMessage 1 42 [104, 105] 0 0] ?_ [(.sendMessage 1 [1], testEnvRandom)] (by decide) _ ?_ ?_ ?_ ?_
    testEnvRandom⟩ <;> rfl

/-- The frame the creator sends for its first message to room 1. -/
def creatorFirstFrame : Frame :=
  match (creatorClient.handle referenceMls referenceSuite testEnvRandom (.sendMessage 1 [104, 105])).2 with
  | .ok [.send f] => f
  | _ => ⟨FrameHeader.new .appMessage, []⟩

set_option maxRecDepth 20000 in
/-- The frame of the creator's first message, and the same frame naming member 7: the client ends in
one state, and delivers the message under member 42 and under member 7. -/
theorem creator_frame_sender_from_header :
    (creatorClient.handle referenceMls referenceSuite testEnvRandom (.sendMessage 1 [104, 105])).2 =
        .ok [.send creatorFirstFrame] ∧
      creatorFirstFrame.header.opcodeEnum = some .appMessage ∧
      (creatorClient.handle referenceMls referenceSuite testEnvRandom
          (.frameReceived ⟨creatorFirstFrame.header.setSenderId 7, creatorFirstFrame.payload⟩)).1 =
        (creatorClient.handle referenceMls referenceSuite testEnvRandom (.frameReceived creatorFirstFrame)).1 ∧
      (creatorClient.handle referenceMls referenceSuite testEnvRandom (.frameReceived creatorFirstFrame)).2 =
        .ok [.deliverMessage 1 42 [104, 105] 0 0] ∧
      (creatorClient.handle referenceMls referenceSuite testEnvRandom
          (.frameReceived ⟨creatorFirstFrame.header.setSenderId 7, creatorFirstFrame.payload⟩)).2 =
        .ok [.deliverMessage 1 7 [104, 105] 0 0] := by
  have h42 : (creatorClient.handle referenceMls referenceSuite testEnvRandom (.frameReceived creatorFirstFrame)).2 =
      .ok [.deliverMessage 1 42 [104, 105] 0 0] := rfl
  obtain ⟨hstate, hdeliver⟩ := Client.delivered_sender_is_header_sender referenceMls referenceSuite creatorClient
    testEnvRandom creatorFirstFrame rfl 7
  obtain ⟨p, hp, hforged⟩ := hdeliver _ h42
  obtain ⟨-, -, rfl, -, -⟩ := ClientAction.deliverMessage.inj (List.head_eq_of_cons_eq hp)
  exact ⟨rfl, rfl, hstate, h42, hforged⟩

end Kalandra
