import Kalandra.Client.Delivery

/-!
# Messages between members in step

Two members are in step for a sender's leaf when they hold the room at the same epochs and the
receiver's chain for that leaf is the sender's own chain. A send steps the sender's chain; the
receiver, reading the server's copy of the frame, decrypts it at the same generation and steps its
chain the same way, so the two are in step again. Hence a receiver in step that gets the sender's
frames in the order they were sent delivers every message, in order, under the sender's id
(`in_step_peer_delivers_all`).

The numbers that go on the wire must fit their Rust types, the random bytes of each send are 16, and
every ciphertext is shorter than `2 ^ 32` bytes.
-/

namespace Kalandra

/-- The room, sender and plaintext of the `DeliverMessage` actions of a run's `Ok` results, in order. -/
def deliveries (results : List (Except ClientError (List ClientAction))) : List (RoomId × MemberId × Bytes) :=
  results.flatMap fun
    | .ok actions => actions.filterMap fun
      | .deliverMessage room senderId plaintext _ _ => some (room, senderId, plaintext)
      | _ => none
    | .error _ => []

/-- The events of a member sending each plaintext to one room, with the bytes its environment gives. -/
def sendEvents (room : RoomId) (messages : List (Bytes × Bytes)) : List (ClientEvent × Bytes) :=
  messages.map fun p => (.sendMessage room p.1, p.2)

/-- The events of a member receiving frames, each at the log index the server gives it. -/
def receiveEvents (logIndex : Frame → Nat) (random : Bytes) (frames : List Frame) : List (ClientEvent × Bytes) :=
  frames.map fun f => (.frameReceived (f.withLogIndex (logIndex f)), random)

/-- The message `encrypt` makes from a chain. -/
def sealedMessage (cs : CipherSuite) (keys : SenderKeyStore) (leaf : Nat) (c : ChainState)
    (plaintext random : Bytes) : EncryptedMessage :=
  { epoch := keys.epoch, senderIndex := leaf, generation := c.generation, nonce := toBeBytes 8 c.generation ++ random,
    ciphertext := cs.aeadSeal (c.messageKey cs) (toBeBytes 8 c.generation ++ random) plaintext }

theorem sendEvents_cons (room : RoomId) (p : Bytes × Bytes) (ps : List (Bytes × Bytes)) :
    sendEvents room (p :: ps) = (.sendMessage room p.1, p.2) :: sendEvents room ps := rfl

theorem receiveEvents_cons (logIndex : Frame → Nat) (random : Bytes) (f : Frame) (fs : List Frame) :
    receiveEvents logIndex random (f :: fs) = (.frameReceived (f.withLogIndex (logIndex f)), random) ::
      receiveEvents logIndex random fs := rfl

theorem sentFrames_send_cons (f : Frame) (xs : List (Except ClientError (List ClientAction))) :
    sentFrames (.ok [.send f] :: xs) = f :: sentFrames xs := rfl

theorem deliveries_deliver_cons (room : RoomId) (senderId : MemberId) (plaintext : Bytes) (i t : Nat)
    (xs : List (Except ClientError (List ClientAction))) :
    deliveries (.ok [.deliverMessage room senderId plaintext i t] :: xs) = (room, senderId, plaintext) :: deliveries xs :=
  rfl

namespace Client

variable {G : Type} (A : MlsAdapter G) (cs : CipherSuite)

theorem handleSendMessage_of_chain {c : Client G} {r : RoomId} {rs : RoomState G} {ch : ChainState}
    (hr : c.rooms r = some rs) (hch : rs.senderKeys.chains rs.myLeafIndex = some ch) (random m : Bytes) :
    c.handleSendMessage A cs random r m =
      (c.setRoom r { rs with senderKeys := rs.senderKeys.setChain rs.myLeafIndex (ch.next cs) },
        .ok [.send ⟨appMessageHeader r c.identity (A.epoch rs.mlsGroup),
          serializeEncryptedMessage (sealedMessage cs rs.senderKeys rs.myLeafIndex ch m random)⟩]) := by
  simp [handleSendMessage, hr, SenderKeyStore.encrypt, hch, sealedMessage]

theorem handle_copy_in_step (hcs : cs.Correct) {peer : Client G} {r : RoomId} {rs rs' : RoomState G}
    {ch : ChainState} (hr' : peer.rooms r = some rs') (hgroup : A.epoch rs'.mlsGroup = A.epoch rs.mlsGroup)
    (hkeys : rs'.senderKeys.epoch = rs.senderKeys.epoch) (hchain : rs'.senderKeys.chains rs.myLeafIndex = some ch)
    {m random : Bytes} (hfits : (sealedMessage cs rs.senderKeys rs.myLeafIndex ch m random).Fits)
    {h : FrameHeader} (hop : h.opcodeEnum = some .appMessage) (hroom : h.roomId = r)
    (hepoch : h.epoch = A.epoch rs.mlsGroup) (random' : Bytes) :
    peer.handle A cs random' (.frameReceived ⟨h, serializeEncryptedMessage (sealedMessage cs rs.senderKeys
        rs.myLeafIndex ch m random)⟩) =
      (peer.setRoom r { rs' with senderKeys := rs'.senderKeys.setChain rs.myLeafIndex (ch.next cs) },
        .ok [.deliverMessage r h.senderId m h.logIndex h.hlcTimestamp]) := by
  have hdec := SenderKeyStore.decrypt_current cs hcs (s := rs'.senderKeys)
    (m := sealedMessage cs rs.senderKeys rs.myLeafIndex ch m random) (p := m) hkeys.symm hchain rfl rfl
  subst hroom
  rw [handle_frameReceived, handleFrame_appMessage A cs hop,
    handleAppMessage_of_deserialize A cs hr' (by simp [hgroup, hepoch]) (by simpa using deserialize_serialize hfits), hdec]
  rfl

theorem fits_sealedMessage {rs : RoomState G} {ch : ChainState} {m random : Bytes}
    (hE : rs.senderKeys.epoch < 2 ^ 64) (hL : rs.myLeafIndex < 2 ^ 32) (hgen : ch.generation < 2 ^ 32)
    (hrandom : random.length = 16) (hct : ∀ key nonce, (cs.aeadSeal key nonce m).length < 2 ^ 32) :
    (sealedMessage cs rs.senderKeys rs.myLeafIndex ch m random).Fits :=
  ⟨hE, hL, hgen, by simp [sealedMessage, hrandom], hct _ _⟩

/-- A receiver in step with a sender that gets the sender's frames in order, at any log indices,
delivers every plaintext sent, in order, under the sender's room and id. -/
theorem in_step_peer_delivers_all (hcs : cs.Correct) {c peer : Client G} {r : RoomId} {rs rs' : RoomState G}
    {ch : ChainState} (hr : c.rooms r = some rs) (hch : rs.senderKeys.chains rs.myLeafIndex = some ch)
    (hr' : peer.rooms r = some rs') (hgroup : A.epoch rs'.mlsGroup = A.epoch rs.mlsGroup)
    (hkeys : rs'.senderKeys.epoch = rs.senderKeys.epoch) (hchain : rs'.senderKeys.chains rs.myLeafIndex = some ch)
    (hE : rs.senderKeys.epoch < 2 ^ 64) (hL : rs.myLeafIndex < 2 ^ 32) (messages : List (Bytes × Bytes))
    (hgen : ch.generation + messages.length ≤ 2 ^ 32)
    (hmessages : ∀ p ∈ messages, p.2.length = 16 ∧ ∀ key nonce, (cs.aeadSeal key nonce p.1).length < 2 ^ 32)
    (logIndex : Frame → Nat) (random' : Bytes) :
    (sentFrames (c.run A cs (sendEvents r messages)).2).length = messages.length ∧
      (∀ x ∈ (peer.run A cs (receiveEvents logIndex random' (sentFrames (c.run A cs (sendEvents r messages)).2))).2,
        ∃ actions, x = .ok actions) ∧
      deliveries (peer.run A cs (receiveEvents logIndex random' (sentFrames (c.run A cs (sendEvents r messages)).2))).2 =
        messages.map fun p => (r, c.identity, p.1) := by
  induction messages generalizing c peer rs rs' ch with
  | nil => exact ⟨rfl, fun _ => nofun, rfl⟩
  | cons p ps ih =>
    obtain ⟨hrandom, hct⟩ := hmessages p (List.mem_cons_self _ _)
    have hfits := @fits_sealedMessage G cs rs ch p.1 p.2 hE hL (by simp at hgen; omega) hrandom hct
    have hsend := handleSendMessage_of_chain A cs hr hch p.2 p.1
    have hrecv := handle_copy_in_step A cs hcs hr' hgroup hkeys hchain hfits
      (h := (appMessageHeader r c.identity (A.epoch rs.mlsGroup)).setLogIndex
        (logIndex ⟨appMessageHeader r c.identity (A.epoch rs.mlsGroup),
          serializeEncryptedMessage (sealedMessage cs rs.senderKeys rs.myLeafIndex ch p.1 p.2)⟩)) (by simp) rfl rfl random'
    obtain ⟨hlen, hok, hdel⟩ := @ih
      (c.setRoom r { rs with senderKeys := rs.senderKeys.setChain rs.myLeafIndex (ch.next cs) })
      (peer.setRoom r { rs' with senderKeys := rs'.senderKeys.setChain rs.myLeafIndex (ch.next cs) })
      { rs with senderKeys := rs.senderKeys.setChain rs.myLeafIndex (ch.next cs) }
      { rs' with senderKeys := rs'.senderKeys.setChain rs.myLeafIndex (ch.next cs) }
      (ch.next cs) (by rw [setRoom_rooms, if_pos rfl]) (by simp [SenderKeyStore.setChain_chains])
      (by rw [setRoom_rooms, if_pos rfl]) hgroup (by simpa using hkeys) (by simp [SenderKeyStore.setChain_chains])
      (by simpa using hE) hL (by simp at hgen ⊢; omega) (fun q hq => hmessages q (List.mem_cons_of_mem _ hq))
    rw [sendEvents_cons, run_cons, show c.handle A cs p.2 (.sendMessage r p.1) = _ from hsend]
    dsimp only
    rw [sentFrames_send_cons, receiveEvents_cons, run_cons, Frame.withLogIndex_mk, hrecv]
    dsimp only
    rw [deliveries_deliver_cons, hdel]
    refine ⟨by simp [hlen], fun x hx => ?_, rfl⟩
    rcases List.mem_cons.mp hx with rfl | hx
    · exact ⟨_, rfl⟩
    · exact hok x hx

end Client

/-- Two messages of the creator's, with `TestEnv`'s bytes. -/
def twoMessages : List (Bytes × Bytes) := [([104, 105], testEnvRandom), ([121, 111], testEnvRandom)]

/-- The creator's two messages, received in order by the creator's state from before it sent them:
both are delivered, in order, as member 42's. -/
theorem creator_messages_delivered_in_order :
    (sentFrames (creatorClient.run referenceMls referenceSuite (sendEvents 1 twoMessages)).2).length =
        twoMessages.length ∧
      (∀ x ∈ (creatorClient.run referenceMls referenceSuite (receiveEvents (fun _ => 0) testEnvRandom
          (sentFrames (creatorClient.run referenceMls referenceSuite (sendEvents 1 twoMessages)).2))).2,
        ∃ actions, x = .ok actions) ∧
      deliveries (creatorClient.run referenceMls referenceSuite (receiveEvents (fun _ => 0) testEnvRandom
          (sentFrames (creatorClient.run referenceMls referenceSuite (sendEvents 1 twoMessages)).2))).2 =
        twoMessages.map fun p => (1, creatorClient.identity, p.1) :=
  @Client.in_step_peer_delivers_all RefGroup referenceMls referenceSuite referenceSuite_correct creatorClient
    creatorClient 1 _ _ _ rfl rfl rfl rfl rfl rfl (by decide) (by decide) twoMessages (by decide)
    (fun p hp => by
      simp only [twoMessages, List.mem_cons, List.mem_singleton, List.not_mem_nil, or_false] at hp
      rcases hp with rfl | rfl <;> exact ⟨rfl, fun _ _ => by simp [referenceSuite]⟩)
    (fun _ => 0) testEnvRandom

end Kalandra
