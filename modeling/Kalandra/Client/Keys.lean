import Kalandra.Client.Client
import Kalandra.Mls.Reference

/-!
# Sender keys across epochs

The client derives a room's sender keys from the secret its MLS group exports, at the group's
epoch: when it creates the room, and in `handle_commit` after a Commit-opcode frame. No other path
touches them but `encrypt` and `decrypt`. Two paths change the group without that:

* `handle_frame` passes every opcode other than `AppMessage`, `Commit` and `Welcome` to
  `process_message` and keeps the result. A commit that arrives under another opcode, a `Proposal`
  say, is merged and the epoch moves on, with the keys of the old epoch;
* `handle_commit` keeps the processed group when `initialize_sender_keys` then fails, for instance
  because the commit removed the client, so its export is refused.

And a Commit-opcode frame whose MLS content is a proposal changes no epoch, but `handle_commit`
derives the keys again all the same: at the same epoch, from the same secret, so every chain starts
again at generation 0 and the client's next message reuses the key and nonce prefix of its first.

The keys fall behind the group on those paths, and never run ahead of it
(`keys_never_ahead_of_group`).
-/

namespace Kalandra

/-- The bytes `TestEnv::random_bytes` of the client's tests fills: byte `i` is `i`. -/
def testEnvRandom : Bytes := (List.range 16).map UInt8.ofNat

/-- A client with sender id 42 that has created room 1, with the reference adapter and suite. -/
def creatorClient : Client RefGroup :=
  ((Client.new 42).handle referenceMls referenceSuite testEnvRandom (.createRoom 1)).1

/-- A commit that adds member 7 at epoch 0, in a frame with the `Proposal` opcode. -/
def commitAsProposal : Frame := ⟨((FrameHeader.new .proposal).setRoomId 1).setSenderId 5, [1, 0, 7]⟩

/-- A Commit frame whose commit removes member 42 at epoch 0. -/
def removalOf42 : Frame := ⟨((FrameHeader.new .commit).setRoomId 1).setSenderId 5, [2, 0, 42]⟩

/-- Room 1's MLS epoch and its sender keys' epoch. -/
def roomEpochs (c : Client RefGroup) (room : RoomId) : Option (Nat × Nat) :=
  (c.rooms room).map fun rs => (referenceMls.epoch rs.mlsGroup, rs.senderKeys.epoch)

/-- A commit under the `Proposal` opcode and a Commit that removes the client both leave room 1 at MLS
epoch 1 with the sender keys of epoch 0. -/
theorem group_advances_without_rekey :
    ((creatorClient.handle referenceMls referenceSuite testEnvRandom (.frameReceived commitAsProposal)).2 =
        .ok [.log "epoch advanced"]) ∧
      roomEpochs (creatorClient.handle referenceMls referenceSuite testEnvRandom
        (.frameReceived commitAsProposal)).1 1 = some (1, 0) ∧
      ((creatorClient.handle referenceMls referenceSuite testEnvRandom (.frameReceived removalOf42)).2 =
        .error (.mls "use after eviction")) ∧
      roomEpochs (creatorClient.handle referenceMls referenceSuite testEnvRandom
        (.frameReceived removalOf42)).1 1 = some (1, 0) :=
  ⟨rfl, by decide, rfl, by decide⟩

/-- A Commit frame whose MLS content is a proposal to add member 7 at epoch 0. -/
def proposalAsCommit : Frame := ⟨((FrameHeader.new .commit).setRoomId 1).setSenderId 5, [3, 0, 7]⟩

/-- Room 1 created, a message sent, the Commit frame of a proposal received, a second message sent. -/
def rekeyRun : List (ClientEvent × Bytes) :=
  [(.createRoom 1, testEnvRandom), (.sendMessage 1 [104, 105], testEnvRandom),
    (.frameReceived proposalAsCommit, testEnvRandom), (.sendMessage 1 [121, 111], testEnvRandom)]

/-- The epoch, sender index, generation and nonce a payload carries. -/
def payloadPosition (f : Frame) : Option (Nat × Nat × Nat × Bytes) :=
  (deserializeEncryptedMessage f.payload).toOption.map fun m => (m.epoch, m.senderIndex, m.generation, m.nonce)

/-- Both messages of the run, sent in one membership of room 1, carry epoch 0, sender index 0 and
generation 0, and with the same random bytes the same nonce, for different plaintexts. -/
theorem commit_of_proposal_reuses_generation :
    (sentFrames ((Client.new 42).run referenceMls referenceSuite rekeyRun).2).map payloadPosition =
        [some (0, 0, 0, toBeBytes 8 0 ++ testEnvRandom), some (0, 0, 0, toBeBytes 8 0 ++ testEnvRandom)] ∧
      ((Client.new 42).run referenceMls referenceSuite rekeyRun).1.epoch referenceMls 1 = some 0 := by
  decide

/-! ### Keys never ahead of the group

The two paths above leave a room's keys behind its group. Nothing puts them ahead: new keys are of
the group's epoch, `encrypt` and `decrypt` keep the keys' epoch, and with the epoch contract of §4.3
the group's epoch never falls. -/

namespace Client

variable {G : Type} (A : MlsAdapter G) (cs : CipherSuite)

/-- No room's sender keys are of an epoch its group has not reached. -/
def KeysBehind (c : Client G) : Prop :=
  ∀ r rs, c.rooms r = some rs → rs.senderKeys.epoch ≤ A.epoch rs.mlsGroup

theorem initializeSenderKeys_epoch {g : G} {keys : SenderKeyStore} (h : initializeSenderKeys A cs g = .ok keys) :
    keys.epoch = A.epoch g := by
  unfold initializeSenderKeys at h
  split at h
  · cases h
  · cases h; rfl

theorem KeysBehind.setRoom {c : Client G} (hc : c.KeysBehind A) (room : RoomId) {rs : RoomState G}
    (h : rs.senderKeys.epoch ≤ A.epoch rs.mlsGroup) : (c.setRoom room rs).KeysBehind A := by
  intro r rs' hr
  rw [setRoom_rooms] at hr
  split_ifs at hr
  · cases hr; exact h
  · exact hc r rs' hr

theorem KeysBehind.setGroup {c : Client G} (hc : c.KeysBehind A) {room : RoomId} {rs : RoomState G}
    (hr : c.rooms room = some rs) {g : G} (hg : A.epoch rs.mlsGroup ≤ A.epoch g) :
    (c.setRoom room { rs with mlsGroup := g }).KeysBehind A :=
  hc.setRoom A room (Nat.le_trans (hc room rs hr) hg)

theorem processMessage_epoch_le (hA : A.EpochLawful) {g g' : G} {f : Frame} {acts : List MlsAction}
    (h : A.processMessage g f = .ok (acts, g')) : A.epoch g ≤ A.epoch g' := by
  rcases hA.process_epoch h with h | h <;> omega

theorem handleFrame_keysBehind (hA : A.EpochLawful) {c : Client G} (hc : c.KeysBehind A) (frame : Frame) :
    (c.handleFrame A cs frame).1.KeysBehind A := by
  rcases handleFrame_cases A cs c frame with ⟨-, h⟩ | ⟨-, h⟩ | ⟨e, h⟩ | ⟨rs, acts, g, hr, hp, h⟩ <;> rw [h]
  · -- `AppMessage`: `decrypt` keeps the keys' epoch
    rcases handleAppMessage_cases A cs c frame.header.roomId frame with ⟨e, h'⟩ | ⟨rs, m, p, keys, hr, -, -, hd, h'⟩ <;>
      rw [h']
    · exact hc
    · obtain ⟨-, _, _, -, rfl, -⟩ := SenderKeyStore.decrypt_eq_ok cs hd
      exact hc.setRoom A _ (hc _ rs hr)
  · -- `Commit`: the old keys with the new group, or new keys of the new group
    rcases handleCommit_cases A cs c frame.header.roomId frame with
      ⟨e, h'⟩ | ⟨rs, acts, g, hr, hp, ⟨e, -, h'⟩ | ⟨keys, hk, h'⟩⟩ <;> rw [h']
    · exact hc
    · exact hc.setGroup A hr (processMessage_epoch_le A hA hp)
    · exact hc.setRoom A _ (Nat.le_of_eq (initializeSenderKeys_epoch A cs hk))
  · exact hc
  · -- every other opcode: the group moves, the keys stay
    exact hc.setGroup A hr (processMessage_epoch_le A hA hp)

theorem handle_keysBehind (hA : A.EpochLawful) {c : Client G} (hc : c.KeysBehind A) (random : Bytes)
    (event : ClientEvent) : (c.handle A cs random event).1.KeysBehind A := by
  cases event with
  | createRoom room =>
    rcases handleCreateRoom_cases A cs c room with ⟨e, h⟩ | ⟨g, acts, keys, -, hk, h⟩ <;> simp only [handle, h]
    · exact hc
    · exact hc.setRoom A room (Nat.le_of_eq (initializeSenderKeys_epoch A cs hk))
  | sendMessage room plaintext =>
    rcases handleSendMessage_cases A cs c random room plaintext with ⟨e, h⟩ | ⟨rs, m, keys, hr, hk, h⟩ <;>
      simp only [handle, h]
    · exact hc
    · obtain ⟨_, -, -, rfl⟩ := SenderKeyStore.encrypt_eq_ok cs hk
      exact hc.setRoom A room (hc room rs hr)
  | frameReceived frame => exact handleFrame_keysBehind A cs hA hc frame
  | tick => exact hc
  | leaveRoom room =>
    rcases handleLeaveRoom_cases c room with ⟨e, h⟩ | ⟨-, h⟩ <;> simp only [handle, h]
    · exact hc
    · intro r rs hr
      simp only [Function.update_apply] at hr
      split_ifs at hr
      exact hc r rs hr
  | joinRoom => exact hc
  | addMembers room kps =>
    rcases handleAddMembers_cases A c room kps with ⟨e, h⟩ | ⟨rs, acts, g, hr, hp, h⟩ <;> simp only [handle, h]
    · exact hc
    · exact hc.setGroup A hr (Nat.le_of_eq (hA.add_epoch hp).symm)

/-- From a new client, whatever the events and whatever each returns, every room's sender keys are
of an epoch at most its group's: with the epoch contract of §4.3 they can fall behind, never ahead. -/
theorem keys_never_ahead_of_group (hA : A.EpochLawful) (senderId : MemberId) (events : List (ClientEvent × Bytes)) :
    ((Client.new senderId : Client G).run A cs events).1.KeysBehind A := by
  suffices ∀ {c : Client G}, c.KeysBehind A → (c.run A cs events).1.KeysBehind A from this fun _ _ h => by cases h
  induction events with
  | nil => exact id
  | cons e events ih => exact fun hc => ih (handle_keysBehind A cs hA hc e.2 e.1)

end Client

/-- With the reference adapter, the run that re-derives the keys at the same epoch ends with every
room's keys at most at its group's epoch. -/
theorem rekey_run_keys_behind :
    referenceMls.EpochLawful ∧
      ((Client.new 42 : Client RefGroup).run referenceMls referenceSuite rekeyRun).1.KeysBehind referenceMls :=
  ⟨referenceMls_epochLawful, Client.keys_never_ahead_of_group referenceMls referenceSuite referenceMls_epochLawful 42 rekeyRun⟩

end Kalandra
