import Kalandra.Client.Keys

/-!
# What a call of `handle` leaves and returns

A failed `handle` leaves the client as it was, with one exception. `handle_commit` stores the group
`process_message` returned before it derives the new sender keys, and returns early when that
fails: the room keeps the merged group, at its new epoch, with the keys and leaf index of the old
one (`handle_error_cases`). The reference adapter refuses the export to a member the commit removed,
so a Commit that evicts the client takes this path (`failed_commit_leaves_group_merged`).

The actions `handle` returns name their room as the event does, but for those `convert_mls_actions`
makes of the MLS layer's own deliveries and removals: it has no room to give them, and writes 0. An
adapter that delivers an MLS application message itself shows it (`mls_delivery_names_room_zero`).
-/

namespace Kalandra

namespace Client

variable {G : Type} (A : MlsAdapter G) (cs : CipherSuite)

/-- Every failed call leaves the client as it was, except a processed Commit whose new sender keys
could not be derived, which keeps the processed group with the old sender keys and leaf. -/
theorem handle_error_cases (c : Client G) (random : Bytes) (event : ClientEvent) {e : ClientError}
    (h : (c.handle A cs random event).2 = .error e) :
    (c.handle A cs random event).1 = c ∨
      ∃ frame rs acts g, event = .frameReceived frame ∧ frame.header.opcodeEnum = some .commit ∧
        c.rooms frame.header.roomId = some rs ∧ A.processMessage rs.mlsGroup frame = .ok (acts, g) ∧
        initializeSenderKeys A cs g = .error e ∧
        (c.handle A cs random event).1 = c.setRoom frame.header.roomId { rs with mlsGroup := g } := by
  cases event with
  | createRoom room =>
    rcases handleCreateRoom_cases A cs c room with ⟨e', he⟩ | ⟨_, _, _, -, -, he⟩ <;> simp [handle, he] at h ⊢
  | sendMessage room plaintext =>
    rcases handleSendMessage_cases A cs c random room plaintext with ⟨e', he⟩ | ⟨_, _, _, -, -, he⟩ <;>
      simp [handle, he] at h ⊢
  | frameReceived frame =>
    rcases handleFrame_cases A cs c frame with ⟨hop, hf⟩ | ⟨hop, hf⟩ | ⟨e', hf⟩ | ⟨_, _, _, -, -, hf⟩ <;>
      simp only [handle, hf] at h ⊢
    · rcases handleAppMessage_cases A cs c frame.header.roomId frame with ⟨e', he⟩ | ⟨_, _, _, _, -, -, -, -, he⟩ <;>
        simp [he] at h ⊢
    · rcases handleCommit_cases A cs c frame.header.roomId frame with
        ⟨e', he⟩ | ⟨rs, acts, g, hr, hp, ⟨e', hk, he⟩ | ⟨_, -, he⟩⟩ <;> rw [he] at h ⊢
      · exact .inl rfl
      · cases h
        exact .inr ⟨frame, rs, acts, g, rfl, hop, hr, hp, hk, rfl⟩
      · cases h
    · exact .inl trivial
    · cases h
  | tick => cases h
  | leaveRoom room =>
    rcases handleLeaveRoom_cases c room with ⟨e', he⟩ | ⟨-, he⟩ <;> simp [handle, he] at h ⊢
  | joinRoom => exact .inl rfl
  | addMembers room keyPackages =>
    rcases handleAddMembers_cases A c room keyPackages with ⟨e', he⟩ | ⟨_, _, _, -, -, he⟩ <;>
      simp [handle, he] at h ⊢

end Client

/-- The creator's failed Commit is the exception: the frame is a Commit of room 1, which the group
merged, and whose keys the evicted creator cannot derive. -/
theorem eviction_is_the_failing_commit :
    (creatorClient.handle referenceMls referenceSuite testEnvRandom (.frameReceived removalOf42)).2 =
        .error (.mls "use after eviction") ∧
      ((creatorClient.handle referenceMls referenceSuite testEnvRandom (.frameReceived removalOf42)).1 = creatorClient ∨
        ∃ frame rs acts g, ClientEvent.frameReceived removalOf42 = .frameReceived frame ∧
          frame.header.opcodeEnum = some .commit ∧ creatorClient.rooms frame.header.roomId = some rs ∧
          referenceMls.processMessage rs.mlsGroup frame = .ok (acts, g) ∧
          Client.initializeSenderKeys referenceMls referenceSuite g = .error (.mls "use after eviction") ∧
          (creatorClient.handle referenceMls referenceSuite testEnvRandom (.frameReceived removalOf42)).1 =
            creatorClient.setRoom frame.header.roomId { rs with mlsGroup := g }) :=
  have h : (creatorClient.handle referenceMls referenceSuite testEnvRandom (.frameReceived removalOf42)).2 =
      .error (.mls "use after eviction") := rfl
  ⟨h, Client.handle_error_cases referenceMls referenceSuite creatorClient testEnvRandom _ h⟩

/-- The creator receives a Commit that removes it: the call fails, as the export is refused to an
evicted member, and room 1's group has moved from epoch 0 to epoch 1. -/
theorem failed_commit_leaves_group_merged :
    (creatorClient.handle referenceMls referenceSuite testEnvRandom (.frameReceived removalOf42)).2 =
        .error (.mls "use after eviction") ∧
      creatorClient.epoch referenceMls 1 = some 0 ∧
      (creatorClient.handle referenceMls referenceSuite testEnvRandom (.frameReceived removalOf42)).1.epoch
        referenceMls 1 = some 1 :=
  ⟨rfl, rfl, rfl⟩

/-! ### The room an action names -/

/-- The reference adapter, reading also MLS application messages: the group decrypts a payload
`[4, sender, plaintext...]` and delivers it itself, as `process_message` does for a message of the
MLS layer. -/
def deliveringMls : MlsAdapter RefGroup :=
  { referenceMls with
    processMessage := fun g f =>
      match f.payload.map UInt8.toNat with
      | 4 :: sender :: plaintext => .ok ([.deliverMessage sender (plaintext.map UInt8.ofNat)], g)
      | _ => g.process f }

/-- An MLS application message of member 5 in room 1, under the `Proposal` opcode, which
`handle_frame` hands to the group. -/
def mlsApplicationMessage : Frame := ⟨((FrameHeader.new .proposal).setRoomId 1).setSenderId 5, [4, 5, 104, 105]⟩

/-- The creator of room 1 receives a frame of room 1 that its MLS group delivers: the delivery names
room 0. -/
theorem mls_delivery_names_room_zero :
    mlsApplicationMessage.header.roomId = 1 ∧
      (((Client.new 42).handle deliveringMls referenceSuite testEnvRandom (.createRoom 1)).1.handle deliveringMls
          referenceSuite testEnvRandom (.frameReceived mlsApplicationMessage)).2 =
        .ok [.deliverMessage 0 5 [104, 105] 0 0] :=
  ⟨rfl, rfl⟩

end Kalandra
