import Kalandra.Client.Exchange
import Kalandra.Harness.Model

/-!
# The client refines the harness's model

The model-based test runs each `Operation` on a `ModelClient` and on a real client, which it hands the
event for the operation with room `r` renamed `r + 1`, and asserts that both succeed or both fail.
Here the test's check holds of every sequence of operations, not of the ones it samples: the real
client's rooms, seen through `Client.toModel`, are the model client's after each operation, and each
operation succeeds on one exactly when it succeeds on the other (`client_refines_harness_model`).

The model knows nothing of MLS, so the statement needs the MLS layer to do what the model takes for
granted: creating a group succeeds, at epoch 0, with a secret to export and the creator's own leaf
among the members (`MlsAdapter.CreatesGroups`). Under that contract the index the model counts a send
at, `next_send_index`, is the generation of the client's own chain: the model's comment calls it
the log index the server will assign, which it is not once another member sends.
-/

namespace Kalandra

namespace Harness

/-- The room `RealWorld` gives the client for a model room: `room_id as u128 + 1`. -/
def realRoomId (room : ModelRoomId) : RoomId := room.toNat + 1

theorem realRoomId_inj {a b : ModelRoomId} : realRoomId a = realRoomId b ↔ a = b :=
  ⟨fun h => UInt8.toNat.inj (Nat.succ.inj h), fun h => h ▸ rfl⟩

/-- The event `RealWorld` hands the client for an operation. Time and delivery do not reach the
client; a `Tick`, which changes nothing and returns nothing, stands for them here. -/
def Operation.clientEvent : Operation → ClientEvent
  | .createRoom _ room => .createRoom (realRoomId room)
  | .sendMessage _ room content => .sendMessage (realRoomId room) content.toBytes
  | .leaveRoom _ room => .leaveRoom (realRoomId room)
  | .advanceTime _ | .deliverPending => .tick 0

/-- Whether an operation is a send. -/
def Operation.isSend : Operation → Bool
  | .sendMessage .. => true
  | _ => false

namespace ModelClient

/-- The model's method for an operation a client performs: `create_room`, `send_message` (its index
dropped from the result) and `leave_room`; time and delivery change nothing. -/
def perform (m : ModelClient) : Operation → ModelClient × OperationResult
  | .createRoom _ room => m.createRoom room
  | .sendMessage _ room _ =>
    match m.sendMessage room with
    | (m', .ok _) => (m', .ok)
    | (m', .error e) => (m', .error e)
  | .leaveRoom _ room => m.leaveRoom room
  | .advanceTime _ | .deliverPending => (m, .ok)

/-- A sequence of operations on the model, and the results. -/
def performAll (m : ModelClient) : List Operation → ModelClient × List OperationResult
  | [] => (m, [])
  | op :: ops => ((m.perform op).1.performAll ops |>.1, (m.perform op).2 :: ((m.perform op).1.performAll ops).2)

/-- Every room's next send index is at most `k`. -/
def IndicesBelow (m : ModelClient) (k : Nat) : Prop :=
  ∀ room rs, m.rooms room = some rs → rs.nextSendIndex ≤ k

theorem IndicesBelow.mono {m : ModelClient} {k k' : Nat} (h : m.IndicesBelow k) (hk : k ≤ k') : m.IndicesBelow k' :=
  fun room rs hrs => (h room rs hrs).trans hk

theorem new_indicesBelow (id : ClientId) : (ModelClient.new id).IndicesBelow 0 := fun _ _ h => nomatch h

theorem IndicesBelow.update {m : ModelClient} {k : Nat} (h : m.IndicesBelow k) (room : ModelRoomId)
    {v : Option ModelRoomState} (hv : ∀ rs, v = some rs → rs.nextSendIndex ≤ k) :
    IndicesBelow { m with rooms := Function.update m.rooms room v } k := by
  intro r rs hrs
  dsimp only at hrs
  rw [Function.update_apply] at hrs
  split_ifs at hrs
  exacts [hv rs hrs, h r rs hrs]

theorem perform_indicesBelow {m : ModelClient} {k : Nat} (h : m.IndicesBelow k) (op : Operation) :
    (m.perform op).1.IndicesBelow (k + if op.isSend then 1 else 0) := by
  cases op with
  | createRoom _ r =>
    simp only [perform, createRoom, Operation.isSend, Bool.false_eq_true, ↓reduceIte, Nat.add_zero]
    split_ifs
    · exact h
    · exact h.update r (by rintro _ ⟨⟩; exact Nat.zero_le k)
  | sendMessage i r c =>
    have hfst : (m.perform (.sendMessage i r c)).1 = (m.sendMessage r).1 := by
      simp only [perform]
      split <;> rename_i h' <;> rw [h']
    rw [hfst]
    simp only [sendMessage, Operation.isSend, ↓reduceIte]
    split
    · exact h.mono (Nat.le_succ k)
    · rename_i rs₀ h₀
      exact (h.mono (Nat.le_succ k)).update r (by rintro _ ⟨⟩; exact Nat.succ_le_succ (h r rs₀ h₀))
  | leaveRoom _ r =>
    simp only [perform, leaveRoom, Operation.isSend, Bool.false_eq_true, ↓reduceIte, Nat.add_zero]
    split
    · exact h
    · exact h.update r nofun
  | advanceTime | deliverPending => exact h

theorem performAll_indicesBelow (ops : List Operation) :
    ∀ {m : ModelClient} {k : Nat}, m.IndicesBelow k →
      (m.performAll ops).1.IndicesBelow (k + (ops.filter Operation.isSend).length) := by
  induction ops with
  | nil => exact fun h => h
  | cons op ops ih =>
    intro m k h
    refine (ih (perform_indicesBelow h op)).mono ?_
    cases hop : op.isSend <;> simp [List.filter_cons, hop]
    omega

end ModelClient

end Harness

open Harness

/-- What the harness's model takes for granted of the MLS layer: creating a group succeeds, at epoch
0, and the new group exports the sender-key secret and lists the creator's own leaf among its
members. -/
structure MlsAdapter.CreatesGroups {G : Type} (A : MlsAdapter G) : Prop where
  new_ok : ∀ room creator, ∃ g acts, A.new room creator = .ok (g, acts) ∧ A.epoch g = 0 ∧
    (∃ secret, A.exportSecret g senderKeyLabel senderKeyContext senderKeySecretSize = .ok secret) ∧
    A.ownLeafIndex g ∈ A.memberLeafIndices g

theorem referenceMls_createsGroups : referenceMls.CreatesGroups :=
  ⟨fun room creator => ⟨RefGroup.create room creator, [], rfl, rfl,
    ⟨List.replicate senderKeySecretSize (UInt8.ofNat room), by simp [referenceMls, RefGroup.exportSecret,
      RefGroup.create]⟩, by simp [referenceMls, RefGroup.create]⟩⟩

variable {G : Type} (A : MlsAdapter G) (cs : CipherSuite)

/-- The model's view of a room: its epoch, no messages (the client keeps none), and as the next
send's index the generation of the client's own chain. -/
def RoomState.toModel (rs : RoomState G) : ModelRoomState :=
  { epoch := A.epoch rs.mlsGroup, messages := [], nextSendIndex := (rs.senderKeys.generation rs.myLeafIndex).getD 0 }

namespace Client

/-- The model's view of a client: the rooms `RealWorld` names. -/
def toModel (c : Client G) (id : ClientId) : ModelClient :=
  ⟨id, fun room => (c.rooms (realRoomId room)).map (RoomState.toModel A)⟩

/-- Every room of the client holds a chain for the client's own leaf. -/
def OwnChains (c : Client G) : Prop :=
  ∀ room rs, c.rooms room = some rs → (rs.senderKeys.chains rs.myLeafIndex).isSome

theorem toModel_rooms (c : Client G) (id : ClientId) (room : ModelRoomId) :
    (c.toModel A id).rooms room = (c.rooms (realRoomId room)).map (RoomState.toModel A) := rfl

theorem toModel_setRoom (c : Client G) (id : ClientId) (room : ModelRoomId) (rs : RoomState G) :
    (c.setRoom (realRoomId room) rs).toModel A id =
      { c.toModel A id with rooms := Function.update (c.toModel A id).rooms room (some (rs.toModel A)) } := by
  simp only [toModel, ModelClient.mk.injEq, true_and]
  funext r
  by_cases hr : r = room
  · subst hr; simp [setRoom_rooms]
  · simp [setRoom_rooms, realRoomId_inj, hr]

theorem toModel_remove (c : Client G) (id : ClientId) (room : ModelRoomId) :
    ({ c with rooms := Function.update c.rooms (realRoomId room) none } : Client G).toModel A id =
      { c.toModel A id with rooms := Function.update (c.toModel A id).rooms room none } := by
  simp only [toModel, ModelClient.mk.injEq, true_and]
  funext r
  by_cases hr : r = room
  · subst hr; simp
  · simp [Function.update_apply, realRoomId_inj, hr]

theorem OwnChains.setRoom {c : Client G} (hc : c.OwnChains) {room : RoomId} {rs : RoomState G}
    (h : (rs.senderKeys.chains rs.myLeafIndex).isSome) : (c.setRoom room rs).OwnChains := by
  intro r rs' hr
  rw [setRoom_rooms] at hr
  split_ifs at hr
  · cases hr; exact h
  · exact hc r rs' hr

/-! ### One operation -/

theorem createRoom_refines (hA : A.CreatesGroups) {c : Client G} (hc : c.OwnChains) (id : ClientId)
    (room : ModelRoomId) :
    (c.handleCreateRoom A cs (realRoomId room)).1.toModel A id = ((c.toModel A id).createRoom room).1 ∧
      (c.handleCreateRoom A cs (realRoomId room)).2.isOk = ((c.toModel A id).createRoom room).2.isOk ∧
      (c.handleCreateRoom A cs (realRoomId room)).1.OwnChains := by
  by_cases hr : (c.rooms (realRoomId room)).isSome
  · have hm : ((c.toModel A id).rooms room).isSome := by simpa [toModel_rooms] using hr
    simp [handleCreateRoom, hr, ModelClient.createRoom, hm, hc, Except.toBool, OperationResult.isOk]
  · have hm : ¬ ((c.toModel A id).rooms room).isSome := by simpa [toModel_rooms] using hr
    obtain ⟨g, acts, hnew, h0, ⟨secret, hsec⟩, hown⟩ := hA.new_ok (realRoomId room) c.identity
    have hkeys : initializeSenderKeys A cs g =
        .ok (SenderKeyStore.initializeEpoch cs secret (A.epoch g) (A.memberLeafIndices g)) := by
      simp [initializeSenderKeys, hsec]
    simp only [handleCreateRoom, hr, hnew, hkeys, ModelClient.createRoom, hm, if_false, Bool.false_eq_true]
    refine ⟨?_, rfl, hc.setRoom (by simp [SenderKeyStore.initializeEpoch, hown])⟩
    rw [toModel_setRoom]
    simp [RoomState.toModel, ModelRoomState.new, h0, SenderKeyStore.generation, SenderKeyStore.initializeEpoch,
      hown, ChainState.init]

theorem sendMessage_refines {c : Client G} (hc : c.OwnChains) (id : ClientId) (random : Bytes)
    (room : ModelRoomId) (plaintext : Bytes) :
    (c.handleSendMessage A cs random (realRoomId room) plaintext).1.toModel A id = ((c.toModel A id).sendMessage room).1 ∧
      (c.handleSendMessage A cs random (realRoomId room) plaintext).2.isOk = ((c.toModel A id).sendMessage room).2.isOk ∧
      (c.handleSendMessage A cs random (realRoomId room) plaintext).1.OwnChains := by
  cases hr : c.rooms (realRoomId room) with
  | none => simp [handleSendMessage, hr, ModelClient.sendMessage, toModel_rooms, hc, Except.toBool]
  | some rs =>
    obtain ⟨ch, hch⟩ := Option.isSome_iff_exists.mp (hc _ rs hr)
    rw [handleSendMessage_of_chain A cs hr hch]
    simp only [ModelClient.sendMessage, toModel_rooms, hr, Option.map_some']
    refine ⟨?_, rfl, hc.setRoom (by simp [SenderKeyStore.setChain_chains])⟩
    rw [toModel_setRoom]
    simp [RoomState.toModel, SenderKeyStore.generation, SenderKeyStore.setChain_chains, hch]

theorem leaveRoom_refines {c : Client G} (hc : c.OwnChains) (id : ClientId) (room : ModelRoomId) :
    (c.handleLeaveRoom (realRoomId room)).1.toModel A id = ((c.toModel A id).leaveRoom room).1 ∧
      (c.handleLeaveRoom (realRoomId room)).2.isOk = ((c.toModel A id).leaveRoom room).2.isOk ∧
      (c.handleLeaveRoom (realRoomId room)).1.OwnChains := by
  cases hr : c.rooms (realRoomId room) with
  | none => simp [handleLeaveRoom, hr, ModelClient.leaveRoom, toModel_rooms, hc, Except.toBool, OperationResult.isOk]
  | some rs =>
    simp only [handleLeaveRoom, hr, ModelClient.leaveRoom, toModel_rooms, Option.map_some']
    refine ⟨toModel_remove A c id room, rfl, fun r rs' h => hc r rs' ?_⟩
    simp only [Function.update_apply] at h
    split_ifs at h
    exact h

theorem handle_refines (hA : A.CreatesGroups) {c : Client G} (hc : c.OwnChains) (id : ClientId) (random : Bytes)
    (op : Operation) :
    (c.handle A cs random op.clientEvent).1.toModel A id = ((c.toModel A id).perform op).1 ∧
      (c.handle A cs random op.clientEvent).2.isOk = ((c.toModel A id).perform op).2.isOk ∧
      (c.handle A cs random op.clientEvent).1.OwnChains := by
  cases op with
  | createRoom _ room => exact createRoom_refines A cs hA hc id room
  | sendMessage _ room content =>
    obtain ⟨h₁, h₂, h₃⟩ := sendMessage_refines A cs hc id random room content.toBytes
    simp only [Operation.clientEvent, handle, ModelClient.perform]
    split <;> rename_i h <;> rw [h] at h₁ h₂ <;> exact ⟨h₁, h₂, h₃⟩
  | leaveRoom _ room => exact leaveRoom_refines A hc id room
  | advanceTime => exact ⟨rfl, rfl, hc⟩
  | deliverPending => exact ⟨rfl, rfl, hc⟩

end Client

/-- Over every run with fewer than `2 ^ 32` sends, the client and the model client give the same
results and end with the same rooms, epochs and send indices, each below `2 ^ 32`. -/
theorem client_refines_harness_model (hA : A.CreatesGroups) (senderId : MemberId) (id : ClientId)
    (ops : List (Operation × Bytes)) (hsends : ((ops.map Prod.fst).filter Operation.isSend).length < 2 ^ 32) :
    ((Client.new senderId : Client G).run A cs (ops.map fun p => (p.1.clientEvent, p.2))).1.toModel A id =
        ((ModelClient.new id).performAll (ops.map Prod.fst)).1 ∧
      ((Client.new senderId : Client G).run A cs (ops.map fun p => (p.1.clientEvent, p.2))).2.map Except.isOk =
        ((ModelClient.new id).performAll (ops.map Prod.fst)).2.map OperationResult.isOk ∧
      ∀ room rs, (((Client.new senderId : Client G).run A cs (ops.map fun p => (p.1.clientEvent, p.2))).1.toModel A
        id).rooms room = some rs → rs.nextSendIndex < 2 ^ 32 := by
  suffices h : ∀ (c : Client G), c.OwnChains →
      (c.run A cs (ops.map fun p => (p.1.clientEvent, p.2))).1.toModel A id =
          ((c.toModel A id).performAll (ops.map Prod.fst)).1 ∧
        (c.run A cs (ops.map fun p => (p.1.clientEvent, p.2))).2.map Except.isOk =
          ((c.toModel A id).performAll (ops.map Prod.fst)).2.map OperationResult.isOk by
    obtain ⟨h₁, h₂⟩ := h (Client.new senderId) (fun _ _ h => nomatch h)
    refine ⟨h₁, h₂, fun room rs hrs => ?_⟩
    have hbound := ModelClient.performAll_indicesBelow (ops.map Prod.fst) (ModelClient.new_indicesBelow id)
    rw [h₁] at hrs
    exact Nat.lt_of_le_of_lt (hbound room rs hrs) (by omega)
  clear hsends
  induction ops with
  | nil => exact fun _ _ => ⟨rfl, rfl⟩
  | cons p ops ih =>
    intro c hc
    obtain ⟨h₁, h₂, h₃⟩ := Client.handle_refines A cs hA hc id p.2 p.1
    obtain ⟨ih₁, ih₂⟩ := ih _ h₃
    simp only [List.map_cons, Client.run_cons, ModelClient.performAll, List.map_cons, ← h₁, ih₁, ih₂, h₂, and_self]

/-- Member 1 creates room 1 of the model, sends twice, leaves, and sends again: the client and the
model agree on the room and on every outcome. -/
def harnessRun : List (Harness.Operation × Bytes) :=
  [(.createRoom 0 1, []), (.sendMessage 0 1 ⟨7, 1⟩, testEnvRandom), (.sendMessage 0 1 ⟨9, 2⟩, testEnvRandom),
    (.leaveRoom 0 1, []), (.sendMessage 0 1 ⟨7, 1⟩, testEnvRandom)]

theorem harness_run_refined :
    referenceMls.CreatesGroups ∧ ((harnessRun.map Prod.fst).filter Operation.isSend).length < 2 ^ 32 ∧
      ((Client.new 1 : Client RefGroup).run referenceMls referenceSuite
          (harnessRun.map fun p => (p.1.clientEvent, p.2))).1.toModel referenceMls 0 =
        ((ModelClient.new 0).performAll (harnessRun.map Prod.fst)).1 ∧
      ((Client.new 1 : Client RefGroup).run referenceMls referenceSuite
          (harnessRun.map fun p => (p.1.clientEvent, p.2))).2.map Except.isOk =
        ((ModelClient.new 0).performAll (harnessRun.map Prod.fst)).2.map OperationResult.isOk ∧
      ∀ room rs, (((Client.new 1 : Client RefGroup).run referenceMls referenceSuite
        (harnessRun.map fun p => (p.1.clientEvent, p.2))).1.toModel referenceMls 0).rooms room = some rs →
          rs.nextSendIndex < 2 ^ 32 :=
  have hsends : ((harnessRun.map Prod.fst).filter Operation.isSend).length < 2 ^ 32 := by decide
  ⟨referenceMls_createsGroups, hsends,
    client_refines_harness_model referenceMls referenceSuite referenceMls_createsGroups 1 0 harnessRun hsends⟩

end Kalandra
