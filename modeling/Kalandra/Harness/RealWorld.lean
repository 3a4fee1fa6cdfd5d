import Kalandra.Harness.Refinement
/-!
# The model-based test's real world

`RealWorld` is what the model-based test runs against the model. It holds real clients, one per
`ClientId` below their number, with sender ids from 1, and beside them the membership the test
tracks itself. The test's clients are `lockframe_client::Client`s. Of that crate only the root is in
the sources: it exports a `Client` and a `ClientIdentity` from a `client` module that is not, under
the names and API of `kalandra-client` (`Client::new(env, identity)`, `handle`). So the real clients
here are modelled by `kalandra-client`'s `Client`, the client in the sources.

An operation for a client that does not exist fails with `InvalidClient`. Otherwise
the tracked membership may refuse it before it reaches the client: a create for a room the client is
tracked in, a send or a leave for one it is not. Then the client handles the event, and its failure
is reported as `RoomAlreadyExists` or `NotMember`.

The test compares only whether each operation succeeds on the model and on the real world. Here the
two agree exactly, error kinds included. They agree against the models of the clients side by side,
over every sequence of operations. The tracked membership is always the models'
(`real_world_refines_models`). The model's `ModelWorld` also drives a `ModelServer` and moves other
members' epochs on a leave. Neither is among the sources, so the comparison is with the clients'
models alone.
-/

namespace Kalandra

namespace Harness

/-- The client an operation is for; time and delivery are for none. -/
def Operation.clientId : Operation → Option ClientId
  | .createRoom id _ | .sendMessage id _ _ | .leaveRoom id _ => some id
  | .advanceTime _ | .deliverPending => none

/-- The harness's model clients side by side, as `ModelWorld` holds them, without its server: an
operation goes to its client's model, and one for a client that does not exist fails with
`InvalidClient`. -/
def performAt (ms : List ModelClient) (op : Operation) : List ModelClient × OperationResult :=
  match op.clientId with
  | none => (ms, .ok)
  | some id =>
    match ms[id.toNat]? with
    | none => (ms, .error .invalidClient)
    | some m => (ms.set id.toNat (m.perform op).1, (m.perform op).2)

/-- A sequence of operations on the model clients, and the results. -/
def performAllAt (ms : List ModelClient) : List Operation → List ModelClient × List OperationResult
  | [] => (ms, [])
  | op :: ops => (performAllAt (performAt ms op).1 ops |>.1, (performAt ms op).2 :: (performAllAt (performAt ms op).1 ops).2)

theorem performAt_indicesBelow {ms : List ModelClient} {k : Nat} (h : ∀ m ∈ ms, m.IndicesBelow k) (op : Operation) :
    ∀ m ∈ (performAt ms op).1, m.IndicesBelow (k + if op.isSend then 1 else 0) := by
  have hk : ∀ m ∈ ms, m.IndicesBelow (k + if op.isSend then 1 else 0) :=
    fun m hm => (h m hm).mono (Nat.le_add_right _ _)
  unfold performAt
  split
  · exact hk
  · split
    · exact hk
    · rename_i m₀ hm₀
      intro m hm
      rcases List.mem_or_eq_of_mem_set hm with hm | rfl
      exacts [hk m hm, ModelClient.perform_indicesBelow (h m₀ (List.getElem?_mem hm₀)) op]

theorem performAllAt_indicesBelow (ops : List Operation) :
    ∀ {ms : List ModelClient} {k : Nat}, (∀ m ∈ ms, m.IndicesBelow k) →
      ∀ m ∈ (performAllAt ms ops).1, m.IndicesBelow (k + (ops.filter Operation.isSend).length) := by
  induction ops with
  | nil => exact fun h => h
  | cons op ops ih =>
    intro ms k h m hm
    refine (ih (performAt_indicesBelow h op) m hm).mono ?_
    cases hop : op.isSend <;> simp [List.filter_cons, hop]
    omega

theorem ModelClient.isMember_createRoom (m : ModelClient) (room room' : ModelRoomId) :
    (m.createRoom room).1.isMember room' = if room' = room then true else m.isMember room' := by
  unfold ModelClient.createRoom
  by_cases h : room' = room
  · subst h
    split_ifs <;> simp_all [ModelClient.isMember]
  · split_ifs <;> simp [ModelClient.isMember, Function.update_noteq h, h]

theorem ModelClient.isMember_leaveRoom (m : ModelClient) (room room' : ModelRoomId) :
    (m.leaveRoom room).1.isMember room' = if room' = room then false else m.isMember room' := by
  unfold ModelClient.leaveRoom
  by_cases h : room' = room
  · subst h
    split <;> simp_all [ModelClient.isMember]
  · split <;> simp [ModelClient.isMember, Function.update_noteq h, h]

theorem ModelClient.isMember_sendMessage (m : ModelClient) (room room' : ModelRoomId) :
    (m.sendMessage room).1.isMember room' = m.isMember room' := by
  unfold ModelClient.sendMessage
  split
  · rfl
  · by_cases h : room' = room <;> simp_all [ModelClient.isMember, Function.update_apply]

theorem set_eq_of_getElem? {α : Type} {l : List α} {i : Nat} {a : α} (h : l[i]? = some a) : l.set i a = l :=
  List.ext_getElem? fun j => by
    rw [List.getElem?_set']
    split <;> simp_all

variable {G : Type} (A : MlsAdapter G) (cs : CipherSuite)

/-- `RealWorld`, with the environment left out: its randomness is an argument of each operation. -/
structure RealWorld (G : Type) where
  clients : List (Client G)
  roomMembership : ClientId × ModelRoomId → Option Bool

namespace RealWorld

/-- `RealWorld::new`: clients with sender ids 1 to `numClients`, and no tracked membership. -/
def new (numClients : Nat) : RealWorld G :=
  ⟨(List.range numClients).map fun i => Client.new (i + 1), fun _ => none⟩

/-- `room_membership.get(&(client_id, room_id)).copied().unwrap_or(false)`. -/
def tracked (w : RealWorld G) (id : ClientId) (room : ModelRoomId) : Bool := (w.roomMembership (id, room)).getD false

/-- The client a call mutated through `clients.get_mut(client_id)`. -/
def setClient (w : RealWorld G) (id : ClientId) (c : Client G) : RealWorld G :=
  { w with clients := w.clients.set id.toNat c }

/-- `room_membership.insert((client_id, room_id), member)`, where the operation inserts. -/
def insertMembership (w : RealWorld G) (id : ClientId) (room : ModelRoomId) : Option Bool → RealWorld G
  | none => w
  | some member => { w with roomMembership := Function.update w.roomMembership (id, room) (some member) }

/-- The shape of `apply_create_room`, `apply_send_message` and `apply_leave_room`: find the client,
refuse when the tracked membership is `refuseIf`, hand the client the event, report its failure as
`refusal`, and on success record the membership the operation leaves. -/
def applyClientOp (w : RealWorld G) (random : Bytes) (id : ClientId) (room : ModelRoomId) (refuseIf : Bool)
    (refusal : OperationError) (event : ClientEvent) (after : Option Bool) : RealWorld G × OperationResult :=
  match w.clients[id.toNat]? with
  | none => (w, .error .invalidClient)
  | some c =>
    if w.tracked id room = refuseIf then (w, .error refusal)
    else
      match c.handle A cs random event with
      | (c', .ok _) => ((w.setClient id c').insertMembership id room after, .ok)
      | (c', .error _) => (w.setClient id c', .error refusal)

/-- `apply_create_room`. -/
def applyCreateRoom (w : RealWorld G) (random : Bytes) (id : ClientId) (room : ModelRoomId) :=
  w.applyClientOp A cs random id room true .roomAlreadyExists (.createRoom (realRoomId room)) (some true)

/-- `apply_send_message`. -/
def applySendMessage (w : RealWorld G) (random : Bytes) (id : ClientId) (room : ModelRoomId) (content : SmallMessage) :=
  w.applyClientOp A cs random id room false .notMember (.sendMessage (realRoomId room) content.toBytes) none

/-- `apply_leave_room`. -/
def applyLeaveRoom (w : RealWorld G) (random : Bytes) (id : ClientId) (room : ModelRoomId) :=
  w.applyClientOp A cs random id room false .notMember (.leaveRoom (realRoomId room)) (some false)

/-- `RealWorld::apply`. -/
def apply (w : RealWorld G) (random : Bytes) : Operation → RealWorld G × OperationResult
  | .createRoom id room => w.applyCreateRoom A cs random id room
  | .sendMessage id room content => w.applySendMessage A cs random id room content
  | .leaveRoom id room => w.applyLeaveRoom A cs random id room
  | .advanceTime _ | .deliverPending => (w, .ok)

/-- A sequence of operations, each with the bytes the environment gives during it, and the results. -/
def applyAll (w : RealWorld G) : List (Operation × Bytes) → RealWorld G × List OperationResult
  | [] => (w, [])
  | (op, random) :: ops =>
    ((w.apply A cs random op).1.applyAll ops |>.1, (w.apply A cs random op).2 :: ((w.apply A cs random op).1.applyAll ops).2)

@[simp] theorem tracked_setClient (w : RealWorld G) (id : ClientId) (c : Client G) :
    (w.setClient id c).tracked = w.tracked := rfl

@[simp] theorem insertMembership_clients (w : RealWorld G) (id : ClientId) (room : ModelRoomId) (after : Option Bool) :
    (w.insertMembership id room after).clients = w.clients := by
  cases after <;> rfl

theorem tracked_insertMembership (w : RealWorld G) (id id' : ClientId) (room room' : ModelRoomId) (after : Option Bool) :
    (w.insertMembership id room after).tracked id' room' =
      if id' = id ∧ room' = room then after.getD (w.tracked id room) else w.tracked id' room' := by
  cases after with
  | none =>
    split_ifs with h
    · rw [h.1, h.2]
      rfl
    · rfl
  | some b =>
    simp only [insertMembership, tracked, Function.update_apply, Prod.mk.injEq, Option.getD_some]
    split_ifs <;> rfl

/-- The real world is in step with the model clients: each client's image is its model, each client
holds its own chain in every room, and the tracked membership is the models'. -/
structure Mirrors (w : RealWorld G) (ms : List ModelClient) : Prop where
  clients : ∀ id : ClientId, (w.clients[id.toNat]?).map (·.toModel A id) = ms[id.toNat]?
  ownChains : ∀ (id : ClientId) c, w.clients[id.toNat]? = some c → c.OwnChains
  tracked : ∀ (id : ClientId) room m, ms[id.toNat]? = some m → w.tracked id room = m.isMember room

theorem new_mirrors (numClients : Nat) :
    (new numClients : RealWorld G).Mirrors A ((List.range numClients).map fun i => ModelClient.new (UInt8.ofNat i)) := by
  refine ⟨fun id => ?_, fun id c hc => ?_, fun id room m hm => ?_⟩
  · by_cases h : id.toNat < numClients
    · simp only [new, List.getElem?_map, List.getElem?_range h, Option.map_some', uint8OfNat_toNat]
      rfl
    · have hle : numClients ≤ id.toNat := Nat.le_of_not_lt h
      simp [new, List.getElem?_eq_none, hle]
  · simp only [new, List.getElem?_map, Option.map_eq_some'] at hc
    obtain ⟨_, -, rfl⟩ := hc
    exact fun _ _ h => nomatch h
  · simp only [List.getElem?_map, Option.map_eq_some'] at hm
    obtain ⟨_, -, rfl⟩ := hm
    rfl

theorem Mirrors.set {w w' : RealWorld G} {ms : List ModelClient} (h : w.Mirrors A ms) {id : ClientId}
    {c c' : Client G} (hc : w.clients[id.toNat]? = some c) (ho : c'.OwnChains)
    (hcl : w'.clients = w.clients.set id.toNat c')
    (htr : ∀ id' room, w'.tracked id' room = if id' = id then (c'.toModel A id).isMember room else w.tracked id' room) :
    w'.Mirrors A (ms.set id.toNat (c'.toModel A id)) := by
  have hm : ms[id.toNat]? = some (c.toModel A id) := by rw [← h.clients id, hc]; rfl
  have hne : ∀ {j : ClientId}, j ≠ id → id.toNat ≠ j.toNat := fun hji h => hji (UInt8.toNat.inj h).symm
  refine ⟨fun j => ?_, fun j c₀ hj => ?_, fun j room m hj => ?_⟩
  · rw [hcl, List.getElem?_set', List.getElem?_set']
    by_cases hji : j = id
    · subst hji
      simp [hc, hm]
    · simp only [hne hji, if_false, h.clients j]
  · rw [hcl, List.getElem?_set'] at hj
    by_cases hji : j = id
    · subst hji
      simp_all
    · rw [if_neg (hne hji)] at hj
      exact h.ownChains j c₀ hj
  · rw [List.getElem?_set'] at hj
    rw [htr]
    by_cases hji : j = id
    · subst hji
      simp_all
    · rw [if_neg (hne hji)] at hj
      rw [if_neg hji]
      exact h.tracked j room m hj

theorem applyClientOp_refines {w : RealWorld G} {ms : List ModelClient} (h : w.Mirrors A ms) (random : Bytes)
    {op : Operation} {id : ClientId} {room : ModelRoomId} {refuseIf : Bool} {refusal : OperationError}
    {event : ClientEvent} {after : Option Bool} (hop : op.clientId = some id)
    (hmodel : ∀ c : Client G, c.OwnChains →
      ((c.toModel A id).isMember room = refuseIf → (c.toModel A id).perform op = (c.toModel A id, .error refusal)) ∧
      ((c.toModel A id).isMember room ≠ refuseIf →
        (c.handle A cs random event).2.isOk = true ∧ ((c.toModel A id).perform op).2 = .ok ∧
        (c.handle A cs random event).1.toModel A id = ((c.toModel A id).perform op).1 ∧
        (c.handle A cs random event).1.OwnChains ∧
        ∀ room', ((c.toModel A id).perform op).1.isMember room' =
          if room' = room then after.getD ((c.toModel A id).isMember room) else (c.toModel A id).isMember room')) :
    (w.applyClientOp A cs random id room refuseIf refusal event after).1.Mirrors A (performAt ms op).1 ∧
      (w.applyClientOp A cs random id room refuseIf refusal event after).2 = (performAt ms op).2 := by
  unfold applyClientOp performAt
  rw [hop]
  cases hc : w.clients[id.toNat]? with
  | none =>
    have hm : ms[id.toNat]? = none := by rw [← h.clients id, hc]; rfl
    simp only [hm]
    exact ⟨h, trivial⟩
  | some c =>
    have hm : ms[id.toNat]? = some (c.toModel A id) := by rw [← h.clients id, hc]; rfl
    have htr := h.tracked id room _ hm
    obtain ⟨hrefuse, haccept⟩ := hmodel c (h.ownChains id c hc)
    simp only [hm]
    by_cases hr : (c.toModel A id).isMember room = refuseIf
    · rw [if_pos (htr.trans hr), hrefuse hr, set_eq_of_getElem? hm]
      exact ⟨h, rfl⟩
    · rw [if_neg fun h' => hr (htr.symm.trans h')]
      obtain ⟨hok, hres, hmodel', hown, hmem⟩ := haccept hr
      rcases hh : c.handle A cs random event with ⟨c', _ | acts⟩
      · rw [hh] at hok
        cases hok
      · rw [hh] at hmodel' hown
        dsimp only
        refine ⟨?_, hres.symm⟩
        rw [← hmodel']
        refine h.set A hc hown (by simp [setClient]) fun id' room' => ?_
        rw [tracked_insertMembership, hmodel', hmem]
        by_cases hi : id' = id
        · subst hi
          by_cases hroom : room' = room
          · simp [hroom, htr]
          · simp [hroom, h.tracked id' room' _ hm]
        · simp [hi]

theorem applyCreateRoom_refines (hA : A.CreatesGroups) {w : RealWorld G} {ms : List ModelClient} (h : w.Mirrors A ms)
    (random : Bytes) (id : ClientId) (room : ModelRoomId) :
    (w.applyCreateRoom A cs random id room).1.Mirrors A (performAt ms (.createRoom id room)).1 ∧
      (w.applyCreateRoom A cs random id room).2 = (performAt ms (.createRoom id room)).2 := by
  refine applyClientOp_refines A cs h random rfl fun c hc => ⟨fun hr => ?_, fun hr => ?_⟩
  · simp only [ModelClient.isMember] at hr
    simp [ModelClient.perform, ModelClient.createRoom, hr]
  · obtain ⟨h₁, h₂, h₃⟩ := Client.createRoom_refines A cs hA hc id room
    simp only [ModelClient.isMember, Bool.not_eq_true] at hr
    have hok : ((c.toModel A id).createRoom room).2 = .ok := by simp [ModelClient.createRoom, hr]
    refine ⟨by rw [Client.handle, h₂, hok]; rfl, hok, h₁, h₃, fun room' => ?_⟩
    simp [ModelClient.perform, ModelClient.isMember_createRoom]

theorem applySendMessage_refines {w : RealWorld G} {ms : List ModelClient} (h : w.Mirrors A ms)
    (random : Bytes) (id : ClientId) (room : ModelRoomId) (content : SmallMessage) :
    (w.applySendMessage A cs random id room content).1.Mirrors A (performAt ms (.sendMessage id room content)).1 ∧
      (w.applySendMessage A cs random id room content).2 = (performAt ms (.sendMessage id room content)).2 := by
  refine applyClientOp_refines A cs h random rfl fun c hc => ⟨fun hr => ?_, fun hr => ?_⟩
  · have hrs : (c.toModel A id).rooms room = none := by simpa [ModelClient.isMember] using hr
    simp [ModelClient.perform, ModelClient.sendMessage, hrs]
  · obtain ⟨h₁, h₂, h₃⟩ := Client.sendMessage_refines A cs hc id random room content.toBytes
    obtain ⟨rs, hrs⟩ := Option.ne_none_iff_exists'.mp
      (show (c.toModel A id).rooms room ≠ none by simpa [ModelClient.isMember] using hr)
    have hperform : (c.toModel A id).perform (.sendMessage id room content) = (((c.toModel A id).sendMessage room).1, .ok) := by
      simp [ModelClient.perform, ModelClient.sendMessage, hrs]
    rw [hperform]
    refine ⟨by rw [Client.handle, h₂]; simp only [ModelClient.sendMessage, hrs]; rfl, rfl, h₁, h₃, fun room' => ?_⟩
    rw [ModelClient.isMember_sendMessage]
    split_ifs with hroom <;> simp [hroom]

theorem applyLeaveRoom_refines {w : RealWorld G} {ms : List ModelClient} (h : w.Mirrors A ms)
    (random : Bytes) (id : ClientId) (room : ModelRoomId) :
    (w.applyLeaveRoom A cs random id room).1.Mirrors A (performAt ms (.leaveRoom id room)).1 ∧
      (w.applyLeaveRoom A cs random id room).2 = (performAt ms (.leaveRoom id room)).2 := by
  refine applyClientOp_refines A cs h random rfl fun c hc => ⟨fun hr => ?_, fun hr => ?_⟩
  · have hrs : (c.toModel A id).rooms room = none := by simpa [ModelClient.isMember] using hr
    simp [ModelClient.perform, ModelClient.leaveRoom, hrs]
  · obtain ⟨h₁, h₂, h₃⟩ := Client.leaveRoom_refines A hc id room
    obtain ⟨rs, hrs⟩ := Option.ne_none_iff_exists'.mp
      (show (c.toModel A id).rooms room ≠ none by simpa [ModelClient.isMember] using hr)
    have hok : ((c.toModel A id).leaveRoom room).2 = .ok := by simp [ModelClient.leaveRoom, hrs]
    refine ⟨by rw [Client.handle, h₂, hok]; rfl, hok, h₁, h₃, fun room' => ?_⟩
    simp [ModelClient.perform, ModelClient.isMember_leaveRoom]

theorem apply_refines (hA : A.CreatesGroups) {w : RealWorld G} {ms : List ModelClient} (h : w.Mirrors A ms)
    (random : Bytes) (op : Operation) :
    (w.apply A cs random op).1.Mirrors A (performAt ms op).1 ∧ (w.apply A cs random op).2 = (performAt ms op).2 := by
  cases op with
  | createRoom id room => exact applyCreateRoom_refines A cs hA h random id room
  | sendMessage id room content => exact applySendMessage_refines A cs h random id room content
  | leaveRoom id room => exact applyLeaveRoom_refines A cs h random id room
  | advanceTime => exact ⟨h, rfl⟩
  | deliverPending => exact ⟨h, rfl⟩

end RealWorld

/-- Over every run with fewer than `2 ^ 32` sends, `RealWorld::new(n)` and `n` model clients give the
same results and end with the same rooms, epochs, send indices and tracked membership. -/
theorem real_world_refines_models (hA : A.CreatesGroups) (numClients : Nat) (ops : List (Operation × Bytes))
    (hsends : ((ops.map Prod.fst).filter Operation.isSend).length < 2 ^ 32) :
    ((RealWorld.new numClients : RealWorld G).applyAll A cs ops).2 =
        (performAllAt ((List.range numClients).map fun i => ModelClient.new (UInt8.ofNat i)) (ops.map Prod.fst)).2 ∧
      ((RealWorld.new numClients : RealWorld G).applyAll A cs ops).1.Mirrors A
        (performAllAt ((List.range numClients).map fun i => ModelClient.new (UInt8.ofNat i)) (ops.map Prod.fst)).1 ∧
      ∀ (id : ClientId) c, ((RealWorld.new numClients : RealWorld G).applyAll A cs ops).1.clients[id.toNat]? = some c →
        ∀ room rs, (c.toModel A id).rooms room = some rs → rs.nextSendIndex < 2 ^ 32 := by
  suffices h : ∀ {w : RealWorld G} {ms : List ModelClient}, w.Mirrors A ms →
      (w.applyAll A cs ops).2 = (performAllAt ms (ops.map Prod.fst)).2 ∧
        (w.applyAll A cs ops).1.Mirrors A (performAllAt ms (ops.map Prod.fst)).1 by
    obtain ⟨h₁, h₂⟩ := h (RealWorld.new_mirrors A numClients)
    refine ⟨h₁, h₂, fun id c hc room rs hrs => ?_⟩
    have hm := h₂.clients id
    rw [hc, Option.map_some'] at hm
    have hbound := performAllAt_indicesBelow (ops.map Prod.fst) (k := 0) (fun m hm => by
      obtain ⟨i, -, rfl⟩ := List.mem_map.mp hm
      exact ModelClient.new_indicesBelow _) _ (List.getElem?_mem hm.symm)
    exact Nat.lt_of_le_of_lt (hbound room rs hrs) (by omega)
  clear hsends
  induction ops with
  | nil => exact fun h => ⟨rfl, h⟩
  | cons p ops ih =>
    intro w ms h
    obtain ⟨h₁, h₂⟩ := RealWorld.apply_refines A cs hA h p.2 p.1
    obtain ⟨ih₁, ih₂⟩ := ih h₁
    exact ⟨by simp only [RealWorld.applyAll, List.map_cons, performAllAt, h₂, ih₁], ih₂⟩

/-- Three clients: client 0 creates room 1 twice, client 1 sends to it without being a member, client
0 sends and leaves, and client 5, which does not exist, creates a room. -/
def realWorldRun : List (Operation × Bytes) :=
  [(.createRoom 0 1, []), (.createRoom 0 1, []), (.sendMessage 1 1 ⟨7, 1⟩, testEnvRandom),
    (.sendMessage 0 1 ⟨7, 1⟩, testEnvRandom), (.leaveRoom 0 1, []), (.createRoom 5 2, [])]

theorem real_world_run_refined :
    referenceMls.CreatesGroups ∧ ((realWorldRun.map Prod.fst).filter Operation.isSend).length < 2 ^ 32 ∧
      ((RealWorld.new 3 : RealWorld RefGroup).applyAll referenceMls referenceSuite realWorldRun).2 =
          (performAllAt ((List.range 3).map fun i => ModelClient.new (UInt8.ofNat i)) (realWorldRun.map Prod.fst)).2 ∧
        ((RealWorld.new 3 : RealWorld RefGroup).applyAll referenceMls referenceSuite realWorldRun).1.Mirrors referenceMls
          (performAllAt ((List.range 3).map fun i => ModelClient.new (UInt8.ofNat i)) (realWorldRun.map Prod.fst)).1 ∧
        ∀ (id : ClientId) c,
          ((RealWorld.new 3 : RealWorld RefGroup).applyAll referenceMls referenceSuite realWorldRun).1.clients[id.toNat]? =
            some c → ∀ room rs, (c.toModel referenceMls id).rooms room = some rs → rs.nextSendIndex < 2 ^ 32 :=
  have hsends : ((realWorldRun.map Prod.fst).filter Operation.isSend).length < 2 ^ 32 := by decide
  ⟨referenceMls_createsGroups, hsends,
    real_world_refines_models referenceMls referenceSuite referenceMls_createsGroups 3 realWorldRun hsends⟩

end Harness

end Kalandra
