import Kalandra.Client.Delivery

/-!
# Chain positions between key derivations

A position of a sender-key chain, an epoch, a leaf and a generation, fixes the message key and the
nonce prefix: a sender must use each once. `commit_of_proposal_reuses_generation` shows the client
using one twice, across a re-derivation of its keys at the same epoch. Between two derivations it
does not. While the client only sends, receives application messages and ticks, the frames it sends
for a room carry the keys' epoch, its own leaf, and generations that strictly increase.

The reason is the one behind `own_echo_rejected`: a send leaves the generation it used stale on the
client's own chain, nothing in traffic makes a stale generation fresh again, and the next send uses
the chain's current generation, which is past every stale one.
-/

namespace Kalandra

/-- The frames of a run's `Send` actions for one room, in order. -/
def sentFramesFor (room : RoomId) (results : List (Except ClientError (List ClientAction))) : List Frame :=
  (sentFrames results).filter (·.header.roomId == room)

theorem sentFramesFor_cons (room : RoomId) (x : Except ClientError (List ClientAction))
    (xs : List (Except ClientError (List ClientAction))) :
    sentFramesFor room (x :: xs) = sentFramesFor room [x] ++ sentFramesFor room xs := by
  simp only [sentFramesFor, sentFrames, List.flatMap_cons, List.flatMap_nil, List.append_nil,
    List.filter_append]

/-- A message the client sent from room state `rs`, as `rs` now stands: of its keys' epoch and its
leaf, with a nonce of 24 bytes, and at a generation stale on its own chain. -/
def RoomState.Sent {G : Type} (rs : RoomState G) (m : EncryptedMessage) : Prop :=
  m.epoch = rs.senderKeys.epoch ∧ m.senderIndex = rs.myLeafIndex ∧ m.nonce.length = 24 ∧
    rs.senderKeys.Stale rs.myLeafIndex m.generation

/-- Generations in the order the messages were sent. -/
def GenerationsIncrease (ms : List EncryptedMessage) : Prop := ms.Pairwise (·.generation < ·.generation)

namespace RoomState

variable {G : Type} (cs : CipherSuite)

theorem KeysStep.sent {a b : RoomState G} (h : KeysStep cs a b) {m : EncryptedMessage} (hm : a.Sent m) : b.Sent m := by
  obtain ⟨k₁, k₂, k₃, k₄⟩ := h.keeps cs
  obtain ⟨h₁, h₂, h₃, h₄⟩ := hm
  exact ⟨k₃ ▸ h₁, k₂ ▸ h₂, h₃, k₂ ▸ k₄ _ _ h₄⟩

theorem sent_of_reflTransGen {a b : RoomState G} (h : Relation.ReflTransGen (KeysStep cs) a b)
    {m : EncryptedMessage} (hm : a.Sent m) : b.Sent m :=
  KeysStep.invariant cs (fun hab => hab.sent cs) h hm

theorem sent_encrypt {rs : RoomState G} {p random : Bytes} {m : EncryptedMessage} {keys : SenderKeyStore}
    (h : rs.senderKeys.encrypt cs rs.myLeafIndex p random = .ok (m, keys)) (hrandom : random.length = 16) :
    ({ rs with senderKeys := keys } : RoomState G).Sent m ∧
      (∀ m', rs.Sent m' → ({ rs with senderKeys := keys } : RoomState G).Sent m') ∧
      ∀ m', rs.Sent m' → m'.generation < m.generation := by
  obtain ⟨c, hc, hm, hk⟩ := SenderKeyStore.encrypt_eq_ok cs h
  refine ⟨⟨by rw [hm, hk]; rfl, by rw [hm], by simp [hm, hrandom], SenderKeyStore.encrypt_stale cs h⟩,
    fun m' hm' => (KeysStep.encrypt h).sent cs hm', fun m' hm' => ?_⟩
  obtain ⟨-, -, -, d, hd, hlt, -⟩ := hm'
  rw [hc] at hd
  cases hd
  rw [hm]
  exact hlt

end RoomState

namespace Client

variable {G : Type} (A : MlsAdapter G) (cs : CipherSuite)

theorem sentFramesFor_handle_of_not_send {c : Client G} {event : ClientEvent} (he : event.isTraffic)
    (hsend : ∀ r p, event ≠ .sendMessage r p) (random : Bytes) (room : RoomId) :
    sentFramesFor room [(c.handle A cs random event).2] = [] := by
  cases event with
  | sendMessage r p => exact absurd rfl (hsend r p)
  | frameReceived frame =>
    simp only [ClientEvent.isTraffic, beq_iff_eq] at he
    rcases handleAppMessage_cases A cs c frame.header.roomId frame with ⟨e, h⟩ | ⟨_, _, _, _, -, -, -, -, h⟩ <;>
      simp only [handle, handleFrame_appMessage A cs he, h] <;> rfl
  | tick => rfl
  | _ => cases he

theorem handle_traffic_sends {c : Client G} {r : RoomId} {rs : RoomState G} (hr : c.rooms r = some rs)
    {event : ClientEvent} (he : event.isTraffic) (random : Bytes) :
    ∃ rs', (c.handle A cs random event).1.rooms r = some rs' ∧
      ((sentFramesFor r [(c.handle A cs random event).2] = [] ∧
          Relation.ReflTransGen (RoomState.KeysStep cs) rs rs') ∨
        ∃ p m keys, rs.senderKeys.encrypt cs rs.myLeafIndex p random = .ok (m, keys) ∧
          rs' = { rs with senderKeys := keys } ∧
          (sentFramesFor r [(c.handle A cs random event).2]).map Frame.payload = [serializeEncryptedMessage m]) := by
  obtain ⟨rs', h₁, hsteps⟩ := handle_traffic A cs hr he random
  by_cases hsend : ∃ room p, event = .sendMessage room p
  · obtain ⟨room, p, rfl⟩ := hsend
    rcases handleSendMessage_cases A cs c random room p with ⟨e, h⟩ | ⟨rs₀, m, keys, h₀, hk, h⟩ <;>
      simp only [handle, h] at h₁ ⊢
    · exact ⟨rs', h₁, .inl ⟨rfl, hsteps⟩⟩
    · by_cases hroom : r = room
      · subst hroom
        rw [hr] at h₀
        cases h₀
        have hrs : rs' = { rs with senderKeys := keys } := by
          rw [setRoom_rooms, if_pos rfl] at h₁
          exact (Option.some.inj h₁).symm
        exact ⟨rs', h₁, .inr ⟨p, m, keys, hk, hrs, by simp [sentFramesFor, sentFrames]⟩⟩
      · exact ⟨rs', h₁, .inl ⟨by simp [sentFramesFor, sentFrames, Ne.symm hroom], hsteps⟩⟩
  · push_neg at hsend
    exact ⟨rs', h₁, .inl ⟨sentFramesFor_handle_of_not_send A cs he hsend random r, hsteps⟩⟩

theorem run_traffic_sends {r : RoomId} (events : List (ClientEvent × Bytes))
    (htraffic : ∀ e ∈ events, e.1.isTraffic) (hrandom : ∀ e ∈ events, e.2.length = 16) :
    ∀ {c : Client G} {rs : RoomState G}, c.rooms r = some rs →
      ∀ sent : List EncryptedMessage, (∀ m ∈ sent, rs.Sent m) → GenerationsIncrease sent →
        ∃ rs' ms, (c.run A cs events).1.rooms r = some rs' ∧
          (sentFramesFor r (c.run A cs events).2).map Frame.payload = ms.map serializeEncryptedMessage ∧
          (∀ m ∈ sent ++ ms, rs'.Sent m) ∧ GenerationsIncrease (sent ++ ms) := by
  induction events with
  | nil => exact fun {c rs} hr sent hsent hinc => ⟨rs, [], hr, rfl, by simpa using hsent, by simpa using hinc⟩
  | cons e events ih =>
    intro c rs hr sent hsent hinc
    have ht : ∀ e' ∈ events, e'.1.isTraffic := fun e' he' => htraffic e' (List.mem_cons_of_mem _ he')
    have hrand : ∀ e' ∈ events, e'.2.length = 16 := fun e' he' => hrandom e' (List.mem_cons_of_mem _ he')
    obtain ⟨rs₁, h₁, ⟨hnone, hsteps⟩ | ⟨p, m, keys, hk, rfl, hframe⟩⟩ :=
      handle_traffic_sends A cs hr (htraffic e (List.mem_cons_self _ _)) e.2
    · obtain ⟨rs', ms, h', hframes, hsent', hinc'⟩ :=
        ih ht hrand h₁ sent (fun m hm => RoomState.sent_of_reflTransGen cs hsteps (hsent m hm)) hinc
      refine ⟨rs', ms, h', ?_, hsent', hinc'⟩
      rw [run_cons, sentFramesFor_cons, hnone, List.nil_append, hframes]
    · obtain ⟨hnew, hkeep, hpast⟩ := RoomState.sent_encrypt cs hk (hrandom e (List.mem_cons_self _ _))
      have hinc₁ : GenerationsIncrease (sent ++ [m]) :=
        List.pairwise_append.mpr ⟨hinc, List.pairwise_singleton _ _,
          fun a ha b hb => (List.mem_singleton.mp hb) ▸ hpast a (hsent a ha)⟩
      obtain ⟨rs', ms, h', hframes, hsent', hinc'⟩ := ih ht hrand h₁ (sent ++ [m])
        (fun m' hm' => by
          rcases List.mem_append.mp hm' with hm' | hm'
          · exact hkeep m' (hsent m' hm')
          · exact (List.mem_singleton.mp hm') ▸ hnew)
        hinc₁
      refine ⟨rs', m :: ms, h', ?_, by simpa using hsent', by simpa using hinc'⟩
      rw [run_cons, sentFramesFor_cons, List.map_append, hframe, hframes]
      rfl

theorem handle_traffic_absent {c : Client G} {r : RoomId} (hr : c.rooms r = none) {event : ClientEvent}
    (he : event.isTraffic) (random : Bytes) :
    (c.handle A cs random event).1.rooms r = none ∧ sentFramesFor r [(c.handle A cs random event).2] = [] := by
  cases event with
  | sendMessage room p =>
    rcases handleSendMessage_cases A cs c random room p with ⟨e, h⟩ | ⟨rs₀, m, keys, h₀, -, h⟩ <;>
      simp only [handle, h]
    · exact ⟨hr, rfl⟩
    · have hroom : r ≠ room := fun h => by rw [h, h₀] at hr; cases hr
      exact ⟨by rw [setRoom_rooms, if_neg hroom, hr], by simp [sentFramesFor, sentFrames, Ne.symm hroom]⟩
  | frameReceived frame =>
    refine ⟨?_, sentFramesFor_handle_of_not_send A cs he (fun _ _ => nofun) random r⟩
    simp only [ClientEvent.isTraffic, beq_iff_eq] at he
    rcases handleAppMessage_cases A cs c frame.header.roomId frame with ⟨e, h⟩ | ⟨rs₀, _, _, _, h₀, -, -, -, h⟩ <;>
      simp only [handle, handleFrame_appMessage A cs he, h]
    · exact hr
    · have hroom : r ≠ frame.header.roomId := fun h => by rw [h, h₀] at hr; cases hr
      rw [setRoom_rooms, if_neg hroom, hr]
  | tick => exact ⟨hr, rfl⟩
  | _ => cases he

theorem run_traffic_absent {r : RoomId} (events : List (ClientEvent × Bytes))
    (htraffic : ∀ e ∈ events, e.1.isTraffic) :
    ∀ {c : Client G}, c.rooms r = none →
      (c.run A cs events).1.rooms r = none ∧ sentFramesFor r (c.run A cs events).2 = [] := by
  induction events with
  | nil => exact fun hr => ⟨hr, rfl⟩
  | cons e events ih =>
    intro c hr
    obtain ⟨h₁, hnone⟩ := handle_traffic_absent A cs hr (htraffic e (List.mem_cons_self _ _)) e.2
    obtain ⟨h', hframes⟩ := ih (fun e' he' => htraffic e' (List.mem_cons_of_mem _ he')) h₁
    exact ⟨h', by rw [run_cons, sentFramesFor_cons, hnone, hframes]; rfl⟩

theorem payloadPosition_of_sent {rs : RoomState G} (hfit : rs.FitsWire) {m : EncryptedMessage} (hm : rs.Sent m)
    (header : FrameHeader) :
    payloadPosition ⟨header, serializeEncryptedMessage m⟩ = some (m.epoch, m.senderIndex, m.generation, m.nonce) := by
  obtain ⟨hE, hL, hG⟩ := hfit
  obtain ⟨he, hl, hn, c, hc, hlt, -⟩ := hm
  have hgen : c.generation < 2 ^ 32 := by simpa [SenderKeyStore.generation, hc] using hG
  simp only [payloadPosition, deserialize_serialize_eq m hn, Except.toOption, Option.map_some']
  rw [Nat.mod_eq_of_lt (he ▸ hE), Nat.mod_eq_of_lt (hl ▸ hL), Nat.mod_eq_of_lt (by omega)]

/-- A run of sends, `AppMessage` frames and ticks sends frames for a room at one epoch and one leaf
with strictly increasing generations, when the room's numbers fit the wire as the run ends. -/
theorem traffic_never_reuses_position (c : Client G) (r : RoomId) (events : List (ClientEvent × Bytes))
    (htraffic : ∀ e ∈ events, e.1.isTraffic) (hrandom : ∀ e ∈ events, e.2.length = 16)
    (hfit : ∀ rs ∈ (c.run A cs events).1.rooms r, rs.FitsWire) :
    (sentFramesFor r (c.run A cs events).2).Pairwise fun f f' =>
      ∃ epoch leaf g nonce g' nonce', payloadPosition f = some (epoch, leaf, g, nonce) ∧
        payloadPosition f' = some (epoch, leaf, g', nonce') ∧ g < g' := by
  rcases hr : c.rooms r with _ | rs
  · rw [(run_traffic_absent A cs events htraffic hr).2]
    exact List.Pairwise.nil
  · obtain ⟨rs', ms, h', hframes, hsent, hinc⟩ :=
      run_traffic_sends A cs events htraffic hrandom hr [] (fun _ => nofun) List.Pairwise.nil
    have hpos : ∀ f ∈ sentFramesFor r (c.run A cs events).2, ∃ m ∈ ms, f.payload = serializeEncryptedMessage m := by
      intro f hf
      have : f.payload ∈ ms.map serializeEncryptedMessage := hframes ▸ List.mem_map_of_mem _ hf
      simpa [eq_comm] using this
    have hread : ∀ m ∈ ms, ∀ header,
        payloadPosition ⟨header, serializeEncryptedMessage m⟩ = some (m.epoch, m.senderIndex, m.generation, m.nonce) :=
      fun m hm => payloadPosition_of_sent (hfit rs' h') (hsent m (by simpa using hm))
    have hpairs : (ms.map serializeEncryptedMessage).Pairwise fun p p' =>
        ∃ epoch leaf g nonce g' nonce', payloadPosition ⟨FrameHeader.new .appMessage, p⟩ = some (epoch, leaf, g, nonce) ∧
          payloadPosition ⟨FrameHeader.new .appMessage, p'⟩ = some (epoch, leaf, g', nonce') ∧ g < g' := by
      rw [List.pairwise_map]
      refine (show GenerationsIncrease ms by simpa using hinc).imp_of_mem fun {m m'} hm hm' hlt => ?_
      obtain ⟨he, hl, -⟩ := hsent m (by simpa using hm)
      obtain ⟨he', hl', -⟩ := hsent m' (by simpa using hm')
      exact ⟨m.epoch, m.senderIndex, m.generation, m.nonce, m'.generation, m'.nonce, hread m hm _,
        by rw [hread m' hm', he, he', hl, hl'], hlt⟩
    rw [← hframes, List.pairwise_map] at hpairs
    exact hpairs.imp fun h => h

end Client

/-- The creator of room 1 sends two messages: they are at generations 0 and 1 of its chain. -/
theorem creator_sends_at_new_generations :
    (∀ e ∈ [((.sendMessage 1 [104, 105] : ClientEvent), testEnvRandom), (.sendMessage 1 [121, 111], testEnvRandom)],
        e.1.isTraffic) ∧
      (∀ e ∈ [((.sendMessage 1 [104, 105] : ClientEvent), testEnvRandom), (.sendMessage 1 [121, 111], testEnvRandom)],
        e.2.length = 16) ∧
      (∀ rs ∈ (creatorClient.run referenceMls referenceSuite
          [(.sendMessage 1 [104, 105], testEnvRandom), (.sendMessage 1 [121, 111], testEnvRandom)]).1.rooms 1,
        rs.FitsWire) ∧
      (sentFramesFor 1 (creatorClient.run referenceMls referenceSuite
          [(.sendMessage 1 [104, 105], testEnvRandom), (.sendMessage 1 [121, 111], testEnvRandom)]).2).Pairwise
        fun f f' => ∃ epoch leaf g nonce g' nonce', payloadPosition f = some (epoch, leaf, g, nonce) ∧
          payloadPosition f' = some (epoch, leaf, g', nonce') ∧ g < g' :=
  ⟨by decide, by decide, by decide,
    Client.traffic_never_reuses_position referenceMls referenceSuite creatorClient 1 _ (by decide) (by decide)
      (by decide)⟩

end Kalandra
