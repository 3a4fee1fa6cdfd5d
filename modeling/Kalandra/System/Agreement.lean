import Kalandra.System.EndToEnd
import Kalandra.Server.Broadcast
/-!
# Members agree on who sent each index

A member delivers an application message under the room, sender and log index of the frame that
carried it, and receives its frames from the server's broadcasts. Within one lifetime of the server a
room's broadcasts carry increasing indices, so one index of a room is one frame. Hence any two
members, whatever their keys, that deliver a message of room `r` at index `i` deliver it under one
sender (`members_agree_on_senders`).

The exception is room 0. `convert_mls_actions` delivers the MLS layer's own messages under room 0
and index 0, whatever their room (`mls_delivery_names_room_zero`), so deliveries "of room 0 at index
0" need not come from one frame.
-/

namespace Kalandra

theorem deliveredAt_cons (x : Except ClientError (List ClientAction)) (xs : List (Except ClientError (List ClientAction))) :
    deliveredAt (x :: xs) = deliveredAt [x] ++ deliveredAt xs := by
  simp [deliveredAt]

theorem deliveredAt_convertMlsActions (acts : List MlsAction) {extra : List ClientAction}
    (hextra : deliveredAt [.ok extra] = []) : ∀ d ∈ deliveredAt [.ok (convertMlsActions acts ++ extra)], d.1 = 0 := by
  simp only [deliveredAt, List.flatMap_cons, List.flatMap_nil, List.append_nil, List.filterMap_append] at hextra ⊢
  rw [hextra, List.append_nil]
  intro d hd
  obtain ⟨a, ha, hd⟩ := List.mem_filterMap.mp hd
  obtain ⟨m, -, rfl⟩ := List.mem_map.mp ha
  cases m <;> simp only [convertMlsActions, Option.some.injEq, reduceCtorEq] at hd
  exact hd ▸ rfl

namespace Client

variable {G : Type} (A : MlsAdapter G) (cs : CipherSuite)

theorem handle_deliveredAt (c : Client G) (random : Bytes) (event : ClientEvent) :
    ∀ d ∈ deliveredAt [(c.handle A cs random event).2], d.1 = 0 ∨
      ∃ f, event = .frameReceived f ∧ d.1 = f.header.roomId ∧ d.2.1 = f.header.senderId ∧ d.2.2.2 = f.header.logIndex := by
  cases event <;>
    simp only [handle, handleCreateRoom, handleSendMessage, handleFrame, handleAppMessage, handleCommit,
      handleWelcome, handleJoinRoom, handleLeaveRoom, handleAddMembers] <;>
    repeat' split
  all_goals intro d hd
  all_goals first
    | exact .inl (deliveredAt_convertMlsActions _ (by rfl) d hd)
    | exact .inl (@deliveredAt_convertMlsActions _ [] rfl d (by rwa [List.append_nil]))
    | exact .inr ⟨_, rfl, (List.mem_singleton.mp hd).symm ▸ ⟨rfl, rfl, rfl⟩⟩
    | exact absurd hd (by simp [deliveredAt])

theorem run_deliveredAt (c : Client G) (events : List (ClientEvent × Bytes)) :
    ∀ d ∈ deliveredAt (c.run A cs events).2, d.1 = 0 ∨
      ∃ f random, (.frameReceived f, random) ∈ events ∧ d.1 = f.header.roomId ∧ d.2.1 = f.header.senderId ∧
        d.2.2.2 = f.header.logIndex := by
  induction events generalizing c with
  | nil => exact fun _ => nofun
  | cons p events ih =>
    intro d hd
    rw [run_cons, deliveredAt_cons] at hd
    rcases List.mem_append.mp hd with hd | hd
    · rcases handle_deliveredAt A cs c p.2 p.1 d hd with h0 | ⟨f, hf, hroom, hsender, hindex⟩
      · exact .inl h0
      · exact .inr ⟨f, p.2, hf ▸ List.mem_cons_self _ _, hroom, hsender, hindex⟩
    · rcases ih _ d hd with h0 | ⟨f, random, hmem, hroom, hsender, hindex⟩
      · exact .inl h0
      · exact .inr ⟨f, random, List.mem_cons_of_mem _ hmem, hroom, hsender, hindex⟩

end Client

variable {G : Type} (A : MlsAdapter G) (V : SignatureValidator) (cs : CipherSuite)

/-- Two members that receive only frames the server broadcast in one run deliver every message of a
room other than 0 at a given log index under one sender. -/
theorem members_agree_on_senders (w : World G) (ops : List Operation) {c₁ c₂ : Client G}
    {events₁ events₂ : List (ClientEvent × Bytes)}
    (h₁ : ∀ f random, (.frameReceived f, random) ∈ events₁ → ∃ room, f ∈ broadcastFrames room (w.run A V ops).2)
    (h₂ : ∀ f random, (.frameReceived f, random) ∈ events₂ → ∃ room, f ∈ broadcastFrames room (w.run A V ops).2)
    {r : RoomId} (hr : r ≠ 0) {s₁ s₂ : MemberId} {p₁ p₂ : Bytes} {i : Nat}
    (hd₁ : (r, s₁, p₁, i) ∈ deliveredAt (c₁.run A cs events₁).2)
    (hd₂ : (r, s₂, p₂, i) ∈ deliveredAt (c₂.run A cs events₂).2) :
    s₁ = s₂ := by
  obtain h0 | ⟨f₁, random₁, hm₁, hroom₁, rfl, hi₁⟩ := Client.run_deliveredAt A cs c₁ events₁ _ hd₁
  · exact absurd h0 hr
  obtain h0 | ⟨f₂, random₂, hm₂, hroom₂, rfl, hi₂⟩ := Client.run_deliveredAt A cs c₂ events₂ _ hd₂
  · exact absurd h0 hr
  obtain ⟨room₁, hb₁⟩ := h₁ f₁ random₁ hm₁
  obtain ⟨room₂, hb₂⟩ := h₂ f₂ random₂ hm₂
  -- a broadcast frame is of the room it was broadcast to, so both frames are of room `r`
  obtain rfl := ((World.run_broadcasts A V ops room₁ (w := w)).2 f₁ hb₁).1
  obtain rfl := ((World.run_broadcasts A V ops room₂ (w := w)).2 f₂ hb₂).1
  dsimp only at hroom₁ hroom₂ hi₁ hi₂
  rw [← hroom₁] at hb₁
  rw [← hroom₂] at hb₂
  exact congrArg (·.header.senderId)
    ((World.run_broadcasts A V ops r (w := w)).1.eq_of_logIndex hb₁ hb₂ (hi₁.symm.trans hi₂))


/-- The server holding room 1 after it processed the creator's two messages. -/
def relayServer : World RefGroup × List RoomAction :=
  serverWithRoom1.run referenceMls acceptAll
    ((sentFrames (creatorClient.run referenceMls referenceSuite (sendEvents 1 twoMessages)).2).map (.processFrame · 0))

/-- Room 1's broadcasts of the relay, received in order. -/
def relayEvents : List (ClientEvent × Bytes) :=
  (broadcastFrames 1 relayServer.2).map fun f => (.frameReceived f, testEnvRandom)

theorem relayEvents_broadcast {f : Frame} {random : Bytes} {n : Nat}
    (h : (.frameReceived f, random) ∈ relayEvents.drop n) : ∃ room, f ∈ broadcastFrames room relayServer.2 := by
  obtain ⟨f', hf', heq⟩ := List.mem_map.mp (List.mem_of_mem_drop h)
  cases heq
  exact ⟨1, hf'⟩

set_option maxRecDepth 20000 in
/-- The creator's earlier state receives all of the relay's broadcasts, and again only the second: both
deliver the second message at index 1 of room 1, under member 42. -/
theorem relayed_message_senders_agree :
    (∀ f random, (.frameReceived f, random) ∈ relayEvents → ∃ room, f ∈ broadcastFrames room relayServer.2) ∧
      (∀ f random, (.frameReceived f, random) ∈ relayEvents.drop 1 → ∃ room, f ∈ broadcastFrames room relayServer.2) ∧
      (1 : RoomId) ≠ 0 ∧
      ((1 : RoomId), (42 : MemberId), ([121, 111] : Bytes), 1) ∈
        deliveredAt (creatorClient.run referenceMls referenceSuite relayEvents).2 ∧
      ((1 : RoomId), (42 : MemberId), ([121, 111] : Bytes), 1) ∈
        deliveredAt (creatorClient.run referenceMls referenceSuite (relayEvents.drop 1)).2 ∧
      (42 : MemberId) = 42 :=
  have h₁ : ∀ f random, (.frameReceived f, random) ∈ relayEvents → ∃ room, f ∈ broadcastFrames room relayServer.2 :=
    fun _ _ h => relayEvents_broadcast (n := 0) h
  have h₂ : ∀ f random, (.frameReceived f, random) ∈ relayEvents.drop 1 → ∃ room, f ∈ broadcastFrames room relayServer.2 :=
    fun _ _ => relayEvents_broadcast
  have hd₁ : ((1 : RoomId), (42 : MemberId), ([121, 111] : Bytes), 1) ∈
      deliveredAt (creatorClient.run referenceMls referenceSuite relayEvents).2 := by decide
  have hd₂ : ((1 : RoomId), (42 : MemberId), ([121, 111] : Bytes), 1) ∈
      deliveredAt (creatorClient.run referenceMls referenceSuite (relayEvents.drop 1)).2 := by decide
  ⟨h₁, h₂, by decide, hd₁, hd₂, members_agree_on_senders referenceMls acceptAll referenceSuite _ _ h₁ h₂ (by decide) hd₁ hd₂⟩

end Kalandra
