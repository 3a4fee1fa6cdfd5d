import Kalandra.Client.Keys
/-!
# The client's rooms do not interfere

The client keeps one state per room. Each event names one room (a frame's is its header's), and
`handle` reads of the client only that room's state and the identity, and writes only that room.
A tick and a join name no room and change nothing. So what a run does to a room, and what it returns
for the room's events, are what the room's events alone do and return. This holds from any client
that holds the same of the room under the same identity (`run_restricted_to_room_events`).
The actions returned need not name the room: `convert_mls_actions` gives the MLS layer's own
deliveries room 0 (`mls_delivery_names_room_zero`). They are the ones the room's events alone return.
-/

namespace Kalandra

/-- The room an event acts on: a frame's is its header's; a tick and a join name none. -/
def ClientEvent.roomId : ClientEvent → Option RoomId
  | .createRoom room | .sendMessage room _ | .leaveRoom room | .addMembers room _ => some room
  | .frameReceived frame => some frame.header.roomId
  | .tick _ | .joinRoom _ _ => none

namespace Client

variable {G : Type} (A : MlsAdapter G) (cs : CipherSuite)

/-- Two clients of one identity hold the same state for room `r`. -/
structure AgreeOn (c c' : Client G) (r : RoomId) : Prop where
  identity : c.identity = c'.identity
  rooms : c.rooms r = c'.rooms r

theorem AgreeOn.refl (c : Client G) (r : RoomId) : c.AgreeOn c r := ⟨rfl, rfl⟩

theorem AgreeOn.trans {c₁ c₂ c₃ : Client G} {r : RoomId} (h₁ : c₁.AgreeOn c₂ r) (h₂ : c₂.AgreeOn c₃ r) :
    c₁.AgreeOn c₃ r :=
  ⟨h₁.identity.trans h₂.identity, h₁.rooms.trans h₂.rooms⟩

theorem AgreeOn.setRoom {c c' : Client G} {r : RoomId} (h : c.AgreeOn c' r) (room : RoomId) (rs : RoomState G) :
    (c.setRoom room rs).AgreeOn (c'.setRoom room rs) r :=
  ⟨h.identity, by simp only [setRoom_rooms, h.rooms]⟩

theorem handle_agreeOn_of_ne (c : Client G) (random : Bytes) {event : ClientEvent} {r : RoomId}
    (hr : event.roomId ≠ some r) : (c.handle A cs random event).1.AgreeOn c r := by
  have hne : ∀ {room}, some room ≠ some r → room ≠ r := fun h h' => h (congrArg some h')
  cases event <;>
    simp only [handle, handleCreateRoom, handleSendMessage, handleFrame, handleAppMessage, handleCommit,
      handleWelcome, handleJoinRoom, handleLeaveRoom, handleAddMembers] <;>
    repeat' split
  all_goals first
    | exact AgreeOn.refl c r
    | exact ⟨rfl, by rw [setRoom_rooms, if_neg (Ne.symm (hne hr))]⟩
    | exact ⟨rfl, Function.update_noteq (Ne.symm (hne hr)) _ _⟩

theorem handle_congr {c c' : Client G} {r : RoomId} (h : c.AgreeOn c' r) (random : Bytes) {event : ClientEvent}
    (hr : event.roomId = some r) :
    (c.handle A cs random event).1.AgreeOn (c'.handle A cs random event).1 r ∧
      (c.handle A cs random event).2 = (c'.handle A cs random event).2 := by
  cases event <;> cases hr <;>
    simp only [handle, handleCreateRoom, handleSendMessage, handleFrame, handleAppMessage, handleCommit,
      handleWelcome, handleLeaveRoom, handleAddMembers, h.rooms, h.identity] <;>
    repeat' split
  all_goals first | exact ⟨h, rfl⟩ | exact ⟨h.setRoom _ _, rfl⟩ | exact ⟨⟨rfl, by simp⟩, rfl⟩

/-- What a run does to a room, and what it returns for the room's events, are what the room's events
alone do and return, from any client that holds the same of the room under the same identity. -/
theorem run_restricted_to_room_events (r : RoomId) (events : List (ClientEvent × Bytes)) :
    ∀ {c c' : Client G}, c.AgreeOn c' r →
      (c.run A cs events).1.AgreeOn (c'.run A cs (events.filter (·.1.roomId = some r))).1 r ∧
        ((events.zip (c.run A cs events).2).filter (·.1.1.roomId = some r)).map Prod.snd =
          (c'.run A cs (events.filter (·.1.roomId = some r))).2 := by
  induction events with
  | nil => exact fun h => ⟨h, rfl⟩
  | cons p events ih =>
    intro c c' h
    obtain ⟨event, random⟩ := p
    by_cases hr : event.roomId = some r
    · obtain ⟨hc, hres⟩ := handle_congr A cs h random hr
      obtain ⟨hrun, hrest⟩ := ih hc
      simp only [List.filter_cons, hr, decide_True, if_true, run_cons, List.zip_cons_cons, List.map_cons, hres, hrest]
      exact ⟨hrun, trivial⟩
    · obtain ⟨hrun, hrest⟩ := ih ((handle_agreeOn_of_ne A cs c random hr).trans h)
      simp only [List.filter_cons, hr, decide_False, if_false, Bool.false_eq_true, run_cons, List.zip_cons_cons,
        hrest]
      exact ⟨hrun, trivial⟩

end Client

/-- Member 42 creates rooms 1 and 2, sends to room 2, then to room 1: room 1's state and results are
those of its own two events. -/
def twoRoomEvents : List (ClientEvent × Bytes) :=
  [(.createRoom 1, []), (.createRoom 2, []), (.sendMessage 2 [104, 105], testEnvRandom),
    (.sendMessage 1 [121, 111], testEnvRandom)]

theorem two_room_client_run_restricted :
    (Client.new 42 : Client RefGroup).AgreeOn (Client.new 42) 1 ∧
      ((Client.new 42 : Client RefGroup).run referenceMls referenceSuite twoRoomEvents).1.AgreeOn
        ((Client.new 42 : Client RefGroup).run referenceMls referenceSuite (twoRoomEvents.filter (·.1.roomId = some 1))).1 1 ∧
      ((twoRoomEvents.zip ((Client.new 42 : Client RefGroup).run referenceMls referenceSuite twoRoomEvents).2).filter
          (·.1.1.roomId = some 1)).map Prod.snd =
        ((Client.new 42 : Client RefGroup).run referenceMls referenceSuite (twoRoomEvents.filter (·.1.roomId = some 1))).2 :=
  ⟨Client.AgreeOn.refl _ _, Client.run_restricted_to_room_events referenceMls referenceSuite 1 twoRoomEvents (Client.AgreeOn.refl _ _)⟩

end Kalandra
