import Kalandra.Server.Epochs

/-!
# Rooms do not interfere

The room manager keeps everything per room: a group and metadata, and a sequencer entry; storage
keeps per room a log and a stored state. Each operation names one room, reads only that room's part
of the manager and the storage, and writes only that part, and the actions it returns name that
room. So what a run does to a room, and the actions it returns for the room, are those of the run's
operations on that room alone, started from any world that holds the same of the room
(`run_restricted_to_room`). A frame of one room never moves another room's log index, group or
stored frames.
-/

namespace Kalandra

/-- The room an operation acts on. -/
def Operation.roomId : Operation → RoomId
  | .createRoom room .. | .addMembers room _ | .removeMembers room _ | .leaveRoom room => room
  | .handleSyncRequest room .. => room
  | .processFrame frame _ => frame.header.roomId

/-- The room an action names; a rejection names only its sender. -/
def RoomAction.namedRoom : RoomAction → Option RoomId
  | .broadcast room .. | .persistFrame room .. | .persistMlsState room .. => some room
  | .sendSyncResponse _ room .. => some room
  | .reject .. => none

/-! ### Holding the same of a room -/

/-- Two storages hold the same log and stored state for room `r`. -/
structure MemoryStorage.AgreeOn (s s' : MemoryStorage) (r : RoomId) : Prop where
  frames : s.frames r = s'.frames r
  mlsStates : s.mlsStates r = s'.mlsStates r

/-- Two managers hold the same group, metadata and sequencer entry for room `r`. -/
structure RoomManager.AgreeOn {G : Type} (rm rm' : RoomManager G) (r : RoomId) : Prop where
  groups : rm.groups r = rm'.groups r
  roomMetadata : rm.roomMetadata r = rm'.roomMetadata r
  sequencer : rm.sequencer.rooms r = rm'.sequencer.rooms r

/-- Two worlds hold the same of room `r`. -/
structure World.AgreeOn {G : Type} (w w' : World G) (r : RoomId) : Prop where
  manager : w.manager.AgreeOn w'.manager r
  storage : w.storage.AgreeOn w'.storage r

theorem MemoryStorage.AgreeOn.trans {s₁ s₂ s₃ : MemoryStorage} {r : RoomId} (h₁ : s₁.AgreeOn s₂ r)
    (h₂ : s₂.AgreeOn s₃ r) : s₁.AgreeOn s₃ r :=
  ⟨h₁.frames.trans h₂.frames, h₁.mlsStates.trans h₂.mlsStates⟩

theorem RoomManager.AgreeOn.trans {G : Type} {rm₁ rm₂ rm₃ : RoomManager G} {r : RoomId}
    (h₁ : rm₁.AgreeOn rm₂ r) (h₂ : rm₂.AgreeOn rm₃ r) : rm₁.AgreeOn rm₃ r :=
  ⟨h₁.groups.trans h₂.groups, h₁.roomMetadata.trans h₂.roomMetadata, h₁.sequencer.trans h₂.sequencer⟩

theorem World.AgreeOn.refl {G : Type} (w : World G) (r : RoomId) : w.AgreeOn w r :=
  ⟨⟨rfl, rfl, rfl⟩, ⟨rfl, rfl⟩⟩

theorem World.AgreeOn.trans {G : Type} {w₁ w₂ w₃ : World G} {r : RoomId} (h₁ : w₁.AgreeOn w₂ r)
    (h₂ : w₂.AgreeOn w₃ r) : w₁.AgreeOn w₃ r :=
  ⟨h₁.manager.trans h₂.manager, h₁.storage.trans h₂.storage⟩

/-! ### Storage -/

namespace RoomAction

theorem execute_agreeOn_of_ne (s : MemoryStorage) {r : RoomId} {a : RoomAction} (ha : a.namedRoom ≠ some r) :
    (a.execute s).AgreeOn s r := by
  cases a with
  | persistFrame room i f t =>
    have hr : room ≠ r := fun h => ha (by rw [h]; rfl)
    refine ⟨?_, ?_⟩ <;> simp only [execute, MemoryStorage.storeFrame] <;> split_ifs <;>
      simp [Function.update_noteq (Ne.symm hr)]
  | persistMlsState room st t =>
    have hr : room ≠ r := fun h => ha (by rw [h]; rfl)
    exact ⟨rfl, by simp [execute, MemoryStorage.storeMlsState, Function.update_noteq (Ne.symm hr)]⟩
  | _ => exact ⟨rfl, rfl⟩

theorem execute_congr {s s' : MemoryStorage} {r : RoomId} (h : s.AgreeOn s' r) (a : RoomAction) :
    (a.execute s).AgreeOn (a.execute s') r := by
  refine ⟨by rw [execute_frames, execute_frames, h.frames], ?_⟩
  cases a with
  | persistFrame room i f t =>
    simp only [execute, MemoryStorage.storeFrame]
    split_ifs <;> exact h.mlsStates
  | persistMlsState room st t =>
    simp only [execute, MemoryStorage.storeMlsState, Function.update_apply, h.mlsStates]
  | _ => exact h.mlsStates

end RoomAction

theorem executeActions_agreeOn_of_ne (r : RoomId) (actions : List RoomAction)
    (ha : ∀ a ∈ actions, a.namedRoom ≠ some r) (s : MemoryStorage) : (executeActions s actions).AgreeOn s r := by
  induction actions generalizing s with
  | nil => exact ⟨rfl, rfl⟩
  | cons a actions ih =>
    exact (ih (fun b hb => ha b (List.mem_cons_of_mem _ hb)) _).trans
      (RoomAction.execute_agreeOn_of_ne s (ha a (List.mem_cons_self _ _)))

theorem executeActions_congr {s s' : MemoryStorage} {r : RoomId} (h : s.AgreeOn s' r) (actions : List RoomAction) :
    (executeActions s actions).AgreeOn (executeActions s' actions) r := by
  induction actions generalizing s s' with
  | nil => exact h
  | cons a actions ih => exact ih (RoomAction.execute_congr h a)

/-! ### The room manager -/

namespace RoomManager

variable {G : Type} (A : MlsAdapter G) (V : SignatureValidator)

theorem createRoom_agreeOn_of_ne (rm : RoomManager G) {room r : RoomId} (hr : room ≠ r) (creator now : Nat) :
    (rm.createRoom A room creator now).1.AgreeOn rm r := by
  unfold createRoom
  split
  · exact ⟨rfl, rfl, rfl⟩
  · split
    · exact ⟨rfl, rfl, rfl⟩
    · exact ⟨by simp [setGroup_groups, Ne.symm hr], by simp [Function.update_noteq (Ne.symm hr)], rfl⟩

theorem createRoom_congr {rm rm' : RoomManager G} {room : RoomId} (h : rm.AgreeOn rm' room) (creator now : Nat) :
    (rm.createRoom A room creator now).1.AgreeOn (rm'.createRoom A room creator now).1 room ∧
      (rm.createRoom A room creator now).2 = (rm'.createRoom A room creator now).2 := by
  simp only [createRoom, hasRoom, h.roomMetadata]
  split
  · exact ⟨h, rfl⟩
  · split
    · exact ⟨h, rfl⟩
    · exact ⟨⟨by simp [setGroup_groups], by simp, h.sequencer⟩, rfl⟩

theorem withGroup_agreeOn_of_ne (rm : RoomManager G) {room r : RoomId} (hr : room ≠ r)
    (op : G → Except MlsError (List MlsAction × G)) : (rm.withGroup room op).1.AgreeOn rm r := by
  unfold withGroup
  split
  · exact ⟨rfl, rfl, rfl⟩
  · split
    · exact ⟨rfl, rfl, rfl⟩
    · exact ⟨by simp [setGroup_groups, Ne.symm hr], rfl, rfl⟩

theorem withGroup_congr {rm rm' : RoomManager G} {room : RoomId} (h : rm.AgreeOn rm' room)
    (op : G → Except MlsError (List MlsAction × G)) :
    (rm.withGroup room op).1.AgreeOn (rm'.withGroup room op).1 room ∧
      (rm.withGroup room op).2 = (rm'.withGroup room op).2 := by
  simp only [withGroup, h.groups]
  split
  · exact ⟨h, rfl⟩
  · split
    · exact ⟨h, rfl⟩
    · exact ⟨⟨by simp [setGroup_groups], h.roomMetadata, h.sequencer⟩, rfl⟩

theorem processFrame_namedRoom {rm : RoomManager G} {frame : Frame} {now : Nat} {storage : MemoryStorage}
    {actions : List RoomAction} (h : (rm.processFrame A V frame now storage).2 = .ok actions) :
    ∀ a ∈ actions, a.namedRoom = some frame.header.roomId := by
  obtain ⟨-, -, -, -, extra, rfl, hextra⟩ := processFrame_ok A V h
  intro a ha
  rcases List.mem_append.mp ha with ha | ha
  · simp only [Sequencer.processFrame_snd, List.map_cons, List.map_nil, List.mem_cons,
      List.not_mem_nil, or_false] at ha
    rcases ha with rfl | rfl | rfl <;> rfl
  · obtain ⟨st, rfl⟩ := hextra a ha
    rfl

theorem processFrame_agreeOn_of_ne (rm : RoomManager G) {frame : Frame} {r : RoomId}
    (hr : frame.header.roomId ≠ r) (now : Nat) (storage : MemoryStorage) :
    (rm.processFrame A V frame now storage).1.AgreeOn rm r := by
  refine ⟨?_, by rw [processFrame_roomMetadata], ?_⟩
  · rcases processFrame_groups A V rm frame now storage with h | ⟨g, g', -, -, -, h⟩ <;> rw [h]
    exact Function.update_noteq (Ne.symm hr) _ _
  · by_cases ha : rm.Admits A frame storage
    · rw [processFrame_sequencer_of_admits A V ha]
      exact Function.update_noteq (Ne.symm hr) _ _
    · rw [processFrame_of_not_admits A V ha]

theorem processFrame_congr {rm rm' : RoomManager G} {s s' : MemoryStorage} {frame : Frame}
    (h : rm.AgreeOn rm' frame.header.roomId) (hs : s.AgreeOn s' frame.header.roomId) (now : Nat) :
    (rm.processFrame A V frame now s).1.AgreeOn (rm'.processFrame A V frame now s').1 frame.header.roomId ∧
      (rm.processFrame A V frame now s).2 = (rm'.processFrame A V frame now s').2 := by
  have hn : rm.sequencer.nextLogIndex s frame.header.roomId = rm'.sequencer.nextLogIndex s' frame.header.roomId := by
    simp only [Sequencer.nextLogIndex, h.sequencer, MemoryStorage.latestLogIndex, hs.frames]
  simp only [processFrame, MemoryStorage.loadMlsState, h.groups, hs.mlsStates, Sequencer.processFrame_snd, hn]
  split
  · exact ⟨h, rfl⟩
  · split
    · exact ⟨h, rfl⟩
    · have hq : RoomManager.AgreeOn { rm with sequencer := (rm.sequencer.processFrame frame s now).1 }
          { rm' with sequencer := (rm'.sequencer.processFrame frame s' now).1 } frame.header.roomId :=
        ⟨h.groups, h.roomMetadata, by simp [Sequencer.processFrame, hn]⟩
      split
      · exact ⟨hq, rfl⟩
      · split
        · split
          · exact ⟨hq, rfl⟩
          · split <;> exact ⟨⟨by simp [setGroup_groups], hq.roomMetadata, hq.sequencer⟩, rfl⟩
        · exact ⟨hq, rfl⟩

end RoomManager

/-! ### Runs -/

namespace World

variable {G : Type} (A : MlsAdapter G) (V : SignatureValidator)

theorem step_namedRoom (w : World G) (op : Operation) :
    ∀ a ∈ (w.step A V op).2, a.namedRoom = some op.roomId := by
  cases op with
  | processFrame frame now =>
    obtain ⟨-, ⟨-, -, htr⟩ | ⟨actions, hok, -, htr⟩⟩ := step_processFrame A V w frame now <;> rw [htr]
    · exact fun _ => nofun
    · exact RoomManager.processFrame_namedRoom A V hok
  | _ => exact fun _ => nofun

theorem step_agreeOn_of_ne (w : World G) {op : Operation} {r : RoomId} (hr : op.roomId ≠ r) :
    (w.step A V op).1.AgreeOn w r := by
  cases op with
  | createRoom room creator now => exact ⟨RoomManager.createRoom_agreeOn_of_ne A _ hr creator now, ⟨rfl, rfl⟩⟩
  | addMembers room kps => exact ⟨RoomManager.withGroup_agreeOn_of_ne _ hr _, ⟨rfl, rfl⟩⟩
  | removeMembers room ids => exact ⟨RoomManager.withGroup_agreeOn_of_ne _ hr _, ⟨rfl, rfl⟩⟩
  | leaveRoom room => exact ⟨RoomManager.withGroup_agreeOn_of_ne _ hr _, ⟨rfl, rfl⟩⟩
  | handleSyncRequest => exact AgreeOn.refl w r
  | processFrame frame now =>
    obtain ⟨hm, ⟨-, hs, -⟩ | ⟨actions, hok, hs, -⟩⟩ := step_processFrame A V w frame now <;>
      refine ⟨hm ▸ RoomManager.processFrame_agreeOn_of_ne A V _ hr now _, hs ▸ ?_⟩
    · exact ⟨rfl, rfl⟩
    · refine executeActions_agreeOn_of_ne r actions (fun a ha => ?_) _
      rw [RoomManager.processFrame_namedRoom A V hok a ha]
      exact fun h => hr (Option.some.inj h)

theorem step_congr {w w' : World G} {op : Operation} (h : w.AgreeOn w' op.roomId) :
    (w.step A V op).1.AgreeOn (w'.step A V op).1 op.roomId ∧ (w.step A V op).2 = (w'.step A V op).2 := by
  cases op with
  | createRoom room creator now =>
    exact ⟨⟨(RoomManager.createRoom_congr A h.manager creator now).1, h.storage⟩, rfl⟩
  | addMembers room kps => exact ⟨⟨(RoomManager.withGroup_congr h.manager _).1, h.storage⟩, rfl⟩
  | removeMembers room ids => exact ⟨⟨(RoomManager.withGroup_congr h.manager _).1, h.storage⟩, rfl⟩
  | leaveRoom room => exact ⟨⟨(RoomManager.withGroup_congr h.manager _).1, h.storage⟩, rfl⟩
  | handleSyncRequest => exact ⟨h, rfl⟩
  | processFrame frame now =>
    obtain ⟨hm, hres⟩ := RoomManager.processFrame_congr A V h.manager h.storage now
    obtain ⟨hm₁, h₁⟩ := step_processFrame A V w frame now
    obtain ⟨hm₂, h₂⟩ := step_processFrame A V w' frame now
    rw [hres] at h₁
    rcases h₁ with ⟨⟨e, he⟩, hs₁, ht₁⟩ | ⟨actions, ha, hs₁, ht₁⟩ <;>
      rcases h₂ with ⟨⟨e', he'⟩, hs₂, ht₂⟩ | ⟨actions', ha', hs₂, ht₂⟩
    · exact ⟨⟨hm₁ ▸ hm₂ ▸ hm, hs₁ ▸ hs₂ ▸ h.storage⟩, ht₁.trans ht₂.symm⟩
    · rw [he] at ha'; cases ha'
    · rw [ha] at he'; cases he'
    · rw [ha] at ha'; cases ha'
      exact ⟨⟨hm₁ ▸ hm₂ ▸ hm, hs₁ ▸ hs₂ ▸ executeActions_congr h.storage _⟩, ht₁.trans ht₂.symm⟩

/-- What a run does to a room, and the actions it returns for the room, are what the run's
operations on that room alone do and return, from any world that holds the same of the room. -/
theorem run_restricted_to_room (r : RoomId) (ops : List Operation) :
    ∀ {w w' : World G}, w.AgreeOn w' r →
      (w.run A V ops).1.AgreeOn (w'.run A V (ops.filter (·.roomId = r))).1 r ∧
        (w.run A V ops).2.filter (·.namedRoom = some r) = (w'.run A V (ops.filter (·.roomId = r))).2 := by
  induction ops with
  | nil => exact fun h => ⟨h, rfl⟩
  | cons op ops ih =>
    intro w w' h
    by_cases hr : op.roomId = r
    · subst hr
      obtain ⟨hw, htr⟩ := step_congr A V h
      obtain ⟨hrun, hrest⟩ := ih hw
      have hall : (w'.step A V op).2.filter (·.namedRoom = some op.roomId) = (w'.step A V op).2 :=
        List.filter_eq_self.mpr fun a ha => by simp [step_namedRoom A V w' op a ha]
      rw [List.filter_cons_of_pos (by simp), run_cons, run_cons, List.filter_append, hrest, htr, hall]
      exact ⟨hrun, rfl⟩
    · obtain ⟨hrun, hrest⟩ := ih ((step_agreeOn_of_ne A V w hr).trans h)
      have hnone : (w.step A V op).2.filter (·.namedRoom = some r) = [] :=
        List.filter_eq_nil_iff.mpr fun a ha => by simp [step_namedRoom A V w op a ha, hr]
      rw [List.filter_cons_of_neg (by simpa using hr), run_cons, List.filter_append, hrest, hnone]
      exact ⟨hrun, rfl⟩

/-! ### Refused frames leave no trace

A frame that `validate_frame_basic` refuses, or whose room has no group, returns before the
sequencer numbers it: nothing changes and no action follows. So such frames may come anywhere in a
run without changing what the run stores, broadcasts or numbers; the frames the signature check
refuses are another matter, as the sequencer has already numbered them. -/

/-- A run with a refused frame inserted anywhere ends in the same world with the same actions as the
run without it. -/
theorem run_insert_refused (w : World G) (ops ops' : List Operation) {frame : Frame} (now : Nat)
    (h : ¬ (w.run A V ops).1.manager.Admits A frame (w.run A V ops).1.storage) :
    w.run A V (ops ++ .processFrame frame now :: ops') = w.run A V (ops ++ ops') := by
  rw [run_append, run_append, run_cons, step_of_not_admits A V _ h, List.nil_append]

end World

/-- A message of member 1 in room 1 at epoch 5, which room 1's new group is not at. -/
def staleEpochMessage : Frame := ⟨creatorMessage.header.setEpoch 5, [104, 105]⟩

/-- After member 1 creates room 1, a frame at epoch 5 is refused, and inserting it before a message
changes nothing. -/
theorem stale_epoch_frame_leaves_no_trace :
    ¬ ((World.initial : World RefGroup).run referenceMls acceptAll [.createRoom 1 1 0]).1.manager.Admits referenceMls
        staleEpochMessage ((World.initial : World RefGroup).run referenceMls acceptAll [.createRoom 1 1 0]).1.storage ∧
      (World.initial : World RefGroup).run referenceMls acceptAll
          ([.createRoom 1 1 0] ++ .processFrame staleEpochMessage 0 :: [.processFrame creatorMessage 0]) =
        (World.initial : World RefGroup).run referenceMls acceptAll ([.createRoom 1 1 0] ++ [.processFrame creatorMessage 0]) :=
  have h : ¬ ((World.initial : World RefGroup).run referenceMls acceptAll [.createRoom 1 1 0]).1.manager.Admits
      referenceMls staleEpochMessage ((World.initial : World RefGroup).run referenceMls acceptAll [.createRoom 1 1 0]).1.storage := by
    rintro ⟨g, ⟨⟩, hb⟩
    cases hb
  ⟨h, World.run_insert_refused referenceMls acceptAll _ _ _ 0 h⟩

/-- A message of member 1 in room 2. -/
def roomTwoMessage : Frame := ⟨((FrameHeader.new .appMessage).setRoomId 2).setSenderId 1, [104, 105]⟩

/-- Member 1 creates rooms 1 and 2 and sends a message to each. -/
def twoRoomRun : List Operation :=
  [.createRoom 1 1 0, .createRoom 2 1 0, .processFrame roomTwoMessage 0, .processFrame creatorMessage 0]

/-- Room 1 of the two-room run is what room 1's operations alone make of it. -/
theorem two_room_run_restricted :
    (World.initial : World RefGroup).AgreeOn World.initial 1 ∧
      (World.initial.run referenceMls acceptAll twoRoomRun).1.AgreeOn
        (World.initial.run referenceMls acceptAll (twoRoomRun.filter (·.roomId = 1))).1 1 ∧
      (World.initial.run referenceMls acceptAll twoRoomRun).2.filter (·.namedRoom = some 1) =
        (World.initial.run referenceMls acceptAll (twoRoomRun.filter (·.roomId = 1))).2 :=
  ⟨World.AgreeOn.refl _ _, World.run_restricted_to_room referenceMls acceptAll 1 twoRoomRun (World.AgreeOn.refl _ _)⟩

end Kalandra
