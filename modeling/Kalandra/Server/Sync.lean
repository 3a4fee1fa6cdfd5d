import Kalandra.Server.LogIndex

/-!
# Sync

A lagging member catches up with `handle_sync_request`: it asks for up to `limit` frames from
`from_log_index`, appends what it receives, moves `from` past them, and asks again while the response
says `has_more`. The replay can only be what storage holds, and storage holds what `store_frame`
accepted. A frame that the sequencer numbered past a gap is broadcast to the room but refused by
storage, so no replay ever contains it.

`has_more` is exact but at one request: from index 0 with a limit of 0, where the fallback of
`saturating_sub` counts frame 0 as returned (`sync_from_zero_hides_only_frame`).
-/

namespace Kalandra

/-! ### The stored log -/

/-- Each room's stored log holds that room's frames at their own indices. -/
structure MemoryStorage.Indexed (s : MemoryStorage) : Prop where
  /-- Every frame of room `r`'s log is a frame of room `r`. -/
  roomId_eq : ∀ (r : RoomId) (i : Nat) (f : Frame), (s.frames r)[i]? = some f → f.header.roomId = r
  /-- The frame at position `i` carries log index `i`. -/
  logIndex_eq : ∀ (r : RoomId) (i : Nat) (f : Frame), (s.frames r)[i]? = some f → f.header.logIndex = i

/-- A `PersistFrame` action whose frame is of its room and carries its index. -/
def RoomAction.Indexed : RoomAction → Prop
  | .persistFrame r i f _ => f.header.roomId = r ∧ f.header.logIndex = i
  | _ => True

namespace MemoryStorage

@[simp] theorem empty_indexed : empty.Indexed := ⟨by simp, by simp⟩

theorem Indexed.storeFrame {s s' : MemoryStorage} (hs : s.Indexed) {r i : Nat} {f : Frame}
    (h : s.storeFrame r i f = .ok s') (hf : f.header.roomId = r ∧ f.header.logIndex = i) : s'.Indexed := by
  obtain ⟨rfl, rfl⟩ := storeFrame_eq_ok h
  have key : ∀ r' j (f' : Frame), ((Function.update s.frames r (s.frames r ++ [f])) r')[j]? = some f' →
      (s.frames r')[j]? = some f' ∨ (r' = r ∧ j = (s.frames r).length ∧ f' = f) := by
    intro r' j f' hj
    rw [Function.update_apply] at hj
    split_ifs at hj with hr
    · subst hr
      rcases getElem?_append_singleton_eq_some.mp hj with hj | ⟨rfl, rfl⟩
      · exact .inl hj
      · exact .inr ⟨rfl, rfl, rfl⟩
    · exact .inl hj
  constructor
  · intro r' j f' hj
    rcases key r' j f' hj with hj | ⟨rfl, -, rfl⟩
    · exact hs.roomId_eq r' j f' hj
    · exact hf.1
  · intro r' j f' hj
    rcases key r' j f' hj with hj | ⟨rfl, rfl, rfl⟩
    · exact hs.logIndex_eq r' j f' hj
    · exact hf.2

theorem Indexed.storeMlsState {s : MemoryStorage} (hs : s.Indexed) (r : RoomId) (st : MlsGroupState) :
    (s.storeMlsState r st).Indexed := ⟨hs.roomId_eq, hs.logIndex_eq⟩

end MemoryStorage

theorem executeActions_indexed (actions : List RoomAction) (ha : ∀ a ∈ actions, a.Indexed) :
    ∀ {s : MemoryStorage}, s.Indexed → (executeActions s actions).Indexed := by
  induction actions with
  | nil => exact id
  | cons a actions ih =>
    intro s hs
    refine ih (fun b hb => ha b (List.mem_cons_of_mem _ hb)) ?_
    have ha' := ha a (List.mem_cons_self _ _)
    cases a with
    | persistFrame r i f t =>
      show (match s.storeFrame r i f with | .ok s' => s' | .error _ => s).Indexed
      split
      · exact hs.storeFrame ‹_› ha'
      · exact hs
    | persistMlsState r st t => exact hs.storeMlsState r st
    | _ => exact hs

namespace World

variable {G : Type} (A : MlsAdapter G)

theorem processFrame_indexed (V : SignatureValidator) {rm : RoomManager G} {frame : Frame} {now : Nat}
    {storage : MemoryStorage} {actions : List RoomAction}
    (h : (rm.processFrame A V frame now storage).2 = .ok actions) : ∀ a ∈ actions, a.Indexed := by
  intro a ha
  cases a with
  | persistFrame r i f t =>
    obtain ⟨rfl, -, rfl, -⟩ := RoomManager.processFrame_persistFrame A V h ha
    simp [RoomAction.Indexed]
  | _ => trivial

theorem step_indexed (V : SignatureValidator) {w : World G} (hs : w.storage.Indexed) (op : Operation) :
    (w.step A V op).1.storage.Indexed := by
  cases op with
  | processFrame frame now =>
    obtain ⟨-, ⟨-, h, -⟩ | ⟨actions, hok, h, -⟩⟩ := step_processFrame A V w frame now <;> rw [h]
    · exact hs
    · exact executeActions_indexed _ (processFrame_indexed A V hok) hs
  | _ => exact hs

/-- Whatever the operations and however the MLS layer and the signature check answer, each room's
stored log is the frames of that room, the one at position `i` carrying log index `i`. -/
theorem stored_log_indexed (V : SignatureValidator) (ops : List Operation) :
    ((initial : World G).run A V ops).1.storage.Indexed := by
  suffices ∀ {w : World G}, w.storage.Indexed → (w.run A V ops).1.storage.Indexed from
    this MemoryStorage.empty_indexed
  induction ops with
  | nil => exact id
  | cons op ops ih => exact fun hs => ih (step_indexed A V hs op)

/-- The catch-up loop of a client of room `room`, from `fromLogIndex` with batches of `limit`, with
`fuel` requests at most: the frames received, or `none` if a request failed or the fuel ran out. -/
def syncReplay (encode : Frame → Bytes) (w : World G) (room : RoomId) (senderId : MemberId) (limit now : Nat) :
    Nat → Nat → Option (List Bytes)
  | 0, _ => none
  | fuel + 1, fromLogIndex =>
    match w.manager.handleSyncRequest A encode room senderId fromLogIndex limit now w.storage with
    | .ok (.sendSyncResponse _ _ frames hasMore _ _) =>
      if hasMore then (syncReplay encode w room senderId limit now fuel (fromLogIndex + frames.length)).map (frames ++ ·)
      else some frames
    | _ => none

theorem handleSyncRequest_of_group (encode : Frame → Bytes) (w : World G) {room : RoomId} {g : G}
    (hg : w.manager.groups room = some g) (senderId : MemberId) {limit : Nat} (hlimit : 0 < limit)
    (fromLogIndex now : Nat) :
    w.manager.handleSyncRequest A encode room senderId fromLogIndex limit now w.storage =
      .ok (.sendSyncResponse senderId room ((w.storage.loadFrames room fromLogIndex limit).map encode)
        (decide (fromLogIndex + (w.storage.loadFrames room fromLogIndex limit).length <
          (w.storage.frames room).length)) (A.epoch g) now) := by
  have hlen : (w.storage.loadFrames room fromLogIndex limit).length =
      min limit ((w.storage.frames room).length - fromLogIndex) := by
    simp [MemoryStorage.loadFrames]
  simp only [RoomManager.handleSyncRequest, hg, MemoryStorage.latestLogIndex]
  by_cases hempty : w.storage.frames room = []
  · simp [hempty, MemoryStorage.loadFrames]
  · have hpos : (w.storage.frames room).length ≠ 0 := by simpa [List.length_eq_zero] using hempty
    rw [if_neg hempty, Option.any_some]
    congr 3
    apply propext
    split_ifs with hnil <;> simp only [List.isEmpty_iff, ← List.length_eq_zero] at hnil <;> omega

/-- The catch-up loop replays the room's log: with a positive `limit` and requests enough to cover
the log, it receives the encodings of the stored frames from `fromLogIndex` on, in order, each once. -/
theorem syncReplay_eq_drop (encode : Frame → Bytes) (w : World G) {room : RoomId} {g : G}
    (hg : w.manager.groups room = some g) (senderId : MemberId) {limit : Nat} (hlimit : 0 < limit)
    (now : Nat) (fuel fromLogIndex : Nat) (hfuel : 0 < fuel)
    (hcover : (w.storage.frames room).length ≤ fromLogIndex + fuel * limit) :
    w.syncReplay A encode room senderId limit now fuel fromLogIndex =
      some (((w.storage.frames room).drop fromLogIndex).map encode) := by
  induction fuel generalizing fromLogIndex with
  | zero => cases hfuel
  | succ fuel ih =>
    rw [syncReplay, handleSyncRequest_of_group A encode w hg senderId hlimit]
    dsimp only
    have hlen : (w.storage.loadFrames room fromLogIndex limit).length =
        min limit ((w.storage.frames room).length - fromLogIndex) := by
      simp [MemoryStorage.loadFrames]
    rw [Nat.succ_mul] at hcover
    split_ifs with hmore
    · simp only [decide_eq_true_eq] at hmore
      have hn : (w.storage.loadFrames room fromLogIndex limit).length = limit := by omega
      have hpos : 0 < fuel := Nat.pos_of_ne_zero fun h0 => by subst h0; omega
      rw [List.length_map, hn, ih _ hpos (by omega), Option.map_some', ← List.map_append,
        MemoryStorage.loadFrames, ← List.drop_drop, List.take_append_drop]
    · simp only [decide_eq_true_eq, not_lt] at hmore
      rw [MemoryStorage.loadFrames, List.take_of_length_le (by simp; omega)]

end World

/-- Room 1 created by member 1, and three of its messages sequenced. -/
def threeMessageRun : List Operation :=
  [.createRoom 1 1 0, .processFrame creatorMessage 0, .processFrame creatorMessage 0, .processFrame creatorMessage 0]

/-- Room 1 after `threeMessageRun`. -/
def threeMessageWorld : World RefGroup := (World.initial.run referenceMls acceptAll threeMessageRun).1

/-- Two requests with a limit of two replay the three stored messages. -/
theorem three_messages_replayed_in_two_requests :
    0 < 2 ∧ ((World.initial.run referenceMls acceptAll threeMessageRun).1.storage.frames 1).length ≤ 0 + 2 * 2 ∧
      (World.initial.run referenceMls acceptAll threeMessageRun).1.syncReplay referenceMls Frame.payload 1 7 2 0 2 0 =
        some ((((World.initial.run referenceMls acceptAll threeMessageRun).1.storage.frames 1).drop 0).map
          Frame.payload) :=
  ⟨by decide, by decide,
    World.syncReplay_eq_drop referenceMls Frame.payload _ rfl 7 (by decide) 0 2 0 (by decide) (by decide)⟩

/-- After the refused Commit, room 1's message was broadcast with log index 1, and a replay from
index 0 returns no frame at all. -/
theorem sync_replay_misses_broadcast_frame (encode : Frame → Bytes) :
    (broadcastFrames 1 (World.initial.run referenceMls acceptAll leakRun).2).map (·.header.logIndex) = [1] ∧
      (World.initial.run referenceMls acceptAll leakRun).1.syncReplay referenceMls encode 1 7 1 0 5 0 = some [] :=
  ⟨by decide, rfl⟩

/-! ### What `has_more` says

`has_more` compares the latest stored index with the last one loaded, which for an empty response is
`from_log_index.saturating_sub(1)`. For a log whose frames carry their positions it says whether a
frame lies past those returned, but for one request: from index 0 with a limit of 0 the fallback
counts frame 0 as loaded, and a log of one frame reads as having nothing more. The sum
`from_log_index + frames.len()` never passes the log's length. -/

theorem exists_logIndex_ge_iff {l : List Frame} (hl : l.map (·.header.logIndex) = List.range l.length)
    (x : Nat) : (∃ f ∈ l, x ≤ f.header.logIndex) ↔ x < l.length := by
  constructor
  · rintro ⟨f, hf, hx⟩
    have hmem : f.header.logIndex ∈ List.range l.length := hl ▸ List.mem_map_of_mem _ hf
    exact Nat.lt_of_le_of_lt hx (List.mem_range.mp hmem)
  · intro hx
    obtain ⟨f, hf, he⟩ := List.mem_map.mp (hl ▸ List.mem_range.mpr hx : x ∈ l.map (·.header.logIndex))
    exact ⟨f, hf, he.ge⟩

namespace RoomManager

variable {G : Type} (A : MlsAdapter G)

/-- A sync request of a room whose log is `0..=L` answers the stored frames from its index, and says there
is more exactly when a frame lies past those returned, except from index 0 with limit 0 on one frame. -/
theorem syncResponse_hasMore (encode : Frame → Bytes) (rm : RoomManager G) {room : RoomId} {g : G}
    (hg : rm.groups room = some g) (senderId : MemberId) (fromLogIndex limit now : Nat) (storage : MemoryStorage)
    (hlog : (storage.frames room).map (·.header.logIndex) = List.range (storage.frames room).length) :
    ∃ hasMore, rm.handleSyncRequest A encode room senderId fromLogIndex limit now storage =
        .ok (.sendSyncResponse senderId room ((storage.loadFrames room fromLogIndex limit).map encode) hasMore
          (A.epoch g) now) ∧
      (hasMore = true ↔
        (∃ f ∈ storage.frames room,
          fromLogIndex + (storage.loadFrames room fromLogIndex limit).length ≤ f.header.logIndex) ∧
          ¬ (limit = 0 ∧ fromLogIndex = 0 ∧ (storage.frames room).length = 1)) ∧
      (storage.loadFrames room fromLogIndex limit ≠ [] →
        1 ≤ fromLogIndex + (storage.loadFrames room fromLogIndex limit).length ∧
          fromLogIndex + (storage.loadFrames room fromLogIndex limit).length ≤ (storage.frames room).length) := by
  have hlen : (storage.loadFrames room fromLogIndex limit).length =
      min limit ((storage.frames room).length - fromLogIndex) := by
    simp [MemoryStorage.loadFrames]
  refine ⟨_, by simp only [handleSyncRequest, hg]; rfl, ?_, fun hne => ?_⟩
  · rw [exists_logIndex_ge_iff hlog]
    simp only [MemoryStorage.latestLogIndex, List.isEmpty_iff, ← List.length_eq_zero]
    split_ifs <;> simp <;> omega
  · have := List.length_pos.mpr hne
    omega

end RoomManager

/-- The three stored messages of room 1, asked for from index 1 two at a time: the two frames after
the first come back, and nothing is left. -/
theorem three_messages_sync_from_one :
    (threeMessageWorld.storage.frames 1).map (·.header.logIndex) = List.range (threeMessageWorld.storage.frames 1).length ∧
      ∃ hasMore, threeMessageWorld.manager.handleSyncRequest referenceMls Frame.payload 1 7 1 2 0 threeMessageWorld.storage =
          .ok (.sendSyncResponse 7 1 ((threeMessageWorld.storage.loadFrames 1 1 2).map Frame.payload) hasMore
            (referenceMls.epoch (RefGroup.create 1 1)) 0) ∧
        (hasMore = true ↔
          (∃ f ∈ threeMessageWorld.storage.frames 1, 1 + (threeMessageWorld.storage.loadFrames 1 1 2).length ≤ f.header.logIndex) ∧
            ¬ (2 = 0 ∧ 1 = 0 ∧ (threeMessageWorld.storage.frames 1).length = 1)) ∧
        (threeMessageWorld.storage.loadFrames 1 1 2 ≠ [] →
          1 ≤ 1 + (threeMessageWorld.storage.loadFrames 1 1 2).length ∧
            1 + (threeMessageWorld.storage.loadFrames 1 1 2).length ≤ (threeMessageWorld.storage.frames 1).length) :=
  have hlog : (threeMessageWorld.storage.frames 1).map (·.header.logIndex) = List.range (threeMessageWorld.storage.frames 1).length := by
    decide
  ⟨hlog, RoomManager.syncResponse_hasMore referenceMls Frame.payload _ rfl 7 1 2 0 _ hlog⟩

/-- Room 1 created by member 1, and one of its messages sequenced. -/
def oneMessageRun : List Operation := [.createRoom 1 1 0, .processFrame creatorMessage 0]

/-- Room 1's log is its one message, at index 0. A sync request from index 0 with a limit of 0 returns
no frame and says there is nothing more, though the frame at index 0 was not returned. -/
theorem sync_from_zero_hides_only_frame (encode : Frame → Bytes) :
    ((World.initial.run referenceMls acceptAll oneMessageRun).1.storage.frames 1).map (·.header.logIndex) = [0] ∧
      (World.initial.run referenceMls acceptAll oneMessageRun).1.manager.handleSyncRequest referenceMls encode 1 7 0 0 0
          (World.initial.run referenceMls acceptAll oneMessageRun).1.storage =
        .ok (.sendSyncResponse 7 1 [] false 0 0) :=
  ⟨by decide, rfl⟩

end Kalandra
