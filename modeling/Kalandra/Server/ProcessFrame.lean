import Kalandra.Server.Driver

/-!
# What a call of `process_frame` can do

`process_frame` is a chain of early returns. The statements about it need three things of a call,
whatever its result: what becomes of the sequencer, what becomes of the groups, and what an `Ok`
result holds. This module proves each once, as `processFrame_sequencer`, `processFrame_groups` and
`processFrame_ok`, and the later modules reason from these alone.

The sequencer is called as soon as the frame passes `validate_frame_basic`, and it has advanced the
room's next index by the time signature validation, the commit merge and the state export run. The
groups change only when a Commit frame is merged.
-/

namespace Kalandra

namespace Sequencer

@[simp] theorem processFrame_snd (seq : Sequencer) (frame : Frame) (storage : MemoryStorage) (now : Nat) :
    (seq.processFrame frame storage now).2 =
      [.acceptFrame frame.header.roomId (seq.nextLogIndex storage frame.header.roomId)
          (frame.sequenced (seq.nextLogIndex storage frame.header.roomId) now),
        .storeFrame frame.header.roomId (seq.nextLogIndex storage frame.header.roomId)
          (frame.sequenced (seq.nextLogIndex storage frame.header.roomId) now),
        .broadcastToRoom frame.header.roomId (frame.sequenced (seq.nextLogIndex storage frame.header.roomId) now)] :=
  rfl

end Sequencer

namespace RoomManager

variable {G : Type} (A : MlsAdapter G) (V : SignatureValidator)

/-- The frame passes `validate_frame_basic` against the manager's group and the stored state. -/
def Admits (rm : RoomManager G) (frame : Frame) (storage : MemoryStorage) : Prop :=
  ∃ g, rm.groups frame.header.roomId = some g ∧
    validateFrameBasic A frame g (storage.loadMlsState frame.header.roomId) = .ok ()

theorem processFrame_sequencer_of_admits {rm : RoomManager G} {frame : Frame} {storage : MemoryStorage}
    (h : rm.Admits A frame storage) (now : Nat) :
    (rm.processFrame A V frame now storage).1.sequencer = (rm.sequencer.processFrame frame storage now).1 := by
  obtain ⟨g, hg, hb⟩ := h
  simp only [processFrame, hg, hb]
  split <;> (try split) <;> (try split) <;> (try split) <;> rfl

theorem processFrame_of_not_admits {rm : RoomManager G} {frame : Frame} {storage : MemoryStorage}
    (h : ¬ rm.Admits A frame storage) (now : Nat) : (rm.processFrame A V frame now storage).1 = rm := by
  simp only [processFrame]
  split
  · rfl
  · rename_i g hg
    split
    · rfl
    · exact absurd ⟨g, hg, ‹_›⟩ h

theorem processFrame_groups (rm : RoomManager G) (frame : Frame) (now : Nat) (storage : MemoryStorage) :
    (rm.processFrame A V frame now storage).1.groups = rm.groups ∨
      ∃ g g', rm.groups frame.header.roomId = some g ∧ frame.header.opcodeEnum = some .commit ∧
        applyCommit A g frame = .ok g' ∧
        (rm.processFrame A V frame now storage).1.groups = Function.update rm.groups frame.header.roomId (some g') := by
  simp only [processFrame]
  split
  · exact .inl rfl
  · rename_i g hg
    split
    · exact .inl rfl
    · split
      · exact .inl rfl
      · split
        · rename_i hc
          split
          · exact .inl rfl
          · rename_i g' hg'
            refine .inr ⟨g, g', hg, by simpa using hc, hg', ?_⟩
            split <;> rfl
        · exact .inl rfl

theorem processFrame_ok {rm : RoomManager G} {frame : Frame} {now : Nat} {storage : MemoryStorage}
    {actions : List RoomAction} (h : (rm.processFrame A V frame now storage).2 = .ok actions) :
    ∃ g, rm.groups frame.header.roomId = some g ∧
      validateFrameBasic A frame g (storage.loadMlsState frame.header.roomId) = .ok () ∧
      validateSequencedActionsSignatures V (rm.sequencer.processFrame frame storage now).2
        (storage.loadMlsState frame.header.roomId) = .ok () ∧
      ∃ extra, actions = (rm.sequencer.processFrame frame storage now).2.map (SequencerAction.toRoomAction now) ++ extra ∧
        ∀ a ∈ extra, ∃ st, a = .persistMlsState frame.header.roomId st now := by
  simp only [processFrame] at h
  split at h
  · cases h
  · rename_i g hg
    split at h
    · cases h
    · rename_i hb
      split at h
      · cases h
      · rename_i hs
        refine ⟨g, hg, hb, hs, ?_⟩
        split at h
        · split at h
          · cases h
          · split at h
            · cases h
            · rename_i st _
              exact ⟨[.persistMlsState _ st now], (Except.ok.inj h).symm, by simp⟩
        · exact ⟨[], by simpa using (Except.ok.inj h).symm, by simp⟩

theorem admits_of_ok {rm : RoomManager G} {frame : Frame} {now : Nat} {storage : MemoryStorage}
    {actions : List RoomAction} (h : (rm.processFrame A V frame now storage).2 = .ok actions) :
    rm.Admits A frame storage :=
  let ⟨g, hg, hb, _⟩ := processFrame_ok A V h
  ⟨g, hg, hb⟩

theorem processFrame_persistFrame {rm : RoomManager G} {frame : Frame} {now : Nat} {storage : MemoryStorage}
    {actions : List RoomAction} (h : (rm.processFrame A V frame now storage).2 = .ok actions)
    {r i t : Nat} {f : Frame} (hf : RoomAction.persistFrame r i f t ∈ actions) :
    r = frame.header.roomId ∧ i = rm.sequencer.nextLogIndex storage frame.header.roomId ∧
      f = frame.sequenced i now ∧ t = now := by
  obtain ⟨-, -, -, -, extra, rfl, hextra⟩ := processFrame_ok A V h
  rcases List.mem_append.mp hf with hf | hf
  · simp only [Sequencer.processFrame_snd, List.map_cons, List.map_nil, List.mem_cons,
      SequencerAction.toRoomAction, List.mem_singleton, RoomAction.persistFrame.injEq,
      List.not_mem_nil, reduceCtorEq, or_false] at hf
    rcases hf with ⟨rfl, rfl, rfl, rfl⟩ | ⟨rfl, rfl, rfl, rfl⟩ <;> exact ⟨rfl, rfl, rfl, rfl⟩
  · obtain ⟨st, hst⟩ := hextra _ hf
    cases hst

end RoomManager

namespace World

variable {G : Type} (A : MlsAdapter G) (V : SignatureValidator)

theorem step_processFrame (w : World G) (frame : Frame) (now : Nat) :
    (w.step A V (.processFrame frame now)).1.manager = (w.manager.processFrame A V frame now w.storage).1 ∧
      (((∃ e, (w.manager.processFrame A V frame now w.storage).2 = .error e) ∧
          (w.step A V (.processFrame frame now)).1.storage = w.storage ∧ (w.step A V (.processFrame frame now)).2 = []) ∨
        ∃ actions, (w.manager.processFrame A V frame now w.storage).2 = .ok actions ∧
          (w.step A V (.processFrame frame now)).1.storage = executeActions w.storage actions ∧
          (w.step A V (.processFrame frame now)).2 = actions) := by
  simp only [step]
  split
  · rename_i rm actions h
    rw [h]
    exact ⟨rfl, .inr ⟨actions, rfl, rfl, rfl⟩⟩
  · rename_i rm e h
    rw [h]
    exact ⟨rfl, .inl ⟨⟨e, rfl⟩, rfl, rfl⟩⟩

theorem step_of_not_admits (w : World G) {frame : Frame} (h : ¬ w.manager.Admits A frame w.storage) (now : Nat) :
    w.step A V (.processFrame frame now) = (w, []) := by
  obtain ⟨hm, ⟨-, hs, ht⟩ | ⟨actions, hok, -, -⟩⟩ := step_processFrame A V w frame now
  · rw [RoomManager.processFrame_of_not_admits A V h] at hm
    refine Prod.ext ?_ ht
    cases hw : (w.step A V (.processFrame frame now)).1
    rw [hw] at hm hs
    cases w
    simp_all
  · exact absurd (RoomManager.admits_of_ok A V hok) h

theorem step_of_not_processFrame (w : World G) (op : Operation) :
    (∃ frame now, op = .processFrame frame now) ∨
      ((w.step A V op).1.manager.sequencer = w.manager.sequencer ∧ (w.step A V op).1.storage = w.storage ∧
        (w.step A V op).2 = []) := by
  cases op with
  | processFrame frame now => exact .inl ⟨frame, now, rfl⟩
  | createRoom => exact .inr ⟨RoomManager.createRoom_sequencer .., rfl, rfl⟩
  | addMembers => exact .inr ⟨RoomManager.withGroup_sequencer .., rfl, rfl⟩
  | removeMembers => exact .inr ⟨RoomManager.withGroup_sequencer .., rfl, rfl⟩
  | leaveRoom => exact .inr ⟨RoomManager.withGroup_sequencer .., rfl, rfl⟩
  | handleSyncRequest => exact .inr ⟨rfl, rfl, rfl⟩

end World

end Kalandra
