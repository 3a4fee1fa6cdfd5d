import Kalandra.Server.ProcessFrame
import Kalandra.Mls.Reference

/-!
# What a persisted frame has passed

`validate_frame_basic` checks a frame's epoch against the in-memory group, and its sender against
the `MlsGroupState` in storage, when storage holds one. After `create_room` it holds none:
`create_room` returns no `PersistMlsState`, and the first state is persisted only once a Commit has
been processed. Until then the check is that the frame is at epoch 0, whoever sent it, and the
signature check after sequencing is skipped as well.

The Commit step decides between the server's pending commit and a peer's by asking whether the group
has a pending commit, not whether the frame carries it.
-/

namespace Kalandra

namespace RoomManager

variable {G : Type} (A : MlsAdapter G) (V : SignatureValidator)

theorem validateFrameBasic_ok {frame : Frame} {g : G} {st : Option MlsGroupState}
    (h : validateFrameBasic A frame g st = .ok ()) :
    frame.header.epoch = A.epoch g ∧
      (∀ s, st = some s → s.isMember frame.header.senderId ∧ (s.memberKey frame.header.senderId).isSome) ∧
      (st = none → frame.header.epoch = 0) := by
  cases st with
  | none =>
    simp only [validateFrameBasic] at h
    split_ifs at h with h1 h2
    exact ⟨by simpa using h1, fun _ hs => Option.noConfusion hs, fun _ => by simpa using h2⟩
  | some s =>
    simp only [validateFrameBasic] at h
    split_ifs at h with h1 h2 h3
    refine ⟨by simpa using h1, fun s' hs => ?_, fun hs => Option.noConfusion hs⟩
    cases hs
    exact ⟨by simpa using h2, Option.ne_none_iff_isSome.mp (by simpa using h3)⟩

theorem validateSequencedActionsSignatures_ok {acts : List SequencerAction} {st : Option MlsGroupState}
    (h : validateSequencedActionsSignatures V acts st = .ok ()) {a : SequencerAction} (ha : a ∈ acts)
    {f : Frame} (hf : a.frameToValidate = some f) : validateFrameSignature V f st = .ok () := by
  induction acts with
  | nil => cases ha
  | cons b rest ih =>
    simp only [validateSequencedActionsSignatures] at h
    rcases List.mem_cons.mp ha with rfl | ha
    · simp only [hf] at h
      split at h
      · cases h
      · assumption
    · split at h
      · exact ih h ha
      · split at h
        · cases h
        · exact ih h ha

theorem validateFrameSignature_none (f : Frame) : validateFrameSignature V f none = .ok () := by
  unfold validateFrameSignature
  split <;> rfl

theorem validateSequencedActionsSignatures_none (acts : List SequencerAction) :
    validateSequencedActionsSignatures V acts none = .ok () := by
  induction acts with
  | nil => rfl
  | cons a acts ih =>
    simp only [validateSequencedActionsSignatures, validateFrameSignature_none, ih]
    split <;> rfl

theorem validateFrameBasic_none (frame : Frame) (g : G) :
    validateFrameBasic A frame g none = .ok () ↔ frame.header.epoch = 0 ∧ A.epoch g = 0 := by
  simp only [validateFrameBasic]
  split_ifs <;> simp <;> omega

theorem persistFrame_of_ok {rm : RoomManager G} {frame : Frame} {now : Nat} {storage : MemoryStorage}
    {actions : List RoomAction} (h : (rm.processFrame A V frame now storage).2 = .ok actions)
    {r i t : Nat} {f : Frame} (hf : RoomAction.persistFrame r i f t ∈ actions) :
    r = frame.header.roomId ∧ f = frame.sequenced i now ∧
      ∃ g, rm.groups r = some g ∧ validateFrameBasic A frame g (storage.loadMlsState r) = .ok () ∧
        validateFrameSignature V f (storage.loadMlsState r) = .ok () := by
  obtain ⟨g, hg, hb, hs, extra, rfl, hextra⟩ := processFrame_ok A V h
  rcases List.mem_append.mp hf with hf | hf
  · simp only [Sequencer.processFrame_snd, List.map_cons, List.map_nil, List.mem_cons,
      SequencerAction.toRoomAction, List.mem_singleton, RoomAction.persistFrame.injEq,
      List.not_mem_nil, reduceCtorEq, or_false] at hf
    rcases hf with ⟨rfl, rfl, rfl, -⟩ | ⟨rfl, rfl, rfl, -⟩
    · exact ⟨rfl, rfl, g, hg, hb, validateSequencedActionsSignatures_ok V hs (List.mem_cons_self _ _) rfl⟩
    · exact ⟨rfl, rfl, g, hg, hb,
        validateSequencedActionsSignatures_ok V hs (List.mem_cons_of_mem _ (List.mem_cons_self _ _)) rfl⟩
  · obtain ⟨st, hst⟩ := hextra _ hf
    cases hst

/-- In a room with no stored state, a frame that is not a Commit is sequenced and persisted exactly
when it and the room's group are at epoch 0, whoever sent it. -/
theorem unstored_room_persists_iff_epoch_zero {rm : RoomManager G} {frame : Frame} {g : G}
    (hg : rm.groups frame.header.roomId = some g) {storage : MemoryStorage}
    (hnone : storage.loadMlsState frame.header.roomId = none) (hc : frame.header.opcodeEnum ≠ some .commit)
    (now : Nat) :
    (∃ actions, (rm.processFrame A V frame now storage).2 = .ok actions ∧
        RoomAction.persistFrame frame.header.roomId (rm.sequencer.nextLogIndex storage frame.header.roomId)
          (frame.sequenced (rm.sequencer.nextLogIndex storage frame.header.roomId) now) now ∈ actions) ↔
      frame.header.epoch = 0 ∧ A.epoch g = 0 := by
  constructor
  · rintro ⟨actions, h, -⟩
    obtain ⟨g', hg', hb, -⟩ := processFrame_ok A V h
    rw [hg, Option.some.injEq] at hg'
    subst hg'
    rwa [hnone, validateFrameBasic_none] at hb
  · intro h0
    have hb := (validateFrameBasic_none A frame g).mpr h0
    refine ⟨(rm.sequencer.processFrame frame storage now).2.map (SequencerAction.toRoomAction now), ?_,
      List.mem_cons_self _ _⟩
    simp only [processFrame, hg, hnone, hb, validateSequencedActionsSignatures_none, beq_iff_eq, hc, if_false]

end RoomManager

/-- A message at epoch 0 from member 7, who is not in room 1. -/
def strangerMessage : Frame := ⟨((FrameHeader.new .appMessage).setRoomId 1).setSenderId 7, [104, 105]⟩

/-- Room 1, created by member 42, with no state stored. -/
def createdBy42 : RoomManager RefGroup := (RoomManager.new.createRoom referenceMls 1 42 0).1

/-- Room 1 has just been created by member 42, and storage holds no state for it: the message of
member 7, who is not in the group, is persisted at index 0. -/
theorem stranger_frame_persisted :
    (createdBy42.groups 1).map referenceMls.members = some [(0, 42)] ∧
      MemoryStorage.empty.loadMlsState strangerMessage.header.roomId = none ∧
      strangerMessage.header.opcodeEnum ≠ some .commit ∧
      ∃ actions, (createdBy42.processFrame referenceMls acceptAll strangerMessage 0 MemoryStorage.empty).2 = .ok actions ∧
        RoomAction.persistFrame 1 0 (strangerMessage.sequenced 0 0) 0 ∈ actions :=
  ⟨rfl, rfl, by decide,
    (@RoomManager.unstored_room_persists_iff_epoch_zero RefGroup referenceMls acceptAll createdBy42 strangerMessage _
      rfl MemoryStorage.empty rfl (by decide) 0).mpr ⟨rfl, rfl⟩⟩

/-- A Commit of member 1 that adds member 200, at epoch 0. -/
def memberCommit : Frame := ⟨((FrameHeader.new .commit).setRoomId 1).setSenderId 1, [1, 0, 200]⟩

/-- Room 1 is created by member 1 and the server adds member 100, which leaves a pending commit. -/
def pendingRun : List Operation := [.createRoom 1 1 0, .addMembers 1 [[100]]]

/-- With the server's commit adding 100 pending, member 1's commit adding 200 is accepted and
persisted, and the group then holds 100, not 200: the pending commit was merged in its place. -/
theorem member_commit_merged_as_pending :
    ((World.initial.run referenceMls acceptAll pendingRun).1.manager.groups 1).map
        (fun g => (g.pending, (g.process memberCommit).toOption.map (·.2.members))) =
        some (some (.add [100]), some [1, 200]) ∧
      persistedFrames 1 (World.initial.run referenceMls acceptAll (pendingRun ++ [.processFrame memberCommit 0])).2 =
        [memberCommit.withLogIndex 0, memberCommit.withLogIndex 0] ∧
      ((World.initial.run referenceMls acceptAll (pendingRun ++ [.processFrame memberCommit 0])).1.manager.groups
        1).map (·.members) = some [1, 100] := by
  decide

end Kalandra
