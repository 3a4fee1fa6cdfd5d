import Kalandra.Server.Validation
import Kalandra.Server.LogIndex

/-!
# Epochs of the persisted log

A frame is persisted only at the epoch of its room's group: `validate_frame_basic` checks it. The
group's epoch moves only inside `process_frame` of a Commit-opcode frame of the room, by the merge
of the pending commit or by `process_message`, so with an MLS layer that keeps the epoch contract of
§4.3 it rises by at most one per such call and never falls. Hence the persisted epochs never
decrease.

What the code does not give is a rise at every persisted Commit and nowhere else. The room manager
takes a frame for a commit by its opcode and persists it before the MLS layer reads it: a Commit
frame whose MLS content is a proposal is persisted and merges nothing. And a Commit merged before a
failed export raises the epoch with nothing persisted.
-/

namespace Kalandra

/-- The number of Commit-opcode frames of room `r` an operation processes. -/
def Operation.commitsFor (r : RoomId) : Operation → Nat
  | .processFrame f _ => if f.header.roomId = r ∧ f.header.opcodeEnum = some .commit then 1 else 0
  | _ => 0

/-- The number of Commit-opcode frames of room `r` a run processes. -/
def commitCalls (r : RoomId) : List Operation → Nat
  | [] => 0
  | op :: ops => op.commitsFor r + commitCalls r ops

namespace World

variable {G : Type} (A : MlsAdapter G) (V : SignatureValidator)

/-- The epoch of a room's group, 0 before the room exists. -/
def roomEpoch (w : World G) (r : RoomId) : Nat := (w.manager.epoch A r).getD 0

end World

theorem mem_persistedFrames {r : RoomId} {f : Frame} {actions : List RoomAction} :
    f ∈ persistedFrames r actions ↔ ∃ i t, RoomAction.persistFrame r i f t ∈ actions := by
  simp only [persistedFrames, List.mem_filterMap]
  constructor
  · rintro ⟨a, ha, h⟩
    cases a <;> simp only [reduceCtorEq, ite_eq_right_iff, Option.some.injEq] at h
    split_ifs at h with hr
    cases h; cases hr
    exact ⟨_, _, ha⟩
  · rintro ⟨i, t, h⟩
    exact ⟨_, h, by simp⟩

theorem persistedFrames_append (r : RoomId) (a b : List RoomAction) :
    persistedFrames r (a ++ b) = persistedFrames r a ++ persistedFrames r b :=
  List.filterMap_append _ _ _

namespace RoomManager

variable {G : Type} (A : MlsAdapter G) (V : SignatureValidator)

/-- Every room with a group has metadata and the other way round: `create_room` sets both. -/
def Synced (rm : RoomManager G) : Prop := ∀ r, (rm.groups r).isSome = (rm.roomMetadata r).isSome

theorem applyCommit_epoch (hA : A.EpochLawful) {g g' : G} {frame : Frame}
    (h : applyCommit A g frame = .ok g') : A.epoch g ≤ A.epoch g' ∧ A.epoch g' ≤ A.epoch g + 1 := by
  unfold applyCommit at h
  split at h
  · have := hA.merge_epoch h
    omega
  · cases hp : A.processMessage g frame with
    | error e => rw [hp] at h; cases h
    | ok r =>
      rw [hp] at h
      cases h
      rcases hA.process_epoch hp with h | h <;> omega

theorem processFrame_roomMetadata (rm : RoomManager G) (frame : Frame) (now : Nat) (storage : MemoryStorage) :
    (rm.processFrame A V frame now storage).1.roomMetadata = rm.roomMetadata := by
  simp only [processFrame]
  split
  · rfl
  · split
    · rfl
    · split
      · rfl
      · split
        · split
          · rfl
          · split <;> rfl
        · rfl

theorem withGroup_epoch {op : G → Except MlsError (List MlsAction × G)}
    (hop : ∀ {g acts g'}, op g = .ok (acts, g') → A.epoch g' = A.epoch g)
    (rm : RoomManager G) (room r : RoomId) : (rm.withGroup room op).1.epoch A r = rm.epoch A r := by
  unfold withGroup
  split
  · rfl
  · rename_i g hg
    split
    · rfl
    · rename_i acts g' h
      simp only [epoch, setGroup_groups]
      split_ifs with hr
      · subst hr; simp [hg, hop h]
      · rfl

theorem withGroup_synced {op : G → Except MlsError (List MlsAction × G)} {rm : RoomManager G}
    (hs : rm.Synced) (room : RoomId) : (rm.withGroup room op).1.Synced := by
  unfold withGroup
  split
  · exact hs
  · rename_i g hg
    split
    · exact hs
    · intro r
      simp only [setGroup_groups]
      split_ifs with hr
      · subst hr; simpa [hg] using hs r
      · exact hs r

theorem createRoom_epoch (hA : A.EpochLawful) {rm : RoomManager G} (hs : rm.Synced)
    (room creator now r : Nat) :
    ((rm.createRoom A room creator now).1.epoch A r).getD 0 = (rm.epoch A r).getD 0 := by
  unfold createRoom
  split
  · rfl
  · rename_i hroom
    split
    · rfl
    · rename_i g acts h
      simp only [epoch]
      change ((Function.update rm.groups room (some g) r).map A.epoch).getD 0 = _
      rw [Function.update_apply]
      split_ifs with hr
      · subst hr
        have hm : rm.roomMetadata r = none := by simpa [hasRoom] using hroom
        have hnone : rm.groups r = none := by simpa [hm] using hs r
        simp [hnone, hA.new_epoch h]
      · rfl

theorem createRoom_synced {rm : RoomManager G} (hs : rm.Synced) (room creator now : Nat) :
    (rm.createRoom A room creator now).1.Synced := by
  unfold createRoom
  split
  · exact hs
  · split
    · exact hs
    · intro r
      change (Function.update rm.groups room _ r).isSome = (Function.update rm.roomMetadata room _ r).isSome
      simp only [Function.update_apply]
      split_ifs
      · rfl
      · exact hs r

theorem processFrame_synced {rm : RoomManager G} (hs : rm.Synced) (frame : Frame) (now : Nat)
    (storage : MemoryStorage) : (rm.processFrame A V frame now storage).1.Synced := by
  intro r
  rw [processFrame_roomMetadata]
  rcases processFrame_groups A V rm frame now storage with h | ⟨g, g', hg, -, -, h⟩
  · rw [h]; exact hs r
  · rw [h, Function.update_apply]
    split_ifs with hr
    · rw [hr]; simpa [hg] using hs frame.header.roomId
    · exact hs r

theorem processFrame_epoch (hA : A.EpochLawful) (rm : RoomManager G) (frame : Frame) (now : Nat)
    (storage : MemoryStorage) (r : RoomId) :
    (rm.epoch A r).getD 0 ≤ ((rm.processFrame A V frame now storage).1.epoch A r).getD 0 ∧
      ((rm.processFrame A V frame now storage).1.epoch A r).getD 0 ≤
        (rm.epoch A r).getD 0 + (Operation.processFrame frame now).commitsFor r := by
  simp only [epoch]
  rcases processFrame_groups A V rm frame now storage with h | ⟨g, g', hg, hc, ha, h⟩
  · rw [h]; omega
  · rw [h, Function.update_apply]
    split_ifs with hr
    · subst hr
      simpa [hg, Operation.commitsFor, hc] using applyCommit_epoch A hA ha
    · omega

end RoomManager

namespace World

variable {G : Type} (A : MlsAdapter G) (V : SignatureValidator)

theorem step_synced {w : World G} (hs : w.manager.Synced) (op : Operation) :
    (w.step A V op).1.manager.Synced := by
  cases op with
  | createRoom room creator now => exact RoomManager.createRoom_synced A hs room creator now
  | addMembers room kps => exact RoomManager.withGroup_synced hs room
  | removeMembers room ids => exact RoomManager.withGroup_synced hs room
  | leaveRoom room => exact RoomManager.withGroup_synced hs room
  | handleSyncRequest => exact hs
  | processFrame frame now =>
    rw [(step_processFrame A V w frame now).1]
    exact RoomManager.processFrame_synced A V hs frame now w.storage

theorem step_roomEpoch (hA : A.EpochLawful) {w : World G} (hs : w.manager.Synced) (op : Operation)
    (r : RoomId) :
    w.roomEpoch A r ≤ (w.step A V op).1.roomEpoch A r ∧
      (w.step A V op).1.roomEpoch A r ≤ w.roomEpoch A r + op.commitsFor r := by
  cases op with
  | createRoom room creator now =>
    have := RoomManager.createRoom_epoch A hA hs room creator now r
    simp only [roomEpoch, step, Operation.commitsFor] at this ⊢
    omega
  | addMembers room kps =>
    simp [roomEpoch, step, RoomManager.addMembers, RoomManager.withGroup_epoch A hA.add_epoch,
      Operation.commitsFor]
  | removeMembers room ids =>
    simp [roomEpoch, step, RoomManager.removeMembers, RoomManager.withGroup_epoch A hA.remove_epoch,
      Operation.commitsFor]
  | leaveRoom room =>
    simp [roomEpoch, step, RoomManager.leaveRoom, RoomManager.withGroup_epoch A hA.leave_epoch,
      Operation.commitsFor]
  | handleSyncRequest => simp [step, Operation.commitsFor]
  | processFrame frame now =>
    simp only [roomEpoch, (step_processFrame A V w frame now).1]
    exact RoomManager.processFrame_epoch A V hA w.manager frame now w.storage r

theorem step_persisted_epoch {w : World G} (op : Operation) {r : RoomId} {f : Frame}
    (hf : f ∈ persistedFrames r (w.step A V op).2) : f.header.epoch = w.roomEpoch A r := by
  cases op
  case processFrame frame now =>
    obtain ⟨i, t, hm⟩ := mem_persistedFrames.mp hf
    rcases (step_processFrame A V w frame now).2 with ⟨-, -, htr⟩ | ⟨actions, hok, -, htr⟩ <;> rw [htr] at hm
    · cases hm
    · obtain ⟨rfl, rfl, g, hg, hb, -⟩ := RoomManager.persistFrame_of_ok A V hok hm
      simp [roomEpoch, RoomManager.epoch, hg, (RoomManager.validateFrameBasic_ok A hb).1]
  all_goals simp [step, persistedFrames] at hf

theorem mem_run_persistedFrames {r : RoomId} {f : Frame} (ops : List Operation) :
    ∀ {w : World G}, f ∈ persistedFrames r (w.run A V ops).2 →
      ∃ pre op post, ops = pre ++ op :: post ∧ f ∈ persistedFrames r ((w.run A V pre).1.step A V op).2 := by
  induction ops with
  | nil => exact fun h => nomatch h
  | cons op ops ih =>
    intro w h
    rw [run_cons, persistedFrames_append] at h
    rcases List.mem_append.mp h with h | h
    · exact ⟨[], op, ops, rfl, h⟩
    · obtain ⟨pre, op', post, rfl, h'⟩ := ih h
      exact ⟨op :: pre, op', post, rfl, h'⟩

theorem run_synced (ops : List Operation) : ∀ {w : World G}, w.manager.Synced → (w.run A V ops).1.manager.Synced := by
  induction ops with
  | nil => exact id
  | cons op ops ih => exact fun hs => ih (step_synced A V hs op)

theorem run_roomEpoch (hA : A.EpochLawful) (r : RoomId) (ops : List Operation) :
    ∀ {w : World G}, w.manager.Synced →
      w.roomEpoch A r ≤ (w.run A V ops).1.roomEpoch A r ∧
      (w.run A V ops).1.roomEpoch A r ≤ w.roomEpoch A r + commitCalls r ops ∧
      ((persistedFrames r (w.run A V ops).2).map (·.header.epoch)).Pairwise (· ≤ ·) ∧
      ∀ f ∈ persistedFrames r (w.run A V ops).2,
        w.roomEpoch A r ≤ f.header.epoch ∧ f.header.epoch ≤ (w.run A V ops).1.roomEpoch A r := by
  induction ops with
  | nil => intro w _; simp [commitCalls, persistedFrames]
  | cons op ops ih =>
    intro w hs
    obtain ⟨h1, h2⟩ := step_roomEpoch A V hA hs op r
    obtain ⟨i1, i2, i3, i4⟩ := ih (step_synced A V hs op)
    have hstep : ∀ f ∈ persistedFrames r (w.step A V op).2, f.header.epoch = w.roomEpoch A r :=
      fun f hf => step_persisted_epoch A V op hf
    rw [run_cons]
    simp only [persistedFrames_append, List.map_append, commitCalls] at i2 ⊢
    refine ⟨by omega, by omega, List.pairwise_append.mpr ⟨List.pairwise_map.mpr
      (List.pairwise_of_forall_mem_list fun f hf f' hf' => by rw [hstep f hf, hstep f' hf']), i3, ?_⟩, ?_⟩
    · simp only [List.forall_mem_map]
      exact fun f hf f' hf' => (hstep f hf).symm ▸ Nat.le_trans h1 (i4 f' hf').1
    · intro f hf
      rcases List.mem_append.mp hf with hf | hf
      · rw [hstep f hf]
        exact ⟨Nat.le_refl _, Nat.le_trans h1 i1⟩
      · exact ⟨Nat.le_trans h1 (i4 f hf).1, (i4 f hf).2⟩

end World

theorem RoomManager.new_synced {G : Type} : (RoomManager.new : RoomManager G).Synced := fun _ => rfl

/-- From `RoomManager::new()`, a room's epoch never falls and rises by at most its Commit frames, and
the frames it persists carry non-decreasing epochs, each the room's epoch at its call. -/
theorem persisted_epochs_follow_commit_calls {G : Type} (A : MlsAdapter G) (V : SignatureValidator)
    (hA : A.EpochLawful) (r : RoomId) (ops₁ ops₂ : List Operation) :
    (World.initial.run A V ops₁).1.roomEpoch A r ≤ ((World.initial.run A V ops₁).1.run A V ops₂).1.roomEpoch A r ∧
      ((World.initial.run A V ops₁).1.run A V ops₂).1.roomEpoch A r ≤
        (World.initial.run A V ops₁).1.roomEpoch A r + commitCalls r ops₂ ∧
      ((persistedFrames r ((World.initial.run A V ops₁).1.run A V ops₂).2).map (·.header.epoch)).Pairwise (· ≤ ·) ∧
      (∀ f ∈ persistedFrames r ((World.initial.run A V ops₁).1.run A V ops₂).2,
        (World.initial.run A V ops₁).1.roomEpoch A r ≤ f.header.epoch ∧
          f.header.epoch ≤ ((World.initial.run A V ops₁).1.run A V ops₂).1.roomEpoch A r) ∧
      ∀ f ∈ persistedFrames r ((World.initial.run A V ops₁).1.run A V ops₂).2,
        ∃ pre op post, ops₂ = pre ++ op :: post ∧
          f ∈ persistedFrames r (((World.initial.run A V ops₁).1.run A V pre).1.step A V op).2 ∧
          f.header.epoch = ((World.initial.run A V ops₁).1.run A V pre).1.roomEpoch A r := by
  obtain ⟨h₁, h₂, h₃, h₄⟩ :=
    World.run_roomEpoch A V hA r ops₂ (World.run_synced A V ops₁ (w := World.initial) RoomManager.new_synced)
  refine ⟨h₁, h₂, h₃, h₄, fun f hf => ?_⟩
  obtain ⟨pre, op, post, hops, hcall⟩ := World.mem_run_persistedFrames A V ops₂ hf
  exact ⟨pre, op, post, hops, hcall, World.step_persisted_epoch A V op hcall⟩

/-- A Commit frame of member 1 whose MLS content is a proposal to add member 2 at epoch 0. -/
def proposalInCommit : Frame := ⟨((FrameHeader.new .commit).setRoomId 1).setSenderId 1, [3, 0, 2]⟩

/-- After room 1 is created by member 1: the Commit frame of a proposal, then a message. -/
def proposalRun : List Operation := [.processFrame proposalInCommit 0, .processFrame creatorMessage 0]

/-- The Commit frame is persisted at index 0 and merges nothing: the message after it is persisted at
epoch 0, after one persisted Commit, and the room is still at epoch 0. -/
theorem commit_frame_persisted_without_epoch_change :
    persistedFrames 1 ((World.initial.run referenceMls acceptAll [.createRoom 1 1 0]).1.run referenceMls
        acceptAll proposalRun).2 =
      [proposalInCommit.withLogIndex 0, proposalInCommit.withLogIndex 0,
        creatorMessage.withLogIndex 1, creatorMessage.withLogIndex 1] ∧
      proposalInCommit.header.opcodeEnum = some .commit ∧
      (creatorMessage.withLogIndex 1).header.epoch = 0 ∧
      ((World.initial.run referenceMls acceptAll [.createRoom 1 1 0]).1.run referenceMls acceptAll
        proposalRun).1.roomEpoch referenceMls 1 = 0 := by
  decide

/-- With the reference adapter, after room 1 is created, the Commit-opcode frame of a proposal and a
message raise the room's epoch by at most the one Commit frame. -/
theorem proposal_run_epoch_bounded :
    referenceMls.EpochLawful ∧
      ((World.initial.run referenceMls acceptAll [.createRoom 1 1 0]).1.run referenceMls acceptAll
          proposalRun).1.roomEpoch referenceMls 1 ≤
        (World.initial.run referenceMls acceptAll [.createRoom 1 1 0]).1.roomEpoch referenceMls 1 +
          commitCalls 1 proposalRun :=
  ⟨referenceMls_epochLawful,
    (persisted_epochs_follow_commit_calls referenceMls acceptAll referenceMls_epochLawful 1
      [.createRoom 1 1 0] proposalRun).2.1⟩

end Kalandra
