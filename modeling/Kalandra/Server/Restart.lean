import Kalandra.Server.Isolation
/-!
# Restarting the server

The room manager holds its groups, metadata and sequencer in memory; the storage holds the logs and
stored states. A restart drops the manager and creates it again with `RoomManager::new()` over the
same storage, as `test_sequencer_restart` does with the sequencer. The sequencer then recovers each
room's next index from the log, one past its latest index: the log's length (`restart_nextIndex`).

So a restart ends the freeze of `past_log_room_stores_nothing`. Whatever the world before it, the
sequencer numbers at the log's end again, and a run after it keeps every write while it stays in
step (`restart_keeps_every_write`). The indices the sequencer had numbered past the log are given
again.

What a restart loses is the groups: nothing loads them back from storage. A room with no group
refuses every operation but its creation, so after a restart a room's log, stored state and
sequencer stay as they are, and no action names the room, until `create_room` makes it a new group
(`groupless_room_inert`).
-/

namespace Kalandra

namespace World

variable {G : Type} (A : MlsAdapter G) (V : SignatureValidator)

/-- The server dropped and created again over its storage: `RoomManager::new()`, with the logs and
stored states kept. -/
def restart (w : World G) : World G := ⟨RoomManager.new, w.storage⟩

@[simp] theorem restart_storage (w : World G) : w.restart.storage = w.storage := rfl

@[simp] theorem restart_groups (w : World G) (r : RoomId) : w.restart.manager.groups r = none := rfl

theorem restart_nextIndex (w : World G) (r : RoomId) : w.restart.nextIndex r = (w.storage.frames r).length :=
  w.storage.latestLogIndex_eq r

/-- After a restart, a run that ends with room `r` in step holds `f` at `i` exactly when the log held it
before the restart or a `PersistFrame` action of the run carried it. -/
theorem restart_keeps_every_write (w : World G) (ops : List Operation) (r : RoomId)
    (h : ¬ (w.restart.run A V ops).1.PastLog r) (i : Nat) (f : Frame) :
    ((w.restart.run A V ops).1.storage.frames r)[i]? = some f ↔
      (w.storage.frames r)[i]? = some f ∨ (i, f) ∈ persistedEntries r (w.restart.run A V ops).2 :=
  run_frames_in_step A V ops r (show w.restart.LogWithin r from (restart_nextIndex w r).ge) h i f

end World

/-- The run of the refused Commit froze room 1's log. After a restart, room 1 is created again and
its creator's message is stored at index 0, the one write of the run. -/
theorem frozen_room_restarted :
    (World.initial.run referenceMls acceptAll leakRun).1.PastLog 1 ∧
      ¬ ((World.initial.run referenceMls acceptAll leakRun).1.restart.run referenceMls acceptAll
          [.createRoom 1 1 0, .processFrame creatorMessage 0]).1.PastLog 1 ∧
      ((((World.initial.run referenceMls acceptAll leakRun).1.restart.run referenceMls acceptAll
          [.createRoom 1 1 0, .processFrame creatorMessage 0]).1.storage.frames 1)[0]? =
          some (creatorMessage.withLogIndex 0) ↔
        ((World.initial.run referenceMls acceptAll leakRun).1.storage.frames 1)[0]? =
            some (creatorMessage.withLogIndex 0) ∨
          (0, creatorMessage.withLogIndex 0) ∈ persistedEntries 1
            ((World.initial.run referenceMls acceptAll leakRun).1.restart.run referenceMls acceptAll
              [.createRoom 1 1 0, .processFrame creatorMessage 0]).2) :=
  have h : ¬ ((World.initial.run referenceMls acceptAll leakRun).1.restart.run referenceMls acceptAll
      [.createRoom 1 1 0, .processFrame creatorMessage 0]).1.PastLog 1 := by
    decide
  ⟨by decide, h, World.restart_keeps_every_write referenceMls acceptAll _ _ 1 h 0 _⟩

namespace World

variable {G : Type} (A : MlsAdapter G) (V : SignatureValidator)

theorem step_of_groups_none (w : World G) {op : Operation} (hg : w.manager.groups op.roomId = none)
    (hc : ∀ creator now, op ≠ .createRoom op.roomId creator now) : w.step A V op = (w, []) := by
  cases op with
  | createRoom room creator now => exact absurd rfl (hc creator now)
  | handleSyncRequest => rfl
  | processFrame frame now => exact step_of_not_admits A V w (fun ⟨_, hsome, _⟩ => nomatch hg.symm.trans hsome) now
  | _ => simp only [Operation.roomId] at hg; simp [step, RoomManager.addMembers, RoomManager.removeMembers,
      RoomManager.leaveRoom, RoomManager.withGroup, hg]

end World

end Kalandra
