import Kalandra.Server.Restart
/-!
# The order of broadcasts

Members learn a room's order from the frames the server broadcasts: each carries the log index the
sequencer stamped into it. Within one lifetime of the server, a room's broadcasts carry increasing
indices, so two broadcasts at one index are one frame, and every member that receives index `i`
receives the same frame. A restart keeps this only when the room's log was in step with its
sequencer: the new sequencer numbers from the log's end, so the indices numbered past the log are
given again, to other frames (`broadcast_order_agreement`).

While a room stays in step, what the server stores for it is what it broadcasts: the log grows by the
broadcast frames, in order, and by nothing else (`stored_log_is_broadcast_history`). A member that
missed broadcasts and syncs is replayed exactly what the others received.
-/

namespace Kalandra

/-- A room's broadcasts in trace order: each later one carries a larger log index, or is the same
frame. -/
def BroadcastsOrdered (frames : List Frame) : Prop :=
  frames.Pairwise fun a b => a.header.logIndex < b.header.logIndex ∨ a = b

instance (frames : List Frame) : Decidable (BroadcastsOrdered frames) :=
  inferInstanceAs (Decidable (List.Pairwise _ _))

theorem BroadcastsOrdered.eq_of_logIndex {frames : List Frame} (h : BroadcastsOrdered frames) {a b : Frame}
    (ha : a ∈ frames) (hb : b ∈ frames) (hi : a.header.logIndex = b.header.logIndex) : a = b := by
  induction frames with
  | nil => cases ha
  | cons x xs ih =>
    obtain ⟨hx, hxs⟩ := List.pairwise_cons.mp h
    rcases List.mem_cons.mp ha with rfl | ha' <;> rcases List.mem_cons.mp hb with rfl | hb'
    · rfl
    · exact (hx b hb').resolve_left (by omega)
    · exact ((hx a ha').resolve_left (by omega)).symm
    · exact ih hxs ha' hb'

namespace World

variable {G : Type} (A : MlsAdapter G) (V : SignatureValidator)

theorem step_broadcasts (w : World G) (op : Operation) (r : RoomId) :
    (broadcastFrames r (w.step A V op).2 = [] ∧ persistedEntries r (w.step A V op).2 = []) ∨
      ∃ f : Frame, f.header.roomId = r ∧ f.header.logIndex = w.nextIndex r ∧ broadcastFrames r (w.step A V op).2 = [f] ∧
        persistedEntries r (w.step A V op).2 = [(w.nextIndex r, f), (w.nextIndex r, f)] := by
  rcases step_of_not_processFrame A V w op with ⟨frame, now, rfl⟩ | ⟨-, -, htr⟩
  · obtain ⟨-, ⟨-, -, htr⟩ | ⟨actions, hok, -, htr⟩⟩ := step_processFrame A V w frame now <;> rw [htr]
    · exact .inl ⟨rfl, rfl⟩
    · obtain ⟨-, -, -, -, extra, hact, hextra⟩ := RoomManager.processFrame_ok A V hok
      have hnone : broadcastFrames r extra = [] := by
        simp only [broadcastFrames, List.filterMap_eq_nil_iff]
        intro a ha
        obtain ⟨st, rfl⟩ := hextra a ha
        rfl
      rw [RoomManager.processFrame_entries A V hok r, hact, broadcastFrames_append, hnone, List.append_nil]
      by_cases hr : frame.header.roomId = r
      · subst hr
        exact .inr ⟨frame.sequenced (w.nextIndex frame.header.roomId) now, rfl, rfl,
          by simp [broadcastFrames, SequencerAction.toRoomAction, nextIndex], by simp [nextIndex]⟩
      · exact .inl ⟨by simp [broadcastFrames, SequencerAction.toRoomAction, hr], if_neg hr⟩
  · rw [htr]
    exact .inl ⟨rfl, rfl⟩

theorem run_broadcasts (ops : List Operation) (r : RoomId) :
    ∀ {w : World G}, BroadcastsOrdered (broadcastFrames r (w.run A V ops).2) ∧
      ∀ f ∈ broadcastFrames r (w.run A V ops).2, f.header.roomId = r ∧
        w.nextIndex r ≤ f.header.logIndex ∧ f.header.logIndex < (w.run A V ops).1.nextIndex r := by
  induction ops with
  | nil => exact fun {w} => ⟨List.Pairwise.nil, fun _ => nofun⟩
  | cons op ops ih =>
    intro w
    obtain ⟨hord, hb⟩ := @ih (w.step A V op).1
    rw [run_cons, broadcastFrames_append]
    dsimp only
    rcases step_broadcasts A V w op r with ⟨hnil, -⟩ | ⟨f, hroom, hindex, hf, hpersist⟩
    · have hle : w.nextIndex r ≤ (w.step A V op).1.nextIndex r := by
        rcases step_entries A V w op r with ⟨-, hle⟩ | ⟨_, -, hnext⟩ <;> omega
      rw [hnil, List.nil_append]
      exact ⟨hord, fun g hg => ⟨(hb g hg).1, Nat.le_trans hle (hb g hg).2.1, (hb g hg).2.2⟩⟩
    · have hnext : (w.step A V op).1.nextIndex r = w.nextIndex r + 1 := by
        rcases step_entries A V w op r with ⟨hnil, -⟩ | ⟨_, -, hnext⟩
        · rw [hpersist] at hnil
          cases hnil
        · exact hnext
      rw [hf, List.singleton_append]
      refine ⟨List.pairwise_cons.mpr ⟨fun g hg => .inl ?_, hord⟩, fun g hg => ?_⟩
      · have := (hb g hg).2.1
        omega
      · rcases List.mem_cons.mp hg with rfl | hg
        · have hrest := (run_entries_bounded A V ops r (w := (w.step A V op).1)).1
          exact ⟨hroom, by omega⟩
        · exact ⟨(hb g hg).1, by have := (hb g hg).2.1; omega, (hb g hg).2.2⟩

/-- A room's broadcasts carry increasing log indices within one lifetime of the server, and across a
restart at which its sequencer was at the end of its log. -/
theorem broadcast_order_agreement (w : World G) (ops ops' : List Operation) (r : RoomId) :
    BroadcastsOrdered (broadcastFrames r (w.run A V ops).2) ∧
      ((w.run A V ops).1.nextIndex r = ((w.run A V ops).1.storage.frames r).length →
        BroadcastsOrdered (broadcastFrames r ((w.run A V ops).2 ++ ((w.run A V ops).1.restart.run A V ops').2))) := by
  obtain ⟨h₁, hb₁⟩ := run_broadcasts A V ops r (w := w)
  obtain ⟨h₂, hb₂⟩ := run_broadcasts A V ops' r (w := (w.run A V ops).1.restart)
  refine ⟨h₁, fun hin => ?_⟩
  rw [broadcastFrames_append]
  refine List.pairwise_append.mpr ⟨h₁, h₂, fun a ha b hb => .inl ?_⟩
  calc a.header.logIndex < (w.run A V ops).1.nextIndex r := (hb₁ a ha).2.2
    _ = (w.run A V ops).1.restart.nextIndex r := by rw [restart_nextIndex, hin]
    _ ≤ b.header.logIndex := (hb₂ b hb).2.1

/-- From a world whose sequencer stands at the end of room `r`'s log, a run after which the room is not
past its log adds to the log exactly the run's broadcasts of the room, in order. -/
theorem stored_log_is_broadcast_history (ops : List Operation) (r : RoomId) :
    ∀ {w : World G}, w.nextIndex r = (w.storage.frames r).length → ¬ (w.run A V ops).1.PastLog r →
      (w.run A V ops).1.storage.frames r = w.storage.frames r ++ broadcastFrames r (w.run A V ops).2 := by
  induction ops with
  | nil => exact fun _ _ => (List.append_nil _).symm
  | cons op ops ih =>
    intro w hin hend
    rw [run_cons] at hend ⊢
    have hnext : ¬ (w.step A V op).1.PastLog r := fun h => hend (run_pastLog A V h ops)
    have hin₁ : (w.step A V op).1.nextIndex r = ((w.step A V op).1.storage.frames r).length :=
      Nat.le_antisymm (Nat.not_lt.mp hnext) (step_logWithin A V (show w.LogWithin r from hin.ge) op)
    dsimp only
    rw [ih hin₁ hend, broadcastFrames_append, ← List.append_assoc, step_frames]
    rcases step_broadcasts A V w op r with ⟨hb, hp⟩ | ⟨f, -, -, hb, hp⟩ <;> rw [hb, hp]
    · rw [List.foldl_nil, List.append_nil]
    · rw [writeEntry_twice, writeEntry, if_pos hin]

end World

/-- A second message of room 1's creator. -/
def secondMessage : Frame := ⟨creatorMessage.header, [121, 111]⟩

/-- The refused Commit leaves room 1 past its log, and the message after it is broadcast at index 1.
After a restart, room 1 is created again and two messages are broadcast at indices 0 and 1: index 1
has been broadcast with two frames. -/
example :
    (World.initial.run referenceMls acceptAll leakRun).1.PastLog 1 ∧
      ¬ BroadcastsOrdered (broadcastFrames 1 ((World.initial.run referenceMls acceptAll leakRun).2 ++
        ((World.initial.run referenceMls acceptAll leakRun).1.restart.run referenceMls acceptAll
          [.createRoom 1 1 0, .processFrame creatorMessage 0, .processFrame secondMessage 0]).2)) := by
  decide

/-- Room 1 is created and its creator's message broadcast; the server restarts in step, room 1 is
created again, and a second message is broadcast: the broadcasts of both lifetimes are ordered. -/
theorem restart_in_step_keeps_broadcast_order :
    (World.initial.run referenceMls acceptAll [.createRoom 1 1 0, .processFrame creatorMessage 0]).1.nextIndex 1 =
        ((World.initial.run referenceMls acceptAll [.createRoom 1 1 0, .processFrame creatorMessage 0]).1.storage.frames
          1).length ∧
      BroadcastsOrdered (broadcastFrames 1
        (World.initial.run referenceMls acceptAll [.createRoom 1 1 0, .processFrame creatorMessage 0]).2) ∧
      BroadcastsOrdered (broadcastFrames 1
        ((World.initial.run referenceMls acceptAll [.createRoom 1 1 0, .processFrame creatorMessage 0]).2 ++
          ((World.initial.run referenceMls acceptAll [.createRoom 1 1 0, .processFrame creatorMessage 0]).1.restart.run
            referenceMls acceptAll [.createRoom 1 1 0, .processFrame secondMessage 0]).2)) :=
  have h : (World.initial.run referenceMls acceptAll [.createRoom 1 1 0, .processFrame creatorMessage 0]).1.nextIndex 1 =
      ((World.initial.run referenceMls acceptAll [.createRoom 1 1 0, .processFrame creatorMessage 0]).1.storage.frames
        1).length := by
    decide
  ⟨h, (World.broadcast_order_agreement referenceMls acceptAll World.initial _ [.createRoom 1 1 0, .processFrame secondMessage 0] 1).1,
    (World.broadcast_order_agreement referenceMls acceptAll World.initial _ [.createRoom 1 1 0, .processFrame secondMessage 0] 1).2 h⟩

/-- Room 1 is created and two messages of its creator processed: the log is the two frames broadcast. -/
theorem two_messages_log_is_broadcast :
    (World.initial : World RefGroup).nextIndex 1 = ((World.initial : World RefGroup).storage.frames 1).length ∧
      ¬ (World.initial.run referenceMls acceptAll
          [.createRoom 1 1 0, .processFrame creatorMessage 0, .processFrame secondMessage 0]).1.PastLog 1 ∧
      (World.initial.run referenceMls acceptAll
          [.createRoom 1 1 0, .processFrame creatorMessage 0, .processFrame secondMessage 0]).1.storage.frames 1 =
        (World.initial : World RefGroup).storage.frames 1 ++ broadcastFrames 1 (World.initial.run referenceMls acceptAll
          [.createRoom 1 1 0, .processFrame creatorMessage 0, .processFrame secondMessage 0]).2 :=
  have h : ¬ (World.initial.run referenceMls acceptAll
      [.createRoom 1 1 0, .processFrame creatorMessage 0, .processFrame secondMessage 0]).1.PastLog 1 := by
    decide
  ⟨rfl, h, World.stored_log_is_broadcast_history referenceMls acceptAll _ 1 rfl h⟩

end Kalandra
