import Kalandra.Server.ProcessFrame
import Kalandra.Mls.Reference

/-!
# Log indices

The sequencer numbers a frame as soon as it passes `validate_frame_basic`, and `process_frame` may
still fail afterwards: a signature rejected by the validator, a Commit the MLS layer refuses to merge
or process, a failed state export. Each of these returns `Err` with the sequencer already advanced,
so the number it gave the frame is never persisted, and the next accepted frame of the room carries
the number after it. Storage accepts only the next index of its log, so that frame's `store_frame`
meets a `Conflict` and the driver only logs it.

`processFrame_nextLogIndex` states the mechanism for every call; the run below is one instance. The
gap it opens never closes: from then on every write of the room misses the end of its log, and the
room's log stays as it is whatever follows (`past_log_room_stores_nothing`). What the numbering does
keep is uniqueness: no index is given to two frames (`persisted_indices_never_reused`). And until a
gap opens nothing is lost: a room whose sequencer has not passed its log holds exactly the frames
its `PersistFrame` actions carried (`in_step_log_keeps_every_write`).
-/

namespace Kalandra

namespace RoomManager

variable {G : Type} (A : MlsAdapter G) (V : SignatureValidator)

theorem processFrame_nextLogIndex {rm : RoomManager G} {frame : Frame} {storage : MemoryStorage}
    (h : rm.Admits A frame storage) (now : Nat) :
    (rm.processFrame A V frame now storage).1.sequencer.nextLogIndex storage frame.header.roomId =
      rm.sequencer.nextLogIndex storage frame.header.roomId + 1 := by
  rw [processFrame_sequencer_of_admits A V h, Sequencer.nextLogIndex_processFrame, if_pos rfl]

end RoomManager

/-- A Commit frame whose payload the reference adapter cannot read. -/
def garbledCommit : Frame := ⟨((FrameHeader.new .commit).setRoomId 1).setSenderId 1, [0]⟩

/-- A message of room 1's creator at epoch 0. -/
def creatorMessage : Frame := ⟨((FrameHeader.new .appMessage).setRoomId 1).setSenderId 1, [104, 105]⟩

/-- Room 1 is created by member 1; a Commit is sequenced and then refused by the MLS layer; a
message follows. -/
def leakRun : List Operation :=
  [.createRoom 1 1 0, .processFrame garbledCommit 0, .processFrame creatorMessage 0]

/-- The refused Commit took index 0: the message is persisted at index 1 (by its `AcceptFrame` and
its `StoreFrame`), storage refuses it, and room 1's log stays empty. -/
theorem process_frame_skips_log_index :
    persistedIndices 1 (World.initial.run referenceMls acceptAll leakRun).2 = [1, 1] ∧
      (World.initial.run referenceMls acceptAll (leakRun.take 2)).1.storage.storeFrame 1 1
        (creatorMessage.withLogIndex 1) = .error (.conflict 0 1) ∧
      (World.initial.run referenceMls acceptAll leakRun).1.storage.frames 1 = [] :=
  ⟨by decide, rfl, by decide⟩

/-- The refused Commit's call returns `Err`, and leaves the sequencer's next index for room 1 at 1
where it was 0. -/
theorem process_frame_error_advances_sequencer :
    ((World.initial.run referenceMls acceptAll [.createRoom 1 1 0]).1.manager.processFrame referenceMls
        acceptAll garbledCommit 0 MemoryStorage.empty).2 = .error (.mlsValidation (.other "malformed message")) ∧
      (World.initial.run referenceMls acceptAll [.createRoom 1 1 0]).1.manager.sequencer.nextLogIndex
        MemoryStorage.empty 1 = 0 ∧
      ((World.initial.run referenceMls acceptAll [.createRoom 1 1 0]).1.manager.processFrame referenceMls
        acceptAll garbledCommit 0 MemoryStorage.empty).1.sequencer.nextLogIndex MemoryStorage.empty 1 = 1 :=
  ⟨rfl, by decide, by decide⟩

/-! ### A room's log is its writes, in order

Room `r`'s log is what the compare-and-set of `store_frame` makes of the room's writes, one after
the other (`step_frames`): a write lands when it is at the end of the log, and is dropped otherwise. -/

/-- What a write of frame `e.2` at index `e.1` does to a room's log under `store_frame`. -/
def writeEntry (log : List Frame) (e : Nat × Frame) : List Frame :=
  if e.1 = log.length then log ++ [e.2] else log

theorem length_writeEntry_le (log : List Frame) (e : Nat × Frame) :
    (writeEntry log e).length ≤ log.length + 1 := by
  unfold writeEntry
  split_ifs <;> simp

theorem writeEntry_twice (log : List Frame) (e : Nat × Frame) :
    [e, e].foldl writeEntry log = writeEntry log e := by
  simp only [List.foldl_cons, List.foldl_nil, writeEntry]
  split_ifs with h <;> simp_all

theorem getElem?_append_singleton_eq_some {l : List Frame} {x y : Frame} {i : Nat} :
    (l ++ [x])[i]? = some y ↔ l[i]? = some y ∨ (i = l.length ∧ y = x) := by
  rcases Nat.lt_trichotomy i l.length with hi | rfl | hi
  · simp [List.getElem?_append_left hi, Nat.ne_of_lt hi]
  · simp [eq_comm]
  · simp [List.getElem?_eq_none (by simpa using hi : (l ++ [x]).length ≤ i),
      List.getElem?_eq_none (Nat.le_of_lt hi), Nat.ne_of_gt hi]

theorem RoomAction.execute_frames (s : MemoryStorage) (a : RoomAction) (r : RoomId) :
    (RoomAction.execute s a).frames r = (persistedEntries r [a]).foldl writeEntry (s.frames r) := by
  cases a with
  | persistFrame r' i f t =>
    by_cases hr : r' = r
    · subst hr
      by_cases hi : i = (s.frames r').length <;>
        simp [RoomAction.execute, MemoryStorage.storeFrame, persistedEntries, writeEntry, hi]
    · by_cases hi : i = (s.frames r').length <;>
        simp [RoomAction.execute, MemoryStorage.storeFrame, persistedEntries, hi, hr, Function.update_apply, Ne.symm hr]
  | _ => rfl

theorem executeActions_frames (actions : List RoomAction) (r : RoomId) :
    ∀ s : MemoryStorage,
      (executeActions s actions).frames r = (persistedEntries r actions).foldl writeEntry (s.frames r) := by
  induction actions with
  | nil => exact fun _ => rfl
  | cons a actions ih =>
    intro s
    rw [show a :: actions = [a] ++ actions from rfl, persistedEntries_append, List.foldl_append,
      ← RoomAction.execute_frames]
    exact ih (RoomAction.execute s a)

namespace World

variable {G : Type} (A : MlsAdapter G) (V : SignatureValidator)

theorem step_frames (w : World G) (op : Operation) (r : RoomId) :
    (w.step A V op).1.storage.frames r =
      (persistedEntries r (w.step A V op).2).foldl writeEntry (w.storage.frames r) := by
  cases op with
  | processFrame frame now =>
    obtain ⟨-, ⟨-, hs, htr⟩ | ⟨actions, -, hs, htr⟩⟩ := step_processFrame A V w frame now <;> rw [hs, htr]
    · rfl
    · exact executeActions_frames actions r w.storage
  | _ => rfl

end World

/-! ### A room whose sequencer is past its log

The gap that an error after sequencing leaves never closes. The sequencer gives the room's next frame
the index after its last, storage wants the index after the last frame it stored, and the first is
past the second: every write of the room meets a `Conflict`, and the sequencer moves further on. -/

namespace Sequencer

theorem nextLogIndex_congr (seq : Sequencer) {s s' : MemoryStorage} {r : RoomId} (h : s.frames r = s'.frames r) :
    seq.nextLogIndex s r = seq.nextLogIndex s' r := by
  simp only [nextLogIndex, MemoryStorage.latestLogIndex, h]

end Sequencer

/-- A write that is not at index `L` of room `r`'s log. -/
def RoomAction.Misses (r L : Nat) : RoomAction → Prop
  | .persistFrame r' i _ _ => r' = r → i ≠ L
  | _ => True

theorem executeActions_frames_of_misses {r : RoomId} (actions : List RoomAction) :
    ∀ {s : MemoryStorage}, (∀ a ∈ actions, a.Misses r (s.frames r).length) →
      (executeActions s actions).frames r = s.frames r := by
  induction actions with
  | nil => exact fun _ => rfl
  | cons a actions ih =>
    intro s ha
    have hstep : (RoomAction.execute s a).frames r = s.frames r := by
      have ha' := ha a (List.mem_cons_self _ _)
      rw [RoomAction.execute_frames]
      cases a with
      | persistFrame r' i f t =>
        by_cases hr : r' = r
        · simp [persistedEntries, writeEntry, hr, ha' hr]
        · simp [persistedEntries, hr]
      | _ => rfl
    exact (ih fun b hb => hstep ▸ ha b (List.mem_cons_of_mem _ hb)).trans hstep

namespace RoomManager

variable {G : Type} (A : MlsAdapter G) (V : SignatureValidator)

theorem nextLogIndex_le_processFrame (rm : RoomManager G) (frame : Frame) (now : Nat) (storage : MemoryStorage)
    (r : RoomId) :
    rm.sequencer.nextLogIndex storage r ≤
      (rm.processFrame A V frame now storage).1.sequencer.nextLogIndex storage r := by
  by_cases h : rm.Admits A frame storage
  · rw [processFrame_sequencer_of_admits A V h, Sequencer.nextLogIndex_processFrame]
    split_ifs <;> omega
  · rw [processFrame_of_not_admits A V h]

theorem processFrame_misses {rm : RoomManager G} {frame : Frame} {now : Nat} {storage : MemoryStorage}
    {actions : List RoomAction} (h : (rm.processFrame A V frame now storage).2 = .ok actions) {r : RoomId}
    (hgap : frame.header.roomId = r → (storage.frames r).length < rm.sequencer.nextLogIndex storage r) :
    ∀ a ∈ actions, a.Misses r (storage.frames r).length := by
  intro a ha
  cases a with
  | persistFrame r' i f t =>
    intro hr
    obtain ⟨rfl, rfl, -⟩ := processFrame_persistFrame A V h ha
    have := hgap hr
    subst hr
    omega
  | _ => trivial

end RoomManager

namespace World

variable {G : Type} (A : MlsAdapter G) (V : SignatureValidator)

/-- Room `r`'s sequencer has numbered past the end of its stored log. -/
def PastLog (w : World G) (r : RoomId) : Prop :=
  (w.storage.frames r).length < w.manager.sequencer.nextLogIndex w.storage r

instance (w : World G) (r : RoomId) : Decidable (w.PastLog r) := inferInstanceAs (Decidable (_ < _))

theorem step_pastLog {w : World G} {r : RoomId} (h : w.PastLog r) (op : Operation) :
    (w.step A V op).1.storage.frames r = w.storage.frames r ∧ (w.step A V op).1.PastLog r := by
  rcases step_of_not_processFrame A V w op with ⟨frame, now, rfl⟩ | ⟨hseq, hs, -⟩
  · have hle := RoomManager.nextLogIndex_le_processFrame A V w.manager frame now w.storage r
    obtain ⟨hm, ⟨-, hs, -⟩ | ⟨actions, hok, hs, -⟩⟩ := step_processFrame A V w frame now <;>
      simp only [PastLog, hm, hs, true_and]
    · exact Nat.lt_of_lt_of_le h hle
    · have hframes := executeActions_frames_of_misses actions (RoomManager.processFrame_misses A V hok fun _ => h)
      rw [hframes, ← Sequencer.nextLogIndex_congr _ hframes.symm]
      exact ⟨rfl, Nat.lt_of_lt_of_le h hle⟩
  · simpa only [PastLog, hseq, hs, true_and] using h

/-- Once room `r`'s sequencer is past the end of its stored log, no later operation stores a frame of
the room, and the sequencer stays past it. -/
theorem past_log_room_stores_nothing {w : World G} {r : RoomId} (h : w.PastLog r) (ops : List Operation) :
    (w.run A V ops).1.storage.frames r = w.storage.frames r ∧ (w.run A V ops).1.PastLog r := by
  induction ops generalizing w with
  | nil => exact ⟨rfl, h⟩
  | cons op ops ih =>
    obtain ⟨h₁, hp⟩ := step_pastLog A V h op
    obtain ⟨h₂, hp'⟩ := ih hp
    exact ⟨h₂.trans h₁, hp'⟩

end World

/-- After the run of the refused Commit, room 1 is past its log, and a further message of its creator
is stored nowhere. -/
theorem leak_run_log_frozen :
    (World.initial.run referenceMls acceptAll leakRun).1.PastLog 1 ∧
      ((World.initial.run referenceMls acceptAll leakRun).1.run referenceMls acceptAll
          [.processFrame creatorMessage 0]).1.storage.frames 1 =
        (World.initial.run referenceMls acceptAll leakRun).1.storage.frames 1 ∧
      ((World.initial.run referenceMls acceptAll leakRun).1.run referenceMls acceptAll
          [.processFrame creatorMessage 0]).1.PastLog 1 :=
  have h : (World.initial.run referenceMls acceptAll leakRun).1.PastLog 1 := by decide
  ⟨h, World.past_log_room_stores_nothing referenceMls acceptAll h _⟩

/-! ### Indices are never given twice

What holds of the numbering is the other half: the sequencer gives each room's indices in increasing
order, one per frame it numbers, so two `PersistFrame` actions of a room that carry one index carry
one frame. -/

namespace Sequencer

theorem nextLogIndex_processFrame_self (seq : Sequencer) (frame : Frame) (storage storage' : MemoryStorage)
    (now : Nat) :
    (seq.processFrame frame storage now).1.nextLogIndex storage' frame.header.roomId =
      seq.nextLogIndex storage frame.header.roomId + 1 := by
  simp [processFrame, nextLogIndex]

theorem nextLogIndex_processFrame_other (seq : Sequencer) (frame : Frame) (storage storage' : MemoryStorage)
    (now : Nat) {r : RoomId} (hr : r ≠ frame.header.roomId) :
    (seq.processFrame frame storage now).1.nextLogIndex storage' r = seq.nextLogIndex storage' r := by
  simp [processFrame, nextLogIndex, hr]

end Sequencer

namespace RoomManager

variable {G : Type} (A : MlsAdapter G) (V : SignatureValidator)

theorem processFrame_entries {rm : RoomManager G} {frame : Frame} {now : Nat} {storage : MemoryStorage}
    {actions : List RoomAction} (h : (rm.processFrame A V frame now storage).2 = .ok actions) (r : RoomId) :
    persistedEntries r actions =
      if frame.header.roomId = r then
        [(rm.sequencer.nextLogIndex storage r, frame.sequenced (rm.sequencer.nextLogIndex storage r) now),
          (rm.sequencer.nextLogIndex storage r, frame.sequenced (rm.sequencer.nextLogIndex storage r) now)]
      else [] := by
  obtain ⟨-, -, -, -, extra, rfl, hextra⟩ := processFrame_ok A V h
  have hnone : persistedEntries r extra = [] := by
    simp only [persistedEntries, List.filterMap_eq_nil_iff]
    intro a ha
    obtain ⟨st, rfl⟩ := hextra a ha
    rfl
  simp only [persistedEntries, List.filterMap_append] at hnone ⊢
  rw [hnone, List.append_nil]
  split_ifs with hr
  · subst hr
    simp [SequencerAction.toRoomAction]
  · simp [SequencerAction.toRoomAction, hr]

end RoomManager

namespace World

variable {G : Type} (A : MlsAdapter G) (V : SignatureValidator)

/-- The index room `r`'s next frame receives. -/
def nextIndex (w : World G) (r : RoomId) : Nat := w.manager.sequencer.nextLogIndex w.storage r

theorem step_entries (w : World G) (op : Operation) (r : RoomId) :
    (persistedEntries r (w.step A V op).2 = [] ∧ w.nextIndex r ≤ (w.step A V op).1.nextIndex r) ∨
      ∃ f, persistedEntries r (w.step A V op).2 = [(w.nextIndex r, f), (w.nextIndex r, f)] ∧
        (w.step A V op).1.nextIndex r = w.nextIndex r + 1 := by
  rcases step_of_not_processFrame A V w op with ⟨frame, now, rfl⟩ | ⟨hseq, hs, htr⟩
  · have hle := RoomManager.nextLogIndex_le_processFrame A V w.manager frame now w.storage r
    obtain ⟨hm, ⟨-, hs, htr⟩ | ⟨actions, hok, hs, htr⟩⟩ := step_processFrame A V w frame now <;>
      simp only [nextIndex, hm, hs, htr]
    · exact .inl ⟨rfl, hle⟩
    · rw [RoomManager.processFrame_sequencer_of_admits A V (RoomManager.admits_of_ok A V hok),
        RoomManager.processFrame_entries A V hok r]
      split_ifs with hr
      · subst hr
        exact .inr ⟨_, rfl, Sequencer.nextLogIndex_processFrame_self _ _ _ _ _⟩
      · have hframes := executeActions_frames_of_misses actions
          (RoomManager.processFrame_misses A V hok fun h => absurd h hr)
        refine .inl ⟨rfl, ?_⟩
        rw [Sequencer.nextLogIndex_processFrame_other _ _ _ _ _ (Ne.symm hr), Sequencer.nextLogIndex_congr _ hframes]
  · exact .inl ⟨by rw [htr]; rfl, by simp only [nextIndex, hseq, hs, Nat.le_refl]⟩

/-- Two entries in trace order: the later has a larger index, or both are one write of one frame. -/
def EntriesOrdered (entries : List (Nat × Frame)) : Prop := entries.Pairwise fun a b => a.1 < b.1 ∨ a = b

theorem run_entries_bounded (ops : List Operation) (r : RoomId) :
    ∀ {w : World G}, w.nextIndex r ≤ (w.run A V ops).1.nextIndex r ∧
      ∀ e ∈ persistedEntries r (w.run A V ops).2, w.nextIndex r ≤ e.1 ∧ e.1 < (w.run A V ops).1.nextIndex r := by
  induction ops with
  | nil => exact fun {w} => ⟨Nat.le_refl _, fun _ => nofun⟩
  | cons op ops ih =>
    intro w
    obtain ⟨hmono, hb⟩ := @ih (w.step A V op).1
    rw [run_cons, persistedEntries_append]
    dsimp only
    rcases step_entries A V w op r with ⟨hnil, hle⟩ | ⟨f, hpair, hnext⟩
    · rw [hnil, List.nil_append]
      exact ⟨Nat.le_trans hle hmono, fun e he => ⟨Nat.le_trans hle (hb e he).1, (hb e he).2⟩⟩
    · rw [hpair]
      refine ⟨by omega, fun e he => ?_⟩
      rcases List.mem_append.mp he with he | he
      · obtain rfl | rfl : e = (w.nextIndex r, f) ∨ e = (w.nextIndex r, f) := by simpa using he
        all_goals exact ⟨Nat.le_refl _, by omega⟩
      · exact ⟨by have := (hb e he).1; omega, (hb e he).2⟩

/-- Over any run, a room's `PersistFrame` indices never decrease, and two actions with one index carry
one frame. -/
theorem persisted_indices_never_reused (w : World G) (ops : List Operation) (r : RoomId) :
    EntriesOrdered (persistedEntries r (w.run A V ops).2) := by
  induction ops generalizing w with
  | nil => exact List.Pairwise.nil
  | cons op ops ih =>
    have hb := (@run_entries_bounded G A V ops r (w.step A V op).1).2
    rw [run_cons, persistedEntries_append]
    rcases step_entries A V w op r with ⟨hnil, -⟩ | ⟨f, hpair, hnext⟩
    · rw [hnil, List.nil_append]
      exact ih _
    · rw [hpair]
      refine List.pairwise_append.mpr ⟨by simp [EntriesOrdered], ih _, fun a ha b hb' => .inl ?_⟩
      obtain rfl | rfl : a = (w.nextIndex r, f) ∨ a = (w.nextIndex r, f) := by simpa using ha
      all_goals have := (hb b hb').1; omega

end World

/-! ### While in step, no write is lost

The sequencer never numbers behind the log's end (`LogWithin`); while it numbers at the end, the
frame it numbers is written there. So a room whose sequencer has not passed its log holds exactly
the frames its `PersistFrame` actions carried, each at its index. -/

namespace World

variable {G : Type} (A : MlsAdapter G) (V : SignatureValidator)

/-- Room `r`'s log does not reach the index after the one its sequencer gives next. -/
def LogWithin (w : World G) (r : RoomId) : Prop := (w.storage.frames r).length ≤ w.nextIndex r

theorem step_logWithin {w : World G} {r : RoomId} (h : w.LogWithin r) (op : Operation) :
    (w.step A V op).1.LogWithin r := by
  unfold LogWithin
  rw [step_frames]
  rcases step_entries A V w op r with ⟨hnil, hle⟩ | ⟨f, hpair, hnext⟩
  · rw [hnil]
    exact Nat.le_trans h hle
  · rw [hpair, writeEntry_twice, hnext]
    exact Nat.le_trans (length_writeEntry_le _ _) (Nat.add_le_add_right h 1)

theorem run_pastLog {w : World G} {r : RoomId} (h : w.PastLog r) (ops : List Operation) :
    (w.run A V ops).1.PastLog r := by
  induction ops generalizing w with
  | nil => exact h
  | cons op ops ih => exact ih (step_pastLog A V h op).2

theorem run_frames_in_step (ops : List Operation) (r : RoomId) :
    ∀ {w : World G}, w.LogWithin r → ¬ (w.run A V ops).1.PastLog r → ∀ i f,
      ((w.run A V ops).1.storage.frames r)[i]? = some f ↔
        (w.storage.frames r)[i]? = some f ∨ (i, f) ∈ persistedEntries r (w.run A V ops).2 := by
  induction ops with
  | nil => intro w _ _ i f; simp [persistedEntries]
  | cons op ops ih =>
    intro w hw hend i f
    rw [run_cons] at hend ⊢
    have hnext : ¬ (w.step A V op).1.PastLog r := fun h => hend (run_pastLog A V h ops)
    have hin : w.nextIndex r = (w.storage.frames r).length :=
      Nat.le_antisymm (Nat.not_lt.mp fun h => hnext (step_pastLog A V h op).2) hw
    rw [ih (step_logWithin A V hw op) hend i f, persistedEntries_append, List.mem_append, step_frames]
    rcases step_entries A V w op r with ⟨hnil, -⟩ | ⟨f₀, hpair, -⟩
    · simp [hnil]
    · rw [hpair, writeEntry_twice, writeEntry, if_pos hin, getElem?_append_singleton_eq_some]
      simp only [← hin, List.mem_cons, Prod.mk.injEq, List.mem_singleton, or_self, List.not_mem_nil, or_false]
      exact or_assoc

/-- Over a run from `RoomManager::new()` that leaves room `r` in step, the log holds `f` at `i` exactly
when some `PersistFrame` action of the run carried `f` at `i`. -/
theorem in_step_log_keeps_every_write (ops : List Operation) (r : RoomId)
    (h : ¬ ((initial : World G).run A V ops).1.PastLog r) (i : Nat) (f : Frame) :
    (((initial : World G).run A V ops).1.storage.frames r)[i]? = some f ↔
      (i, f) ∈ persistedEntries r ((initial : World G).run A V ops).2 := by
  rw [run_frames_in_step A V ops r (Nat.zero_le _) h i f]
  simp [initial]

end World

/-- Room 1 created and one message of its creator processed: the room is in step, and its log
holds the message at index 0, the one write of the run. -/
theorem message_run_log_holds_write :
    ¬ (World.initial.run referenceMls acceptAll [.createRoom 1 1 0, .processFrame creatorMessage 0]).1.PastLog 1 ∧
      (((World.initial.run referenceMls acceptAll [.createRoom 1 1 0, .processFrame creatorMessage 0]).1.storage.frames
          1)[0]? = some (creatorMessage.withLogIndex 0) ↔
        (0, creatorMessage.withLogIndex 0) ∈
          persistedEntries 1 (World.initial.run referenceMls acceptAll [.createRoom 1 1 0, .processFrame creatorMessage 0]).2) :=
  have h : ¬ (World.initial.run referenceMls acceptAll [.createRoom 1 1 0, .processFrame creatorMessage 0]).1.PastLog 1 := by
    decide
  ⟨h, World.in_step_log_keeps_every_write referenceMls acceptAll _ 1 h 0 _⟩

end Kalandra
