import Kalandra.Server.RoomManager

/-!
# Runs of the server

The room manager returns actions and its driver performs them. `execute_actions` in `lib.rs` turns
a `PersistFrame` into `storage.store_frame` and a `PersistMlsState` into `storage.store_mls_state`,
and only logs a failed write. A run is a list of room-manager operations from `RoomManager::new()`
and empty storage, with the actions of every `Ok` result of `process_frame` executed in order; its
trace is the list of those actions.

The statements of the server modules are about runs: what the trace holds, what storage holds at
the end, and what every step keeps.
-/

namespace Kalandra

/-- One action of `execute_actions`, against storage. -/
def RoomAction.execute (s : MemoryStorage) : RoomAction → MemoryStorage
  | .persistFrame room i f _ =>
    match s.storeFrame room i f with
    | .ok s' => s'
    | .error _ => s
  | .persistMlsState room state _ => s.storeMlsState room state
  | _ => s

/-- `execute_actions`. -/
def executeActions (s : MemoryStorage) (actions : List RoomAction) : MemoryStorage :=
  actions.foldl RoomAction.execute s

/-- The operations of a run. -/
inductive Operation
  | createRoom (room : RoomId) (creator : MemberId) (now : Nat)
  | addMembers (room : RoomId) (keyPackages : List Bytes)
  | removeMembers (room : RoomId) (memberIds : List MemberId)
  | leaveRoom (room : RoomId)
  | handleSyncRequest (room : RoomId) (senderId : MemberId) (fromLogIndex limit now : Nat)
  | processFrame (frame : Frame) (now : Nat)

/-- The room manager and its storage. -/
structure World (G : Type) where
  manager : RoomManager G
  storage : MemoryStorage

namespace World

variable {G : Type} (A : MlsAdapter G) (V : SignatureValidator)

/-- `RoomManager::new()` with empty storage. -/
def initial : World G := ⟨RoomManager.new, MemoryStorage.empty⟩

/-- One operation, and the actions it hands the driver. A sync request reads and changes nothing. -/
def step (w : World G) : Operation → World G × List RoomAction
  | .createRoom room creator now => (⟨(w.manager.createRoom A room creator now).1, w.storage⟩, [])
  | .addMembers room kps => (⟨(w.manager.addMembers A room kps).1, w.storage⟩, [])
  | .removeMembers room ids => (⟨(w.manager.removeMembers A room ids).1, w.storage⟩, [])
  | .leaveRoom room => (⟨(w.manager.leaveRoom A room).1, w.storage⟩, [])
  | .handleSyncRequest .. => (w, [])
  | .processFrame frame now =>
    match w.manager.processFrame A V frame now w.storage with
    | (rm, .ok actions) => (⟨rm, executeActions w.storage actions⟩, actions)
    | (rm, .error _) => (⟨rm, w.storage⟩, [])

/-- A run and its trace. -/
def run (w : World G) : List Operation → World G × List RoomAction
  | [] => (w, [])
  | op :: ops =>
    let (w', actions) := w.step A V op
    let (w'', rest) := run w' ops
    (w'', actions ++ rest)

@[simp] theorem run_nil (w : World G) : w.run A V [] = (w, []) := rfl

theorem run_cons (w : World G) (op : Operation) (ops : List Operation) :
    w.run A V (op :: ops) = ((w.step A V op).1.run A V ops |>.1,
      (w.step A V op).2 ++ ((w.step A V op).1.run A V ops).2) := rfl

theorem run_append (w : World G) (ops ops' : List Operation) :
    w.run A V (ops ++ ops') =
      (((w.run A V ops).1.run A V ops').1, (w.run A V ops).2 ++ ((w.run A V ops).1.run A V ops').2) := by
  induction ops generalizing w with
  | nil => rfl
  | cons op ops ih => simp only [List.cons_append, run_cons, ih, List.append_assoc]

end World

/-- The log indices of a trace's `PersistFrame` actions for a room, in order. -/
def persistedIndices (room : RoomId) (actions : List RoomAction) : List Nat :=
  actions.filterMap fun
    | .persistFrame r i _ _ => if r = room then some i else none
    | _ => none

/-- The frames of a trace's `PersistFrame` actions for a room, in order. -/
def persistedFrames (room : RoomId) (actions : List RoomAction) : List Frame :=
  actions.filterMap fun
    | .persistFrame r _ f _ => if r = room then some f else none
    | _ => none

/-- The log indices and frames of a trace's `PersistFrame` actions for a room, in order. -/
def persistedEntries (room : RoomId) (actions : List RoomAction) : List (Nat × Frame) :=
  actions.filterMap fun
    | .persistFrame r i f _ => if r = room then some (i, f) else none
    | _ => none

theorem persistedEntries_append (room : RoomId) (a b : List RoomAction) :
    persistedEntries room (a ++ b) = persistedEntries room a ++ persistedEntries room b :=
  List.filterMap_append _ _ _

/-- The frames of a trace's `Broadcast` actions for a room, in order. -/
def broadcastFrames (room : RoomId) (actions : List RoomAction) : List Frame :=
  actions.filterMap fun
    | .broadcast r f _ _ => if r = room then some f else none
    | _ => none

theorem broadcastFrames_append (room : RoomId) (a b : List RoomAction) :
    broadcastFrames room (a ++ b) = broadcastFrames room a ++ broadcastFrames room b :=
  List.filterMap_append _ _ _

end Kalandra
