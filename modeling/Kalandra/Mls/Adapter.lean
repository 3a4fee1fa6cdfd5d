import Kalandra.Proto.Frame

/-!
# The MLS group adapter

`kalandra_core::mls` wraps the MLS library behind `MlsGroup`, and the spec treats it as a black box
with a named interface (§4.3). Neither the room manager nor the client looks inside a group: they
call its methods and act on the results. So the group is a type parameter `G` here, and its methods
are the fields of `MlsAdapter G`. Every result about the room manager or the client holds for every
adapter, or for every adapter that keeps the contract a statement names.

A method that takes `&mut self` and returns a `Result` is a function to `Except MlsError (α × G)`:
on success the new group, on failure none. That is the spec's promise for MLS errors, "fatal for the
frame; the group state remains unchanged" (§7).

`MlsGroupState` is the server's replicated view of a group, the value `export_group_state` returns
and storage keeps. The room manager reads two things of it, `is_member` and `member_key`.
-/

namespace Kalandra

/-- The errors of the MLS layer the modelled code names; every other failure is `other`. -/
inductive MlsError
  | memberNotFound (memberId : MemberId)
  | validationFailed (reason : String)
  | other (reason : String)
  deriving DecidableEq, Repr

/-- The `Display` text of an MLS error, which the client copies into `ClientError::Mls`. -/
def MlsError.toString : MlsError → String
  | .memberNotFound m => "member not found: " ++ (Nat.repr m)
  | .validationFailed r => "validation failed: " ++ r
  | .other r => r

/-- The actions an MLS operation asks its caller to perform (`MlsAction`). -/
inductive MlsAction
  | sendCommit (frame : Frame)
  | sendProposal (frame : Frame)
  | sendMessage (frame : Frame)
  | sendWelcome (frame : Frame)
  | deliverMessage (sender : MemberId) (plaintext : Bytes)
  | removeGroup (reason : String)
  | log (message : String)
  deriving DecidableEq, Repr

/-- The server's replicated view of a group. -/
structure MlsGroupState where
  roomId : RoomId
  epoch : Nat
  members : List MemberId
  memberKeys : List (MemberId × Bytes)
  deriving DecidableEq, Repr

namespace MlsGroupState

/-- `MlsGroupState::is_member`. -/
def isMember (s : MlsGroupState) (id : MemberId) : Bool := s.members.contains id

/-- `MlsGroupState::member_key`. -/
def memberKey (s : MlsGroupState) (id : MemberId) : Option Bytes := s.memberKeys.lookup id

end MlsGroupState

/-- The outcome of `MlsValidator::validate_signature`. -/
inductive ValidationResult
  | accept
  | reject (reason : String)
  deriving DecidableEq, Repr

/-- `MlsValidator::validate_signature`, which checks a frame against the stored key of its sender.
The validator is part of the MLS layer and a parameter here. -/
abbrev SignatureValidator := Frame → MlsGroupState → Except MlsError ValidationResult

/-- The methods of `MlsGroup` that the room manager and the client call. `members` lists each
member with its leaf index; the code itself only reads `member_leaf_indices` and `own_leaf_index`. -/
structure MlsAdapter (G : Type) where
  new : RoomId → MemberId → Except MlsError (G × List MlsAction)
  epoch : G → Nat
  members : G → List (Nat × MemberId)
  memberLeafIndices : G → List Nat
  ownLeafIndex : G → Nat
  hasPendingCommit : G → Bool
  mergePendingCommit : G → Except MlsError G
  processMessage : G → Frame → Except MlsError (List MlsAction × G)
  addMembersFromBytes : G → List Bytes → Except MlsError (List MlsAction × G)
  removeMembers : G → List MemberId → Except MlsError (List MlsAction × G)
  leaveGroup : G → Except MlsError (List MlsAction × G)
  exportGroupState : G → Except MlsError MlsGroupState
  exportSecret : G → String → Bytes → Nat → Except MlsError Bytes

namespace MlsAdapter

variable {G : Type} (A : MlsAdapter G)

/-- The member at a leaf index. -/
def memberAt (g : G) (leaf : Nat) : Option MemberId := (A.members g).lookup leaf

/-- The epoch contract of §4.3: a group starts at epoch 0, merging a commit advances the epoch by
one, processing a message advances it by at most one (a merged commit) and creating a commit or a
proposal leaves it alone until the commit is merged. -/
structure EpochLawful : Prop where
  new_epoch : ∀ {room creator g acts}, A.new room creator = .ok (g, acts) → A.epoch g = 0
  merge_epoch : ∀ {g g'}, A.mergePendingCommit g = .ok g' → A.epoch g' = A.epoch g + 1
  process_epoch : ∀ {g f acts g'}, A.processMessage g f = .ok (acts, g') →
    A.epoch g' = A.epoch g ∨ A.epoch g' = A.epoch g + 1
  add_epoch : ∀ {g kps acts g'}, A.addMembersFromBytes g kps = .ok (acts, g') → A.epoch g' = A.epoch g
  remove_epoch : ∀ {g ids acts g'}, A.removeMembers g ids = .ok (acts, g') → A.epoch g' = A.epoch g
  leave_epoch : ∀ {g acts g'}, A.leaveGroup g = .ok (acts, g') → A.epoch g' = A.epoch g

end MlsAdapter

end Kalandra
