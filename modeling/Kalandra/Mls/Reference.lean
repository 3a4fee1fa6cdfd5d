import Kalandra.Mls.Adapter

/-!
# A reference MLS adapter

A small group that keeps the contract §4.3 states for the MLS adapter: a group starts at epoch 0 with
its creator as sole member, `add_members_from_bytes` and `remove_members` place a pending commit and
yield its frame, `merge_pending_commit` applies it, and `process_message` merges a peer's commit,
records a proposal, or fails on anything it cannot read. The statements about the room manager and
the client quantify over every adapter; this one is where their counterexamples run.

Its messages have a minimal form of their own (a tag, the epoch, member identifiers as bytes). It is
not the MLS wire format, which the code never reads: the code hands payloads to the adapter whole.
-/

namespace Kalandra

/-- The change a commit makes to the member list. -/
inductive RefCommit
  | add (members : List MemberId)
  | remove (members : List MemberId)
  deriving DecidableEq, Repr

/-- Modelled from the spec: the state of a group in the reference adapter. `MlsGroup` wraps the MLS
library, which is not in the sources. -/
structure RefGroup where
  roomId : RoomId
  epoch : Nat
  members : List MemberId
  own : MemberId
  pending : Option RefCommit
  proposals : List MemberId
  deriving DecidableEq, Repr

/-- The messages the reference adapter reads from a payload. -/
inductive RefMessage
  | commit (epoch : Nat) (change : RefCommit)
  | proposal (epoch : Nat) (member : MemberId)
  deriving DecidableEq, Repr

namespace RefCommit

def apply : RefCommit → List MemberId → List MemberId
  | .add ms, members => members ++ ms.filter (fun m => !members.contains m)
  | .remove ms, members => members.filter (fun m => !ms.contains m)

def encode (epoch : Nat) : RefCommit → Bytes
  | .add ms => (1 :: epoch :: ms).map UInt8.ofNat
  | .remove ms => (2 :: epoch :: ms).map UInt8.ofNat

end RefCommit

/-- Read a payload of the reference form. -/
def RefMessage.decode (payload : Bytes) : Option RefMessage :=
  match payload.map UInt8.toNat with
  | 1 :: e :: ms => some (.commit e (.add ms))
  | 2 :: e :: ms => some (.commit e (.remove ms))
  | [3, e, m] => some (.proposal e m)
  | _ => none

/-- A key package of the reference form names the joining member in one byte. -/
def RefGroup.decodeKeyPackage (kp : Bytes) : Option MemberId :=
  match kp with
  | [m] => some m.toNat
  | _ => none

namespace RefGroup

/-- The group one epoch on, with a commit applied. -/
def advance (g : RefGroup) (c : RefCommit) : RefGroup :=
  { g with epoch := g.epoch + 1, members := c.apply g.members, pending := none, proposals := [] }

/-- A frame this group sends, addressed by its room, its own identity and its epoch. -/
def frame (g : RefGroup) (op : Opcode) (payload : Bytes) : Frame :=
  { header := ((FrameHeader.new op).setRoomId g.roomId).setSenderId g.own |>.setEpoch g.epoch
    payload }

def create (room creator : Nat) : RefGroup :=
  { roomId := room, epoch := 0, members := [creator], own := creator, pending := none, proposals := [] }

def mergePending (g : RefGroup) : Except MlsError RefGroup :=
  match g.pending with
  | some c => .ok (g.advance c)
  | none => .error (.other "no pending commit")

def process (g : RefGroup) (f : Frame) : Except MlsError (List MlsAction × RefGroup) :=
  match RefMessage.decode f.payload with
  | some (.commit e c) =>
    if e = g.epoch then .ok ([.log "epoch advanced"], g.advance c) else .error (.other "wrong epoch")
  | some (.proposal e m) =>
    if e = g.epoch then .ok ([], { g with proposals := m :: g.proposals }) else .error (.other "wrong epoch")
  | none => .error (.other "malformed message")

/-- Place a pending commit and return its frame, with the welcomes it yields. -/
def commitTo (g : RefGroup) (c : RefCommit) (welcomes : List MemberId) : List MlsAction × RefGroup :=
  (.sendCommit (g.frame .commit (c.encode g.epoch)) ::
      welcomes.map (fun m => .sendWelcome (g.frame .welcome [UInt8.ofNat m])),
    { g with pending := some c })

def addMembers (g : RefGroup) (kps : List Bytes) : Except MlsError (List MlsAction × RefGroup) :=
  if g.pending.isSome then .error (.other "pending commit")
  else match kps.mapM decodeKeyPackage with
    | some ms => .ok (g.commitTo (.add ms) ms)
    | none => .error (.other "invalid key package")

def removeMembers (g : RefGroup) (ids : List MemberId) : Except MlsError (List MlsAction × RefGroup) :=
  if g.pending.isSome then .error (.other "pending commit")
  else if ids.contains g.own then .error (.other "cannot remove self")
  else match ids.find? (fun m => !g.members.contains m) with
    | some m => .error (.memberNotFound m)
    | none => .ok (g.commitTo (.remove ids) [])

def exportState (g : RefGroup) : MlsGroupState :=
  { roomId := g.roomId, epoch := g.epoch, members := g.members,
    memberKeys := g.members.map fun m => (m, [UInt8.ofNat m]) }

/-- A secret per room and epoch; an evicted member can no longer export one. -/
def exportSecret (g : RefGroup) (len : Nat) : Except MlsError Bytes :=
  if g.members.contains g.own then .ok (List.replicate len (UInt8.ofNat (g.roomId + 16 * g.epoch)))
  else .error (.other "use after eviction")

end RefGroup

/-- The reference adapter. -/
def referenceMls : MlsAdapter RefGroup where
  new room creator := .ok (RefGroup.create room creator, [])
  epoch g := g.epoch
  members g := g.members.enum
  memberLeafIndices g := List.range g.members.length
  ownLeafIndex g := g.members.indexOf g.own
  hasPendingCommit g := g.pending.isSome
  mergePendingCommit g := g.mergePending
  processMessage g f := g.process f
  addMembersFromBytes g kps := g.addMembers kps
  removeMembers g ids := g.removeMembers ids
  leaveGroup g := .ok ([.sendProposal (g.frame .proposal ([3, g.epoch, g.own].map UInt8.ofNat))], g)
  exportGroupState g := .ok g.exportState
  exportSecret g _ _ len := g.exportSecret len

/-- A signature validator that accepts every frame. -/
def acceptAll : SignatureValidator := fun _ _ => .ok .accept

/-! ### The reference adapter keeps the epoch contract -/

theorem RefGroup.commitTo_epoch (g : RefGroup) (c : RefCommit) (ws : List MemberId) :
    (g.commitTo c ws).2.epoch = g.epoch := rfl

theorem referenceMls_epochLawful : referenceMls.EpochLawful where
  new_epoch h := by
    simp only [referenceMls, Except.ok.injEq, Prod.mk.injEq] at h
    rw [← h.1]; rfl
  merge_epoch {g g'} h := by
    simp only [referenceMls, RefGroup.mergePending] at h ⊢
    split at h <;> simp only [Except.ok.injEq, reduceCtorEq] at h
    rw [← h]; rfl
  process_epoch {g f acts g'} h := by
    simp only [referenceMls, RefGroup.process] at h ⊢
    split at h <;> (try split at h) <;> simp only [Except.ok.injEq, Prod.mk.injEq, reduceCtorEq] at h
    · exact .inr (h.2 ▸ rfl)
    · exact .inl (h.2 ▸ rfl)
  add_epoch {g kps acts g'} h := by
    simp only [referenceMls, RefGroup.addMembers] at h ⊢
    split at h
    · cases h
    · split at h <;> simp only [Except.ok.injEq, reduceCtorEq] at h
      rw [show g' = _ from congrArg Prod.snd h.symm, RefGroup.commitTo_epoch]
  remove_epoch {g ids acts g'} h := by
    simp only [referenceMls, RefGroup.removeMembers] at h ⊢
    split at h
    · cases h
    · split at h
      · cases h
      · split at h <;> simp only [Except.ok.injEq, reduceCtorEq] at h
        rw [show g' = _ from congrArg Prod.snd h.symm, RefGroup.commitTo_epoch]
  leave_epoch h := by
    simp only [referenceMls, Except.ok.injEq, Prod.mk.injEq] at h
    rw [← h.2]

end Kalandra
