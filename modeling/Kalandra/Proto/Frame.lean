import Mathlib.Logic.Function.Basic
import Mathlib.Data.List.Basic
import Mathlib.Algebra.Group.Nat.Basic

/-!
# Frames

The wire frame of `kalandra-proto` as the room manager and the client read it: a header with the
opcode, room, sender, epoch, log index and timestamp, and an opaque payload. The proto crate is not
part of the sources, so this module keeps only what `room_manager.rs` and `client.rs` call on a
frame: the getters, the setters `set_room_id`, `set_sender_id`, `set_epoch`, `set_log_index`,
`FrameHeader::new`, and `opcode_enum`, which reads the raw `u16` opcode. The header's `context_id`,
which the sequencer rewrites, is left out: nothing modelled reads it.

The 64-bit and 128-bit fields are numbers. None of the paths modelled here does arithmetic on them
that could leave their range, except where a module says so.
-/

namespace Kalandra

/-- A room identifier (`u128`). -/
abbrev RoomId := Nat

/-- A member or sender identifier (`u64`). -/
abbrev MemberId := Nat

/-- A byte string. -/
abbrev Bytes := List UInt8

/-- The opcodes the protocol recognises. -/
inductive Opcode
  | hello | helloReply | ping | pong | goodbye | appMessage | commit | proposal | welcome
  | syncRequest | syncResponse | error
  deriving DecidableEq, Repr

/-- Modelled from the spec: the `u16` numbering of the opcodes lives in `kalandra-proto`, which is
not in the sources. Only which raw values are recognised matters to the code modelled here. -/
def Opcode.toU16 : Opcode → Nat
  | .hello => 1 | .helloReply => 2 | .ping => 3 | .pong => 4 | .goodbye => 5
  | .appMessage => 6 | .commit => 7 | .proposal => 8 | .welcome => 9
  | .syncRequest => 10 | .syncResponse => 11 | .error => 12

/-- `Opcode::from_u16`: unknown values are rejected. -/
def Opcode.ofU16 : Nat → Option Opcode
  | 1 => some .hello | 2 => some .helloReply | 3 => some .ping | 4 => some .pong
  | 5 => some .goodbye | 6 => some .appMessage | 7 => some .commit | 8 => some .proposal
  | 9 => some .welcome | 10 => some .syncRequest | 11 => some .syncResponse | 12 => some .error
  | _ => none

@[simp] theorem Opcode.ofU16_toU16 (op : Opcode) : Opcode.ofU16 op.toU16 = some op := by
  cases op <;> rfl

/-- The header fields the modelled code reads or writes. -/
structure FrameHeader where
  opcode : Nat
  roomId : RoomId
  senderId : MemberId
  epoch : Nat
  logIndex : Nat
  hlcTimestamp : Nat
  deriving DecidableEq, Repr

namespace FrameHeader

/-- `FrameHeader::new`: every field but the opcode is zero. -/
def new (op : Opcode) : FrameHeader :=
  { opcode := op.toU16, roomId := 0, senderId := 0, epoch := 0, logIndex := 0, hlcTimestamp := 0 }

/-- `FrameHeader::opcode_enum`. -/
def opcodeEnum (h : FrameHeader) : Option Opcode := Opcode.ofU16 h.opcode

def setRoomId (h : FrameHeader) (roomId : RoomId) : FrameHeader := { h with roomId }
def setSenderId (h : FrameHeader) (senderId : MemberId) : FrameHeader := { h with senderId }
def setEpoch (h : FrameHeader) (epoch : Nat) : FrameHeader := { h with epoch }
def setLogIndex (h : FrameHeader) (logIndex : Nat) : FrameHeader := { h with logIndex }
def setHlcTimestamp (h : FrameHeader) (hlcTimestamp : Nat) : FrameHeader := { h with hlcTimestamp }

@[simp] theorem new_opcodeEnum (op : Opcode) : (new op).opcodeEnum = some op := by
  simp [new, opcodeEnum]

@[simp] theorem setSenderId_roomId (h : FrameHeader) (s : MemberId) : (h.setSenderId s).roomId = h.roomId := rfl
@[simp] theorem setSenderId_senderId (h : FrameHeader) (s : MemberId) : (h.setSenderId s).senderId = s := rfl
@[simp] theorem setSenderId_epoch (h : FrameHeader) (s : MemberId) : (h.setSenderId s).epoch = h.epoch := rfl
@[simp] theorem setSenderId_logIndex (h : FrameHeader) (s : MemberId) : (h.setSenderId s).logIndex = h.logIndex := rfl
@[simp] theorem setSenderId_hlcTimestamp (h : FrameHeader) (s : MemberId) :
    (h.setSenderId s).hlcTimestamp = h.hlcTimestamp := rfl
@[simp] theorem setSenderId_opcodeEnum (h : FrameHeader) (s : MemberId) :
    (h.setSenderId s).opcodeEnum = h.opcodeEnum := rfl

@[simp] theorem setLogIndex_roomId (h : FrameHeader) (i : Nat) : (h.setLogIndex i).roomId = h.roomId := rfl
@[simp] theorem setLogIndex_senderId (h : FrameHeader) (i : Nat) : (h.setLogIndex i).senderId = h.senderId := rfl
@[simp] theorem setLogIndex_epoch (h : FrameHeader) (i : Nat) : (h.setLogIndex i).epoch = h.epoch := rfl
@[simp] theorem setLogIndex_logIndex (h : FrameHeader) (i : Nat) : (h.setLogIndex i).logIndex = i := rfl
@[simp] theorem setLogIndex_opcodeEnum (h : FrameHeader) (i : Nat) :
    (h.setLogIndex i).opcodeEnum = h.opcodeEnum := rfl

@[simp] theorem setHlcTimestamp_roomId (h : FrameHeader) (t : Nat) : (h.setHlcTimestamp t).roomId = h.roomId := rfl
@[simp] theorem setHlcTimestamp_senderId (h : FrameHeader) (t : Nat) :
    (h.setHlcTimestamp t).senderId = h.senderId := rfl
@[simp] theorem setHlcTimestamp_epoch (h : FrameHeader) (t : Nat) : (h.setHlcTimestamp t).epoch = h.epoch := rfl
@[simp] theorem setHlcTimestamp_logIndex (h : FrameHeader) (t : Nat) :
    (h.setHlcTimestamp t).logIndex = h.logIndex := rfl
@[simp] theorem setHlcTimestamp_hlcTimestamp (h : FrameHeader) (t : Nat) : (h.setHlcTimestamp t).hlcTimestamp = t := rfl
@[simp] theorem setHlcTimestamp_opcodeEnum (h : FrameHeader) (t : Nat) :
    (h.setHlcTimestamp t).opcodeEnum = h.opcodeEnum := rfl

end FrameHeader

/-- A frame: a header and its payload. -/
structure Frame where
  header : FrameHeader
  payload : Bytes
  deriving DecidableEq, Repr

/-- The frame with the log index the sequencer assigns stamped into its header. -/
def Frame.withLogIndex (f : Frame) (logIndex : Nat) : Frame :=
  { f with header := f.header.setLogIndex logIndex }

@[simp] theorem Frame.withLogIndex_header (f : Frame) (i : Nat) :
    (f.withLogIndex i).header = f.header.setLogIndex i := rfl

@[simp] theorem Frame.withLogIndex_payload (f : Frame) (i : Nat) : (f.withLogIndex i).payload = f.payload := rfl

theorem Frame.withLogIndex_mk (h : FrameHeader) (payload : Bytes) (i : Nat) :
    Frame.withLogIndex ⟨h, payload⟩ i = ⟨h.setLogIndex i, payload⟩ := rfl

/-- The frame as the sequencer orders it: its log index and an HLC timestamp stamped into the header. -/
def Frame.sequenced (f : Frame) (logIndex hlcTimestamp : Nat) : Frame :=
  { f with header := (f.header.setLogIndex logIndex).setHlcTimestamp hlcTimestamp }

@[simp] theorem Frame.sequenced_header (f : Frame) (i t : Nat) :
    (f.sequenced i t).header = (f.header.setLogIndex i).setHlcTimestamp t := rfl

@[simp] theorem Frame.sequenced_payload (f : Frame) (i t : Nat) : (f.sequenced i t).payload = f.payload := rfl

theorem Frame.sequenced_mk (h : FrameHeader) (payload : Bytes) (i t : Nat) :
    Frame.sequenced ⟨h, payload⟩ i t = ⟨(h.setLogIndex i).setHlcTimestamp t, payload⟩ := rfl

/-! ### Big-endian integers

The client writes the fields of an encrypted payload with `to_be_bytes` and reads them back with
`from_be_bytes`. A `w`-byte field keeps a number modulo `256 ^ w`, which is where a value outside its
Rust type would be cut.
-/

/-- `to_be_bytes` of a `w`-byte unsigned integer. -/
def toBeBytes : Nat → Nat → Bytes
  | 0, _ => []
  | w + 1, n => toBeBytes w (n / 256) ++ [UInt8.ofNat n]

/-- `from_be_bytes`. -/
def fromBeBytes (bs : Bytes) : Nat := bs.foldl (fun acc b => acc * 256 + b.toNat) 0

theorem toNat_uint8OfNat (n : Nat) : (UInt8.ofNat n).toNat = n % 256 := by
  simp [UInt8.toNat, UInt8.ofNat]

theorem uint8OfNat_toNat (b : UInt8) : UInt8.ofNat b.toNat = b :=
  UInt8.toNat.inj (by rw [toNat_uint8OfNat]; exact Nat.mod_eq_of_lt b.val.isLt)

@[simp] theorem length_toBeBytes (w n : Nat) : (toBeBytes w n).length = w := by
  induction w generalizing n with
  | zero => rfl
  | succ w ih => simp [toBeBytes, ih]

theorem fromBeBytes_append_singleton (bs : Bytes) (b : UInt8) :
    fromBeBytes (bs ++ [b]) = fromBeBytes bs * 256 + b.toNat := by
  simp [fromBeBytes, List.foldl_append]

theorem fromBeBytes_toBeBytes (w n : Nat) : fromBeBytes (toBeBytes w n) = n % 256 ^ w := by
  induction w generalizing n with
  | zero => simp [toBeBytes, fromBeBytes, Nat.mod_one]
  | succ w ih =>
    rw [toBeBytes, fromBeBytes_append_singleton, ih, toNat_uint8OfNat, Nat.pow_succ', Nat.mod_mul]
    omega

theorem fromBeBytes_lt (bs : Bytes) : fromBeBytes bs < 256 ^ bs.length := by
  induction bs using List.reverseRecOn with
  | nil => simp [fromBeBytes]
  | append_singleton bs b ih =>
    rw [fromBeBytes_append_singleton, List.length_append, List.length_singleton, Nat.pow_succ]
    have hb : b.toNat < 256 := b.val.isLt
    calc fromBeBytes bs * 256 + b.toNat < (fromBeBytes bs + 1) * 256 := by omega
      _ ≤ 256 ^ bs.length * 256 := Nat.mul_le_mul_right _ ih

theorem toBeBytes_fromBeBytes (bs : Bytes) : toBeBytes bs.length (fromBeBytes bs) = bs := by
  induction bs using List.reverseRecOn with
  | nil => rfl
  | append_singleton bs b ih =>
    have hb : b.toNat < 256 := b.val.isLt
    rw [List.length_append, List.length_singleton, toBeBytes, fromBeBytes_append_singleton,
      show (fromBeBytes bs * 256 + b.toNat) / 256 = fromBeBytes bs by omega, ih]
    congr 2
    apply UInt8.toNat.inj
    rw [toNat_uint8OfNat]
    omega

end Kalandra
