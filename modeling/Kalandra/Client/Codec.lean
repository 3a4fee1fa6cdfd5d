import Kalandra.Crypto.SenderKeys

/-!
# The payload of an application message

`serialize_encrypted_message` and `deserialize_encrypted_message` of `client.rs`, the placeholder
binary form of an `EncryptedMessage`: the epoch (8 bytes), the sender index (4), the generation (4),
the nonce (24) and the ciphertext's length (4), all big-endian, then the ciphertext.

Two facts make this a format. A message whose fields fit their Rust types reads back as itself,
whatever bytes follow it (`deserialize_serialize_append`); in general each field reads back modulo
its range, and the ciphertext cut to its length modulo `2 ^ 32`, the `as u32` cast of the writer.
And what the reader accepts is a message that fits, written at the front of the bytes it was read
from (`deserialize_eq_ok`): the reader ignores what follows the ciphertext.

Its grammar is its two length checks: at least 44 bytes, and as many after them as bytes 40 to 44
say (`deserialize_ok_iff_lengths`). Its slices are indexed only after those checks, so no input
makes it panic (`deserializeChecked_eq`).

The reader computes `44 + ciphertext_len` in `usize`, and the model computes it as a number. The two
agree on a 64-bit target, where a `u32` length plus 44 cannot overflow; the model, and every result
of this module, takes such a target. On a 32-bit target the sum could wrap and pass the length check.
-/

namespace Kalandra

/-- `data[start..stop]`. -/
def slice (data : Bytes) (start stop : Nat) : Bytes := (data.drop start).take (stop - start)

/-- `serialize_encrypted_message`. -/
def serializeEncryptedMessage (m : EncryptedMessage) : Bytes :=
  toBeBytes 8 m.epoch ++ toBeBytes 4 m.senderIndex ++ toBeBytes 4 m.generation ++ m.nonce ++
    toBeBytes 4 m.ciphertext.length ++ m.ciphertext

/-- `deserialize_encrypted_message`. -/
def deserializeEncryptedMessage (data : Bytes) : Except String EncryptedMessage :=
  if data.length < 44 then .error "Frame too short"
  else
    let epoch := fromBeBytes (slice data 0 8)
    let senderIndex := fromBeBytes (slice data 8 12)
    let generation := fromBeBytes (slice data 12 16)
    let nonce := slice data 16 40
    let ciphertextLen := fromBeBytes (slice data 40 44)
    if data.length < 44 + ciphertextLen then .error "Truncated ciphertext"
    else .ok { epoch, senderIndex, generation, nonce, ciphertext := slice data 44 (44 + ciphertextLen) }

/-- The fields of a message fit their Rust types: `u64`, `u32`, `u32`, `[u8; 24]`, and a
ciphertext whose length fits the `u32` it is written as. -/
structure EncryptedMessage.Fits (m : EncryptedMessage) : Prop where
  epoch_lt : m.epoch < 2 ^ 64
  senderIndex_lt : m.senderIndex < 2 ^ 32
  generation_lt : m.generation < 2 ^ 32
  nonce_length : m.nonce.length = 24
  ciphertext_length_lt : m.ciphertext.length < 2 ^ 32

/-! ### Slices -/

theorem length_slice {l : Bytes} {a b : Nat} (h : b ≤ l.length) : (slice l a b).length = b - a := by
  simp only [slice, List.length_take, List.length_drop]
  omega

theorem slice_append_left {l₁ l₂ : Bytes} {a b : Nat} (h : b ≤ l₁.length) :
    slice (l₁ ++ l₂) a b = slice l₁ a b := by
  unfold slice
  by_cases ha : a ≤ l₁.length
  · rw [List.drop_append_of_le_length ha, List.take_append_of_le_length (by simp; omega)]
  · simp [show b - a = 0 by omega]

theorem slice_append_right {l₁ l₂ : Bytes} {a b : Nat} (h : l₁.length ≤ a) :
    slice (l₁ ++ l₂) a b = slice l₂ (a - l₁.length) (b - l₁.length) := by
  unfold slice
  rw [List.drop_append_eq_append_drop, List.drop_eq_nil_of_le h, List.nil_append]
  congr 1
  omega

theorem slice_of_length {l : Bytes} {n : Nat} (h : l.length = n) : slice l 0 n = l := by
  subst h
  simp [slice]

@[simp] theorem slice_zero (l : Bytes) (n : Nat) : slice l 0 n = l.take n := by simp [slice]

theorem slice_append_slice (l : Bytes) {a b c : Nat} (hab : a ≤ b) (hbc : b ≤ c) :
    slice l a b ++ slice l b c = slice l a c := by
  simp only [slice]
  rw [show c - a = (b - a) + (c - b) by omega, List.take_add, List.drop_drop,
    show a + (b - a) = b by omega]

/-! ### Reading back what was written -/

theorem deserialize_serialize_eq (m : EncryptedMessage) (hn : m.nonce.length = 24) :
    deserializeEncryptedMessage (serializeEncryptedMessage m) =
      .ok { epoch := m.epoch % 2 ^ 64, senderIndex := m.senderIndex % 2 ^ 32,
            generation := m.generation % 2 ^ 32, nonce := m.nonce,
            ciphertext := m.ciphertext.take (m.ciphertext.length % 2 ^ 32) } := by
  have hmod : m.ciphertext.length % 4294967296 ≤ m.ciphertext.length := Nat.mod_le _ _
  simp [deserializeEncryptedMessage, serializeEncryptedMessage, slice_append_left, slice_append_right,
    slice_of_length, hn, fromBeBytes_toBeBytes]
  rw [if_neg (by omega), if_neg (by omega),
    show 44 + m.ciphertext.length % 4294967296 - 8 - 4 - 4 - 24 - 4 = m.ciphertext.length % 4294967296 by omega]

theorem deserialize_serialize_append {m : EncryptedMessage} (hm : m.Fits) (rest : Bytes) :
    deserializeEncryptedMessage (serializeEncryptedMessage m ++ rest) = .ok m := by
  have he : m.epoch < 18446744073709551616 := hm.epoch_lt
  have hs : m.senderIndex < 4294967296 := hm.senderIndex_lt
  have hg : m.generation < 4294967296 := hm.generation_lt
  have hc : m.ciphertext.length < 4294967296 := hm.ciphertext_length_lt
  simp [deserializeEncryptedMessage, serializeEncryptedMessage, slice_append_left, slice_append_right,
    slice_of_length, hm.nonce_length, fromBeBytes_toBeBytes, Nat.mod_eq_of_lt he, Nat.mod_eq_of_lt hs,
    Nat.mod_eq_of_lt hg, Nat.mod_eq_of_lt hc]
  rw [if_neg (by omega), if_neg (by omega),
    show 44 + m.ciphertext.length - 8 - 4 - 4 - 24 - 4 = m.ciphertext.length by omega, List.take_left' rfl]

theorem deserialize_serialize {m : EncryptedMessage} (hm : m.Fits) :
    deserializeEncryptedMessage (serializeEncryptedMessage m) = .ok m := by
  simpa using deserialize_serialize_append hm []

theorem deserialize_eq_ok {data : Bytes} {m : EncryptedMessage}
    (h : deserializeEncryptedMessage data = .ok m) :
    m.Fits ∧ serializeEncryptedMessage m ++ data.drop (44 + m.ciphertext.length) = data := by
  unfold deserializeEncryptedMessage at h
  split at h
  · cases h
  · dsimp only at h
    split at h
    · cases h
    simp only [Except.ok.injEq] at h
    subst h
    have hct' : 44 + fromBeBytes (slice data 40 44) ≤ data.length := by omega
    have hl : ∀ a b, b ≤ 44 → (slice data a b).length = b - a := fun a b hb => length_slice (by omega)
    have hc : (slice data 44 (44 + fromBeBytes (slice data 40 44))).length =
        fromBeBytes (slice data 40 44) := by rw [length_slice hct']; omega
    have hbe : ∀ w a b, b ≤ 44 → b - a = w → toBeBytes w (fromBeBytes (slice data a b)) = slice data a b :=
      fun w a b hb hw => by rw [← hw, ← hl a b hb, toBeBytes_fromBeBytes]
    have hlt : ∀ a b, b ≤ 44 → fromBeBytes (slice data a b) < 256 ^ (b - a) := fun a b hb =>
      hl a b hb ▸ fromBeBytes_lt _
    refine ⟨⟨hlt 0 8 (by omega), hlt 8 12 (by omega), hlt 12 16 (by omega), hl 16 40 (by omega), ?_⟩, ?_⟩
    · show (slice data 44 _).length < _
      rw [hc]
      exact hlt 40 44 (by omega)
    simp only [serializeEncryptedMessage, hc, hbe 8 0 8 (by omega) rfl, hbe 4 8 12 (by omega) rfl,
      hbe 4 12 16 (by omega) rfl, hbe 4 40 44 (by omega) rfl]
    rw [slice_append_slice data (by omega : 0 ≤ 8) (by omega : 8 ≤ 12),
      slice_append_slice data (by omega : 0 ≤ 12) (by omega : 12 ≤ 16),
      slice_append_slice data (by omega : 0 ≤ 16) (by omega : 16 ≤ 40),
      slice_append_slice data (by omega : 0 ≤ 40) (by omega : 40 ≤ 44),
      slice_append_slice data (by omega : 0 ≤ 44) (Nat.le_add_right 44 _), slice_zero, List.take_append_drop]

/-! ### Indexing as Rust does, and the reader's grammar

The model above reads slices totally. The code indexes them, and an index past the end panics: the
reader below makes each index and copy partial, with `none` for a panic, and agrees with the total
one on every input (`deserializeChecked_eq`). -/

/-- `data[start..stop]` as Rust indexes a slice: `none`, a panic, when the range is reversed or runs
past the end. -/
def sliceChecked (data : Bytes) (start stop : Nat) : Option Bytes :=
  if start ≤ stop ∧ stop ≤ data.length then some (slice data start stop) else none

/-- A big-endian field read with `try_into().map_err(...)?`, then the rest of the reader: a panic of
the indexing stays a panic, and a slice of a length other than `w` is the error `err`. -/
def readBe (w : Nat) (err : String) (bytes : Option Bytes) (rest : Nat → Option (Except String EncryptedMessage)) :
    Option (Except String EncryptedMessage) :=
  match bytes with
  | none => none
  | some bytes => if bytes.length = w then rest (fromBeBytes bytes) else some (.error err)

/-- `deserialize_encrypted_message` with every index and copy as Rust performs them: `none` is a
panic, an out-of-bounds index or a `copy_from_slice` of the wrong length. -/
def deserializeEncryptedMessageChecked (data : Bytes) : Option (Except String EncryptedMessage) :=
  if data.length < 44 then some (.error "Frame too short") else
  readBe 8 "Invalid epoch bytes" (sliceChecked data 0 8) fun epoch =>
  readBe 4 "Invalid sender_index bytes" (sliceChecked data 8 12) fun senderIndex =>
  readBe 4 "Invalid generation bytes" (sliceChecked data 12 16) fun generation =>
  (sliceChecked data 16 40).bind fun nonce => if nonce.length ≠ 24 then none else
  readBe 4 "Invalid length bytes" (sliceChecked data 40 44) fun ciphertextLen =>
  if data.length < 44 + ciphertextLen then some (.error "Truncated ciphertext") else
  (sliceChecked data 44 (44 + ciphertextLen)).map fun ciphertext =>
    .ok { epoch, senderIndex, generation, nonce, ciphertext }

theorem deserializeChecked_eq (data : Bytes) :
    deserializeEncryptedMessageChecked data = some (deserializeEncryptedMessage data) := by
  by_cases h : data.length < 44
  · simp [deserializeEncryptedMessageChecked, deserializeEncryptedMessage, h]
  · have hs : ∀ a b, a ≤ b → b ≤ data.length → sliceChecked data a b = some (slice data a b) :=
      fun a b hab hb => by simp [sliceChecked, hab, hb]
    have hl : ∀ a b, b ≤ 44 → (slice data a b).length = b - a := fun a b hb => length_slice (by omega)
    simp only [deserializeEncryptedMessageChecked, deserializeEncryptedMessage, if_neg h, readBe,
      hs 0 8 (by omega) (by omega), hs 8 12 (by omega) (by omega), hs 12 16 (by omega) (by omega),
      hs 16 40 (by omega) (by omega), hs 40 44 (by omega) (by omega), hl 0 8 (by omega), hl 8 12 (by omega),
      hl 12 16 (by omega), hl 16 40 (by omega), hl 40 44 (by omega), if_true, Option.some_bind, ne_eq,
      not_true_eq_false, if_false]
    split_ifs with ht
    · rfl
    · rw [hs 44 _ (by omega) (by omega)]
      rfl

theorem deserialize_ok_iff_lengths (d : Bytes) :
    (∃ m, deserializeEncryptedMessage d = .ok m) ↔ 44 ≤ d.length ∧ 44 + fromBeBytes (slice d 40 44) ≤ d.length := by
  unfold deserializeEncryptedMessage
  by_cases h₁ : d.length < 44
  · simp [h₁]
  · by_cases h₂ : d.length < 44 + fromBeBytes (slice d 40 44) <;> simp [h₁, h₂]
    omega

theorem deserialize_ciphertext_length {d : Bytes} {m : EncryptedMessage} (h : deserializeEncryptedMessage d = .ok m) :
    m.ciphertext.length = fromBeBytes (slice d 40 44) := by
  unfold deserializeEncryptedMessage at h
  split at h
  · cases h
  · dsimp only at h
    split at h
    · cases h
    · cases h
      rw [length_slice (by omega)]
      omega

theorem serialize_of_deserialize {d : Bytes} {m : EncryptedMessage} (h : deserializeEncryptedMessage d = .ok m) :
    serializeEncryptedMessage m = d.take (44 + fromBeBytes (slice d 40 44)) := by
  obtain ⟨hm, happ⟩ := deserialize_eq_ok h
  have hlen : (serializeEncryptedMessage m).length = 44 + m.ciphertext.length := by
    simp [serializeEncryptedMessage, hm.nonce_length]
    omega
  rw [← deserialize_ciphertext_length h, ← hlen]
  conv_rhs => rw [← happ]
  exact (List.take_left _ _).symm

/-- The payload form reads back what it writes, accepts exactly the inputs of at least 44 bytes that
hold the length read from bytes 40 to 44, writes back what it accepts, and never panics. -/
theorem encrypted_message_codec_laws :
    (∀ m : EncryptedMessage, m.Fits → ∀ t : Bytes,
      deserializeEncryptedMessage (serializeEncryptedMessage m ++ t) = .ok m) ∧
      (∀ d : Bytes, (∃ m, deserializeEncryptedMessage d = .ok m) ↔
        44 ≤ d.length ∧ 44 + fromBeBytes (slice d 40 44) ≤ d.length) ∧
      (∀ (d : Bytes) (m : EncryptedMessage), deserializeEncryptedMessage d = .ok m →
        serializeEncryptedMessage m = d.take (44 + fromBeBytes (slice d 40 44))) ∧
      (∀ d : Bytes, deserializeEncryptedMessageChecked d = some (deserializeEncryptedMessage d)) :=
  ⟨fun _ hm t => deserialize_serialize_append hm t, deserialize_ok_iff_lengths,
    fun _ _ h => serialize_of_deserialize h, deserializeChecked_eq⟩

end Kalandra
