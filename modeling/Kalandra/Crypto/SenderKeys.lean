import Kalandra.Proto.Frame

/-!
# Sender keys

The sender-key ratchet of `kalandra-crypto` and the client's `SenderKeyStore`, which holds one chain
per member of a room at one epoch. Neither source file is among the sources: the client calls
`SenderKeyStore::initialize_epoch`, `encrypt`, `decrypt` and `generation`, and §4.2 says what they do.
The model follows §4.2:

* at a new epoch the chain of the member at leaf `L` starts from
  `HKDF-Expand(epoch_secret, "sender-key" || L, 32)` at generation 0;
* a step of a chain yields the message key `HKDF-Expand(ck, "msg-key", 32)` and the next chain key
  `HKDF-Expand(ck, "chain", 32)`, and the old chain key is gone;
* `encrypt` seals under the current message key with the nonce `be64(generation) || random16` and
  steps the chain;
* `decrypt` finds the sender's chain at the message's epoch; for a generation below the chain's it
  uses the message key kept when that generation was skipped, and fails with `TooOldGeneration` if
  none was kept; otherwise it fast-forwards at most `1024` generations, keeping the keys it skips.

There is one chain per member, the client's own included, and `encrypt` steps the chain that
`decrypt` reads: the "shared ratchet" of the client's tests.

The primitives are a parameter, `CipherSuite`. The client gives neither `encrypt` nor `decrypt` the
frame header, so the header is not among what the AEAD authenticates; the model's AEAD takes a key,
a nonce and the text.
-/

namespace Kalandra

/-- HKDF-Expand and the AEAD. -/
structure CipherSuite where
  expand : Bytes → Bytes → Nat → Bytes
  aeadSeal : Bytes → Bytes → Bytes → Bytes
  aeadOpen : Bytes → Bytes → Bytes → Option Bytes

/-- Opening what was sealed under the same key and nonce gives the plaintext back. -/
def CipherSuite.Correct (cs : CipherSuite) : Prop :=
  ∀ key nonce plaintext, cs.aeadOpen key nonce (cs.aeadSeal key nonce plaintext) = some plaintext

/-- The errors of the ratchet (`SenderKeyError`). -/
inductive SenderKeyError
  | tooOldGeneration
  | generationGap
  | aeadFailed
  | unknownSender
  | noKeyForEpoch
  deriving DecidableEq, Repr

/-- `EncryptedMessage`, the content of an `AppMessage` payload. -/
structure EncryptedMessage where
  epoch : Nat
  senderIndex : Nat
  generation : Nat
  nonce : Bytes
  ciphertext : Bytes
  deriving DecidableEq, Repr

/-- The ASCII bytes of a label. -/
def asciiBytes (s : String) : Bytes := s.toList.map fun c => UInt8.ofNat c.toNat

/-- Modelled from the spec: one member's chain. A message key skipped over is kept until it is used,
and only generations below the chain's are kept. The generation is a `u32` in §3; what the ratchet
does past `2 ^ 32 - 1` is not in the sources, so the model counts it as a number, and each result
that relies on it fitting states a bound: on the generation, or on the sends of a run. -/
structure ChainState where
  chainKey : Bytes
  generation : Nat
  skipped : Nat → Option Bytes
  skipped_lt : ∀ g, generation ≤ g → skipped g = none

namespace ChainState

variable (cs : CipherSuite)

/-- The chain of the member at leaf `leaf` at a new epoch. -/
def init (secret : Bytes) (leaf : Nat) : ChainState :=
  { chainKey := cs.expand secret (asciiBytes "sender-key" ++ toBeBytes 4 leaf) 32, generation := 0,
    skipped := fun _ => none, skipped_lt := fun _ _ => rfl }

/-- The message key of the current generation. -/
def messageKey (c : ChainState) : Bytes := cs.expand c.chainKey (asciiBytes "msg-key") 32

/-- The chain one generation on. -/
def next (c : ChainState) : ChainState :=
  { chainKey := cs.expand c.chainKey (asciiBytes "chain") 32, generation := c.generation + 1,
    skipped := c.skipped, skipped_lt := fun g hg => c.skipped_lt g (by omega) }

/-- The chain one generation on, keeping the message key it skips. -/
def skipOne (c : ChainState) : ChainState :=
  { chainKey := cs.expand c.chainKey (asciiBytes "chain") 32, generation := c.generation + 1,
    skipped := Function.update c.skipped c.generation (some (c.messageKey cs)),
    skipped_lt := fun g hg => by
      rw [Function.update_noteq (by omega)]
      exact c.skipped_lt g (by omega) }

/-- Fast-forward `n` generations. -/
def skip : Nat → ChainState → ChainState
  | 0, c => c
  | n + 1, c => skip n (c.skipOne cs)

/-- The chain without the kept key of generation `g`, once it is used. -/
def forget (c : ChainState) (g : Nat) : ChainState :=
  { c with
    skipped := Function.update c.skipped g none
    skipped_lt := fun x hx => by
      rw [Function.update_apply]
      split_ifs
      · rfl
      · exact c.skipped_lt x hx }

@[simp] theorem next_generation (c : ChainState) : (c.next cs).generation = c.generation + 1 := rfl
@[simp] theorem next_skipped (c : ChainState) : (c.next cs).skipped = c.skipped := rfl

theorem skip_generation (n : Nat) (c : ChainState) : (c.skip cs n).generation = c.generation + n := by
  induction n generalizing c with
  | zero => rfl
  | succ n ih => rw [skip, ih]; simp only [skipOne]; omega

/-! ### Stale generations

A generation is stale on a chain when the chain is past it and keeps no key for it: no message of
that generation can be decrypted on the chain again. Every step of a chain keeps what is stale. -/

/-- Generation `g` can no longer be decrypted on the chain. -/
def Stale (c : ChainState) (g : Nat) : Prop := g < c.generation ∧ c.skipped g = none

theorem Stale.next {c : ChainState} {g : Nat} (h : c.Stale g) : (c.next cs).Stale g :=
  ⟨Nat.lt_succ_of_lt h.1, h.2⟩

theorem stale_next_generation (c : ChainState) : (c.next cs).Stale c.generation :=
  ⟨Nat.lt_succ_self _, c.skipped_lt _ (Nat.le_refl _)⟩

theorem Stale.skipOne {c : ChainState} {g : Nat} (h : c.Stale g) : (c.skipOne cs).Stale g :=
  ⟨Nat.lt_succ_of_lt h.1, by
    simp only [ChainState.skipOne]
    rw [Function.update_noteq (Nat.ne_of_lt h.1)]
    exact h.2⟩

theorem Stale.skip {c : ChainState} {g : Nat} (h : c.Stale g) (n : Nat) : (c.skip cs n).Stale g := by
  induction n generalizing c with
  | zero => exact h
  | succ n ih => exact ih (h.skipOne cs)

theorem Stale.forget {c : ChainState} {g : Nat} (h : c.Stale g) (x : Nat) : (c.forget x).Stale g :=
  ⟨h.1, by
    simp only [ChainState.forget, Function.update_apply]
    split_ifs
    · rfl
    · exact h.2⟩

end ChainState

/-- Modelled from the spec: `SenderKeyStore`, the chains of one epoch by leaf index. -/
structure SenderKeyStore where
  epoch : Nat
  chains : Nat → Option ChainState

namespace SenderKeyStore

variable (cs : CipherSuite)

/-- `SenderKeyStore::initialize_epoch`: a fresh chain for every member's leaf. -/
def initializeEpoch (secret : Bytes) (epoch : Nat) (memberIndices : List Nat) : SenderKeyStore :=
  { epoch, chains := fun leaf => if memberIndices.contains leaf then some (ChainState.init cs secret leaf) else none }

/-- `SenderKeyStore::generation`. -/
def generation (s : SenderKeyStore) (leaf : Nat) : Option Nat := (s.chains leaf).map ChainState.generation

/-- The store with one chain replaced. -/
def setChain (s : SenderKeyStore) (leaf : Nat) (c : ChainState) : SenderKeyStore :=
  { s with chains := Function.update s.chains leaf (some c) }

/-- `SenderKeyStore::encrypt`. -/
def encrypt (s : SenderKeyStore) (senderIndex : Nat) (plaintext random : Bytes) :
    Except SenderKeyError (EncryptedMessage × SenderKeyStore) :=
  match s.chains senderIndex with
  | none => .error .unknownSender
  | some c =>
    let nonce := toBeBytes 8 c.generation ++ random
    .ok ({ epoch := s.epoch, senderIndex, generation := c.generation, nonce,
           ciphertext := cs.aeadSeal (c.messageKey cs) nonce plaintext },
      s.setChain senderIndex (c.next cs))

/-- The fast-forward window. -/
def maxSkip : Nat := 1024

/-- `SenderKeyStore::decrypt`. A failed decryption changes nothing. -/
def decrypt (s : SenderKeyStore) (m : EncryptedMessage) : Except SenderKeyError (Bytes × SenderKeyStore) :=
  if m.epoch ≠ s.epoch then .error .noKeyForEpoch
  else match s.chains m.senderIndex with
  | none => .error .unknownSender
  | some c =>
    if m.generation < c.generation then
      match c.skipped m.generation with
      | none => .error .tooOldGeneration
      | some key =>
        match cs.aeadOpen key m.nonce m.ciphertext with
        | none => .error .aeadFailed
        | some p => .ok (p, s.setChain m.senderIndex (c.forget m.generation))
    else if maxSkip < m.generation - c.generation then .error .generationGap
    else
      let c' := c.skip cs (m.generation - c.generation)
      match cs.aeadOpen (c'.messageKey cs) m.nonce m.ciphertext with
      | none => .error .aeadFailed
      | some p => .ok (p, s.setChain m.senderIndex (c'.next cs))

@[simp] theorem setChain_epoch (s : SenderKeyStore) (leaf : Nat) (c : ChainState) :
    (s.setChain leaf c).epoch = s.epoch := rfl

theorem setChain_chains (s : SenderKeyStore) (leaf leaf' : Nat) (c : ChainState) :
    (s.setChain leaf c).chains leaf' = if leaf' = leaf then some c else s.chains leaf' := by
  simp only [setChain, Function.update_apply]

theorem encrypt_eq_ok {s s' : SenderKeyStore} {i : Nat} {p r : Bytes} {m : EncryptedMessage}
    (h : s.encrypt cs i p r = .ok (m, s')) :
    ∃ c, s.chains i = some c ∧
      m = { epoch := s.epoch, senderIndex := i, generation := c.generation,
            nonce := toBeBytes 8 c.generation ++ r,
            ciphertext := cs.aeadSeal (c.messageKey cs) (toBeBytes 8 c.generation ++ r) p } ∧
      s' = s.setChain i (c.next cs) := by
  unfold encrypt at h
  split at h
  · cases h
  · rename_i c hc
    simp only [Except.ok.injEq, Prod.mk.injEq] at h
    exact ⟨c, hc, h.1.symm, h.2.symm⟩

theorem decrypt_eq_ok {s s' : SenderKeyStore} {m : EncryptedMessage} {p : Bytes}
    (h : s.decrypt cs m = .ok (p, s')) :
    m.epoch = s.epoch ∧ ∃ c c', s.chains m.senderIndex = some c ∧ s' = s.setChain m.senderIndex c' ∧
      (∀ g, c.Stale g → c'.Stale g) ∧ c'.Stale m.generation := by
  unfold decrypt at h
  split at h
  · cases h
  · rename_i he
    refine ⟨not_not.mp he, ?_⟩
    split at h
    · cases h
    · rename_i c hc
      split at h
      · rename_i hlt
        split at h
        · cases h
        · split at h
          · cases h
          · simp only [Except.ok.injEq, Prod.mk.injEq] at h
            exact ⟨c, _, hc, h.2.symm, fun g hg => hg.forget m.generation,
              hlt, by simp [ChainState.forget]⟩
      · dsimp only at h
        split at h
        · cases h
        · split at h
          · cases h
          · simp only [Except.ok.injEq, Prod.mk.injEq] at h
            have hgen := ChainState.skip_generation cs (m.generation - c.generation) c
            refine ⟨c, _, hc, h.2.symm, fun g hg => (hg.skip cs _).next cs,
              by rw [ChainState.next_generation]; omega, ?_⟩
            rw [ChainState.next_skipped]
            exact (c.skip cs _).skipped_lt _ (by omega)

/-! ### Stale generations of a store -/

/-- Generation `g` of the member at `leaf` can no longer be decrypted. -/
def Stale (s : SenderKeyStore) (leaf g : Nat) : Prop := ∃ c, s.chains leaf = some c ∧ c.Stale g

theorem Stale.setChain {s : SenderKeyStore} {leaf g : Nat} (h : s.Stale leaf g) (i : Nat) {c c' : ChainState}
    (hc : s.chains i = some c) (hc' : ∀ x, c.Stale x → c'.Stale x) : (s.setChain i c').Stale leaf g := by
  obtain ⟨d, hd, hs⟩ := h
  refine ⟨if leaf = i then c' else d, by rw [setChain_chains]; split_ifs <;> simp_all, ?_⟩
  split_ifs with hl
  · subst hl
    rw [hc] at hd
    cases hd
    exact hc' g hs
  · exact hs

theorem Stale.encrypt {s s' : SenderKeyStore} {leaf g i : Nat} {p r : Bytes} {m : EncryptedMessage}
    (hs : s.Stale leaf g) (h : s.encrypt cs i p r = .ok (m, s')) : s'.Stale leaf g := by
  obtain ⟨c, hc, -, rfl⟩ := encrypt_eq_ok cs h
  exact hs.setChain i hc fun x hx => hx.next cs

theorem encrypt_stale {s s' : SenderKeyStore} {i : Nat} {p r : Bytes} {m : EncryptedMessage}
    (h : s.encrypt cs i p r = .ok (m, s')) : s'.Stale i m.generation := by
  obtain ⟨c, -, rfl, rfl⟩ := encrypt_eq_ok cs h
  exact ⟨c.next cs, by simp [setChain_chains], ChainState.stale_next_generation cs c⟩

theorem Stale.decrypt {s s' : SenderKeyStore} {leaf g : Nat} {m : EncryptedMessage} {p : Bytes}
    (hs : s.Stale leaf g) (h : s.decrypt cs m = .ok (p, s')) : s'.Stale leaf g := by
  obtain ⟨-, c, c', hc, rfl, hc', -⟩ := decrypt_eq_ok cs h
  exact hs.setChain _ hc hc'

theorem decrypt_of_stale {s : SenderKeyStore} {m : EncryptedMessage} (he : m.epoch = s.epoch)
    (hs : s.Stale m.senderIndex m.generation) : s.decrypt cs m = .error .tooOldGeneration := by
  obtain ⟨c, hc, hlt, hnone⟩ := hs
  simp [decrypt, he, hc, hlt, hnone]

theorem decrypt_stale {s s' : SenderKeyStore} {m : EncryptedMessage} {p : Bytes}
    (h : s.decrypt cs m = .ok (p, s')) : s'.Stale m.senderIndex m.generation := by
  obtain ⟨-, -, c', -, rfl, -, hs⟩ := decrypt_eq_ok cs h
  exact ⟨c', by simp [setChain_chains], hs⟩

theorem decrypt_current (hcs : cs.Correct) {s : SenderKeyStore} {m : EncryptedMessage} {c : ChainState}
    {p : Bytes} (he : m.epoch = s.epoch) (hc : s.chains m.senderIndex = some c) (hg : m.generation = c.generation)
    (hct : m.ciphertext = cs.aeadSeal (c.messageKey cs) m.nonce p) :
    s.decrypt cs m = .ok (p, s.setChain m.senderIndex (c.next cs)) := by
  simp [decrypt, he, hc, hg, hct, maxSkip, ChainState.skip, hcs _ _ p]

end SenderKeyStore

/-! ### A reference suite -/

/-- A checksum of a byte string. -/
def referenceDigest (bs : Bytes) : UInt8 :=
  UInt8.ofNat (bs.foldl (fun acc b => (acc * 31 + b.toNat) % 251) 7)

/-- A suite to run the model on: the expansion repeats a checksum of key and label, and the AEAD
prefixes a checksum of key and nonce, which opening checks. It hides nothing; it is where the
counterexamples run, and the statements about the client hold for every suite. -/
def referenceSuite : CipherSuite where
  expand prk info len := List.replicate len (referenceDigest (prk ++ info))
  aeadSeal key nonce plaintext := referenceDigest (key ++ nonce) :: plaintext
  aeadOpen key nonce ciphertext :=
    match ciphertext with
    | t :: p => if t = referenceDigest (key ++ nonce) then some p else none
    | [] => none

theorem referenceSuite_correct : referenceSuite.Correct := fun _ _ _ => by simp [referenceSuite]

end Kalandra
