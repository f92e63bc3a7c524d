import Keyring.Mnemonic.Basic
import Keyring.KeyNode
import Keyring.Proofs.Outcome
import Keyring.Proofs.Text.Utf8

/-!
# From a phrase to its master node

A phrase goes through three checks, of the number of its words, of every word and of the
check bits, and `Mnemonic.Reads` states all of them at once.  The seed of a phrase always
has 64 bytes, so the master node can only fail to exist because the scalar that the seed
gives is no private key.
-/

namespace Keyring

namespace Mnemonic

variable {text : String} {m : Mnemonic}

/-! ## Reading phrases -/

/-- A text whose words are the listed words of a phrase with the right check bits. -/
structure Reads (text : String) (m : Mnemonic) : Prop where
  count : (Text.words text).length ∈ [12, 15, 18, 21, 24]
  listed : (Text.words text).map position? = m.positions.map some
  checksum : checksumHolds m.positions = true

theorem positionsFrom_eq_ok_iff {i : Nat} {words : List String} {positions : List Nat} :
    positionsFrom i words = .ok positions ↔ words.map position? = positions.map some := by
  induction words generalizing i positions with
  | nil =>
      cases positions <;> simp [positionsFrom]
  | cons word words ih =>
      cases hword : position? word with
      | none =>
          cases positions <;> simp [positionsFrom, hword]
      | some p =>
          simp only [positionsFrom, hword, bind_eq_ok_iff, pure_eq_ok_iff, ih]
          cases positions with
          | nil => simp
          | cons q positions => simp [hword, and_comm]

theorem ofPhrase_eq_ok_iff_reads : ofPhrase text = .ok m ↔ Reads text m := by
  unfold ofPhrase ofWords
  constructor
  · intro h
    split at h
    · next hcount =>
        obtain ⟨positions, hpositions, h⟩ := bind_eq_ok_iff.mp h
        split at h
        · next hchecksum =>
            cases h
            exact ⟨by simpa [wordCounts] using hcount, positionsFrom_eq_ok_iff.mp hpositions,
              hchecksum⟩
        · cases h
    · cases h
  · intro h
    rw [if_pos (by simpa [wordCounts] using h.count), positionsFrom_eq_ok_iff.mpr h.listed]
    exact if_pos h.checksum

/-! ## Seeds -/

theorem seedOfPhrase_of_reads (h : Reads text m) : seedOfPhrase text = .ok m.seed := by
  rw [seedOfPhrase, ofPhrase_eq_ok_iff_reads.mpr h]

theorem length_stretch {prf : Bytes → Bytes} {length : Nat}
    (hprf : ∀ b, (prf b).length = length) (n : Nat) (u sum : Bytes)
    (hsum : sum.length = length) : (Pbkdf2.stretch prf n u sum).length = length := by
  induction n generalizing u sum with
  | zero => exact hsum
  | succ n ih =>
      refine ih (prf u) (Bytes.xor sum (prf u)) ?_
      rw [Bytes.xor, List.length_zipWith, hsum, hprf, Nat.min_self]

theorem length_seed (m : Mnemonic) : m.seed.length = 64 := by
  -- Unfolded by name: a check by evaluation would stretch the seed.
  unfold seed pbkdf2Sha512
  exact length_stretch (length_hmacSha512 _) _ _ _ (length_hmacSha512 _ _)

end Mnemonic

/-! ## Master nodes -/

namespace KeyNode

/-- The scalar that a seed gives. -/
def masterScalar (seed : Bytes) : Nat :=
  Bytes.toNat ((hmacSha512 (Bytes.ofString "Bitcoin seed") seed).take 32)

/-- The chain code that a seed gives. -/
def masterChainCode (seed : Bytes) : Bytes :=
  (hmacSha512 (Bytes.ofString "Bitcoin seed") seed).drop 32

/-- A seed whose scalar is a private key. -/
def UsableSeed (seed : Bytes) : Prop :=
  0 < masterScalar seed ∧ masterScalar seed < Secp256k1.order

variable {seed : Bytes}

theorem ofBytes?_digest (seed : Bytes) :
    Secp256k1.Secret.ofBytes? ((hmacSha512 (Bytes.ofString "Bitcoin seed") seed).take 32) =
      Secp256k1.Secret.ofNat? (masterScalar seed) := by
  have hlength : ((hmacSha512 (Bytes.ofString "Bitcoin seed") seed).take 32).length = 32 := by
    rw [List.length_take, length_hmacSha512]
    omega
  rw [Secp256k1.Secret.ofBytes?, if_pos hlength, masterScalar]

/-- The master node of a usable seed: the scalar is its private key. -/
theorem ofSeed_of_usable (hlength : ¬ (seed.length < 16 ∨ 64 < seed.length))
    (husable : UsableSeed seed) (network : Network) :
    ofSeed seed network =
      .ok (ofSecret ⟨masterScalar seed, husable.1, husable.2⟩ (masterChainCode seed) 0 0 0
        network) := by
  have hsecret : Secp256k1.Secret.ofNat? (masterScalar seed) =
      some ⟨masterScalar seed, husable.1, husable.2⟩ := dif_pos husable
  have hchain : (masterChainCode seed).length = 32 := by
    rw [masterChainCode, List.length_drop, length_hmacSha512]
  simp only [ofSeed, if_neg hlength, ofBytes?_digest, hsecret]
  exact if_pos hchain

theorem ofSeed_of_unusable (hlength : ¬ (seed.length < 16 ∨ 64 < seed.length))
    (hunusable : ¬ UsableSeed seed) (network : Network) :
    ofSeed seed network = .error (.derivation .unusableSeed) := by
  have hsecret : Secp256k1.Secret.ofNat? (masterScalar seed) = none := dif_neg hunusable
  simp only [ofSeed, if_neg hlength, ofBytes?_digest, hsecret]

end KeyNode

end Keyring
