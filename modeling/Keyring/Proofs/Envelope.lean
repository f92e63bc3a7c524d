import Keyring.Envelope
import Keyring.Proofs.Cipher.Gcm

/-!
# Sealing and opening

A blob is opened with the nonce that stands at its front.  What remains is decrypted, and by
`Gcm.decrypt?_eq_some_iff` there is one text that is decrypted to a plaintext.  So the blobs that
can be opened are those that are sealed under some nonce (`openBlob_eq_ok_iff`), and a blob is
determined by its nonce and its plaintext.
-/

namespace Keyring.Envelope

variable {e : Envelope} {nonce plaintext blob : Bytes}

/-! ## Sealed blobs -/

theorem sealBlob_eq_ok_iff : e.sealBlob nonce plaintext = .ok blob ↔
    plaintext.length ≤ Gcm.maxLength ∧ e.sealWith nonce plaintext = blob := by
  unfold sealBlob
  split
  · next hlong =>
      refine ⟨fun h => (by cases h), fun h => ?_⟩
      exact absurd h.1 (Nat.not_le.mpr hlong)
  · next hshort => rw [Except.ok.injEq, and_iff_right (Nat.not_lt.mp hshort)]

theorem sealBlob_of_too_long (h : Gcm.maxLength < plaintext.length) :
    e.sealBlob nonce plaintext = .error (.internal "mnemonic encryption failed") :=
  if_pos h

/-- A blob has 28 bytes more than its plaintext, for the nonce and the tag. -/
theorem length_sealWith (hnonce : nonce.length = 12) :
    (e.sealWith nonce plaintext).length = plaintext.length + 28 := by
  rw [sealWith, List.length_append, Gcm.length_encrypt e.length_key hnonce, hnonce]
  omega

/-! ## Opened blobs -/

theorem openBlob_of_truncated (h : blob.length ≤ 12) :
    e.openBlob blob = .error (.decryption .truncated) :=
  if_pos h

theorem openBlob_of_decrypt?_eq_none (hlength : 12 < blob.length)
    (h : Gcm.decrypt? e.key (blob.take 12) (blob.drop 12) = none) :
    e.openBlob blob = .error (.decryption .tagMismatch) := by
  rw [openBlob, nonceLength, if_neg (Nat.not_le.mpr hlength), h]

theorem openBlob_of_decrypt?_eq_some (hlength : 12 < blob.length)
    (h : Gcm.decrypt? e.key (blob.take 12) (blob.drop 12) = some plaintext) :
    e.openBlob blob = .ok plaintext := by
  rw [openBlob, nonceLength, if_neg (Nat.not_le.mpr hlength), h]

/-- A blob that is not opened, though there is something behind its nonce, has a wrong tag. -/
theorem openBlob_of_ne_ok (hlength : 12 < blob.length)
    (h : ∀ plaintext, e.openBlob blob ≠ .ok plaintext) :
    e.openBlob blob = .error (.decryption .tagMismatch) := by
  cases hdecrypt : Gcm.decrypt? e.key (blob.take 12) (blob.drop 12) with
  | none => exact openBlob_of_decrypt?_eq_none hlength hdecrypt
  | some plaintext => exact absurd (openBlob_of_decrypt?_eq_some hlength hdecrypt) (h plaintext)

/-- What is sealed is opened. -/
theorem openBlob_sealWith (hnonce : nonce.length = 12)
    (hlength : plaintext.length ≤ Gcm.maxLength) :
    e.openBlob (e.sealWith nonce plaintext) = .ok plaintext := by
  have hlong : 12 < (e.sealWith nonce plaintext).length := by
    rw [length_sealWith hnonce]
    omega
  refine openBlob_of_decrypt?_eq_some hlong ?_
  rw [sealWith, List.take_left' hnonce, List.drop_left' hnonce,
    Gcm.decrypt?_eq_some_iff e.length_key hnonce]
  exact ⟨hlength, rfl⟩

/-- What is opened was sealed under the nonce at its front. -/
theorem sealBlob_of_openBlob (h : e.openBlob blob = .ok plaintext) :
    12 < blob.length ∧ e.sealBlob (blob.take 12) plaintext = .ok blob := by
  rcases Nat.lt_or_ge 12 blob.length with hlong | hshort
  · refine ⟨hlong, ?_⟩
    have hnonce : (blob.take 12).length = 12 := by
      rw [List.length_take]
      omega
    cases hdecrypt : Gcm.decrypt? e.key (blob.take 12) (blob.drop 12) with
    | none =>
        rw [openBlob_of_decrypt?_eq_none hlong hdecrypt] at h
        cases h
    | some opened =>
        rw [openBlob_of_decrypt?_eq_some hlong hdecrypt] at h
        cases h
        obtain ⟨hlength, htext⟩ := (Gcm.decrypt?_eq_some_iff e.length_key hnonce).mp hdecrypt
        refine sealBlob_eq_ok_iff.mpr ⟨hlength, ?_⟩
        rw [sealWith, ← htext, List.take_append_drop]
  · rw [openBlob_of_truncated hshort] at h
    cases h

/-- The blobs that are opened are the ones that are sealed. -/
theorem openBlob_eq_ok_iff : e.openBlob blob = .ok plaintext ↔
    ∃ nonce, nonce.length = 12 ∧ e.sealBlob nonce plaintext = .ok blob := by
  constructor
  · intro h
    obtain ⟨hlong, hseal⟩ := sealBlob_of_openBlob h
    refine ⟨blob.take 12, ?_, hseal⟩
    rw [List.length_take]
    omega
  · rintro ⟨nonce, hnonce, hseal⟩
    obtain ⟨hlength, rfl⟩ := sealBlob_eq_ok_iff.mp hseal
    exact openBlob_sealWith hnonce hlength

theorem length_of_openBlob_eq_ok (h : e.openBlob blob = .ok plaintext) :
    blob.length = plaintext.length + 28 := by
  obtain ⟨nonce, hnonce, hseal⟩ := openBlob_eq_ok_iff.mp h
  obtain ⟨-, rfl⟩ := sealBlob_eq_ok_iff.mp hseal
  exact length_sealWith hnonce

/-! ## Main statement -/

/-- **What is sealed is opened, and only what is sealed.**  For every key:

* A plaintext that is not too long is sealed under every nonce of twelve bytes.  The blob is the
  nonce, a ciphertext as long as the plaintext and a tag of 16 bytes, and it is opened to the
  plaintext.
* A plaintext that is too long is sealed under no nonce.
* A blob that is opened is what its plaintext is sealed to under the first twelve bytes of the
  blob.
* So no two blobs with the same nonce are opened to the same plaintext.
* A blob of twelve bytes or less is truncated.  Every other blob that is not opened has a wrong tag,
  and blobs of less than 28 bytes are among these. -/
theorem sealed_blobs_are_opened (e : Envelope) :
    (∀ nonce plaintext, nonce.length = 12 → plaintext.length ≤ Gcm.maxLength →
      ∃ blob ciphertext tag, e.sealBlob nonce plaintext = .ok blob ∧
        blob = nonce ++ (ciphertext ++ tag) ∧ ciphertext.length = plaintext.length ∧
        tag.length = 16 ∧ blob.length = plaintext.length + 28 ∧
        e.openBlob blob = .ok plaintext) ∧
    (∀ nonce plaintext, Gcm.maxLength < plaintext.length →
      e.sealBlob nonce plaintext = .error (.internal "mnemonic encryption failed")) ∧
    (∀ blob plaintext, e.openBlob blob = .ok plaintext →
      (blob.take 12).length = 12 ∧ e.sealBlob (blob.take 12) plaintext = .ok blob) ∧
    (∀ blob blob' plaintext, e.openBlob blob = .ok plaintext → e.openBlob blob' = .ok plaintext →
      blob.take 12 = blob'.take 12 → blob = blob') ∧
    (∀ blob, blob.length ≤ 12 → e.openBlob blob = .error (.decryption .truncated)) ∧
    (∀ blob, 12 < blob.length →
      (blob.length < 28 ∨ ∀ plaintext, e.openBlob blob ≠ .ok plaintext) →
      e.openBlob blob = .error (.decryption .tagMismatch)) := by
  refine ⟨?_, fun _ _ => sealBlob_of_too_long, ?_, ?_, fun _ => openBlob_of_truncated, ?_⟩
  · intro nonce plaintext hnonce hlength
    exact ⟨e.sealWith nonce plaintext, Gcm.crypt e.key nonce plaintext,
      Gcm.tag e.key nonce (Gcm.crypt e.key nonce plaintext),
      sealBlob_eq_ok_iff.mpr ⟨hlength, rfl⟩, rfl, Gcm.length_crypt e.length_key hnonce plaintext,
      Gcm.length_tag e.length_key hnonce _, length_sealWith hnonce,
      openBlob_sealWith hnonce hlength⟩
  · intro blob plaintext hopen
    obtain ⟨hlong, hseal⟩ := sealBlob_of_openBlob hopen
    refine ⟨?_, hseal⟩
    rw [List.length_take]
    omega
  · intro blob blob' plaintext hopen hopen' hnonce
    have hseal := (sealBlob_of_openBlob hopen).2
    rw [hnonce, (sealBlob_of_openBlob hopen').2] at hseal
    exact (Except.ok.inj hseal).symm
  · intro blob hlong hnot
    refine openBlob_of_ne_ok hlong fun plaintext hopen => ?_
    rcases hnot with hshort | hnot
    · have hlength := length_of_openBlob_eq_ok hopen
      omega
    · exact hnot plaintext hopen

end Keyring.Envelope
