import Keyring.Cipher.Aes

/-!
# AES-256 in Galois counter mode

Authenticated encryption with nonces of 12 bytes and tags of 16 bytes, without
associated data.  The key stream is the encryption of successive counter blocks; the
tag is a polynomial in the ciphertext blocks over the field of `2 ^ 128` elements,
masked with the encryption of the first counter block.
-/

namespace Keyring.Gcm

/-- Multiplies field elements: `v` is the second factor shifted as far as the bits of
`x`, most significant first, have been used. -/
def mulFrom (x : Nat) : (bits : Nat) → (v sum : Nat) → Nat
  | 0, _, sum => sum
  | bits + 1, v, sum =>
    let sum := if x.testBit bits then sum ^^^ v else sum
    let v := if v % 2 = 1 then (v / 2) ^^^ (0xe1 * 2 ^ 120) else v / 2
    mulFrom x bits v sum

/-- The product of two field elements. -/
def mul (x y : Nat) : Nat :=
  mulFrom x 128 y 0

/-- The hash of `count` blocks of 16 bytes, the last one filled up with zeros. -/
def ghashBlocks (h : Nat) : (count : Nat) → Bytes → Nat → Nat
  | 0, _, acc => acc
  | count + 1, data, acc =>
    let block := data.take 16
    let element := Bytes.toNat (block ++ List.replicate (16 - block.length) 0)
    ghashBlocks h count (data.drop 16) (mul (acc ^^^ element) h)

/-- The hash of a ciphertext under the hash key `h`, its length in bits included. -/
def ghash (h : Nat) (ciphertext : Bytes) : Nat :=
  let acc := ghashBlocks h ((ciphertext.length + 15) / 16) ciphertext 0
  mul (acc ^^^ (8 * ciphertext.length)) h

/-- The counter block number `i` of a nonce. -/
def counterBlock (nonce : Bytes) (i : Nat) : Bytes :=
  nonce ++ Bytes.ofNat 4 i

/-- The key stream of `count` blocks from counter block `i` on. -/
def keyStream (keys : List Bytes) (nonce : Bytes) : (count : Nat) → (i : Nat) → Bytes
  | 0, _ => []
  | count + 1, i =>
    Aes.encryptBlock keys (counterBlock nonce i) ++ keyStream keys nonce count (i + 1)

/-- Encrypts or decrypts a text of any length. -/
def crypt (key nonce text : Bytes) : Bytes :=
  Bytes.xor text (keyStream (Aes.roundKeys key) nonce ((text.length + 15) / 16) 2)

/-- The tag of a ciphertext. -/
def tag (key nonce ciphertext : Bytes) : Bytes :=
  let keys := Aes.roundKeys key
  let h := Bytes.toNat (Aes.encryptBlock keys (List.replicate 16 0))
  Bytes.xor (Bytes.ofNat 16 (ghash h ciphertext))
    (Aes.encryptBlock keys (counterBlock nonce 1))

/-- The greatest length of a plaintext, that of `2 ^ 32` blocks.  The counter of a block has 32
bits; since blocks of text are counted from 2 on, it starts over for the last two of so many. -/
def maxLength : Nat :=
  68719476736

/-- A ciphertext followed by its tag. -/
def encrypt (key nonce plaintext : Bytes) : Bytes :=
  let ciphertext := crypt key nonce plaintext
  ciphertext ++ tag key nonce ciphertext

/-- The plaintext, if the text ends with the right tag and is not too long. -/
def decrypt? (key nonce text : Bytes) : Option Bytes :=
  if text.length < 16 ∨ maxLength + 16 < text.length then none
  else
    let ciphertext := text.take (text.length - 16)
    if tag key nonce ciphertext = text.drop (text.length - 16) then
      some (crypt key nonce ciphertext)
    else none

end Keyring.Gcm
