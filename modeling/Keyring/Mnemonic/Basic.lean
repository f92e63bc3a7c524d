import Keyring.Digest.Hmac
import Keyring.Error
import Keyring.Mnemonic.WordList
import Keyring.Text.Blank

/-!
# Mnemonic phrases

A phrase of `n` words packs `n / 3 * 4` bytes of entropy and `n / 3` check bits into
numbers of eleven bits: the check bits are the first bits of the SHA-256 digest of the
entropy.  Reading a phrase checks the number of words, then that every word is listed,
then the check bits.  The seed of a phrase is stretched from its words.
-/

namespace Keyring

/-- A checked phrase, as the positions of its words. -/
structure Mnemonic where
  positions : List Nat
  deriving DecidableEq, Repr

namespace Mnemonic

/-- The numbers of words a phrase may have. -/
def wordCounts : List Nat :=
  [12, 15, 18, 21, 24]

/-- The check bits of some entropy, `bits ≤ 8` of them, as a number. -/
def checkBits (entropy : Bytes) (bits : Nat) : Nat :=
  ((sha256 entropy).headD 0).toNat >>> (8 - bits)

/-- The number that positions of eleven bits spell, first position first. -/
def pack (positions : List Nat) : Nat :=
  positions.foldl (fun n i => n * 2048 + i) 0

/-- The `count` positions that a number spells. -/
def unpack : (count : Nat) → (n : Nat) → List Nat
  | 0, _ => []
  | count + 1, n => n >>> (11 * count) % 2048 :: unpack count n

/-- The entropy that positions carry. -/
def entropyOf (positions : List Nat) : Bytes :=
  let groups := positions.length / 3
  Bytes.ofNat (4 * groups) (pack positions >>> groups)

/-- Whether the check bits at the end of the positions are right. -/
def checksumHolds (positions : List Nat) : Bool :=
  let groups := positions.length / 3
  pack positions % (1 <<< groups) == checkBits (entropyOf positions) groups

/-- The phrase of some entropy, whose length is a multiple of four bytes. -/
def ofEntropy (entropy : Bytes) : Mnemonic :=
  let groups := entropy.length / 4
  ⟨unpack (3 * groups) (Bytes.toNat entropy <<< groups + checkBits entropy groups)⟩

/-- The positions of words, or the first word that is not listed; `i` is the number of
words before. -/
def positionsFrom (i : Nat) : List String → Except MnemonicFault (List Nat)
  | [] => .ok []
  | word :: rest =>
    match position? word with
    | none => .error (.unknownWord i)
    | some p => do return p :: (← positionsFrom (i + 1) rest)

/-- Checks a sequence of words. -/
def ofWords (words : List String) : Except MnemonicFault Mnemonic :=
  if wordCounts.contains words.length then do
    let positions ← positionsFrom 0 words
    if checksumHolds positions then .ok ⟨positions⟩ else .error .checksum
  else .error (.wordCount words.length)

/-- Reads a phrase; words are separated by white space. -/
def ofPhrase (phrase : String) : Except MnemonicFault Mnemonic :=
  ofWords (Text.words phrase)

/-- The words of a phrase. -/
def words (m : Mnemonic) : List String :=
  m.positions.map wordAt

/-- The words of a phrase, separated by single spaces. -/
def phrase (m : Mnemonic) : String :=
  " ".intercalate m.words

/-- The 64-byte seed of a phrase, without a passphrase. -/
def seed (m : Mnemonic) : Bytes :=
  pbkdf2Sha512 (Bytes.ofString m.phrase) (Bytes.ofString "mnemonic") 2048

/-- Whether a text is a valid phrase. -/
def isValid (phrase : String) : Bool :=
  match ofPhrase phrase with
  | .ok _ => true
  | .error _ => false

/-- The seed of a text, if it is a valid phrase. -/
def seedOfPhrase (phrase : String) : Except WalletError Bytes :=
  match ofPhrase phrase with
  | .ok m => .ok m.seed
  | .error fault => .error (.mnemonic fault)

/-- The number of bytes of entropy behind a phrase of `count` words. -/
def entropyLength (count : Nat) : Nat :=
  count * 4 / 3

/-- A new phrase of `count` words; `draw n` supplies `n` random bytes. -/
def generate (count : Nat) (draw : Nat → Bytes) : Except WalletError Mnemonic :=
  if wordCounts.contains count then .ok (ofEntropy (draw (entropyLength count)))
  else .error (.mnemonic (.unsupportedWordCount count))

/-- The fingerprint stored beside an encrypted phrase: its SHA-256 digest in lower-case
hexadecimal. -/
def fingerprint (text : Bytes) : String :=
  Hex.encode (sha256 text)

/-- A stored fingerprint in its canonical form: without white space around it and with
ASCII letters in lower case. -/
def normalizeFingerprint (stored : String) : String :=
  (Text.trim stored).map Char.toLower

/-- Whether a text has a stored fingerprint. -/
def hasFingerprint (text : Bytes) (stored : String) : Bool :=
  fingerprint text == normalizeFingerprint stored

end Mnemonic

end Keyring
