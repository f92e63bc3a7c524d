import Keyring.Hex

/-!
# Errors

Every operation of the library that can fail reports a `WalletError`.  The kind of
an error says which duty failed; where a kind has several causes they are listed in
a type of their own.  `WalletError.message` is the one place that words them.
-/

namespace Keyring

/-- The five levels of a derivation path below the master node. -/
inductive PathLevel
  | purpose | coinType | account | change | addressIndex
  deriving DecidableEq, Repr

/-- The name of a path level in messages. -/
def PathLevel.name : PathLevel → String
  | .purpose => "purpose"
  | .coinType => "coin_type"
  | .account => "account"
  | .change => "change"
  | .addressIndex => "address_index"

/-- Why a key could not be derived or imported. -/
inductive DerivationFault
  | unusableSeed
  | depthExhausted
  /-- An exported key has one byte for the depth. -/
  | depthTooLarge
  | emptyPath
  | levelOutOfRange (level : PathLevel) (value : UInt32)
  | malformedPath (text : String)
  | badChecksum
  | wrongLength (length : Nat)
  | wrongVersion
  | notPrivate
  | badSecret
  | other (text : String)
  deriving DecidableEq, Repr

def DerivationFault.message : DerivationFault → String
  | .unusableSeed => "unusable seed"
  | .depthExhausted => "maximum depth exceeded"
  | .depthTooLarge => "depth does not fit in one byte"
  | .emptyPath => "empty path"
  | .levelOutOfRange level value => level.name ++ " " ++ toString value ++ " is out of range"
  | .malformedPath text => "malformed BIP44 path: " ++ text
  | .badChecksum => "bad extended key checksum"
  | .wrongLength length => "extended key must be 78 bytes, got " ++ toString length
  | .wrongVersion => "unexpected version bytes"
  | .notPrivate => "not a private extended key"
  | .badSecret => "malformed or out-of-range secret key"
  | .other text => text

/-- Why an encrypted mnemonic could not be opened. -/
inductive DecryptionFault
  | truncated
  | tagMismatch
  | other (text : String)
  deriving DecidableEq, Repr

def DecryptionFault.message : DecryptionFault → String
  | .truncated => "encrypted blob is truncated"
  | .tagMismatch => "authentication tag mismatch"
  | .other text => text

/-- Why a signer could not be recovered from a signature, or was not the expected
one. -/
inductive RecoveryFault
  | wrongLength (length : Nat)
  | invalidV (v : Nat)
  | highS
  | malformed
  | badRecoveryId (id : UInt8)
  | wrongV (v : UInt64) (transaction : String)
  | unexpectedSigner (recovered expected : String)
  | hex (fault : Hex.Fault)
  | other (text : String)
  deriving DecidableEq, Repr

def RecoveryFault.message : RecoveryFault → String
  | .wrongLength length => "signature must be 65 bytes, got " ++ toString length
  | .invalidV v => "invalid V value " ++ toString v
  | .highS => "S value is not canonical"
  | .malformed => "malformed signature"
  | .badRecoveryId id => "invalid recovery id " ++ toString id
  | .wrongV v transaction =>
    "invalid V " ++ toString v ++ " for " ++ transaction ++ " transaction"
  | .unexpectedSigner recovered expected =>
    "recovered " ++ recovered ++ ", expected " ++ expected
  | .hex fault => fault.message
  | .other text => text

/-- Why a text is no account address. -/
inductive AddressFault
  | hex (fault : Hex.Fault)
  | wrongLength (length : Nat)
  | other (text : String)
  deriving DecidableEq, Repr

def AddressFault.message : AddressFault → String
  | .hex fault => fault.message
  | .wrongLength length => "address must be 20 bytes, got " ++ toString length
  | .other text => text

/-- Why a text is no mnemonic phrase, or none could be generated. -/
inductive MnemonicFault
  | unsupportedWordCount (count : Nat)
  | wordCount (count : Nat)
  | unknownWord (position : Nat)
  | checksum
  | notUtf8
  | other (text : String)
  deriving DecidableEq, Repr

def MnemonicFault.message : MnemonicFault → String
  | .unsupportedWordCount count => "unsupported word count " ++ toString count
  | .wordCount count =>
    "mnemonic has an invalid word count: " ++ toString count
      ++ ". Word count must be 12, 15, 18, 21, or 24"
  | .unknownWord position =>
    "mnemonic contains an unknown word (word " ++ toString position ++ ")"
  | .checksum => "the mnemonic has an invalid checksum"
  | .notUtf8 => "mnemonic is not valid UTF-8"
  | .other text => text

/-- Why a digest could not be signed. -/
inductive SigningFault
  | badSecret
  | chainIdOverflow (chainId : UInt64)
  | nonceExhausted
  | other (text : String)
  deriving DecidableEq, Repr

def SigningFault.message : SigningFault → String
  | .badSecret => "malformed or out-of-range secret key"
  | .chainIdOverflow chainId => "chain id " ++ toString chainId ++ " overflows V"
  | .nonceExhausted => "no usable nonce"
  | .other text => text

/-- Why a configuration, or a collaborator set up from it, is unusable. -/
inductive ConfigFault
  /-- The text is no TOML document, or a value in it has the wrong type. -/
  | malformedToml
  /-- The envelope key is no canonical Base64 text. -/
  | envelopeKeyText
  | envelopeKeyLength (length : Nat)
  | unset (name : String)
  | invalidValue (name value : String)
  | unreadable (path reason : String)
  | emptyChainName
  | notPositive (setting : String)
  | wordCount (count : Nat)
  | emptyDatabaseUrl
  /-- The database URL carries an unknown parameter or a bad value for one. -/
  | databaseUrl
  | duplicatePlugin (name : String)
  | other (text : String)
  deriving DecidableEq, Repr

def ConfigFault.message : ConfigFault → String
  | .malformedToml => "TOML parse error"
  | .envelopeKeyText => "invalid envelope key: not canonical Base64"
  | .envelopeKeyLength length => "envelope key must be 32 bytes, got " ++ toString length
  | .unset name => name ++ " is not set"
  | .invalidValue name value => name ++ " has an invalid value: " ++ value
  | .unreadable path reason => "cannot read " ++ path ++ ": " ++ reason
  | .emptyChainName => "chain.name cannot be empty"
  | .notPositive setting => setting ++ " must be positive"
  | .wordCount count =>
    "mnemonic.words_count " ++ toString count ++ " not in [12, 15, 18, 21, 24]"
  | .emptyDatabaseUrl => "Database URL cannot be empty"
  | .databaseUrl => "Invalid database URL"
  | .duplicatePlugin name => "plugin " ++ name ++ " registered twice"
  | .other text => text

/-- The outcome of a failed wallet operation. -/
inductive WalletError
  | invalidSeedLength (length : Nat)
  /-- The derived scalar was zero or not below the curve order. -/
  | invalidChildKey (index : UInt32)
  | walletNotFound (wallet : String)
  | walletDisabled (wallet : String)
  | decryption (fault : DecryptionFault)
  /-- The decrypted phrase does not have the stored fingerprint. -/
  | integrityMismatch (wallet : String)
  | invalidRange (first last : UInt32)
  | unsupportedTransaction (tag : String)
  | missingField (name : String)
  | recovery (fault : RecoveryFault)
  | alreadySet (name : String)
  | unsupportedChain (name : String)
  | keyCleared
  | unitClosed (wallet : String)
  | config (fault : ConfigFault)
  /-- Of a column that cannot be read, and of a statement that maintenance runs, only the cause is
  told, not the column or the word where it went wrong. -/
  | storage (text : String)
  | mnemonic (fault : MnemonicFault)
  | derivation (fault : DerivationFault)
  | address (fault : AddressFault)
  | signing (fault : SigningFault)
  /-- The text says what was to be read, not where in the document reading it failed. -/
  | serialization (text : String)
  | internal (text : String)
  deriving DecidableEq, Repr

/-- A failure of a collaborator that knows nothing of wallets. -/
inductive ForeignFailure
  /-- A failure that is only known by its text. -/
  | unknown (text : String)
  | fileSystem (text : String)
  /-- A query had no row to answer with. -/
  | rowNotFound
  /-- A database answered with something unexpected. -/
  | protocol (text : String)
  /-- A byte string is no secret key. -/
  | secretKey
  deriving DecidableEq, Repr

/-- Broad classes of errors by which callers decide how to react. -/
inductive ErrorCategory
  /-- Bad request data: report it, never retry. -/
  | input
  /-- Secret material or a derived key failed a consistency check. -/
  | integrity
  /-- The operation conflicts with the current state of an object. -/
  | state
  /-- A collaborator failed. -/
  | transient
  deriving DecidableEq, Repr

namespace WalletError

/-- The message of an error. -/
def message : WalletError → String
  | invalidSeedLength length =>
    "Invalid seed length: " ++ toString length ++ " bytes (minimum 16)"
  | invalidChildKey index => "Invalid child key at index " ++ toString index
  | walletNotFound wallet => "Wallet not found: " ++ wallet
  | walletDisabled wallet => "Wallet disabled: " ++ wallet
  | decryption fault => "Decryption failed: " ++ fault.message
  | integrityMismatch wallet => "Mnemonic integrity mismatch: " ++ wallet
  | invalidRange first last =>
    "Invalid address index range: " ++ toString first ++ "..=" ++ toString last
  | unsupportedTransaction tag => "Unsupported transaction type: " ++ tag
  | missingField name => "Missing required field: " ++ name
  | recovery fault => "Signature recovery failed: " ++ fault.message
  | alreadySet name => "Value already set: " ++ name
  | unsupportedChain name => "Unsupported chain: " ++ name
  | keyCleared => "Key material has been cleared"
  | unitClosed wallet => "Pool unit closed: " ++ wallet
  | config fault => "Configuration error: " ++ fault.message
  | storage text => "Storage error: " ++ text
  | mnemonic fault => "Mnemonic error: " ++ fault.message
  | derivation fault => "Key derivation error: " ++ fault.message
  | address fault => "Address error: " ++ fault.message
  | signing fault => "Signing failed: " ++ fault.message
  | serialization text => "Serialization error: " ++ text
  | internal text => "Internal error: " ++ text

/-- The error that stands for the failure of a collaborator. -/
def ofForeign : ForeignFailure → WalletError
  | .unknown text => internal text
  | .fileSystem text => storage text
  | .rowNotFound => walletNotFound "row not found"
  | .protocol text => storage ("encountered unexpected or invalid data: " ++ text)
  | .secretKey => derivation .badSecret

/-- The class an error belongs to. -/
def category : WalletError → ErrorCategory
  | invalidRange .. | unsupportedTransaction _ | missingField _ | invalidSeedLength _
  | mnemonic _ | serialization _ | unsupportedChain _ | config _ => .input
  | integrityMismatch _ | invalidChildKey _ | recovery _ | derivation _ => .integrity
  | alreadySet _ | walletNotFound _ | walletDisabled _ | keyCleared | unitClosed _ => .state
  | decryption _ | storage _ | address _ | signing _ | internal _ => .transient

/-- Integrity failures abort the current operation and have to be reported. -/
def isCritical (e : WalletError) : Bool :=
  e.category == .integrity

/-- Whether trying again could help. -/
def isRetryable : WalletError → Bool
  | decryption _ | storage _ => true
  | _ => false

end WalletError

end Keyring
