import Keyring.Address.Encoding
import Keyring.Address.Evm
import Keyring.Bytes
import Keyring.Chain.Json
import Keyring.Chain.Params
import Keyring.Chain.Plugin
import Keyring.Chain.Signer
import Keyring.Cipher.Aes
import Keyring.Cipher.Gcm
import Keyring.Cli.Arguments
import Keyring.Cli.Run
import Keyring.Config.Basic
import Keyring.Config.Json
import Keyring.Config.Toml
import Keyring.Container
import Keyring.Digest.Hmac
import Keyring.Digest.Keccak256
import Keyring.Digest.Ripemd160
import Keyring.Digest.Sha256
import Keyring.Digest.Sha512
import Keyring.Encoding.Base58
import Keyring.Encoding.Base64
import Keyring.Encoding.Bech32
import Keyring.Envelope
import Keyring.Error
import Keyring.Evm.Request
import Keyring.Evm.Signer
import Keyring.Evm.Transaction
import Keyring.Float64
import Keyring.Hex
import Keyring.Json.Number
import Keyring.Json.Reader
import Keyring.Json.Sorted
import Keyring.Json.Text
import Keyring.Json.Tree
import Keyring.Json.Value
import Keyring.KeyNode
import Keyring.Main
import Keyring.Mnemonic.Basic
import Keyring.Mnemonic.WordList
import Keyring.Network
import Keyring.Path
import Keyring.Pool.Clock
import Keyring.Pool.Host
import Keyring.Pool.Schedule
import Keyring.Pool.Unit
import Keyring.Proofs.Bytes
import Keyring.Proofs.Mnemonic.Master
import Keyring.Proofs.Outcome
import Keyring.Proofs.Pool.Gate
import Keyring.Proofs.Pool.IdleTime
import Keyring.Proofs.Pool.Lifecycle
import Keyring.Proofs.Pool.Operate
import Keyring.Proofs.Text.Decimal
import Keyring.Proofs.Wallet.AddressCache
import Keyring.Proofs.Wallet.History
import Keyring.Proofs.Wallet.Keychain
import Keyring.Proofs.Wallet.Ranges
import Keyring.Rlp
import Keyring.Secp256k1
import Keyring.Signature
import Keyring.Storage.Cell
import Keyring.Storage.DatabaseUrl
import Keyring.Storage.Memory
import Keyring.Storage.Relational
import Keyring.Storage.Statement
import Keyring.Text.Blank
import Keyring.Text.Decimal
import Keyring.Text.Quoted
import Keyring.Text.Visible
import Keyring.Timestamp.Basic
import Keyring.Timestamp.Calendar
import Keyring.Timestamp.Reader
import Keyring.Toml.Document
import Keyring.Toml.Table
import Keyring.Toml.Token
import Keyring.Uuid
import Keyring.Wallet.Account
import Keyring.Wallet.AddressCache
import Keyring.Wallet.Keychain
import Keyring.Wallet.Record
import Keyring.Word
import Keyring.Proofs.Rlp
import Keyring.Proofs.Address.Evm
import Keyring.Proofs.Evm.Reading
import Keyring.Proofs.Text.Utf8
import Keyring.Proofs.Evm.Preimage
import Keyring.Proofs.Evm.Signing
import Keyring.Proofs.Hex
import Keyring.Proofs.Address.Encoding
import Keyring.Proofs.Json.Text
import Keyring.Proofs.Json.Number
import Keyring.Proofs.Json.Reading
import Keyring.Proofs.Container
import Keyring.Proofs.Chain.Signing
import Keyring.Proofs.Pool.Signing
import Keyring.Proofs.Storage.Memory
import Keyring.Proofs.Pool.Custody
import Keyring.Proofs.Pool.Ownership
import Keyring.Proofs.Pool.Handover
import Keyring.Proofs.Pool.Race
import Keyring.Proofs.Pool.Separation
import Keyring.Proofs.Pool.Watchdog
import Keyring.Proofs.Wallet.RangeCap
import Keyring.Proofs.Encoding.Base58
import Keyring.Proofs.KeyNode.Export
import Keyring.Proofs.KeyNode.Reachable
import Keyring.Proofs.Json.Grammar
import Keyring.Proofs.Json.Scanner
import Keyring.Proofs.Json.Document
import Keyring.Proofs.Evm.HexFields
import Keyring.Proofs.Evm.Payload
import Keyring.Proofs.Pool.Failure
import Keyring.Proofs.Container.Inputs
import Keyring.Proofs.Secp256k1.Group
import Keyring.Proofs.Secp256k1.Prime
import Keyring.Proofs.Secp256k1.Jacobian
import Keyring.Proofs.Secp256k1.Generator
import Keyring.Proofs.Secp256k1.Compressed
import Keyring.Proofs.Signature
import Keyring.Proofs.Evm.Complete
import Keyring.Proofs.KeyNode.Public
import Keyring.Proofs.Wallet.WatchOnly
import Keyring.Proofs.Secp256k1.Count
import Keyring.Proofs.Signature.Twins
import Keyring.Proofs.Path.Text
import Keyring.Proofs.KeyNode.Descent
import Keyring.Proofs.KeyNode.DepthZero
import Keyring.Proofs.Path.Grammar
import Keyring.Proofs.Chain.Registry
import Keyring.Proofs.Chain.Derivable
import Keyring.Proofs.Chain.Fit
import Keyring.Proofs.Storage.RowIds
import Keyring.Proofs.Cipher.Aes
import Keyring.Proofs.Cipher.Gcm
import Keyring.Proofs.Envelope
import Keyring.Proofs.Json.Record
import Keyring.Proofs.Container.Payload
import Keyring.Proofs.Text.Words
import Keyring.Proofs.Mnemonic.WordList
import Keyring.Proofs.Mnemonic.Packing
import Keyring.Proofs.Mnemonic.Phrase
import Keyring.Proofs.Uuid
import Keyring.Proofs.Storage.Relational
import Keyring.Proofs.Storage.Run
import Keyring.Proofs.Storage.Agreement
import Keyring.Proofs.Chain.Overrides
import Keyring.Proofs.Pool.Reissue
import Keyring.Proofs.Pool.Clock
import Keyring.Proofs.Address.Identity
import Keyring.Proofs.Chain.Sender
import Keyring.Proofs.Chain.SetOnce
import Keyring.Proofs.Wallet.CacheHistory
