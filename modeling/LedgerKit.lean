import LedgerKit.Bytes.Basic
import LedgerKit.Bytes.Hex
import LedgerKit.Cipher.Aes
import LedgerKit.Client.Basic
import LedgerKit.Client.Config
import LedgerKit.Client.ConfigFile
import LedgerKit.Der.Element
import LedgerKit.Der.Encrypted
import LedgerKit.Der.Key
import LedgerKit.Ed25519.Field
import LedgerKit.Ed25519.Point
import LedgerKit.Ed25519.Signing
import LedgerKit.Hash.Hmac
import LedgerKit.Hash.Pbkdf2
import LedgerKit.Hash.Scrypt
import LedgerKit.Hash.Sha2
import LedgerKit.Id.Address
import LedgerKit.Id.Checksum
import LedgerKit.Id.Digest
import LedgerKit.Id.Distinct
import LedgerKit.Id.Entity
import LedgerKit.Id.Ledger
import LedgerKit.Id.Typed
import LedgerKit.Json.Codec
import LedgerKit.Json.Printer
import LedgerKit.Json.Reader
import LedgerKit.Json.Value
import LedgerKit.Key.Error
import LedgerKit.Key.Held
import LedgerKit.Key.Mnemonic
import LedgerKit.Key.Private
import LedgerKit.Key.Public
import LedgerKit.Key.WordList
import LedgerKit.Log
import LedgerKit.Pem.PrivateKey
import LedgerKit.Pem.Section
import LedgerKit.Random.Replay
import LedgerKit.Random.Source
import LedgerKit.SortedMap
import LedgerKit.Text.Decimal
import LedgerKit.Text.Offset
import LedgerKit.Text.Quoted
import LedgerKit.Text.Search
import LedgerKit.Toml.DateTime
import LedgerKit.Toml.Document
import LedgerKit.Toml.Number
import LedgerKit.Toml.Printer
import LedgerKit.Toml.Quoted
import LedgerKit.Toml.Space
import LedgerKit.Toml.Value
import LedgerKit.Transaction.Basic
import LedgerKit.Transaction.Envelope
import LedgerKit.Transaction.Frozen
import LedgerKit.Transaction.Outcome
import LedgerKit.Proofs.Envelope
import LedgerKit.Proofs.Frozen
import LedgerKit.Proofs.Listed
import LedgerKit.Proofs.Freeze
import LedgerKit.Proofs.Single
import LedgerKit.Proofs.Run
import LedgerKit.Proofs.FreezeLaw
import LedgerKit.Proofs.Digest
import LedgerKit.Proofs.IdText
import LedgerKit.Proofs.Validation
import LedgerKit.Proofs.Mistyped
import LedgerKit.Proofs.NetworkBinding
import LedgerKit.Proofs.Collection
import LedgerKit.Proofs.SinglePath
import LedgerKit.Proofs.FirstWriter
import LedgerKit.Proofs.Journal
import LedgerKit.Proofs.Warnings
import LedgerKit.Proofs.Resolution
import LedgerKit.Proofs.Selection
import LedgerKit.Proofs.Hexadecimal
import LedgerKit.Proofs.DerDocument
import LedgerKit.Proofs.KeyExport
import LedgerKit.Proofs.KeyHistory
import LedgerKit.Proofs.Lists
import LedgerKit.Proofs.JsonText
import LedgerKit.Proofs.JsonCodec
import LedgerKit.Proofs.PublicKeyPoints
import LedgerKit.Proofs.JsonRoundTrip
import LedgerKit.Proofs.TomlString
import LedgerKit.Proofs.TomlNumber
import LedgerKit.Proofs.TomlDocument
import LedgerKit.Proofs.ConfigFile
import LedgerKit.Proofs.PartialSigning
import LedgerKit.Proofs.PublishedChecksum
import LedgerKit.Proofs.ByteOrder
import LedgerKit.Proofs.SolidityAddress
import LedgerKit.Proofs.Occurrences
import LedgerKit.Proofs.PemSections
import LedgerKit.Proofs.PemOffsets
import LedgerKit.Proofs.TextWords
import LedgerKit.Proofs.WordTable
import LedgerKit.Proofs.PhraseNumber
import LedgerKit.Proofs.Phrases
import LedgerKit.Proofs.PhraseEntry
import LedgerKit.Proofs.HardenedPath
import LedgerKit.Proofs.DerReader
import LedgerKit.Proofs.PublicKeyText
import LedgerKit.Proofs.LedgerText
import LedgerKit.Proofs.SignerSet
import LedgerKit.Proofs.Collisions
import LedgerKit.Proofs.ReplayedStream
