import ShardNet.Bytes
import ShardNet.Text.Blank
import ShardNet.Text.Decimal
import ShardNet.Text.Utf8
import ShardNet.Text.Hex
import ShardNet.Text.Base64
import ShardNet.Text.Bech32
import ShardNet.Number.Binary
import ShardNet.Number.Real
import ShardNet.Number.Shortest
import ShardNet.Json.Basic
import ShardNet.Json.Literal
import ShardNet.Json.Reader
import ShardNet.Json.Writer
import ShardNet.Table
import ShardNet.Json.Codec
import ShardNet.Json.Record
import ShardNet.Crypto.Ed25519
import ShardNet.Address
import ShardNet.Shard
import ShardNet.Shard.Coordinator
import ShardNet.Text.Duration
import ShardNet.Account
import ShardNet.Block
import ShardNet.Entity
import ShardNet.Transaction
import ShardNet.Network.Config
import ShardNet.Network.Epochs
import ShardNet.Network.Genesis
import ShardNet.Network.Ratings
import ShardNet.Network.Status
import ShardNet.Vm
import ShardNet.Error
import ShardNet.Envelope
import ShardNet.Network.Cache
import ShardNet.Nonce.Book
import ShardNet.Route
import ShardNet.Transaction.Arguments
import ShardNet.Program
import ShardNet.Client
import ShardNet.Account.Balance
import ShardNet.Client.Account
import ShardNet.Client.Block
import ShardNet.Client.Query
import ShardNet.Client.Transfer
import ShardNet.Client.Settings
import ShardNet.Transport.Http
import ShardNet.Transport.Script
import ShardNet.Proofs.Interleaving
import ShardNet.Proofs.Discipline
import ShardNet.Proofs.Client.Footprint
import ShardNet.Proofs.Nonce.Holding
import ShardNet.Proofs.Nonce.Ledger
import ShardNet.Proofs.Nonce.Exclusive
import ShardNet.Proofs.Json.ReadBack
import ShardNet.Proofs.Json.Record
import ShardNet.Proofs.Transaction
import ShardNet.Proofs.Cache.Reading
import ShardNet.Proofs.Cache.Fresh
import ShardNet.Proofs.Cache.SingleFlight
import ShardNet.Proofs.Nonce.Outstanding
import ShardNet.Proofs.Shard.OfAddress
import ShardNet.Proofs.Trace
import ShardNet.Proofs.Client.Conversation
import ShardNet.Proofs.Client.Gate
import ShardNet.Proofs.Text.Utf8
import ShardNet.Proofs.Text.Hex
import ShardNet.Proofs.Text.Bech32
import ShardNet.Proofs.Text.Bech32.Residue
import ShardNet.Proofs.Text.Bech32.RoundTrip
import ShardNet.Proofs.Client.Transfer
import ShardNet.Proofs.Address
import ShardNet.Proofs.Key
import ShardNet.Proofs.Client.Guarded
import ShardNet.Proofs.Client.Broadcast
import ShardNet.Proofs.Nonce.Independence
import ShardNet.Proofs.Client.Alone
import ShardNet.Proofs.Client.Unreserved
import ShardNet.Proofs.Nonce.Source
import ShardNet.Proofs.Nonce.Gapless
import ShardNet.Proofs.Nonce.Session
import ShardNet.Proofs.Nonce.Aftermath
import ShardNet.Proofs.Nonce.Recovery
import ShardNet.Proofs.Nonce.Consecutive
import ShardNet.Proofs.Transaction.Reported
import ShardNet.Proofs.Json.Table
import ShardNet.Proofs.Records
import ShardNet.Proofs.Client.Query
import ShardNet.Proofs.Json.Field
import ShardNet.Proofs.Envelope
import ShardNet.Proofs.Finality
import ShardNet.Proofs.Finality.Report
import ShardNet.Proofs.Finality.Check
import ShardNet.Proofs.Client.Status
import ShardNet.Proofs.Text.Pointed
import ShardNet.Proofs.Account
import ShardNet.Proofs.Text.Bech32.Accepted
import ShardNet.Proofs.Address.Spelling
import ShardNet.Proofs.Client.Batch
import ShardNet.Proofs.Shard.Channel
import ShardNet.Proofs.Shard.Residues
import ShardNet.Proofs.Shard.Same
import ShardNet.Proofs.Client.Block
import ShardNet.Proofs.Text.Base64.Standard
import ShardNet.Proofs.Route
import ShardNet.Proofs.Shard.Text
import ShardNet.Proofs.Text.Hex.Spelling
import ShardNet.Proofs.Key.Reading
import ShardNet.Proofs.Text.Utf8.WellFormed
import ShardNet.Proofs.Json.Grammar
import ShardNet.Proofs.Json.Token
import ShardNet.Proofs.Json.Recognize
import ShardNet.Proofs.Envelope.Outcome
import ShardNet.Proofs.Vm
