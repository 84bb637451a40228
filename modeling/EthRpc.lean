import EthRpc.Framework.Bytes
import EthRpc.Framework.Outcome
import EthRpc.Framework.Traced
import EthRpc.Framework.Lts
import EthRpc.Framework.Maps
import EthRpc.Framework.Rlp
import EthRpc.Framework.RlpReader
import EthRpc.Framework.Scale
import EthRpc.Framework.ScaleFormat
import EthRpc.Framework.Routine
import EthRpc.Framework.Schedule
import EthRpc.Framework.Sequencing
import EthRpc.Framework.Worklist
import EthRpc.Framework.RwLock
import EthRpc.Framework.Sections
import EthRpc.Framework.Interleaving
import EthRpc.Framework.Hex
import EthRpc.Framework.Serde
import EthRpc.Api.Types
import EthRpc.Api.RlpCodec
import EthRpc.Api.Signature
import EthRpc.Api.HostTable
import EthRpc.Api.SignRoundTrip
import EthRpc.Api.SignedFormat
import EthRpc.Api.RawTransaction
import EthRpc.Api.JsonTypes
import EthRpc.Api.HexStrings
import EthRpc.Api.RpcTypes
import EthRpc.Api.UntaggedEnums
import EthRpc.Api.RpcObjects
import EthRpc.Api.ScaleTypes
import EthRpc.Codegen.OpenRpc
import EthRpc.Codegen.Printer
import EthRpc.Codegen.Generator
import EthRpc.Codegen.TypeNames
import EthRpc.Codegen.Closed
import EthRpc.Codegen.Nullability
import EthRpc.Codegen.Makeup
import EthRpc.Codegen.Meanings
import EthRpc.Codegen.Termination
import EthRpc.Codegen.References
import EthRpc.Codegen.MethodList
import EthRpc.Chain.Primitives
import EthRpc.Chain.Pallet
import EthRpc.Chain.Runtime
import EthRpc.Chain.ExtrinsicFormat
import EthRpc.Chain.Addresses
import EthRpc.Chain.Binding
import EthRpc.Chain.Replay
import EthRpc.Chain.Fees
import EthRpc.Chain.Source
import EthRpc.Chain.DryRun
import EthRpc.Rpc.Send
import EthRpc.Rpc.Agreement
import EthRpc.Rpc.Nonce
import EthRpc.Rpc.Execution
import EthRpc.Rpc.WireDryRun
import EthRpc.Rpc.Cache
import EthRpc.Rpc.CacheWindow
import EthRpc.Rpc.Redelivery
import EthRpc.Rpc.Retention
import EthRpc.Rpc.Lookups
import EthRpc.Rpc.Deadlock
import EthRpc.Rpc.Transparency
import EthRpc.Rpc.EvmExtrinsic
import EthRpc.Rpc.Receipts
import EthRpc.Rpc.ReceiptLookup
import EthRpc.Rpc.Inclusion
import EthRpc.Rpc.Wallet
import EthRpc.Rpc.SendTransaction
import EthRpc.Rpc.Handlers
import EthRpc.Rpc.Serving
import EthRpc.Rpc.BlockByHash
import EthRpc.Rpc.Counts
import EthRpc.Rpc.ChainAnswers
import EthRpc.Rpc.Code
import EthRpc.Rpc.StartUp
import EthRpc.Rpc.StartUpEnds
import EthRpc.Rpc.Decimals
