import Custody.Bank.Balances
import Custody.Bech32.Lemmas
import Custody.Contract.Basic
import Custody.Ibc.AccountLayer
import Custody.Ibc.Remote
import Custody.Ibc.TransferLayer
import Custody.Json.Quoted.Lemmas
import Custody.Store.Lemmas
import Custody.Proofs.Address.RoundTrip
import Custody.Proofs.Address.Spelling
import Custody.Proofs.Bank.Attached
import Custody.Proofs.Bank.Balances
import Custody.Proofs.Bank.Supply
import Custody.Proofs.Bech32.Code
import Custody.Proofs.Bech32.Text
import Custody.Proofs.Contract.Conservation
import Custody.Proofs.Contract.Execution
import Custody.Proofs.Contract.Failure
import Custody.Proofs.Contract.History
import Custody.Proofs.Contract.Pagination
import Custody.Proofs.Contract.Reached
import Custody.Proofs.Contract.Refund
import Custody.Proofs.Contract.RouteLookup
import Custody.Proofs.Escrow.Codec
import Custody.Proofs.Escrow.Commutation
import Custody.Proofs.Escrow.Export
import Custody.Proofs.Escrow.Failure
import Custody.Proofs.Escrow.Footprint
import Custody.Proofs.Escrow.Latest
import Custody.Proofs.Escrow.Life
import Custody.Proofs.Escrow.Outcome
import Custody.Proofs.Escrow.Refundable
import Custody.Proofs.Escrow.Run
import Custody.Proofs.Escrow.Settlement
import Custody.Proofs.Ibc.AccountHistory
import Custody.Proofs.Ibc.Allowed
import Custody.Proofs.Ibc.AllowedHistory
import Custody.Proofs.Ibc.Forms
import Custody.Proofs.Ibc.Layers
import Custody.Proofs.Ibc.Noted
import Custody.Proofs.Ibc.Passage
import Custody.Proofs.Ibc.Receive
import Custody.Proofs.Ibc.Representation
import Custody.Proofs.Ibc.Resolve
import Custody.Proofs.Ibc.Run
import Custody.Proofs.Ibc.Served
import Custody.Proofs.Ibc.Solvency
import Custody.Proofs.Ibc.Transparency
import Custody.Proofs.Json.Documents
import Custody.Proofs.Json.Form
import Custody.Proofs.Json.Text
import Custody.Proofs.Ledger.Frame
import Custody.Proofs.Ledger.Listing
import Custody.Proofs.Ledger.Outstanding
import Custody.Proofs.Ledger.Records
import Custody.Proofs.Ledger.Route
import Custody.Proofs.Ledger.Sound
import Custody.Proofs.Operation
import Custody.Proofs.Store.Family
import Custody.Proofs.Store.Key
import Custody.Proofs.Store.Prefix
import Custody.Proofs.Store.Total
import Custody.Proofs.Text.Bytes
import Custody.Proofs.Text.Case
import Custody.Proofs.Wire.Form
import Custody.Proofs.Wire.Layout
import Custody.Proofs.Wire.Message
import Custody.Proofs.Wire.Records
import Custody.Proofs.Wire.Varint
import Custody.Proofs.Bank.Flows
import Custody.Proofs.Ibc.DenomTrace
import Custody.Proofs.Escrow.Opening
import Custody.Proofs.Contract.Prefix
import Custody.Proofs.Ledger.Channels
import Custody.Proofs.Ibc.ChannelHistory
import Custody.Proofs.Contract.Events
import Custody.Proofs.Address.Derived
import Custody.Proofs.Ibc.Separation
import Custody.Proofs.Json.Grammar
import Custody.Proofs.Json.Completeness
import Custody.Proofs.Ibc.PacketData
import Custody.Proofs.Bank.Conservation
