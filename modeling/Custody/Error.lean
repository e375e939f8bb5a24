import Custody.Address
import Custody.Coin
import Custody.Text.Utf8
import Custody.Wire.Key

/-!
# Errors

Every way in which an operation can fail, by its cause, and the wording of each.
-/

namespace Custody

/-- Funds that did not move, or payments that do not fit. -/
inductive PaymentFault where
  | insufficient (available : Amount) (required : Coin)
  | insufficientAttached (paid : Amount) (required : Coin)
  | depositForOther (owner : Address)
  | alreadyDeposited
  | notInCustody (owner : Address)
  | nothingAttached
  | severalDenoms
  | missingDenom (denom : String)
  /-- The custody account has no address. -/
  | noCustody (why : Bech32.Fault)
  deriving DecidableEq

inductive RequestFault where
  | blankField (field : String)
  | emptyHrp
  | unknownStatus (text : String)
  | otherHeight (requested current : UInt64)
  deriving DecidableEq

inductive MissingEntry where
  | pendingEscrow (chain denom : String)
  | escrowOnRoute (chain denom : String)
  | escrow (id : String)
  deriving DecidableEq

inductive InternalFault where
  | unencodableAddress (why : Bech32.Fault)
  | counterLength (length : Nat)
  | counterOverflow
  | escrowWithoutId
  deriving DecidableEq

inductive RecordFault where
  | malformed (why : Wire.Fault)
  | unknownStatus (code : Int32)
  deriving DecidableEq

/-- Conditions that end an operation on the spot: nobody handles them, and what was written before
stays. -/
inductive Abort where
  | emptyValue
  | balanceOverflow
  deriving DecidableEq

inductive Error where
  /-- The field is named where a message has several. -/
  | invalidAddress (field : Option String) (why : Address.Fault)
  | invalidCoins (why : Coin.Fault)
  | invalidRequest (why : RequestFault)
  | notFound (what : MissingEntry)
  | unauthorized
  | internal (why : InternalFault)
  | membershipProof
  | notPayable
  | payment (why : PaymentFault)
  | invalidAmount (why : Text.Decimal.Fault)
  | handshakeRejected
  | notUtf8 (why : Text.Utf8.Fault)
  | configMissing
  | unreadableRecord (why : RecordFault)
  | unreadableJson
  | aborted (why : Abort)
  deriving DecidableEq

def PaymentFault.message : PaymentFault → String
  | .insufficient available required =>
    s!"insufficient funds: {available.text}{required.denom} < {required.text}"
  | .insufficientAttached paid required =>
    s!"insufficient funds: attached {paid.text}{required.denom}, required {required.text}"
  | .depositForOther owner => s!"cannot deposit on behalf of {owner}"
  | .alreadyDeposited => "attached funds already consumed"
  | .notInCustody owner => s!"contract custody cannot move funds held by {owner}"
  | .nothingAttached => "No funds sent"
  | .severalDenoms => "Sent more than one denomination"
  | .missingDenom denom => "Must send reserve token \x27" ++ denom ++ "\x27"
  | .noCustody why => s!"internal error: bech32 encode: {why.message}"

def RequestFault.message : RequestFault → String
  | .blankField field => s!"{field} is required"
  | .emptyHrp => "bech32_prefix is required"
  | .unknownStatus text => s!"unknown escrow status {text}; expected PENDING|CLAIMED|CANCELED"
  | .otherHeight requested current =>
    s!"proof height {requested} does not match current height {current}"

def MissingEntry.message : MissingEntry → String
  | .pendingEscrow chain denom => s!"pending escrow for consumer_chain_id={chain} denom={denom}"
  | .escrowOnRoute chain denom => s!"escrow for consumer_chain_id={chain} denom={denom}"
  | .escrow id => s!"escrow {id}"

def InternalFault.message : InternalFault → String
  | .unencodableAddress why => s!"bech32 encode: {why.message}"
  | .counterLength length => s!"escrow id counter has {length} bytes, expected 8"
  | .counterOverflow => "escrow id counter overflow"
  | .escrowWithoutId => "stored escrow has no id"

def RecordFault.message : RecordFault → String
  | .malformed why => why.message
  | .unknownStatus code => s!"unknown escrow status {code.toInt}"

def Abort.message : Abort → String
  | .emptyValue => "a stored value must not be empty"
  | .balanceOverflow => "a balance grew too large"

namespace Error

def message : Error → String
  | .invalidAddress none why => s!"invalid address: {why.message}"
  | .invalidAddress (some field) why => s!"invalid address: {field}: {why.message}"
  | .invalidCoins why => s!"invalid coins: {why.message}"
  | .invalidRequest why => s!"invalid request: {why.message}"
  | .notFound what => s!"not found: {what.message}"
  | .unauthorized => "Unauthorized"
  | .internal why => s!"internal error: {why.message}"
  | .membershipProof =>
    "unimplemented: membership proofs are fetched with a raw store query at key_path"
  | .notPayable => "This message does no accept funds"
  | .payment why => s!"Generic error: {why.message}"
  | .invalidAmount why => s!"Generic error: Parsing u128: {why.message}"
  | .handshakeRejected => "Generic error: handshake rejected by app"
  | .notUtf8 why => s!"Cannot decode UTF8 bytes into string: {why.message}"
  | .configMissing => "type: mintburn::state::ModuleConfig; key: [63, 6F, 6E, 66, 69, 67] not found"
  | .unreadableRecord why => s!"Error parsing into type Escrow: {why.message}"
  | .unreadableJson => "malformed JSON"
  | .aborted why => why.message

end Error

end Custody
