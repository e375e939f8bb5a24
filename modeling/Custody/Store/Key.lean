import Custody.Bytes

/-!
# Store keys

The layout that other chains rely on. Each family of keys starts in its own way, so no two
families meet.
-/

namespace Custody.Store.Key

def counter : Bytes := [0x00]

/-- Escrow records: a one and the id. -/
def escrow (id : String) : Bytes := 0x01 :: Bytes.ofString id

/-- Just above every escrow record. -/
def escrowEnd : Bytes := [0x02]

/-- The route index: a two, the chain, a zero and the denomination. -/
def route (chain denom : String) : Bytes :=
  0x02 :: Bytes.ofString chain ++ 0x00 :: Bytes.ofString denom

def channelStart : Bytes := Bytes.ofString "allowed-channel/"

def channel (id : String) : Bytes := channelStart ++ Bytes.ofString id

def accountStart : Bytes := Bytes.ofString "AuthorizedICA/"

def account (chain : String) : Bytes := accountStart ++ Bytes.ofString chain

/-- The name of a map stands before its keys, after its length in two bytes. -/
def mapStart (name : String) : Bytes :=
  Bytes.bigEndian (Bytes.ofString name).length 2 ++ Bytes.ofString name

def depositor (id : String) : Bytes := mapStart "depositor" ++ Bytes.ofString id

def config : Bytes := Bytes.ofString "config"

def version : Bytes := Bytes.ofString "contract_info"

/-- The least key above every key that starts with `start`: its last byte below 255, raised by
one. -/
def startEnd (start : Bytes) : Bytes :=
  match start.reverse.dropWhile (· == 0xFF) with
  | [] => []
  | last :: rest => ((last + 1) :: rest).reverse

end Custody.Store.Key
