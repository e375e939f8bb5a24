import Custody.Json.Form

/-!
# Configuration

Fixed once and handed to every part.
-/

namespace Custody

structure Config where
  moduleName : String := "mintburn"
  /-- The first segment of every proof key path. -/
  storeKey : String := "x-mintburn"
  hrp : String := "maany"
  /-- This chain's own token; only this one is released to returning packets. -/
  baseDenom : String := "umaany"
  trustedChain : String := "maanydex"
  transferPort : String := "transfer"
  accountHostPort : String := "icahost"
  deriving DecidableEq, Inhabited

instance : JsonForm Config where
  toJson c := .obj [
    ("module_name", toJson c.moduleName),
    ("store_key", toJson c.storeKey),
    ("bech32_prefix", toJson c.hrp),
    ("base_denom", toJson c.baseDenom),
    ("trusted_consumer_chain_id", toJson c.trustedChain),
    ("transfer_port", toJson c.transferPort),
    ("ica_host_port", toJson c.accountHostPort)]
  ofJson? j := do
    let m ← j.record? ["module_name", "store_key", "bech32_prefix", "base_denom",
      "trusted_consumer_chain_id", "transfer_port", "ica_host_port"]
    some {
      moduleName := ← Json.member? m "module_name"
      storeKey := ← Json.member? m "store_key"
      hrp := ← Json.member? m "bech32_prefix"
      baseDenom := ← Json.member? m "base_denom"
      trustedChain := ← Json.member? m "trusted_consumer_chain_id"
      transferPort := ← Json.member? m "transfer_port"
      accountHostPort := ← Json.member? m "ica_host_port" }

end Custody
