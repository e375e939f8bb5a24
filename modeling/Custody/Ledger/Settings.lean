import Custody.Config
import Custody.Operation
import Custody.Store.Key

/-!
# Stored settings

The configuration as it was fixed when the contract was set up, and the name of the contract that
did so.
-/

namespace Custody.Settings

structure Version where
  contract : String
  version : String
  deriving DecidableEq

instance : JsonForm Version where
  toJson v := .obj [("contract", toJson v.contract), ("version", toJson v.version)]
  ofJson? j := do
    let m ← j.record? ["contract", "version"]
    some {
      contract := ← Json.member? m "contract"
      version := ← Json.member? m "version" }

def currentVersion : Version := ⟨"crates.io:mintburn", "0.1.0"⟩

def save (s : Store) (c : Config) : Store :=
  (s.insert Store.Key.version (Json.encode currentVersion)).insert Store.Key.config (Json.encode c)

def load (s : Store) : Except Error Config :=
  match s.get Store.Key.config with
  | none => .error .configMissing
  | some b =>
    match Json.decode? Config b with
    | none => .error .unreadableJson
    | some c => .ok c

end Custody.Settings
