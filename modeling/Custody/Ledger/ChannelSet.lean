import Custody.Operation
import Custody.Store.Key

/-!
# Allowed channels

The transfer channels that lead to the trusted chain.
-/

namespace Custody.ChannelSet

open Store (Key.channel Key.channelStart Key.startEnd)

def insert (s : Store) (channel : String) : Store := s.insert (Key.channel channel) [1]

def erase (s : Store) (channel : String) : Store := s.erase (Key.channel channel)

def contains (s : Store) (channel : String) : Bool := (s.get (Key.channel channel)).isSome

/-- All members, in byte order. -/
def toList (s : Store) : Except Error (List String) :=
  (s.range Key.channelStart (Key.startEnd Key.channelStart)).mapM fun e =>
    (Text.Utf8.decode (e.1.drop Key.channelStart.length)).mapError .notUtf8

end Custody.ChannelSet
