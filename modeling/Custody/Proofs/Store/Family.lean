import Custody.Store.Key

/-!
# Families of keys

One store keeps everything: the counter, the records, the route index, the depositors, the allowed
channels, the authorized accounts, the configuration and the version. The keys of each family begin
in a way of their own, so no key is of two families. That the counter is itself how the key of a
depositor begins does no harm, since the counter has one key only.
-/

namespace Custody.Store.Key

inductive Family where
  | counter
  | record
  | route
  | depositor
  | channel
  | account
  | config
  | version
  deriving DecidableEq

namespace Family

/-- How the keys of the family begin. -/
def start : Family → Bytes
  | counter => Key.counter
  | record => [0x01]
  | route => [0x02]
  | depositor => mapStart "depositor"
  | channel => channelStart
  | account => accountStart
  | config => Key.config
  | version => Key.version

/-- There is no more to the key than its start. -/
def single : Family → Bool
  | counter | config | version => true
  | record | route | depositor | channel | account => false

/-- The key is of the family. -/
def Holds (f : Family) (key : Bytes) : Prop := if f.single then key = f.start else f.start <+: key

instance (f : Family) (key : Bytes) : Decidable (f.Holds key) :=
  inferInstanceAs (Decidable (if f.single then key = f.start else f.start <+: key))

theorem holds_iff_start {f : Family} (hmany : f.single = false) {key : Bytes} :
    f.Holds key ↔ f.start <+: key := by
  rw [Holds, hmany]
  exact Iff.rfl

theorem single_apart (f g : Family) : f.single → g.Holds f.start → f = g := by
  cases f <;> cases g <;> decide +kernel

theorem start_apart (f g : Family) :
    f.single = false → g.single = false → f.start <+: g.start → f = g := by
  cases f <;> cases g <;> decide +kernel

/-- No key is of two families. -/
theorem Holds.unique {f g : Family} {key : Bytes} (hf : f.Holds key) (hg : g.Holds key) :
    f = g := by
  cases hfirst : f.single with
  | true =>
      rw [Holds, hfirst] at hf
      obtain rfl : key = f.start := hf
      exact single_apart f g hfirst hg
  | false =>
      cases hsecond : g.single with
      | true =>
          rw [Holds, hsecond] at hg
          obtain rfl : key = g.start := hg
          exact (single_apart g f hsecond hf).symm
      | false =>
          rw [holds_iff_start hfirst] at hf
          rw [holds_iff_start hsecond] at hg
          rcases List.prefix_or_prefix_of_prefix hf hg with h | h
          · exact start_apart f g hfirst hsecond h
          · exact (start_apart g f hsecond hfirst h).symm

end Family

/-- An entry of the store, by what it is about. -/
inductive Name where
  | counter
  | record (id : String)
  | route (chain denom : String)
  | depositor (id : String)
  | channel (id : String)
  | account (chain : String)
  | config
  | version

namespace Name

def key : Name → Bytes
  | counter => Key.counter
  | record id => Key.escrow id
  | route chain denom => Key.route chain denom
  | depositor id => Key.depositor id
  | channel id => Key.channel id
  | account chain => Key.account chain
  | config => Key.config
  | version => Key.version

def family : Name → Family
  | counter => .counter
  | record _ => .record
  | route _ _ => .route
  | depositor _ => .depositor
  | channel _ => .channel
  | account _ => .account
  | config => .config
  | version => .version

theorem holds_key (x : Name) : x.family.Holds x.key := by
  cases x with
  | counter => rfl
  | record id => exact ⟨_, rfl⟩
  | route chain denom => exact ⟨_, rfl⟩
  | depositor id => exact ⟨_, rfl⟩
  | channel id => exact ⟨_, rfl⟩
  | account chain => exact ⟨_, rfl⟩
  | config => rfl
  | version => rfl

/-- The name of an entry tells which family its key is of. -/
theorem holds_iff {f : Family} {x : Name} : f.Holds x.key ↔ x.family = f := by
  constructor
  · intro h
    exact x.holds_key.unique h
  · rintro rfl
    exact x.holds_key

end Name

end Custody.Store.Key
