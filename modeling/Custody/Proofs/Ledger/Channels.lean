import Custody.Proofs.Ledger.Frame

/-!
# The members of the channel set

Each member has one key, its name behind the start that all of them share. So the scan from that
start to its end finds the members, by their names and in the order of their names, whatever else
the store holds.
-/

namespace Custody

namespace Store.Key

@[simp] theorem append_lt_append_iff {start a b : Bytes} : start ++ a < start ++ b ↔ a < b := by
  induction start with
  | nil => exact Iff.rfl
  | cons x start ih => simp [ih]

@[simp] theorem channel_lt_channel_iff {id id' : String} :
    channel id < channel id' ↔ Bytes.ofString id < Bytes.ofString id' :=
  append_lt_append_iff

end Store.Key

namespace ChannelSet

open Ledger (ofFamily)
open Store (AgreeOn)
open Store.Key (Family Name)

/-- What the store holds in the family of channels are the keys of the members, and no others. -/
def Members (s : Store) (member : String → Prop) : Prop :=
  ∀ key, Family.channel.Holds key →
    ((s.get key).isSome ↔ ∃ id, member id ∧ Store.Key.channel id = key)

section Changes

variable {s t : Store} {member : String → Prop}

theorem members_empty : Members .empty fun _ => False := by
  intro key _
  simp

theorem Members.congr (h : Members s member) (hsame : AgreeOn Family.channel.Holds t s) :
    Members t member := by
  intro key hkey
  rw [hsame key hkey]
  exact h key hkey

theorem Members.insert (h : Members s member) (channel : String) :
    Members (insert s channel) fun id => id = channel ∨ member id := by
  intro key hkey
  rw [ChannelSet.insert, Store.get_insert]
  by_cases hnew : key = Store.Key.channel channel
  · rw [if_pos hnew]
    exact iff_of_true rfl ⟨channel, .inl rfl, hnew.symm⟩
  · rw [if_neg hnew, h key hkey]
    refine exists_congr fun id => and_congr_left fun hid => (or_iff_right ?_).symm
    rintro rfl
    exact hnew hid.symm

theorem Members.erase (h : Members s member) (channel : String) :
    Members (erase s channel) fun id => member id ∧ id ≠ channel := by
  intro key hkey
  rw [ChannelSet.erase, Store.get_erase]
  by_cases hgone : key = Store.Key.channel channel
  · rw [if_pos hgone]
    refine iff_of_false Bool.false_ne_true ?_
    rintro ⟨id, ⟨-, hne⟩, hid⟩
    exact hne (Store.Key.channel_inj.1 (hid.trans hgone))
  · rw [if_neg hgone, h key hkey]
    refine exists_congr fun id => and_congr_left fun hid => (and_iff_left ?_).symm
    rintro rfl
    exact hgone hid.symm

end Changes

section Listing

variable {s : Store} {member : String → Prop}

theorem Members.contains (h : Members s member) (id : String) :
    contains s id ↔ member id := by
  rw [ChannelSet.contains, h (Store.Key.channel id) (Name.channel id).holds_key]
  constructor
  · rintro ⟨other, hother, hid⟩
    exact Store.Key.channel_inj.1 hid ▸ hother
  · intro hmember
    exact ⟨id, hmember, rfl⟩

/-- The entries of the family, by the channels that they are about. -/
theorem Members.exists_names (h : Members s member) :
    ∃ ids : List String, (ofFamily .channel s).map (·.1) = ids.map Store.Key.channel := by
  have hall : ∀ keys : List Bytes, (∀ key ∈ keys, ∃ id, Store.Key.channel id = key) →
      ∃ ids : List String, keys = ids.map Store.Key.channel := by
    intro keys hkeys
    induction keys with
    | nil => exact ⟨[], rfl⟩
    | cons key keys ih =>
        obtain ⟨⟨id, rfl⟩, hrest⟩ := List.forall_mem_cons.1 hkeys
        obtain ⟨ids, rfl⟩ := ih hrest
        exact ⟨id :: ids, rfl⟩
  apply hall
  intro key hkey
  obtain ⟨⟨k, value⟩, hentry, rfl⟩ := List.mem_map.1 hkey
  obtain ⟨hmem, hholds⟩ := List.mem_filter.1 hentry
  have hsome : (s.get k).isSome := by rw [Store.mem_entries_iff.1 hmem, Option.isSome_some]
  obtain ⟨id, -, hid⟩ := (h k (of_decide_eq_true hholds)).1 hsome
  exact ⟨id, hid⟩

/-- The name behind the start is read back from its bytes. -/
theorem mapM_name {entries : List (Bytes × Bytes)} {ids : List String}
    (h : entries.map (·.1) = ids.map Store.Key.channel) :
    (entries.mapM fun e => (Text.Utf8.decode (e.1.drop Store.Key.channelStart.length)).mapError
      Error.notUtf8) = .ok ids := by
  induction entries generalizing ids with
  | nil =>
      obtain rfl := List.map_eq_nil_iff.1 h.symm
      rfl
  | cons e entries ih =>
      cases ids with
      | nil => cases h
      | cons id ids =>
          rw [List.map_cons, List.map_cons, List.cons.injEq] at h
          rw [List.mapM_cons, ih h.2, h.1, Store.Key.channel, List.drop_left,
            Text.Utf8.decode_ofString]
          rfl

/-- The list holds the members, each once and in the byte order of their names. -/
theorem Members.toList (h : Members s member) :
    ∃ ids, toList s = .ok ids ∧
      (ids.Pairwise fun a b => Bytes.ofString a < Bytes.ofString b) ∧
      ∀ id, id ∈ ids ↔ member id := by
  obtain ⟨ids, hids⟩ := h.exists_names
  refine ⟨ids, ?_, ?_, ?_⟩
  · rw [Ledger.channels_eq_ofFamily]
    exact mapM_name hids
  · have hsorted : (ofFamily .channel s).Pairwise fun a b => a.1 < b.1 := s.sorted.filter _
    rw [← List.pairwise_map, hids, List.pairwise_map] at hsorted
    exact hsorted.imp Store.Key.channel_lt_channel_iff.1
  · intro id
    rw [← h.contains, ChannelSet.contains, Option.isSome_iff_exists]
    have hkey : id ∈ ids ↔ Store.Key.channel id ∈ (ofFamily .channel s).map (·.1) := by
      rw [hids, List.mem_map]
      simp
    rw [hkey, List.mem_map]
    constructor
    · rintro ⟨⟨k, value⟩, hentry, rfl⟩
      exact ⟨value, Store.mem_entries_iff.1 (List.mem_filter.1 hentry).1⟩
    · rintro ⟨value, hget⟩
      exact ⟨(_, value), List.mem_filter.2 ⟨Store.mem_entries_iff.2 hget,
        decide_eq_true (Name.channel id).holds_key⟩, rfl⟩

end Listing

end ChannelSet

end Custody
