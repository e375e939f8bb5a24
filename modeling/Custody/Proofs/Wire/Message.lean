import Mathlib.Data.List.Nodup
import Custody.Proofs.Wire.Layout

/-!
# Forms of messages

A message is a sequence of fields. A field that it declares stands once, or not at all if it has its
default, or any number of times if it is repeated; fields that it does not declare stand anywhere in
between. A layout reads every form, provided each of its fields looks after one part of the record:
then it makes no difference in what order the fields come.
-/

namespace Custody.Wire

/-! ## Messages -/

/-- A field that a message declares, and what its contents may be, in their order. -/
structure Member where
  key : Key
  Fits : List Bytes → Prop

namespace Member

/-- A field that stands once, or not at all. -/
def once (key : Key) (Absent : Prop) (Valid : Bytes → Prop) : Member where
  key := key
  Fits contents := contents = [] ∧ Absent ∨ ∃ c, contents = [c] ∧ Valid c

def text (tag : Nat) (s : String) : Member :=
  once ⟨tag, .delimited⟩ (s = "") (Delimited (Bytes.ofString s))

def number (tag : Nat) (Valid : Nat → Prop) : Member :=
  once ⟨tag, .varint⟩ (Valid 0) fun c => ∃ n, Valid n ∧ Varint.Form n c

def message (tag : Nat) (Absent : Prop) (Valid : Bytes → Prop) : Member :=
  once ⟨tag, .delimited⟩ Absent fun c => ∃ b, Valid b ∧ Delimited b c

def bytes (tag : Nat) (Valid : Bytes → Prop) : Member := message tag (Valid []) Valid

/-- A field that stands once for each of the texts. -/
def texts (tag : Nat) (list : List String) : Member where
  key := ⟨tag, .delimited⟩
  Fits contents := List.Forall₂ (fun s c => Delimited (Bytes.ofString s) c) list contents

/-- A text that stands in a message has a length that one can hold. -/
theorem short_of_text {tag : Nat} {s : String} {contents : List Bytes}
    (h : (text tag s).Fits contents) : (Bytes.ofString s).length < UInt64.size := by
  rcases h with ⟨-, hempty⟩ | ⟨c, -, hc⟩
  · rw [hempty]
    decide
  · exact hc.bound

theorem short_of_texts {tag : Nat} {list : List String} {contents : List Bytes}
    (h : (texts tag list).Fits contents) {s : String} (hs : s ∈ list) :
    (Bytes.ofString s).length < UInt64.size := by
  change List.Forall₂ (fun s c => Delimited (Bytes.ofString s) c) list contents at h
  induction h with
  | nil => cases hs
  | cons hhead _ ih =>
      rcases List.mem_cons.1 hs with rfl | hmem
      · exact hhead.bound
      · exact ih hmem

end Member

/-- Among the parts, those under the tag of the key have the key and these contents. -/
def Stand (parts : List Part) (key : Key) (contents : List Bytes) : Prop :=
  (parts.filter fun p => p.key.tag = key.tag) = contents.map (Part.mk key)

/-- The bytes are a form of a message that declares the members, in which other fields are passed
over with groups up to `depth` inside one another. -/
def Message (depth : Nat) (members : List Member) (b : Bytes) : Prop :=
  ∃ parts, Sequence parts b ∧
    (∀ m ∈ members, ∃ contents, Stand parts m.key contents ∧ m.Fits contents) ∧
    ∀ p ∈ parts, (∀ m ∈ members, p.key.tag ≠ m.key.tag) → p.WellFormed depth

theorem Message.fits {depth : Nat} {members : List Member} {b : Bytes}
    (h : Message depth members b) {m : Member} (hm : m ∈ members) : ∃ contents, m.Fits contents := by
  obtain ⟨parts, -, hmembers, -⟩ := h
  obtain ⟨contents, -, hfits⟩ := hmembers m hm
  exact ⟨contents, hfits⟩

theorem stand_nil {parts : List Part} {key : Key} (hother : ∀ p ∈ parts, p.key.tag ≠ key.tag) :
    Stand parts key [] := by
  unfold Stand
  rw [List.map_nil, List.filter_eq_nil_iff]
  intro p hp
  simpa using hother p hp

theorem stand_singleton (p : Part) : Stand [p] p.key [p.content] := by simp [Stand]

theorem Stand.append {parts parts' : List Part} {key : Key} {contents contents' : List Bytes}
    (h : Stand parts key contents) (h' : Stand parts' key contents') :
    Stand (parts ++ parts') key (contents ++ contents') := by
  unfold Stand at *
  rw [List.filter_append, List.map_append, h, h']

theorem Stand.of_cons {p : Part} {parts : List Part} {key : Key} {contents : List Bytes}
    (h : Stand (p :: parts) key contents) (htag : p.key.tag = key.tag) :
    p.key = key ∧ ∃ rest, contents = p.content :: rest ∧ Stand parts key rest := by
  unfold Stand at h
  rw [List.filter_cons_of_pos (by simpa using htag)] at h
  cases contents with
  | nil => cases h
  | cons c rest =>
      rw [List.map_cons, List.cons.injEq] at h
      obtain ⟨rfl, hrest⟩ := h
      exact ⟨rfl, rest, rfl, hrest⟩

theorem Stand.of_cons_other {p : Part} {parts : List Part} {key : Key} {contents : List Bytes}
    (h : Stand (p :: parts) key contents) (htag : p.key.tag ≠ key.tag) :
    Stand parts key contents := by
  unfold Stand at h
  rwa [List.filter_cons_of_neg (by simpa using htag)] at h

/-! ## Slots -/

/-- The part of a record that one declared field looks after. -/
structure Slot (α : Type) where
  member : Member
  /-- What the record holds and the contents still to come amount to what the field should be. -/
  Carries : α → List Bytes → Prop

namespace Slot

variable {α β : Type}

def tag (s : Slot α) : Nat := s.member.key.tag

/-- Every slot carries what stands for it among the parts still to come. -/
def Carried (slots : List (Slot α)) (a : α) (parts : List Part) : Prop :=
  ∀ s ∈ slots, ∃ contents, Stand parts s.member.key contents ∧ s.Carries a contents

/-- A change of the record that is no concern of the slots with other tags. -/
def Spare (slots : List (Slot α)) (tag : Nat) (a a' : α) : Prop :=
  ∀ s ∈ slots, s.tag ≠ tag → ∀ contents, s.Carries a contents → s.Carries a' contents

section Spare

variable {s : Slot α} {slots : List (Slot α)} {tag : Nat} {a a' : α}

theorem Spare.nil : Spare [] tag a a' := by
  intro s hs
  cases hs

theorem Spare.own (htag : s.tag = tag) (hrest : Spare slots tag a a') :
    Spare (s :: slots) tag a a' := by
  intro t ht hother
  rcases List.mem_cons.1 ht with rfl | hmem
  · exact absurd htag hother
  · exact hrest t hmem hother

theorem Spare.other (hsame : s.Carries a' = s.Carries a) (hrest : Spare slots tag a a') :
    Spare (s :: slots) tag a a' := by
  intro t ht hother
  rcases List.mem_cons.1 ht with rfl | hmem
  · intro contents h
    rwa [hsame]
  · exact hrest t hmem hother

end Spare

/-- The layout reads the field into this part of the record. -/
structure Lawful (l : Layout α) (depth : Nat) (slots : List (Slot α)) (s : Slot α) : Prop where
  starts : ∀ contents, s.member.Fits contents → s.Carries l.blank contents
  reads : ∀ a c contents, s.Carries a (c :: contents) → ∀ rest, ∃ a',
    l.mergeField depth s.member.key a (c ++ rest) = .ok (a', rest) ∧
      s.Carries a' contents ∧ Spare slots s.tag a a'

def once (key : Key) (Absent : Prop) (Valid : Bytes → Prop) (Fresh Done : α → Prop) : Slot α where
  member := .once key Absent Valid
  Carries a contents := contents = [] ∧ Done a ∨ ∃ c, contents = [c] ∧ Valid c ∧ Fresh a

abbrev text (tag : Nat) (s : String) (get : α → String) : Slot α :=
  once ⟨tag, .delimited⟩ (s = "") (Delimited (Bytes.ofString s)) (fun _ => True) fun a => get a = s

abbrev number (tag : Nat) (Valid : Nat → Prop) (Done : α → Prop) : Slot α :=
  once ⟨tag, .varint⟩ (Valid 0) (fun c => ∃ n, Valid n ∧ Varint.Form n c) (fun _ => True) Done

abbrev message (tag : Nat) (Absent : Prop) (Valid : Bytes → Prop) (Fresh Done : α → Prop) : Slot α :=
  once ⟨tag, .delimited⟩ Absent (fun c => ∃ b, Valid b ∧ Delimited b c) Fresh Done

abbrev bytes (tag : Nat) (Valid : Bytes → Prop) (Done : α → Prop) : Slot α :=
  message tag (Valid []) Valid (fun _ => True) Done

def texts (tag : Nat) (list : List String) (get : α → List String) : Slot α where
  member := .texts tag list
  Carries a contents := ∃ later, get a ++ later = list ∧
    List.Forall₂ (fun s c => Delimited (Bytes.ofString s) c) later contents

@[simp] theorem carries_once_nil {key : Key} {Absent : Prop} {Valid : Bytes → Prop}
    {Fresh Done : α → Prop} {a : α} : (once key Absent Valid Fresh Done).Carries a [] ↔ Done a := by
  simp [once]

@[simp] theorem carries_texts_nil {tag : Nat} {list : List String} {get : α → List String}
    {a : α} : (texts tag list get).Carries a [] ↔ get a = list := by
  simp [texts]

section Laws

variable {l : Layout α} {depth tag : Nat} {slots : List (Slot α)} {name : String}

theorem once_lawful {key : Key} {Absent : Prop} {Valid : Bytes → Prop} {Fresh Done : α → Prop}
    (habsent : Absent → Done l.blank) (hfresh : Fresh l.blank)
    (hread : ∀ a c, Fresh a → Valid c → ∀ rest, ∃ a',
      l.mergeField depth key a (c ++ rest) = .ok (a', rest) ∧ Done a' ∧ Spare slots key.tag a a') :
    (once key Absent Valid Fresh Done).Lawful l depth slots where
  starts contents hfits := by
    rcases hfits with ⟨hnil, h⟩ | ⟨c, hc, hvalid⟩
    · exact .inl ⟨hnil, habsent h⟩
    · exact .inr ⟨c, hc, hvalid, hfresh⟩
  reads a c contents hcarries rest := by
    rcases hcarries with ⟨hnil, -⟩ | ⟨c', hc, hvalid, h⟩
    · cases hnil
    · cases hc
      obtain ⟨a', hmerge, hdone, hspare⟩ := hread a c h hvalid rest
      exact ⟨a', hmerge, .inl ⟨rfl, hdone⟩, hspare⟩

theorem text_lawful {get : α → String} {set : α → String → α} {s : String}
    (hfind : l.fields.find? (fun f => f.tag == tag) = some (Field.text tag name get set))
    (hblank : get l.blank = "") (hget : ∀ a, get (set a s) = s)
    (hspare : ∀ a, Spare slots tag a (set a s)) : (text tag s get).Lawful l depth slots := by
  apply once_lawful _ trivial
  · intro a c _ hvalid rest
    exact ⟨set a s, Layout.mergeField_of_find hfind (Layout.merge_text hvalid depth a rest),
      hget a, hspare a⟩
  · intro hempty
    rw [hblank, hempty]

theorem int32_lawful {get : α → Int32} {set : α → Int32 → α} {Valid : Nat → Prop}
    {Done : α → Prop}
    (hfind : l.fields.find? (fun f => f.tag == tag) = some (Field.int32 tag name get set))
    (habsent : Valid 0 → Done l.blank)
    (hdone : ∀ a n, Valid n → Done (set a (UInt32.ofNat n).toInt32))
    (hspare : ∀ a x, Spare slots tag a (set a x)) :
    (number tag Valid Done).Lawful l depth slots := by
  apply once_lawful habsent trivial
  rintro a c - ⟨n, hn, hform⟩ rest
  exact ⟨_, Layout.mergeField_of_find hfind (Layout.merge_int32 hform depth a rest), hdone a n hn,
    hspare a _⟩

theorem uint64_lawful {get : α → UInt64} {set : α → UInt64 → α} {Valid : Nat → Prop}
    {Done : α → Prop}
    (hfind : l.fields.find? (fun f => f.tag == tag) = some (Field.uint64 tag name get set))
    (habsent : Valid 0 → Done l.blank) (hdone : ∀ a n, Valid n → Done (set a (UInt64.ofNat n)))
    (hspare : ∀ a x, Spare slots tag a (set a x)) :
    (number tag Valid Done).Lawful l depth slots := by
  apply once_lawful habsent trivial
  rintro a c - ⟨n, hn, hform⟩ rest
  exact ⟨_, Layout.mergeField_of_find hfind (Layout.merge_uint64 hform depth a rest), hdone a n hn,
    hspare a _⟩

theorem bytes_lawful {get : α → Bytes} {set : α → Bytes → α} {Valid : Bytes → Prop}
    {Done : α → Prop}
    (hfind : l.fields.find? (fun f => f.tag == tag) = some (Field.bytes tag name get set))
    (habsent : Valid [] → Done l.blank) (hdone : ∀ a b, Valid b → Done (set a b))
    (hspare : ∀ a b, Spare slots tag a (set a b)) :
    (bytes tag Valid Done).Lawful l depth slots := by
  apply once_lawful habsent trivial
  rintro a c - ⟨b, hb, hform⟩ rest
  exact ⟨_, Layout.mergeField_of_find hfind (Layout.merge_bytes hform depth a rest), hdone a b hb,
    hspare a b⟩

theorem texts_lawful {get : α → List String} {set : α → List String → α} {list : List String}
    (hfind : l.fields.find? (fun f => f.tag == tag) = some (Field.texts tag name get set))
    (hblank : get l.blank = []) (hget : ∀ a x, get (set a x) = x)
    (hspare : ∀ a x, Spare slots tag a (set a x)) :
    (texts tag list get).Lawful l depth slots where
  starts contents hfits := ⟨list, by rw [hblank, List.nil_append], hfits⟩
  reads a c contents hcarries rest := by
    obtain ⟨later, hlist, hlater⟩ := hcarries
    cases hlater with
    | @cons s c later contents hs hrest =>
        refine ⟨_, Layout.mergeField_of_find hfind (Layout.merge_texts hs depth a rest), ?_,
          hspare a _⟩
        refine ⟨later, ?_, hrest⟩
        rw [hget, List.append_assoc, List.singleton_append]
        exact hlist

end Laws

end Slot

/-! ## Reading a message -/

namespace Layout

variable {α β : Type} {l : Layout α} {depth : Nat} {slots : List (Slot α)} {b : Bytes}

/-- From a blank record on, the bytes are read into one with the property, whatever follows them. -/
def Accepts (l : Layout α) (depth : Nat) (P : α → Prop) (b : Bytes) : Prop :=
  ∀ rest, ∃ a, l.Merges depth rest.length l.blank (b ++ rest) (a, rest) ∧ P a

theorem Accepts.imp {P Q : α → Prop} (h : l.Accepts depth P b) (himp : ∀ a, P a → Q a) :
    l.Accepts depth Q b := by
  intro rest
  obtain ⟨a, hmerges, ha⟩ := h rest
  exact ⟨a, hmerges, himp a ha⟩

theorem Accepts.read {P : α → Prop} (h : l.Accepts maxDepth P b) : ∃ a, l.read b = .ok a ∧ P a := by
  obtain ⟨a, hmerges, ha⟩ := h []
  rw [List.append_nil] at hmerges
  exact ⟨a, read_eq_ok hmerges, ha⟩

/-- Bytes are read into one record only. -/
theorem Accepts.common {P Q : α → Prop} (h : l.Accepts maxDepth P b)
    (h' : l.Accepts maxDepth Q b) : ∃ a, P a ∧ Q a := by
  obtain ⟨a, hread, ha⟩ := h.read
  obtain ⟨a', hread', ha'⟩ := h'.read
  have hsame : a = a' := Except.ok.inj (hread.symm.trans hread')
  exact ⟨a, ha, hsame ▸ ha'⟩

/-- The slots are those of the fields of the layout. -/
structure Fills (l : Layout α) (depth : Nat) (slots : List (Slot α)) : Prop where
  tags : l.fields.map Field.tag = slots.map Slot.tag
  distinct : (l.fields.map Field.tag).Nodup
  lawful : ∀ s ∈ slots, s.Lawful l depth slots

theorem Fills.find?_eq_none (h : l.Fills depth slots) {tag : Nat}
    (hother : ∀ s ∈ slots, tag ≠ s.tag) : l.fields.find? (fun f => f.tag == tag) = none := by
  rw [List.find?_eq_none]
  intro f hf hsame
  have hmem : tag ∈ slots.map Slot.tag := by
    rw [← h.tags, ← beq_iff_eq.1 hsame]
    exact List.mem_map_of_mem hf
  obtain ⟨s, hs, htag⟩ := List.mem_map.1 hmem
  exact hother s hs htag.symm

/-- A field that no slot is for is passed over. -/
theorem Fills.mergeField_other (h : l.Fills depth slots) {p : Part}
    (hother : ∀ s ∈ slots, p.key.tag ≠ s.tag) (hformed : p.WellFormed depth) (a : α)
    (rest : Bytes) : l.mergeField depth p.key a (p.content ++ rest) = .ok (a, rest) := by
  simp only [mergeField, h.find?_eq_none hother, skip_of_wellFormed hformed, lift_ok]
  rfl

/-- One part is read into its slot, or passed over, and the slots carry the parts behind it. -/
theorem Fills.carried_part (h : l.Fills depth slots) {p : Part} {parts : List Part} {a : α}
    (hcarried : Slot.Carried slots a (p :: parts))
    (hother : (∀ s ∈ slots, p.key.tag ≠ s.tag) → p.WellFormed depth) (rest : Bytes) :
    ∃ a', l.mergeField depth p.key a (p.content ++ rest) = .ok (a', rest) ∧
      Slot.Carried slots a' parts := by
  by_cases hown : ∃ s ∈ slots, p.key.tag = s.tag
  · obtain ⟨s, hs, htag⟩ := hown
    obtain ⟨contents, hstand, hcarries⟩ := hcarried s hs
    obtain ⟨hkey, later, rfl, hlater⟩ := hstand.of_cons htag
    obtain ⟨a', hmerge, hcarries', hspare⟩ := (h.lawful s hs).reads a p.content later hcarries rest
    rw [← hkey] at hmerge
    refine ⟨a', hmerge, ?_⟩
    intro t ht
    by_cases hsame : t.tag = s.tag
    · have hts : t = s := List.inj_on_of_nodup_map (h.tags ▸ h.distinct) ht hs hsame
      rw [hts]
      exact ⟨later, hlater, hcarries'⟩
    · obtain ⟨contents, hstand, hcarries⟩ := hcarried t ht
      have hnot : p.key.tag ≠ t.member.key.tag := fun heq => hsame (heq.symm.trans htag)
      exact ⟨contents, hstand.of_cons_other hnot, hspare t ht hsame contents hcarries⟩
  · have hnot : ∀ s ∈ slots, p.key.tag ≠ s.tag := fun s hs heq => hown ⟨s, hs, heq⟩
    refine ⟨a, h.mergeField_other hnot (hother hnot) a rest, ?_⟩
    intro s hs
    obtain ⟨contents, hstand, hcarries⟩ := hcarried s hs
    exact ⟨contents, hstand.of_cons_other (hnot s hs), hcarries⟩

/-- All parts are read, and then no slot waits for anything. -/
theorem Fills.merges (h : l.Fills depth slots) {parts : List Part} (hparts : Sequence parts b)
    {a : α} (hcarried : Slot.Carried slots a parts)
    (hothers : ∀ p ∈ parts, (∀ s ∈ slots, p.key.tag ≠ s.tag) → p.WellFormed depth)
    (rest : Bytes) :
    ∃ a', l.Merges depth rest.length a (b ++ rest) (a', rest) ∧ ∀ s ∈ slots, s.Carries a' [] := by
  induction hparts generalizing a with
  | nil =>
      refine ⟨a, Merges.done (Nat.le_refl _), ?_⟩
      intro s hs
      obtain ⟨contents, hstand, hcarries⟩ := hcarried s hs
      rwa [List.map_eq_nil_iff.1 hstand.symm] at hcarries
  | @cons p parts k b hkey hrest ih =>
      obtain ⟨hother, hothers⟩ := List.forall_mem_cons.1 hothers
      obtain ⟨a₁, hmerge, hcarried₁⟩ := h.carried_part hcarried hother (b ++ rest)
      obtain ⟨a', hmerges, hdone⟩ := ih hcarried₁ hothers
      refine ⟨a', ?_, hdone⟩
      rw [List.append_assoc, List.append_assoc]
      exact Merges.step hkey hmerge (by simp) (by simp) hmerges

/-- A layout reads every form of a message that declares its fields. -/
theorem Fills.accepts (h : l.Fills depth slots) (hmessage : Message depth (slots.map Slot.member) b) :
    l.Accepts depth (fun a => ∀ s ∈ slots, s.Carries a []) b := by
  obtain ⟨parts, hparts, hmembers, hothers⟩ := hmessage
  intro rest
  apply h.merges hparts _ _ rest
  · intro s hs
    obtain ⟨contents, hstand, hfits⟩ := hmembers s.member (List.mem_map_of_mem hs)
    exact ⟨contents, hstand, (h.lawful s hs).starts contents hfits⟩
  · intro p hp hother
    apply hothers p hp
    intro m hm
    obtain ⟨s, hs, rfl⟩ := List.mem_map.1 hm
    exact hother s hs

end Layout

/-- A nested message, read by a layout that accepts its forms. -/
theorem Slot.message_lawful {α β : Type} {l : Layout α} {inner : Layout β} {depth tag : Nat}
    {name : String} {slots : List (Slot α)} {get : α → Option β} {set : α → β → α} {Absent : Prop}
    {Valid : Bytes → Prop} {P : β → Prop} {Done : α → Prop}
    (hfind : l.fields.find? (fun f => f.tag == tag) = some (Field.message tag name inner get set))
    (hinner : ∀ b, Valid b → inner.Accepts depth P b) (hfresh : get l.blank = none)
    (habsent : Absent → Done l.blank) (hdone : ∀ a x, P x → Done (set a x))
    (hspare : ∀ a x, Spare slots tag a (set a x)) :
    (message tag Absent Valid (fun a => get a = none) Done).Lawful l (depth + 1) slots := by
  apply once_lawful habsent hfresh
  rintro a c hnone ⟨b, hb, hform⟩ rest
  obtain ⟨x, hmerges, hx⟩ := hinner b hb rest
  exact ⟨set a x, Layout.mergeField_of_find hfind (Layout.merge_message hform hnone hmerges),
    hdone a x hx, hspare a x⟩

end Custody.Wire
