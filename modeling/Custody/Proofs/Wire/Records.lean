import Custody.Proofs.Wire.Message

/-!
# Records of common shapes

Many records are a text, a pair of texts or a message and nothing else. How they are read follows
from the getters and setters alone, and texts that are written are a form of such a record.
-/

namespace Custody.Wire

/-! ## Reading -/

namespace Layout

section Shapes

variable {α β : Type} {l : Layout α} {depth : Nat} {name name' : String} {b : Bytes}

/-- A record of one text. -/
theorem accepts_text {get : α → String} {set : α → String → α} {s : String}
    (hfields : l.fields = [Field.text 1 name get set]) (hblank : get l.blank = "")
    (hget : ∀ a x, get (set a x) = x) (h : Message depth [.text 1 s] b) :
    l.Accepts depth (fun a => get a = s) b := by
  have hfills : l.Fills depth [Slot.text 1 s get] := by
    refine ⟨by rw [hfields]; rfl, by rw [hfields]; exact List.nodup_singleton 1, ?_⟩
    rw [List.forall_mem_singleton]
    have hfind : l.fields.find? (fun f => f.tag == 1) = some (Field.text 1 name get set) := by
      rw [hfields]
      rfl
    apply Slot.text_lawful hfind hblank
    · intro a
      exact hget a s
    · intro a
      exact .own rfl .nil
  apply (hfills.accepts h).imp
  intro a ha
  simpa using ha

/-- A record of two texts. -/
theorem accepts_texts {get get' : α → String} {set set' : α → String → α} {s s' : String}
    (hfields : l.fields = [Field.text 1 name get set, Field.text 2 name' get' set'])
    (hblank : get l.blank = "" ∧ get' l.blank = "")
    (hget : ∀ a x, get (set a x) = x ∧ get' (set a x) = get' a)
    (hget' : ∀ a x, get' (set' a x) = x ∧ get (set' a x) = get a)
    (h : Message depth [.text 1 s, .text 2 s'] b) :
    l.Accepts depth (fun a => get a = s ∧ get' a = s') b := by
  have hfind : l.fields.find? (fun f => f.tag == 1) = some (Field.text 1 name get set) := by
    rw [hfields]
    rfl
  have hfind' : l.fields.find? (fun f => f.tag == 2) = some (Field.text 2 name' get' set') := by
    rw [hfields]
    rfl
  have hfills : l.Fills depth [Slot.text 1 s get, Slot.text 2 s' get'] := by
    refine ⟨by rw [hfields]; rfl, by rw [hfields]; change [1, 2].Nodup; decide, ?_⟩
    rw [List.forall_mem_cons, List.forall_mem_singleton]
    constructor
    · apply Slot.text_lawful hfind hblank.1
      · intro a
        exact (hget a s).1
      · intro a
        refine .own rfl (.other ?_ .nil)
        simp only [Slot.once, (hget a s).2]
    · apply Slot.text_lawful hfind' hblank.2
      · intro a
        exact (hget' a s').1
      · intro a
        refine .other ?_ (.own rfl .nil)
        simp only [Slot.once, (hget' a s').2]
  apply (hfills.accepts h).imp
  intro a ha
  simpa using ha

/-- A record of one message, which is not left out. -/
theorem accepts_message {inner : Layout β} {get : α → Option β} {set : α → β → α}
    {Valid : Bytes → Prop} {P : β → Prop}
    (hfields : l.fields = [Field.message 1 name inner get set]) (hblank : get l.blank = none)
    (hget : ∀ a x, get (set a x) = some x) (hinner : ∀ b, Valid b → inner.Accepts depth P b)
    (h : Message (depth + 1) [.message 1 False Valid] b) :
    l.Accepts (depth + 1) (fun a => ∃ x, get a = some x ∧ P x) b := by
  have hfills : l.Fills (depth + 1) [Slot.message 1 False Valid (fun a => get a = none)
      fun a => ∃ x, get a = some x ∧ P x] := by
    refine ⟨by rw [hfields]; rfl, by rw [hfields]; exact List.nodup_singleton 1, ?_⟩
    rw [List.forall_mem_singleton]
    have hfind : l.fields.find? (fun f => f.tag == 1) = some (Field.message 1 name inner get set) := by
      rw [hfields]
      rfl
    apply Slot.message_lawful hfind hinner hblank False.elim
    · intro a x hx
      exact ⟨x, hget a x, hx⟩
    · intro a x
      exact .own rfl .nil
  apply (hfills.accepts h).imp
  intro a ha
  simpa using ha

end Shapes

end Layout

/-! ## Writing -/

def Part.write (p : Part) : Bytes := p.key.write ++ p.content

def writeParts (parts : List Part) : Bytes := parts.flatMap Part.write

/-- Parts that are written one after another are a sequence. -/
theorem sequence_write {parts : List Part}
    (htags : ∀ p ∈ parts, 0 < p.key.tag ∧ p.key.tag < 2 ^ 29) :
    Sequence parts (writeParts parts) := by
  induction parts with
  | nil => exact .nil
  | cons p parts ih =>
      obtain ⟨hp, hparts⟩ := List.forall_mem_cons.1 htags
      rw [writeParts, List.flatMap_cons, Part.write, List.append_assoc]
      exact .cons (Key.form_write hp.1 hp.2) (ih hparts)

theorem message_writeParts {parts : List Part} {members : List Member} {depth : Nat}
    (htags : ∀ p ∈ parts, 0 < p.key.tag ∧ p.key.tag < 2 ^ 29)
    (hmembers : ∀ m ∈ members, ∃ contents, Stand parts m.key contents ∧ m.Fits contents)
    (hothers : ∀ p ∈ parts, p.key.tag ∈ members.map (·.key.tag) ∨ p.WellFormed depth) :
    Message depth members (writeParts parts) := by
  refine ⟨parts, sequence_write htags, hmembers, ?_⟩
  intro p hp hother
  rcases hothers p hp with hdeclared | hformed
  · obtain ⟨m, hm, htag⟩ := List.mem_map.1 hdeclared
    exact absurd htag.symm (hother m hm)
  · exact hformed

def Part.text (tag : Nat) (s : String) : Part where
  key := ⟨tag, .delimited⟩
  content := writeDelimited (Bytes.ofString s)

/-- The texts under their tags, those that are not empty. -/
def textParts (texts : List (Nat × String)) : List Part :=
  (texts.filter fun t => t.2 ≠ "").map fun t => .text t.1 t.2

def writeTexts (texts : List (Nat × String)) : Bytes := writeParts (textParts texts)

section Texts

variable {t : Nat × String} {texts : List (Nat × String)} {p : Part}

theorem textParts_cons (t : Nat × String) (texts : List (Nat × String)) :
    textParts (t :: texts) = (if t.2 = "" then [] else [.text t.1 t.2]) ++ textParts texts := by
  by_cases hempty : t.2 = "" <;> simp [textParts, hempty]

/-- Written as the fields of a layout are, with the empty texts left out. -/
theorem writeTexts_cons (t : Nat × String) (texts : List (Nat × String)) :
    writeTexts (t :: texts) = (if t.2 = "" then [] else
      keyed t.1 .delimited (writeDelimited (Bytes.ofString t.2))) ++ writeTexts texts := by
  rw [writeTexts, textParts_cons, writeParts, List.flatMap_append]
  by_cases hempty : t.2 = ""
  · rw [if_pos hempty, if_pos hempty]
    rfl
  · rw [if_neg hempty, if_neg hempty, List.flatMap_singleton]
    rfl

theorem mem_textParts (h : p ∈ textParts texts) : ∃ t ∈ texts, p.key.tag = t.1 := by
  obtain ⟨t, ht, rfl⟩ := List.mem_map.1 h
  exact ⟨t, List.mem_of_mem_filter ht, rfl⟩

theorem stand_textParts_nil {key : Key} (hnot : key.tag ∉ texts.map (·.1)) :
    Stand (textParts texts) key [] := by
  apply stand_nil
  intro p hp htag
  obtain ⟨t, ht, hp⟩ := mem_textParts hp
  apply hnot
  rw [← htag, hp]
  exact List.mem_map_of_mem ht

/-- Each text stands once, or not at all if it is empty. -/
theorem fits_textParts (hdistinct : (texts.map (·.1)).Nodup)
    (hshort : ∀ t ∈ texts, (Bytes.ofString t.2).length < UInt64.size) (ht : t ∈ texts) :
    ∃ contents, Stand (textParts texts) ⟨t.1, .delimited⟩ contents ∧
      (Member.text t.1 t.2).Fits contents := by
  induction texts with
  | nil => cases ht
  | cons u texts ih =>
      obtain ⟨hnot, hdistinct⟩ := List.nodup_cons.1 hdistinct
      obtain ⟨hu, hshort⟩ := List.forall_mem_cons.1 hshort
      rw [textParts_cons]
      rcases List.mem_cons.1 ht with rfl | hmem
      · have hlater : Stand (textParts texts) ⟨t.1, .delimited⟩ [] := stand_textParts_nil hnot
        by_cases hempty : t.2 = ""
        · rw [if_pos hempty]
          exact ⟨[], hlater, .inl ⟨rfl, hempty⟩⟩
        · rw [if_neg hempty]
          exact ⟨_, (stand_singleton (.text t.1 t.2)).append hlater,
            .inr ⟨_, rfl, delimited_write hu⟩⟩
      · obtain ⟨contents, hstand, hfits⟩ := ih hdistinct hshort hmem
        have hother : t.1 ≠ u.1 := by
          intro heq
          exact hnot (List.mem_map.2 ⟨t, hmem, heq⟩)
        have hearlier : Stand (if u.2 = "" then [] else [.text u.1 u.2])
            (Key.mk t.1 .delimited) [] := by
          apply stand_nil
          intro p hp htag
          split at hp
          · cases hp
          · rw [List.mem_singleton] at hp
            subst hp
            exact hother htag.symm
        exact ⟨_, hearlier.append hstand, hfits⟩

/-- Texts that are written are a form of the message that declares them. -/
theorem message_writeTexts (hdistinct : (texts.map (·.1)).Nodup)
    (htags : ∀ t ∈ texts, 0 < t.1 ∧ t.1 < 2 ^ 29)
    (hshort : ∀ t ∈ texts, (Bytes.ofString t.2).length < UInt64.size) (depth : Nat) :
    Message depth (texts.map fun t => .text t.1 t.2) (writeTexts texts) := by
  apply message_writeParts
  · intro p hp
    obtain ⟨t, ht, htag⟩ := mem_textParts hp
    rw [htag]
    exact htags t ht
  · intro m hm
    obtain ⟨t, ht, rfl⟩ := List.mem_map.1 hm
    exact fits_textParts hdistinct hshort ht
  · intro p hp
    obtain ⟨t, ht, htag⟩ := mem_textParts hp
    rw [htag, List.map_map]
    exact .inl (List.mem_map_of_mem ht)

end Texts

end Custody.Wire
