import Custody.Proofs.Wire.Varint
import Custody.Wire.Layout

/-!
# Forms of fields

What counts as a form of a key, of a delimited content and of a field that nobody asks for, and that
the readers take every such form, whatever follows it.
-/

namespace Custody.Wire

/-! ## Keys and contents -/

/-- The bytes are a form of the key. -/
structure Key.Form (key : Key) (b : Bytes) : Prop where
  pos : 0 < key.tag
  bound : key.tag < 2 ^ 29
  varint : Varint.Form (key.tag * 8 + key.kind.code) b

theorem Key.Form.ne_nil {key : Key} {b : Bytes} (h : key.Form b) : b ≠ [] := h.varint.spells.ne_nil

theorem Key.Form.read {key : Key} {b : Bytes} (h : key.Form b) (rest : Bytes) :
    Key.read (b ++ rest) = .ok (key, rest) := by
  obtain ⟨tag, kind⟩ := key
  have hpos : 0 < tag := h.pos
  have htag : tag < 2 ^ 29 := h.bound
  have hcode : kind.code < 8 := by cases kind <;> decide
  have hkind : WireType.ofCode? kind.code = some kind := by cases kind <;> rfl
  have hmod : (tag * 8 + kind.code) % 8 = kind.code := by omega
  have hdiv : (tag * 8 + kind.code) / 8 = tag := by omega
  have hkey : ¬ UInt32.size ≤ tag * 8 + kind.code := by
    unfold UInt32.size
    omega
  rw [Key.read, h.varint.read]
  simp only [hmod, hdiv, hkind]
  rw [if_neg hkey, if_neg (by omega)]

theorem Key.form_write {key : Key} (hpos : 0 < key.tag) (htag : key.tag < 2 ^ 29) :
    key.Form key.write where
  pos := hpos
  bound := htag
  varint := by
    apply Varint.form_write
    have hcode : key.kind.code < 8 := by cases key.kind <;> decide
    unfold UInt64.size
    omega

theorem Key.write_ne_nil (key : Key) : key.write ≠ [] := Varint.write_ne_nil _

theorem keyed_ne_nil (tag : Nat) (kind : WireType) (content : Bytes) :
    keyed tag kind content ≠ [] := by
  unfold keyed
  intro h
  exact Key.write_ne_nil _ (List.append_eq_nil_iff.1 h).1

/-- The bytes are the content with its length before it. -/
def Delimited (content b : Bytes) : Prop :=
  ∃ length, Varint.Form content.length length ∧ b = length ++ content

theorem Delimited.bound {content b : Bytes} (h : Delimited content b) :
    content.length < UInt64.size := by
  obtain ⟨length, hlength, -⟩ := h
  exact hlength.bound

theorem Delimited.read {content b : Bytes} (h : Delimited content b) (rest : Bytes) :
    readDelimited (b ++ rest) = .ok (content, rest) := by
  obtain ⟨length, hlength, rfl⟩ := h
  rw [readDelimited, List.append_assoc, hlength.read]
  simp only [Bytes.split?_append]

theorem delimited_write {content : Bytes} (hshort : content.length < UInt64.size) :
    Delimited content (writeDelimited content) :=
  ⟨Varint.write content.length, Varint.form_write hshort, rfl⟩

theorem lift_ok {β : Type} (a : β) : lift (.ok a) = .ok a := rfl

theorem readText_of_form {s : String} {b : Bytes} (h : Delimited (Bytes.ofString s) b)
    (rest : Bytes) : readText (b ++ rest) = .ok (s, rest) := by
  rw [readText, h.read, lift_ok]
  simp [bind, Except.bind]

theorem readNumber_of_form {n : Nat} {b : Bytes} (h : Varint.Form n b) (rest : Bytes) :
    readNumber (b ++ rest) = .ok (n, rest) := by
  rw [readNumber, h.read]

/-! ## Fields that are passed over -/

/-- A key and the bytes that belong to it. -/
structure Part where
  key : Key
  content : Bytes

/-- The bytes are forms of the parts, one after the other. -/
inductive Sequence : List Part → Bytes → Prop
  | nil : Sequence [] []
  | cons {p : Part} {parts : List Part} {k b : Bytes} (hkey : p.key.Form k)
      (hrest : Sequence parts b) : Sequence (p :: parts) (k ++ (p.content ++ b))

/-- The content is of the kind that the key announces, with groups up to `depth` inside one
another. A group holds fields up to a key with its own tag that ends it. -/
def Part.WellFormed : Nat → Part → Prop
  | 0, _ => False
  | depth + 1, p =>
    match p.key.kind with
    | .varint => ∃ n, Varint.Form n p.content
    | .fixed64 => p.content.length = 8
    | .delimited => ∃ content, Delimited content p.content
    | .groupStart => ∃ parts body ending, (∀ q ∈ parts, q.WellFormed depth) ∧
        Sequence parts body ∧ (Key.mk p.key.tag .groupEnd).Form ending ∧ p.content = body ++ ending
    | .groupEnd => False
    | .fixed32 => p.content.length = 4

theorem Part.WellFormed.kind_ne {depth : Nat} {p : Part} (h : p.WellFormed depth) :
    p.key.kind ≠ .groupEnd := by
  intro hkind
  cases depth with
  | zero => exact h
  | succ depth =>
      unfold WellFormed at h
      rw [hkind] at h
      exact h

theorem dropBytes_append {n : Nat} {content : Bytes} (hlength : content.length = n)
    (rest : Bytes) : dropBytes n (content ++ rest) = .ok rest := by
  rw [dropBytes, ← hlength, Bytes.split?_append]

theorem skipGroup_of_sequence {skip : Key → Bytes → Except Cause Bytes} {parts : List Part}
    {body ending : Bytes} {tag : Nat} (hbody : Sequence parts body)
    (hskip : ∀ p ∈ parts, p.key.kind ≠ .groupEnd ∧
      ∀ rest, skip p.key (p.content ++ rest) = .ok rest)
    (hending : (Key.mk tag .groupEnd).Form ending) (rest : Bytes) {fuel : Nat}
    (hfuel : body.length < fuel) :
    skipGroup skip tag fuel (body ++ (ending ++ rest)) = .ok rest := by
  obtain ⟨fuel, rfl⟩ : ∃ k, fuel = k + 1 := ⟨fuel - 1, by omega⟩
  induction hbody generalizing fuel with
  | nil =>
      rw [List.nil_append, skipGroup, hending.read]
      simp only [bind, Except.bind, if_true]
  | @cons p parts k b hkey hrest ih =>
      have hpos : 0 < k.length := List.length_pos_iff.2 hkey.ne_nil
      simp only [List.length_append] at hfuel
      obtain ⟨fuel, rfl⟩ : ∃ j, fuel = j + 1 := ⟨fuel - 1, by omega⟩
      obtain ⟨hkind, hcontent⟩ := hskip p List.mem_cons_self
      have htail := ih (fun q hq => hskip q (List.mem_cons_of_mem p hq)) fuel (by omega)
      rw [List.append_assoc, List.append_assoc, skipGroup, hkey.read]
      simp only [bind, Except.bind, if_neg hkind, hcontent]
      exact htail

/-- A well-formed field is passed over, whatever follows it. -/
theorem skip_of_wellFormed {depth : Nat} {p : Part} (h : p.WellFormed depth) (rest : Bytes) :
    skip depth p.key (p.content ++ rest) = .ok rest := by
  induction depth generalizing p rest with
  | zero => exact h.elim
  | succ depth ih =>
      unfold Part.WellFormed at h
      unfold skip
      cases hkind : p.key.kind with
      | varint =>
          rw [hkind] at h
          obtain ⟨n, hn⟩ := h
          simp only [hn.read]
      | fixed64 =>
          rw [hkind] at h
          exact dropBytes_append h rest
      | delimited =>
          rw [hkind] at h
          obtain ⟨content, hcontent⟩ := h
          simp only [hcontent.read]
          rfl
      | groupStart =>
          rw [hkind] at h
          obtain ⟨parts, body, ending, hparts, hbody, hending, hcontent⟩ := h
          rw [hcontent, List.append_assoc]
          apply skipGroup_of_sequence hbody _ hending
          · simp only [List.length_append]
            omega
          · intro q hq
            exact ⟨(hparts q hq).kind_ne, ih (hparts q hq)⟩
      | groupEnd =>
          rw [hkind] at h
          exact h.elim
      | fixed32 =>
          rw [hkind] at h
          exact dropBytes_append h rest

end Custody.Wire
