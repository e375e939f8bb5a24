import Custody.Json.Form
import Custody.Proofs.Json.Completeness

/-!
# Lawful forms

A form is lawful if what is written of a value is read as the value. The members of records are
looked up by their names, so the form of a record is lawful where those of its members are. Main
statement: `decode?_encode_of_closed`.
-/

namespace Custody

/-- What is written of a value is read as the value. It nests so many levels at most, and it is not
null, which stands for an absent value. -/
class JsonForm.Lawful (depth : outParam Nat) (α : Type) [JsonForm α] : Prop where
  read : ∀ a : α, ofJson? (toJson a) = some a
  fits : ∀ a : α, (toJson a).Fits depth
  ne_null : ∀ a : α, toJson a ≠ .null

open JsonForm (Lawful)

attribute [simp] Lawful.read Lawful.ne_null

namespace Json

variable {depth : Nat} {α : Type} [JsonForm α]

/-! ## Nesting -/

theorem Fits.succ {j : Json} (h : j.Fits depth) : j.Fits (depth + 1) := by
  induction depth, j using Fits.induct with
  | case1 => trivial
  | case2 => trivial
  | case3 => trivial
  | case4 => trivial
  | case5 depth items ih => exact fun j hj => ih j (h j hj)
  | case6 depth members ih => exact fun m hm => ih m (h m hm)
  | case7 depth j hnull hbool hnat hstr harr hobj =>
      rw [Fits.eq_7 depth j hnull hbool hnat hstr harr hobj] at h
      exact h.elim

theorem Fits.mono {depth' : Nat} (hle : depth ≤ depth') {j : Json} (h : j.Fits depth) :
    j.Fits depth' := by
  induction hle with
  | refl => exact h
  | step _ ih => exact ih.succ

@[simp] theorem fits_toJson [Lawful depth α] {n : Nat} (hle : depth ≤ n) (a : α) :
    (toJson a).Fits n :=
  (Lawful.fits a).mono hle

@[simp] theorem fits_toJson_option [Lawful depth α] {n : Nat} (hle : depth ≤ n) (a : Option α) :
    (toJson a).Fits n := by
  cases a with
  | none => cases n <;> trivial
  | some a => exact fits_toJson hle a

@[simp] theorem fits_str (n : Nat) (s : String) : (str s).Fits n := by cases n <;> trivial

@[simp] theorem fits_ofBytes (n : Nat) (b : Bytes) : (ofBytes b).Fits n := fits_str n _

@[simp] theorem fits_obj_nil (n : Nat) : (obj []).Fits (n + 1) := by
  intro m hm
  cases hm

@[simp] theorem fits_obj_cons {n : Nat} {m : String × Json} {members : List (String × Json)} :
    (obj (m :: members)).Fits (n + 1) ↔ m.2.Fits n ∧ (obj members).Fits (n + 1) :=
  List.forall_mem_cons

@[simp] theorem fits_variant {n : Nat} {name : String} {content : Json} :
    (variant name content).Fits (n + 1) ↔ content.Fits n := by
  rw [variant, fits_obj_cons]
  exact and_iff_left (fits_obj_nil n)

/-! ## Records -/

section Names

variable {names : List String} {members : List (String × Json)}

/-- A record with just these members. -/
@[simp] theorem record?_obj (hnames : members.map (·.1) = names) (hnodup : names.Nodup) :
    record? names (.obj members) = some members := by
  subst hnames
  have hall : ∀ m ∈ members, m.1 ∈ members.map (·.1) := fun m hm => List.mem_map_of_mem hm
  rw [record?, if_pos ⟨hall, hnodup⟩]

@[simp] theorem tolerantRecord?_obj (hnames : members.map (·.1) = names) (hnodup : names.Nodup) :
    tolerantRecord? names (.obj members) = some members := by
  have hall : members.filter (·.1 ∈ names) = members := by
    rw [List.filter_eq_self]
    intro m hm
    rw [← hnames]
    exact decide_eq_true (List.mem_map_of_mem hm)
  rw [tolerantRecord?, hall, record?_obj hnames hnodup]

end Names

section Lookup

variable {name other : String} (rest : List (String × Json))

theorem lookup_cons_self (name : String) (j : Json) :
    ((name, j) :: rest).lookup name = some j := by
  rw [List.lookup_cons, beq_self_eq_true]

theorem lookup_cons_ne (h : other ≠ name) (j : Json) :
    ((name, j) :: rest).lookup other = rest.lookup other := by
  rw [List.lookup_cons, beq_false_of_ne h]

@[simp] theorem member?_cons_self [Lawful depth α] (name : String) (a : α) :
    member? ((name, toJson a) :: rest) name = some a := by
  rw [member?, lookup_cons_self]
  exact Lawful.read a

@[simp] theorem member?_cons_ne (h : other ≠ name) (j : Json) :
    (member? ((name, j) :: rest) other : Option α) = member? rest other := by
  rw [member?, lookup_cons_ne rest h, member?]

@[simp] theorem optional?_cons_self [Lawful depth α] (name : String) (a : Option α) :
    optional? ((name, toJson a) :: rest) name = some a := by
  rw [optional?, lookup_cons_self]
  cases a with
  | none => rfl
  | some a =>
      have hread := Lawful.read a
      have hne := Lawful.ne_null a
      have hwritten : toJson (some a) = toJson a := rfl
      rw [hwritten]
      generalize toJson a = j at hread hne ⊢
      cases j with
      | null => exact absurd rfl hne
      | _ => simp only [hread, Option.map_some]

@[simp] theorem optional?_cons_ne (h : other ≠ name) (j : Json) :
    (optional? ((name, j) :: rest) other : Option (Option α)) = optional? rest other := by
  rw [optional?, lookup_cons_ne rest h, optional?]

@[simp] theorem memberOr?_cons_self [Lawful depth α] (name : String) (a b : α) :
    memberOr? ((name, toJson a) :: rest) name b = some a := by
  rw [memberOr?, lookup_cons_self]
  exact Lawful.read a

@[simp] theorem memberOr?_cons_ne (h : other ≠ name) (j : Json) (b : α) :
    memberOr? ((name, j) :: rest) other b = memberOr? rest other b := by
  rw [memberOr?, lookup_cons_ne rest h, memberOr?]

end Lookup

@[simp] theorem variant?_variant (name : String) (content : Json) :
    variant? (variant name content) = some (name, some content) := rfl

@[simp] theorem bytes?_ofBytes (b : Bytes) : bytes? (ofBytes b) = some b :=
  Text.Base64.decode?_encode b

end Json

/-! ## Basic forms -/

instance : Lawful 0 String where
  read _ := rfl
  fits _ := trivial
  ne_null _ h := by cases h

instance : Lawful 0 Bool where
  read _ := rfl
  fits _ := trivial
  ne_null _ h := by cases h

instance : Lawful 0 UInt64 where
  read n := by
    change (if n.toNat < UInt64.size then some (UInt64.ofNat n.toNat) else none) = some n
    rw [if_pos n.toNat_lt, UInt64.ofNat_toNat]
  fits _ := trivial
  ne_null _ h := by cases h

instance : Lawful 0 UInt32 where
  read n := by
    change (if n.toNat < UInt32.size then some (UInt32.ofNat n.toNat) else none) = some n
    rw [if_pos n.toNat_lt, UInt32.ofNat_toNat]
  fits _ := trivial
  ne_null _ h := by cases h

instance {depth : Nat} {α : Type} [JsonForm α] [Lawful depth α] : Lawful (depth + 1) (List α) where
  read items := by
    change (items.map toJson).mapM ofJson? = some items
    induction items with
    | nil => rfl
    | cons a items ih =>
        rw [List.map_cons, List.mapM_cons, Lawful.read, ih]
        rfl
  fits items j hj := by
    obtain ⟨a, -, rfl⟩ := List.mem_map.1 hj
    exact Lawful.fits a
  ne_null _ h := by cases h

/-- A record whose members are read as they were written. -/
theorem JsonForm.lawful_of_obj {depth : Nat} {α : Type} [JsonForm α]
    {members : α → List (String × Json)} (hwrite : ∀ a : α, toJson a = .obj (members a))
    (hread : ∀ a, ofJson? (.obj (members a)) = some a)
    (hfits : ∀ a, ∀ m ∈ members a, m.2.Fits depth) : Lawful (depth + 1) α where
  read a := by
    rw [hwrite]
    exact hread a
  fits a := by
    rw [hwrite]
    exact hfits a
  ne_null a h := by
    rw [hwrite] at h
    cases h

/-- Texts of a lawful form that show their own end are read back. -/
theorem Json.decode?_encode_of_closed {depth : Nat} {α : Type} [JsonForm α] [Lawful depth α]
    (hdepth : depth < maxDepth) (hclosed : ∀ a : α, (toJson a).Closed) (a : α) :
    decode? α (encode a) = some a := by
  rw [decode?, encode, read?_print (fits_toJson (Nat.le_pred_of_lt hdepth) a) (hclosed a)]
  exact Lawful.read a

end Custody
