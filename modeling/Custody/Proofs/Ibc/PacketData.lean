import Mathlib.Data.List.Perm.Basic
import Custody.Proofs.Ibc.Receive
import Custody.Proofs.Ibc.Run
import Custody.Proofs.Json.Form

/-!
# Transfer data in other spellings

Other chains write the data of a transfer with writers of their own. Whatever the order of its
members, the white space between them, the escapes in its strings, and the members that it has
besides, it is read as the same data, and the transfer layer does the same with the packet.
-/

namespace Custody.Ibc

open Json (decode? maxDepth readMember readValue Reads)
open Json.Grammar

namespace TransferData

def names : List String := ["denom", "amount", "sender", "receiver", "memo"]

/-- The fields of the data under their names. -/
def fields (v : TransferData) : List (String × String) := [
  ("denom", v.denom), ("amount", v.amount), ("sender", v.sender), ("receiver", v.receiver),
  ("memo", v.memo)]

/-- These are the fields that are written: all of them, or all but an empty memo. -/
def Given (v : TransferData) (fields : List (String × String)) : Prop :=
  fields = v.fields ∨ v.memo = "" ∧ fields = v.fields.dropLast

/-- A member that holds the field. -/
def IsField (field : String × String) (part : Bytes) : Prop :=
  IsMember (Quotes field.1) (Quotes field.2) part

/-- A member under a name that means nothing here. Its value is within the bounds of the reader. -/
def IsOther (string : Bytes → Prop) (part : Bytes) : Prop :=
  IsMember (fun name => string name ∧ ∀ known ∈ names, ¬ Quotes known name)
    (IsValue string (maxDepth - 2)) part

/-- The text is an object with the fields of the data, each of them once and in any order, and with
any other members besides. An empty memo may be missing. -/
def IsText (string : Bytes → Prop) (v : TransferData) (text : Bytes) : Prop :=
  ∃ parts known others fields, v.Given fields ∧ List.Forall₂ IsField fields known ∧
    (∀ part ∈ others, IsOther string part) ∧ parts.Perm (known ++ others) ∧
      Padded (Enclosed Ascii.openBrace Ascii.closeBrace parts) text

/-! ## Writing -/

/-- The members that hold the fields. -/
def members (fields : List (String × String)) : List (String × Json) :=
  fields.map fun field => (field.1, .str field.2)

theorem isField_printMember (field : String × String) :
    IsField field (Json.printMember (field.1, .str field.2)) :=
  .of (Json.Quoted.quotes_write field.1) (Json.Quoted.quotes_write field.2)

theorem isOther_of_not_mem {string : Bytes → Prop} {name : String} (hname : name ∉ names)
    (hstring : string (Json.Quoted.write name)) {content : Bytes}
    (hcontent : Padded (IsValue string (maxDepth - 2)) content) :
    IsOther string (Json.Quoted.write name ++ Ascii.colon :: content) := by
  refine ⟨_, content, .of ⟨hstring, ?_⟩, hcontent, rfl⟩
  intro known hknown hquotes
  rw [← Json.Quoted.eq_of_quotes hquotes (Json.Quoted.quotes_write name)] at hname
  exact hname hknown

theorem isField_members (fields : List (String × String)) :
    List.Forall₂ IsField fields ((members fields).map Json.printMember) := by
  rw [members, List.map_map, List.forall₂_map_right_iff, List.forall₂_same]
  exact fun field _ => isField_printMember field

/-- The plain text is one of the texts. -/
theorem isText_encode (v : TransferData) : v.IsText Spelled (Json.encode v) :=
  ⟨_, _, [], v.fields, .inl rfl, isField_members v.fields, nofun, .of_eq (List.append_nil _).symm,
    .of ⟨_, Json.listed_printMembers _, rfl⟩⟩

/-! ## Reading -/

theorem reads_field {field : String × String} {part : Bytes} (h : IsField field part) :
    Reads (readMember (maxDepth - 1)) part (field.1, .str field.2) := by
  obtain ⟨front, content, hfront, ⟨before, core, after, hbefore, hcore, hafter, rfl⟩, rfl⟩ := h
  exact Json.reads_member hfront
    (Json.reads_padded hbefore hafter (Json.readValue_quotes hcore))

theorem exists_reads_other {part : Bytes} (h : IsOther Spelled part) :
    ∃ m, m.1 ∉ names ∧ Reads (readMember (maxDepth - 1)) part m := by
  obtain ⟨front, content, ⟨before, name, after, hbefore, ⟨⟨s, hs⟩, hother⟩, hafter, rfl⟩, hcontent,
    rfl⟩ := h
  obtain ⟨j, hj⟩ := Json.exists_reads (fun _ h => h) hcontent
  exact ⟨(s, j), fun hknown => hother s hknown hs,
    Json.reads_member ⟨before, name, after, hbefore, hs, hafter, rfl⟩ hj⟩

section Members

variable {v : TransferData} {kept : List (String × Json)} {fields : List (String × String)}

theorem Given.mem_names (h : v.Given fields) {field : String × String} (hfield : field ∈ fields) :
    field.1 ∈ names := by
  have hall : ∀ field ∈ v.fields, field.1 ∈ names := by
    simp [TransferData.fields, names]
  rcases h with rfl | ⟨-, rfl⟩
  · exact hall field hfield
  · exact hall field ((List.dropLast_sublist _).subset hfield)

theorem Given.nodup (h : v.Given fields) (hperm : kept.Perm (members fields)) :
    (kept.map (·.1)).Nodup := by
  have hnames := hperm.map (·.1)
  rw [members, List.map_map] at hnames
  apply hnames.nodup_iff.2
  rcases h with rfl | ⟨-, rfl⟩
  · change names.Nodup
    decide
  · change names.dropLast.Nodup
    decide

theorem Given.lookup (h : v.Given fields) (hperm : kept.Perm (members fields)) {name s : String}
    (hfield : (name, s) ∈ fields) : kept.lookup name = some (.str s) := by
  apply lookup_of_mem (h.nodup hperm)
  exact hperm.mem_iff.2 (List.mem_map_of_mem (f := fun field => (field.1, Json.str field.2)) hfield)

theorem Given.member? (h : v.Given fields) (hperm : kept.Perm (members fields)) {name s : String}
    (hfield : (name, s) ∈ v.fields.dropLast) : Json.member? kept name = some s := by
  have hgiven : (name, s) ∈ fields := by
    rcases h with rfl | ⟨-, rfl⟩
    · exact (List.dropLast_sublist _).subset hfield
    · exact hfield
  rw [Json.member?, h.lookup hperm hgiven]
  rfl

theorem Given.memo (h : v.Given fields) (hperm : kept.Perm (members fields)) :
    Json.memberOr? kept "memo" "" = some v.memo := by
  have hlookup := @Given.lookup v kept fields h hperm
  rcases h with rfl | ⟨hempty, rfl⟩
  · have hmemo : kept.lookup "memo" = some (.str v.memo) := hlookup (by simp [TransferData.fields])
    rw [Json.memberOr?, hmemo]
    rfl
  · have hnone : kept.lookup "memo" = none := by
      rw [List.lookup_eq_none_iff]
      intro m hm
      obtain ⟨field, hfield, rfl⟩ := List.mem_map.1 (hperm.mem_iff.1 hm)
      have hne : ∀ field ∈ v.fields.dropLast, "memo" ≠ field.1 := by
        simp [TransferData.fields]
      simpa using hne field hfield
    rw [Json.memberOr?, hnone, hempty]

end Members

/-- An object is read by those of its members that have a known name. -/
theorem ofJson?_obj {v : TransferData} {ms : List (String × Json)} {fields : List (String × String)}
    (h : v.Given fields) (hperm : (ms.filter (·.1 ∈ names)).Perm (members fields)) :
    ofJson? (.obj ms) = some v := by
  have hrecord : Json.tolerantRecord? names (.obj ms) = some (ms.filter (·.1 ∈ names)) := by
    have hknown : ∀ m ∈ ms.filter (·.1 ∈ names), m.1 ∈ names := by
      intro m hm
      simpa using (List.mem_filter.1 hm).2
    rw [Json.tolerantRecord?, Json.record?, if_pos ⟨hknown, h.nodup hperm⟩]
  have hmember : ∀ {name s : String}, (name, s) ∈ v.fields.dropLast →
      Json.member? (ms.filter (·.1 ∈ names)) name = some s := h.member? hperm
  have hdenom := @hmember "denom" v.denom (by simp [TransferData.fields])
  have hamount := @hmember "amount" v.amount (by simp [TransferData.fields])
  have hsender := @hmember "sender" v.sender (by simp [TransferData.fields])
  have hreceiver := @hmember "receiver" v.receiver (by simp [TransferData.fields])
  change (Json.tolerantRecord? names (.obj ms)).bind _ = _
  rw [hrecord, Option.bind_some]
  simp only [hdenom, hamount, hsender, hreceiver, h.memo hperm, Option.bind_eq_bind,
    Option.bind_some]

theorem decode?_of_isText {v : TransferData} {text : Bytes} (h : v.IsText Spelled text) :
    decode? TransferData text = some v := by
  obtain ⟨parts, known, others, fields, hfields, hknown, hothers, hperm, htext⟩ := h
  have hfront : List.Forall₂ (Reads (readMember (maxDepth - 1))) known (members fields) := by
    apply List.forall₂_map_right_iff.2
    exact List.Forall₂.flip (hknown.imp fun field part => reads_field)
  obtain ⟨foreign, hforeign⟩ := Json.exists_forall₂ fun part hpart =>
    exists_reads_other (hothers part hpart)
  obtain ⟨hunknown, hback⟩ := (List.forall₂_and_left _ _).1 (List.Forall₂.flip hforeign)
  -- In what order the parts stand, in that order their members are read.
  obtain ⟨ms, hreads, hms⟩ := List.perm_comp_forall₂ hperm
    (List.rel_append hfront (List.Forall₂.flip hback))
  have hkept : (ms.filter (·.1 ∈ names)).Perm (members fields) := by
    have hfields : (members fields).filter (·.1 ∈ names) = members fields := by
      rw [List.filter_eq_self]
      intro m hm
      obtain ⟨field, hfield, rfl⟩ := List.mem_map.1 hm
      exact decide_eq_true (hfields.mem_names hfield)
    have hnone : foreign.filter (·.1 ∈ names) = [] := by
      rw [List.filter_eq_nil_iff]
      intro m hm
      simpa using hunknown m hm
    have hfilter := hms.filter (·.1 ∈ names)
    rwa [List.filter_append, hfields, hnone, List.append_nil] at hfilter
  rw [decode?, Json.read?_object hreads htext]
  exact ofJson?_obj hfields hkept

end TransferData

/-! ## The layer on packets with the same data -/

namespace Transfer

variable {β ω : Type}

/-- The application gives both callbacks the same answer, and does the same to store and bank. -/
def Alike (app : Application β ω) (c c' : Callback) : Prop :=
  ∀ w, (app c).result w = (app c').result w ∧ ((app c).after w).vault = ((app c').after w).vault

theorem alike_recorder (refuses : Bool) (p p' : Packet) (relayer : Address) :
    Alike (recorder refuses : Application β (List Callback)) (.receive p relayer)
      (.receive p' relayer) := by
  intro w
  rw [after_recorder, after_recorder]
  exact ⟨rfl, rfl⟩

variable [Custodian β] {cfg : Config} {d : Directory} {p p' : Packet} {relayer : Address}

/-- The layer leaves both packets to the application as they are, or it answers both of them in the
same way without asking the application. -/
def DecidesAlike (cfg : Config) (d : Directory) (p p' : Packet) (relayer : Address)
    (w : World β ω) : Prop :=
  (∀ app, layer cfg d app (.receive p relayer) w = app (.receive p relayer) w ∧
    layer cfg d app (.receive p' relayer) w = app (.receive p' relayer) w) ∨
  ∃ outcome, ∀ app, layer cfg d app (.receive p relayer) w = outcome ∧
    layer cfg d app (.receive p' relayer) w = outcome

theorem decidesAlike_of_data {data : Bytes}
    (hdata : decode? TransferData p.data = decode? TransferData data) (w : World β ω) :
    DecidesAlike cfg d p { p with data } relayer w := by
  have hsame : Foreign cfg w.vault.store { p with data } ↔ Foreign cfg w.vault.store p := by
    simp only [Foreign, hdata]
  by_cases hforeign : Foreign cfg w.vault.store p
  · left
    intro app
    exact ⟨receive_foreign hforeign, receive_foreign (hsame.2 hforeign)⟩
  · right
    have hother := mt hsame.1 hforeign
    cases hread : decode? TransferData p.data with
    | none =>
        refine ⟨.ok (.acknowledged (.error "invalid packet data")) w, ?_⟩
        intro app
        exact ⟨receive_unreadable (not_foreign_iff.1 hforeign).1 hread,
          receive_unreadable (not_foreign_iff.1 hother).1 (hdata ▸ hread)⟩
    | some v =>
        refine ⟨(release cfg p v >>= fun a => pure (.acknowledged a) :
          Operation (World β ω) Reply) w, ?_⟩
        intro app
        exact ⟨receive_home hforeign hread, receive_home hother (hdata ▸ hread)⟩

theorem alike_of_decidesAlike
    (h : ∀ w : World β ω, DecidesAlike cfg d p p' relayer w) {app : Application β ω}
    (happ : Alike app (.receive p relayer) (.receive p' relayer)) :
    Alike (layer cfg d app) (.receive p relayer) (.receive p' relayer) := by
  intro w
  rcases h w with hpassed | ⟨outcome, hanswered⟩
  · rw [Operation.result, Operation.result, Operation.after, Operation.after, (hpassed app).1,
      (hpassed app).2]
    exact happ w
  · rw [Operation.result, Operation.result, Operation.after, Operation.after, (hanswered app).1,
      (hanswered app).2]
    exact ⟨rfl, rfl⟩

end Transfer

/-- Every text of transfer data is read as the data, as long as the strings in it spell texts: with
its members in any order and spelled in any way, with other members besides, and without an empty
memo. So the layer does with a packet what it does with one that carries the plain text. -/
theorem transfer_data_tolerated {v : TransferData} {text : Bytes} (h : v.IsText Spelled text) :
    decode? TransferData text = some v ∧
    ∀ {β ω : Type} [Custodian β] (cfg : Config) (d : Directory) (p : Packet) (relayer : Address),
      p.data = text →
      (∀ w : World β ω, Transfer.DecidesAlike cfg d p { p with data := Json.encode v } relayer w) ∧
      ∀ app : Application β ω,
        Transfer.Alike app (.receive p relayer)
          (.receive { p with data := Json.encode v } relayer) →
        Transfer.Alike (Transfer.layer cfg d app) (.receive p relayer)
          (.receive { p with data := Json.encode v } relayer) := by
  have hread := TransferData.decode?_of_isText h
  have hplain := TransferData.decode?_of_isText (TransferData.isText_encode v)
  refine ⟨hread, ?_⟩
  intro β ω _ cfg d p relayer hdata
  have hdecides : ∀ w : World β ω,
      Transfer.DecidesAlike cfg d p { p with data := Json.encode v } relayer w :=
    Transfer.decidesAlike_of_data (by rw [hdata, hread, hplain])
  exact ⟨hdecides, fun app => Transfer.alike_of_decidesAlike hdecides⟩

/-- Another order, white space, an escaped name, a member that means nothing here, and no memo. -/
theorem transfer_data_tolerated_reordered :
    let v : TransferData := ⟨"umaany", "3", "dex1sender", "maany1receiver", ""⟩
    let text := Bytes.ofString ("\x7b\"x\": [true, null],\"receiver\":\"maany1receiver\"," ++
      "\"\\u0061mount\":\"3\",\"sender\":\"dex1sender\",\"denom\":\"umaany\"\x7d")
    let p : Packet := ⟨⟨"transfer", "channel-7"⟩, ⟨"transfer", "channel-0"⟩, 1, text⟩
    let app : Application Balances (List Callback) := recorder false
    v.IsText Spelled text ∧ decode? TransferData text = some v ∧
      Transfer.Alike (Transfer.layer {} ({} : Registry).directory app) (.receive p "relayer")
        (.receive { p with data := Json.encode v } "relayer") := by
  intro v text p app
  have hblank : Blank [0x20] := List.forall_mem_singleton.2 (.inl rfl)
  let x := Json.Quoted.write "x" ++ Ascii.colon :: Bytes.ofString " [true, null]"
  have hother : TransferData.IsOther Spelled x := by
    apply TransferData.isOther_of_not_mem (by decide) ⟨"x", Json.Quoted.quotes_write "x"⟩
    refine ⟨[0x20], Bytes.ofString "[true, null]", [], hblank, ?_, nofun, by decide⟩
    refine .inr (.inl ⟨[Bytes.ofString "true", Bytes.ofString " null"], ?_, _, rfl, by decide⟩)
    simp only [List.forall_mem_cons]
    exact ⟨.of (.scalar (.inl (.inr (.inl rfl)))),
      ⟨[0x20], _, [], hblank, .scalar (.inl (.inl rfl)), nofun, by decide⟩, nofun⟩
  let amount := Bytes.ofString "\"\\u0061mount\"" ++ Ascii.colon :: Json.Quoted.write v.amount
  have hamount : TransferData.IsField ("amount", v.amount) amount := by
    have hletter : CodeUnit (Bytes.ofString "0061") 'a'.toNat :=
      CodeUnit.mk (.lower (by decide : 0 < 16)) (.lower (by decide : 0 < 16))
        (.lower (by decide : 6 < 16)) (.lower (by decide : 1 < 16))
    have hname : "amount".toList = 'a' :: "mount".toList := by decide
    have hspells := Spells.unit hletter (Json.Quoted.spells_write "mount")
    rw [← hname] at hspells
    exact .of ⟨_, hspells, by decide⟩ (Json.Quoted.quotes_write v.amount)
  have htext : v.IsText Spelled text := by
    let written (field : String × String) := Json.printMember (field.1, .str field.2)
    have hfields : List.Forall₂ TransferData.IsField v.fields.dropLast [written ("denom", v.denom),
        amount, written ("sender", v.sender), written ("receiver", v.receiver)] :=
      .cons (TransferData.isField_printMember _) (.cons hamount
        (.cons (TransferData.isField_printMember _)
          (.cons (TransferData.isField_printMember _) .nil)))
    exact ⟨[x, written ("receiver", v.receiver), amount, written ("sender", v.sender),
      written ("denom", v.denom)], _, [x], _, .inr ⟨rfl, rfl⟩, hfields,
      List.forall_mem_singleton.2 hother, by decide, .of ⟨_, rfl, by decide⟩⟩
  obtain ⟨hread, hsame⟩ := transfer_data_tolerated htext
  exact ⟨htext, hread, (hsame _ _ p _ rfl).2 app (Transfer.alike_recorder _ _ _ _)⟩

/-- A further member may hold a string that spells no text, half of a character being escaped, and
then nothing is read. -/
theorem transfer_data_refused :
    let v : TransferData := ⟨"umaany", "3", "dex1sender", "maany1receiver", ""⟩
    let text := Bytes.ofString ("\x7b\"denom\":\"umaany\",\"amount\":\"3\"," ++
      "\"sender\":\"dex1sender\",\"receiver\":\"maany1receiver\",\"x\":\"\\ud800\"\x7d")
    v.IsText IsString text ∧ decode? TransferData text = none := by
  intro v text
  have hhalf : IsString (Bytes.ofString "\"\\ud800\"") := by
    have hunit := CodeUnit.mk (.lower (by decide : 13 < 16)) (.lower (by decide : 8 < 16))
      (.lower (by decide : 0 < 16)) (.lower (by decide : 0 < 16))
    exact ⟨_, .unit hunit .nil, by decide⟩
  let x := Json.Quoted.write "x" ++ Ascii.colon :: Bytes.ofString "\"\\ud800\""
  have hother : TransferData.IsOther IsString x :=
    TransferData.isOther_of_not_mem (by decide) (Json.Quoted.quotes_write "x").isString
      (.of (.scalar (.inr (.inr hhalf))))
  have hfields := TransferData.isField_members v.fields.dropLast
  have hread : decode? TransferData text = none := by decide +kernel
  exact ⟨⟨_, _, [x], _, .inr ⟨rfl, rfl⟩, hfields, List.forall_mem_singleton.2 hother, .refl _,
    .of ⟨_, rfl, by decide⟩⟩, hread⟩

end Custody.Ibc
