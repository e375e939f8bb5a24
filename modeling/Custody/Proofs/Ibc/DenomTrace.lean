import Custody.Ibc.DenomTrace

/-!
# Hops and bases

The parts of a denomination may begin with pairs of a port and a channel. The path of a trace is the
longest such beginning and the base is all that follows. So no hops are left in the base, and a hop
that is put in front of a denomination shows in the path only.
-/

namespace Custody.Ibc.DenomTrace

variable {parts hops base : List (List Char)} {s : List Char}

/-! ## Parts -/

theorem segments_eq_splitOn (cs : List Char) : segments cs = cs.splitOn '/' := by
  induction cs with
  | nil => rfl
  | cons c rest ih =>
      rw [segments, List.splitOn_cons_eq_if_modifyHead, ← ih]
      by_cases hslash : c = '/'
      · rw [if_pos hslash, if_pos (beq_iff_eq.2 hslash)]
      · rw [if_neg hslash, if_neg (mt beq_iff_eq.1 hslash)]
        cases hparts : segments rest with
        | nil => exact absurd hparts (segments_ne_nil rest)
        | cons part more => rfl

/-- There is no slash within a part. -/
theorem slash_not_mem_of_mem_segments {cs part : List Char} (h : part ∈ segments cs) :
    '/' ∉ part := by
  induction cs generalizing part with
  | nil =>
      obtain rfl := List.mem_singleton.1 h
      exact List.not_mem_nil
  | cons c rest ih =>
      rw [segments] at h
      by_cases hslash : c = '/'
      · rw [if_pos hslash] at h
        rcases List.mem_cons.1 h with rfl | hmem
        · exact List.not_mem_nil
        · exact ih hmem
      · rw [if_neg hslash] at h
        cases hparts : segments rest with
        | nil => exact absurd hparts (segments_ne_nil rest)
        | cons first more =>
            rw [hparts] at h ih
            rcases List.mem_cons.1 h with rfl | hmem
            · rw [List.mem_cons, not_or]
              exact ⟨Ne.symm hslash, ih List.mem_cons_self⟩
            · exact ih (List.mem_cons_of_mem first hmem)

theorem joined_append (hhops : hops ≠ []) (hbase : base ≠ []) :
    joined (hops ++ base) = joined hops ++ '/' :: joined base := by
  induction hops with
  | nil => exact absurd rfl hhops
  | cons part rest ih =>
      rw [List.cons_append, joined_cons part (List.append_ne_nil_of_right_ne_nil rest hbase)]
      by_cases hrest : rest = []
      · subst hrest
        simp [joined]
      · rw [ih hrest, joined_cons part hrest, List.append_assoc, List.cons_append]

/-! ## Hops -/

/-- `channel-` and a number. -/
def ChannelId (s : List Char) : Prop :=
  ∃ number, number ≠ [] ∧ (∀ c ∈ number, c.isDigit) ∧ s = "channel-".toList ++ number

/-- Pairs of a port, which is not empty, and a channel. -/
inductive Hops : List (List Char) → Prop
  | nil : Hops []
  | cons {port channel : List Char} {rest : List (List Char)} (hport : port ≠ [])
      (hchannel : ChannelId channel) (hrest : Hops rest) : Hops (port :: channel :: rest)

theorem isChannelId_iff : isChannelId s ↔ ChannelId s := by
  have hdrop : ∀ number, ("channel-".toList ++ number).drop "channel-".length = number :=
    fun number => List.drop_left
  rw [isChannelId, Bool.and_eq_true, List.isPrefixOf_iff_prefix]
  constructor
  · rintro ⟨⟨number, rfl⟩, hnumber⟩
    rw [hdrop] at hnumber
    exact ⟨number, by simpa using hnumber⟩
  · rintro ⟨number, hne, hdigits, rfl⟩
    rw [hdrop]
    exact ⟨List.prefix_append _ number, by simpa using ⟨hne, hdigits⟩⟩

theorem isHop_iff {port channel : List Char} :
    isHop port channel ↔ port ≠ [] ∧ ChannelId channel := by
  rw [isHop, Bool.and_eq_true, isChannelId_iff]
  simp

theorem hops_leadingHops (parts : List (List Char)) : Hops (leadingHops parts).1 := by
  fun_induction leadingHops parts with
  | case1 port channel rest hhop hops base hread ih =>
      obtain ⟨hport, hchannel⟩ := isHop_iff.1 hhop
      rw [hread] at ih
      exact .cons hport hchannel ih
  | case2 port channel rest hhop => exact .nil
  | case3 parts hshort => exact .nil

theorem leadingHops_append (h : Hops hops) (base : List (List Char)) :
    leadingHops (hops ++ base) = (hops ++ (leadingHops base).1, (leadingHops base).2) := by
  induction h with
  | nil => rfl
  | cons hport hchannel hrest ih =>
      rw [List.cons_append, List.cons_append, leadingHops, if_pos (isHop_iff.2 ⟨hport, hchannel⟩),
        ih]
      rfl

theorem leadingHops_eq (hparts : parts = hops ++ base) (hhops : Hops hops)
    (hbare : leadingHops base = ([], base)) : leadingHops parts = (hops, base) := by
  rw [hparts, leadingHops_append hhops, hbare, List.append_nil]

/-- Nothing longer that the parts begin with is made of hops. -/
theorem prefix_leadingHops (h : Hops hops) (hleads : hops <+: parts) :
    hops <+: (leadingHops parts).1 := by
  obtain ⟨base, rfl⟩ := hleads
  rw [leadingHops_append h]
  exact List.prefix_append hops _

theorem leadingHops_rest (parts : List (List Char)) :
    leadingHops (leadingHops parts).2 = ([], (leadingHops parts).2) := by
  fun_induction leadingHops parts with
  | case1 port channel rest hhop hops base hread ih =>
      rw [hread] at ih
      exact ih
  | case2 port channel rest hhop => rw [leadingHops, if_neg hhop]
  | case3 parts hshort => exact leadingHops.eq_2 parts hshort

theorem rest_eq_nil_iff : (leadingHops parts).2 = [] ↔ Hops parts := by
  constructor
  · intro hrest
    have hparts := append_leadingHops parts
    rw [hrest, List.append_nil] at hparts
    rw [← hparts]
    exact hops_leadingHops parts
  · intro h
    have happend := leadingHops_append h []
    rw [List.append_nil] at happend
    rw [happend]
    rfl

instance (parts : List (List Char)) : Decidable (Hops parts) :=
  decidable_of_iff _ rest_eq_nil_iff

theorem ofList_joined_ne_empty (h : Hops hops) (hne : hops ≠ []) :
    String.ofList (joined hops) ≠ "" := by
  cases h with
  | nil => exact absurd rfl hne
  | cons hport hchannel hrest =>
      rw [joined_cons _ (List.cons_ne_nil _ _)]
      simp [← String.toList_inj]

theorem slash_not_mem_channelId (h : ChannelId s) : '/' ∉ s := by
  obtain ⟨number, -, hdigits, rfl⟩ := h
  rw [List.mem_append, not_or]
  exact ⟨by decide, fun hslash => absurd (hdigits _ hslash) (by decide)⟩

/-! ## Traces -/

variable {raw : String}

theorem read_of_hops (h : Hops (raw.toList.splitOn '/')) : read raw = ⟨"", raw⟩ := by
  rw [← segments_eq_splitOn, ← rest_eq_nil_iff] at h
  unfold read
  generalize leadingHops (segments raw.toList) = cut at h
  obtain ⟨hops, base⟩ := cut
  obtain rfl : base = [] := h
  rfl

example : read "transfer/channel-5" = ⟨"", "transfer/channel-5"⟩ := by decide

theorem read_eq (hparts : raw.toList.splitOn '/' = hops ++ base) (hhops : Hops hops)
    (hbare : leadingHops base = ([], base)) (hbase : base ≠ []) :
    read raw = ⟨String.ofList (joined hops), String.ofList (joined base)⟩ := by
  have hcut : leadingHops (segments raw.toList) = (hops, base) := by
    rw [segments_eq_splitOn]
    exact leadingHops_eq hparts hhops hbare
  unfold read
  rw [hcut]
  cases base with
  | nil => exact absurd rfl hbase
  | cons part rest => rfl

/-- Unless there is nothing but hops, something without hops in front of it follows them. -/
theorem exists_cut (h : ¬ Hops (raw.toList.splitOn '/')) :
    ∃ hops base, raw.toList.splitOn '/' = hops ++ base ∧ Hops hops ∧
      leadingHops base = ([], base) ∧ base ≠ [] :=
  ⟨_, _, (append_leadingHops _).symm, hops_leadingHops _, leadingHops_rest _,
    mt rest_eq_nil_iff.1 h⟩

/-- The parts written one after the other are what they were cut from. -/
theorem eq_joined (hparts : raw.toList.splitOn '/' = parts) :
    raw = String.ofList (joined parts) := by
  rw [← hparts, ← segments_eq_splitOn, joined_segments, String.ofList_toList]

theorem written_back (raw : String) : raw =
    if (read raw).path = "" then (read raw).baseDenom
    else (read raw).path ++ "/" ++ (read raw).baseDenom := by
  by_cases h : Hops (raw.toList.splitOn '/')
  · rw [read_of_hops h]
    rfl
  · obtain ⟨hops, base, hparts, hhops, hbare, hbase⟩ := exists_cut h
    rw [read_eq hparts hhops hbare hbase]
    by_cases hnone : hops = []
    · subst hnone
      exact eq_joined hparts
    · rw [if_neg (ofList_joined_ne_empty hhops hnone), eq_joined hparts, joined_append hnone hbase]
      simp [← String.toList_inj]

/-- There are no hops left in the base. -/
theorem read_baseDenom (raw : String) : read (read raw).baseDenom = ⟨"", (read raw).baseDenom⟩ := by
  by_cases h : Hops (raw.toList.splitOn '/')
  · rw [read_of_hops h]
    exact read_of_hops h
  · obtain ⟨hops, base, hparts, hhops, hbare, hbase⟩ := exists_cut h
    rw [read_eq hparts hhops hbare hbase]
    have hslashes : ∀ part ∈ base, '/' ∉ part := by
      intro part hpart
      have hmem : part ∈ segments raw.toList := by
        rw [segments_eq_splitOn, hparts]
        exact List.mem_append_right hops hpart
      exact slash_not_mem_of_mem_segments hmem
    have hback : (String.ofList (joined base)).toList.splitOn '/' = [] ++ base := by
      rw [String.toList_ofList]
      exact List.splitOn_intercalate '/' hslashes hbase
    exact read_eq hback .nil hbare hbase

theorem read_hop {port channel : String} (hport : port ≠ "") (hslash : '/' ∉ port.toList)
    (hchannel : ChannelId channel.toList) (h : ¬ Hops (raw.toList.splitOn '/')) :
    read (port ++ "/" ++ channel ++ "/" ++ raw) =
      ⟨if (read raw).path = "" then port ++ "/" ++ channel
        else port ++ "/" ++ channel ++ "/" ++ (read raw).path, (read raw).baseDenom⟩ := by
  obtain ⟨hops, base, hparts, hhops, hbare, hbase⟩ := exists_cut h
  have hfront : (port ++ "/" ++ channel ++ "/" ++ raw).toList.splitOn '/' =
      (port.toList :: channel.toList :: hops) ++ base := by
    have htext : (port ++ "/" ++ channel ++ "/" ++ raw).toList =
        port.toList ++ '/' :: (channel.toList ++ '/' :: raw.toList) := by
      simp
    rw [htext, List.splitOn_append_cons_self_of_not_mem hslash,
      List.splitOn_append_cons_self_of_not_mem (slash_not_mem_channelId hchannel), hparts]
    rfl
  have hne : port.toList ≠ [] := mt String.toList_eq_nil_iff.1 hport
  rw [read_eq hparts hhops hbare hbase, read_eq hfront (.cons hne hchannel hhops) hbare hbase]
  by_cases hnone : hops = []
  · subst hnone
    simp [joined, ← String.toList_inj]
  · rw [if_neg (ofList_joined_ne_empty hhops hnone), joined_cons _ (List.cons_ne_nil _ _),
      joined_cons _ hnone]
    simp [← String.toList_inj]

/-- A trace loses nothing of what it was read from. Its path is the longest sequence of hops that
the parts begin with, unless they are nothing but hops: then the whole is native. The base is native
as well, and a hop put in front is put in front of the path. -/
theorem longest_path_split_off (raw : String) :
    let parts := raw.toList.splitOn '/'
    let t := read raw
    (raw = if t.path = "" then t.baseDenom else t.path ++ "/" ++ t.baseDenom) ∧
    (Hops parts → t.isNative ∧ t.baseDenom = raw) ∧
    (¬ Hops parts → ∃ hops base, parts = hops ++ base ∧ Hops hops ∧
      (∀ longer, longer <+: parts → Hops longer → longer <+: hops) ∧
      t.path = String.ofList (['/'].intercalate hops) ∧
      t.baseDenom = String.ofList (['/'].intercalate base)) ∧
    ((read t.baseDenom).isNative ∧ (read t.baseDenom).baseDenom = t.baseDenom) ∧
    ∀ port channel : String, port ≠ "" → '/' ∉ port.toList → ChannelId channel.toList →
      ¬ Hops parts →
      (read (port ++ "/" ++ channel ++ "/" ++ raw)).baseDenom = t.baseDenom ∧
      (read (port ++ "/" ++ channel ++ "/" ++ raw)).path =
        if t.path = "" then port ++ "/" ++ channel
        else port ++ "/" ++ channel ++ "/" ++ t.path := by
  intro parts t
  refine ⟨written_back raw, ?_, ?_, ?_, ?_⟩
  · intro h
    have hread : t = ⟨"", raw⟩ := read_of_hops h
    rw [hread]
    exact ⟨rfl, rfl⟩
  · intro h
    obtain ⟨hops, base, hparts, hhops, hbare, hbase⟩ := exists_cut h
    have hread : t = ⟨_, _⟩ := read_eq hparts hhops hbare hbase
    refine ⟨hops, base, hparts, hhops, ?_, congrArg path hread, congrArg baseDenom hread⟩
    intro longer hleads hlonger
    have hmost := prefix_leadingHops hlonger hleads
    rw [leadingHops_eq hparts hhops hbare] at hmost
    exact hmost
  · rw [read_baseDenom raw]
    exact ⟨rfl, rfl⟩
  · intro port channel hport hslash hchannel h
    rw [read_hop hport hslash hchannel h]
    exact ⟨rfl, rfl⟩

theorem longest_path_split_off_nested :
    let d := "transfer/channel-9/gamm//channel-1/"
    let t := read ("icahost" ++ "/" ++ "channel-05" ++ "/" ++ d)
    ¬ Hops (d.toList.splitOn '/') ∧ ChannelId "channel-05".toList ∧
      t.path = "icahost/channel-05/transfer/channel-9" ∧ t.baseDenom = "gamm//channel-1/" := by
  intro d t
  have hbase : ¬ Hops (d.toList.splitOn '/') := by decide +kernel
  have hchannel : ChannelId "channel-05".toList := ⟨['0', '5'], by decide, by simp, rfl⟩
  have hread : read d = ⟨"transfer/channel-9", "gamm//channel-1/"⟩ := by decide +kernel
  obtain ⟨-, -, -, -, hhop⟩ := longest_path_split_off d
  obtain ⟨hdenom, hpath⟩ := hhop "icahost" "channel-05" (by decide) (by decide) hchannel hbase
  rw [hread] at hdenom hpath
  exact ⟨hbase, hchannel, hpath, hdenom⟩

end Custody.Ibc.DenomTrace
