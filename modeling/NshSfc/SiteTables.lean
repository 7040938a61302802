import NshSfc.Keys
import NshSfc.Sites

namespace NshSfc.SiteTables

open Library Library.Script Python Database OpenFlow RowMatch App Packets Controller Sent Handler
  Keys Switch Linked Sites

/-- A packet-in activates a flow whose service is the chain `vs`. No other Ethernet type than that of
IPv4 makes sense for a flow with IPv4 addresses; only that of NSH is excluded. -/
structure Activated (fuel : ℕ) (app : SfcApp) (db : Db) (flowId : ℕ) (msg : PacketIn) (row : FlowRow)
    (c : OFPMatch) (spi : Int) (vs : List Site) : Prop where
  placed : Placed app db spi vs
  ne_nil : vs ≠ []
  ofFlow : OfFlow app flowId msg
  matched : Matched db flowId row c
  ethType : row.ethType ≠ some 0x894F
  service : row.serviceId = some spi
  fuel_le : vs.length ≤ fuel

structure Ruled (fuel : ℕ) (app : SfcApp) (db : Db) (flowId : ℕ) (msg : PacketIn) (row : FlowRow)
    (c : OFPMatch) (m : Int → OFPMatch) (entry : OFPMatch) (spi : Int) (vs : List Site) : Prop
    extends Activated fuel app db flowId msg row c spi vs where
  middleMatch : ∀ p, matchMiddle (some p) row = .ok (m p)
  entryMatch : matchEntryPoint msg.inPort row = .ok entry

def steered (fuel : ℕ) (app : SfcApp) (db : Db) (flowId : ℕ) (msg : PacketIn) : Network :=
  (defaultNetwork.receive (apiAddFlow app db flowId).sent).receive
    (packetInHandler fuel app db msg).sent

theorem Activated.ruled {fuel : ℕ} {app : SfcApp} {db : Db} {flowId : ℕ} {msg : PacketIn}
    {row : FlowRow} {c : OFPMatch} {spi : Int} {vs : List Site}
    (h : Activated fuel app db flowId msg row c spi vs) :
    ∃ m entry, Ruled fuel app db flowId msg row c m entry spi vs := by
  obtain ⟨m, hm⟩ := exists_middle h.matched.common
  obtain ⟨entry, hentry⟩ := h.matched.exists_entry msg.inPort
  exact ⟨m, entry, h, hm, hentry⟩

/-- What the rules of one VNF add on its switch, given the VNFs after it. -/
inductive SiteEntry (row : FlowRow) (spi : Int) (m : Int → OFPMatch) (ethSrc : String) (v : Site) :
    List Site → FlowKey → List Instruction → Prop
  | aware (v' : Site) (rest : List Site) :
      SiteEntry row spi m ethSrc v (v' :: rest)
        ⟨1, 8, OFPMatch.fields (matchSpiSi spi (rest.length + 1))⟩
        (flowInstructions [.setField .ethDst (.str v'.loc)] (some row.id) (some 3))
  | middle (v' : Site) (rest : List Site) :
      SiteEntry row spi m ethSrc v (v' :: rest) ⟨0, 6, OFPMatch.fields (m v.port)⟩
        (flowInstructions (encapActions spi (rest.length + 1) v'.loc ethSrc) (some row.id) (some 3))
  | last : SiteEntry row spi m ethSrc v [] ⟨1, 8, OFPMatch.fields (matchSpiSi spi 0)⟩
      (flowInstructions [.decap, .decap] (some row.id) (some 3))
  | delivery (rest : List Site) :
      SiteEntry row spi m ethSrc v rest
        ⟨1, 6, OFPMatch.fields (matchHop v.loc spi (rest.length + 1))⟩
        (flowInstructions [.decap, .decap, .output (.phys (deliveryPort v rest))] (some row.id) none)

inductive Entry (row : FlowRow) (spi : Int) (m : Int → OFPMatch) (entry : OFPMatch) (msg : PacketIn)
    (vs : List Site) (s : Int) : FlowKey → List Instruction → Prop
  | default {k : FlowKey} {i : List Instruction} (h : DefaultEntry k i) :
      Entry row spi m entry msg vs s k i
  | source {v : Site} {rest : List Site} (hvs : vs = v :: rest) (hs : msg.datapath.id = s) :
      Entry row spi m entry msg vs s ⟨0, 8, OFPMatch.fields entry⟩
        (flowInstructions (encapActions spi (rest.length + 1 : ℕ) v.loc msg.packet.ethSrc) none
          (some 3))
  | hop {v : Site} {rest : List Site} (hsuf : v :: rest <:+ vs) (hs : v.dp.id = s) {k : FlowKey}
      {i : List Instruction} (h : SiteEntry row spi m msg.packet.ethSrc v rest k i) :
      Entry row spi m entry msg vs s k i

section Suffix

variable {α β : Type} {f : α → β} {l : List α}

theorem suffix_eq_of_length {l₁ l₂ : List α} (h₁ : l₁ <:+ l) (h₂ : l₂ <:+ l)
    (hlen : l₁.length = l₂.length) : l₁ = l₂ :=
  (List.suffix_of_suffix_length_le h₁ h₂ hlen.le).eq_of_length hlen

theorem suffix_cons_inj {a b : α} {as bs : List α} (ha : a :: as <:+ l) (hb : b :: bs <:+ l)
    (hlen : (as.length : Int) = bs.length) : a = b ∧ as = bs := by
  have hlen : (a :: as).length = (b :: bs).length := by simpa using hlen
  exact List.cons.inj (suffix_eq_of_length ha hb hlen)

theorem nshSi_of_suffix (hl : l.length ≤ 255) {a : α} {as : List α} (ha : a :: as <:+ l) :
    nshSi (as.length + 1) = as.length + 1 := by
  have hlen : (a :: as).length ≤ l.length := ha.length_le
  rw [List.length_cons] at hlen
  unfold nshSi
  omega

theorem suffix_unique (hl : (l.map f).Nodup) {a b : α} {as bs : List α} (ha : a :: as <:+ l)
    (hb : b :: bs <:+ l) (hab : f a = f b) : a = b ∧ as = bs := by
  have key : ∀ {a b as bs}, a :: as <:+ l → b :: bs <:+ l → f a = f b → as.length ≤ bs.length →
      a = b ∧ as = bs := by
    intro a b as bs ha hb hab hlen
    rcases List.suffix_cons_iff.mp (List.suffix_of_suffix_length_le ha hb (by simpa using hlen)) with
      heq | hsuf
    · exact List.cons.inj heq
    · have hnd : ((b :: bs).map f).Nodup := hl.sublist (hb.sublist.map f)
      have hmem : f b ∈ bs.map f := List.mem_map.mpr ⟨a, hsuf.subset List.mem_cons_self, hab⟩
      exact absurd hmem (List.nodup_cons.mp hnd).1
  rcases le_total as.length bs.length with hlen | hlen
  · exact key ha hb hab hlen
  · obtain ⟨h, h'⟩ := key hb ha hab.symm hlen
    exact ⟨h.symm, h'.symm⟩

end Suffix

section Rules

variable {row : FlowRow} {spi : Int} {m : Int → OFPMatch} {ethSrc : String} {v : Site}
  {rest : List Site} {vs : List Site} {n : Message}

theorem mem_sitesRules : n ∈ sitesRules row spi m ethSrc vs ↔
    ∃ v rest, v :: rest <:+ vs ∧ n ∈ siteRules row spi m ethSrc v rest := by
  induction vs with
  | nil => simp [sitesRules]
  | cons v vs ih =>
    simp only [sitesRules, List.mem_append, ih, List.suffix_cons_iff]
    constructor
    · rintro (hn | ⟨u, rest, hsuf, hn⟩)
      · exact ⟨v, vs, .inl rfl, hn⟩
      · exact ⟨u, rest, .inr hsuf, hn⟩
    · rintro ⟨u, rest, heq | hsuf, hn⟩
      · cases heq
        exact .inl hn
      · exact .inr ⟨u, rest, hsuf, hn⟩

theorem siteEntry_of_mem (hn : n ∈ siteRules row spi m ethSrc v rest) :
    n.1 = v.dp ∧ ∃ k i, n.2.toMod = .add k i ∧ SiteEntry row spi m ethSrc v rest k i := by
  have hdelivery : SiteEntry row spi m ethSrc v rest _ _ := .delivery rest
  cases rest with
  | nil =>
    simp only [siteRules, finishRules, List.mem_cons, List.not_mem_nil, or_false] at hn
    rcases hn with rfl | rfl
    · exact ⟨rfl, _, _, rfl, .last⟩
    · exact ⟨rfl, _, _, rfl, hdelivery⟩
  | cons v' rest =>
    simp only [siteRules, steerRules, List.mem_cons, List.not_mem_nil, or_false] at hn
    rcases hn with rfl | rfl | rfl
    · exact ⟨rfl, _, _, rfl, .aware v' rest⟩
    · exact ⟨rfl, _, _, rfl, .middle v' rest⟩
    · refine ⟨rfl, _, _, rfl, ?_⟩
      rw [List.length_cons, Nat.cast_succ, add_assoc] at hdelivery
      exact hdelivery

theorem SiteEntry.mem {k : FlowKey} {i : List Instruction}
    (h : SiteEntry row spi m ethSrc v rest k i) :
    ∃ n ∈ siteRules row spi m ethSrc v rest, n.1 = v.dp ∧ n.2.toMod = .add k i := by
  cases h with
  | aware v' rest => exact ⟨_, .head _, rfl, rfl⟩
  | middle v' rest => exact ⟨_, .tail _ (.head _), rfl, rfl⟩
  | last => exact ⟨_, .head _, rfl, rfl⟩
  | delivery rest =>
    cases rest with
    | nil => exact ⟨_, .tail _ (.head _), rfl, rfl⟩
    | cons v' rest =>
      refine ⟨_, .tail _ (.tail _ (.head _)), rfl, ?_⟩
      rw [List.length_cons, Nat.cast_succ, add_assoc]
      rfl

theorem SiteEntry.unique {k : FlowKey} {i j : List Instruction}
    (h : SiteEntry row spi m ethSrc v rest k i) (h' : SiteEntry row spi m ethSrc v rest k j) :
    i = j := by
  generalize hk : k = k' at h'
  cases h <;> cases h' <;> first | rfl | simp at hk

theorem SiteEntry.ne_source {k : FlowKey} {i : List Instruction} {f : FieldMatch}
    (h : SiteEntry row spi m ethSrc v rest k i) : k ≠ ⟨0, 8, f⟩ := by
  cases h <;> simp

end Rules

section Steering

variable (row : FlowRow) (spi : Int) (m : Int → OFPMatch) (entry : OFPMatch) (msg : PacketIn)

def steering : List Site → List Message
  | [] => []
  | v :: rest =>
    sourceMod msg spi entry (rest.length + 1) v.loc ::
      sitesRules row spi m msg.packet.ethSrc (v :: rest)

variable {row spi m entry msg}

theorem steering_cases {vs : List Site} {n : Message} (hn : n ∈ steering row spi m entry msg vs) :
    (∃ v rest, vs = v :: rest ∧ n = sourceMod msg spi entry (rest.length + 1) v.loc) ∨
    ∃ v rest, v :: rest <:+ vs ∧ n ∈ siteRules row spi m msg.packet.ethSrc v rest := by
  cases vs with
  | nil => simp [steering] at hn
  | cons v rest =>
    rcases List.mem_cons.mp hn with rfl | hn
    · exact .inl ⟨v, rest, rfl, rfl⟩
    · exact .inr (mem_sitesRules.mp hn)

end Steering

theorem given_port_inj {p q : Int} (h : given Value.int (some p) = given .int (some q)) : p = q := by
  by_cases hp : p = 0 <;> by_cases hq : q = 0 <;> simp_all [given]

section Tables

variable {app : SfcApp} {db : Db} {flowId : ℕ} {msg : PacketIn} {row : FlowRow} {c entry : OFPMatch}
  {m : Int → OFPMatch} {spi : Int} {vs : List Site} {fuel : ℕ} {s : Int} {k : FlowKey}
  {i : List Instruction}

theorem added_cases (hc : Matched db flowId row c)
    (h : defaultNetwork.receive (apiAddFlow app db flowId).sent s k = some i) :
    DefaultEntry k i ∨ (k = ⟨0, 8, OFPMatch.fields c⟩ ∧ ∃ dp ∈ app.datapaths, dp.id = s) := by
  rcases receive_eq_some h with ⟨n, hn, hs, hadd⟩ | ⟨h, -⟩
  · obtain ⟨r, hr, hrule⟩ := apiAddFlow_sent hn
    obtain rfl := rowOf_of_mem hr hc.rowOf
    cases hrule with
    | detection hdp hm hp hid =>
      obtain rfl := Except.ok.inj (hc.common.symm.trans hm)
      exact .inr ⟨(Mod.add.inj hadd).1.symm, _, hdp, hs⟩
  · exact .inl (defaultTable_iff.mp h)

namespace Ruled

theorem middle_fields (h : Ruled fuel app db flowId msg row c m entry spi vs) (p : Int) :
    OFPMatch.fields (m p) = (withoutEth (OFPMatch.fields c)).set .inPort (given .int (some p)) :=
  matchMiddle_fields h.matched.common (h.middleMatch p)

theorem entry_fields (h : Ruled fuel app db flowId msg row c m entry spi vs) :
    OFPMatch.fields entry = (OFPMatch.fields c).set .inPort (given .int (some msg.inPort)) :=
  matchEntryPoint_fields h.matched.common h.entryMatch

theorem middle_inPort (h : Ruled fuel app db flowId msg row c m entry spi vs) (p : Int) :
    OFPMatch.fields (m p) .inPort = given .int (some p) := by
  rw [h.middle_fields, Match.set_self]

theorem entry_inPort (h : Ruled fuel app db flowId msg row c m entry spi vs) :
    OFPMatch.fields entry .inPort = given .int (some msg.inPort) := by
  rw [h.entry_fields, Match.set_self]

theorem hop_unique (h : Ruled fuel app db flowId msg row c m entry spi vs) {u v : Site}
    {us rest : List Site} (hu : u :: us <:+ vs) (hv : v :: rest <:+ vs) (hs : u.dp.id = v.dp.id)
    {i j : List Instruction} (hi : SiteEntry row spi m msg.packet.ethSrc u us k i)
    (hj : SiteEntry row spi m msg.packet.ethSrc v rest k j) : u = v ∧ us = rest := by
  generalize hk : k = k' at hj
  have hindex : ∀ {x : Site} {xs : List Site}, x :: xs <:+ vs →
      nshSi (xs.length + 1) = xs.length + 1 := nshSi_of_suffix h.placed.length_le
  have hzero : nshSi 0 = 0 := rfl
  cases hi with
  | aware u' us =>
    have hu' := hindex ((List.suffix_cons u _).trans hu)
    cases hj with
    | aware v' rest =>
      have hsi := (matchSpiSi_inj (congrArg Key.fields hk)).2
      rw [hu', hindex ((List.suffix_cons v _).trans hv)] at hsi
      exact suffix_cons_inj hu hv (by simpa using hsi)
    | middle => cases congrArg Key.table hk
    | last =>
      have hsi := (matchSpiSi_inj (congrArg Key.fields hk)).2
      rw [hu', hzero] at hsi
      omega
    | delivery => cases congrArg Key.priority hk
  | middle u' us =>
    cases hj with
    | middle v' rest =>
      have hport : OFPMatch.fields (m u.port) .inPort = OFPMatch.fields (m v.port) .inPort :=
        congrFun (congrArg Key.fields hk) .inPort
      rw [h.middle_inPort, h.middle_inPort] at hport
      have hattach : u.attachment = v.attachment := Prod.ext hs (given_port_inj hport)
      exact suffix_unique h.placed.attachments hu hv hattach
    | aware => cases congrArg Key.table hk
    | last => cases congrArg Key.table hk
    | delivery => cases congrArg Key.table hk
  | last =>
    cases hj with
    | last => exact suffix_cons_inj hu hv rfl
    | middle => cases congrArg Key.table hk
    | aware v' rest =>
      have hsi := (matchSpiSi_inj (congrArg Key.fields hk)).2
      rw [hindex ((List.suffix_cons v _).trans hv), hzero] at hsi
      omega
    | delivery => cases congrArg Key.priority hk
  | delivery =>
    cases hj with
    | delivery =>
      have hsi := (matchHop_inj (congrArg Key.fields hk)).2.2
      rw [hindex hu, hindex hv] at hsi
      exact suffix_cons_inj hu hv (by simpa using hsi)
    | middle => cases congrArg Key.table hk
    | aware => cases congrArg Key.priority hk
    | last => cases congrArg Key.priority hk

theorem sent_eq (h : Ruled fuel app db flowId msg row c m entry spi vs) :
    (packetInHandler fuel app db msg).sent =
      deletions app c ++ steering row spi m entry msg vs := by
  cases vs with
  | nil => exact absurd rfl h.ne_nil
  | cons v rest =>
    rw [handler_eq h.placed h.ofFlow h.matched h.service h.middleMatch h.entryMatch h.fuel_le]
    rfl

theorem entry_of (h : Ruled fuel app db flowId msg row c m entry spi vs)
    (hk : steered fuel app db flowId msg s k = some i) : Entry row spi m entry msg vs s k i := by
  rw [steered, h.sent_eq] at hk
  rcases receive_eq_some hk with ⟨n, hn, rfl, hadd⟩ | ⟨hk, hkept⟩
  · rcases steering_cases (mem_of_add hn hadd) with ⟨v, rest, hvs, rfl⟩ | ⟨v, rest, hsuf, hn⟩
    · cases hadd
      exact .source hvs rfl
    · obtain ⟨hdp, k', i', hadd', hv⟩ := siteEntry_of_mem hn
      rw [hadd] at hadd'
      cases hadd'
      exact .hop hsuf (by rw [hdp]) hv
  · rcases added_cases h.matched hk with hdefault | ⟨rfl, dp, hdp, hs⟩
    · exact .default hdefault
    · refine absurd ⟨rfl, le_rfl⟩ (hkept (dp, .delete 0 c) ?_ hs)
      exact List.mem_append_left _ (mem_deletions.mpr ⟨dp, hdp, rfl⟩)

theorem source (h : Ruled fuel app db flowId msg row c m entry spi vs) {v : Site}
    {rest : List Site} (hvs : vs = v :: rest) :
    steered fuel app db flowId msg msg.datapath.id ⟨0, 8, OFPMatch.fields entry⟩ =
      some (flowInstructions (encapActions spi (rest.length + 1 : ℕ) v.loc msg.packet.ethSrc) none
        (some 3)) := by
  subst hvs
  rw [steered, h.sent_eq, receive_append]
  refine receive_added (n := sourceMod msg spi entry (rest.length + 1) v.loc) (.head _) rfl rfl ?_ _
  intro n hn _ ht
  have hn : n ∈ steering row spi m entry msg (v :: rest) := hn
  rcases steering_cases hn with ⟨u, us, heq, rfl⟩ | ⟨u, us, hsuf, hn⟩
  · cases heq
    rfl
  · obtain ⟨-, k', i', hadd', hu⟩ := siteEntry_of_mem hn
    rw [hadd'] at ht
    exact absurd ht hu.ne_source

theorem hop (h : Ruled fuel app db flowId msg row c m entry spi vs) {v : Site} {rest : List Site}
    (hsuf : v :: rest <:+ vs) (hv : SiteEntry row spi m msg.packet.ethSrc v rest k i) :
    steered fuel app db flowId msg v.dp.id k = some i := by
  obtain ⟨n, hn, hdp, hadd⟩ := hv.mem
  rw [steered, h.sent_eq, receive_append]
  have hmem : n ∈ steering row spi m entry msg vs := by
    cases vs with
    | nil => simp at hsuf
    | cons u us => exact .tail _ (mem_sitesRules.mpr ⟨v, rest, hsuf, hn⟩)
  refine receive_added hmem (by rw [hdp]) hadd ?_ _
  intro n' hn' hs ht
  rcases steering_cases hn' with ⟨u, us, heq, rfl⟩ | ⟨u, us, hsuf', hn'⟩
  · have hk : (⟨0, 8, OFPMatch.fields entry⟩ : FlowKey) = k := ht
    exact absurd hk.symm hv.ne_source
  · obtain ⟨hdp', k', i', hadd', hu⟩ := siteEntry_of_mem hn'
    rw [hdp'] at hs
    rw [hadd'] at ht ⊢
    obtain rfl : k' = k := ht
    obtain ⟨rfl, rfl⟩ := h.hop_unique hsuf' hsuf hs hu hv
    rw [hu.unique hv]

theorem default (h : Ruled fuel app db flowId msg row c m entry spi vs) (hk : DefaultEntry k i)
    (hreach : ¬ (k.table = 0 ∧ OFPMatch.fields c ≤ k.fields)) (s : Int) :
    steered fuel app db flowId msg s k = some i := by
  have hdefault := isDefault_of_defaultTable (defaultTable_iff.mpr hk)
  have hadded : defaultNetwork.receive (apiAddFlow app db flowId).sent s k = some i := by
    rw [← defaultTable_iff.mpr hk]
    refine receive_of_not_touches (fun n hn _ ht ↦ ?_) _
    obtain ⟨r, -, hrule⟩ := apiAddFlow_sent hn
    cases hrule with
    | detection hdp hm hp hid =>
      obtain rfl : (⟨0, 8, _⟩ : FlowKey) = k := ht
      exact (detection_keyOf hm 0).not_isDefault hdefault
  rw [steered, h.sent_eq, ← hadded]
  refine receive_of_not_touches (fun n hn _ ht ↦ ?_) _
  rcases List.mem_append.mp hn with hn | hn
  · obtain ⟨dp, -, rfl⟩ := mem_deletions.mp hn
    exact hreach ht
  · rcases steering_cases hn with ⟨u, us, heq, rfl⟩ | ⟨u, us, hsuf', hn⟩
    · obtain rfl : (⟨0, 8, _⟩ : FlowKey) = k := ht
      rcases hdefault with h | h | ⟨t, h⟩ <;> cases congrArg Key.priority h
    · obtain ⟨-, k', i', hadd', hu⟩ := siteEntry_of_mem hn
      rw [hadd'] at ht
      obtain rfl : k' = k := ht
      cases hu <;> rcases hdefault with h | h | ⟨t, h⟩ <;> cases congrArg Key.priority h

theorem common_ethType (h : Ruled fuel app db flowId msg row c m entry spi vs) :
    ∃ t, OFPMatch.fields c .ethType = some (.int t) ∧ t ≠ 0x894F := by
  obtain ⟨r, -, hrow⟩ := h.matched.head
  have hm := h.matched.common
  rw [← hrow] at hm
  obtain ⟨t, ht⟩ := matchCommon_ethType hm
  refine ⟨t, ht, fun h0 ↦ h.toActivated.ethType ?_⟩
  rw [h0] at ht
  obtain ⟨src, dst, -, -, rfl⟩ := flowMatch_ok.mp hm
  have htype : truthy ((deriveTypes r).ethType.map Value.int) = true ∧
      (deriveTypes r).ethType = some 0x894F := by
    simpa [createMatch_cons_fields, ethFields] using ht
  rw [← hrow]
  exact htype.2

theorem default_kept (h : Ruled fuel app db flowId msg row c m entry spi vs)
    (hk : DefaultEntry k i) (hk0 : k ≠ registrationKey) (s : Int) :
    steered fuel app db flowId msg s k = some i := by
  obtain ⟨t, ht, hne⟩ := h.common_ethType
  refine h.default hk ?_ s
  rintro ⟨htable, hle⟩
  have hval := hle .ethType _ ht
  cases hk with
  | registration => exact hk0 rfl
  | nsh => exact hne (by simpa [nshKey, OFPMatch.fields, OFPMatch.list, matchNsh, eq_comm] using hval)
  | miss0 => cases hval
  | _ => cases htable

end Ruled

end Tables

end NshSfc.SiteTables
