import NshSfc.Skipping
import Mathlib.Data.List.DropRight

namespace NshSfc.HandOver

open Library Library.Script Python Database OpenFlow RowMatch App Packets Controller Sent Handler
  Fuel Linked Served
open Sites (Site sourceMod)

structure Triple where
  ethDst : String
  nshSpi : Int
  nshSi : Int
deriving DecidableEq

/-- What an encapsulating entry of table 0 writes, and on which switch. Of the numbers Ryu sends the low
bytes. -/
def sending : Message → Option (Datapath × Triple)
  | (dp, .add 0 _ _ (.applyActions [.encapNsh, .setField .nshSpi (.int spi),
      .setField .nshSi (.int si), .encapEther, .setField .ethDst (.str ethDst),
      .setField .ethSrc _] :: _)) => some (dp, ⟨ethDst, nshSpi spi, nshSi si⟩)
  | _ => none

def delivery : Message → Option (Datapath × Triple)
  | (dp, .add 1 _ m _) =>
    match OFPMatch.fields m .ethDst, OFPMatch.fields m .nshSpi, OFPMatch.fields m .nshSi with
    | some (.str ethDst), some (.int spi), some (.int si) => some (dp, ⟨ethDst, spi, si⟩)
    | _, _, _ => none
  | _ => none

def toward (s : Datapath × Triple) : Datapath × String := (s.1, s.2.ethDst)

/-- The delivery rules are those of the first of the `steered` VNFs, each on its switch. The entries
that send to them are on the switch `source` and on those of the VNFs before them. What the delivery
rule of a VNF matches is what the entry that sends to it writes. -/
structure HandsOver (source : Datapath) (steered : List Site) (sent : List Message) : Prop where
  delivered : (sent.filterMap delivery).map toward <+: steered.map fun v ↦ (v.dp, v.loc)
  sender : (sent.filterMap sending).map toward <+:
    (source :: steered.map Site.dp).zip (steered.map Site.loc)
  triple : (sent.filterMap delivery).map Prod.snd <+: (sent.filterMap sending).map Prod.snd

section Rules

variable (row : FlowRow) (spi : Int) (m : Int → OFPMatch) (ethSrc : String)

theorem sending_source (msg : PacketIn) (entry : OFPMatch) (len : ℕ) (loc : String) :
    sending (sourceMod msg spi entry len loc) = some (msg.datapath, ⟨loc, nshSpi spi, nshSi len⟩) :=
  rfl

theorem delivery_source (msg : PacketIn) (entry : OFPMatch) (len : ℕ) (loc : String) :
    delivery (sourceMod msg spi entry len loc) = none := rfl

theorem sending_finish (u : Site) : (finishRules row spi u).filterMap sending = [] := rfl

theorem delivery_finish (u : Site) :
    (finishRules row spi u).filterMap delivery = [(u.dp, ⟨u.loc, nshSpi spi, 1⟩)] := rfl

theorem sending_steer (u : Site) (last : Int) (v : Site) (current : Int) :
    (steerRules row spi m ethSrc u last v current).filterMap sending =
      [(u.dp, ⟨v.loc, nshSpi spi, nshSi current⟩)] := rfl

theorem delivery_steer (u : Site) (last : Int) (v : Site) (current : Int) :
    (steerRules row spi m ethSrc u last v current).filterMap delivery =
      [(u.dp, ⟨u.loc, nshSpi spi, nshSi last⟩)] := rfl

def Agrees (spi : Int) (u : Site) (last : Int) (sent : List Message) : Prop :=
  (sent.filterMap delivery).map Prod.snd <+:
    ⟨u.loc, nshSpi spi, nshSi last⟩ :: (sent.filterMap sending).map Prod.snd

theorem agrees_nil (u : Site) (last : Int) : Agrees spi u last [] := List.nil_prefix

theorem agrees_finish (u : Site) (last : Int) :
    Agrees spi u last (finishRules row spi u) ↔ nshSi last = 1 := by
  rw [Agrees, delivery_finish, sending_finish]
  simp [eq_comm]

theorem agrees_steer (u : Site) (last : Int) (v : Site) (current : Int) (sent : List Message) :
    Agrees spi u last (steerRules row spi m ethSrc u last v current ++ sent) ↔
      Agrees spi v current sent := by
  rw [Agrees, Agrees, List.filterMap_append, List.filterMap_append, delivery_steer, sending_steer]
  exact List.cons_prefix_cons.trans (and_iff_right rfl)

end Rules

section Loop

variable {row : FlowRow} {spi : Int} {m : Int → OFPMatch} {ethSrc : String}
  {conn bidir : Site → Bool} {si : List Site → Int}

def lastIndex (bidir : Site → Bool) (si : List Site → Int) (last : Int) : List Site → Int
  | [] => last
  | v :: rest =>
    if v.id = 0 then last
    else if bidir v then lastIndex bidir si (si (v :: rest)) rest
    else lastIndex bidir si last rest

theorem prefix_run {β : Type} (f : Message → Option β) (expected : Site → List Site → List β)
    (hfinish : ∀ u, (finishRules row spi u).filterMap f <+: expected u [])
    (hsteer : ∀ u last v current post,
      (steerRules row spi m ethSrc u last v current).filterMap f ++ expected v post =
        expected u (v :: post))
    (u : Site) (last : Int) (rest : List Site) :
    (linkRun row spi m ethSrc conn bidir si u last rest).sent.filterMap f <+:
      expected u (served bidir rest) := by
  induction rest generalizing u last with
  | nil =>
    rw [linkRun]
    split_ifs
    · exact hfinish u
    · exact List.nil_prefix
  | cons v rest ih =>
    rw [linkRun]
    split_ifs with hc hzero hb
    · rw [served_of_zero hzero]
      exact hfinish u
    · rw [List.filterMap_append, served_cons hzero, if_pos hb, ← hsteer u last v (si (v :: rest))]
      exact (List.prefix_append_right_inj _).mpr (ih v _)
    · rw [served_cons hzero, if_neg hb]
      exact ih u last
    · exact List.nil_prefix

theorem delivered_run (u : Site) (last : Int) (rest : List Site) :
    ((linkRun row spi m ethSrc conn bidir si u last rest).sent.filterMap delivery).map toward <+:
      (u :: served bidir rest).map fun v ↦ (v.dp, v.loc) := by
  rw [List.map_filterMap]
  refine prefix_run _ (fun u post ↦ (u :: post).map fun v ↦ (v.dp, v.loc)) (fun u ↦ ?_)
    (fun u last v current post ↦ ?_) u last rest
  · exact List.prefix_rfl
  · rfl

theorem sender_run (u : Site) (last : Int) (rest : List Site) :
    ((linkRun row spi m ethSrc conn bidir si u last rest).sent.filterMap sending).map toward <+:
      ((u :: served bidir rest).map Site.dp).zip ((served bidir rest).map Site.loc) := by
  rw [List.map_filterMap]
  refine prefix_run _ (fun u post ↦ ((u :: post).map Site.dp).zip (post.map Site.loc)) (fun u ↦ ?_)
    (fun u last v current post ↦ ?_) u last rest
  · exact List.nil_prefix
  · rfl

theorem agrees_run (u : Site) (last : Int) (rest : List Site) :
    Agrees spi u last (linkRun row spi m ethSrc conn bidir si u last rest).sent ↔
      ((∀ v ∈ u :: served bidir rest, conn v) → nshSi (lastIndex bidir si last rest) = 1) := by
  induction rest generalizing u last with
  | nil =>
    rw [linkRun, lastIndex]
    split_ifs with hc
    · have hconn : ∀ v ∈ u :: served bidir [], conn v := by simpa [served] using hc
      rw [agrees_finish]
      exact ⟨fun h _ ↦ h, fun h ↦ h hconn⟩
    · exact iff_of_true (agrees_nil spi u last) fun h ↦ absurd (h u List.mem_cons_self) hc
  | cons v rest ih =>
    rw [linkRun, lastIndex]
    split_ifs with hc hzero hb
    · have hconn : ∀ w ∈ u :: served bidir (v :: rest), conn w := by
        simpa [served_of_zero hzero] using hc
      rw [agrees_finish]
      exact ⟨fun h _ ↦ h, fun h ↦ h hconn⟩
    · rw [agrees_steer, ih, served_cons hzero, if_pos hb, List.forall_mem_cons (a := u)]
      exact ⟨fun h hconn ↦ h hconn.2, fun h hconn ↦ h ⟨hc, hconn⟩⟩
    · rw [ih, served_cons hzero, if_neg hb]
    -- nothing is sent from a switch that is not connected
    all_goals exact iff_of_true (agrees_nil spi u last) fun h ↦ absurd (h u List.mem_cons_self) hc

/-- The VNFs after the first one up to the last that the loop steers to. -/
def passed (bidir : Site → Bool) (rest : List Site) : List Site :=
  (rest.takeWhile (·.id ≠ 0)).rdropWhile fun v ↦ !bidir v

def leftOver (bidir : Site → Bool) (rest : List Site) : ℕ := rest.length - (passed bidir rest).length

theorem rdropWhile_cons {α : Type} (p : α → Bool) (a : α) (l : List α) :
    (a :: l).rdropWhile p =
      if l.rdropWhile p = [] then if p a then [] else [a] else a :: l.rdropWhile p := by
  simp only [List.rdropWhile, List.reverse_cons, List.dropWhile_append, List.isEmpty_iff,
    List.reverse_eq_nil_iff]
  by_cases hl : l.reverse.dropWhile p = []
  · by_cases ha : p a <;> simp [hl, ha]
  · simp [hl]

theorem passed_of_zero {v : Site} (hzero : v.id = 0) (rest : List Site) :
    passed bidir (v :: rest) = [] := by simp [passed, hzero]

theorem passed_cons {v : Site} (hzero : v.id ≠ 0) (rest : List Site) : passed bidir (v :: rest) =
    if passed bidir rest = [] then if bidir v then [v] else [] else v :: passed bidir rest := by
  rw [passed, List.takeWhile_cons_of_pos (by simpa using hzero), rdropWhile_cons, ← passed]
  cases bidir v <;> rfl

theorem passed_length_le (rest : List Site) : (passed bidir rest).length ≤ rest.length :=
  ((List.rdropWhile_prefix _ _).length_le).trans (List.takeWhile_prefix _).length_le

theorem lastIndex_eq (last : Int) (rest : List Site) :
    lastIndex bidir (fun l ↦ l.length) last rest =
      if passed bidir rest = [] then last else leftOver bidir rest + 1 := by
  induction rest generalizing last with
  | nil => rfl
  | cons v rest ih =>
    rw [lastIndex]
    by_cases hzero : v.id = 0
    · rw [if_pos hzero, passed_of_zero hzero, if_pos rfl]
    rw [if_neg hzero, leftOver, passed_cons hzero]
    have hle : (passed bidir rest).length ≤ rest.length := passed_length_le rest
    by_cases hb : bidir v
    · rw [if_pos hb, ih, if_pos hb]
      by_cases hnil : passed bidir rest = []
      · simp [hnil]
      · simp [hnil, leftOver]
    · rw [if_neg hb, ih, if_neg hb]
      by_cases hnil : passed bidir rest = []
      · simp [hnil]
      · simp [hnil, leftOver]

theorem nshSi_lastIndex (rest : List Site) :
    nshSi (lastIndex bidir (fun l ↦ l.length) (rest.length + 1) rest) = 1 ↔
      256 ∣ leftOver bidir rest := by
  have hlast : lastIndex bidir (fun l ↦ l.length) (rest.length + 1) rest = leftOver bidir rest + 1 := by
    rw [lastIndex_eq]
    split_ifs with hnil
    · simp [leftOver, hnil]
    · rfl
  rw [hlast, nshSi]
  omega

theorem leftOver_eq_zero (rest : List Site) : leftOver bidir rest = 0 ↔
    (∀ v ∈ rest, v.id ≠ 0) ∧ ∀ v ∈ rest.getLast?, bidir v := by
  induction rest with
  | nil => simp [leftOver]
  | cons v rest ih =>
    have hle : (passed bidir rest).length ≤ rest.length := passed_length_le rest
    rw [List.forall_mem_cons]
    by_cases hzero : v.id = 0
    · rw [leftOver, passed_of_zero hzero]
      exact iff_of_false (by simp) fun h ↦ h.1.1 hzero
    rw [leftOver] at ih ⊢
    rw [passed_cons hzero]
    cases rest with
    | nil => by_cases hb : bidir v <;> simp [passed, hb, hzero]
    | cons w rest =>
      rw [List.getLast?_cons_cons, and_iff_right hzero, ← ih]
      by_cases hnil : passed bidir (w :: rest) = []
      · by_cases hb : bidir v <;> simp [hnil, hb]
      · simp [hnil]

theorem handsOver_iff_lastIndex (app : SfcApp) (c : OFPMatch) (msg : PacketIn) (entry : OFPMatch)
    (len : ℕ) (u : Site) (rest : List Site) :
    HandsOver msg.datapath (u :: served bidir rest) (deletions app c ++
      sourceMod msg spi entry len u.loc :: (linkRun row spi m ethSrc conn bidir si u len rest).sent) ↔
      ((∀ v ∈ u :: served bidir rest, conn v) → nshSi (lastIndex bidir si len rest) = 1) := by
  have hdelete : ∀ f : Message → Option (Datapath × Triple), (∀ dp, f (dp, .delete 0 c) = none) →
      (deletions app c).filterMap f = [] := by
    intro f hf
    refine List.filterMap_eq_nil_iff.mpr fun n hn ↦ ?_
    obtain ⟨dp, -, rfl⟩ := mem_deletions.mp hn
    exact hf dp
  have hdelivery : ∀ ms, (deletions app c ++ sourceMod msg spi entry len u.loc :: ms).filterMap
      delivery = ms.filterMap delivery := by
    intro ms
    rw [List.filterMap_append, hdelete delivery fun _ ↦ rfl, List.nil_append,
      List.filterMap_cons_none (delivery_source spi msg entry len u.loc)]
  have hsending : ∀ ms, (deletions app c ++ sourceMod msg spi entry len u.loc :: ms).filterMap
      sending = (msg.datapath, ⟨u.loc, nshSpi spi, nshSi len⟩) :: ms.filterMap sending := by
    intro ms
    rw [List.filterMap_append, hdelete sending fun _ ↦ rfl, List.nil_append,
      List.filterMap_cons_some (sending_source spi msg entry len u.loc)]
  rw [← agrees_run, Agrees]
  constructor
  · intro h
    have htriple := h.triple
    rwa [hdelivery, hsending] at htriple
  · intro h
    refine ⟨?_, ?_, ?_⟩
    · rw [hdelivery]
      exact delivered_run u len rest
    · rw [hsending]
      exact List.cons_prefix_cons.mpr ⟨rfl, sender_run u len rest⟩
    · rw [hdelivery, hsending]
      exact h

end Loop

section Handler

variable {app : SfcApp} {db : Db} {spi : Int} {u : Site} {rest : List Site} {flowId : ℕ}
  {row : FlowRow} {msg : PacketIn} {c : OFPMatch} {r : Ctl Db}

theorem sent_run {si : List Site → Int} (h : Listed db spi si (u :: rest))
    (hknown : ∀ v ∈ u :: rest, Known db v) (hattached : ∀ v ∈ u :: rest, Attached app v)
    (hb : bidirectional db u) (hof : OfFlow app flowId msg) (hc : Matched db flowId row c)
    (hspi : row.serviceId = some spi) (hr : Handles app db msg r) :
    ∃ m entry, r.sent = deletions app c ++ sourceMod msg spi entry (rest.length + 1) u.loc ::
      (linkRun row spi m msg.packet.ethSrc (connected app) (bidirectional db) si u (rest.length + 1)
        rest).sent := by
  obtain ⟨m, hm⟩ := exists_middle hc.common
  obtain ⟨entry, hentry⟩ := hc.exists_entry msg.inPort
  obtain ⟨fuel, rfl, hends⟩ := hr
  refine ⟨m, entry, ?_⟩
  rw [← handler_add hends (rest.length + 1), sent_eq hof hc hentry,
    install_run h hknown hattached hb hc hspi hm hentry (by omega)]

theorem handsOver_of_matched (h : Listed db spi (fun l ↦ l.length) (u :: rest))
    (hknown : ∀ v ∈ u :: rest, Known db v) (hattached : ∀ v ∈ u :: rest, Attached app v)
    (hb : bidirectional db u) (hof : OfFlow app flowId msg) (hc : Matched db flowId row c)
    (hspi : row.serviceId = some spi) (hr : Handles app db msg r) :
    HandsOver msg.datapath (u :: served (bidirectional db) rest) r.sent ↔
      ((∀ v ∈ u :: served (bidirectional db) rest, v.dp ∈ app.datapaths) →
        256 ∣ leftOver (bidirectional db) rest) := by
  obtain ⟨m, entry, hsent⟩ := sent_run h hknown hattached hb hof hc hspi hr
  have hlast : ((rest.length : Int) + 1) = (rest.length + 1 : ℕ) := rfl
  have hserved : ∀ v ∈ u :: served (bidirectional db) rest, v ∈ u :: rest := by
    intro v hv
    refine (List.mem_cons.mp hv).elim (fun h ↦ h ▸ List.mem_cons_self) fun hv ↦ ?_
    exact List.mem_cons_of_mem _ ((List.takeWhile_sublist _).subset (List.mem_filter.mp hv).1)
  rw [hsent, hlast, handsOver_iff_lastIndex, ← hlast, nshSi_lastIndex]
  refine imp_congr_left (forall₂_congr fun v hv ↦ ?_)
  exact (hattached v (hserved v hv)).connected_iff

/-- The rules agree exactly if the handler sends nothing, or stops at a switch that is not
connected, or leaves no VNF behind, or as many that the index is 1 again. -/
theorem handsOver_iff (h : Listed db spi (fun l ↦ l.length) (u :: rest))
    (hknown : ∀ v ∈ u :: rest, Known db v) (hattached : ∀ v ∈ u :: rest, Attached app v)
    (hb : bidirectional db u) (hof : OfFlow app flowId msg) (hrow : RowOf db flowId row)
    (hspi : row.serviceId = some spi) (hr : Handles app db msg r) :
    HandsOver msg.datapath (u :: served (bidirectional db) rest) r.sent ↔
      ((∃ c, Matched db flowId row c) →
        (∀ v ∈ u :: served (bidirectional db) rest, v.dp ∈ app.datapaths) →
          256 ∣ leftOver (bidirectional db) rest) := by
  by_cases hmatched : ∃ c, Matched db flowId row c
  · obtain ⟨c, hc⟩ := hmatched
    rw [handsOver_of_matched h hknown hattached hb hof hc hspi hr]
    exact ⟨fun h _ ↦ h, fun h ↦ h ⟨c, hc⟩⟩
  · have hnone : ¬ ∃ row' c, Matched db flowId row' c := by
      rintro ⟨row', c, hc⟩
      obtain rfl : row = row' := Option.some.inj (hrow.symm.trans hc.rowOf)
      exact hmatched ⟨c, hc⟩
    obtain ⟨fuel, rfl, -⟩ := hr
    rw [sent_of_not_matched hof hnone]
    exact iff_of_true ⟨List.nil_prefix, List.nil_prefix, List.nil_prefix⟩
      fun hc ↦ absurd hc hmatched

end Handler

section Demo

open Skipping

def endDb : Db where
  flows := [Demo.flow1]
  flows_id := Demo.flow1_ids
  service := [⟨6, none, 1, some 6, 2⟩, ⟨6, some 1, 6, none, 1⟩]
  vnf := skipDb.vnf

def forwarder : Site := ⟨1, "00:00:00:00:00:01", ⟨1, 0⟩, 1⟩

theorem endDb_listed : Listed endDb 6 (fun l ↦ l.length) [forwarder, firewall] where
  ids := by decide
  rows := .refl _

theorem endDb_known : ∀ v ∈ [forwarder, firewall], Known endDb v := by
  intro v hv
  have hmem : v ∈ skipChain := by
    rcases List.mem_pair.mp hv with rfl | rfl
    · exact .head _
    · exact .tail _ (.head _)
  have hknown := (skipChain_registered v hmem).known
  exact ⟨hknown.registered, hknown.locator⟩

theorem handsOver_demo : ∃ r, Handles Demo.app skipDb Demo.packetIn r ∧
    HandsOver Demo.packetIn.datapath (skipChain.head (by decide) ::
      served (bidirectional skipDb) skipChain.tail) r.sent := by
  obtain ⟨r, hr, -, -⟩ := skipChain_handled
  have hconn : ∀ v ∈ skipChain, v.dp ∈ Demo.app.datapaths := by decide
  have hiff := handsOver_iff skipChain_listed (fun v hv ↦ (skipChain_registered v hv).known)
    (fun v hv ↦ .inl (hconn v hv)) (by decide) Demo.packetIn_ofFlow skipDb_matched.rowOf rfl hr
  have hnone : leftOver (bidirectional skipDb) skipChain.tail = 0 :=
    (leftOver_eq_zero _).mpr (by decide)
  exact ⟨r, hr, hiff.mpr fun _ _ ↦ hnone ▸ Nat.dvd_zero 256⟩

/-- The source entry writes index 2 for the only VNF that is steered to, and its delivery rule
matches index 1. -/
theorem firewall_last : Listed endDb 6 (fun l ↦ l.length) [forwarder, firewall] ∧
    (∀ v ∈ [forwarder, firewall], Known endDb v ∧ v.dp ∈ Demo.app.datapaths) ∧
    bidirectional endDb forwarder ∧
    ∃ r, Handles Demo.app endDb Demo.packetIn r ∧
      ¬ HandsOver Demo.packetIn.datapath (forwarder :: served (bidirectional endDb) [firewall])
        r.sent := by
  have hconn : ∀ v ∈ [forwarder, firewall], v.dp ∈ Demo.app.datapaths := by decide
  have hb : bidirectional endDb forwarder := by decide
  have hmatched : Matched endDb 1 (deriveTypes Demo.flow1) Demo.flow1Match :=
    ⟨⟨rfl, Demo.flow1_common⟩, rfl⟩
  obtain ⟨r, hr⟩ := handles endDb_listed Demo.packetIn_ofFlow hmatched.rowOf rfl
  refine ⟨endDb_listed, fun v hv ↦ ⟨endDb_known v hv, hconn v hv⟩, hb, r, hr, fun hover ↦ ?_⟩
  have hclosed := (handsOver_of_matched endDb_listed endDb_known (fun v hv ↦ .inl (hconn v hv)) hb
    Demo.packetIn_ofFlow hmatched rfl hr).mp hover (by decide)
  exact absurd hclosed (by decide)

end Demo

end NshSfc.HandOver
