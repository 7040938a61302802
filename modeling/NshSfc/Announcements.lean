import NshSfc.Detection
import NshSfc.Registrations

namespace NshSfc.Announcements

open Library Library.Script Python Database OpenFlow RowMatch App Packets Controller Sent Handler
  Switch Pipeline Async Provenance Outcomes Detection Registrations

def Registering (pkt : Packet) : Prop := OFPMatch.fields matchRegistration ≤ pkt.fields

theorem registering_of_isRegistration {msg : PacketIn} (h : isRegistration msg) :
    Registering msg.packet := by
  simp only [isRegistration, Bool.decide_and, Bool.and_eq_true, decide_eq_true_eq] at h
  obtain ⟨-, hip, hdst, hport⟩ := h
  by_cases htype : msg.packet.ethType = 0x0800
  swap
  · simp [htype] at hip
  rw [if_pos htype] at hip hport
  obtain ⟨header, hheader, hip⟩ := Option.map_eq_some_iff.mp hip
  by_cases hproto : msg.packet.ipProto = some 0x11
  swap
  · simp [hproto] at hport
  rw [if_pos ⟨by simp [hheader], hproto⟩] at hport
  obtain ⟨ports, hports, hport⟩ := Option.map_eq_some_iff.mp hport
  refine fields_cons_le ?_ (fields_cons_le ?_ (fields_cons_le ?_ (fields_cons_le ?_
    (fields_cons_le ?_ (fields_nil_le _)))))
  · exact congrArg (fun s ↦ some (Value.str s)) hdst
  · exact congrArg (fun n ↦ some (Value.int n)) htype
  · exact congrArg (Option.map Value.int) hproto
  · rw [Packet.fields, hheader, ← hip]
    rfl
  · rw [Packet.fields, hports, ← hport]
    rfl

theorem Registering.ethType {pkt : Packet} (h : Registering pkt) : pkt.ethType = 0x0800 := by
  have htype : some (Value.int pkt.ethType) = some (.int 0x0800) := h .ethType _ rfl
  exact Value.int.inj (Option.some.inj htype)

def registrationInst : List Instruction := [.applyActions [], .gotoTable 2]

/-- No flow is for all registration packets, so that no delete takes their entry away. -/
def Spared (flows : List FlowRow) : Prop :=
  ∀ r ∈ flows, ∀ m, matchCommon (deriveTypes r) = .ok m →
    ¬ OFPMatch.fields m ≤ OFPMatch.fields matchRegistration

section Entry

variable {app : SfcApp} {flows : List FlowRow} {r : FlowRow} {s p : Int} {m : SwitchMod}
  {T : SwitchTable} {pkt : Packet} {md : BitVec 64} {outs : List Out}

theorem Spared.not_touches (hspared : Spared flows) (hr : r ∈ flows)
    (h : Placed app (deriveTypes r) s m) : ¬ m.Touches registrationKey := by
  intro htouches
  cases m with
  | add k i =>
    have hk : k = registrationKey := htouches
    cases h.entry <;> cases congrArg Key.priority hk
  | delete t c =>
    obtain ⟨n, hrule, -, hn⟩ := h
    cases hrule with
    | add h =>
      cases h
      cases hn
    | delete h =>
      cases h with
      | common hdp hm =>
        cases hn
        exact hspared r hr _ hm htouches.2
      | spi hdp hspi =>
        cases hn
        cases htouches.2 .nshSpi _ (matchSpi_nshSpi _)
    | install msg h =>
      obtain ⟨dp, t, p, m, a, i, g, rfl, -⟩ := InstallRule.exists_add h
      cases hn

theorem registering_passes (hT : Sound flows T) (hentry : T registrationKey = some registrationInst)
    (hreg : Registering pkt) :
    Passes T p 0 0 (.plain pkt) outs ↔ outs = [.controller 2 0 (.plain pkt)] := by
  have hselects : T.Selects 0 ((Frame.plain pkt).header p) registrationKey registrationInst := by
    refine ⟨⟨hentry, rfl, (le_header_of_inPort_none _ _ rfl).mpr hreg⟩, fun k i ha hne ↦ ?_⟩
    rcases hT.entries k i ha.entry with hk | ⟨r, -, hk⟩
    · cases hk with
      | registration => exact absurd rfl hne
      | nsh | miss0 | miss1 | miss2 | miss3 => decide
    · cases hk <;> simp [registrationKey]
  exact (passes_goto_iff hselects rfl).trans (passes_table2 hT)

end Entry

structure Honest (app : SfcApp) (db : Db) (Allowed : Int → Int → Packet → Prop) (σ : State) :
    Prop where
  base : Base app db σ
  entry : ∀ s, σ.switches.tables s registrationKey = some registrationInst
  flight : ∀ s p f, (s, p, f) ∈ σ.flight → Registering (payload f) →
    ∃ pkt, f = .plain pkt ∧ Allowed s p pkt
  pending : ∀ msg ∈ σ.pending, isRegistration msg →
    Allowed msg.datapath.id msg.inPort msg.packet ∧ msg.metadata = none

def Permitted (Allowed : Int → Int → Packet → Prop) : Event → Prop
  | .enter s p pkt => Registering pkt → Allowed s p pkt
  | _ => True

section Run

variable {app : SfcApp} {links : Links} {db : Db} {Allowed : Int → Int → Packet → Prop}
  {σ σ' : State} {e : Event} {es : List Event}

theorem Honest.start (app : SfcApp) (db : Db) (Allowed : Int → Int → Packet → Prop) :
    Honest app db Allowed (start db) where
  base := .start app db
  entry _ := defaultTable_iff.mpr .registration
  flight _ _ _ h := by cases h
  pending _ h := by cases h

theorem leaves_controller {t : ℕ} {md : BitVec 64} {f g : Frame} {n : Int} :
    ¬ Leaves [.controller t md f] n g := by
  intro h
  cases h with
  | port h | normal h => cases List.mem_singleton.mp h

/-- A frame with a registration packet inside does not leave the switch where it has entered. -/
theorem Honest.not_registering (h : Honest app db Allowed σ) {s p n : Int} {f g : Frame}
    {outs : List Out} (hmem : (s, p, f) ∈ σ.flight)
    (hp : Passes (σ.switches.tables s) p 0 0 f outs) (hleaves : Leaves outs n g) :
    ¬ Registering (payload g) := by
  intro hreg
  have hT := sound_of_base h.base s
  rcases passes_table0 hT hp with hfwd | ⟨md, rfl, -⟩
  · have hsame : payload g = payload f := hfwd.leaves hleaves
    rw [hsame] at hreg
    obtain ⟨pkt, rfl, -⟩ := h.flight s p f hmem hreg
    rw [(registering_passes hT (h.entry s) hreg).mp hp] at hleaves
    exact leaves_controller hleaves
  · exact leaves_controller hleaves

theorem Honest.reported (h : Honest app db Allowed σ) {s p : Int} {f g : Frame} {outs : List Out}
    (hmem : (s, p, f) ∈ σ.flight) (hp : Passes (σ.switches.tables s) p 0 0 f outs) {t : ℕ}
    {md : BitVec 64} (hout : .controller t md g ∈ outs) {pkt : Packet} (hseen : seen g = some pkt)
    (hreg : Registering pkt) : Allowed s p pkt ∧ md = 0 := by
  have hT := sound_of_base h.base s
  obtain rfl : g = f := by
    rcases passes_table0 hT hp with hfwd | ⟨md', rfl, -⟩
    · obtain ⟨g', -, ⟨n, heq⟩ | heq⟩ := hfwd _ hout <;> cases heq
    · cases List.mem_singleton.mp hout
      rfl
  cases g with
  | nsh => cases hseen
  | ether =>
    cases hseen
    exact absurd hreg.ethType (by simp)
  | plain pkt' =>
    cases hseen
    obtain ⟨pkt', heq, hallowed⟩ := h.flight s p _ hmem hreg
    cases heq
    rw [(registering_passes hT (h.entry s) hreg).mp hp] at hout
    cases List.mem_singleton.mp hout
    exact ⟨hallowed, rfl⟩

theorem Honest.step (hspared : Spared db.flows) (h : Honest app db Allowed σ)
    (hst : Step app links σ e σ') (he : Permitted Allowed e) : Honest app db Allowed σ' where
  base := h.base.step hst
  entry := by
    intro s
    rw [hst.kept, h.entry s]
    intro m hm
    obtain ⟨r, hr, hp⟩ := h.base.queue s m hm
    exact hspared.not_touches hr hp
  flight := by
    intro s p f hf hreg
    cases hst with
    | addFlow | deleteFlow | handle | process => exact h.flight s p f hf hreg
    | enter _ pkt =>
      rcases List.mem_cons.mp hf with heq | hf
      · cases heq
        exact ⟨pkt, rfl, he hreg⟩
      · exact h.flight s p f hf hreg
    | @forward s' p' f' before after hflight outs hp arrivals harr =>
      have hmem : (s', p', f') ∈ σ.flight := hflight ▸ List.mem_append_right _ List.mem_cons_self
      rcases List.mem_append.mp hf with hf | hf
      · refine h.flight s p f ?_ hreg
        rw [hflight]
        exact (List.mem_append.mp hf).elim (List.mem_append_left _)
          fun hf ↦ List.mem_append_right _ (List.mem_cons_of_mem _ hf)
      · obtain ⟨n, hleaves, -⟩ := harr _ hf
        exact absurd hreg (h.not_registering hmem hp hleaves)
  pending := by
    intro msg hmsg hreg
    cases hst with
    | addFlow | deleteFlow | process | enter => exact h.pending msg hmsg hreg
    | handle hpending =>
      refine h.pending msg ?_ hreg
      rw [hpending]
      exact (List.mem_append.mp hmsg).elim (List.mem_append_left _)
        fun hm ↦ List.mem_append_right _ (List.mem_cons_of_mem _ hm)
    | @forward s p f before after hflight outs hp =>
      rcases List.mem_append.mp hmsg with hmsg | hmsg
      · exact h.pending msg hmsg hreg
      have hmem : (s, p, f) ∈ σ.flight := hflight ▸ List.mem_append_right _ List.mem_cons_self
      obtain ⟨dp, hdp, hmsg⟩ := List.mem_flatMap.mp hmsg
      have hid : dp.id = s := by simpa using (List.mem_filter.mp hdp).2
      obtain ⟨out, hout, hin⟩ := List.mem_filterMap.mp hmsg
      cases out with
      | port | normal => cases hin
      | controller t md g =>
        obtain ⟨pkt, hseen, rfl⟩ := Option.map_eq_some_iff.mp hin
        have hpacket := registering_of_isRegistration hreg
        obtain ⟨hallowed, rfl⟩ := h.reported hmem hp hout hseen hpacket
        exact ⟨hid ▸ hallowed, rfl⟩

theorem Honest.run (hspared : Spared db.flows) (h : Honest app db Allowed σ)
    (hrun : Run (Step app links) σ es σ') (hes : ∀ e ∈ es, Permitted Allowed e) :
    Honest app db Allowed σ' :=
  (hrun.restrict hes).invariant _ (fun _ _ _ hτ hst ↦ hτ.step hspared hst.1 hst.2) h

/-- In a run, only allowed registrations are handled. -/
theorem handled_allowed (hspared : Spared db.flows) (hrun : Run (Step app links) (start db) es σ)
    (hes : ∀ e ∈ es, Permitted Allowed e) {msg : PacketIn} {fuel : ℕ}
    (hmem : .handle msg fuel ∈ es) (hreg : isRegistration msg) :
    Allowed msg.datapath.id msg.inPort msg.packet ∧ msg.metadata = none := by
  obtain ⟨before, after, rfl⟩ := List.append_of_mem hmem
  obtain ⟨τ, hbefore, hrest⟩ := hrun.split
  have hτ := (Honest.start app db Allowed).run hspared hbefore
    fun e he ↦ hes e (List.mem_append_left _ he)
  cases hrest with
  | cons hst _ => exact hτ.pending msg (handled_pending hst) hreg

end Run

section Rows

variable {app : SfcApp} {links : Links} {db : Db} {σ σ' : State} {e : Event} {es : List Event}

def handlings (app : SfcApp) (es : List Event) : List Handling :=
  es.filterMap fun
    | .handle msg fuel => some ⟨app, msg, fuel⟩
    | _ => none

theorem mem_handlings {r : Handling} :
    r ∈ handlings app es ↔ r.app = app ∧ .handle r.msg r.fuel ∈ es := by
  constructor
  · intro h
    obtain ⟨e, he, heq⟩ := List.mem_filterMap.mp h
    cases e with
    | handle msg fuel =>
      cases heq
      exact ⟨rfl, he⟩
    | addFlow | deleteFlow | process | enter | forward => cases heq
  · rintro ⟨rfl, h⟩
    exact List.mem_filterMap.mpr ⟨_, h, rfl⟩

theorem db_of_run (hrun : Run (Step app links) σ es σ') :
    σ'.db = handled σ.db (handlings app es) := by
  induction hrun with
  | nil σ => rfl
  | @cons σ τ υ e es hst _ ih =>
    rw [ih]
    cases hst with
    | handle _ fuel => rfl
    | addFlow | deleteFlow | process | enter | forward => rfl

theorem rows_of_handled {regs : List Handling} {row : VnfRow}
    (h : row ∈ (handled db regs).vnf) : row ∈ db.vnf ∨ ∃ r ∈ regs, ∃ info id,
      isRegistration r.msg ∧ r.msg.packet.registration = some info ∧ info.vnfId = some id ∧
        row = vnfRow r.msg info id := by
  induction regs using List.reverseRecOn with
  | nil => exact .inl h
  | append_singleton regs r ih =>
    have hold : row ∈ (handled db regs).vnf → row ∈ db.vnf ∨ ∃ r' ∈ regs ++ [r], ∃ info id,
        isRegistration r'.msg ∧ r'.msg.packet.registration = some info ∧ info.vnfId = some id ∧
          row = vnfRow r'.msg info id := by
      intro h
      exact (ih h).imp_right fun ⟨r', hr', hrow⟩ ↦ ⟨r', List.mem_append_left _ hr', hrow⟩
    rw [handled_concat] at h
    rcases handling_cases (handled db regs) r with heq | ⟨info, id, hreg, hinfo, hid, heq⟩
    · exact hold (heq ▸ h)
    · rw [heq] at h
      rcases Db.mem_insertVnf h with h | h
      · exact hold h
      · exact .inr ⟨r, List.mem_append_right _ (List.mem_singleton_self r), info, id, hreg, hinfo, hid,
          h⟩

end Rows

section Rules

variable {app : SfcApp} {links : Links} {db : Db} {Allowed : Int → Int → Packet → Prop}
  {σ σ' : State} {e : Event} {es : List Event} {at_ at' : Int → Place → Prop}

/-- An entry of switch `s` is a default entry, a detection entry, or belongs to a chain whose VNFs
are at the given places. The chain is that of a flow when a packet-in of it was handled, with the
VNFs that had been registered by then. -/
inductive PlacedEntry (db : Db) (at_ : Int → Place → Prop) (s : Int) (k : FlowKey)
    (i : List Instruction) : Prop
  | default (h : DefaultEntry k i)
  | detection (id : Int) (h : i = detectionInst id)
  | chain {db' : Db} (hdb : Earlier db db') {msg : PacketIn} {flowId : ℕ}
      (hid : msg.metadata = some flowId) {row : FlowRow} {m : OFPMatch}
      (hm : Matched db' flowId row m) {n : Message} (h : PlacedRule db' at_ PortOfNext msg row n)
      (hs : n.1.id = s) (hadd : n.2.toMod = .add k i)

theorem PlacedEntry.mono (h : ∀ v p, at_ v p → at' v p) {s : Int} {k : FlowKey} {i : List Instruction}
    (hk : PlacedEntry db at_ s k i) : PlacedEntry db at' s k i := by
  cases hk with
  | default hd => exact .default hd
  | detection id hi => exact .detection id hi
  | chain hdb hid hm hn hs hadd =>
    exact .chain hdb hid hm (hn.mono h fun _ _ _ hp ↦ hp) hs hadd

theorem located_later {db db' : Db} (h : Earlier db db') {v : Int} {p : Place} (hp : Located db v p) :
    Located db' v p := by
  obtain ⟨rows, rfl⟩ := h
  induction rows generalizing db with
  | nil => exact hp
  | cons row rows ih => exact ih (located_insertVnf hp row)

structure AtPlaces (db : Db) (σ : State) : Prop where
  earlier : Earlier db σ.db
  entries : ∀ s k i, σ.switches.Holds s k i → PlacedEntry db (Located σ.db) s k i

theorem atPlaces_start (db : Db) : AtPlaces db (start db) where
  earlier := .refl db
  entries := by
    rintro s k i (hk | hk)
    · exact .default (defaultTable_iff.mp hk)
    · cases hk

theorem AtPlaces.step (h : AtPlaces db σ) (hhonest : Honest app db Allowed σ)
    (hst : Step app links σ e σ') : AtPlaces db σ' := by
  refine ⟨h.earlier.trans hst.earlier, fun s k i hk ↦ ?_⟩
  refine PlacedEntry.mono (fun v p ↦ located_later hst.earlier) ?_
  rcases hst.holds hk with hk | ⟨n, hn, hs, hadd⟩
  · exact h.entries s k i hk
  cases e with
  | addFlow flowId =>
    obtain ⟨r, -, hrule⟩ := apiAddFlow_sent hn
    cases hrule
    exact .detection _ (Mod.add.inj hadd).2.symm
  | deleteFlow flowId =>
    obtain ⟨r, -, hrule⟩ := apiDeleteFlow_sent hn
    cases hrule <;> cases hadd
  | handle msg fuel =>
    have hn : n ∈ (packetInHandler fuel app σ.db msg).sent := hn
    obtain ⟨flowId, row, m, hid, -, -⟩ := handler_installs hn hadd
    have hreg : isRegistration msg = false := by
      by_contra hreg
      have hnone := (hhonest.pending msg (handled_pending hst) (by simpa using hreg)).2
      rw [hid] at hnone
      cases hnone
    obtain ⟨flowId, row, m, hid, hm, ⟨dp, -, rfl⟩ | hrule⟩ := handler_placed hreg hn
    · cases hadd
    · exact .chain h.earlier hid hm hrule hs hadd
  | process | enter | forward => cases hn

theorem atPlaces_of_run (hspared : Spared db.flows) (hrun : Run (Step app links) (start db) es σ)
    (hes : ∀ e ∈ es, Permitted Allowed e) : AtPlaces db σ := by
  have hboth := (hrun.restrict hes).invariant (fun τ ↦ Honest app db Allowed τ ∧ AtPlaces db τ)
    (fun _ _ _ hτ hst ↦ ⟨hτ.1.step hspared hst.1 hst.2, hτ.2.step hτ.1 hst.1⟩)
    ⟨.start app db Allowed, atPlaces_start db⟩
  exact hboth.2

end Rules

end NshSfc.Announcements
