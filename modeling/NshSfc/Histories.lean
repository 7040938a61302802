import NshSfc.Bypass
import NshSfc.Commuting
import NshSfc.LastPacketIn
import NshSfc.Library.Interleaving
import NshSfc.Settling

namespace NshSfc.Histories

open Library Library.Script Python Database OpenFlow RowMatch App Packets Controller Sent Fuel
  Handler Keys Switch Async Commuting LastPacketIn

open Operations (Op)

variable {app : SfcApp} {db : Db} {r : FlowRow} {spi : Int} {n : Message} {o : Op} {ops : List Op}
  {T : Network}

def flowOf : Op → Option Int
  | .addFlow flowId => some flowId
  | .packetIn msg _ => msg.metadata.map Int.ofNat
  | .deleteFlow flowId => some flowId

/-- Every flow has a service, and no flow gets in the way of another one: the services differ in the
four bytes of an NSH path, and the matches disagree on a field. -/
structure Independent (flows : List FlowRow) : Prop where
  service : ∀ r ∈ flows, ∃ spi, r.serviceId = some spi
  services : ∀ r ∈ flows, ∀ r' ∈ flows, r ≠ r' → ∀ spi spi', r.serviceId = some spi →
    r'.serviceId = some spi' → nshSpi spi ≠ nshSpi spi'
  disagree : ∀ r ∈ flows, ∀ r' ∈ flows, r ≠ r' → ∀ m m', matchCommon (deriveTypes r) = .ok m →
    matchCommon (deriveTypes r') = .ok m' → ∃ fld ∈ steeringFields, ∃ v w,
      OFPMatch.fields m fld = some v ∧ OFPMatch.fields m' fld = some w ∧ v ≠ w

inductive FlowModOf (m : FieldMatch) (spi : Int) : SwitchMod → Prop
  | common : FlowModOf m spi (.delete 0 m)
  | service : FlowModOf m spi (.delete 0 (OFPMatch.fields (matchSpi spi)))
  | entry {k : FlowKey} (h : KeyOf m spi k) (i : List Instruction) : FlowModOf m spi (.add k i)

section Sent

theorem FlowModOf.keyOf {m : FieldMatch} {k : FlowKey} {i : List Instruction}
    (h : FlowModOf m spi (.add k i)) : KeyOf m spi k := by
  cases h with
  | entry h => exact h

theorem row_eq {r' : FlowRow} (hr : r ∈ db.flows) {id : Int} (hid : id = r.id)
    (h : r' ∈ db.selectFlows id) : r' = r := by
  rw [hid, Db.selectFlows_eq_singleton hr] at h
  exact List.mem_singleton.mp h

theorem rowOf_eq {flowId : ℕ} {row : FlowRow} (hr : r ∈ db.flows) (hid : (flowId : Int) = r.id)
    (h : RowOf db flowId row) : row = deriveTypes r := by
  rw [RowOf, hid, Db.selectFlows_eq_singleton hr] at h
  exact (Option.some.inj h).symm

theorem sent_concerns (hn : n ∈ Consumption.sent app db o) :
    ∃ r ∈ db.flows, flowOf o = some r.id := by
  cases o with
  | addFlow flowId =>
    obtain ⟨r, hr, -⟩ := apiAddFlow_sent hn
    obtain ⟨hmem, hid⟩ := Db.mem_selectFlows.mp hr
    exact ⟨r, hmem, congrArg some hid.symm⟩
  | deleteFlow flowId =>
    obtain ⟨r, hr, -⟩ := apiDeleteFlow_sent hn
    obtain ⟨hmem, hid⟩ := Db.mem_selectFlows.mp (List.mem_of_head? hr)
    exact ⟨r, hmem, congrArg some hid.symm⟩
  | packetIn msg fuel =>
    obtain ⟨flowId, row, m, hid, hm, -⟩ := handler_sends hn
    obtain ⟨r, hr, rfl⟩ := hm.head
    obtain ⟨hmem, hrid⟩ := Db.mem_selectFlows.mp (List.mem_of_head? hr)
    exact ⟨r, hmem, by rw [flowOf, hid, hrid]; rfl⟩

theorem deleteFlow_sent_of_error {flowId : Int} {row : FlowRow} {rows : List FlowRow} {e : PyError}
    (hrow : db.selectFlows flowId = row :: rows) (he : matchDel (deriveTypes row) = .error e) :
    (apiDeleteFlow app db flowId).sent = [] := by
  have hbody : ∀ dp, deleteEntries (deriveTypes row) dp = .raise (.raised e) := by
    intro dp
    rw [deleteEntries, he, py_error, raise_bind]
  have hloop : Ensures (fun _ ↦ False) (forEach (deleteEntries (deriveTypes row)) app.datapaths)
      fun _ ↦ True := .forEach fun dp _ ↦ by
    rw [hbody]
    exact .raise _
  have hall : Ensures (fun _ ↦ False) (apiDeleteFlow app db flowId) fun _ ↦ True := by
    rw [apiDeleteFlow, hrow]
    exact .bind hloop fun _ _ _ ↦ .pure trivial
  exact List.eq_nil_iff_forall_not_mem.mpr fun n hn ↦ hall.sent n hn

theorem sent_flowMods (hr : r ∈ db.flows) (hspi : r.serviceId = some spi)
    (ho : flowOf o = some r.id) (hn : n ∈ Consumption.sent app db o) :
    ∃ m, matchCommon (deriveTypes r) = .ok m ∧ FlowModOf (OFPMatch.fields m) spi n.2.toMod := by
  cases o with
  | addFlow flowId =>
    obtain ⟨r', hr', hrule⟩ := apiAddFlow_sent hn
    obtain rfl := row_eq hr (Option.some.inj ho) hr'
    cases hrule with
    | @detection dp hdp m hm => exact ⟨m, hm, .entry (detection_keyOf hm spi) _⟩
  | deleteFlow flowId =>
    obtain rfl : flowId = r.id := Option.some.inj ho
    cases hm : matchDel (deriveTypes r) with
    | error e =>
      rw [Consumption.sent, deleteFlow_sent_of_error (Db.selectFlows_eq_singleton hr) hm] at hn
      cases hn
    | ok m =>
      obtain ⟨r', hr', hrule⟩ := apiDeleteFlow_sent hn
      obtain rfl := row_eq hr rfl (List.mem_of_head? hr')
      refine ⟨m, hm, ?_⟩
      cases hrule with
      | common hdp hm' =>
        obtain rfl := Except.ok.inj (hm'.symm.trans hm)
        exact .common
      | spi hdp hspi' =>
        obtain rfl := Option.some.inj (hspi'.symm.trans hspi)
        exact .service
  | packetIn msg fuel =>
    obtain ⟨flowId, row, m, hid, hm, hrule⟩ := handler_sends hn
    rw [flowOf, hid] at ho
    obtain rfl := rowOf_eq hr (Option.some.inj ho) hm.rowOf
    refine ⟨m, hm.common, ?_⟩
    rcases hrule with ⟨dp, -, rfl⟩ | hrule
    · exact .common
    · obtain ⟨spi', k, i, hspi', hadd, hkey⟩ := InstallRule.keyOf hm.common hrule
      obtain rfl : spi' = spi := Option.some.inj (hspi'.symm.trans hspi)
      rw [hadd]
      exact .entry hkey i

end Sent

section Swap

variable {m m' : FieldMatch} {spi' : Int} {a b : SwitchMod}

structure Plain (m : FieldMatch) : Prop where
  inPort : m .inPort = none
  nshSpi : m .nshSpi = none

theorem plain_of_common {row : FlowRow} {m : OFPMatch} (h : matchCommon row = .ok m) :
    Plain (OFPMatch.fields m) := ⟨matchCommon_inPort h, matchCommon_nshSpi h⟩

theorem service_commutes_entry (hm : Plain m) {k : FlowKey} (hkey : KeyOf m spi' k)
    (i : List Instruction) :
    (Mod.delete 0 (OFPMatch.fields (matchSpi spi))).Commutes (.add k i) := by
  apply FlowTable.delete_commutes_add
  intro ⟨ht, hle⟩
  have hsome := hle .nshSpi _ (matchSpi_nshSpi spi)
  rw [hkey.nshSpi_none hm.nshSpi ht] at hsome
  cases hsome

theorem common_commutes_entry (hm : Plain m) (hclash : Match.Clash (withoutEth m) (withoutEth m'))
    {k : FlowKey} (hkey : KeyOf m' spi' k) (i : List Instruction) :
    (Mod.delete 0 m).Commutes (.add k i) := by
  apply FlowTable.delete_commutes_add
  intro ⟨ht, hle⟩
  have hle := hkey.le_of_reached hm.inPort ht hle
  exact (hclash.mono (withoutEth_le _) (withoutEth_le _)).not_le le_rfl hle

theorem FlowModOf.commutes (hm : Plain m) (hm' : Plain m')
    (hclash : Match.Clash (withoutEth m) (withoutEth m')) (hne : nshSpi spi ≠ nshSpi spi')
    (ha : FlowModOf m spi a) (hb : FlowModOf m' spi' b) : a.Commutes b := by
  cases ha with
  | common =>
    cases hb with
    | common | service => exact FlowTable.delete_commutes_delete 0 0 _ _
    | entry hkey i => exact common_commutes_entry hm hclash hkey i
  | service =>
    cases hb with
    | common | service => exact FlowTable.delete_commutes_delete 0 0 _ _
    | entry hkey i => exact service_commutes_entry hm' hkey i
  | entry hkey i =>
    cases hb with
    | common => exact (common_commutes_entry hm' hclash.symm hkey i).symm
    | service => exact (service_commutes_entry hm hkey i).symm
    | entry hkey' j =>
      apply FlowTable.add_commutes_add
      intro hk
      rcases hkey.eq_of_shared hm.inPort hm'.inPort (hk ▸ hkey') with h | h | h
      · exact hclash.ne (by rw [h])
      · exact hclash.ne h
      · exact hne h

/-- What an operation does to the tables, while no VNF is registered. -/
def effect (app : SfcApp) (db : Db) (T : Network) (o : Op) : Network :=
  T.receive (Consumption.sent app db o)

theorem Independent.swap (hind : Independent db.flows) {o o' : Op} (hne : flowOf o ≠ flowOf o') :
    Swap (effect app db) o o' := by
  intro T
  apply Fabric.deliver_comm
  intro s a b ha hb
  obtain ⟨n, hn, -, rfl⟩ := mem_mods.mp ha
  obtain ⟨n', hn', -, rfl⟩ := mem_mods.mp hb
  obtain ⟨r, hr, ho⟩ := sent_concerns hn
  obtain ⟨r', hr', ho'⟩ := sent_concerns hn'
  have hrows : r ≠ r' := by
    rintro rfl
    exact hne (ho.trans ho'.symm)
  obtain ⟨spi, hspi⟩ := hind.service r hr
  obtain ⟨spi', hspi'⟩ := hind.service r' hr'
  obtain ⟨m, hm, hmod⟩ := sent_flowMods hr hspi ho hn
  obtain ⟨m', hm', hmod'⟩ := sent_flowMods hr' hspi' ho' hn'
  obtain ⟨fld, hfld, v, w, hv, hw, hvw⟩ := hind.disagree r hr r' hr' hrows m m' hm hm'
  have hclash : Match.Clash (withoutEth (OFPMatch.fields m)) (withoutEth (OFPMatch.fields m')) :=
    ⟨fld, v, w, by rw [withoutEth_of_steering hfld, hv], by rw [withoutEth_of_steering hfld, hw],
      hvw⟩
  have hspis := hind.services r hr r' hr' hrows spi spi' hspi hspi'
  exact hmod.commutes (plain_of_common hm) (plain_of_common hm') hclash hspis hmod'

end Swap

section Absorb

def Covered (first second : List Message) : Prop :=
  ∀ n ∈ first, ∀ k, n.2.toMod.Touches k → ∃ n' ∈ second, n'.1.id = n.1.id ∧ n'.2.toMod.Touches k

theorem Covered.receive {first second : List Message} (h : Covered first second) (T : Network) :
    (T.receive first).receive second = T.receive second := by
  apply Fabric.deliver_deliver_of_covered
  intro s k m hm hk
  obtain ⟨n, hn, rfl, rfl⟩ := mem_mods.mp hm
  obtain ⟨n', hn', hid, hk'⟩ := h n hn k hk
  exact ⟨n'.2.toMod, mem_mods.mpr ⟨n', hn', hid, rfl⟩, hk'⟩

theorem Covered.refl (ms : List Message) : Covered ms ms := fun n hn _ hk ↦ ⟨n, hn, rfl, hk⟩

/-- A packet-in that reports the flow from table 2 of a connected switch, and whose chain loop
ends. -/
structure Activates (app : SfcApp) (db : Db) (r : FlowRow) (msg : PacketIn) (fuel : ℕ) : Prop where
  flow : ∃ flowId : ℕ, OfFlow app flowId msg ∧ (flowId : Int) = r.id
  ends : Ends (packetInHandler fuel app db msg)

variable {msg msg' : PacketIn} {fuel fuel' : ℕ}

theorem Activates.deletes (h : Activates app db r msg fuel) (hr : r ∈ db.flows) {m : OFPMatch}
    (hm : matchCommon (deriveTypes r) = .ok m) (hp : m.packs) {dp : Datapath}
    (hdp : dp ∈ app.datapaths) : (dp, .delete 0 m) ∈ (packetInHandler fuel app db msg).sent := by
  obtain ⟨flowId, hof, hid⟩ := h.flow
  have hrow : RowOf db flowId (deriveTypes r) := by
    rw [RowOf, hid, Db.selectFlows_eq_singleton hr]
    rfl
  have hmatched : Matched db flowId (deriveTypes r) m := ⟨⟨hrow, hm⟩, hp⟩
  obtain ⟨entry, hentry⟩ := hmatched.exists_entry msg.inPort
  rw [sent_eq hof hmatched hentry]
  exact List.mem_append_left _ (mem_deletions.mpr ⟨dp, hdp, rfl⟩)

theorem addFlow_covered {ms : List Message} (hr : r ∈ db.flows)
    (hms : ∀ m, matchCommon (deriveTypes r) = .ok m → m.packs →
      ∀ dp ∈ app.datapaths, (dp, .delete 0 m) ∈ ms) :
    Covered (apiAddFlow app db r.id).sent ms := by
  intro n hn k hk
  obtain ⟨r', hr', hrule⟩ := apiAddFlow_sent hn
  obtain rfl := row_eq hr rfl hr'
  cases hrule with
  | @detection dp hdp m hm hp =>
    obtain rfl : (⟨0, 8, OFPMatch.fields m⟩ : FlowKey) = k := hk
    exact ⟨_, hms m hm hp dp hdp, rfl, rfl, le_rfl⟩

theorem deleteFlow_deletes (hr : r ∈ db.flows) (hspi : r.serviceId = some spi) {m : OFPMatch}
    (hm : matchCommon (deriveTypes r) = .ok m) (hp : m.packs) {dp : Datapath}
    (hdp : dp ∈ app.datapaths) : (dp, .delete 0 m) ∈ (apiDeleteFlow app db r.id).sent := by
  rw [apiDeleteFlow_eq (Db.mem_selectFlows.mpr ⟨hr, rfl⟩) hm hp hspi]
  exact List.mem_flatMap.mpr ⟨dp, hdp, List.mem_cons_self⟩

theorem Activates.covered (h : Activates app db r msg fuel) (h' : Activates app db r msg' fuel') :
    Covered (packetInHandler fuel app db msg).sent (packetInHandler fuel' app db msg').sent := by
  obtain ⟨flowId, hof, hid⟩ := h.flow
  obtain ⟨flowId', hof', hid'⟩ := h'.flow
  obtain rfl : flowId = flowId' := Int.ofNat.inj (hid.trans hid'.symm)
  rw [← handler_add h.ends fuel', ← handler_add h'.ends fuel, Nat.add_comm fuel' fuel,
    handler_sent hof.notRegistration, handler_sent hof'.notRegistration]
  exact fun n hn k hk ↦ activate_covered hof hof' hn hk

/-- No entry of table 0 asks for a service path. -/
def Clear (T : Network) : Prop := ∀ s k, k.table = 0 → k.fields .nshSpi ≠ none → T s k = none

theorem clear_default : Clear defaultNetwork := by
  intro s k ht hspi
  by_contra hsome
  obtain ⟨i, hi⟩ := Option.ne_none_iff_exists'.mp hsome
  have hd : DefaultEntry k i := defaultTable_iff.mp hi
  cases hd with
  | registration | nsh | miss0 => exact hspi rfl
  | miss1 | miss2 | miss3 => cases ht

theorem Clear.effect (hservice : ∀ r ∈ db.flows, ∃ spi, r.serviceId = some spi) (h : Clear T)
    (o : Op) : Clear (effect app db T o) := by
  intro s k ht hspi
  by_contra hsome
  obtain ⟨i, hi⟩ := Option.ne_none_iff_exists'.mp hsome
  rcases receive_eq_some hi with ⟨n, hn, -, hadd⟩ | ⟨hk, -⟩
  · obtain ⟨r, hr, ho⟩ := sent_concerns hn
    obtain ⟨spi, hs⟩ := hservice r hr
    obtain ⟨m, hm, hmod⟩ := sent_flowMods hr hs ho hn
    rw [hadd] at hmod
    exact hspi (hmod.keyOf.nshSpi_none (matchCommon_nshSpi hm) ht)
  · cases (h s k ht hspi).symm.trans hk

theorem Activates.after_delete (h : Activates app db r msg fuel) (hr : r ∈ db.flows)
    (hspi : r.serviceId = some spi) (hT : Clear T) :
    effect app db (effect app db T (.deleteFlow r.id)) (.packetIn msg fuel) =
      effect app db T (.packetIn msg fuel) := by
  apply Fabric.deliver_deliver_of_absent
  intro s k a ha hk
  obtain ⟨n, hn, rfl, rfl⟩ := mem_mods.mp ha
  have hn : n ∈ (apiDeleteFlow app db r.id).sent := hn
  obtain ⟨r', hr', hrule⟩ := apiDeleteFlow_sent hn
  obtain rfl := row_eq hr rfl (List.mem_of_head? hr')
  cases hrule with
  | @common dp hdp m hm hp =>
    have hdel := h.deletes hr hm hp hdp
    exact .inl ⟨_, mem_mods.mpr ⟨_, hdel, rfl, rfl⟩, hk⟩
  | spi hdp hspi' =>
    obtain ⟨ht, hle⟩ := hk
    refine .inr ⟨hT _ k ht ?_, fun i ↦ nofun⟩
    rw [hle .nshSpi _ (matchSpi_nshSpi _)]
    exact nofun

end Absorb

section Status

/-- What is left of the history of a flow: its last packet-in, and whether it has been deleted after
that, and added after both. -/
structure Status where
  activated : Option (PacketIn × ℕ)
  deleted : Bool
  added : Bool

def Status.start : Status := ⟨none, false, false⟩

def Status.next (st : Status) : Op → Status
  | .addFlow _ => { st with added := true }
  | .packetIn msg fuel => if msg.tableId = 2 then ⟨some (msg, fuel), false, false⟩ else st
  | .deleteFlow _ => { st with deleted := true, added := false }

def Status.requests (flowId : Int) (st : Status) : List Op :=
  (if st.deleted then [.deleteFlow flowId] else []) ++ (if st.added then [.addFlow flowId] else [])

def Status.replay (flowId : Int) (st : Status) : List Op :=
  (st.activated.toList.map fun a ↦ .packetIn a.1 a.2) ++ st.requests flowId

def history (ops : List Op) : Status := ops.foldl Status.next Status.start

def status (flowId : Int) (ops : List Op) : Status := history (ops.filter (flowOf · = some flowId))

inductive Regular (app : SfcApp) (db : Db) : Op → Prop
  | addFlow (flowId : Int) : Regular app db (.addFlow flowId)
  | deleteFlow (flowId : Int) : Regular app db (.deleteFlow flowId)
  | packetIn {msg : PacketIn} {fuel : ℕ} (hdp : msg.datapath ∈ app.datapaths)
      (hreg : isRegistration msg = false) (hends : Ends (packetInHandler fuel app db msg)) :
      Regular app db (.packetIn msg fuel)

structure Concerned (app : SfcApp) (db : Db) (r : FlowRow) (o : Op) : Prop where
  flow : flowOf o = some r.id
  regular : Regular app db o

theorem history_concat (ops : List Op) (o : Op) : history (ops ++ [o]) = (history ops).next o :=
  List.foldl_append

theorem activated_mem {a : PacketIn × ℕ} (ha : (history ops).activated = some a) :
    .packetIn a.1 a.2 ∈ ops ∧ a.1.tableId = 2 := by
  induction ops using List.reverseRecOn with
  | nil => cases ha
  | append_singleton ops o ih =>
    rw [history_concat] at ha
    cases o with
    | addFlow | deleteFlow => exact (ih ha).imp_left (List.mem_append_left _)
    | packetIn msg fuel =>
      rw [Status.next] at ha
      split at ha
      · rename_i htable
        obtain rfl := Option.some.inj ha
        exact ⟨List.mem_append_right _ (List.mem_singleton_self _), htable⟩
      · exact (ih ha).imp_left (List.mem_append_left _)

theorem activated_of_history (hops : ∀ o ∈ ops, Concerned app db r o) {a : PacketIn × ℕ}
    (ha : (history ops).activated = some a) : Activates app db r a.1 a.2 := by
  obtain ⟨hmem, htable⟩ := activated_mem ha
  obtain ⟨hflow, hregular⟩ := hops _ hmem
  obtain ⟨flowId, hid, heq⟩ := Option.map_eq_some_iff.mp hflow
  cases hregular with
  | packetIn hdp hreg hends => exact ⟨⟨flowId, ⟨hdp, htable, hid, hreg⟩, heq⟩, hends⟩

theorem effect_of_other_table {msg : PacketIn} (hreg : isRegistration msg = false)
    (htable : msg.tableId ≠ 2) (fuel : ℕ) : effect app db T (.packetIn msg fuel) = T := by
  have hnil : (activate fuel app db msg).sent = [] := by
    unfold activate
    split
    · rfl
    · rw [if_neg htable]
      rfl
  rw [effect, Consumption.sent, handler_sent hreg, hnil]
  rfl

theorem foldl_requests {st : Status} {id : Int}
    (hadd : ∀ T, effect app db (effect app db T (.addFlow id)) o = effect app db T o)
    (hdelete : effect app db (effect app db T (.deleteFlow id)) o = effect app db T o) :
    effect app db ((st.requests id).foldl (effect app db) T) o = effect app db T o := by
  obtain ⟨activated, deleted, added⟩ := st
  cases added with
  | false =>
    cases deleted with
    | false => rfl
    | true => exact hdelete
  | true =>
    cases deleted with
    | false => exact hadd T
    | true => exact (hadd _).trans hdelete

theorem clear_foldl (hservice : ∀ r ∈ db.flows, ∃ spi, r.serviceId = some spi) (hT : Clear T)
    (ops : List Op) : Clear (ops.foldl (effect app db) T) := by
  induction ops generalizing T with
  | nil => exact hT
  | cons o ops ih => exact ih (hT.effect hservice o)

theorem foldl_history (hservice : ∀ r ∈ db.flows, ∃ spi, r.serviceId = some spi) (hr : r ∈ db.flows)
    (hops : ∀ o ∈ ops, Concerned app db r o) (hT : Clear T) :
    ops.foldl (effect app db) T = ((history ops).replay r.id).foldl (effect app db) T := by
  obtain ⟨spi, hspi⟩ := hservice r hr
  induction ops using List.reverseRecOn with
  | nil => rfl
  | append_singleton ops o ih =>
    have hrest : ∀ o ∈ ops, Concerned app db r o := fun o ho ↦ hops o (List.mem_append_left _ ho)
    have ho := hops o (List.mem_append_right _ (List.mem_singleton_self o))
    have hactivated : ∀ a, (history ops).activated = some a → Activates app db r a.1 a.2 :=
      fun a ha ↦ activated_of_history hrest ha
    have hnext : ∀ a, ((history ops).next o).activated = some a → Activates app db r a.1 a.2 := by
      intro a ha
      rw [← history_concat] at ha
      exact activated_of_history hops ha
    rw [List.foldl_append, List.foldl_cons, List.foldl_nil, ih hrest, history_concat]
    generalize history ops = st at hactivated hnext
    have hsplit : ∀ st : Status, (st.replay r.id).foldl (effect app db) T =
        (st.requests r.id).foldl (effect app db)
          ((st.activated.toList.map fun a ↦ .packetIn a.1 a.2).foldl (effect app db) T) :=
      fun st ↦ List.foldl_append
    rw [hsplit, hsplit]
    obtain ⟨hflow, hregular⟩ := ho
    cases hregular with
    | addFlow flowId =>
      obtain rfl : flowId = r.id := Option.some.inj hflow
      -- adding twice is adding once
      have htwice : ∀ T, effect app db (effect app db T (.addFlow r.id)) (.addFlow r.id) =
          effect app db T (.addFlow r.id) := (Covered.refl _).receive
      obtain ⟨activated, deleted, added⟩ := st
      cases added with
      | false => cases deleted <;> rfl
      | true =>
        cases deleted with
        | false => exact htwice _
        | true => exact htwice _
    | deleteFlow flowId =>
      obtain rfl : flowId = r.id := Option.some.inj hflow
      refine foldl_requests (fun T ↦ ?_) ((Covered.refl _).receive _)
      exact (addFlow_covered hr fun m hm hp dp hdp ↦ deleteFlow_deletes hr hspi hm hp hdp).receive T
    | @packetIn msg fuel hdp hreg hends =>
      by_cases htable : msg.tableId = 2
      swap
      · rw [effect_of_other_table hreg htable, Status.next, if_neg htable]
      have hactivates : Activates app db r msg fuel := by
        refine hnext (msg, fuel) ?_
        rw [Status.next, if_pos htable]
      have hadd : ∀ T, effect app db (effect app db T (.addFlow r.id)) (.packetIn msg fuel) =
          effect app db T (.packetIn msg fuel) :=
        (addFlow_covered hr fun m hm hp dp hdp ↦ hactivates.deletes hr hm hp hdp).receive
      have hclear : Clear ((st.activated.toList.map fun a ↦ .packetIn a.1 a.2).foldl
          (effect app db) T) := clear_foldl hservice hT _
      rw [foldl_requests hadd (hactivates.after_delete hr hspi hclear), Status.next, if_pos htable]
      cases hst : st.activated with
      | none => rfl
      | some a => exact ((hactivated a hst).covered hactivates).receive T

theorem foldl_statuses (hind : Independent db.flows) (hops : ∀ o ∈ ops, Regular app db o)
    (hT : Clear T) : ops.foldl (effect app db) T =
      (db.flows.flatMap fun r ↦ (status r.id ops).replay r.id).foldl (effect app db) T := by
  have hnodup : (db.flows.map fun r ↦ some r.id).Nodup := by
    have h := db.flows_id.map (f := some) (Option.some_injective Int)
    rwa [List.map_map] at h
  have hskip : ∀ o ∈ ops, flowOf o ∈ (db.flows.map fun r ↦ some r.id) ∨
      ∀ T, effect app db T o = T := by
    intro o _
    by_cases hmem : flowOf o ∈ (db.flows.map fun r ↦ some r.id)
    · exact .inl hmem
    · refine .inr fun T ↦ ?_
      have hnil : Consumption.sent app db o = [] := List.eq_nil_iff_forall_not_mem.mpr fun n hn ↦ by
        obtain ⟨r, hr, ho⟩ := sent_concerns hn
        exact hmem (List.mem_map.mpr ⟨r, hr, ho.symm⟩)
      rw [effect, hnil]
      rfl
  rw [foldl_eq_grouped hnodup hskip (fun o _ o' _ hne ↦ hind.swap hne), grouped, List.flatMap_map]
  refine foldl_flatMap_congr (fun r hr T hT ↦ ?_) (fun r _ o _ T hT ↦ hT.effect hind.service o) hT
  refine foldl_history hind.service hr (fun o ho ↦ ?_) hT
  obtain ⟨ho, hflow⟩ := List.mem_filter.mp ho
  exact ⟨by simpa using hflow, hops o ho⟩

theorem foldl_step {ops : List Op} (hops : ∀ o ∈ ops, Regular app db o) (T : Network) :
    ops.foldl (Operations.step app) ⟨db, T⟩ = ⟨db, ops.foldl (effect app db) T⟩ := by
  induction ops generalizing T with
  | nil => rfl
  | cons o ops ih =>
    obtain ⟨ho, hrest⟩ := List.forall_mem_cons.mp hops
    have hone : Operations.step app ⟨db, T⟩ o = ⟨db, effect app db T o⟩ := by
      cases ho with
      | addFlow | deleteFlow => rfl
      | @packetIn msg fuel hdp hreg hends =>
        have hdb := committed_eq hreg (⟨fuel, rfl, hends⟩ : Handles app db msg _)
        rw [Operations.step, hdb]
        rfl
    rw [List.foldl_cons, List.foldl_cons, hone, ih hrest]

theorem replay_regular (hops : ∀ o ∈ ops, Regular app db o) (flowId : Int) :
    ∀ o ∈ (status flowId ops).replay flowId, Regular app db o := by
  intro o ho
  rcases List.mem_append.mp ho with ho | ho
  · obtain ⟨a, ha, rfl⟩ := List.mem_map.mp ho
    obtain ⟨hmem, -⟩ := activated_mem (Option.mem_toList.mp ha)
    exact hops _ (List.mem_filter.mp hmem).1
  · rcases List.mem_append.mp ho with ho | ho
    · split at ho
      · obtain rfl := List.mem_singleton.mp ho
        exact .deleteFlow flowId
      · cases ho
    · split at ho
      · obtain rfl := List.mem_singleton.mp ho
        exact .addFlow flowId
      · cases ho

end Status

section Run

variable {links : Links} {σ τ : State} {es : List Event}

theorem regular_of_run (hτ : Settling.Connected app τ) (hrun : Run (Step app links) τ es σ)
    (hhandled : ∀ msg fuel, .handle msg fuel ∈ es →
      isRegistration msg = false ∧ Ends (packetInHandler fuel app db msg)) :
    ∀ o ∈ es.filterMap Event.op, Regular app db o := by
  intro o ho
  obtain ⟨e, he, hop⟩ := List.mem_filterMap.mp ho
  cases e with
  | addFlow flowId =>
    obtain rfl := Option.some.inj hop
    exact .addFlow flowId
  | deleteFlow flowId =>
    obtain rfl := Option.some.inj hop
    exact .deleteFlow flowId
  | handle msg fuel =>
    obtain rfl := Option.some.inj hop
    obtain ⟨hreg, hends⟩ := hhandled msg fuel he
    obtain ⟨before, after, rfl⟩ := List.append_of_mem he
    obtain ⟨υ, hbefore, hrest⟩ := hrun.split
    cases hrest with
    | cons hst _ =>
      have hpending := Detection.handled_pending hst
      exact .packetIn ((hτ.run hbefore).pending msg hpending) hreg hends
  | process | enter | forward => cases hop

/-- With independent flows, the tables after any run in which no VNF registers are, once the queues
are processed, those of a network where nothing has happened but, for one flow after the other, its
last packet-in, the delete after that and the add after both, as far as there were such. -/
theorem tables_of_statuses (hind : Independent db.flows)
    (hrun : Run (Step app links) (start db) es σ)
    (hhandled : ∀ msg fuel, .handle msg fuel ∈ es →
      isRegistration msg = false ∧ Ends (packetInHandler fuel app db msg)) :
    σ.settled = (db.flows.flatMap fun r ↦ (status r.id (es.filterMap Event.op)).replay r.id).foldl
      (Operations.step app) (start db).settled := by
  have hregular := regular_of_run (.start app db) hrun hhandled
  have hreplay : ∀ o ∈ db.flows.flatMap fun r ↦
      (status r.id (es.filterMap Event.op)).replay r.id, Regular app db o := by
    intro o ho
    obtain ⟨r, -, ho⟩ := List.mem_flatMap.mp ho
    exact replay_regular hregular r.id o ho
  have hstart : (start db).settled = ⟨db, defaultNetwork⟩ := rfl
  rw [Settling.settled_of_run hrun, hstart, foldl_step hregular, foldl_step hreplay,
    foldl_statuses hind hregular clear_default]

theorem demo_independent : Independent Demo.db.flows where
  service := by
    intro r hr
    have hr : r = Demo.flow1 ∨ r = Demo.flow2 := by simpa [Demo.db] using hr
    rcases hr with rfl | rfl
    · exact ⟨6, rfl⟩
    · exact ⟨7, rfl⟩
  services := by
    intro r hr r' hr' hne spi spi' hspi hspi'
    have hr : r = Demo.flow1 ∨ r = Demo.flow2 := by simpa [Demo.db] using hr
    have hr' : r' = Demo.flow1 ∨ r' = Demo.flow2 := by simpa [Demo.db] using hr'
    rcases hr with rfl | rfl <;> rcases hr' with rfl | rfl
    · exact absurd rfl hne
    · cases hspi
      cases hspi'
      decide
    · cases hspi
      cases hspi'
      decide
    · exact absurd rfl hne
  disagree := by
    intro r hr r' hr' hne m m' hm hm'
    have hr : r = Demo.flow1 ∨ r = Demo.flow2 := by simpa [Demo.db] using hr
    have hr' : r' = Demo.flow1 ∨ r' = Demo.flow2 := by simpa [Demo.db] using hr'
    rcases hr with rfl | rfl <;> rcases hr' with rfl | rfl
    · exact absurd rfl hne
    · obtain rfl := Except.ok.inj (Demo.flow1_common.symm.trans hm)
      obtain rfl := Except.ok.inj (Demo.flow2_common.symm.trans hm')
      exact ⟨.ipv4Src, by decide, .int 0x0A000004, .int 0x0A000001, by decide, by decide, by decide⟩
    · obtain rfl := Except.ok.inj (Demo.flow2_common.symm.trans hm)
      obtain rfl := Except.ok.inj (Demo.flow1_common.symm.trans hm')
      exact ⟨.ipv4Src, by decide, .int 0x0A000001, .int 0x0A000004, by decide, by decide, by decide⟩
    · exact absurd rfl hne

theorem tables_of_statuses_demo : Bypass.demoGap.settled =
    Operations.step Demo.app (start Demo.db).settled (.packetIn Demo.packetIn 2) := by
  refine tables_of_statuses demo_independent (Detection.demo_ready.trans Bypass.demo_gap) ?_
  intro msg fuel hmem
  obtain ⟨rfl, rfl⟩ : msg = Demo.packetIn ∧ fuel = 2 := by simpa using hmem
  exact ⟨by decide, ends_of_ok (rfl : _ = Except.ok Demo.db)⟩

end Run

end NshSfc.Histories
