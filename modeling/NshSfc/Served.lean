import NshSfc.Sites
import NshSfc.Iterations

namespace NshSfc.Served

open Library Library.Script Python Database OpenFlow RowMatch App Packets Controller Sent Handler
  Fuel Linked
open Sites (Site sourceMod deliveryPort)

def handOut (port : Int) : List Instruction :=
  flowInstructions [.decap, .decap, .output (.phys port)] none none

def Addresses (v : Site) (n : Message) : Prop :=
  ∃ p m i, n = (v.dp, .add 1 p m i) ∧ OFPMatch.fields m .ethDst = some (.str v.loc)

theorem addresses_add {v : Site} {dp : Datapath} {t p : ℕ} {m : OFPMatch} {i : List Instruction} :
    Addresses v (dp, .add t p m i) ↔
      dp = v.dp ∧ t = 1 ∧ OFPMatch.fields m .ethDst = some (.str v.loc) := by
  constructor
  · rintro ⟨p', m', i', heq, hm⟩
    obtain ⟨rfl, hadd⟩ := Prod.mk.inj heq
    obtain ⟨rfl, rfl, rfl, rfl⟩ := FlowMod.add.inj hadd
    exact ⟨rfl, rfl, hm⟩
  · rintro ⟨rfl, rfl, hm⟩
    exact ⟨p, m, i, rfl, hm⟩

/-- The VNFs after which the loop goes on to the next one, with the one it ends with. -/
def served (bidir : Site → Bool) (rest : List Site) : List Site :=
  (rest.takeWhile (·.id ≠ 0)).filter bidir

section Rules

variable {bidir : Site → Bool} {row : FlowRow} {spi : Int} {m : Int → OFPMatch} {ethSrc : String}
  {si : List Site → Int} {u v : Site} {last : Int} {rest : List Site} {n : Message}

def deliveryRule (spi : Int) (v : Site) (last port : Int) : Message :=
  (v.dp, .add 1 6 (matchHop v.loc spi last) (handOut port))

theorem served_cons (hzero : v.id ≠ 0) :
    served bidir (v :: rest) = if bidir v then v :: served bidir rest else served bidir rest := by
  simp [served, hzero, List.filter_cons]

theorem served_of_zero (hzero : v.id = 0) : served bidir (v :: rest) = [] := by
  simp [served, hzero]

theorem finish_delivery : deliveryRule spi u 1 u.port ∈ finishRules row spi u := .tail _ (.head _)

theorem steer_delivery : deliveryRule spi u last v.port ∈
    steerRules row spi m ethSrc u last v (si (v :: rest)) := .tail _ (.tail _ (.head _))

theorem eq_of_suffix_singleton {w : Site} {post : List Site} (h : w :: post <:+ [u]) :
    w = u ∧ post = [] := by
  rcases List.suffix_cons_iff.mp h with heq | h
  · exact List.cons.inj heq
  · simp at h

theorem exists_deliveryRule {w : Site} {post : List Site} (h : w :: post <:+ u :: served bidir rest) :
    ∃ si', deliveryRule spi w si' (deliveryPort w post) ∈
      linkRules row spi m ethSrc bidir si u last rest := by
  induction rest generalizing u last with
  | nil =>
    obtain ⟨rfl, rfl⟩ := eq_of_suffix_singleton h
    exact ⟨1, finish_delivery⟩
  | cons v rest ih =>
    rw [linkRules]
    by_cases hzero : v.id = 0
    · rw [served_of_zero hzero] at h
      obtain ⟨rfl, rfl⟩ := eq_of_suffix_singleton h
      rw [if_pos hzero]
      exact ⟨1, finish_delivery⟩
    rw [if_neg hzero]
    rw [served_cons hzero] at h
    by_cases hb : bidir v
    · rw [if_pos hb] at h ⊢
      rcases List.suffix_cons_iff.mp h with heq | h
      · obtain ⟨rfl, rfl⟩ := List.cons.inj heq
        exact ⟨last, List.mem_append_left _ steer_delivery⟩
      · exact (ih h).imp fun _ hmem ↦ List.mem_append_right _ hmem
    · rw [if_neg hb] at h ⊢
      exact ih h

theorem deliveryRule_of_finish (hn : n ∈ finishRules row spi u) (hv : Addresses v n) :
    u.dp = v.dp ∧ u.loc = v.loc ∧ n = deliveryRule spi u 1 u.port := by
  simp only [finishRules, List.mem_cons, List.not_mem_nil, or_false] at hn
  rcases hn with rfl | rfl
  · obtain ⟨-, -, hdst⟩ := addresses_add.mp hv
    cases hdst
  · obtain ⟨hdp, -, hdst⟩ := addresses_add.mp hv
    exact ⟨hdp, by simpa using hdst, rfl⟩

theorem deliveryRule_of_steer {w : Site} {current : Int}
    (hn : n ∈ steerRules row spi m ethSrc u last w current) (hv : Addresses v n) :
    u.dp = v.dp ∧ u.loc = v.loc ∧ n = deliveryRule spi u last w.port := by
  simp only [steerRules, List.mem_cons, List.not_mem_nil, or_false] at hn
  rcases hn with rfl | rfl | rfl
  · obtain ⟨-, -, hdst⟩ := addresses_add.mp hv
    cases hdst
  · obtain ⟨-, htable, -⟩ := addresses_add.mp hv
    cases htable
  · obtain ⟨hdp, -, hdst⟩ := addresses_add.mp hv
    exact ⟨hdp, by simpa using hdst, rfl⟩

theorem deliveryRule_of_mem (hn : n ∈ linkRules row spi m ethSrc bidir si u last rest)
    (hv : Addresses v n) : ∃ w post si', w :: post <:+ u :: served bidir rest ∧
      w.dp = v.dp ∧ w.loc = v.loc ∧ n = deliveryRule spi w si' (deliveryPort w post) := by
  induction rest generalizing u last with
  | nil =>
    obtain ⟨hdp, hloc, hn⟩ := deliveryRule_of_finish hn hv
    exact ⟨u, [], 1, List.suffix_refl _, hdp, hloc, hn⟩
  | cons w rest ih =>
    rw [linkRules] at hn
    by_cases hzero : w.id = 0
    · rw [if_pos hzero] at hn
      obtain ⟨hdp, hloc, hn⟩ := deliveryRule_of_finish hn hv
      rw [served_of_zero hzero]
      exact ⟨u, [], 1, List.suffix_refl _, hdp, hloc, hn⟩
    rw [if_neg hzero] at hn
    rw [served_cons hzero]
    by_cases hb : bidir w
    · rw [if_pos hb] at hn ⊢
      rcases List.mem_append.mp hn with hn | hn
      · obtain ⟨hdp, hloc, hn⟩ := deliveryRule_of_steer hn hv
        exact ⟨u, w :: served bidir rest, last, List.suffix_refl _, hdp, hloc, hn⟩
      · obtain ⟨x, post, si', hsuf, hx⟩ := ih hn
        exact ⟨x, post, si', hsuf.trans (List.suffix_cons _ _), hx⟩
    · rw [if_neg hb] at hn ⊢
      exact ih hn

end Rules

theorem deliveryRule_addresses (spi : Int) (w : Site) (si port : Int) :
    Addresses w (deliveryRule spi w si port) := addresses_add.mpr ⟨rfl, rfl, matchHop_ethDst ..⟩

/-- The delivery rules among the messages are those for the VNFs of `chain`. -/
structure Delivers (spi : Int) (chain : List Site) (sent : List Message) : Prop where
  rule : ∀ w post, w :: post <:+ chain →
    ∃ si, deliveryRule spi w si (deliveryPort w post) ∈ sent
  only : ∀ n ∈ sent, ∀ v, Addresses v n → ∃ w post si, w :: post <:+ chain ∧ w.dp = v.dp ∧
    w.loc = v.loc ∧ n = deliveryRule spi w si (deliveryPort w post)

section Handler

variable {app : SfcApp} {db : Db} {spi : Int} {si : List Site → Int} {vs : List Site} {flowId : ℕ}
  {row : FlowRow} {msg : PacketIn} {c : OFPMatch}

theorem handler_delivers {u : Site} {rest : List Site} (h : Listed db spi si (u :: rest))
    (hknown : ∀ v ∈ u :: rest, Known db v) (hconn : ∀ v ∈ u :: rest, v.dp ∈ app.datapaths)
    (hb : bidirectional db u) (hof : OfFlow app flowId msg) (hc : Matched db flowId row c)
    (hspi : row.serviceId = some spi) : ∃ r, Handles app db msg r ∧ r.result = .ok db ∧
      Delivers spi (u :: served (bidirectional db) rest) r.sent := by
  obtain ⟨m, hm⟩ := exists_middle hc.common
  obtain ⟨entry, hentry⟩ := hc.exists_entry msg.inPort
  have hrun := handler_eq h hknown hconn hb hof hc hspi hm hentry (Nat.lt_succ_self rest.length)
  refine ⟨_, ⟨_, hrun, by simp [Ends]⟩, rfl, ?_, ?_⟩
  · intro w post hsuf
    obtain ⟨si', hmem⟩ := exists_deliveryRule hsuf
    exact ⟨si', List.mem_append_right _ (List.mem_cons_of_mem _ hmem)⟩
  · intro n hn v hv
    obtain ⟨p, m', i, rfl, -⟩ := id hv
    rcases List.mem_cons.mp (mem_of_add hn rfl) with hsource | hn
    · cases (Prod.mk.inj hsource).2
    · exact deliveryRule_of_mem hn hv

theorem orbit_none (h : Listed db spi si vs) {x : Site} {rest : List Site} (hsuf : x :: rest <:+ vs)
    {n : ℕ} (hn : rest.length < n) : orbit (Iterations.nextVnf app db (some spi)) x.id n = none := by
  induction rest generalizing x n with
  | nil =>
    cases n with
    | zero => omega
    | succ n =>
      refine orbit_succ_of_none (Option.eq_none_iff_forall_ne_some.mpr fun y hy ↦ ?_) n
      obtain ⟨-, hnext, -⟩ := Iterations.nextVnf_eq_some.mp hy
      cases (h.next hsuf).symm.trans hnext
  | cons v rest ih =>
    cases n with
    | zero => omega
    | succ n =>
      cases hy : Iterations.nextVnf app db (some spi) x.id with
      | none => exact orbit_succ_of_none hy n
      | some y =>
        obtain ⟨-, hnext, -⟩ := Iterations.nextVnf_eq_some.mp hy
        obtain rfl : v.id = y := by simpa using (h.next hsuf).symm.trans hnext
        rw [orbit_succ_of_some hy]
        exact ih ((List.suffix_cons x _).trans hsuf) (by simpa using hn)

theorem handles (h : Listed db spi si vs) (hof : OfFlow app flowId msg) (hrow : RowOf db flowId row)
    (hspi : row.serviceId = some spi) : ∃ r, Handles app db msg r := by
  refine ⟨_, vs.length, rfl, (Iterations.handler_ends_iff hof hrow vs.length).mpr fun v hv ↦ ?_⟩
  have hfirst := hv.first
  rw [hspi] at hfirst ⊢
  cases vs with
  | nil =>
    have hrows : db.serviceRows (some spi) = [] := List.perm_nil.mp h.rows
    simp [Db.selectFirstVnfId, hrows] at hfirst
  | cons u rest =>
    obtain rfl : u.id = v := Option.some.inj (h.first.symm.trans hfirst)
    exact orbit_none h (List.suffix_refl _) (Nat.lt_succ_self _)

end Handler

end NshSfc.Served
