import NshSfc.Library.Channels
import NshSfc.Operations
import NshSfc.Pipeline
import NshSfc.Switch

namespace NshSfc.Async

open Library Library.Script Python Database OpenFlow RowMatch App Packets Controller Sent Handler
  Switch Operations Pipeline

def payload : Frame → Packet
  | .plain pkt => pkt
  | .nsh _ _ f => payload f
  | .ether _ _ _ _ f => payload f

def seen : Frame → Option Packet
  | .plain pkt => some pkt
  | .nsh _ _ _ => none
  | .ether dst src _ _ _ => some
    { ethSrc := src, ethDst := dst, ethType := 0x894F, ipv4 := none, ipProto := none, tcp := none,
      udp := none, ipv6 := none, registration := none, ipv4_header := by intro h; cases h }

def reported (md : BitVec 64) : Option ℕ := if md = 0 then none else some md.toNat

def packetIn (dp : Datapath) (port : Int) : Out → Option PacketIn
  | .controller t md f => (seen f).map fun pkt ↦ ⟨dp, port, t, reported md, pkt⟩
  | _ => none

def packetIns (app : SfcApp) (s port : Int) (outs : List Out) : List PacketIn :=
  (app.datapaths.filter fun dp ↦ dp.id = s).flatMap fun dp ↦ outs.filterMap (packetIn dp port)

/-- The controller, the switches with the flow-mods under way to them, the packet-ins that are not
handled yet, the frames about to enter a switch at a port, and the packets handed to hosts. -/
structure State where
  db : Db
  switches : Channels Int Field Value (List Instruction)
  pending : List PacketIn
  flight : List (Int × Int × Frame)
  handed : List (Int × Int × Packet)

def start (db : Db) : State := ⟨db, ⟨defaultNetwork, fun _ ↦ []⟩, [], [], []⟩

def State.post (σ : State) (ms : List Message) : State :=
  { σ with switches := σ.switches.post (mods ms) }

def State.process (σ : State) (s : Int) : State := { σ with switches := σ.switches.process s }

inductive Event
  | addFlow (flowId : Int)
  | deleteFlow (flowId : Int)
  | handle (msg : PacketIn) (fuel : ℕ)
  | process (s : Int)
  | enter (s port : Int) (pkt : Packet)
  | forward (s port : Int) (f : Frame)

def Event.sent (app : SfcApp) (db : Db) : Event → List Message
  | .addFlow flowId => (apiAddFlow app db flowId).sent
  | .deleteFlow flowId => (apiDeleteFlow app db flowId).sent
  | .handle msg fuel => (packetInHandler fuel app db msg).sent
  | _ => []

/-- The ports by which frames leave a switch. NORMAL forwarding may choose any. -/
inductive Leaves (outs : List Out) : Int → Frame → Prop
  | port {n : Int} {f : Frame} (h : .port n f ∈ outs) : Leaves outs n f
  | normal {f : Frame} (h : .normal f ∈ outs) (n : Int) : Leaves outs n f

/-- `links` gives the far end of the link at a port of a switch; the other ports have hosts. -/
abbrev Links := Int → Int → Option (Int × Int)

variable (app : SfcApp) (links : Links)

/-- Any switch may process its next flow-mod at any time, the controller may handle any pending
packet-in, and frames may be duplicated or lost between the switches. -/
inductive Step : State → Event → State → Prop
  | addFlow (σ : State) (flowId : Int) :
      Step σ (.addFlow flowId) (σ.post (apiAddFlow app σ.db flowId).sent)
  | deleteFlow (σ : State) (flowId : Int) :
      Step σ (.deleteFlow flowId) (σ.post (apiDeleteFlow app σ.db flowId).sent)
  | handle {σ : State} {msg : PacketIn} {before after : List PacketIn}
      (h : σ.pending = before ++ msg :: after) (fuel : ℕ) : Step σ (.handle msg fuel)
      { σ.post (packetInHandler fuel app σ.db msg).sent with
        db := committed σ.db (packetInHandler fuel app σ.db msg)
        pending := before ++ after }
  | process (σ : State) (s : Int) : Step σ (.process s) (σ.process s)
  | enter (σ : State) {s port : Int} (h : links s port = none) (pkt : Packet) :
      Step σ (.enter s port pkt) { σ with flight := (s, port, .plain pkt) :: σ.flight }
  | forward {σ : State} {s port : Int} {f : Frame} {before after : List (Int × Int × Frame)}
      (h : σ.flight = before ++ (s, port, f) :: after) {outs : List Out}
      (hp : Passes (σ.switches.tables s) port 0 0 f outs) (arrivals : List (Int × Int × Frame))
      (harr : ∀ a ∈ arrivals, ∃ n, Leaves outs n a.2.2 ∧ links s n = some (a.1, a.2.1))
      (handed : List (Int × Int × Packet))
      (hhand : ∀ a ∈ handed, a.1 = s ∧ Leaves outs a.2.1 (.plain a.2.2) ∧ links s a.2.1 = none) :
      Step σ (.forward s port f)
      { σ with
        pending := σ.pending ++ packetIns app s port outs
        flight := before ++ after ++ arrivals
        handed := σ.handed ++ handed }

variable {app : SfcApp} {links : Links} {σ σ' : State} {e : Event}

theorem Step.switches (h : Step app links σ e σ') :
    (∃ s, e = .process s ∧ σ'.switches = σ.switches.process s) ∨
      σ'.switches = σ.switches.post (mods (e.sent app σ.db)) := by
  cases h with
  | addFlow | deleteFlow | handle => exact .inr rfl
  | process s => exact .inl ⟨s, rfl, rfl⟩
  | enter | forward => exact .inr (σ.switches.post_nil).symm

theorem Step.drained (h : Step app links σ e σ') :
    σ'.switches.drained = Network.receive σ.switches.drained (e.sent app σ.db) := by
  rcases h.switches with ⟨s, rfl, hs⟩ | hs
  · rw [hs]
    exact σ.switches.drained_process s
  · rw [hs]
    exact σ.switches.drained_post _

section Frame

variable {s : Int} {k : FlowKey} {i : List Instruction} {m : SwitchMod}

theorem Step.queue (h : Step app links σ e σ') (hm : m ∈ σ'.switches.queue s) :
    m ∈ σ.switches.queue s ∨ ∃ n ∈ e.sent app σ.db, n.1.id = s ∧ n.2.toMod = m := by
  rcases h.switches with ⟨s', -, hs⟩ | hs
  · rw [hs] at hm
    exact .inl (Channels.mem_queue_of_process hm)
  · rw [hs, Channels.post_queue, List.mem_append, mem_sentTo] at hm
    exact hm.imp_right mem_mods.mp

theorem Step.tables (h : Step app links σ e σ') (hk : σ'.switches.tables s k = some i) :
    σ.switches.Holds s k i := by
  rcases h.switches with ⟨s', -, hs⟩ | hs
  · rw [hs] at hk
    exact Channels.holds_of_process (.inl hk)
  · rw [hs] at hk
    exact .inl hk

theorem Step.holds (h : Step app links σ e σ') (hk : σ'.switches.Holds s k i) :
    σ.switches.Holds s k i ∨ ∃ n ∈ e.sent app σ.db, n.1.id = s ∧ n.2.toMod = .add k i := by
  rcases hk with hk | hk
  · exact .inl (h.tables hk)
  · exact (h.queue hk).imp_left .inr

theorem Step.kept (h : Step app links σ e σ') (hk : ∀ m ∈ σ.switches.queue s, ¬ m.Touches k) :
    σ'.switches.tables s k = σ.switches.tables s k := by
  rcases h.switches with ⟨s', -, hs⟩ | hs
  · rw [hs]
    exact Channels.tables_process_of_not_touches hk
  · rw [hs, Channels.post_tables]

end Frame

def Event.op : Event → Option Op
  | .addFlow flowId => some (.addFlow flowId)
  | .deleteFlow flowId => some (.deleteFlow flowId)
  | .handle msg fuel => some (.packetIn msg fuel)
  | _ => none

def State.settled (σ : State) : Operations.State := ⟨σ.db, σ.switches.drained⟩

/-- The switches with their queues simulate the operations that take effect at once. -/
theorem Step.refines (h : Step app links σ e σ') :
    σ'.settled = match e.op with
      | some op => Operations.step app σ.settled op
      | none => σ.settled := by
  have hd := h.drained
  cases h with
  | addFlow | deleteFlow | handle | process | enter | forward =>
    exact congrArg (Operations.State.mk _) hd

theorem Step.earlier (h : Step app links σ e σ') : Earlier σ.db σ'.db := by
  cases h with
  | handle h fuel => exact committed_earlier app σ.db _ fuel
  | addFlow | deleteFlow | process | enter | forward => exact .refl _

theorem matched_later {db db' : Db} {flowId : ℕ} {row : FlowRow} {m : OFPMatch}
    (h : Earlier db db') (hm : Matched db flowId row m) : Matched db' flowId row m :=
  hm.of_flows (h.selectFlows _)

end NshSfc.Async
