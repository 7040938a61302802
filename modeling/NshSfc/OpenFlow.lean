import NshSfc.Library.FlowTable
import NshSfc.Python

namespace NshSfc.OpenFlow

open Library Python

inductive Field
  | inPort
  | ethSrc
  | ethDst
  | ethType
  | ipv4Src
  | ipv4Dst
  | ipProto
  | tcpSrc
  | tcpDst
  | udpSrc
  | udpDst
  | ipv6Src
  | ipv6Dst
  | nshSpi
  | nshSi
deriving DecidableEq, Repr

instance : Fintype Field where
  elems := {.inPort, .ethSrc, .ethDst, .ethType, .ipv4Src, .ipv4Dst, .ipProto, .tcpSrc, .tcpDst,
    .udpSrc, .udpDst, .ipv6Src, .ipv6Dst, .nshSpi, .nshSi}
  complete := by intro f; cases f <;> decide

/-- A field value as the application hands it to Ryu: numbers and IPv4 addresses as
integers, Ethernet and IPv6 addresses as text. -/
inductive Value
  | int (n : Int)
  | str (s : String)
deriving DecidableEq, Repr

instance : Truthy Value where
  truthy
    | .int n => truthy n
    | .str s => truthy s

@[simp] theorem truthy_valueInt (n : Int) : truthy (Value.int n) = decide (n ≠ 0) := rfl

@[simp] theorem truthy_valueStr (s : String) : truthy (Value.str s) = decide (s ≠ "") := rfl

/-- A match with its fields in order: given as keywords, which Ryu converts and sorts, or appended
one by one with `append_field`. -/
inductive OFPMatch
  | keywords (fields : List (Field × Value))
  | appended (fields : List (Field × Value))
deriving DecidableEq, Repr

abbrev FieldMatch := Match Field Value

namespace OFPMatch

def list : OFPMatch → List (Field × Value)
  | keywords fields => fields
  | appended fields => fields

def fields (m : OFPMatch) : FieldMatch := fun f ↦ m.list.lookup f

end OFPMatch

theorem fields_nil_le (n : FieldMatch) : OFPMatch.fields (.keywords []) ≤ n := by
  intro g w hw
  cases hw

theorem fields_cons_le {f : Field} {v : Value} {l : List (Field × Value)} {n : FieldMatch}
    (hf : n f = some v) (hl : OFPMatch.fields (.keywords l) ≤ n) :
    OFPMatch.fields (.keywords ((f, v) :: l)) ≤ n := by
  intro g w hw
  by_cases hg : g = f
  · subst hg
    rw [hf, ← hw]
    simp [OFPMatch.fields, OFPMatch.list]
  · have hb : (g == f) = false := by simpa using hg
    refine hl g w ?_
    simpa [OFPMatch.fields, OFPMatch.list, List.lookup_cons, hb] using hw

-- Ryu keeps the low bytes of a number that is given as a keyword: 4 for `nsh_spi`, 1 for `nsh_si`
def nshSpi (n : Int) : Int := n % 0x100000000

def nshSi (n : Int) : Int := n % 0x100

def Field.limit : Field → Int
  | .ipProto => 0x100
  | .ethType | .tcpSrc | .tcpDst | .udpSrc | .udpDst => 0x10000
  | _ => 0x100000000

/-- An appended field can be packed. A text cannot, whatever the field; the number of a port comes
from an OpenFlow message and fits. -/
def Field.packs (f : Field) : Value → Bool
  | .int n => f = .inPort ∨ (0 ≤ n ∧ n < f.limit)
  | .str _ => false

def OFPMatch.packs : OFPMatch → Bool
  | .keywords _ => true
  | .appended fields => fields.all fun a ↦ a.1.packs a.2

/-- `create_match`: fields without a truthy value are left out. -/
def createMatch (fields : List (Field × Option Value)) : OFPMatch :=
  .appended (fields.filterMap fun a ↦ match a.2 with
    | some v => if truthy v then some (a.1, v) else none
    | none => none)

inductive Port
  | phys (n : Int)
  | controller
  | normal
deriving DecidableEq, Repr

inductive Action
  | output (p : Port)
  | setField (f : Field) (v : Value)
  | encapNsh
  | encapEther
  | decap
deriving DecidableEq, Repr

inductive Instruction
  | applyActions (actions : List Action)
  | writeMetadata (metadata : Int) (mask : ℕ)
  | gotoTable (table : ℕ)
deriving DecidableEq, Repr

inductive FlowMod
  | add (tableId priority : ℕ) (fields : OFPMatch) (instructions : List Instruction)
  | delete (tableId : ℕ) (fields : OFPMatch)
deriving DecidableEq, Repr

-- a flow id of SQLite has 64 bits with a sign, the metadata have 64 without
def Instruction.packs : Instruction → Bool
  | .writeMetadata metadata _ => 0 ≤ metadata
  | _ => true

def FlowMod.packs : FlowMod → Bool
  | .add _ _ m is => m.packs && is.all Instruction.packs
  | .delete _ m => m.packs

abbrev FlowKey := Key Field Value

abbrev SwitchMod := Mod Field Value (List Instruction)

abbrev SwitchTable := FlowTable Field Value (List Instruction)

def FlowMod.toMod : FlowMod → SwitchMod
  | .add t p m is => .add ⟨t, p, OFPMatch.fields m⟩ is
  | .delete t m => .delete t (OFPMatch.fields m)

def flowInstructions (actions : List Action) (metadata : Option Int) (gotoId : Option ℕ) :
    List Instruction :=
  match gotoId with
  | some (t + 1) =>
    [.applyActions actions] ++
      (if truthy metadata then (metadata.map (.writeMetadata · 0xffffffff)).toList else []) ++
      [.gotoTable (t + 1)]
  | _ => [.applyActions actions]

theorem flowInstructions_packs (actions : List Action) {metadata : Option Int}
    (h : ∀ n ∈ metadata, 0 ≤ n) (gotoId : Option ℕ) :
    (flowInstructions actions metadata gotoId).all Instruction.packs := by
  have hwrite : (metadata.map (.writeMetadata · 0xffffffff)).toList.all Instruction.packs := by
    cases metadata with
    | none => rfl
    | some n => simpa [Instruction.packs] using h n rfl
  unfold flowInstructions
  split
  · split <;> simp_all [Instruction.packs]
  · rfl

theorem flowInstructions_packs_congr (a b : List Action) (metadata : Option Int) (gotoId : Option ℕ) :
    (flowInstructions a metadata gotoId).all Instruction.packs =
      (flowInstructions b metadata gotoId).all Instruction.packs := by
  rcases gotoId with _ | _ | t <;> simp [flowInstructions, Instruction.packs]

theorem flowInstructions_actions_inj {a b : List Action} {i j : Option Int} {g g' : Option ℕ}
    (h : flowInstructions a i g = flowInstructions b j g') : a = b := by
  have hhead : ∀ a i g, (flowInstructions a i g).head? = some (.applyActions a) := by
    intro a i g
    rcases g with _ | _ | g <;> simp [flowInstructions]
  have := (hhead a i g).symm.trans (h ▸ hhead b j g')
  simpa using this

theorem flowInstructions_metadata_inj {a b : List Action} {i j : Int} {t t' : ℕ}
    (h : flowInstructions a (some i) (some (t + 1)) = flowInstructions b (some j) (some (t' + 1))) :
    i = j := by
  by_cases hi : i = 0 <;> by_cases hj : j = 0 <;> simp_all [flowInstructions]

structure Datapath where
  id : Int
  conn : ℕ
deriving DecidableEq, Repr

abbrev Message := Datapath × FlowMod

abbrev Network := Fabric Int Field Value (List Instruction)

def mods (ms : List Message) : List (Int × SwitchMod) := ms.map fun m ↦ (m.1.id, m.2.toMod)

def Network.receive (T : Network) (ms : List Message) : Network := T.deliver (mods ms)

theorem mem_mods {s : Int} {m : SwitchMod} {ms : List Message} :
    (s, m) ∈ mods ms ↔ ∃ n ∈ ms, n.1.id = s ∧ n.2.toMod = m := by
  simp [mods]

theorem receive_append (T : Network) (ms ms' : List Message) :
    T.receive (ms ++ ms') = (T.receive ms).receive ms' := by
  simp only [Network.receive, mods, List.map_append, Fabric.deliver_append]

theorem receive_of_not_touches {ms : List Message} {s : Int} {k : FlowKey}
    (h : ∀ n ∈ ms, n.1.id = s → ¬ n.2.toMod.Touches k) (T : Network) : T.receive ms s k = T s k := by
  refine Fabric.deliver_of_not_touches (fun m hm ↦ ?_) T
  obtain ⟨n, hn, hs, rfl⟩ := mem_mods.mp hm
  exact h n hn hs

theorem receive_eq_some {T : Network} {ms : List Message} {s : Int} {k : FlowKey}
    {i : List Instruction} (h : T.receive ms s k = some i) :
    (∃ n ∈ ms, n.1.id = s ∧ n.2.toMod = .add k i) ∨
      (T s k = some i ∧ ∀ n ∈ ms, n.1.id = s → ¬ n.2.toMod.Touches k) := by
  rcases Fabric.deliver_eq_some h with h | ⟨h, hms⟩
  · exact .inl (mem_mods.mp h)
  · exact .inr ⟨h, fun n hn hs ↦ hms _ (mem_mods.mpr ⟨n, hn, hs, rfl⟩)⟩

theorem receive_of_add {ms : List Message} {s : Int} {k : FlowKey} {i : List Instruction}
    {n : Message} (hn : n ∈ ms) (hs : n.1.id = s) (hadd : n.2.toMod = .add k i)
    {P : List Instruction → Prop}
    (honly : ∀ n' ∈ ms, n'.1.id = s → n'.2.toMod.Touches k → ∃ j, n'.2.toMod = .add k j ∧ P j)
    (T : Network) : ∃ j, T.receive ms s k = some j ∧ P j := by
  have htouch : n.2.toMod.Touches k := by
    rw [hadd]
    exact rfl
  obtain ⟨j, hj⟩ : ∃ j, T.receive ms s k = some j := by
    refine Fabric.deliver_occupied (fun m hm ht ↦ ?_) (.inl ⟨i, mem_mods.mpr ⟨n, hn, hs, hadd⟩⟩)
    obtain ⟨n', hn', hs', rfl⟩ := mem_mods.mp hm
    obtain ⟨j, hj, -⟩ := honly n' hn' hs' ht
    exact ⟨j, hj⟩
  rcases receive_eq_some hj with ⟨n', hn', hs', hadd'⟩ | ⟨-, hkeep⟩
  · obtain ⟨j', hj', hP⟩ := honly n' hn' hs' (by rw [hadd']; exact rfl)
    have heq : j = j' := (Mod.add.inj (hadd'.symm.trans hj')).2
    exact ⟨j, hj, heq ▸ hP⟩
  · exact absurd htouch (hkeep n hn hs)

theorem receive_added {ms : List Message} {s : Int} {k : FlowKey} {i : List Instruction}
    {n : Message} (hn : n ∈ ms) (hs : n.1.id = s) (hadd : n.2.toMod = .add k i)
    (honly : ∀ n' ∈ ms, n'.1.id = s → n'.2.toMod.Touches k → n'.2.toMod = .add k i) (T : Network) :
    T.receive ms s k = some i := by
  obtain ⟨j, hj, rfl⟩ := receive_of_add (P := fun j ↦ j = i) hn hs hadd
    (fun n' hn' hs' ht ↦ ⟨i, honly n' hn' hs' ht, rfl⟩) T
  exact hj

end NshSfc.OpenFlow
