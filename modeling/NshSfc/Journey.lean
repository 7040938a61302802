import NshSfc.Pipeline

namespace NshSfc.Journey

open Library OpenFlow Packets Pipeline

/-- The network between and behind the switches. `next` is where NORMAL forwarding takes a frame
for a MAC address: the next switch and the port at which it arrives. `host` is what the host at a
port of a switch returns for a packet. -/
structure Surroundings where
  next : Int → String → Option (Int × Int)
  host : Int → Int → Packet → Packet

/-- What is seen of a frame on its way. A host can only read a packet without NSH headers. -/
inductive Event
  | handed (s port : Int) (pkt : Packet)
  | left (s : Int) (pkt : Packet)
  | lost (s : Int)

inductive Fate
  | left (pkt : Packet)
  | carried (s port : Int) (f : Frame)
  | handed (port : Int) (pkt : Packet)
  | lost

def fate (net : Surroundings) (s : Int) : List Out → Fate
  | [.normal (.plain pkt)] => .left pkt
  | [.normal (.ether dst src spi si f)] =>
    match net.next s dst with
    | some (s', port) => .carried s' port (.ether dst src spi si f)
    | none => .lost
  | [.port n (.plain pkt)] => .handed n pkt
  | _ => .lost

/-- The way of a frame that enters switch `s` at a port: encapsulated frames are carried from
switch to switch, hosts return what they are handed, and a plain packet that a switch forwards
normally has left the chain. -/
inductive Travels (T : Network) (net : Surroundings) : Int → Int → Frame → List Event → Prop
  | left {s q : Int} {f : Frame} {outs : List Out} (hp : Passes (T s) q 0 0 f outs) {pkt : Packet}
      (hf : fate net s outs = .left pkt) : Travels T net s q f [.left s pkt]
  | carried {s q : Int} {f : Frame} {outs : List Out} (hp : Passes (T s) q 0 0 f outs) {s' q' : Int}
      {f' : Frame} (hf : fate net s outs = .carried s' q' f') {events : List Event}
      (hrest : Travels T net s' q' f' events) : Travels T net s q f events
  | handed {s q : Int} {f : Frame} {outs : List Out} (hp : Passes (T s) q 0 0 f outs) {n : Int}
      {pkt : Packet} (hf : fate net s outs = .handed n pkt) {events : List Event}
      (hrest : Travels T net s n (.plain (net.host s n pkt)) events) :
      Travels T net s q f (.handed s n pkt :: events)
  | lost {s q : Int} {f : Frame} {outs : List Out} (hp : Passes (T s) q 0 0 f outs)
      (hf : fate net s outs = .lost) : Travels T net s q f [.lost s]

section Step

variable {T : Network} {net : Surroundings} {s q : Int} {f : Frame} {outs : List Out}
  {events : List Event}

theorem travels_left_iff (hp : ∀ o, Passes (T s) q 0 0 f o ↔ o = outs) {pkt : Packet}
    (hf : fate net s outs = .left pkt) : Travels T net s q f events ↔ events = [.left s pkt] := by
  constructor
  · intro h
    cases h with
    | left hp' hf' =>
      rw [(hp _).mp hp', hf] at hf'
      cases hf'
      rfl
    | carried hp' hf' => rw [(hp _).mp hp', hf] at hf'; cases hf'
    | handed hp' hf' => rw [(hp _).mp hp', hf] at hf'; cases hf'
    | lost hp' hf' => rw [(hp _).mp hp', hf] at hf'; cases hf'
  · rintro rfl
    exact .left ((hp outs).mpr rfl) hf

theorem travels_carried_iff (hp : ∀ o, Passes (T s) q 0 0 f o ↔ o = outs) {s' q' : Int} {f' : Frame}
    (hf : fate net s outs = .carried s' q' f') :
    Travels T net s q f events ↔ Travels T net s' q' f' events := by
  constructor
  · intro h
    cases h with
    | carried hp' hf' hrest =>
      rw [(hp _).mp hp', hf] at hf'
      cases hf'
      exact hrest
    | left hp' hf' => rw [(hp _).mp hp', hf] at hf'; cases hf'
    | handed hp' hf' => rw [(hp _).mp hp', hf] at hf'; cases hf'
    | lost hp' hf' => rw [(hp _).mp hp', hf] at hf'; cases hf'
  · exact .carried ((hp outs).mpr rfl) hf

theorem travels_handed_iff (hp : ∀ o, Passes (T s) q 0 0 f o ↔ o = outs) {n : Int} {pkt : Packet}
    (hf : fate net s outs = .handed n pkt) :
    Travels T net s q f events ↔ ∃ rest, events = .handed s n pkt :: rest ∧
      Travels T net s n (.plain (net.host s n pkt)) rest := by
  constructor
  · intro h
    cases h with
    | handed hp' hf' hrest =>
      rw [(hp _).mp hp', hf] at hf'
      cases hf'
      exact ⟨_, rfl, hrest⟩
    | left hp' hf' => rw [(hp _).mp hp', hf] at hf'; cases hf'
    | carried hp' hf' => rw [(hp _).mp hp', hf] at hf'; cases hf'
    | lost hp' hf' => rw [(hp _).mp hp', hf] at hf'; cases hf'
  · rintro ⟨rest, rfl, hrest⟩
    exact .handed ((hp outs).mpr rfl) hf hrest

end Step

inductive Reaches (net : Surroundings) (port : Int) (mac : String) (dst : Int) : Int → Prop
  | last {s q : Int} (hn : net.next s mac = some (dst, q)) (hq : q ≠ port) :
      Reaches net port mac dst s
  | hop {s s' q : Int} (hn : net.next s mac = some (s', q)) (hs : s' ≠ dst)
      (hrest : Reaches net port mac dst s') : Reaches net port mac dst s

end NshSfc.Journey
