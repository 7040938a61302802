import NshSfc.Library.Format
import NshSfc.Python

namespace NshSfc.Ofproto

open Library Python

section Struct

-- the letters of the formats of `struct`, all of them big-endian

abbrev Fmt (α : Type) := Format PyError α

def B : Fmt ℕ := .num .structError 1

def H : Fmt ℕ := .num .structError 2

def I : Fmt ℕ := .num .structError 4

def Q : Fmt ℕ := .num .structError 8

def bytes (n : ℕ) : Fmt { bs : List UInt8 // bs.length = n } := .raw .structError n

def pads (n : ℕ) : Fmt Unit := .pad .structError n

theorem H_pack {n : ℕ} (h : n < 256 ^ 2) : H.pack n = .ok (toBytes 2 n) :=
  Format.num_pack_of_lt _ h

def paddedBy {α : Type} (n : ℕ) (f : Fmt α) : Fmt α := f.padded .structError n

def indentedBy {α : Type} (n : ℕ) (f : Fmt α) : Fmt α := f.indented .structError n

def clip (n : ℕ) (bs : List UInt8) : { bs : List UInt8 // bs.length = n } :=
  ⟨(bs ++ List.replicate n 0).take n, List.length_take_of_le (by simp)⟩

theorem clip_of_length {n : ℕ} {bs : List UInt8} (h : bs.length = n) : clip n bs = ⟨bs, h⟩ :=
  Subtype.ext (List.take_left' h)

end Struct

/-- The number of an OXM field. Experimenters' fields have a pair of numbers. -/
inductive OxmNumber
  | field (n : ℕ)
  | experimenter (id type : ℕ)
deriving DecidableEq

inductive UserValue
  | int (n : ℕ)
  | text (t : String)
deriving DecidableEq

/-- What the classes use of Ryu: `utils.round_up`, `msg_pack_into`, the functions on OXM fields of
the protocol's module, and the descriptions of types in `type_desc`. -/
structure Ryu where
  roundUp : Int → Int → Int
  msgPackInto : List UInt8 → ℕ → List UInt8 → List UInt8
  oxmFromUserHeader : String → Except PyError OxmNumber
  oxmToUserHeader : OxmNumber → Except PyError String
  oxmSerializeHeader : OxmNumber → Except PyError (List UInt8)
  oxmParseHeader : List UInt8 → Except PyError (OxmNumber × ℕ)
  oxmSerialize : String → UserValue → Option UserValue → Except PyError (List UInt8)
  oxmParse : List UInt8 → Except PyError (String × UserValue × Option UserValue)
  intFromUser : ℕ → ℕ → List UInt8
  intToUser : ℕ → List UInt8 → Except PyError ℕ
  ipv4FromUser : String → Except PyError (List UInt8)
  ipv4ToUser : List UInt8 → Except PyError String
  ipv6FromUser : String → Except PyError (List UInt8)
  ipv6ToUser : List UInt8 → Except PyError String
  roundUp_eq : ∀ x y, roundUp x y = (x + y - 1) / y * y
  msgPackInto_behind : ∀ buf offset data, buf.length ≤ offset →
    msgPackInto buf offset data = buf ++ List.replicate (offset - buf.length) 0 ++ data
  msgPackInto_over : ∀ buf offset data, offset + data.length ≤ buf.length →
    msgPackInto buf offset data = buf.take offset ++ data ++ buf.drop (offset + data.length)
  intFromUser_eq : ∀ size n, intFromUser size n = toBytes size n
  intToUser_eq : ∀ size bs, intToUser size bs =
    if bs.length < size then .error .typeError else .ok (fromBytes (bs.take size))

namespace Ryu

variable (ryu : Ryu)

theorem msgPackInto_end (buf data : List UInt8) : ryu.msgPackInto buf buf.length data = buf ++ data := by
  rw [ryu.msgPackInto_behind _ _ _ le_rfl, Nat.sub_self, List.replicate_zero, List.append_nil]

theorem msgPackInto_nil (data : List UInt8) : ryu.msgPackInto [] 0 data = data :=
  ryu.msgPackInto_end [] data

def header (field : String) : Except PyError (List UInt8) := do
  ryu.oxmSerializeHeader (← ryu.oxmFromUserHeader field)

def readHeader (buf : List UInt8) : Except PyError (String × ℕ) := do
  let (n, len) ← ryu.oxmParseHeader buf
  return (← ryu.oxmToUserHeader n, len)

structure Named (field : String) (h : List UInt8) : Prop where
  header : ryu.header field = .ok h
  readHeader : ∀ rest, ryu.readHeader (h ++ rest) = .ok (field, h.length)

structure Short (field : String) (h : List UInt8) : Prop extends Named ryu field h where
  length : h.length = 4

structure Ipv4 (text : String) (bs : List UInt8) : Prop where
  fromUser : ryu.ipv4FromUser text = .ok bs
  length : bs.length = 4
  toUser : ryu.ipv4ToUser bs = .ok text

structure Ipv6 (text : String) (bs : List UInt8) : Prop where
  fromUser : ryu.ipv6FromUser text = .ok bs
  length : bs.length = 16
  toUser : ryu.ipv6ToUser bs = .ok text

end Ryu

end NshSfc.Ofproto
