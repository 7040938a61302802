import NshSfc.Header

namespace NshSfc.HeaderFields

open Library Python Header

/-- A packet that starts with an NSH header: a value for each field of the diagram, the unassigned
ones included, context headers up to the announced length, and a payload. -/
structure Encapsulated where
  ver : Fin (2 ^ 2)
  O : Fin (2 ^ 1)
  U : Fin (2 ^ 1)
  ttl : Fin (2 ^ 6)
  length : Fin (2 ^ 6)
  UUUU : Fin (2 ^ 4)
  md : Fin (2 ^ 4)
  np : Fin (2 ^ 8)
  spi : Fin (2 ^ 24)
  si : Fin (2 ^ 8)
  context : List UInt8
  payload : List UInt8
  length_le : 2 ≤ length.val
  context_length : context.length = 4 * length.val - 8

namespace Encapsulated

variable (p q : Encapsulated)

def fields : List (ℕ × ℕ) :=
  [(2, p.ver), (1, p.O), (1, p.U), (6, p.ttl), (6, p.length), (4, p.UUUU), (4, p.md), (8, p.np),
   (24, p.spi), (8, p.si)]

def encode : List UInt8 := toBytes 8 (pack p.fields) ++ (p.context ++ p.payload)

def header : Nsh where
  ver := p.ver
  O := p.O
  ttl := p.ttl
  length := p.length
  md := p.md
  np := p.np
  spi := p.spi
  si := p.si

theorem fields_lt : ∀ f ∈ p.fields, f.2 < 2 ^ f.1 := by
  simp only [fields, List.forall_mem_cons, List.not_mem_nil, false_implies, implies_true, and_true]
  exact ⟨p.ver.isLt, p.O.isLt, p.U.isLt, p.ttl.isLt, p.length.isLt, p.UUUU.isLt, p.md.isLt,
    p.np.isLt, p.spi.isLt, p.si.isLt⟩

theorem ofFields_encode :
    ofFields (unpack diagram (fromBytes (p.encode.take 8))) = some p.header := by
  have hwidth : (p.fields.map Prod.fst).sum = 64 := rfl
  have hlt : pack p.fields < 256 ^ 8 := by
    calc
      pack p.fields < 2 ^ (p.fields.map Prod.fst).sum := pack_lt p.fields_lt
      _ = 256 ^ 8 := by rw [hwidth]; norm_num
  have htake : p.encode.take 8 = toBytes 8 (pack p.fields) :=
    List.take_left' (length_toBytes 8 _)
  have hfields : unpack diagram (pack p.fields) = p.fields.map Prod.snd := unpack_pack p.fields_lt
  rw [htake, fromBytes_toBytes, Nat.mod_eq_of_lt hlt, hfields]
  rfl

theorem drop_encode : p.encode.drop (4 * p.length) = p.payload := by
  have hle := p.length_le
  have hlen : (toBytes 8 (pack p.fields) ++ p.context).length = 4 * p.length := by
    rw [List.length_append, length_toBytes, p.context_length]
    omega
  rw [encode, ← List.append_assoc]
  exact List.drop_left' hlen

theorem parser_encode : parser p.encode = .ok (p.header, p.np.val, p.payload) := by
  have hle : 8 ≤ p.encode.length := by
    rw [encode, List.length_append, length_toBytes]
    exact Nat.le_add_right _ _
  obtain ⟨header, hheader, hparser⟩ := parser_reads hle
  obtain rfl : p.header = header := Option.some.inj (p.ofFields_encode.symm.trans hheader)
  have hdrop : p.encode.drop (4 * p.header.length) = p.payload := p.drop_encode
  rw [hparser, hdrop]
  rfl

end Encapsulated

/-- The parser gives back the assigned fields and the payload, and nothing else of the buffer. -/
theorem parser_inverts (p : Encapsulated) :
    parser p.encode = .ok (p.header, p.np.val, p.payload) ∧
      ∀ q : Encapsulated, parser p.encode = parser q.encode ↔
        p.header = q.header ∧ p.payload = q.payload := by
  refine ⟨p.parser_encode, fun q ↦ ?_⟩
  rw [p.parser_encode, q.parser_encode, Except.ok.injEq, Prod.mk.injEq, Prod.mk.injEq]
  constructor
  · intro h
    exact ⟨h.1, h.2.2⟩
  · intro h
    have hnp : p.header.np = q.header.np := congrArg Nsh.np h.1
    exact ⟨h.1, hnp, h.2⟩

section Length

def announced (buf : List UInt8) : ℕ := fromBytes (buf.take 8) / 2 ^ 48 % 2 ^ 6

/-- The header covers the eight bytes that are read, and is in the buffer. -/
def Fits (buf : List UInt8) (header : Nsh) : Prop :=
  8 ≤ 4 * header.length ∧ 4 * header.length ≤ buf.length

instance (buf : List UInt8) (header : Nsh) : Decidable (Fits buf header) :=
  inferInstanceAs (Decidable (8 ≤ 4 * header.length ∧ 4 * header.length ≤ buf.length))

theorem ofFields_length {n : ℕ} {header : Nsh} (h : ofFields (unpack diagram n) = some header) :
    header.length = n / 2 ^ 48 % 2 ^ 6 := by
  cases h
  rfl

theorem parser_ok {buf rest : List UInt8} {header : Nsh} {np : ℕ}
    (h : parser buf = .ok (header, np, rest)) :
    8 ≤ buf.length ∧ header.length = announced buf ∧ rest = buf.drop (4 * header.length) := by
  have hle : 8 ≤ buf.length := by
    by_contra hlt
    rw [parser_short (not_le.mp hlt)] at h
    cases h
  obtain ⟨header', hheader, hparser⟩ := parser_reads hle
  rw [h] at hparser
  cases hparser
  exact ⟨hle, ofFields_length hheader, rfl⟩

/-- The parser takes the announced length as it is. The header fits exactly if the remainder starts
behind the bytes that were read and misses none of what follows the header. -/
theorem parser_trusts (buf : List UInt8) :
    (8 ≤ buf.length ↔ ∃ result, parser buf = .ok result) ∧
      ∀ header np rest, parser buf = .ok (header, np, rest) →
        header.length = announced buf ∧ rest = buf.drop (4 * header.length) ∧
        (rest <:+ buf.drop 8 ↔ 2 ≤ header.length) ∧
        (Fits buf header ↔ rest <:+ buf.drop 8 ∧ rest.length + 4 * header.length = buf.length) ∧
        (rest.length < buf.length ↔ 0 < header.length) := by
  refine ⟨⟨fun h ↦ ?_, fun h ↦ ?_⟩, fun header np rest h ↦ ?_⟩
  · obtain ⟨header, -, hparser⟩ := parser_reads h
    exact ⟨_, hparser⟩
  · obtain ⟨⟨header, np, rest⟩, hparser⟩ := h
    exact (parser_ok hparser).1
  obtain ⟨hle, hlength, rfl⟩ := parser_ok h
  have hbehind : buf.drop (4 * header.length) <:+ buf.drop 8 ↔ 2 ≤ header.length := by
    constructor
    · intro hsuf
      have hshort := hsuf.length_le
      rw [List.length_drop, List.length_drop] at hshort
      omega
    · intro htwo
      have hsplit : 4 * header.length = 8 + (4 * header.length - 8) := by omega
      rw [hsplit, ← List.drop_drop]
      exact List.drop_suffix _ _
  refine ⟨hlength, rfl, hbehind, ?_, ?_⟩
  · rw [hbehind, Fits, List.length_drop]
    omega
  · rw [List.length_drop]
    omega

/-- A header of eight bytes that announces 24 bytes is accepted with nothing left, and one that
announces none is left as a whole. -/
theorem truncated_accepted :
    (∃ header, parser [0x0f, 0xc6, 1, 3, 0, 0, 6, 255] = .ok (header, 3, []) ∧
      ¬ Fits [0x0f, 0xc6, 1, 3, 0, 0, 6, 255] header) ∧
    ∃ header, parser [0x0f, 0xc0, 1, 3, 0, 0, 6, 255] =
      .ok (header, 3, [0x0f, 0xc0, 1, 3, 0, 0, 6, 255]) ∧
        ¬ Fits [0x0f, 0xc0, 1, 3, 0, 0, 6, 255] header :=
  ⟨⟨_, rfl, by decide⟩, ⟨_, rfl, by decide⟩⟩

end Length

end NshSfc.HeaderFields
