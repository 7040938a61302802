import NshSfc.Library.Orbits
import NshSfc.Ofproto

namespace NshSfc.NxProperties

open Library Python Ofproto

inductive Prop2
  | maxLen (maxLen : ℕ)
  | controllerId (controllerId : ℕ)
  | reason (reason : ℕ)
  | userdata (userdata : List ℕ)
  | pause (pause : Bool)
deriving DecidableEq

structure NXActionController2 where
  maxLen : Option ℕ := none
  controllerId : Option ℕ := none
  reason : Option ℕ := none
  userdata : Option (List ℕ) := none
  pause : Option Bool := none
deriving DecidableEq

namespace NXActionController2

def set (a : NXActionController2) : Prop2 → NXActionController2
  | .maxLen n => { a with maxLen := some n }
  | .controllerId n => { a with controllerId := some n }
  | .reason n => { a with reason := some n }
  | .userdata l => { a with userdata := some l }
  | .pause b => { a with pause := some b }

def propList (a : NXActionController2) : List Prop2 :=
  (a.maxLen.map .maxLen).toList ++ (a.controllerId.map .controllerId).toList ++
    (a.reason.map .reason).toList ++ (a.userdata.map .userdata).toList ++
    (a.pause.map .pause).toList

end NXActionController2

section Code

variable (ryu : Ryu)

def userSize (length : Int) : Int :=
  let userSize := ryu.roundUp length 4
  if 4 < userSize ∧ userSize % 8 = 0 then ryu.roundUp length 4 + 4 else ryu.roundUp length 4

/-- The `parser_prop` of the class of a type. The one for unknown types has no name of an argument,
which is only noticed afterwards. -/
def parserProp (type : ℕ) (length : Int) (buf : List UInt8) : Except PyError (Prop2 × Int) :=
  match type with
  | 0 => do
    let maxLen ← (paddedBy 2 H).unpackFrom buf
    return (.maxLen maxLen, 4)
  | 1 => do
    let controllerId ← (paddedBy 2 H).unpackFrom buf
    return (.controllerId controllerId, 4)
  | 2 => do
    let reason ← (paddedBy 3 B).unpackFrom buf
    return (.reason reason, 4)
  | 3 => do
    let userdata ← B.unpackAll length.toNat buf
    return (.userdata userdata, userSize ryu length)
  | 4 => .ok (.pause true, 4)
  | _ => .error .attributeError

structure State where
  offset : Int
  props : NXActionController2
deriving DecidableEq

def step (buf : List UInt8) (s : State) : Except PyError State := do
  let (type, length) ← (H.seq H).unpackFrom (buf.drop s.offset.toNat)
  let offset := s.offset + 4
  let (prop, size) ← parserProp ryu type (length - 4) (buf.drop offset.toNat)
  return ⟨offset + size, s.props.set prop⟩

def loop (buf : List UInt8) : ℕ → State → Except Stop NXActionController2
  | 0, s => if s.offset < buf.length then .error .outOfFuel else .ok s.props
  | fuel + 1, s =>
    if s.offset < buf.length then do
      let s ← (step ryu buf s).mapError .raised
      loop buf fuel s
    else .ok s.props

def parser (fuel : ℕ) (buf : List UInt8) : Except Stop NXActionController2 :=
  loop ryu buf fuel ⟨6, {}⟩

def serializeProp : Prop2 → Except PyError (List UInt8)
  | .maxLen maxLen => do
    let data ← (H.seq (H.seq (paddedBy 2 H))).pack (0, 8, maxLen)
    return ryu.msgPackInto [] 0 data
  | .controllerId controllerId => do
    let data ← (H.seq (H.seq (paddedBy 2 H))).pack (1, 8, controllerId)
    return ryu.msgPackInto [] 0 data
  | .reason reason => do
    let data ← (H.seq (H.seq (paddedBy 3 B))).pack (2, 5, reason)
    return ryu.msgPackInto [] 0 data
  | .userdata userdata => do
    let userBuf ← B.packAll userdata
    let userOffset := userdata.length
    let header ← (H.seq H).pack (3, 4 + userOffset)
    let data := ryu.msgPackInto [] 0 header ++ userBuf
    let userLen := ryu.roundUp userOffset 4
    if 4 < userOffset then
      let brankSize := if userLen % 8 = 0 then 4 else 0
      return ryu.msgPackInto data (4 + userOffset)
        (List.replicate (userLen - userOffset + brankSize).toNat 0)
    else
      return ryu.msgPackInto data (4 + userOffset)
        (List.replicate (userLen - userOffset).toNat 0)
  | .pause _ => do
    let data ← (H.seq (paddedBy 4 H)).pack (4, 4)
    return ryu.msgPackInto [] 0 data

def NXActionController2.serializeBody (a : NXActionController2) : Except PyError (List UInt8) :=
  a.propList.foldlM (fun body prop ↦ do return body ++ (← serializeProp ryu prop))
    (ryu.msgPackInto [] 0 (List.replicate 6 0))

end Code

section UserData

variable {ryu : Ryu}

theorem userSize_of_pos (ryu : Ryu) {length : Int} (h : 0 < length) : length ≤ userSize ryu length ∧
    4 ∣ userSize ryu length ∧ (userSize ryu length + 4) % 8 = 0 := by
  rw [userSize, ryu.roundUp_eq]
  split_ifs <;> omega

theorem userSize_zero (ryu : Ryu) : userSize ryu 0 = 0 := by
  simp [userSize, ryu.roundUp_eq]

theorem userSize_sub (ryu : Ryu) (length : ℕ) :
    userSize ryu (length - 4) = -4 ∧ length = 0 ∨ 0 ≤ userSize ryu (length - 4) ∧ length ≠ 0 := by
  rw [userSize, ryu.roundUp_eq]
  split_ifs <;> omega

end UserData

section RoundTrip

variable {ryu : Ryu} {a : NXActionController2} {prop : Prop2} {bs buf rest : List UInt8}

def readBack : Prop2 → Prop2
  | .pause _ => .pause true
  | prop => prop

theorem userSize_eq (ryu : Ryu) (n : ℕ) : userSize ryu n = n +
    if 4 < n then ryu.roundUp n 4 - n + (if ryu.roundUp n 4 % 8 = 0 then 4 else 0)
    else ryu.roundUp n 4 - n := by
  rw [userSize, ryu.roundUp_eq]
  split_ifs <;> omega

theorem serializeProp_userdata {userdata : List ℕ}
    (h : serializeProp ryu (.userdata userdata) = .ok bs) : ∃ header userBuf k,
      (H.seq H).pack (3, 4 + userdata.length) = .ok header ∧ B.packAll userdata = .ok userBuf ∧
      bs = header ++ (userBuf ++ List.replicate k 0) ∧
      (userdata.length + k : Int) = userSize ryu userdata.length := by
  obtain ⟨userBuf, huser, h⟩ := bind_eq_ok h
  obtain ⟨header, hheader, h⟩ := bind_eq_ok h
  have hlen : (header ++ userBuf).length = 4 + userdata.length := by
    rw [List.length_append, (H.seq H).length_pack hheader, Format.length_packAll huser]
    exact congrArg (4 + ·) (Nat.mul_one _)
  have hend (data : List UInt8) : ryu.msgPackInto (ryu.msgPackInto [] 0 header ++ userBuf)
      (4 + userdata.length) data = header ++ (userBuf ++ data) := by
    rw [ryu.msgPackInto_nil, ← hlen, ryu.msgPackInto_end, List.append_assoc]
  have hsize := userSize_eq ryu userdata.length
  have hround := ryu.roundUp_eq userdata.length 4
  dsimp only at h
  rw [hend, hend] at h
  by_cases hlong : 4 < userdata.length
  · rw [if_pos hlong] at h hsize
    refine ⟨header, userBuf, _, hheader, huser, (Except.ok.inj h).symm, ?_⟩
    rw [hsize]
    split_ifs <;> omega
  · rw [if_neg hlong] at h hsize
    refine ⟨header, userBuf, _, hheader, huser, (Except.ok.inj h).symm, ?_⟩
    rw [hsize]
    omega

theorem serializeProp_eq_ok (h : serializeProp ryu prop = .ok bs) : ∃ type length header body,
    (H.seq H).pack (type, length) = .ok header ∧ bs = header ++ body ∧ ∀ rest,
      parserProp ryu type (length - 4) (body ++ rest) = .ok (readBack prop, body.length) := by
  cases prop with
  | maxLen n =>
    obtain ⟨data, hdata, h⟩ := bind_eq_ok h
    obtain ⟨header, body, hheader, hbody, rfl⟩ := Format.seq_seq_pack hdata
    rw [ryu.msgPackInto_nil] at h
    refine ⟨0, 8, header, body, hheader, (Except.ok.inj h).symm, fun rest ↦ ?_⟩
    rw [parserProp, (paddedBy 2 H).unpackFrom_append hbody, (paddedBy 2 H).length_pack hbody]
    rfl
  | controllerId n =>
    obtain ⟨data, hdata, h⟩ := bind_eq_ok h
    obtain ⟨header, body, hheader, hbody, rfl⟩ := Format.seq_seq_pack hdata
    rw [ryu.msgPackInto_nil] at h
    refine ⟨1, 8, header, body, hheader, (Except.ok.inj h).symm, fun rest ↦ ?_⟩
    rw [parserProp, (paddedBy 2 H).unpackFrom_append hbody, (paddedBy 2 H).length_pack hbody]
    rfl
  | reason n =>
    obtain ⟨data, hdata, h⟩ := bind_eq_ok h
    obtain ⟨header, body, hheader, hbody, rfl⟩ := Format.seq_seq_pack hdata
    rw [ryu.msgPackInto_nil] at h
    refine ⟨2, 5, header, body, hheader, (Except.ok.inj h).symm, fun rest ↦ ?_⟩
    rw [parserProp, (paddedBy 3 B).unpackFrom_append hbody, (paddedBy 3 B).length_pack hbody]
    rfl
  | userdata userdata =>
    obtain ⟨header, userBuf, k, hheader, huser, rfl, hk⟩ := serializeProp_userdata h
    refine ⟨_, _, header, _, hheader, rfl, fun rest ↦ ?_⟩
    have hlength : ((4 + userdata.length : ℕ) : Int) - 4 = userdata.length := by omega
    have hbody : (userBuf ++ List.replicate k (0 : UInt8)).length = userdata.length + k := by
      rw [List.length_append, Format.length_packAll huser, List.length_replicate]
      exact congrArg (· + k) (Nat.mul_one _)
    rw [hlength, parserProp, Int.toNat_natCast, List.append_assoc, Format.unpackAll_append huser,
      ok_bind, hbody, ← hk]
    rfl
  | pause b =>
    obtain ⟨data, hdata, h⟩ := bind_eq_ok h
    obtain ⟨as, cs, has, hcs, rfl⟩ := Format.seq_pack.mp hdata
    obtain ⟨ds, hds, rfl⟩ := Format.padded_pack.mp hcs
    rw [ryu.msgPackInto_nil] at h
    refine ⟨4, 4, as ++ ds, List.replicate 4 0, Format.seq_pack.mpr ⟨as, ds, has, hds, rfl⟩, ?_,
      fun rest ↦ rfl⟩
    rw [← Except.ok.inj h, List.append_assoc]

theorem length_serializeProp (h : serializeProp ryu prop = .ok bs) :
    bs.length % 8 = if prop = .userdata [] then 4 else 0 := by
  have height {α : Type} {f : Fmt α} {a : α} (hsize : f.size = 8)
      (h : (do return ryu.msgPackInto [] 0 (← f.pack a)) = Except.ok (ε := PyError) bs) :
      bs.length % 8 = 0 := by
    obtain ⟨data, hdata, h⟩ := bind_eq_ok h
    rw [ryu.msgPackInto_nil] at h
    rw [← Except.ok.inj h, f.length_pack hdata, hsize]
  cases prop with
  | maxLen n => exact height rfl h
  | controllerId n => exact height rfl h
  | reason n => exact height rfl h
  | pause b => exact height rfl h
  | userdata userdata =>
    obtain ⟨header, userBuf, k, hheader, huser, rfl, hk⟩ := serializeProp_userdata h
    have hheaderLen : header.length = 4 := (H.seq H).length_pack hheader
    have huserLen : userBuf.length = userdata.length := by
      rw [Format.length_packAll huser]
      exact Nat.mul_one _
    rw [List.length_append, List.length_append, List.length_replicate, hheaderLen, huserLen]
    cases userdata with
    | nil =>
      have hzero := userSize_zero ryu
      rw [if_pos rfl]
      rw [List.length_nil] at hk ⊢
      push_cast at hk
      omega
    | cons u us =>
      have hpos : (0 : Int) < ((u :: us).length : ℕ) := by simp
      have hsize := (userSize_of_pos ryu hpos).2.2
      rw [if_neg (by simp)]
      omega

theorem step_serializeProp {s : State} (h : serializeProp ryu prop = .ok bs) (hs : 0 ≤ s.offset)
    (hbuf : buf.drop s.offset.toNat = bs ++ rest) :
    step ryu buf s = .ok ⟨s.offset + bs.length, s.props.set (readBack prop)⟩ := by
  obtain ⟨type, length, header, body, hheader, rfl, hread⟩ := serializeProp_eq_ok h
  have hlen : header.length = 4 := (H.seq H).length_pack hheader
  have hdrop : buf.drop (s.offset + 4).toNat = body ++ rest := by
    have hoffset : (s.offset + 4).toNat = s.offset.toNat + header.length := by omega
    rw [hoffset, ← List.drop_drop, hbuf, List.append_assoc, List.drop_left]
  rw [step, hbuf, List.append_assoc, (H.seq H).unpackFrom_append hheader, ok_bind]
  dsimp only
  rw [hdrop, hread, ok_bind, List.length_append, hlen]
  exact congrArg (fun n ↦ Except.ok (State.mk n _)) (by push_cast; ring)

end RoundTrip

section Turns

variable {ryu : Ryu} {buf : List UInt8} {s s' : State} {fuel n : ℕ}

def next (ryu : Ryu) (buf : List UInt8) (s : State) : Option State :=
  if s.offset < buf.length then (step ryu buf s).toOption else none

theorem next_eq_some : next ryu buf s = some s' ↔ s.offset < buf.length ∧ step ryu buf s = .ok s' := by
  rw [next]
  split_ifs with hend
  · cases step ryu buf s with
    | error e => simp [Except.toOption]
    | ok t => simp [Except.toOption, hend]
  · simp [hend]

theorem loop_next (h : next ryu buf s = some s') :
    loop ryu buf (fuel + 1) s = loop ryu buf fuel s' := by
  obtain ⟨hend, hstep⟩ := next_eq_some.mp h
  rw [loop, if_pos hend, hstep]
  rfl

theorem loop_orbit (h : orbit (next ryu buf) s n = some s') (fuel : ℕ) :
    loop ryu buf (n + fuel) s = loop ryu buf fuel s' := by
  induction n generalizing s with
  | zero =>
    obtain rfl := Option.some.inj h
    rw [Nat.zero_add]
  | succ n ih =>
    obtain ⟨t, ht, hrest⟩ := Option.bind_eq_some_iff.mp h
    rw [Nat.add_right_comm, loop_next ht, ih hrest]

theorem loop_end (h : (buf.length : Int) ≤ s.offset) : loop ryu buf fuel s = .ok s.props := by
  cases fuel with
  | zero => rw [loop, if_neg (not_lt.mpr h)]
  | succ fuel => rw [loop, if_neg (not_lt.mpr h)]

end Turns

section RoundTrip

variable {ryu : Ryu} {a : NXActionController2} {bs buf rest : List UInt8} {fuel : ℕ}

theorem orbit_props {props : List Prop2} {pieces : List (List UInt8)} {s : State}
    (h : props.mapM (serializeProp ryu) = .ok pieces) (hs : 0 ≤ s.offset)
    (hbuf : buf.drop s.offset.toNat = pieces.flatten ++ rest) :
    orbit (next ryu buf) s props.length = some
      ⟨s.offset + pieces.flatten.length, (props.map readBack).foldl NXActionController2.set s.props⟩ := by
  induction props generalizing pieces s with
  | nil =>
    obtain rfl := Except.ok.inj h
    simp
  | cons prop props ih =>
    rw [List.mapM_cons] at h
    obtain ⟨piece, hpiece, h⟩ := bind_eq_ok h
    obtain ⟨pieces, hpieces, h⟩ := bind_eq_ok h
    obtain rfl := Except.ok.inj h
    rw [List.flatten_cons, List.append_assoc] at hbuf
    have hstep := step_serializeProp hpiece hs hbuf
    have hlong : s.offset < buf.length := by
      obtain ⟨type, length, header, body, hheader, rfl, -⟩ := serializeProp_eq_ok hpiece
      have hlen : header.length = 4 := (H.seq H).length_pack hheader
      have htotal := congrArg List.length hbuf
      simp only [List.length_drop, List.length_append] at htotal
      omega
    have hnext := next_eq_some.mpr ⟨hlong, hstep⟩
    have hdrop : buf.drop (s.offset + piece.length).toNat = pieces.flatten ++ rest := by
      have hoffset : (s.offset + piece.length).toNat = s.offset.toNat + piece.length := by omega
      rw [hoffset, ← List.drop_drop, hbuf, List.drop_left]
    rw [List.length_cons, orbit_succ_of_some hnext, ih hpieces (by dsimp only; omega) hdrop]
    simp [add_assoc]

theorem serializeBody_eq_ok (h : a.serializeBody ryu = .ok bs) : ∃ pieces,
    a.propList.mapM (serializeProp ryu) = .ok pieces ∧ bs = List.replicate 6 0 ++ pieces.flatten := by
  rw [NXActionController2.serializeBody, foldlM_append, ryu.msgPackInto_nil] at h
  cases hpieces : a.propList.mapM (serializeProp ryu) with
  | error e =>
    rw [hpieces] at h
    cases h
  | ok pieces =>
    rw [hpieces] at h
    exact ⟨pieces, rfl, (Except.ok.inj h).symm⟩

theorem foldl_propList (a : NXActionController2) :
    (a.propList.map readBack).foldl NXActionController2.set {} =
      { a with pause := a.pause.map fun _ ↦ true } := by
  obtain ⟨_ | _, _ | _, _ | _, _ | _, _ | _⟩ := a <;> rfl

theorem length_propList (a : NXActionController2) : a.propList.length ≤ 5 := by
  have hone (o : Option Prop2) : o.toList.length ≤ 1 := by
    cases o <;> simp
  have hmaxLen := hone (a.maxLen.map .maxLen)
  have hcontrollerId := hone (a.controllerId.map .controllerId)
  have hreason := hone (a.reason.map .reason)
  have huserdata := hone (a.userdata.map .userdata)
  have hpause := hone (a.pause.map .pause)
  simp only [NXActionController2.propList, List.length_append]
  omega

theorem parser_append (h : a.serializeBody ryu = .ok bs) (rest : List UInt8) (fuel : ℕ) :
    parser ryu (a.propList.length + fuel) (bs ++ rest) =
      loop ryu (bs ++ rest) fuel ⟨bs.length, { a with pause := a.pause.map fun _ ↦ true }⟩ := by
  obtain ⟨pieces, hpieces, rfl⟩ := serializeBody_eq_ok h
  have hdrop : (List.replicate 6 0 ++ pieces.flatten ++ rest).drop (6 : Int).toNat =
      pieces.flatten ++ rest := by
    rw [List.append_assoc]
    rfl
  rw [parser, loop_orbit (orbit_props hpieces (by decide) hdrop) _, foldl_propList]
  rw [List.length_append, List.length_replicate, Nat.cast_add]
  rfl

theorem loop_zeros {k : ℕ} {props result : NXActionController2} (hzero : 0 < k) (hk : k < 8)
    (bs : List UInt8) :
    loop ryu (bs ++ List.replicate k 0) fuel ⟨bs.length, props⟩ ≠ .ok result := by
  have hlong : (bs.length : Int) < (bs ++ List.replicate k (0 : UInt8)).length := by
    simp
    omega
  intro h
  cases fuel with
  | zero =>
    rw [loop, if_pos hlong] at h
    cases h
  | succ fuel =>
    rw [loop, if_pos hlong] at h
    cases hstep : step ryu (bs ++ List.replicate k 0) ⟨bs.length, props⟩ with
    | error e =>
      rw [hstep] at h
      cases h
    | ok s =>
      obtain ⟨⟨type, length⟩, hheader, hprop⟩ := bind_eq_ok hstep
      dsimp only at hheader hprop
      rw [Int.toNat_natCast, List.drop_left] at hheader
      have hfour : 4 ≤ (List.replicate k (0 : UInt8)).length := (H.seq H).size_le hheader
      rw [List.length_replicate] at hfour
      have hzeros : List.replicate k (0 : UInt8) = [0, 0, 0, 0] ++ List.replicate (k - 4) 0 := by
        obtain ⟨k, rfl⟩ := Nat.exists_eq_add_of_le' hfour
        rfl
      have hpack : (H.seq H).pack (0, 0) = .ok [0, 0, 0, 0] := rfl
      rw [hzeros, (H.seq H).unpackFrom_append hpack] at hheader
      obtain ⟨rfl, rfl⟩ := Prod.mk.inj (Except.ok.inj hheader)
      obtain ⟨⟨prop, size⟩, hread, -⟩ := bind_eq_ok hprop
      obtain ⟨maxLen, hread, -⟩ := bind_eq_ok hread
      have hfour' : 4 ≤ ((bs ++ List.replicate k 0).drop ((bs.length : Int) + 4).toNat).length :=
        (paddedBy 2 H).size_le hread
      simp only [List.length_drop, List.length_append, List.length_replicate] at hfour'
      omega

/-- What was written comes back with few zeros behind it if and only if there are none, and the
pause is set to `True` where it is set. -/
theorem parser_serializeBody_iff {k : ℕ} (h : a.serializeBody ryu = .ok bs) (hk : k < 8)
    (hfuel : bs.length ≤ fuel) : parser ryu fuel (bs ++ List.replicate k 0) = .ok a ↔
      k = 0 ∧ a.pause ≠ some false := by
  have hsix : 6 ≤ bs.length := by
    obtain ⟨pieces, -, rfl⟩ := serializeBody_eq_ok h
    simp
  have hprops := length_propList a
  obtain ⟨fuel, rfl⟩ := Nat.exists_eq_add_of_le (hprops.trans (by omega : 5 ≤ fuel))
  rw [parser_append h]
  obtain rfl | hzero := Nat.eq_zero_or_pos k
  · rw [List.replicate_zero, List.append_nil, loop_end le_rfl, Except.ok.injEq]
    obtain ⟨maxLen, controllerId, reason, userdata, _ | _ | _⟩ := a <;> simp
  · have hne : loop ryu (bs ++ List.replicate k 0) fuel
        ⟨bs.length, { a with pause := a.pause.map fun _ ↦ true }⟩ ≠ .ok a := loop_zeros hzero hk bs
    exact iff_of_false hne fun h ↦ hzero.ne' h.1

theorem length_pieces {props : List Prop2} {pieces : List (List UInt8)}
    (h : props.mapM (serializeProp ryu) = .ok pieces) :
    pieces.flatten.length % 8 = 4 * props.count (.userdata []) % 8 := by
  induction props generalizing pieces with
  | nil =>
    obtain rfl := Except.ok.inj h
    rfl
  | cons prop props ih =>
    rw [List.mapM_cons] at h
    obtain ⟨piece, hpiece, h⟩ := bind_eq_ok h
    obtain ⟨pieces, hpieces, h⟩ := bind_eq_ok h
    obtain rfl := Except.ok.inj h
    have hone := length_serializeProp hpiece
    have hrest := ih hpieces
    rw [List.flatten_cons, List.length_append, List.count_cons]
    split_ifs at hone with huser
    · subst huser
      simp only [beq_self_eq_true, if_true]
      omega
    · have hbeq : (prop == .userdata []) = false := by simpa using huser
      rw [hbeq]
      simp only [Bool.false_eq_true, if_false]
      omega

theorem count_propList (a : NXActionController2) :
    a.propList.count (.userdata []) = if a.userdata = some [] then 1 else 0 := by
  have hcount (o : Option Prop2) : o.toList.count (.userdata []) =
      if o = some (.userdata []) then 1 else 0 := by
    cases o with
    | none => rfl
    | some prop => simp [List.count_singleton]
  simp [NXActionController2.propList, List.count_append, hcount]

theorem length_serializeBody (h : a.serializeBody ryu = .ok bs) :
    bs.length % 8 = if a.userdata = some [] then 2 else 6 := by
  obtain ⟨pieces, hpieces, rfl⟩ := serializeBody_eq_ok h
  have hlen := length_pieces hpieces
  rw [count_propList] at hlen
  rw [List.length_append, List.length_replicate]
  split_ifs at hlen ⊢ <;> omega

end RoundTrip

section Hanging

variable {ryu : Ryu} {buf : List UInt8} {s s' : State} {fuel n : ℕ}

/-- The loop stands before a property of user data whose header says that it has no bytes, not even
those of the header. -/
def Stuck (buf : List UInt8) (s : State) : Prop :=
  s.offset < buf.length ∧ (H.seq H).unpackFrom (buf.drop s.offset.toNat) = .ok (3, 0)

theorem next_of_stuck (ryu : Ryu) (h : Stuck buf s) :
    next ryu buf s = some ⟨s.offset, s.props.set (.userdata [])⟩ := by
  have hback : userSize ryu ((0 : ℕ) - 4) = -4 := by
    obtain ⟨hsize, -⟩ | ⟨-, hne⟩ := userSize_sub ryu 0
    · exact hsize
    · exact absurd rfl hne
  have hread (rest : List UInt8) : parserProp ryu 3 ((0 : ℕ) - 4) rest = .ok (.userdata [], -4) := by
    rw [parserProp, hback]
    rfl
  refine next_eq_some.mpr ⟨h.1, ?_⟩
  rw [step, h.2, ok_bind]
  dsimp only
  rw [hread, ok_bind]
  exact congrArg (fun n ↦ Except.ok (State.mk n _)) (by ring)

theorem stuck_next (h : Stuck buf s) (hnext : next ryu buf s = some s') : Stuck buf s' := by
  rw [next_of_stuck ryu h] at hnext
  obtain rfl := Option.some.inj hnext
  exact h

theorem size_of_parserProp {type length : ℕ} {prop : Prop2} {size : Int} {rest : List UInt8}
    (h : parserProp ryu type (length - 4) rest = .ok (prop, size)) :
    -4 < size ∨ type = 3 ∧ length = 0 := by
  unfold parserProp at h
  split at h
  case h_4 =>
    obtain ⟨userdata, -, h⟩ := bind_eq_ok h
    obtain ⟨-, rfl⟩ := Prod.mk.inj (Except.ok.inj h)
    obtain ⟨-, hzero⟩ | ⟨hsize, -⟩ := userSize_sub ryu length
    · exact .inr ⟨rfl, hzero⟩
    · exact .inl (by omega)
  case h_5 =>
    obtain ⟨-, rfl⟩ := Prod.mk.inj (Except.ok.inj h)
    exact .inl (by decide)
  case h_6 => cases h
  all_goals
    obtain ⟨n, -, h⟩ := bind_eq_ok h
    obtain ⟨-, rfl⟩ := Prod.mk.inj (Except.ok.inj h)
    exact .inl (by decide)

theorem offset_lt_of_next (h : next ryu buf s = some s') (hs : ¬ Stuck buf s) :
    s.offset < s'.offset := by
  obtain ⟨hlong, hstep⟩ := next_eq_some.mp h
  obtain ⟨⟨type, length⟩, hheader, hprop⟩ := bind_eq_ok hstep
  obtain ⟨⟨prop, size⟩, hread, hprop⟩ := bind_eq_ok hprop
  obtain rfl := Except.ok.inj hprop
  obtain hsize | ⟨rfl, rfl⟩ := size_of_parserProp hread
  · dsimp only
    omega
  · exact absurd ⟨hlong, hheader⟩ hs

theorem offset_of_orbit (h : orbit (next ryu buf) s n = some s')
    (hs : ∀ m t, orbit (next ryu buf) s m = some t → ¬ Stuck buf t) : s.offset + n ≤ s'.offset := by
  induction n generalizing s with
  | zero =>
    obtain rfl := Option.some.inj h
    simp
  | succ n ih =>
    obtain ⟨t, ht, hrest⟩ := Option.bind_eq_some_iff.mp h
    have hlt := offset_lt_of_next ht (hs 0 s rfl)
    have hle := ih hrest fun m u hu ↦ hs (m + 1) u (by rw [orbit_succ_of_some ht, hu])
    push_cast
    omega

theorem orbit_stuck (ryu : Ryu) (h : Stuck buf s) (n : ℕ) :
    ∃ t, orbit (next ryu buf) s n = some t ∧ Stuck buf t := by
  induction n generalizing s with
  | zero => exact ⟨s, rfl, h⟩
  | succ n ih =>
    have hnext := next_of_stuck ryu h
    rw [orbit_succ_of_some hnext]
    exact ih (stuck_next h hnext)

theorem loop_eq_outOfFuel : loop ryu buf fuel s = .error .outOfFuel ↔
    ∃ t, orbit (next ryu buf) s fuel = some t ∧ t.offset < buf.length := by
  constructor
  · intro h
    induction fuel generalizing s with
    | zero =>
      rw [loop] at h
      split_ifs at h with hlong
      exact ⟨s, rfl, hlong⟩
    | succ fuel ih =>
      rw [loop] at h
      split_ifs at h with hlong
      cases hstep : step ryu buf s with
      | error e =>
        rw [hstep] at h
        cases h
      | ok t =>
        rw [hstep] at h
        rw [orbit_succ_of_some (next_eq_some.mpr ⟨hlong, hstep⟩)]
        exact ih h
  · intro h
    obtain ⟨t, ht, hlong⟩ := h
    have hloop := loop_orbit ht 0
    rw [Nat.add_zero] at hloop
    rw [hloop, loop, if_pos hlong]

/-- The loop never ends if and only if it comes before such a header. -/
theorem hangs_iff : (∀ fuel, parser ryu fuel buf = .error .outOfFuel) ↔
    ∃ n s, orbit (next ryu buf) ⟨6, {}⟩ n = some s ∧ Stuck buf s := by
  constructor
  · intro h
    by_contra! hno
    obtain ⟨t, ht, hlong⟩ := loop_eq_outOfFuel.mp (h buf.length)
    have hle := offset_of_orbit ht hno
    dsimp only at hle
    omega
  · intro h fuel
    obtain ⟨n, s, hs, hstuck⟩ := h
    -- far behind the turn that comes there
    obtain ⟨t, ht, -⟩ := orbit_stuck ryu hstuck (fuel + 1)
    have hfar : orbit (next ryu buf) ⟨6, {}⟩ (n + (fuel + 1)) = some t := by
      rw [orbit_add, hs]
      exact ht
    obtain ⟨u, hu⟩ := orbit_of_le (m := fuel + 1) (by omega) hfar
    rw [orbit_add] at hu
    obtain ⟨v, hv, hone⟩ := Option.bind_eq_some_iff.mp hu
    obtain ⟨w, hw, -⟩ := Option.bind_eq_some_iff.mp hone
    exact loop_eq_outOfFuel.mpr ⟨v, hv, (next_eq_some.mp hw).1⟩

theorem parser_ends (hfuel : buf.length ≤ fuel)
    (hno : ∀ n s, orbit (next ryu buf) ⟨6, {}⟩ n = some s → ¬ Stuck buf s) :
    parser ryu fuel buf ≠ .error .outOfFuel := by
  intro h
  obtain ⟨t, ht, hlong⟩ := loop_eq_outOfFuel.mp h
  have hle := offset_of_orbit ht hno
  dsimp only at hle
  omega

end Hanging

end NshSfc.NxProperties
