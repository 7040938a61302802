import NshSfc.ActionTrees

namespace NshSfc.ActionLists

open Library Python Ofproto NxActions NxObjects NxmFields ActionTrees

/-- The parser of `OFPAction` picks the class by the type, and only the experimenter's type leads to
`NXAction`. -/
structure ByType (Other : Type) extends OtherActions Other where
  actionParser_other : ∀ parse buf a len, buf.take 2 ≠ toBytes 2 0xffff →
    actionParser parse buf ≠ .ok (.nx a, len)

def nshActions {Other : Type} (actions : List NshAction) : List (OFPAction Other) :=
  actions.map fun a ↦ .nx (.nsh a)

section Wire

variable {Other : Type} {ryu : Ryu} {others : ByType Other} {fuel : ℕ}

def wire (a : NshAction) : List UInt8 := experimenterHeader 16 ++ (toBytes 2 a.subtype ++ a.packed)

theorem length_wire (a : NshAction) : (wire a).length = if a = .decap then 12 else 16 := by
  cases a <;> rfl

theorem subtype_lt (a : NshAction) : a.subtype < 256 ^ 2 := by
  cases a <;> decide

theorem serialize_nsh (a : NshAction) (buf : List UInt8) :
    serialize ryu others.toOtherActions (.nx (.nsh a)) buf buf.length = .ok (buf ++ wire a) := by
  have hlen : announced a.packed.length = 16 := by
    cases a <;> rfl
  have hsubtype : (Body.nsh a).subtype < 256 ^ 2 := subtype_lt a
  rw [serialize, Body.serializeBody, ok_bind, ryu.msgPackInto_nil,
    serializeFrame_of_lt (by rw [hlen]; decide) hsubtype, hlen]
  rfl

theorem serializeActions_nsh (actions : List NshAction) (data : List UInt8) :
    serializeActions ryu others.toOtherActions (nshActions actions) data =
      .ok (data ++ actions.flatMap wire) := by
  induction actions generalizing data with
  | nil =>
    rw [List.flatMap_nil, List.append_nil]
    rfl
  | cons a actions ih =>
    have hcons : (nshActions (a :: actions) : List (OFPAction Other)) =
        .nx (.nsh a) :: nshActions actions := rfl
    rw [hcons, serializeActions, serialize_nsh, ok_bind, ih, List.flatMap_cons, List.append_assoc]

/-- The class that is found for the subtype of an action. The later one of two registrations with
the same subtype has replaced the earlier one. -/
def registered : NshAction → NshAction
  | .encapNsh => .encapEther
  | a => a

theorem found_nsh (a : NshAction) : found (.nsh a) = .nsh (registered a) := by
  cases a <;> rfl

theorem registered_eq_iff {a : NshAction} : registered a = a ↔ a ≠ .encapNsh := by
  cases a <;> decide

theorem parse_nsh (loop : List UInt8 → Except Stop (List (OFPAction Other))) (a : NshAction)
    (rest : List UInt8) : parse ryu loop fuel (toBytes 2 a.subtype ++ rest) =
      .ok (.nx (.nsh (registered a))) := by
  have hlookup : subtypes.lookup a.subtype = some (.nsh (registered a)) := by
    rw [← found_nsh]
    exact lookup_subtype (.nsh a)
  rw [ActionTrees.parse_subtype (subtype_lt a), hlookup]
  rfl

theorem actionParser_wire (loop : List UInt8 → Except Stop (List (OFPAction Other))) (a : NshAction)
    (rest : List UInt8) : others.actionParser (parse ryu loop fuel) (wire a ++ rest) =
      .ok (.nx (.nsh (registered a)), 16) := by
  rw [wire, List.append_assoc, List.append_assoc,
    actionParser_frame (parse ryu loop fuel) (by decide) (by decide), parse_nsh]
  rfl

theorem actionParser_cut (P : List UInt8 → Except Stop (OFPAction Other)) (a : NshAction)
    (rest : List UInt8) (b : Body) (len : ℕ) :
    others.actionParser P ((wire a ++ rest).drop 4) ≠ .ok (.nx b, len) := by
  refine others.actionParser_other _ _ _ _ ?_
  have hcut : ((wire a ++ rest).drop 4).take 2 = [0, 0] := rfl
  rw [hcut]
  decide

theorem drop_wire {a : NshAction} (ha : a ≠ .decap) (rest : List UInt8) :
    (wire a ++ rest).drop 16 = rest := by
  have hlen : (wire a).length = 16 := by rw [length_wire, if_neg ha]
  rw [← hlen, List.drop_left]

theorem drop_wire_decap (rest : List UInt8) : (wire .decap ++ rest).drop 16 = rest.drop 4 := rfl

theorem parseActions_wire {a : NshAction} {rest : List UInt8} {actions : List (OFPAction Other)} :
    parseActions ryu others.toOtherActions (fuel + 1) (wire a ++ rest) =
        .ok (.nx (.nsh a) :: actions) ↔ a ≠ .encapNsh ∧
      parseActions ryu others.toOtherActions fuel ((wire a ++ rest).drop 16) = .ok actions := by
  rw [parseActions_eq_cons, ← registered_eq_iff]
  constructor
  · rintro ⟨fuel', len, hfuel, -, hparser, hloop⟩
    obtain rfl := Nat.succ.inj hfuel
    rw [actionParser_wire] at hparser
    obtain ⟨haction, rfl⟩ := Prod.mk.inj (Except.ok.inj hparser)
    exact ⟨Body.nsh.inj (OFPAction.nx.inj haction), hloop⟩
  · rintro ⟨ha, hloop⟩
    refine ⟨fuel, 16, rfl, List.cons_ne_nil _ _, ?_, hloop⟩
    rw [actionParser_wire, ha]

def Kept (actions : List NshAction) : Prop :=
  .encapNsh ∉ actions ∧ .decap ∉ actions.dropLast

theorem kept_cons {a : NshAction} {actions : List NshAction} : Kept (a :: actions) ↔
    a ≠ .encapNsh ∧ (a = .decap → actions = []) ∧ Kept actions := by
  cases actions with
  | nil => simp [Kept, eq_comm]
  | cons b actions =>
    simp only [Kept, List.dropLast_cons_cons, List.mem_cons, not_or, reduceCtorEq, imp_false, ne_eq]
    rw [eq_comm (a := NshAction.encapNsh), eq_comm (a := NshAction.decap) (b := a)]
    tauto

variable (ryu others) in
theorem parseActions_iff (actions : List NshAction) :
    (∃ fuel, parseActions ryu others.toOtherActions fuel (actions.flatMap wire) =
      .ok (nshActions actions)) ↔ Kept actions := by
  induction actions with
  | nil => exact ⟨fun _ ↦ ⟨List.not_mem_nil, List.not_mem_nil⟩, fun _ ↦ ⟨0, rfl⟩⟩
  | cons a actions ih =>
    have hcons : (nshActions (a :: actions) : List (OFPAction Other)) =
        .nx (.nsh a) :: nshActions actions := rfl
    rw [kept_cons, ← ih, List.flatMap_cons, hcons]
    constructor
    · rintro ⟨fuel, h⟩
      obtain ⟨fuel, -, rfl, -, -, -⟩ := parseActions_eq_cons.mp h
      obtain ⟨ha, h⟩ := parseActions_wire.mp h
      by_cases hdecap : a = .decap
      · subst hdecap
        cases actions with
        | nil => exact ⟨ha, fun _ ↦ rfl, 0, rfl⟩
        | cons b actions =>
          -- what follows is read from its fifth byte on
          rw [List.flatMap_cons, drop_wire_decap] at h
          obtain ⟨fuel', len, -, -, hparser, -⟩ := parseActions_eq_cons.mp h
          exact absurd hparser (actionParser_cut _ b _ (.nsh b) len)
      · rw [drop_wire hdecap] at h
        exact ⟨ha, fun h ↦ absurd h hdecap, fuel, h⟩
    · rintro ⟨ha, hlast, fuel, h⟩
      refine ⟨fuel + 1, parseActions_wire.mpr ⟨ha, ?_⟩⟩
      by_cases hdecap : a = .decap
      · obtain rfl := hlast hdecap
        subst hdecap
        exact parseActions_nil fuel
      · rwa [drop_wire hdecap]

end Wire

section ConnectionTracking

variable {Other : Type} (ryu : Ryu) (others : ByType Other)

def serializeBody (a : CtFields) (actions : List (OFPAction Other)) :
    Except PyError (List UInt8) := do
  let data ← a.pack ryu
  serializeActions ryu others.toOtherActions actions data

def Readable (a : CtFields) : Prop :=
  ∃ data zoneSrc zone, a.pack ryu = .ok data ∧ zoneBytes ryu a.zoneSrc = .ok zoneSrc ∧
    readZone ryu (clip 4 zoneSrc).1 = .ok zone

/-- The actions are parsed back and serialised again to the same bytes. -/
def RoundTrips (a : CtFields) (actions : List (OFPAction Other)) : Prop :=
  ∃ buf fuel a' actions', serializeBody ryu others a actions = .ok buf ∧
    ctParser ryu (parseActions ryu others.toOtherActions fuel) buf = .ok (.ct a' actions') ∧
    actions' = actions ∧ serializeBody ryu others a actions' = .ok buf

variable {ryu others} {a : CtFields}

theorem serialize_ct (actions : List (OFPAction Other)) (buf : List UInt8) (offset : ℕ) :
    serialize ryu others.toOtherActions (.ct a actions) buf offset =
      serializeBody ryu others a actions >>= fun data ↦
        serializeFrame ryu NxClass.ct.subtype data buf offset := by
  rw [serialize, serializeBody]
  cases a.pack ryu <;> rfl

theorem serializeBody_eq {data : List UInt8} (h : a.pack ryu = .ok data) (actions : List NshAction) :
    serializeBody ryu others a (nshActions actions) = .ok (data ++ actions.flatMap wire) := by
  rw [serializeBody, h, ok_bind, serializeActions_nsh]

theorem parseActions_of_roundTrips (ha : Readable ryu a) {actions : List NshAction}
    (h : RoundTrips ryu others a (nshActions actions)) : ∃ fuel,
      parseActions ryu others.toOtherActions fuel (actions.flatMap wire) =
        .ok (nshActions actions) := by
  obtain ⟨data, zoneSrc, zone, hdata, hbytes, hzone⟩ := ha
  obtain ⟨buf, fuel, a', actions', hbuf, hparser, rfl, -⟩ := h
  obtain rfl := Except.ok.inj ((serializeBody_eq hdata actions).symm.trans hbuf)
  rw [ctParser_append hbytes hzone hdata] at hparser
  refine ⟨fuel, ?_⟩
  cases hloop : parseActions ryu others.toOtherActions fuel (actions.flatMap wire) with
  | error e =>
    rw [hloop] at hparser
    cases hparser
  | ok actions' =>
    rw [hloop] at hparser
    exact congrArg Except.ok (OFPAction.ct.inj (Except.ok.inj hparser)).2

/-- Exactly the lists without an `NXActionEncapNsh`, and without an `NXActionDecap` that something
follows, survive. -/
theorem roundTrips_iff (ha : Readable ryu a) (actions : List NshAction) :
    RoundTrips ryu others a (nshActions actions) ↔ Kept actions := by
  rw [← parseActions_iff ryu others]
  constructor
  · exact parseActions_of_roundTrips ha
  · rintro ⟨fuel, hloop⟩
    obtain ⟨data, zoneSrc, zone, hdata, hbytes, hzone⟩ := ha
    have hbody : serializeBody ryu others a (nshActions actions) =
        .ok (data ++ actions.flatMap wire) := serializeBody_eq hdata actions
    refine ⟨_, fuel, { a with zoneSrc := zone }, _, hbody, ?_, rfl, hbody⟩
    rw [ctParser_append hbytes hzone hdata, hloop]
    rfl

end ConnectionTracking

section Demo

def demoByType : ByType (ℕ × ℕ) where
  toOtherActions := demoOthers
  actionParser_other parse buf a len htype hparser := by
    change demoParser parse buf = _ at hparser
    rw [demoParser, if_neg fun h ↦ htype h.1] at hparser
    split at hparser
    · obtain ⟨o, -, h⟩ := bind_eq_ok hparser
      cases h
    · cases hparser

def demoCT : CtFields := ⟨1, .none, 0, 4, 0⟩

theorem demoCT_readable : Readable niciraRyu demoCT := ⟨_, _, _, rfl, rfl, rfl⟩

theorem roundTrips_demo : RoundTrips niciraRyu demoByType demoCT
    (nshActions [.encapEther, .decNshTtl, .decap]) :=
  (roundTrips_iff demoCT_readable _).mpr ⟨by decide, by decide⟩

/-- The encapsulation with NSH comes back as the one with Ethernet, and behind a decapsulation the
parser finds no action of ours. -/
theorem actions_lost : ¬ RoundTrips niciraRyu demoByType demoCT (nshActions [.encapNsh]) ∧
    ¬ RoundTrips niciraRyu demoByType demoCT (nshActions [.decap, .decNshTtl]) := by
  constructor
  · intro h
    have hkept := (parseActions_iff _ _ _).mp (parseActions_of_roundTrips demoCT_readable h)
    exact hkept.1 (by decide)
  · intro h
    have hkept := (parseActions_iff _ _ _).mp (parseActions_of_roundTrips demoCT_readable h)
    exact hkept.2 (by decide)

end Demo

end NshSfc.ActionLists
