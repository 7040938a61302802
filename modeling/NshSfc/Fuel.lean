import NshSfc.Sent

namespace NshSfc.Fuel

open Library Library.Script Python Database OpenFlow RowMatch App Packets Controller Sent

variable {app : SfcApp} {db : Db} {msg : PacketIn}

def Ends {α : Type} (x : Ctl α) : Prop := x.result ≠ .error .outOfFuel

section Ends

variable {α β : Type}

theorem ends_bind_iff {x : Ctl α} {f : α → Ctl β} (hx : Ends x) :
    Ends (x >>= f) ↔ ∀ a, x.result = .ok a → Ends (f a) := by
  unfold Ends at *
  cases h : x.result with
  | ok a => simp [bind_of_ok h]
  | error e => simpa [bind_of_error h, h] using hx

theorem Ends.bind {x : Ctl α} {f : α → Ctl β} (hx : Ends x)
    (hf : ∀ a, x.result = .ok a → Ends (f a)) : Ends (x >>= f) := (ends_bind_iff hx).mpr hf

theorem ends_pure (a : α) : Ends (pure a : Ctl α) := by simp [Ends]

theorem ends_of_ok {x : Ctl α} {a : α} (h : x.result = .ok a) : Ends x := by simp [Ends, h]

theorem ends_raised (e : PyError) : Ends (.raise (.raised e) : Ctl α) := by simp [Ends]

theorem ends_py (r : Except PyError α) : Ends (py r) := by
  cases r <;> simp [Ends]

theorem ends_fetchone (rows : List α) : Ends (fetchone rows) := by
  cases rows <;> simp [Ends, fetchone]

theorem ends_datapath (dpid : Option Int) : Ends (app.datapath dpid) := by
  unfold SfcApp.datapath
  split
  · exact ends_pure _
  · exact ends_raised _

theorem ends_sendMsg (dp : Datapath) (mod : FlowMod) : Ends (sendMsg dp mod) := by
  unfold sendMsg
  split
  · simp [Ends]
  · exact ends_raised _

end Ends

/-- `r` is what the handler does: its chain loop ends. -/
def Handles (app : SfcApp) (db : Db) (msg : PacketIn) (r : Ctl Db) : Prop :=
  ∃ fuel, packetInHandler fuel app db msg = r ∧ Ends r

theorem walk_add {flowId : ℕ} {ethSrc : String} {fuel : ℕ} {w : Walk}
    (h : Ends (walk app db flowId ethSrc fuel w)) (k : ℕ) :
    walk app db flowId ethSrc (fuel + k) w = walk app db flowId ethSrc fuel w := by
  induction fuel generalizing w with
  | zero => exact absurd rfl h
  | succ fuel ih =>
    rw [Nat.add_right_comm]
    refine bind_congr_of_ends h fun w' _ hw' ↦ ?_
    cases w' with
    | none => rfl
    | some w' => exact ih hw'

theorem install_add {flowId : ℕ} {row : FlowRow} {entry : OFPMatch} {fuel : ℕ}
    (h : Ends (install fuel app db msg flowId row entry)) (k : ℕ) :
    install (fuel + k) app db msg flowId row entry = install fuel app db msg flowId row entry := by
  rcases install_cases app db msg flowId row entry with
    ⟨e, -, he⟩ | ⟨vnfId, loc, dpid, inPort, spi, hspi, hf⟩
  · rw [he, he]
  · rw [install_eq hspi hf] at h
    rw [install_eq hspi hf, install_eq hspi hf]
    exact bind_congr_of_ends h fun _ _ hw ↦ walk_add hw k

theorem activate_add {fuel : ℕ} (h : Ends (activate fuel app db msg)) (k : ℕ) :
    activate (fuel + k) app db msg = activate fuel app db msg := by
  unfold activate at h ⊢
  split
  · rfl
  · split
    · rename_i flowId hid ht
      simp only [hid, ht, if_true] at h
      refine bind_congr_of_ends h fun row _ h ↦ ?_
      refine bind_congr_of_ends h fun entry _ h ↦ ?_
      refine bind_congr_of_ends h fun m _ h ↦ ?_
      exact bind_congr_of_ends h fun _ _ h ↦ install_add h k
    · rfl

theorem ends_catching {x : Ctl Unit} : Ends (catching isKeyError x) ↔ Ends x := by
  unfold Ends catching
  cases x.result with
  | ok a => simp
  | error e => cases e with
    | raised e => cases e <;> simp [isKeyError]
    | outOfFuel => simp [isKeyError]

theorem handler_add {fuel : ℕ} (h : Ends (packetInHandler fuel app db msg)) (k : ℕ) :
    packetInHandler (fuel + k) app db msg = packetInHandler fuel app db msg := by
  refine bind_congr_of_ends h fun db' _ h ↦ ?_
  have ha : Ends (activate fuel app db' msg) := by
    rw [← ends_catching]
    intro he
    exact h (by rw [bind_of_error he])
  rw [activate_add ha]

theorem Handles.unique {r r' : Ctl Db} (h : Handles app db msg r) (h' : Handles app db msg r') :
    r = r' := by
  obtain ⟨fuel, rfl, hr⟩ := h
  obtain ⟨fuel', rfl, hr'⟩ := h'
  rw [← handler_add hr fuel', ← handler_add hr' fuel, Nat.add_comm]

end NshSfc.Fuel
