import StellarKraal.Foundation.History
import StellarKraal.Wallet.Manager

/-!
# Whether a disconnection is final

Nothing tells a call that waits for an adapter that the wallet has been disconnected
meanwhile. Where it is answered after that, it connects all the same.
-/

namespace StellarKraal.Wallet

open TransitionSystem (Transition)

/-- No wallet is connected, and no session is stored. -/
structure SignedOut (s : WalletManager) : Prop where
  state : s.state.state = .disconnected
  address : s.state.address = none
  item : s.item = none

/-- Since a disconnection has come to its end, no connection has been attempted, made or
restored. -/
def Stands (steps : List (Transition WalletManager Action)) : Prop :=
  ∃ earlier t later, steps = earlier ++ t :: later ∧ turn t = .disconnection ∧
    ∀ u ∈ later, turn u = .other

def Action.starts : Action → Bool
  | .initializeManager | .connect _ | .disconnect | .switchWallet _ => true
  | _ => false

def Action.signsOut : Action → Bool
  | .disconnect | .switchWallet _ => true
  | _ => false

/-- Before a single `disconnect` only `initialize` and `connect` are called, and nothing
after it. -/
def OneDisconnect (steps : List (Transition WalletManager Action)) : Prop :=
  ∃ earlier t later, steps = earlier ++ t :: later ∧ t.action = .disconnect ∧
    (∀ u ∈ earlier, u.action.signsOut = false) ∧ ∀ u ∈ later, u.action.starts = false

section Steps

variable {s s' : WalletManager} {a : Action}
  {steps : List (Transition WalletManager Action)}

theorem stands_snoc {t : Transition WalletManager Action} :
    Stands (steps ++ [t]) ↔ turn t = .disconnection ∨ turn t = .other ∧ Stands steps := by
  constructor
  · rintro ⟨earlier, u, later, hsplit, hu, hlater⟩
    rcases List.eq_nil_or_concat later with rfl | ⟨rest, last, rfl⟩
    · obtain ⟨rfl, hlast⟩ := List.append_inj' hsplit rfl
      obtain rfl := List.singleton_inj.mp hlast
      exact .inl hu
    · rw [List.concat_eq_append, ← List.cons_append, ← List.append_assoc] at hsplit
      obtain ⟨hsteps, hlast⟩ := List.append_inj' hsplit rfl
      obtain rfl := List.singleton_inj.mp hlast
      rw [List.concat_eq_append, List.forall_mem_append, List.forall_mem_singleton] at hlater
      exact .inr ⟨hlater.2, earlier, u, rest, hsteps, hu, hlater.1⟩
  · rintro (ht | ⟨ht, earlier, u, later, rfl, hu, hlater⟩)
    · exact ⟨steps, t, [], rfl, ht, fun _ hu => absurd hu List.not_mem_nil⟩
    · refine ⟨earlier, u, later ++ [t], by simp, hu, List.forall_mem_append.mpr ⟨hlater, ?_⟩⟩
      exact List.forall_mem_singleton.mpr ht

/-! ## What the last disconnection leaves -/

/-- A disconnection that stands has signed the user out, and if one has ended but does not
stand, the state tells. -/
theorem stands_of_run {start : WalletManager} (hrun : walletManager.Run start steps s) :
    (Stands steps → SignedOut s) ∧
      ((∃ t ∈ steps, turn t = .disconnection) → s.state.state = .disconnected → Stands steps) := by
  induction hrun with
  | nil =>
      refine ⟨?_, by simp⟩
      rintro ⟨earlier, t, later, hsplit, -⟩
      simp at hsplit
  | @snoc steps s s' a prior step ih =>
      have heffect := (act_spec step).1
      rw [stands_snoc]
      generalize hkind : turn ⟨s, a, s'⟩ = kind at heffect
      cases heffect with
      | attempt state address walletId item =>
          refine ⟨by simp, fun _ hstate => ?_⟩
          rcases state with state | state <;> simp [hstate] at state
      | connection state address walletId =>
          refine ⟨by simp, fun _ hstate => ?_⟩
          simp [hstate] at state
      | disconnection state address walletId item =>
          exact ⟨fun _ => ⟨state, address, item⟩, fun _ _ => .inl rfl⟩
      | other state address walletId item =>
          simp only [reduceCtorEq, false_or, true_and]
          constructor
          · intro hstands
            obtain ⟨hstate, haddress, hitem⟩ := ih.1 hstands
            exact ⟨state.trans hstate, address.trans haddress, item.elim (·.trans hitem) id⟩
          · rintro ⟨t, ht, hdisconnection⟩ hstate
            refine ih.2 ⟨t, ?_, hdisconnection⟩ (state ▸ hstate)
            rcases List.mem_append.mp ht with ht | ht
            · exact ht
            · obtain rfl := List.mem_singleton.mp ht
              simp [hkind] at hdisconnection

/-! ## The end of the disconnection -/

/-- Numbers that have not been given out are not in use. -/
def Numbered (s : WalletManager) : Prop := ∀ call, s.started ≤ call → s.calls call = none

theorem Numbered.step (h : Numbered s) (hact : s.act a = some s') : Numbered s' := by
  intro k hk
  cases (act_spec hact).2 with
  | begins started others =>
      rw [others k (by omega)]
      exact h k (by omega)
  | @answers call wait waits ends started others =>
      have hne : k ≠ call := by
        rintro rfl
        simp [h k (by omega)] at waits
      rw [others k hne]
      exact h k (by omega)
  | none started calls =>
      rw [calls]
      exact h k (by omega)

/-- A call that waits to disconnect goes on waiting, until the disconnection. -/
theorem Numbered.waits (h : Numbered s) (hact : s.act a = some s') {call : Nat}
    {walletId : WalletId} {next : Option WalletId}
    (hwaits : s.calls call = some (.disconnecting walletId next)) :
    turn ⟨s, a, s'⟩ = .disconnection ∨ s'.calls call = some (.disconnecting walletId next) := by
  cases (act_spec hact).2 with
  | begins started others =>
      have hne : call ≠ s.started := by
        rintro rfl
        simp [h s.started (Nat.le_refl _)] at hwaits
      exact .inr ((others call hne).trans hwaits)
  | @answers answered wait waits ends started others =>
      by_cases hcall : call = answered
      · obtain rfl := hcall
        obtain rfl := Option.some.inj (waits.symm.trans hwaits)
        exact ends.imp_right fun hnot => absurd rfl (hnot walletId next)
      · exact .inr ((others call hcall).trans hwaits)
  | none started calls => exact .inr (calls ▸ hwaits)

/-- Once it is called, `disconnect` waits or has come to its end. -/
theorem disconnect_waits {start : WalletManager} (hstart : walletManager.Initial start)
    (hrun : walletManager.Run start steps s)
    (hcalled : ∃ t ∈ steps, t.action = .disconnect) :
    (∃ t ∈ steps, turn t = .disconnection) ∨
      ∃ call walletId next, s.calls call = some (.disconnecting walletId next) := by
  induction hrun with
  | nil => simp at hcalled
  | @snoc steps s s' a prior step ih =>
      have hnumbered : Numbered s :=
        prior.invariant_of_steps (fun _ => True) (fun _ _ _ h hact _ => h.step hact)
          (fun _ _ => trivial) fun call _ => hstart.calls call
      have hlast : (⟨s, a, s'⟩ : Transition WalletManager Action) ∈ steps ++ [⟨s, a, s'⟩] :=
        List.mem_append_right _ List.mem_cons_self
      by_cases hearlier : ∃ t ∈ steps, t.action = .disconnect
      · rcases ih hearlier with ⟨t, ht, hended⟩ | ⟨call, walletId, next, hwaits⟩
        · exact .inl ⟨t, List.mem_append_left _ ht, hended⟩
        · refine (hnumbered.waits step hwaits).imp (fun hended => ⟨_, hlast, hended⟩) ?_
          exact fun hwaits => ⟨call, walletId, next, hwaits⟩
      · obtain ⟨t, ht, haction⟩ := hcalled
        rcases List.mem_append.mp ht with ht | ht
        · exact absurd ⟨t, ht, haction⟩ hearlier
        · obtain rfl := List.mem_singleton.mp ht
          obtain rfl : a = .disconnect := haction
          obtain rfl := Option.some.inj step
          cases hwalletId : s.state.walletId with
          | none => exact .inl ⟨_, hlast, by simp [turn, hwalletId]⟩
          | some walletId =>
              refine .inr ⟨s.started, walletId, none, ?_⟩
              simp [WalletManager.enter, WalletManager.disconnect, hwalletId, WalletManager.waits]

end Steps

/-- When `disconnect` and the calls before it have all come to their ends, the user is
signed out exactly if after the end of `disconnect` no connection is attempted, made or
restored. -/
theorem signed_out_iff {start s : WalletManager}
    {steps : List (Transition WalletManager Action)} (hstart : walletManager.Initial start)
    (hrun : walletManager.Run start steps s) (hone : OneDisconnect steps)
    (hdone : ∀ call, s.calls call = none) : SignedOut s ↔ Stands steps := by
  obtain ⟨hsignedOut, hstands⟩ := stands_of_run hrun
  obtain ⟨earlier, t, later, rfl, hdisconnect, -, -⟩ := hone
  refine ⟨fun hout => hstands ?_ hout.state, hsignedOut⟩
  have hcalled : ∃ u ∈ earlier ++ t :: later, u.action = .disconnect := ⟨t, by simp, hdisconnect⟩
  refine (disconnect_waits hstart hrun hcalled).resolve_right ?_
  rintro ⟨call, walletId, next, hwaits⟩
  simp [hdone call] at hwaits

/-- The manager is ready and Freighter connected before `disconnect` is called. -/
theorem sample_signed_out : ∃ steps s, walletManager.Run Sample.fresh steps s ∧
    OneDisconnect steps ∧ SignedOut s := by
  have hrun := @Sample.run_of_replay _ [.initializeManager, .connect .freighter,
    .detectWallets 0 fun _ => true, .detect 1 (.ok true), .connected 1 (.ok "GABC") true,
    .disconnect, .disconnected 2 (.ok ())] _ rfl
  refine ⟨_, _, hrun, ?one, (signed_out_iff Sample.fresh_fresh hrun ?one ?_).mpr
    ⟨[_, _, _, _, _, _], _, [], rfl, rfl, by decide⟩⟩
  case one => exact ⟨[_, _, _, _, _], _, [_], rfl, rfl, by decide, by decide⟩
  rintro (_ | _ | _ | call) <;> rfl

/-- While Freighter is asked for a connection, `disconnect` is called and comes to its end,
and then the wallet agrees. -/
theorem late_connection_signs_in : ¬ ∀ (s : WalletManager) steps,
    walletManager.Run Sample.fresh steps s → OneDisconnect steps →
      (∀ call, s.calls call = none) → SignedOut s := by
  intro hclaim
  have hrun := @Sample.run_of_replay _ [.connect .freighter, .detect 0 (.ok true), .disconnect,
    .connected 0 (.ok "GABC") true] _ rfl
  have hstate : WalletState.connected = .disconnected := by
    refine (hclaim _ _ hrun ⟨[_, _], _, [_], rfl, rfl, by decide, by decide⟩ ?_).state
    rintro (_ | _ | call) <;> rfl
  contradiction

end StellarKraal.Wallet
