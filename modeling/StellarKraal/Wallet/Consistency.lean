import StellarKraal.Foundation.History
import StellarKraal.Wallet.Manager

/-!
# What the wallet manager shows

An address is shown with the wallet it belongs to. It is shown with a connection unless
another connection is attempted over it.
-/

namespace StellarKraal.Wallet

open TransitionSystem (Transition)

structure Consistent (s : WalletManager) : Prop where
  connected : s.state.address ≠ none ↔ s.state.state = .connected
  walletId : s.state.walletId ≠ none ↔ s.state.address ≠ none

/-- A connection is attempted, or fails, while the address of a wallet is shown. -/
def Overlays (t : Transition WalletManager Action) : Prop :=
  turn t = .attempt ∧ t.before.state.address ≠ none

instance (t : Transition WalletManager Action) : Decidable (Overlays t) :=
  inferInstanceAs (Decidable (_ ∧ _))

theorem Consistent.fresh {s : WalletManager} (hfresh : s.Fresh) : Consistent s := by
  constructor <;> simp [hfresh.state]

theorem Consistent.step_iff {s s' : WalletManager} {a : Action} (h : Consistent s)
    (hact : s.act a = some s') : Consistent s' ↔ ¬ Overlays ⟨s, a, s'⟩ := by
  have heffect := (act_spec hact).1
  unfold Overlays
  generalize turn ⟨s, a, s'⟩ = kind at heffect
  cases heffect with
  | attempt state address walletId item =>
      have hstate : s'.state.state ≠ .connected := by
        rcases state with hstate | hstate <;> simp [hstate]
      constructor
      · rintro hconsistent ⟨-, haddress⟩
        exact hstate (hconsistent.connected.mp (address ▸ haddress))
      · intro hnone
        have haddress : s'.state.address = none := by
          rw [address]
          by_contra hshown
          exact hnone ⟨rfl, hshown⟩
        refine ⟨iff_of_false (not_not.mpr haddress) hstate, ?_⟩
        rw [walletId, address]
        exact h.walletId
  | connection state address walletId =>
      refine iff_of_true ⟨iff_of_true ?_ state, iff_of_true ?_ ?_⟩ (by simp)
      · exact Option.isSome_iff_ne_none.mp address
      · exact Option.isSome_iff_ne_none.mp walletId
      · exact Option.isSome_iff_ne_none.mp address
  | disconnection state address walletId item =>
      refine iff_of_true ⟨?_, ?_⟩ (by simp)
      · simp [state, address]
      · simp [walletId, address]
  | other state address walletId item =>
      refine iff_of_true ⟨?_, ?_⟩ (by simp)
      · rw [state, address]
        exact h.connected
      · rw [walletId, address]
        exact h.walletId

/-- In a run, the state is consistent at every moment exactly if no connection is attempted
over another. -/
theorem consistent_iff {start s : WalletManager} {steps : List (Transition WalletManager Action)}
    (hstart : walletManager.Initial start) (hrun : walletManager.Run start steps s) :
    walletManager.Throughout start steps (fun _ s => Consistent s) ↔
      ∀ t ∈ steps, ¬ Overlays t :=
  TransitionSystem.Throughout.iff_forall hrun _ (Consistent.fresh hstart)
    fun _ _ _ _ _ hconsistent hact => hconsistent.step_iff hact

namespace Sample

/-- A connection to Freighter. -/
def connection : List Action :=
  [.connect .freighter, .detect 0 (.ok true), .connected 0 (.ok "GABC") true]

end Sample

/-- The second wallet is connected after the first has been disconnected. -/
theorem sample_consistent_iff : ∃ steps s, walletManager.Run Sample.fresh steps s ∧
    s.state.address = some "GDEF" ∧
    walletManager.Throughout Sample.fresh steps (fun _ s => Consistent s) := by
  have hrun := @Sample.run_of_replay _ (Sample.connection ++
    [.switchWallet .xBull, .disconnected 1 (.ok ()), .detect 1 (.ok true),
      .connected 1 (.ok "GDEF") true]) _ rfl
  exact ⟨_, _, hrun, rfl, (consistent_iff Sample.fresh_fresh hrun).mpr (by decide)⟩

/-- The second wallet refuses, and the address of the first is left with an error. -/
theorem refusal_leaves_address : ¬ ∀ (s : WalletManager) steps,
    walletManager.Run Sample.fresh steps s → Consistent s := by
  intro hclaim
  have hrun := @Sample.run_of_replay _ (Sample.connection ++
    [.connect .xBull, .detect 1 (.ok true), .connected 1 (.error ⟨some "rejected"⟩) true]) _ rfl
  have hconsistent := hclaim _ _ hrun
  have herror : WalletState.error = .connected := hconsistent.connected.mp (by decide)
  contradiction

end StellarKraal.Wallet
