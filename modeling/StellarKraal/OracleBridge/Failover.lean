import StellarKraal.OracleBridge.Guarantees
import StellarKraal.Foundation.TransitionSystem

/-!
# Two instances and the failover runbook

Two instances, each with a state directory of its own, share the latest backup. An
operator starts, stops and promotes them by the runbook. What an instance comes up
as is decided by its state file first and by `BRIDGE_ROLE` only where there is none.
-/

namespace StellarKraal.OracleBridge

open TransitionSystem (Transition)

/-! ## The system -/

inductive Instance
  | one
  | two
  deriving DecidableEq, Repr

namespace Instance

def other : Instance → Instance
  | .one => .two
  | .two => .one

theorem other_ne (i : Instance) : i.other ≠ i := by
  cases i <;> decide

@[simp] theorem other_other (i : Instance) : i.other.other = i := by
  cases i <;> rfl

theorem eq_or_eq_other (i j : Instance) : j = i ∨ j = i.other := by
  cases i <;> cases j <;> decide

end Instance

/-- A promotion on the directory still has its result to come. -/
def Site.promoting (site : Site) : Bool :=
  site.promotions.any fun promotion =>
    match promotion with
    | .done _ => false
    | .ask _ _ => true

structure Pair where
  sites : Instance → Site
  latest : File

namespace Pair

abbrev Action := Instance × Site.Action

/-- The runbook: an instance is promoted only while the other is stopped, and what
was a primary is started as a standby only. -/
def allows (s : Pair) (i : Instance) : Site.Action → Bool
  | .start config => !(s.sites i.other).promoting &&
      (!(s.sites i).formerPrimary || config.role = .standby)
  | .promote => (s.sites i.other).process.isNone
  | .stop | .fire _ | .advance _ | .advancePromotion _ _ => true

def act (s : Pair) (a : Action) : Option Pair :=
  if s.allows a.1 a.2 then
    ((s.sites a.1).act s.latest a.2).map fun (site, latest) =>
      ⟨Function.update s.sites a.1 site, latest⟩
  else none

/-- Both are stopped, with whatever files. -/
def Initial (s : Pair) : Prop :=
  ∀ i, (s.sites i).process = none ∧ (s.sites i).promotions = []

def system : TransitionSystem Pair Action where
  Initial := Initial
  Step s a s' := s.act a = some s'

end Pair

/-! ## Subordinate instances -/

/-- The process is not a primary, and nothing it finds in its file, which does not
bring one up, makes it one. -/
structure Process.Subordinate (file : File) (process : Process) : Prop where
  mode : process.mode ≠ .primary
  file : file.startsPrimary process.config = false
  rest : process.rest.Guarantees (Query.Reads (·.startsPrimary process.config = false))
    (Query.WritesRole false) Outcome.Subordinate

/-- Stopped, or subordinate. -/
def Site.Subordinate (site : Site) : Prop :=
  ∀ process, site.process = some process → process.Subordinate site.file

theorem Site.Subordinate.of_stopped {site : Site} (h : site.process = none) : site.Subordinate := by
  intro process hprocess
  simp [h] at hprocess

/-- The state file brings up a primary only next to a subordinate. -/
def Pair.StartsClear (t : Transition Pair Pair.Action) : Prop :=
  ∀ i config, t.action = (i, .start config) →
    (t.before.sites i).file.startsPrimary config = true → (t.before.sites i.other).Subordinate

theorem Process.Subordinate.started {config : BridgeConfig} {file : File}
    (h : file.startsPrimary config = false) : (Process.started config).Subordinate file where
  mode := nofun
  file := h
  rest := startup_stands_by config

section

variable {process process' : Process} {file : File}

theorem Process.Subordinate.fire (h : process.Subordinate file) {callback : Callback}
    (hmode : callback.mode = process.mode) : Process.Subordinate file { process with
      running := some (callback.script process.config process.state) } := by
  cases callback with
  | tick => exact ⟨h.mode, h.file, tick_stands_by process.config process.state⟩
  | _ => exact absurd hmode.symm h.mode

theorem Process.Subordinate.advance {script : Script Query.Reply Outcome} {outside : Outside}
    {latest : File} (h : process.Subordinate file) (hrunning : process.running = some script)
    (hprocess : process.continued (script.step (serve outside) ⟨file, latest⟩).1 = some process') :
    process'.Subordinate (script.step (serve outside) ⟨file, latest⟩).2.state := by
  obtain ⟨hconfig, hmode⟩ := Process.continued_mode hprocess
  have hrest := Process.advance_guarantees h.rest h.file hrunning hprocess
  refine ⟨?_, ?_, by rwa [hconfig]⟩
  · rcases hmode with hsame | hidle
    · exact hsame ▸ h.mode
    · rw [Process.rest_of_idle hidle] at hrest
      exact hrest process'.mode process'.state rfl
  · rw [hconfig]
    exact Process.advance_file (·.startsPrimary process.config = false) h.rest
      (fun _ hstate => hstate) h.file hrunning

end

/-! ## Runs -/

namespace Pair

/-- The invariant: one of the two is subordinate at any time. -/
structure Safe (s : Pair) : Prop where
  subordinate : ∃ i, (s.sites i).Subordinate
  promoting : ∀ i, (s.sites i).promoting = true → (s.sites i.other).process = none

theorem site_effect {s s' : Pair} {i : Instance} {action : Site.Action}
    (h : s.act (i, action) = some s') : s.allows i action = true ∧
      Site.Effect (s.sites i) s.latest action (s'.sites i) s'.latest ∧
        s'.sites i.other = s.sites i.other := by
  simp only [act] at h
  split at h
  next hallowed =>
    obtain ⟨⟨site, latest⟩, hact, rfl⟩ := Option.map_eq_some_iff.mp h
    refine ⟨hallowed, ?_, Function.update_of_ne i.other_ne _ _⟩
    simpa only [Function.update_self] using Site.Effect.of_act hact
  next => contradiction

end Pair

/-- A subordinate instance stays one, unless it is promoted or started as a primary. -/
theorem Site.Effect.subordinate {site site' : Site} {latest latest' : File} {action : Site.Action}
    (h : site.Effect latest action site' latest') (hsite : site.Subordinate)
    (hstart : ∀ config, action = .start config → site.file.startsPrimary config = false)
    (hpromotion : site.promoting = false) : site'.Subordinate := by
  cases h with
  | start config hprocess =>
      intro process hprocess
      obtain rfl := Option.some.inj hprocess
      exact .started (hstart config rfl)
  | stop hprocess => exact .of_stopped rfl
  | fire callback hprocess hidle hmode =>
      intro process' hprocess'
      obtain rfl := Option.some.inj hprocess'
      exact (hsite _ hprocess).fire hmode
  | advance outside hprocess hrunning =>
      intro process' hprocess'
      exact (hsite _ hprocess).advance hrunning hprocess'
  | promote => exact hsite
  | @advancePromotion k script outside hk =>
      have hmem := List.mem_of_getElem? hk
      cases script with
      | done result => exact hsite
      | ask query next =>
          have hnone := List.any_eq_false.mp hpromotion _ hmem
          contradiction

theorem Site.Effect.stopped {site site' : Site} {latest latest' : File} {action : Site.Action}
    (h : site.Effect latest action site' latest') (hsite : site.process = none)
    (hstart : ∀ config, action ≠ .start config) : site'.process = none := by
  cases h with
  | start config hprocess => exact absurd rfl (hstart config)
  | stop hprocess => rfl
  | fire callback hprocess => simp [hsite] at hprocess
  | advance outside hprocess => simp [hsite] at hprocess
  | promote => exact hsite
  | advancePromotion outside hk => exact hsite

theorem Site.Effect.promoting {site site' : Site} {latest latest' : File} {action : Site.Action}
    (h : site.Effect latest action site' latest') (hsite : site'.promoting = true) :
    site.promoting = true ∨ action = .promote := by
  cases h with
  | promote => exact .inr rfl
  | @advancePromotion k script outside hk =>
      left
      cases script with
      | done result =>
          obtain ⟨hlt, hget⟩ := List.getElem?_eq_some_iff.mp hk
          rw [Site.promoting, Script.step, ← hget, List.set_getElem_self hlt] at hsite
          exact hsite
      | ask query next => exact List.any_eq_true.mpr ⟨_, List.mem_of_getElem? hk, rfl⟩
  | _ => exact .inl hsite

namespace Pair

theorem Safe.step {s s' : Pair} {a : Action} (h : s.Safe) (hstep : s.act a = some s')
    (hclear : StartsClear ⟨s, a, s'⟩) : s'.Safe := by
  obtain ⟨i, action⟩ := a
  obtain ⟨hallowed, heffect, hother⟩ := site_effect hstep
  refine ⟨?_, fun j hj => ?_⟩
  · by_cases hothers : (s.sites i.other).Subordinate
    · exact ⟨i.other, by rwa [hother]⟩
    -- The instance that acts is the subordinate one, so nothing may promote it.
    · obtain ⟨j, hj⟩ := h.subordinate
      have hi : (s.sites i).Subordinate := by
        rcases i.eq_or_eq_other j with rfl | rfl
        · exact hj
        · contradiction
      refine ⟨i, heffect.subordinate hi ?_ ?_⟩
      · rintro config rfl
        by_contra hprimary
        exact hothers (hclear i config rfl (by simpa using hprimary))
      · by_contra hpromoting
        exact hothers (.of_stopped (h.promoting i (by simpa using hpromoting)))
  · rcases i.eq_or_eq_other j with rfl | rfl
    · rw [hother]
      rcases heffect.promoting hj with hbefore | rfl
      · exact h.promoting j hbefore
      · simpa [allows] using hallowed
    · rw [hother] at hj
      rw [Instance.other_other]
      have hstopped : (s.sites i).process = none := by
        simpa only [Instance.other_other] using h.promoting i.other hj
      apply heffect.stopped hstopped
      rintro config rfl
      simp [allows, hj] at hallowed

end Pair

open Pair

/-- Two instances run by the runbook are never both in primary mode, if a state file
brings one up as a primary only next to a subordinate. -/
theorem never_two_primaries {start s : Pair} {steps : List (Transition Pair Pair.Action)}
    (hstart : start.Initial) (hrun : system.Run start steps s)
    (hclear : ∀ t ∈ steps, StartsClear t) :
    ¬ ∀ i, ∃ process, (s.sites i).process = some process ∧ process.mode = .primary := by
  have hsafe : s.Safe := by
    apply hrun.invariant_of_steps StartsClear (fun s a s' h => h.step) hclear
    refine ⟨⟨.one, .of_stopped (hstart .one).1⟩, fun i _ => (hstart i.other).1⟩
  obtain ⟨i, hsubordinate⟩ := hsafe.subordinate
  intro hboth
  obtain ⟨process, hprocess, hprimary⟩ := hboth i
  exact (hsubordinate process hprocess).mode hprimary

/-! A failover: the primary goes away and the standby is promoted. -/

namespace Sample

def stopped : Pair where
  sites _ := ⟨.missing, none, [], false⟩
  latest := .missing

def startOf (i : Instance) (role : BridgeRole) (accesses : Nat) : List Pair.Action :=
  (i, .start { config with role }) :: List.replicate accesses (i, .advance refusing)

/-- The promotion of `two` and the tick that finds it. -/
def failover : List Pair.Action :=
  startOf .one .primary 7 ++ startOf .two .standby 4 ++ [(.one, .stop), (.two, .promote)] ++
    List.replicate 6 (.two, .advancePromotion 0 ⟨"", fun _ => some "SKEY"⟩) ++
    (.two, .fire .tick) :: List.replicate 5 (.two, .advance refusing)

theorem stopped_initial : stopped.Initial :=
  fun _ => ⟨rfl, rfl⟩

end Sample

theorem startsClear_of_all {steps : List (Transition Pair Pair.Action)}
    (h : steps.all (fun t => match t.action with
      | (i, .start config) => !(t.before.sites i).file.startsPrimary config ||
          (t.before.sites i.other).process.isNone
      | _ => true) = true) : ∀ t ∈ steps, StartsClear t := by
  intro t ht i config haction hprimary
  have hstart := List.all_eq_true.mp h t ht
  simp only [haction, hprimary] at hstart
  exact .of_stopped (by simpa using hstart)

/-- Through the sample failover there is one primary at most. -/
theorem sample_failover_safe :
    ∃ steps s, system.Run Sample.stopped steps s ∧
      (s.sites .two).process.map (·.mode) = some .primary ∧
      ¬ ∀ i, ∃ process, (s.sites i).process = some process ∧ process.mode = .primary := by
  have hrun : system.Run Sample.stopped _ _ := TransitionSystem.Run.of_replay (fun _ _ _ h => h)
    (show TransitionSystem.replay act _ Sample.failover = some (_, _) from rfl)
  exact ⟨_, _, hrun, rfl, never_two_primaries Sample.stopped_initial hrun (startsClear_of_all rfl)⟩

/-- The old primary comes back with `BRIDGE_ROLE=standby` and its old state file. -/
theorem restarted_primary_splits :
    ¬ ∀ (start s : Pair) (steps : List (Transition Pair Pair.Action)), start.Initial →
      system.Run start steps s →
      ¬ ∀ i, ∃ process, (s.sites i).process = some process ∧ process.mode = .primary := by
  intro hall
  have hrun : system.Run Sample.stopped _ _ := TransitionSystem.Run.of_replay (fun _ _ _ h => h)
    (show TransitionSystem.replay act _ (Sample.failover ++ Sample.startOf .one .standby 6) =
      some (_, _) from rfl)
  apply hall _ _ _ Sample.stopped_initial hrun
  intro i
  cases i with
  | one => exact ⟨_, rfl, rfl⟩
  | two => exact ⟨_, rfl, rfl⟩

end StellarKraal.OracleBridge
