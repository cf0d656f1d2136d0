import StellarKraal.PriceEvents.Service

/-!
# What a client of the price stream receives

From its registration on a client is written every event that is broadcast on its credit,
until it is cleaned up or refuses a write. What other clients do has no part in it.
-/

namespace StellarKraal.PriceEvents

open TransitionSystem (Transition)

/-- The event that a step broadcasts, and what the write callbacks return. -/
def broadcastOf (t : Transition Service Action) : Option (PriceEvent × (SseClient → Bool)) :=
  match t.action with
  | .created call row writable =>
      (t.before.publishing call).map fun publishing => (t.before.fullEvent publishing row, writable)
  | _ => none

def CleansUp (client : SseClient) (t : Transition Service Action) : Bool :=
  match t.action with
  | .cleanup other => decide (other = client)
  | _ => false

/-- The events broadcast on a client's credit, until its cleanup or the first write that it
refuses. -/
def stream (client : SseClient) : List (Transition Service Action) → List PriceEvent
  | [] => []
  | t :: later =>
      if CleansUp client t then []
      else
        match broadcastOf t with
        | some (event, writable) =>
            if event.creditId = client.creditId then
              event :: if writable client then stream client later else []
            else stream client later
        | none => stream client later

/-! ## What the operations leave alone -/

section Operations

variable {s s' : Service} {client other : SseClient} {event : PriceEvent}
  {writable : SseClient → Bool}

theorem unregisterSseClient_spec (s : Service) (clientId : String) :
    ∃ sseClients, s.unregisterSseClient clientId = { s with sseClients } := by
  unfold Service.unregisterSseClient
  split
  next => exact ⟨_, rfl⟩
  next => exact ⟨_, rfl⟩

theorem cleanup_spec (s : Service) (client : SseClient) :
    ∃ sseClients, s.cleanup client = { s with
      sseClients
      priceEventBus := s.priceEventBus.off (channel client.creditId) client } :=
  unregisterSseClient_spec ..

theorem channel_injective : Function.Injective channel := by
  intro a b h
  exact (String.append_right_inj _).mp h

/-- Listeners are registered clients, each once and on the channel of its credit. -/
structure WellFormed (s : Service) : Prop where
  distinct : s.priceEventBus.Distinct
  listening : ∀ ch client, client ∈ s.priceEventBus ch →
    ch = channel client.creditId ∧ client ∈ s.registrations
  numbered : ∀ client ∈ s.registrations, client.number < s.registrations.length
  unwritten : ∀ client, client ∉ s.registrations → s.written client = []

def Listening (s : Service) (client : SseClient) : Prop :=
  client ∈ s.priceEventBus (channel client.creditId)

theorem WellFormed.cleanup (h : WellFormed s) (client : SseClient) :
    WellFormed (s.cleanup client) ∧ (s.cleanup client).registrations = s.registrations := by
  obtain ⟨sseClients, heq⟩ := cleanup_spec s client
  rw [heq]
  refine ⟨⟨h.distinct.off, fun ch other hmem => ?_, h.numbered, h.unwritten⟩, rfl⟩
  exact h.listening ch other (h.distinct.mem_off.mp hmem).1

theorem listening_cleanup (h : s.priceEventBus.Distinct) :
    Listening (s.cleanup other) client ↔ Listening s client ∧ client ≠ other := by
  obtain ⟨sseClients, heq⟩ := cleanup_spec s other
  unfold Listening
  rw [heq]
  refine h.mem_off.trans (and_congr_right fun _ => not_congr ?_)
  constructor
  · exact And.right
  · rintro rfl
    exact ⟨rfl, rfl⟩

theorem cleanup_written (s : Service) (client : SseClient) :
    (s.cleanup client).written = s.written := by
  obtain ⟨sseClients, heq⟩ := cleanup_spec s client
  rw [heq]

/-! ## One broadcast -/

theorem WellFormed.handler (h : WellFormed s) (hmem : client ∈ s.registrations) :
    WellFormed (Service.handler event writable client s) ∧
      (Service.handler event writable client s).registrations = s.registrations := by
  have hwritten : WellFormed (s.write client (formatSseEvent event)) := by
    refine ⟨h.distinct, h.listening, h.numbered, fun other hother => ?_⟩
    exact (Function.update_of_ne (ne_of_mem_of_not_mem hmem hother).symm ..).trans
      (h.unwritten other hother)
  unfold Service.handler
  split
  next => exact ⟨hwritten, rfl⟩
  next => exact hwritten.cleanup client

theorem handler_written : (Service.handler event writable client s).written other =
    if other = client then s.written other ++ [formatSseEvent event] else s.written other := by
  have hwritten : (Service.handler event writable client s).written =
      (s.write client (formatSseEvent event)).written := by
    unfold Service.handler
    split
    next => rfl
    next => exact cleanup_written ..
  rw [hwritten]
  refine (Function.update_apply ..).trans ?_
  split
  next heq => rw [heq]
  next => rfl

theorem listening_handler (h : s.priceEventBus.Distinct) :
    Listening (Service.handler event writable other s) client ↔
      Listening s client ∧ (client = other → writable client = true) := by
  unfold Service.handler
  split
  next hwritable =>
    refine (and_iff_left ?_).symm
    rintro rfl
    exact hwritable
  next hrefused =>
    have hcleanup := @listening_cleanup (s.write other (formatSseEvent event)) client other h
    refine hcleanup.trans (and_congr_right fun _ => ?_)
    constructor
    · exact fun hne heq => absurd heq hne
    · rintro himp rfl
      exact hrefused (himp rfl)

/-- The state that a broadcast began in has all the listeners it calls. -/
theorem WellFormed.calls (h : WellFormed s) (ch : String) : ∀ other ∈ s.priceEventBus ch, ∀ after,
    WellFormed after ∧ after.registrations = s.registrations →
      WellFormed (Service.handler event writable other after) ∧
        (Service.handler event writable other after).registrations = s.registrations := by
  rintro other hother after ⟨hafter, hsame⟩
  have hmem := (h.listening ch other hother).2
  obtain ⟨hnext, hregistrations⟩ := hafter.handler (hsame ▸ hmem)
  exact ⟨hnext, hregistrations.trans hsame⟩

theorem WellFormed.broadcast (h : WellFormed s) (event : PriceEvent)
    (writable : SseClient → Bool) :
    WellFormed (s.broadcast event writable) ∧
      (s.broadcast event writable).registrations = s.registrations :=
  Emitter.emit_invariant (h.calls _) ⟨h, rfl⟩

/-- A broadcast writes to those who listen to its credit, and those who refuse it no longer
listen. -/
theorem WellFormed.broadcast_own (h : WellFormed s) (event : PriceEvent)
    (writable : SseClient → Bool) (client : SseClient) :
    ((s.broadcast event writable).written client, Listening (s.broadcast event writable) client) =
      if client ∈ s.priceEventBus (channel event.creditId) then
        (s.written client ++ [formatSseEvent event],
          Listening s client ∧ writable client = true)
      else (s.written client, Listening s client) := by
  refine Emitter.emit_own (P := fun after => WellFormed after ∧
    after.registrations = s.registrations) (fun s => (s.written client, Listening s client))
    (fun own => (own.1 ++ [formatSseEvent event], own.2 ∧ writable client = true))
    (h.calls _) ?_ ?_ (h.distinct _) ⟨h, rfl⟩
  · rintro after ⟨hafter, -⟩
    refine Prod.ext ?_ (propext ?_)
    · rw [handler_written, if_pos rfl]
    · exact (listening_handler hafter.distinct).trans (and_congr_right fun _ => by simp)
  · rintro other after hne ⟨hafter, -⟩
    refine Prod.ext ?_ (propext ?_)
    · rw [handler_written, if_neg hne.symm]
    · exact (listening_handler hafter.distinct).trans
        (and_iff_left fun heq => absurd heq.symm hne)

theorem WellFormed.mem_channel (h : WellFormed s) {creditId : String} :
    client ∈ s.priceEventBus (channel creditId) ↔
      creditId = client.creditId ∧ Listening s client := by
  constructor
  · intro hclient
    obtain rfl := channel_injective (h.listening _ client hclient).1
    exact ⟨rfl, hclient⟩
  · rintro ⟨rfl, hlistening⟩
    exact hlistening

/-! ## Steps and runs -/

theorem WellFormed.start (hfresh : s.Fresh) : WellFormed s where
  distinct ch := by simp [hfresh.priceEventBus]
  listening ch client hclient := by simp [hfresh.priceEventBus] at hclient
  numbered client hclient := by simp [hfresh.registrations] at hclient
  unwritten client _ := hfresh.written client

theorem WellFormed.fresh (h : WellFormed s) (clientId creditId : String) :
    (⟨clientId, creditId, s.registrations.length⟩ : SseClient) ∉ s.registrations :=
  fun hmem => absurd (h.numbered _ hmem) (Nat.lt_irrefl _)

theorem WellFormed.registerSseClient (h : WellFormed s) (clientId creditId : String) :
    WellFormed (s.registerSseClient clientId creditId) where
  distinct := h.distinct.on fun hmem => h.fresh clientId creditId (h.listening _ _ hmem).2
  listening ch client hclient := by
    rcases Emitter.mem_on.mp hclient with hclient | ⟨rfl, rfl⟩
    · obtain ⟨hch, hmem⟩ := h.listening ch client hclient
      exact ⟨hch, List.mem_append_left _ hmem⟩
    · exact ⟨rfl, List.mem_append_right _ List.mem_cons_self⟩
  numbered client hclient := by
    have hlength : (s.registerSseClient clientId creditId).registrations.length =
        s.registrations.length + 1 := List.length_append
    rw [hlength]
    rcases List.mem_append.mp hclient with hclient | hclient
    · exact Nat.lt_succ_of_lt (h.numbered client hclient)
    · obtain rfl := List.mem_singleton.mp hclient
      exact Nat.lt_succ_self _
  unwritten client hclient :=
    h.unwritten client fun hmem => hclient (List.mem_append_left _ hmem)

theorem WellFormed.resume (h : WellFormed s) (call : Nat) : WellFormed (s.resume call) :=
  ⟨h.distinct, h.listening, h.numbered, h.unwritten⟩

theorem WellFormed.step {a : Action} (h : WellFormed s) (hact : s.act a = some s') :
    WellFormed s' ∧ ∀ client ∈ s.registrations, client ∈ s'.registrations := by
  cases a with
  | registerSseClient clientId creditId =>
      obtain rfl := Option.some.inj hact
      exact ⟨h.registerSseClient clientId creditId, fun client => List.mem_append_left _⟩
  | cleanup client =>
      obtain ⟨-, rfl⟩ := Option.ite_some_none_eq_some.mp hact
      obtain ⟨hnext, hregistrations⟩ := h.cleanup client
      exact ⟨hnext, fun other hother => hregistrations ▸ hother⟩
  | publishPriceEvent event =>
      obtain rfl := Option.some.inj hact
      exact ⟨⟨h.distinct, h.listening, h.numbered, h.unwritten⟩, fun _ => id⟩
  | created call row writable =>
      obtain ⟨publishing, -, hbroadcast⟩ := Option.bind_eq_some_iff.mp hact
      obtain rfl := Option.some.inj hbroadcast
      obtain ⟨hnext, hregistrations⟩ :=
        (h.resume call).broadcast (s.fullEvent publishing row) writable
      exact ⟨hnext, fun other hother => by rwa [hregistrations]⟩
  | tick ms =>
      obtain rfl := Option.some.inj hact
      exact ⟨⟨h.distinct, h.listening, h.numbered, h.unwritten⟩, fun _ => id⟩

/-- What a step writes to a client that listens, and what the later steps have left. -/
inductive Follows (client : SseClient) (t : Transition Service Action)
    (later : List (Transition Service Action)) : Prop
  | goesOn (heard : List PriceEvent)
      (written : t.after.written client = t.before.written client ++ heard.map formatSseEvent)
      (listens : Listening t.after client)
      (stream : stream client (t :: later) = heard ++ stream client later)
  | leaves (heard : List PriceEvent)
      (written : t.after.written client = t.before.written client ++ heard.map formatSseEvent)
      (left : ¬ Listening t.after client) (stream : stream client (t :: later) = heard)

theorem Follows.unaffected {t : Transition Service Action}
    {later : List (Transition Service Action)}
    (hwritten : t.after.written client = t.before.written client)
    (hlistens : Listening t.after client)
    (hstream : stream client (t :: later) = stream client later) : Follows client t later :=
  .goesOn [] (by simp [hwritten]) hlistens hstream

theorem WellFormed.follows {a : Action} (h : WellFormed s) (hact : s.act a = some s')
    (hlistens : Listening s client) (later : List (Transition Service Action)) :
    Follows client ⟨s, a, s'⟩ later := by
  cases a with
  | registerSseClient clientId creditId =>
      obtain rfl := Option.some.inj hact
      exact .unaffected rfl (Emitter.mem_on.mpr (.inl hlistens)) rfl
  | cleanup other =>
      obtain ⟨-, rfl⟩ := Option.ite_some_none_eq_some.mp hact
      have hwritten := congrFun (cleanup_written s other) client
      by_cases hother : other = client
      · obtain rfl := hother
        refine .leaves [] (by simp [hwritten]) (fun hstill => ?_) (by simp [stream, CleansUp])
        exact ((listening_cleanup h.distinct).mp hstill).2 rfl
      · have hstill := (listening_cleanup h.distinct).mpr ⟨hlistens, Ne.symm hother⟩
        exact .unaffected hwritten hstill (by simp [stream, CleansUp, hother, broadcastOf])
  | publishPriceEvent event =>
      obtain rfl := Option.some.inj hact
      exact .unaffected rfl hlistens rfl
  | created call row writable =>
      obtain ⟨publishing, hpublishing, hbroadcast⟩ := Option.bind_eq_some_iff.mp hact
      obtain rfl := Option.some.inj hbroadcast
      have hown := (h.resume call).broadcast_own (s.fullEvent publishing row) writable client
      by_cases hcredit : (s.fullEvent publishing row).creditId = client.creditId
      · rw [if_pos ((h.resume call).mem_channel.mpr ⟨hcredit, hlistens⟩)] at hown
        obtain ⟨hwritten, hstill⟩ := Prod.mk.inj hown
        by_cases hwritable : writable client = true
        · refine .goesOn [s.fullEvent publishing row] hwritten (hstill ▸ ⟨hlistens, hwritable⟩) ?_
          simp [stream, CleansUp, broadcastOf, hpublishing, hcredit, hwritable]
        · refine .leaves [s.fullEvent publishing row] hwritten
            (fun hnext => hwritable (hstill ▸ hnext).2) ?_
          simp [stream, CleansUp, broadcastOf, hpublishing, hcredit, hwritable]
      · rw [if_neg fun hchannel => hcredit ((h.resume call).mem_channel.mp hchannel).1] at hown
        obtain ⟨hwritten, hstill⟩ := Prod.mk.inj hown
        refine .unaffected hwritten (hstill ▸ hlistens) ?_
        simp [stream, CleansUp, broadcastOf, hpublishing, hcredit]
  | tick ms =>
      obtain rfl := Option.some.inj hact
      exact .unaffected rfl hlistens rfl

/-- Nothing is written to a client that has stopped listening, and it does not begin again. -/
theorem WellFormed.silent {a : Action} (h : WellFormed s) (hmem : client ∈ s.registrations)
    (hact : s.act a = some s') (hleft : ¬ Listening s client) :
    s'.written client = s.written client ∧ ¬ Listening s' client := by
  cases a with
  | registerSseClient clientId creditId =>
      obtain rfl := Option.some.inj hact
      refine ⟨rfl, fun hlistens => ?_⟩
      rcases Emitter.mem_on.mp hlistens with hlistens | ⟨-, rfl⟩
      · exact hleft hlistens
      · exact h.fresh clientId creditId hmem
  | cleanup other =>
      obtain ⟨-, rfl⟩ := Option.ite_some_none_eq_some.mp hact
      refine ⟨congrFun (cleanup_written s other) client, fun hlistens => hleft ?_⟩
      exact ((listening_cleanup h.distinct).mp hlistens).1
  | publishPriceEvent event =>
      obtain rfl := Option.some.inj hact
      exact ⟨rfl, hleft⟩
  | created call row writable =>
      obtain ⟨publishing, -, hbroadcast⟩ := Option.bind_eq_some_iff.mp hact
      obtain rfl := Option.some.inj hbroadcast
      have hown := (h.resume call).broadcast_own (s.fullEvent publishing row) writable client
      rw [if_neg fun hchannel => hleft ((h.resume call).mem_channel.mp hchannel).2] at hown
      obtain ⟨hwritten, hstill⟩ := Prod.mk.inj hown
      exact ⟨hwritten, fun hlistens => hleft (hstill ▸ hlistens)⟩
  | tick ms =>
      obtain rfl := Option.some.inj hact
      exact ⟨rfl, hleft⟩

/-- What a run writes to a client depends on whether it listens when the run begins. -/
theorem written_of_run {later : List (Transition Service Action)} (h : WellFormed s)
    (hmem : client ∈ s.registrations) (hrun : service.Run s later s') :
    (Listening s client →
      s'.written client = s.written client ++ (stream client later).map formatSseEvent) ∧
    (¬ Listening s client → s'.written client = s.written client) := by
  induction later generalizing s with
  | nil =>
      obtain rfl := hrun.of_nil
      exact ⟨fun _ => by simp [stream], fun _ => rfl⟩
  | cons t later ih =>
      obtain ⟨rfl, hact, hrest⟩ := hrun.of_cons
      obtain ⟨hnext, hkept⟩ := h.step hact
      obtain ⟨hlistening, hleft⟩ := ih hnext (hkept client hmem) hrest
      constructor
      · intro hlistens
        cases h.follows hact hlistens later with
        | goesOn heard written listens stream =>
            rw [hlistening listens, written, stream, List.map_append, List.append_assoc]
        | leaves heard written left stream => rw [hleft left, written, stream]
      · intro hnot
        obtain ⟨hwritten, hstill⟩ := h.silent hmem hact hnot
        exact (hleft hstill).trans hwritten

end Operations

/-- From its registration on, a client is written the events of its credit, each once and
in the order of the broadcasts, until its cleanup or its first refusal. -/
theorem written_eq_stream {start s : Service} {earlier later : List (Transition Service Action)}
    {t : Transition Service Action} {clientId creditId : String}
    (hstart : service.Initial start) (hrun : service.Run start (earlier ++ t :: later) s)
    (hregister : t.action = .registerSseClient clientId creditId) :
    s.written ⟨clientId, creditId, t.before.registrations.length⟩ =
      (stream ⟨clientId, creditId, t.before.registrations.length⟩ later).map formatSseEvent := by
  obtain ⟨before, hprior, hlater⟩ := hrun.of_append
  obtain ⟨rfl, hact, hlater⟩ := hlater.of_cons
  have hbefore : WellFormed t.before :=
    hprior.invariant_of_steps (fun _ => True) (fun _ _ _ h hact _ => (h.step hact).1)
      (fun _ _ => trivial) (WellFormed.start hstart)
  rw [hregister] at hact
  have hafter : t.before.registerSseClient clientId creditId = t.after := Option.some.inj hact
  rw [← hafter] at hlater
  have hwritten := (written_of_run (hbefore.registerSseClient clientId creditId)
    (List.mem_append_right _ List.mem_cons_self) hlater).1
    (Emitter.mem_on.mpr (.inr ⟨rfl, rfl⟩))
  refine hwritten.trans ?_
  have hnone := hbefore.unwritten _ (hbefore.fresh clientId creditId)
  exact (congrArg (· ++ _) hnone).trans (List.nil_append _)

namespace Sample

def unused : Service where
  now := 1784368800000
  sseClients := fun _ => none
  priceEventBus := fun _ => []
  registrations := []
  written := fun _ => []
  publishing := fun _ => none
  published := 0

theorem unused_fresh : unused.Fresh := ⟨fun _ => rfl, rfl, fun _ => rfl, fun _ => rfl⟩

def trade : NewPriceEvent := ⟨"CREDIT-010", .trade, 13, none, none, none⟩

def retirement : NewPriceEvent := ⟨"CREDIT-010", .retire, 11, none, none, none⟩

/-- The second event is broadcast first. Only the second client refuses it. -/
def later : List Action :=
  [.registerSseClient "client-002" "CREDIT-010", .publishPriceEvent trade,
    .publishPriceEvent retirement, .created 1 none fun client => client.id = "client-001",
    .created 0 (some "evt-010") fun _ => true]

end Sample

/-- Two clients of one credit, of which one fails. -/
theorem sample_written_eq_stream : ∃ s : Service,
    (∃ start steps, service.Initial start ∧ service.Run start steps s) ∧
    (s.written ⟨"client-001", "CREDIT-010", 0⟩).length = 2 ∧
    (s.written ⟨"client-002", "CREDIT-010", 1⟩).length = 1 ∧
    ∃ later, s.written ⟨"client-001", "CREDIT-010", 0⟩ =
      (stream ⟨"client-001", "CREDIT-010", 0⟩ later).map formatSseEvent := by
  have hrun := TransitionSystem.Run.of_replay (S := service) (fun _ _ _ hact => hact)
    (show TransitionSystem.replay Service.act Sample.unused
      (.registerSseClient "client-001" "CREDIT-010" :: Sample.later) = some _ from rfl)
  exact ⟨_, ⟨_, _, Sample.unused_fresh, hrun⟩, by decide, by decide, _,
    @written_eq_stream _ _ [] _ _ _ _ Sample.unused_fresh hrun rfl⟩

end StellarKraal.PriceEvents
