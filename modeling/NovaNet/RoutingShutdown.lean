import NovaNet.RoutingRendering
import NovaNet.RoutingSettled

/-! The agent in native routing mode from its start to the end of GracefulShutdown
(internal/agent/setup_routing.go and setup_servers.go, internal/routing/manager.go), with the
loop of the reconciler beside it. The shutdown cancels the context of the loop before it
withdraws the pod CIDR, and vtysh is not started under a cancelled context. -/

namespace NovaNet

open ErrorState Option FrrClient

structure NativeConfig where
  podCidr : String
  localAs : Nat
  routerId : String

/-- The goroutine of RunLoop: at its select, in a cycle, in a cycle whose context is cancelled
before its end, or gone. -/
inductive LoopPhase where
  | notStarted
  | waiting
  | reconciling
  | interrupted
  | stopped
  deriving DecidableEq

inductive MainPhase where
  | started
  | bgpConfigured
  | serving
  | cancelled
  | backgroundStopped
  | prefixWithdrawn
  | routingCancelled
  | routingStopped
  | returned
  deriving DecidableEq

def MainPhase.afterCancel : MainPhase → Bool
  | .started | .bgpConfigured | .serving => false
  | .cancelled | .backgroundStopped | .prefixWithdrawn | .routingCancelled | .routingStopped
  | .returned => true

/-- `done` is the manager's channel of that name, true once it is closed. -/
structure NativeAgent where
  manager : RoutingManager
  cancelled : Bool
  done : Bool
  loop : LoopPhase
  main : MainPhase

inductive AgentEvent where
  | main
  | call (c : IntentChange)
  | runLoop
  | closeDone
  | beginCycle (o : RoutingOrders) (cut : Option Nat)
  | endCycle
  | stopLoop

def startNative : NativeAgent :=
  ⟨newRoutingManager "novanet" none, false, false, .notStarted, .started⟩

/-- Under a cancelled context no invocation of vtysh is made. In a cycle that is cut, the
context is cancelled after that many invocations; each of these succeeds. -/
def cycleFails (cancelled : Bool) (cut : Option Nat) : VtyFaults :=
  fun n _ => cancelled || cut.any (· ≤ n)

namespace NativeAgent

variable (names : FrrNames) (cfg : NativeConfig)

def mainStep (s : NativeAgent) : Option NativeAgent :=
  match s.main with
  | .started => some { s with
      manager.reconciler := updateBgpGlobal cfg.localAs cfg.routerId s.manager.reconciler
      main := .bgpConfigured }
  | .bgpConfigured =>
    match s.manager.advertisePrefix cfg.podCidr with
    | .ok m => some { s with manager := m, main := .serving }
    | .error _ => none
  | .serving => some { s with cancelled := true, main := .cancelled }
  | .cancelled => some { s with main := .backgroundStopped }
  | .backgroundStopped => some { s with
      manager := s.manager.withdrawPrefix cfg.podCidr
      main := .prefixWithdrawn }
  -- the manager's own context is a child of the one that is cancelled already
  | .prefixWithdrawn => some { s with main := .routingCancelled }
  | .routingCancelled => if s.done then some { s with main := .routingStopped } else none
  | .routingStopped => some { s with main := .returned }
  | .returned => none

/-- The ticker and the trigger may fire at any time, so a cycle may begin whenever the loop is
at its select; select takes any case that is ready, the end of the context or another. A cycle
acts on FRR at once, since nothing else does. -/
def step (s : NativeAgent) : AgentEvent → Option NativeAgent
  | .main => s.mainStep cfg
  | .call c =>
    -- the goroutines in the background use the manager until BgWg.Wait has returned
    if s.main = .serving ∨ s.main = .cancelled then some { s with manager := s.manager.change c }
    else none
  | .runLoop => if s.loop = .notStarted then some { s with loop := .waiting } else none
  -- RunLoop has returned: it starts a goroutine of its own and does not wait for it
  | .closeDone => if s.loop = .notStarted ∨ s.done then none else some { s with done := true }
  | .beginCycle o cut =>
    if s.loop = .waiting then
      some { s with
        manager := s.manager.step names (.reconcile o (cycleFails s.cancelled cut))
        loop := if cut.isSome then .interrupted else .reconciling }
    else none
  | .endCycle =>
    if s.loop = .reconciling ∨ s.loop = .interrupted ∧ s.cancelled then
      some { s with loop := .waiting }
    else none
  | .stopLoop =>
    if s.loop = .waiting ∧ s.cancelled then some { s with loop := .stopped } else none

def run (s : NativeAgent) : List AgentEvent → Option NativeAgent
  | [] => some s
  | e :: events => (s.step names cfg e).bind fun s' => run s' events

def running (s : NativeAgent) : FrrConfig := s.manager.reconciler.frr.running

def Advertised (s : NativeAgent) : Prop :=
  (s.running (.network (prefixAfi cfg.podCidr) (names.network cfg.podCidr))).isSome = true

instance (s : NativeAgent) : Decidable (s.Advertised names cfg) :=
  inferInstanceAs (Decidable (_ = true))

end NativeAgent

open NativeAgent

section Offline

variable {names : FrrNames} {c : FrrConfig}

def Offline (c : FrrConfig) (f : FrrClient) : Prop :=
  (∀ n commands, f.fails n commands = true) ∧ f.running = c

theorem runConfig_offline (context : String) (commands : List VtyCommand) :
    Keeps (runConfig names context commands) (Offline c) := by
  intro f hf
  unfold Outcome runConfig
  rwa [if_pos (hf.1 _ _)]

theorem checked_offline (checks : List (String × Except FrrCause Unit)) {x : FrrCall}
    (hx : Keeps x (Offline c)) : Keeps (checked checks x) (Offline c) := by
  intro f hf
  unfold Outcome checked
  cases firstError checks with
  | none => exact hx f hf
  | some e => exact hf

theorem send_offline (q : FrrRequest) : Keeps (send names q) (Offline c) :=
  fun f hf => checked_offline _ (runConfig_offline _ _) f hf

theorem reconfigureBgpGlobal_offline (oldAs newAs : Nat) (routerId : String) :
    Keeps (reconfigureBgpGlobal names oldAs newAs routerId) (Offline c) := by
  have hconfigure : Keeps (configureBgpGlobal names newAs routerId) (Offline c) :=
    (send_offline _).bind (keeps_modify fun _ h => h)
  have hremove : Keeps (removeOldInstance names oldAs) (Offline c) :=
    (keeps_pure _).ite (runConfig_offline _ _)
  exact checked_offline _ ((runConfig_offline _ _).ite (hremove.bind hconfigure))

theorem callFrr_offline {x : FrrCall} (hx : Keeps x (Offline c)) (context : String) :
    Keeps (callFrr context x) fun r => Offline c r.frr :=
  fun r hr => callFrr_lift (hx r.frr hr)

theorem tryFrr_offline {x : FrrCall} (hx : Keeps x (Offline c)) :
    Keeps (tryFrr x) fun r => Offline c r.frr := fun r hr => tryFrr_lift (hx r.frr hr)

theorem reconcile_offline (o : RoutingOrders) (store : IntentStore) :
    Keeps (reconcile names o store) fun r => Offline c r.frr :=
  reconcile_keeps
    ⟨fun context q => callFrr_offline (send_offline q) context,
      fun q => tryFrr_offline (send_offline q),
      fun context _ _ _ => callFrr_offline (reconfigureBgpGlobal_offline _ _ _) context⟩
    ⟨fun _ _ h => h, fun _ _ h => h, fun _ _ h => h, fun _ _ h => h, fun _ _ _ h => h⟩ store

end Offline

namespace NativeAgent

variable {names : FrrNames} {cfg : NativeConfig} {s s' : NativeAgent}

theorem running_change (m : RoutingManager) (c : IntentChange) :
    (m.change c).reconciler.frr.running = m.reconciler.frr.running := by
  rw [(RoutingManager.change_changed m c).reconciler]

theorem running_cycle (m : RoutingManager) (o : RoutingOrders) (cut : Option Nat) :
    (m.step names (.reconcile o (cycleFails true cut))).reconciler.frr.running =
      m.reconciler.frr.running := by
  have hstart : Offline m.reconciler.frr.running
      (m.reconciler.begin (cycleFails true cut)).frr := ⟨fun _ _ => rfl, rfl⟩
  exact (outcome_stateAfter (reconcile_offline o m.store _ hstart)).2

structure Sound (s : NativeAgent) : Prop where
  cancelled : s.cancelled = s.main.afterCancel
  stopped : s.loop = .stopped → s.cancelled = true

structure Follows (s s' : NativeAgent) : Prop where
  sound : s'.Sound
  cancelled : s.cancelled = true → s'.cancelled = true
  running : s.cancelled = true → s'.running = s.running

theorem mainStep_follows (hs : s.Sound) (h : s.mainStep cfg = some s') : Follows s s' := by
  have hcancelled := hs.cancelled
  have hsame {main : MainPhase} (hmain : main.afterCancel = s.main.afterCancel) :
      Follows s { s with main := main } :=
    ⟨⟨hcancelled.trans hmain.symm, hs.stopped⟩, id, fun _ => rfl⟩
  unfold mainStep at h
  cases hmain : s.main with
  | started =>
    rw [hmain] at h hcancelled
    cases h
    exact ⟨⟨hcancelled, hs.stopped⟩, id, fun _ => rfl⟩
  | bgpConfigured =>
    rw [hmain] at h hcancelled
    cases hadv : s.manager.advertisePrefix cfg.podCidr with
    | error e => simp [hadv] at h
    | ok m =>
      rw [hadv] at h
      cases h
      have hchange : s.manager.change (.advertisePrefix cfg.podCidr) = m := by
        rw [RoutingManager.change, hadv]
        rfl
      exact ⟨⟨hcancelled, hs.stopped⟩, id, fun _ => by
        rw [running, ← hchange, running_change, running]⟩
  | serving =>
    rw [hmain] at h
    cases h
    exact ⟨⟨rfl, fun _ => rfl⟩, fun _ => rfl, fun _ => rfl⟩
  | cancelled | prefixWithdrawn | routingStopped =>
    rw [hmain] at h
    cases h
    exact hsame (by rw [hmain]; rfl)
  | backgroundStopped =>
    rw [hmain] at h hcancelled
    cases h
    exact ⟨⟨hcancelled, hs.stopped⟩, id, fun _ =>
      running_change s.manager (.withdrawPrefix cfg.podCidr)⟩
  | routingCancelled =>
    rw [hmain] at h
    obtain ⟨-, h⟩ := ite_none_right_eq_some.mp h
    cases h
    exact hsame (by rw [hmain]; rfl)
  | returned => simp [hmain] at h

theorem step_follows (hs : s.Sound) {e : AgentEvent} (h : s.step names cfg e = some s') :
    Follows s s' := by
  cases e with
  | main => exact mainStep_follows hs h
  | call c =>
    obtain ⟨-, h⟩ := ite_none_right_eq_some.mp h
    cases h
    exact ⟨⟨hs.cancelled, hs.stopped⟩, id, fun _ => running_change s.manager c⟩
  | runLoop | endCycle =>
    obtain ⟨-, h⟩ := ite_none_right_eq_some.mp h
    cases h
    exact ⟨⟨hs.cancelled, fun h => by cases h⟩, id, fun _ => rfl⟩
  | closeDone =>
    obtain ⟨-, h⟩ := ite_none_left_eq_some.mp h
    cases h
    exact ⟨⟨hs.cancelled, hs.stopped⟩, id, fun _ => rfl⟩
  | beginCycle o cut =>
    obtain ⟨hloop, h⟩ := ite_none_right_eq_some.mp h
    cases h
    refine ⟨⟨hs.cancelled, fun h => ?_⟩, id, fun hcancelled => ?_⟩
    · cases hcut : cut.isSome <;> simp [hcut] at h
    · rw [running, hcancelled]
      exact running_cycle s.manager o cut
  | stopLoop =>
    obtain ⟨hstop, h⟩ := ite_none_right_eq_some.mp h
    cases h
    exact ⟨⟨hs.cancelled, fun _ => hstop.2⟩, id, fun _ => rfl⟩

theorem run_sound {events : List AgentEvent} (hs : s.Sound)
    (h : s.run names cfg events = some s') : s'.Sound := by
  induction events generalizing s with
  | nil =>
    cases h
    exact hs
  | cons e events ih =>
    obtain ⟨s₁, hstep, hrest⟩ := bind_eq_some_iff.mp h
    exact ih (step_follows hs hstep).sound hrest

/-- Whatever the goroutines do in whatever order, FRR stays as it was when the context was
cancelled. -/
theorem run_of_cancelled {events : List AgentEvent} (hs : s.Sound) (hc : s.cancelled = true)
    (h : s.run names cfg events = some s') : s'.running = s.running := by
  induction events generalizing s with
  | nil =>
    cases h
    rfl
  | cons e events ih =>
    obtain ⟨s₁, hstep, hrest⟩ := bind_eq_some_iff.mp h
    have hfollows := step_follows hs hstep
    rw [ih hfollows.sound (hfollows.cancelled hc) hrest, hfollows.running hc]

theorem run_append (s : NativeAgent) (xs ys : List AgentEvent) :
    s.run names cfg (xs ++ ys) = (s.run names cfg xs).bind fun s' => s'.run names cfg ys := by
  induction xs generalizing s with
  | nil => rfl
  | cons e xs ih =>
    rw [List.cons_append, run, run, bind_assoc]
    exact congrArg _ (funext ih)

variable (names cfg)

theorem exists_run_waiting (hloop : s.loop ≠ .stopped) (hc : s.cancelled = true) :
    ∃ events, s.run names cfg events = some { s with loop := .waiting } := by
  cases h : s.loop with
  | notStarted => exact ⟨[.runLoop], by simp [run, step, h]⟩
  | waiting => exact ⟨[], by rw [run, ← h]⟩
  | reconciling => exact ⟨[.endCycle], by simp [run, step, h]⟩
  | interrupted => exact ⟨[.endCycle], by simp [run, step, h, hc]⟩
  | stopped => exact absurd h hloop

theorem exists_run_done (hloop : s.loop = .waiting) :
    ∃ events, s.run names cfg events = some { s with done := true } := by
  cases h : s.done with
  | true => exact ⟨[], by rw [run, ← h]⟩
  | false => exact ⟨[.closeDone], by simp [run, step, h, hloop]⟩

theorem exists_run_routingStopped (hs : s.Sound) (hmain : s.main = .serving) :
    ∃ events s', s.run names cfg (.main :: events) = some s' ∧ s'.main = .routingStopped ∧
      s'.loop = .waiting := by
  have hcancelled : s.cancelled = false := by rw [hs.cancelled, hmain]; rfl
  have hloop : s.loop ≠ .stopped := fun h => by rw [hs.stopped h] at hcancelled; cases hcancelled
  obtain ⟨toSelect, hselect⟩ := exists_run_waiting names cfg
    (s := { s with cancelled := true, main := .cancelled }) hloop rfl
  obtain ⟨toDone, hdone⟩ := exists_run_done names cfg
    (s := { s with cancelled := true, main := .cancelled, loop := .waiting }) rfl
  refine ⟨toSelect ++ (toDone ++ [.main, .main, .main, .main]), ?_⟩
  rw [run, step, mainStep, hmain, bind_some, run_append, hselect, bind_some,
    run_append, hdone, bind_some]
  exact ⟨_, rfl, rfl, rfl⟩

end NativeAgent

/-- The shutdown never does what it is for. In every run in which FRR has the network statement
of the pod CIDR when GracefulShutdown calls Cancel, FRR has it when GracefulShutdown returns;
and from every state in which the agent serves, the loop can begin a cycle after the manager's
Shutdown has returned. -/
theorem gracefulShutdown_never_withdraws (names : FrrNames) (cfg : NativeConfig)
    (before : List AgentEvent) (s : NativeAgent)
    (hrun : startNative.run names cfg before = some s) (hmain : s.main = .serving) :
    (s.Advertised names cfg → ∀ after s', s.run names cfg (.main :: after) = some s' →
      s'.main = .returned → s'.Advertised names cfg) ∧
    ∃ after s', s.run names cfg (.main :: after) = some s' ∧ s'.main = .routingStopped ∧
      ∀ o, ∃ s'', s'.step names cfg (.beginCycle o none) = some s'' ∧ s''.loop = .reconciling := by
  have hsound : s.Sound := run_sound ⟨rfl, fun h => by cases h⟩ hrun
  constructor
  · intro hadv after s' hafter _
    obtain ⟨s₁, hcancel, hrest⟩ := bind_eq_some_iff.mp hafter
    have hfollows := step_follows hsound hcancel
    obtain rfl : { s with cancelled := true, main := .cancelled } = s₁ := by
      simpa [step, mainStep, hmain] using hcancel
    have hrunning := run_of_cancelled hfollows.sound rfl hrest
    rw [NativeAgent.Advertised, hrunning]
    exact hadv
  · obtain ⟨after, s', hafter, hstopped, hloop⟩ :=
      exists_run_routingStopped names cfg hsound hmain
    refine ⟨after, s', hafter, hstopped, fun o => ⟨_, if_pos hloop, rfl⟩⟩

/-- The agent comes up, advertises its pod CIDR in one cycle and is shut down while a second
cycle ends: the loop takes the trigger of the withdrawal after the manager's Shutdown. -/
def upAndDown : NativeConfig := ⟨"10.42.0.0/24", 64513, "10.0.0.1"⟩

def comesUp : List AgentEvent :=
  [.runLoop, .closeDone, .main, .main, .beginCycle sortedOrders none, .endCycle,
    .beginCycle sortedOrders none]

def goesDown : List AgentEvent :=
  [.main, .main, .main, .main, .main, .endCycle, .beginCycle sortedOrders none, .main]

theorem gracefulShutdown_keeps_network :
    ((startNative.run ⟨id, id⟩ upAndDown comesUp).any fun s =>
      s.main = .serving ∧ s.Advertised ⟨id, id⟩ upAndDown) = true ∧
    ((startNative.run ⟨id, id⟩ upAndDown (comesUp ++ goesDown)).any fun s =>
      s.main = .returned ∧ s.loop = .reconciling ∧ s.Advertised ⟨id, id⟩ upAndDown) = true := by
  decide +kernel

theorem gracefulShutdown_example : ∃ s s',
    startNative.run ⟨id, id⟩ upAndDown comesUp = some s ∧ s.main = .serving ∧
      s.Advertised ⟨id, id⟩ upAndDown ∧ s.run ⟨id, id⟩ upAndDown goesDown = some s' ∧
      s'.main = .returned ∧ s'.Advertised ⟨id, id⟩ upAndDown := by
  have hruns : ((startNative.run ⟨id, id⟩ upAndDown comesUp).any fun s =>
      s.main = .serving ∧ s.Advertised ⟨id, id⟩ upAndDown ∧
        ((s.run ⟨id, id⟩ upAndDown goesDown).any (·.main = .returned)) = true) = true := by
    decide +kernel
  obtain ⟨s, hs, hprops⟩ := (any_eq_true _ _).mp hruns
  obtain ⟨hmain, hadv, hdown⟩ := of_decide_eq_true hprops
  obtain ⟨s', hs', hreturned⟩ := (any_eq_true _ _).mp hdown
  have hnever := gracefulShutdown_never_withdraws ⟨id, id⟩ upAndDown comesUp s hs hmain
  exact ⟨s, s', hs, hmain, hadv, hs', of_decide_eq_true hreturned,
    hnever.1 hadv _ s' hs' (of_decide_eq_true hreturned)⟩

end NovaNet
