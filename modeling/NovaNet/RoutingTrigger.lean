import NovaNet.GoChannel
import NovaNet.RoutingIntents

/-! The wake-ups of the routing reconciler: callers write the intent store and then trigger, the
loop of RunLoop takes a trigger or a tick and reads the store in a reconciliation. Every access to
the store and to a channel is a step of its own. -/

namespace NovaNet

open GoChannel List

inductive IntentFamily where
  | peers
  | prefixes
  | bfd
  | ospf
  deriving DecidableEq

structure StoreRead where
  family : IntentFamily
  store : IntentStore
  writes : Nat

/-- A reconciliation that the loop has begun: how many writes had been made when it took the
trigger or the tick, and its reads so far. -/
structure ReconcileCycle where
  writes : Nat
  reads : List StoreRead

inductive RunLoopPhase where
  | selecting
  | checkingClient
  | ensuringBgpGlobal
  | reading (family : IntentFamily)
  | applying
  | stopped
  deriving DecidableEq

def IntentFamily.next : IntentFamily → RunLoopPhase
  | .peers => .reading .prefixes
  | .prefixes => .reading .bfd
  | .bfd => .reading .ospf
  | .ospf => .applying

/-- A caller that has written the store: the number of writes before its own, and whether its
TriggerReconcile has returned. -/
structure TriggerCaller where
  before : Nat
  returned : Bool

structure TriggerState where
  store : IntentStore
  writes : Nat
  callers : List TriggerCaller
  triggerCh : Chan Unit 1
  tickerCh : Chan Unit 1
  cancelled : Bool
  loop : RunLoopPhase
  cycles : List ReconcileCycle

inductive TriggerStep where
  | write (call : IntentStore → Except IntentError IntentStore)
  | trigger (caller : Nat)
  | tick
  | cancel
  | takeTrigger
  | takeTick
  | stop
  | checkClient (hasFrr : Bool)
  | ensureBgpGlobal (ok : Bool)
  | read
  | finish

namespace TriggerState

def new (store : IntentStore) : TriggerState where
  store := store
  writes := 0
  callers := []
  triggerCh := .empty
  tickerCh := .empty
  cancelled := false
  loop := .selecting
  cycles := []

/-- A call that fails returns without a trigger. -/
def write (s : TriggerState) (call : IntentStore → Except IntentError IntentStore) : TriggerState :=
  match call s.store with
  | .ok store =>
    { s with
      store := store
      writes := s.writes + 1
      callers := s.callers ++ [⟨s.writes, false⟩] }
  | .error _ => s

def triggerReconcile (s : TriggerState) (i : Nat) (c : TriggerCaller) :
    Except Panic TriggerState :=
  (s.triggerCh.trySend ()).map fun ch =>
    { s with triggerCh := ch, callers := s.callers.set i { c with returned := true } }

def beginCycle (s : TriggerState) : TriggerState :=
  { s with loop := .checkingClient, cycles := ⟨s.writes, []⟩ :: s.cycles }

def recordRead (s : TriggerState) (family : IntentFamily) : TriggerState :=
  match s.cycles with
  | [] => s
  | cycle :: cycles =>
    { s with
      loop := family.next
      cycles := { cycle with reads := cycle.reads ++ [⟨family, s.store, s.writes⟩] } :: cycles }

def step (s : TriggerState) : TriggerStep → Except Panic TriggerState
  | .write call => .ok (s.write call)
  | .trigger i =>
    match s.callers[i]? with
    | some c => if c.returned then .ok s else s.triggerReconcile i c
    | none => .ok s
  | .tick => (s.tickerCh.trySend ()).map fun ch => { s with tickerCh := ch }
  | .cancel => .ok { s with cancelled := true }
  | .takeTrigger =>
    match s.loop, s.triggerCh.receive with
    | .selecting, .value _ ch => .ok { s with triggerCh := ch }.beginCycle
    | _, _ => .ok s
  | .takeTick =>
    match s.loop, s.tickerCh.receive with
    | .selecting, .value _ ch => .ok { s with tickerCh := ch }.beginCycle
    | _, _ => .ok s
  | .stop => .ok (if s.loop = .selecting ∧ s.cancelled then { s with loop := .stopped } else s)
  | .checkClient hasFrr =>
    .ok (if s.loop = .checkingClient then
      { s with loop := if hasFrr then .ensuringBgpGlobal else .selecting } else s)
  | .ensureBgpGlobal ok =>
    .ok (if s.loop = .ensuringBgpGlobal then
      { s with loop := if ok then .reading .peers else .selecting } else s)
  | .read =>
    match s.loop with
    | .reading family => .ok (s.recordRead family)
    | _ => .ok s
  | .finish => .ok (if s.loop = .applying then { s with loop := .selecting } else s)

def run (s : TriggerState) (steps : List TriggerStep) : Except Panic TriggerState :=
  steps.foldlM step s

/-- A trigger is pending, or a cycle was begun after the write of the caller and all its reads
come after that write. -/
def Served (s : TriggerState) (c : TriggerCaller) : Prop :=
  s.triggerCh.buffer ≠ [] ∨
    ∃ cycle ∈ s.cycles, c.before < cycle.writes ∧ ∀ r ∈ cycle.reads, c.before < r.writes

structure Sound (s : TriggerState) : Prop where
  triggerOpen : s.triggerCh.closed = false
  tickerOpen : s.tickerCh.closed = false
  written : ∀ c ∈ s.callers, c.before < s.writes
  reads : ∀ cycle ∈ s.cycles, cycle.writes ≤ s.writes ∧ ∀ r ∈ cycle.reads, cycle.writes ≤ r.writes
  seen : ∀ cycle ∈ s.cycles, ∀ r ∈ cycle.reads,
    r.writes ≤ s.writes ∧ (r.writes = s.writes → r.store = s.store)
  served : ∀ c ∈ s.callers, c.returned = true →
    s.triggerCh.buffer ≠ [] ∨ ∃ cycle ∈ s.cycles, c.before < cycle.writes

variable {s s' : TriggerState}

theorem Sound.serves (h : s.Sound) {c : TriggerCaller} (hc : c ∈ s.callers)
    (hreturned : c.returned = true) : s.Served c := by
  rcases h.served c hc hreturned with hpending | ⟨cycle, hcycle, hlt⟩
  · exact .inl hpending
  · refine .inr ⟨cycle, hcycle, hlt, fun r hr => ?_⟩
    have hle := (h.reads cycle hcycle).2 r hr
    omega

theorem Sound.setLoop (h : s.Sound) (loop : RunLoopPhase) : { s with loop := loop }.Sound :=
  ⟨h.triggerOpen, h.tickerOpen, h.written, h.reads, h.seen, h.served⟩

theorem Sound.write (h : s.Sound) (call : IntentStore → Except IntentError IntentStore) :
    (s.write call).Sound := by
  unfold TriggerState.write
  split
  · refine ⟨h.triggerOpen, h.tickerOpen, fun c hc => ?_, fun cycle hcycle => ?_,
      fun cycle hcycle r hr => ?_, fun c hc hreturned => ?_⟩
    · rcases mem_append.mp hc with hold | hnew
      · have hlt := h.written c hold
        show c.before < s.writes + 1
        omega
      · rw [List.mem_singleton.mp hnew]
        exact Nat.lt_succ_self _
    · obtain ⟨hle, hreads⟩ := h.reads cycle hcycle
      exact ⟨Nat.le_succ_of_le hle, hreads⟩
    · have hle := (h.seen cycle hcycle r hr).1
      exact ⟨Nat.le_succ_of_le hle, fun heq => absurd heq (Nat.ne_of_lt (Nat.lt_succ_of_le hle))⟩
    · rcases mem_append.mp hc with hold | hnew
      · exact h.served c hold hreturned
      · simp [List.mem_singleton.mp hnew] at hreturned
  · exact h

theorem Sound.trigger (h : s.Sound) {i : Nat} {c : TriggerCaller} (hc : s.callers[i]? = some c) :
    ∃ s', s.triggerReconcile i c = .ok s' ∧ s'.Sound := by
  obtain ⟨ch, hsend, hopen⟩ := Chan.trySend_of_open h.triggerOpen ()
  have hpending := Chan.buffer_of_trySend Nat.one_pos hsend
  refine ⟨{ s with triggerCh := ch, callers := s.callers.set i { c with returned := true } },
    by rw [triggerReconcile, hsend]; rfl,
    hopen, h.tickerOpen, fun d hd => ?_, h.reads, h.seen, fun d _ _ => .inl hpending⟩
  rcases mem_or_eq_of_mem_set hd with hold | rfl
  · exact h.written d hold
  · exact h.written c (List.mem_of_getElem? hc)

theorem Sound.beginCycle {s₀ : TriggerState} (h : s₀.Sound) (hcallers : s.callers = s₀.callers)
    (hwrites : s.writes = s₀.writes) (hstore : s.store = s₀.store) (hcycles : s.cycles = s₀.cycles)
    (htrigger : s.triggerCh.closed = false) (hticker : s.tickerCh.closed = false) :
    s.beginCycle.Sound where
  triggerOpen := htrigger
  tickerOpen := hticker
  written := by
    intro c hc
    have hold := h.written c (hcallers ▸ hc)
    rwa [← hwrites] at hold
  reads := by
    intro cycle hcycle
    rcases mem_cons.mp hcycle with rfl | hold
    · exact ⟨Nat.le_refl _, fun _ hr => absurd hr not_mem_nil⟩
    · have hreads := h.reads cycle (hcycles ▸ hold)
      rwa [← hwrites] at hreads
  seen := by
    intro cycle hcycle r hr
    rcases mem_cons.mp hcycle with rfl | hold
    · exact absurd hr not_mem_nil
    · have hseen := h.seen cycle (hcycles ▸ hold) r hr
      rwa [← hwrites, ← hstore] at hseen
  served := by
    intro c hc _
    have hlt := h.written c (hcallers ▸ hc)
    rw [← hwrites] at hlt
    exact .inr ⟨_, mem_cons_self, hlt⟩

theorem Sound.recordRead (h : s.Sound) (family : IntentFamily) : (s.recordRead family).Sound := by
  unfold TriggerState.recordRead
  cases hcycles : s.cycles with
  | nil => exact h
  | cons cycle cycles =>
    have hhead := h.reads cycle (hcycles ▸ mem_cons_self)
    refine ⟨h.triggerOpen, h.tickerOpen, h.written, fun x hx => ?_, fun x hx r hr => ?_,
      fun c hc hreturned => ?_⟩
    · rcases mem_cons.mp hx with rfl | hold
      · refine ⟨hhead.1, fun r hr => ?_⟩
        rcases mem_append.mp hr with hr | hr
        · exact hhead.2 r hr
        · rw [List.mem_singleton.mp hr]
          exact hhead.1
      · exact h.reads x (hcycles ▸ mem_cons_of_mem _ hold)
    · rcases mem_cons.mp hx with rfl | hold
      · rcases mem_append.mp hr with hr | hr
        · exact h.seen cycle (hcycles ▸ mem_cons_self) r hr
        · rw [List.mem_singleton.mp hr]
          exact ⟨Nat.le_refl _, fun _ => rfl⟩
      · exact h.seen x (hcycles ▸ mem_cons_of_mem _ hold) r hr
    · rcases h.served c hc hreturned with hpending | ⟨x, hx, hlt⟩
      · exact .inl hpending
      · rw [hcycles] at hx
        rcases mem_cons.mp hx with rfl | hold
        · exact .inr ⟨_, mem_cons_self, hlt⟩
        · exact .inr ⟨x, mem_cons_of_mem _ hold, hlt⟩

theorem Sound.step (h : s.Sound) (t : TriggerStep) : ∃ s', s.step t = .ok s' ∧ s'.Sound := by
  cases t with
  | write call => exact ⟨_, rfl, h.write call⟩
  | trigger i =>
    simp only [TriggerState.step]
    split
    · rename_i c hc
      split
      · exact ⟨s, rfl, h⟩
      · exact h.trigger hc
    · exact ⟨s, rfl, h⟩
  | tick =>
    obtain ⟨ch, hsend, hopen⟩ := Chan.trySend_of_open h.tickerOpen ()
    refine ⟨{ s with tickerCh := ch }, ?_, h.triggerOpen, hopen, h.written, h.reads, h.seen, h.served⟩
    rw [TriggerState.step, hsend]
    rfl
  | cancel => exact ⟨_, rfl, h.triggerOpen, h.tickerOpen, h.written, h.reads, h.seen, h.served⟩
  | takeTrigger =>
    simp only [TriggerState.step]
    split
    · rename_i ch hloop hreceive
      have hopen := (Chan.closed_of_receive hreceive).trans h.triggerOpen
      exact ⟨_, rfl, h.beginCycle rfl rfl rfl rfl hopen h.tickerOpen⟩
    · exact ⟨s, rfl, h⟩
  | takeTick =>
    simp only [TriggerState.step]
    split
    · rename_i ch hloop hreceive
      have hopen := (Chan.closed_of_receive hreceive).trans h.tickerOpen
      exact ⟨_, rfl, h.beginCycle rfl rfl rfl rfl h.triggerOpen hopen⟩
    · exact ⟨s, rfl, h⟩
  | stop | checkClient hasFrr | ensureBgpGlobal ok | finish =>
    refine ⟨_, rfl, ?_⟩
    split
    · exact h.setLoop _
    · exact h
  | read =>
    simp only [TriggerState.step]
    split
    · exact ⟨_, rfl, h.recordRead _⟩
    · exact ⟨s, rfl, h⟩

theorem Sound.run (h : s.Sound) (steps : List TriggerStep) : ∃ s', s.run steps = .ok s' ∧ s'.Sound := by
  induction steps generalizing s with
  | nil => exact ⟨s, rfl, h⟩
  | cons t steps ih =>
    obtain ⟨s₁, hstep, hs₁⟩ := h.step t
    obtain ⟨s₂, hrun, hs₂⟩ := ih hs₁
    refine ⟨s₂, ?_, hs₂⟩
    rwa [TriggerState.run, foldlM_cons, hstep]

theorem sound_new (store : IntentStore) : (new store).Sound :=
  ⟨rfl, rfl, by simp [new], by simp [new], by simp [new], by simp [new]⟩

/-- In every interleaving, once the TriggerReconcile of a caller has returned, a trigger is pending
or the loop has begun a reconciliation whose reads all come after the caller's write. -/
theorem no_lost_update (store : IntentStore) (steps : List TriggerStep) :
    ∃ s, (new store).run steps = .ok s ∧ ∀ c ∈ s.callers, c.returned = true → s.Served c := by
  obtain ⟨s, hrun, hsound⟩ := (sound_new store).run steps
  exact ⟨s, hrun, fun c hc hreturned => hsound.serves hc hreturned⟩

/-- The second trigger finds the first one pending, and the last write comes between two reads. -/
def coalescedTriggers : List TriggerStep :=
  [.write .ok, .trigger 0, .write .ok, .trigger 1, .takeTrigger, .checkClient true,
    .ensureBgpGlobal true, .read, .write .ok, .read, .trigger 2]

theorem no_lost_update_example : ∃ s, (new ∅).run coalescedTriggers = .ok s ∧
    ∀ c ∈ s.callers, c.returned = true → s.Served c :=
  no_lost_update ∅ coalescedTriggers

end TriggerState

end NovaNet
