import NovaNet.GoChannel
import NovaNet.Labels

/-! The subscriptions to routing events (internal/routing/manager.go) and the streams that use
them (internal/agent/routing_rpcs.go). A channel is closed by the one who unsubscribes it and by
the shutdown of the manager. -/

namespace NovaNet

open GoChannel List

structure RouteEvent where
  eventType : String
  owner : String
  detail : String
  metadata : Labels
  deriving DecidableEq

def eventTypeNames (eventType : UInt32) : String :=
  match eventType.toNat with
  | 1 => "peer_up"
  | 2 => "peer_down"
  | 3 => "prefix_advertised"
  | 4 => "prefix_withdrawn"
  | 5 => "bfd_up"
  | 6 => "bfd_down"
  | 7 => "ospf_neighbor_up"
  | 8 => "ospf_neighbor_down"
  | 9 => "frr_connected"
  | 10 => "frr_disconnected"
  | 11 => "owner_registered"
  | 12 => "owner_deregistered"
  | 13 => "policy_violation"
  | 14 => "bgp_config_changed"
  | n => "unknown_" ++ Nat.repr n

abbrev EventChan := Chan RouteEvent 256

structure StreamRequest where
  ownerFilter : String
  eventTypes : List String
  deriving DecidableEq

/-- Where a call of StreamRoutingEvents is; `returning` has its deferred call still to run. -/
inductive StreamPhase where
  | running
  | returning
  | ended
  deriving DecidableEq

structure EventStream where
  channel : Nat
  request : StreamRequest
  sent : List RouteEvent
  phase : StreamPhase
  deriving DecidableEq

/-- A channel is known by its place in the list of those that were made. -/
structure EventManager where
  channels : List EventChan
  subscribers : Finset Nat
  streams : List EventStream
  deriving DecidableEq

namespace EventManager

def new : EventManager := ⟨[], ∅, []⟩

def subscribeEvents (m : EventManager) : EventManager :=
  { m with
    channels := m.channels ++ [.empty]
    subscribers := insert m.channels.length m.subscribers }

def setChannel (m : EventManager) (ch : Nat) (c : EventChan) : EventManager :=
  { m with channels := m.channels.set ch c }

def remove (m : EventManager) (ch : Nat) : EventManager :=
  { m with subscribers := m.subscribers.erase ch }

def closeChannel (m : EventManager) (ch : Nat) : Except Panic EventManager :=
  match m.channels[ch]? with
  | some c => c.close.map (m.setChannel ch)
  | none => .ok m

def unsubscribeEvents (m : EventManager) (ch : Nat) : Except Panic EventManager :=
  (m.remove ch).closeChannel ch

def send (evt : RouteEvent) (m : EventManager) (ch : Nat) : Except Panic EventManager :=
  match m.channels[ch]? with
  | some c => (c.trySend evt).map (m.setChannel ch)
  | none => .ok m

def publishRouteEvent (o : IterOrder Nat) (site : List Nat) (m : EventManager)
    (eventType : UInt32) (owner detail : String) (metadata : Labels) :
    Except Panic EventManager :=
  (o.enum site m.subscribers).foldlM (send ⟨eventTypeNames eventType, owner, detail, metadata⟩) m

def closeAndRemove (m : EventManager) (ch : Nat) : Except Panic EventManager :=
  (m.closeChannel ch).map fun m => m.remove ch

def shutdown (o : IterOrder Nat) (site : List Nat) (m : EventManager) : Except Panic EventManager :=
  (o.enum site m.subscribers).foldlM closeAndRemove m

end EventManager

def EventStream.deliver (st : EventStream) (evt : RouteEvent) (sendFails : Bool) : EventStream :=
  if st.request.ownerFilter ≠ "" ∧ evt.owner ≠ st.request.ownerFilter then st
  else if st.request.eventTypes.length > 0 ∧ evt.eventType ∉ st.request.eventTypes then st
  else if sendFails then { st with phase := .returning }
  else { st with sent := st.sent ++ [evt] }

inductive EventStep where
  | subscribe
  | unsubscribe (ch : Nat)
  | publish (site : List Nat) (eventType : UInt32) (owner detail : String) (metadata : Labels)
  | shutdown (site : List Nat)
  | openStream (request : StreamRequest)
  | receive (stream : Nat) (sendFails : Bool)
  | cancelStream (stream : Nat)
  | cleanUp (stream : Nat)

namespace EventManager

def setStream (m : EventManager) (i : Nat) (st : EventStream) : EventManager :=
  { m with streams := m.streams.set i st }

def openStream (m : EventManager) (request : StreamRequest) : EventManager :=
  { m.subscribeEvents with
    streams := m.streams ++ [⟨m.channels.length, request, [], .running⟩] }

def receive (m : EventManager) (i : Nat) (st : EventStream) (sendFails : Bool) : EventManager :=
  match m.channels[st.channel]? with
  | some c =>
    match c.receive with
    | .value evt rest => (m.setChannel st.channel rest).setStream i (st.deliver evt sendFails)
    | .done => m.setStream i { st with phase := .returning }
    | .blocked => m
  | none => m

def onStream (m : EventManager) (i : Nat) (phase : StreamPhase)
    (f : EventStream → Except Panic EventManager) : Except Panic EventManager :=
  match m.streams[i]? with
  | some st => if st.phase = phase then f st else .ok m
  | none => .ok m

def step (o : IterOrder Nat) (m : EventManager) : EventStep → Except Panic EventManager
  | .subscribe => .ok m.subscribeEvents
  | .unsubscribe ch => m.unsubscribeEvents ch
  | .publish site eventType owner detail metadata =>
    m.publishRouteEvent o site eventType owner detail metadata
  | .shutdown site => m.shutdown o site
  | .openStream request => .ok (m.openStream request)
  | .receive i sendFails => m.onStream i .running fun st => .ok (m.receive i st sendFails)
  | .cancelStream i =>
    m.onStream i .running fun st => .ok (m.setStream i { st with phase := .returning })
  | .cleanUp i => m.onStream i .returning fun st =>
      (m.setStream i { st with phase := .ended }).unsubscribeEvents st.channel

def run (o : IterOrder Nat) (m : EventManager) (steps : List EventStep) :
    Except Panic EventManager :=
  steps.foldlM (step o) m

def Orderly (m : EventManager) : EventStep → Prop
  | .unsubscribe ch => ch < m.channels.length → ch ∈ m.subscribers
  | .cleanUp i => ∀ st ∈ m.streams[i]?, st.phase = .returning → st.channel ∈ m.subscribers
  | _ => True

def OrderlyRun (o : IterOrder Nat) : EventManager → List EventStep → Prop
  | _, [] => True
  | m, s :: steps => m.Orderly s ∧ ∀ m', m.step o s = .ok m' → OrderlyRun o m' steps

instance decidableOrderly (m : EventManager) : DecidablePred m.Orderly
  | .unsubscribe ch => inferInstanceAs (Decidable (_ → ch ∈ m.subscribers))
  | .cleanUp i => inferInstanceAs (Decidable (∀ st ∈ m.streams[i]?, _ → st.channel ∈ m.subscribers))
  | .subscribe | .publish _ _ _ _ _ | .shutdown _ | .openStream _ | .receive _ _
  | .cancelStream _ => .isTrue trivial

instance decidableOrderlyRun (o : IterOrder Nat) : ∀ m steps, Decidable (OrderlyRun o m steps)
  | _, [] => .isTrue trivial
  | m, s :: steps =>
    match h : m.step o s with
    | .ok m' =>
      have := decidableOrderlyRun o m' steps
      decidable_of_iff (m.Orderly s ∧ OrderlyRun o m' steps)
        (and_congr_right fun _ => ⟨fun hrest m₁ h₁ => by rw [h] at h₁; cases h₁; exact hrest,
          fun hall => hall m' h⟩)
    | .error _ =>
      decidable_of_iff (m.Orderly s)
        ⟨fun hs => ⟨hs, fun m₁ h₁ => by rw [h] at h₁; cases h₁⟩, fun hall => hall.1⟩

structure Registered (m : EventManager) : Prop where
  isOpen : ∀ ch c, m.channels[ch]? = some c → (c.closed = false ↔ ch ∈ m.subscribers)
  known : ∀ ch ∈ m.subscribers, ch < m.channels.length
  streams : ∀ st ∈ m.streams, st.channel < m.channels.length

variable {m : EventManager} {ch : Nat} {c c' : EventChan} {o : IterOrder Nat}

section Registered

attribute [local simp] EventManager.setChannel

variable (h : m.Registered)

include h

theorem Registered.channel (hch : ch ∈ m.subscribers) :
    ∃ c, m.channels[ch]? = some c ∧ c.closed = false := by
  have hlt := h.known ch hch
  exact ⟨m.channels[ch], List.getElem?_eq_getElem hlt,
    (h.isOpen ch _ (List.getElem?_eq_getElem hlt)).mpr hch⟩

theorem Registered.setChannel (hc : m.channels[ch]? = some c) (hclosed : c'.closed = c.closed) :
    (m.setChannel ch c').Registered where
  isOpen := by
    intro ch' d hd
    have hset : (m.channels.set ch c')[ch']? = some d := hd
    rw [List.getElem?_set] at hset
    split at hset
    · rename_i heq
      subst heq
      split at hset
      · cases hset
        rw [hclosed]
        exact h.isOpen ch c hc
      · cases hset
    · exact h.isOpen ch' d hset
  known := by simpa using h.known
  streams := by simpa using h.streams

theorem Registered.setStream {i : Nat} {st st' : EventStream} (hst : m.streams[i]? = some st)
    (hsame : st'.channel = st.channel) : (m.setStream i st').Registered where
  isOpen := h.isOpen
  known := h.known
  streams := by
    intro x hx
    rcases mem_or_eq_of_mem_set hx with hmem | rfl
    · exact h.streams x hmem
    · rw [hsame]
      exact h.streams st (List.mem_of_getElem? hst)

theorem Registered.closeRemove (hclosed : c'.closed = true) :
    ((m.remove ch).setChannel ch c').Registered where
  isOpen := by
    intro ch' d hd
    have hset : (m.channels.set ch c')[ch']? = some d := hd
    have herase : ch' ∈ m.subscribers.erase ch ↔ ch' ≠ ch ∧ ch' ∈ m.subscribers := Finset.mem_erase
    rw [List.getElem?_set] at hset
    split at hset
    · rename_i heq
      subst heq
      split at hset
      · cases hset
        rw [hclosed]
        exact iff_of_false (by decide) (by simp [remove])
      · cases hset
    · rename_i hne
      rw [h.isOpen ch' d hset]
      exact ⟨fun hmem => herase.mpr ⟨Ne.symm hne, hmem⟩, fun hmem => (herase.mp hmem).2⟩
  known := by
    intro ch' hmem
    have hold := h.known ch' (Finset.mem_of_mem_erase hmem)
    simpa [remove] using hold
  streams := by simpa [remove] using h.streams

theorem unsubscribeEvents_ok (hch : ch ∈ m.subscribers) :
    ∃ m', m.unsubscribeEvents ch = .ok m' ∧ m'.Registered := by
  obtain ⟨c, hc, hopen⟩ := h.channel hch
  obtain ⟨c', hclose, hclosed⟩ := Chan.close_of_open hopen
  refine ⟨(m.remove ch).setChannel ch c', ?_, h.closeRemove hclosed⟩
  have hget : (m.remove ch).channels[ch]? = some c := hc
  rw [unsubscribeEvents, closeChannel, hget]
  simp only [hclose]
  rfl

theorem unsubscribeEvents_unknown (hch : ¬ ch < m.channels.length) :
    m.unsubscribeEvents ch = .ok m := by
  have hget : (m.remove ch).channels[ch]? = none := List.getElem?_eq_none (Nat.le_of_not_lt hch)
  have hsame : m.remove ch = m := by
    have hnot : ch ∉ m.subscribers := fun hmem => hch (h.known ch hmem)
    rw [remove, Finset.erase_eq_of_notMem hnot]
  rw [unsubscribeEvents, closeChannel, hget, hsame]

theorem unsubscribeEvents_panics (hlt : ch < m.channels.length) (hch : ch ∉ m.subscribers) :
    m.unsubscribeEvents ch = .error .closeOfClosedChannel := by
  have hget : m.channels[ch]? = some m.channels[ch] := List.getElem?_eq_getElem hlt
  have hclosed : m.channels[ch].closed = true := by
    rwa [← Bool.not_eq_false, h.isOpen ch _ hget]
  have hget' : (m.remove ch).channels[ch]? = some m.channels[ch] := hget
  rw [unsubscribeEvents, closeChannel, hget']
  simp only [Chan.close_of_closed hclosed]
  rfl

theorem send_ok (evt : RouteEvent) (hch : ch ∈ m.subscribers) :
    ∃ m', send evt m ch = .ok m' ∧ m'.Registered ∧ m'.subscribers = m.subscribers := by
  obtain ⟨c, hc, hopen⟩ := h.channel hch
  obtain ⟨c', hsend, hopen'⟩ := Chan.trySend_of_open hopen evt
  refine ⟨m.setChannel ch c', ?_, h.setChannel hc (hopen'.trans hopen.symm), rfl⟩
  rw [send, hc]
  simp only [hsend]
  rfl

theorem foldlM_send_ok (evt : RouteEvent) {l : List Nat} (hl : ∀ ch ∈ l, ch ∈ m.subscribers) :
    ∃ m', l.foldlM (send evt) m = .ok m' ∧ m'.Registered := by
  induction l generalizing m with
  | nil => exact ⟨m, rfl, h⟩
  | cons ch l ih =>
    obtain ⟨hch, hrest⟩ := forall_mem_cons.mp hl
    obtain ⟨m₁, hsend, hreg, hsubs⟩ := send_ok h evt hch
    obtain ⟨m₂, hfold, hreg'⟩ := ih hreg (hsubs ▸ hrest)
    refine ⟨m₂, ?_, hreg'⟩
    rwa [foldlM_cons, hsend]

theorem closeAndRemove_ok (hch : ch ∈ m.subscribers) :
    ∃ m', m.closeAndRemove ch = .ok m' ∧ m'.Registered ∧ m'.subscribers = m.subscribers.erase ch := by
  obtain ⟨c, hc, hopen⟩ := h.channel hch
  obtain ⟨c', hclose, hclosed⟩ := Chan.close_of_open hopen
  refine ⟨(m.remove ch).setChannel ch c', ?_, h.closeRemove hclosed, rfl⟩
  rw [closeAndRemove, closeChannel, hc]
  simp only [hclose]
  rfl

theorem foldlM_close_ok {l : List Nat} (hnodup : l.Nodup) (hl : ∀ ch ∈ l, ch ∈ m.subscribers) :
    ∃ m', l.foldlM closeAndRemove m = .ok m' ∧ m'.Registered := by
  induction l generalizing m with
  | nil => exact ⟨m, rfl, h⟩
  | cons ch l ih =>
    obtain ⟨hch, hrest⟩ := forall_mem_cons.mp hl
    obtain ⟨hnot, hnodup⟩ := nodup_cons.mp hnodup
    obtain ⟨m₁, hclose, hreg, hsubs⟩ := closeAndRemove_ok h hch
    have hleft : ∀ ch' ∈ l, ch' ∈ m₁.subscribers := by
      intro ch' hmem
      rw [hsubs, Finset.mem_erase]
      exact ⟨fun heq => hnot (heq ▸ hmem), hrest ch' hmem⟩
    obtain ⟨m₂, hfold, hreg'⟩ := ih hreg hnodup hleft
    refine ⟨m₂, ?_, hreg'⟩
    rwa [foldlM_cons, hclose]

theorem Registered.subscribe : m.subscribeEvents.Registered where
  isOpen := by
    intro ch c hc
    have hget : (m.channels ++ [Chan.empty])[ch]? = some c := hc
    have hinsert : ch ∈ insert m.channels.length m.subscribers ↔
        ch = m.channels.length ∨ ch ∈ m.subscribers := Finset.mem_insert
    rw [subscribeEvents, hinsert]
    rcases Nat.lt_or_ge ch m.channels.length with hlt | hge
    · rw [List.getElem?_append_left hlt] at hget
      rw [h.isOpen ch c hget]
      exact ⟨.inr, fun hor => hor.resolve_left (Nat.ne_of_lt hlt)⟩
    · have hlast : ch = m.channels.length := by
        have hbound := (List.getElem?_eq_some_iff.mp hget).1
        rw [length_append, length_singleton] at hbound
        omega
      subst hlast
      rw [List.getElem?_concat_length] at hget
      cases hget
      exact iff_of_true rfl (.inl rfl)
  known := by
    intro ch hch
    have hlen : m.subscribeEvents.channels.length = m.channels.length + 1 := by
      simp [subscribeEvents]
    rw [hlen]
    rcases Finset.mem_insert.mp hch with rfl | hmem
    · omega
    · have hlt := h.known ch hmem
      omega
  streams := by
    intro st hst
    have hlt := h.streams st hst
    have hlen : m.subscribeEvents.channels.length = m.channels.length + 1 := by
      simp [subscribeEvents]
    omega

theorem Registered.openStream (request : StreamRequest) : (m.openStream request).Registered where
  isOpen := h.subscribe.isOpen
  known := h.subscribe.known
  streams := by
    intro st hst
    rcases mem_append.mp hst with hmem | hmem
    · exact h.subscribe.streams st hmem
    · rw [List.mem_singleton.mp hmem]
      simp [EventManager.openStream, subscribeEvents]

end Registered

theorem channel_deliver (st : EventStream) (evt : RouteEvent) (sendFails : Bool) :
    (st.deliver evt sendFails).channel = st.channel := by
  unfold EventStream.deliver
  split_ifs <;> rfl

theorem Registered.receive (h : m.Registered) {i : Nat} {st : EventStream}
    (hst : m.streams[i]? = some st) (sendFails : Bool) : (m.receive i st sendFails).Registered := by
  unfold EventManager.receive
  split
  · rename_i c hc
    split
    · rename_i evt rest hreceive
      have hset := h.setChannel hc (Chan.closed_of_receive hreceive)
      exact hset.setStream hst (channel_deliver st evt sendFails)
    · exact h.setStream hst rfl
    · exact h
  · exact h

/-- A step of a run goes through exactly when it is orderly, and panics by closing otherwise. -/
theorem step_cases (o : IterOrder Nat) (h : m.Registered) (s : EventStep) :
    (m.Orderly s ∧ ∃ m', m.step o s = .ok m' ∧ m'.Registered) ∨
      ¬ m.Orderly s ∧ m.step o s = .error .closeOfClosedChannel := by
  have honStream (i : Nat) (f : EventStream → EventManager)
      (hf : ∀ st, m.streams[i]? = some st → (f st).Registered) :
      ∃ m', (m.onStream i .running fun st => .ok (f st)) = .ok m' ∧ m'.Registered := by
    unfold onStream
    split
    · rename_i st hst
      split
      · exact ⟨_, rfl, hf st hst⟩
      · exact ⟨m, rfl, h⟩
    · exact ⟨m, rfl, h⟩
  cases s with
  | subscribe => exact .inl ⟨trivial, _, rfl, h.subscribe⟩
  | openStream request => exact .inl ⟨trivial, _, rfl, h.openStream request⟩
  | publish site eventType owner detail metadata =>
    exact .inl ⟨trivial, foldlM_send_ok h _ fun ch hch => (o.mem_enum site _ ch).mp hch⟩
  | shutdown site =>
    exact .inl ⟨trivial, foldlM_close_ok h (o.nodup_enum site _)
      fun ch hch => (o.mem_enum site _ ch).mp hch⟩
  | receive i sendFails =>
    exact .inl ⟨trivial, honStream i _ fun st hst => h.receive hst sendFails⟩
  | cancelStream i => exact .inl ⟨trivial, honStream i _ fun st hst => h.setStream hst rfl⟩
  | unsubscribe ch =>
    by_cases hlt : ch < m.channels.length
    · by_cases hch : ch ∈ m.subscribers
      · exact .inl ⟨fun _ => hch, unsubscribeEvents_ok h hch⟩
      · exact .inr ⟨fun horderly => hch (horderly hlt), unsubscribeEvents_panics h hlt hch⟩
    · exact .inl ⟨fun hlt' => absurd hlt' hlt, m, unsubscribeEvents_unknown h hlt, h⟩
  | cleanUp i =>
    cases hst : m.streams[i]? with
    | none =>
      refine .inl ⟨fun st hmem => ?_, m, ?_, h⟩
      · simp [hst] at hmem
      · simp only [step, onStream, hst]
    | some st =>
      by_cases hphase : st.phase = .returning
      · have hended : (m.setStream i { st with phase := .ended }).Registered := h.setStream hst rfl
        have hstep : m.step o (.cleanUp i) =
            (m.setStream i { st with phase := .ended }).unsubscribeEvents st.channel := by
          simp only [step, onStream, hst, if_pos hphase]
        rw [hstep]
        by_cases hch : st.channel ∈ m.subscribers
        · refine .inl ⟨fun st' hmem _ => ?_, unsubscribeEvents_ok hended hch⟩
          rw [hst] at hmem
          cases hmem
          exact hch
        · refine .inr ⟨fun horderly => hch (horderly st hst hphase), ?_⟩
          exact unsubscribeEvents_panics hended (h.streams st (List.mem_of_getElem? hst)) hch
      · refine .inl ⟨fun st' hmem hphase' => ?_, m, ?_, h⟩
        · rw [hst] at hmem
          cases hmem
          exact absurd hphase' hphase
        · simp only [step, onStream, hst, if_neg hphase]

theorem registered_new : new.Registered where
  isOpen := by simp [new]
  known := by simp [new]
  streams := by simp [new]

theorem run_cases (h : m.Registered) (steps : List EventStep) :
    (OrderlyRun o m steps ∧ ∃ m', m.run o steps = .ok m') ∨
      ¬ OrderlyRun o m steps ∧ m.run o steps = .error .closeOfClosedChannel := by
  induction steps generalizing m with
  | nil => exact .inl ⟨trivial, m, rfl⟩
  | cons s steps ih =>
    rcases step_cases o h s with ⟨horderly, m', hstep, hreg⟩ | ⟨hnot, hstep⟩
    · have hrun : m.run o (s :: steps) = m'.run o steps := by
        rw [run, foldlM_cons, hstep]
        rfl
      have hiff : OrderlyRun o m (s :: steps) ↔ OrderlyRun o m' steps := by
        constructor
        · intro hall
          exact hall.2 m' hstep
        · intro hrest
          refine ⟨horderly, fun m₁ hstep₁ => ?_⟩
          rw [hstep] at hstep₁
          cases hstep₁
          exact hrest
      rw [hrun, hiff]
      exact ih hreg
    · refine .inr ⟨fun hall => hnot hall.1, ?_⟩
      rw [run, foldlM_cons, hstep]
      rfl

/-- No run sends on a closed channel. A run closes no channel twice exactly when every channel is
still a subscriber when it is unsubscribed. -/
theorem subscriptions_never_panic_iff (o : IterOrder Nat) (steps : List EventStep) :
    new.run o steps ≠ .error .sendOnClosedChannel ∧
      (new.run o steps ≠ .error .closeOfClosedChannel ↔ OrderlyRun o new steps) := by
  rcases run_cases (o := o) registered_new steps with ⟨horderly, m', hrun⟩ | ⟨hnot, hrun⟩
  · rw [hrun]
    exact ⟨nofun, iff_of_true nofun horderly⟩
  · rw [hrun]
    exact ⟨nofun, iff_of_false (fun h => h rfl) hnot⟩

section Example

def anyEvent : StreamRequest := ⟨"", []⟩

def streamEndsFirst : List EventStep :=
  [.openStream anyEvent, .publish [] 1 "owner" "up" ∅, .receive 0 false, .cancelStream 0,
    .cleanUp 0, .shutdown []]

def shutdownFirst : List EventStep :=
  [.openStream anyEvent, .shutdown [], .receive 0 false, .cleanUp 0]

theorem subscriptions_never_panic_example :
    new.run .sorted streamEndsFirst ≠ .error .closeOfClosedChannel := by
  exact (subscriptions_never_panic_iff .sorted streamEndsFirst).2.mpr (by decide +kernel)

/-- The stream sees its channel closed, returns and closes it again. -/
theorem subscriptions_panic : new.run .sorted shutdownFirst = .error .closeOfClosedChannel := by
  decide +kernel

end Example

end EventManager

end NovaNet
