import NovaNet.ServiceWatcher

/-! Runs of the service watcher over Service and EndpointSlice events, and what one
call of its two locked functions can do. -/

namespace NovaNet

open Finmap Option

namespace Watcher

def release (w : Watcher) (key : String) : Watcher :=
  (match w.services.lookup key with
  | some st => w.freeSlots st
  | none => w).untrack key

structure Placed (cfg : WatcherConfig) (w : Watcher) (svc : Service)
    (backends : List BackendInfo) (st : ServiceState) (r : Watcher × List DpRequest) : Prop where
  addressed : serviceClusterIPs svc ≠ []
  ready : backends ≠ []
  slots : FreeList.alloc (w.release svc.key).allocator (totalBackends backends svc) =
    some (st.backendOffset, r.1.allocator)
  table : ∃ tableRequests,
    (w.release svc.key).placeMaglev cfg svc backends =
      some (r.1.maglevAllocator, st.algorithm, st.maglevOffset, tableRequests) ∧
    r.2 = (w.freeTracked svc).2 ++ pushBackends st.backendOffset backends svc.ports ++
      tableRequests ++ upsertServiceEntries cfg svc st.backendOffset backends st.algorithm
        st.maglevOffset
  count : st.backendCount = totalBackends backends svc
  scopes : st.scopes = computeScopes svc
  clusterIPs : st.clusterIPs = serviceClusterIPs svc
  services : r.1.services = (w.release svc.key).services.insert svc.key st

inductive Reconciled (cfg : WatcherConfig) (w : Watcher) (svc : Service)
    (backends : List BackendInfo) (r : Watcher × List DpRequest) : Prop
  | headless (haddr : serviceClusterIPs svc = []) (hr : r = w.deleteServiceLocked svc)
  | dropped (haddr : serviceClusterIPs svc ≠ [])
      (hwhy : backends = [] ∨
        FreeList.alloc (w.release svc.key).allocator (totalBackends backends svc) = none)
      (hr : r = (w.release svc.key, (w.freeTracked svc).2))
  | placed (st : ServiceState) (h : Placed cfg w svc backends st r)

variable {cfg : WatcherConfig} {o : IterOrder String} {store : SliceStore} {w : Watcher}
  {svc : Service} {r : Watcher × List DpRequest}

theorem deleteServiceLocked_fst (w : Watcher) (svc : Service) :
    (w.deleteServiceLocked svc).1 = w.release svc.key := by
  unfold deleteServiceLocked release
  cases h : w.services.lookup svc.key with
  | none => simp [untrack, LastWrite.erase_of_notMem (lookup_eq_none.mp h)]
  | some st => rfl

theorem untrack_freeTracked (w : Watcher) (svc : Service) :
    (w.freeTracked svc).1.untrack svc.key = w.release svc.key := by
  unfold freeTracked release
  cases w.services.lookup svc.key <;> rfl

theorem reconcileService_cases (h : w.reconcileService cfg o store svc = some r) :
    Reconciled cfg w svc (collectBackends o store svc) r := by
  unfold reconcileService at h
  by_cases haddr : serviceClusterIPs svc = []
  · refine .headless haddr ?_
    rw [if_pos (by simp [haddr])] at h
    cases hk : w.services.lookup svc.key with
    | none =>
      simp only [hk, some.injEq] at h
      simp [deleteServiceLocked, hk, ← h]
    | some st =>
      simp only [hk, some.injEq] at h
      exact h.symm
  · rw [if_neg (by simpa using haddr)] at h
    have hrel := untrack_freeTracked w svc
    have halloc : (w.release svc.key).allocator = (w.freeTracked svc).1.allocator := by
      rw [← hrel]
      rfl
    by_cases hb : collectBackends o store svc = []
    · rw [if_pos (by simp [hb])] at h
      refine .dropped haddr (.inl hb) ?_
      rw [← hrel]
      exact (some.inj h).symm
    · rw [if_neg (by simpa using hb)] at h
      cases ha : FreeList.alloc (w.freeTracked svc).1.allocator
          (totalBackends (collectBackends o store svc) svc) with
      | none =>
        simp only [ha, some.injEq] at h
        refine .dropped haddr (.inr (halloc ▸ ha)) ?_
        rw [← hrel]
        exact h.symm
      | some p =>
        obtain ⟨offset, rest⟩ := p
        simp only [ha] at h
        cases hm : (w.freeTracked svc).1.placeMaglev cfg svc (collectBackends o store svc) with
        | none => simp [hm] at h
        | some q =>
          obtain ⟨mag, alg, maglevOff, tableRequests⟩ := q
          simp only [hm] at h
          cases h
          refine .placed ⟨offset, totalBackends (collectBackends o store svc) svc, alg, maglevOff,
            computeScopes svc, serviceClusterIPs svc⟩ ⟨haddr, hb, halloc ▸ ha, ⟨tableRequests, ?_, rfl⟩,
            rfl, rfl, rfl, ?_⟩
          · rw [← hrel]
            exact hm
          · rw [← hrel]
            apply Finmap.ext_lookup
            intro k
            by_cases hk : k = svc.key
            · subst hk
              simp
            · simp [untrack, lookup_insert_of_ne _ hk, lookup_erase_ne hk]

theorem placeMaglev_isSome (cfg : WatcherConfig) (w : Watcher) (backends : List BackendInfo)
    (hports : svc.ports ≠ []) : (w.placeMaglev cfg svc backends).isSome = true := by
  obtain ⟨port, ports, hp⟩ := List.exists_cons_of_ne_nil hports
  unfold placeMaglev
  split
  · split
    · rfl
    · simp [hp]
  · rfl

theorem exists_placed {rest : SlotAllocator} {offset : Nat} (cfg : WatcherConfig) (w : Watcher)
    (svc : Service) (haddr : serviceClusterIPs svc ≠ []) (hports : svc.ports ≠ [])
    (hready : collectBackends o store svc ≠ [])
    (hslots : FreeList.alloc (w.release svc.key).allocator
      (totalBackends (collectBackends o store svc) svc) = some (offset, rest)) :
    ∃ st r, w.reconcileService cfg o store svc = some r ∧
      Placed cfg w svc (collectBackends o store svc) st r := by
  have hmag := placeMaglev_isSome cfg (w.freeTracked svc).1 (collectBackends o store svc) hports
  obtain ⟨⟨m, alg, off, tableRequests⟩, hm⟩ := isSome_iff_exists.mp hmag
  cases hr : w.reconcileService cfg o store svc with
  | none =>
    have hfreed : FreeList.alloc (w.freeTracked svc).1.allocator
        (totalBackends (collectBackends o store svc) svc) = some (offset, rest) := by
      rwa [← untrack_freeTracked] at hslots
    unfold reconcileService at hr
    rw [if_neg (by simpa using haddr)] at hr
    simp only [if_neg (show ¬ (collectBackends o store svc).length = 0 by simpa using hready),
      hfreed, hm, reduceCtorEq] at hr
  | some r =>
    rcases reconcileService_cases hr with ⟨hnil, -⟩ | ⟨-, hwhy, -⟩ | ⟨st, hp⟩
    · exact absurd hnil haddr
    · rcases hwhy with hnil | hfull
      · exact absurd hnil hready
      · simp [hslots] at hfull
    · exact ⟨st, r, rfl, hp⟩

end Watcher

abbrev ServiceMap := Finmap fun _ : ServiceAddr => ServiceEntry

abbrev ServiceStore := Finmap fun _ : String => Service

/-- The watcher with the caches of its informers. `entries` is SERVICES as the
requests leave it when every one of them succeeds. -/
structure ServiceWorld where
  watcher : Watcher
  svcStore : ServiceStore
  epsStore : SliceStore
  entries : ServiceMap

inductive ServiceEvent where
  | serviceSet (svc : Service)
  | serviceDeleted (svc : Service)
  | sliceSet (eps : EndpointSlice)
  | sliceDeleted (eps : EndpointSlice)

inductive WatcherCall where
  | reconcileService (svc : Service)
  | deleteService (svc : Service)

def WatcherCall.svc : WatcherCall → Service
  | .reconcileService svc | .deleteService svc => svc

def onServiceChange (svc : Service) : WatcherCall := .reconcileService svc

def onServiceDelete (svc : Service) : WatcherCall := .deleteService svc

def onEndpointSliceChange (store : ServiceStore) (eps : EndpointSlice) : Option WatcherCall :=
  match eps.serviceName with
  | none => none
  | some name =>
    match store.lookup (eps.namespace_ ++ "/" ++ name) with
    | none => none
    | some svc => some (.reconcileService svc)

def WatcherCall.run (cfg : WatcherConfig) (o : IterOrder String) (store : SliceStore)
    (w : Watcher) : WatcherCall → Option (Watcher × List DpRequest)
  | .reconcileService svc => w.reconcileService cfg o store svc
  | .deleteService svc => some (w.deleteServiceLocked svc)

/-- What a locked function does to the watcher: giving up the service, or a new
placement of it. -/
theorem WatcherCall.run_cases {cfg : WatcherConfig} {o : IterOrder String} {store : SliceStore}
    {w : Watcher} {r : Watcher × List DpRequest} (c : WatcherCall)
    (h : c.run cfg o store w = some r) :
    r.1 = w.release c.svc.key ∨ ∃ svc st, c = .reconcileService svc ∧
      Watcher.Placed cfg w svc (collectBackends o store svc) st r := by
  cases c with
  | deleteService svc =>
    obtain rfl := some.inj h
    exact .inl (Watcher.deleteServiceLocked_fst w svc)
  | reconcileService svc =>
    rcases Watcher.reconcileService_cases h with ⟨-, rfl⟩ | ⟨-, -, rfl⟩ | ⟨st, hp⟩
    · exact .inl (Watcher.deleteServiceLocked_fst w svc)
    · exact .inl rfl
    · exact .inr ⟨svc, st, rfl, hp⟩

def applyRequest (m : ServiceMap) : DpRequest → ServiceMap
  | .upsertService addr entry => m.insert addr entry
  | .deleteService addr => m.erase addr
  | _ => m

namespace ServiceWorld

def start : ServiceWorld := ⟨newWatcher, ∅, ∅, ∅⟩

def update (s : ServiceWorld) : ServiceEvent → ServiceWorld
  | .serviceSet svc => { s with svcStore := s.svcStore.insert svc.key svc }
  | .serviceDeleted svc => { s with svcStore := s.svcStore.erase svc.key }
  | .sliceSet eps => { s with epsStore := s.epsStore.insert eps.key eps }
  | .sliceDeleted eps => { s with epsStore := s.epsStore.erase eps.key }

def call (s : ServiceWorld) : ServiceEvent → Option WatcherCall
  | .serviceSet svc => some (onServiceChange svc)
  | .serviceDeleted svc => some (onServiceDelete svc)
  | .sliceSet eps => onEndpointSliceChange s.svcStore eps
  | .sliceDeleted eps => onEndpointSliceChange s.svcStore eps

def finish (s : ServiceWorld) (r : Watcher × List DpRequest) : ServiceWorld :=
  { s with watcher := r.1, entries := r.2.foldl applyRequest s.entries }

def handle (cfg : WatcherConfig) (o : IterOrder String) (s : ServiceWorld) (ev : ServiceEvent) :
    Option (ServiceWorld × List DpRequest) :=
  match (s.update ev).call ev with
  | none => some (s.update ev, [])
  | some c =>
    match c.run cfg o (s.update ev).epsStore s.watcher with
    | none => none
    | some r => some ((s.update ev).finish r, r.2)

variable {cfg : WatcherConfig} {o : IterOrder String} {s s' : ServiceWorld} {ev : ServiceEvent}
  {reqs : List DpRequest}

theorem handle_cases (h : s.handle cfg o ev = some (s', reqs)) :
    ((s.update ev).call ev = none ∧ s' = s.update ev ∧ reqs = []) ∨
    ∃ c r, (s.update ev).call ev = some c ∧
      c.run cfg o (s.update ev).epsStore s.watcher = some r ∧
      s' = (s.update ev).finish r ∧ reqs = r.2 := by
  unfold handle at h
  cases hc : (s.update ev).call ev with
  | none =>
    simp only [hc, some.injEq, Prod.mk.injEq] at h
    exact .inl ⟨rfl, h.1.symm, h.2.symm⟩
  | some c =>
    simp only [hc] at h
    cases hr : c.run cfg o (s.update ev).epsStore s.watcher with
    | none => simp [hr] at h
    | some r =>
      simp only [hr, some.injEq, Prod.mk.injEq] at h
      exact .inr ⟨c, r, rfl, hr, h.1.symm, h.2.symm⟩

def Step (cfg : WatcherConfig) (guard : ServiceWorld → ServiceEvent → Prop)
    (s s' : ServiceWorld) : Prop :=
  ∃ ev o reqs, guard s ev ∧ s.handle cfg o ev = some (s', reqs)

abbrev Run (cfg : WatcherConfig) (guard : ServiceWorld → ServiceEvent → Prop) :=
  Relation.ReflTransGen (Step cfg guard)

def handleAll (cfg : WatcherConfig) (o : IterOrder String) :
    ServiceWorld → List ServiceEvent → Option ServiceWorld
  | s, [] => some s
  | s, ev :: evs =>
    match s.handle cfg o ev with
    | none => none
    | some r => handleAll cfg o r.1 evs

theorem run_handleAll {evs : List ServiceEvent} (h : handleAll cfg o s evs = some s') :
    Run cfg (fun _ _ => True) s s' := by
  induction evs generalizing s with
  | nil =>
    obtain rfl := some.inj h
    exact .refl
  | cons ev evs ih =>
    cases hr : s.handle cfg o ev with
    | none => simp [handleAll, hr] at h
    | some r =>
      simp only [handleAll, hr] at h
      exact .head ⟨ev, o, r.2, trivial, hr⟩ (ih h)

@[simp] theorem update_watcher (s : ServiceWorld) (ev : ServiceEvent) :
    (s.update ev).watcher = s.watcher := by cases ev <;> rfl

@[simp] theorem update_entries (s : ServiceWorld) (ev : ServiceEvent) :
    (s.update ev).entries = s.entries := by cases ev <;> rfl

/-- What an event does to the watcher: nothing, giving up one service, or a new
placement of one service. -/
theorem watcher_cases (h : s.handle cfg o ev = some (s', reqs)) :
    s'.watcher = s.watcher ∨ (∃ key, s'.watcher = s.watcher.release key) ∨
    ∃ svc st, (s.update ev).call ev = some (.reconcileService svc) ∧
      Watcher.Placed cfg s.watcher svc (collectBackends o (s.update ev).epsStore svc) st
        (s'.watcher, reqs) := by
  rcases handle_cases h with ⟨-, rfl, -⟩ | ⟨c, r, hc, hr, rfl, rfl⟩
  · exact .inl (update_watcher s ev)
  · rcases c.run_cases hr with hw | ⟨svc, st, rfl, hp⟩
    · exact .inr (.inl ⟨c.svc.key, hw⟩)
    · exact .inr (.inr ⟨svc, st, hc, hp⟩)

end ServiceWorld

end NovaNet
