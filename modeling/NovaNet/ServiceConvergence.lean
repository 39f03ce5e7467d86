import NovaNet.Interleave
import NovaNet.SlotOwnership

/-! Service and EndpointSlice handlers that interleave. A handler gets hold of a Service
object before it takes the lock of the watcher, so it can reconcile an object that the
cache no longer has. -/

namespace NovaNet

open Finmap Interleave Watcher Option

def EndpointSlice.svcKey (eps : EndpointSlice) : Option String :=
  eps.serviceName.map fun name => eps.namespace_ ++ "/" ++ name

theorem onEndpointSliceChange_eq (store : ServiceStore) (eps : EndpointSlice) :
    onEndpointSliceChange store eps = (eps.svcKey.bind store.lookup).map .reconcileService := by
  unfold onEndpointSliceChange EndpointSlice.svcKey
  cases eps.serviceName with
  | none => rfl
  | some name => cases h : store.lookup (eps.namespace_ ++ "/" ++ name) <;> simp [h]

/-- A handler is cut where the informer has updated its cache, and where the Service
object has been found. -/
inductive ServiceTask where
  | event (ev : ServiceEvent) (o : IterOrder String)
  | lookup (eps : EndpointSlice) (o : IterOrder String)
  | locked (c : WatcherCall) (o : IterOrder String)

namespace ServiceTask

def handler (o : IterOrder String) : ServiceEvent → ServiceTask
  | .serviceSet svc => .locked (onServiceChange svc) o
  | .serviceDeleted svc => .locked (onServiceDelete svc) o
  | .sliceSet eps => .lookup eps o
  | .sliceDeleted eps => .lookup eps o

/-- A handler that panics never finishes. -/
def next (cfg : WatcherConfig) : ServiceTask → ServiceWorld → ServiceWorld × Option ServiceTask
  | .event ev o, s => (s.update ev, some (handler o ev))
  | .lookup eps o, s => (s, (onEndpointSliceChange s.svcStore eps).map fun c => .locked c o)
  | .locked c o, s =>
    match c.run cfg o s.epsStore s.watcher with
    | none => (s, some (.locked c o))
    | some r => (s.finish r, none)

end ServiceTask

def backendsAt (store : SliceStore) (svc : Service) (key : String) : List BackendInfo :=
  match store.lookup key with
  | none => []
  | some eps =>
    if eps.namespace_ = svc.namespace_ ∧ eps.serviceName = some svc.name then sliceBackends eps
    else []

namespace ServiceWorld

def ComputedFrom (cfg : WatcherConfig) (store : SliceStore) (svc : Service) (st : ServiceState) :
    Prop :=
  ∃ w o store' r, (∀ key, backendsAt store' svc key = backendsAt store svc key) ∧
    reconcileService cfg o store' w svc = some r ∧
    r.1.services.lookup svc.key = some st

/-- The service under `k` is tracked just when it is in the cache and not headless, and
then with a state made from the cached object and slices. -/
structure RightAt (cfg : WatcherConfig) (k : String) (s : ServiceWorld) : Prop where
  tracked : s.watcher.services.lookup k ≠ none ↔
    ∃ svc, s.svcStore.lookup k = some svc ∧ serviceClusterIPs svc ≠ []
  computed : ∀ st svc, s.watcher.services.lookup k = some st → s.svcStore.lookup k = some svc →
    ComputedFrom cfg s.epsStore svc st

def Converged (cfg : WatcherConfig) (s : ServiceWorld) : Prop := ∀ k, s.RightAt cfg k

variable {cfg : WatcherConfig} {s s' : ServiceWorld} {k : String} {svc : Service} {st : ServiceState}

theorem RightAt.congr (h : s.RightAt cfg k)
    (hw : s'.watcher.services.lookup k = s.watcher.services.lookup k)
    (hstore : s'.svcStore.lookup k = s.svcStore.lookup k)
    (hslices : ∀ svc, s.svcStore.lookup k = some svc → s.watcher.services.lookup k ≠ none →
      ∀ key, backendsAt s'.epsStore svc key = backendsAt s.epsStore svc key) :
    s'.RightAt cfg k := by
  refine ⟨by rw [hw, hstore]; exact h.tracked, ?_⟩
  intro st svc hst hsvc
  rw [hw] at hst
  rw [hstore] at hsvc
  obtain ⟨w, o, store', r, hsame, hr⟩ := h.computed st svc hst hsvc
  refine ⟨w, o, store', r, fun key => ?_, hr⟩
  rw [hsame, hslices svc hsvc (by simp [hst])]

theorem rightAt_untracked (hw : s.watcher.services.lookup k = none)
    (hstore : ∀ svc, s.svcStore.lookup k = some svc → serviceClusterIPs svc = []) :
    s.RightAt cfg k := by
  refine ⟨⟨fun h => absurd hw h, ?_⟩, by simp [hw]⟩
  rintro ⟨svc, hsvc, hne⟩
  exact absurd (hstore svc hsvc) hne

structure Sound (s : ServiceWorld) : Prop where
  slots : s.watcher.SlotsConserved
  keys : ∀ k svc, s.svcStore.lookup k = some svc → svc.key = k

theorem sound_start : start.Sound := ⟨slotsConserved_start, by simp [start]⟩

theorem Sound.update (h : s.Sound) (ev : ServiceEvent) : (s.update ev).Sound := by
  refine ⟨by rw [update_watcher]; exact h.slots, ?_⟩
  intro k svc hsvc
  cases ev with
  | serviceSet svc' =>
    rcases LastWrite.lookup_insert_eq_some hsvc with ⟨rfl, rfl⟩ | ⟨-, hold⟩
    · rfl
    · exact h.keys k svc hold
  | serviceDeleted svc' => exact h.keys k svc (LastWrite.lookup_erase_eq_some hsvc).2
  | sliceSet eps | sliceDeleted eps => exact h.keys k svc hsvc

theorem Sound.next (h : s.Sound) (t : ServiceTask) : (t.next cfg s).1.Sound := by
  cases t with
  | event ev o => exact h.update ev
  | lookup eps o => exact h
  | locked c o =>
    simp only [ServiceTask.next]
    cases hr : c.run cfg o s.epsStore s.watcher with
    | none => exact h
    | some r => exact ⟨h.slots.run hr, h.keys⟩

end ServiceWorld

open ServiceWorld

section Slices

variable {store store' : SliceStore} {svc : Service} {eps : EndpointSlice}

theorem backendsAt_eq_nil {key : String}
    (h : ∀ eps, store.lookup key = some eps → eps.svcKey ≠ some svc.key) :
    backendsAt store svc key = [] := by
  unfold backendsAt
  cases hl : store.lookup key with
  | none => rfl
  | some eps =>
    refine if_neg ?_
    rintro ⟨hns, hname⟩
    apply h eps hl
    simp [EndpointSlice.svcKey, hname, hns, Service.key]

theorem backendsAt_congr (hold : ∀ old, store.lookup eps.key = some old → old.svcKey ≠ some svc.key)
    (hnew : ∀ old, store'.lookup eps.key = some old → old.svcKey ≠ some svc.key)
    (hother : ∀ key, key ≠ eps.key → store'.lookup key = store.lookup key) (key : String) :
    backendsAt store' svc key = backendsAt store svc key := by
  by_cases hk : key = eps.key
  · subst hk
    rw [backendsAt_eq_nil hold, backendsAt_eq_nil hnew]
  · unfold backendsAt
    rw [hother key hk]

end Slices

namespace ServiceTask

/-- The task will still bring the service under `k` in line with the present caches. -/
def Owes (k : String) (s : ServiceWorld) : ServiceTask → Prop
  | .event (.serviceSet svc) _ => svc.key = k
  | .event (.serviceDeleted svc) _ => svc.key = k
  | .event (.sliceSet eps) _ => eps.svcKey = some k ∧ s.svcStore.lookup k ≠ none
  | .event (.sliceDeleted eps) _ => eps.svcKey = some k ∧ s.svcStore.lookup k ≠ none
  | .lookup eps _ => eps.svcKey = some k ∧ s.svcStore.lookup k ≠ none
  | .locked (.reconcileService svc) _ => s.svcStore.lookup k = some svc
  | .locked (.deleteService svc) _ => svc.key = k ∧ s.svcStore.lookup k = none

/-- No slice moves from one service to another. -/
def KeepsService (s : ServiceWorld) (eps : EndpointSlice) (others : List ServiceTask) : Prop :=
  ∀ old k, s.epsStore.lookup eps.key = some old → old.svcKey = some k →
    eps.svcKey = some k ∨ s.svcStore.lookup k = none ∨ ∃ u ∈ others, u.Owes k s

/-- What a handler reconciles or deletes is up to date, or another task will put it
right. A service that is reconciled has a ready endpoint and finds room. -/
def Clean (s : ServiceWorld) (t : ServiceTask) (others : List ServiceTask) : Prop :=
  match t with
  | .event (.sliceSet eps) _ => KeepsService s eps others
  | .event (.sliceDeleted eps) _ => KeepsService s eps others
  | .locked (.reconcileService svc) o =>
    (s.svcStore.lookup svc.key = some svc ∧ (serviceClusterIPs svc = [] ∨
      collectBackends o s.epsStore svc ≠ [] ∧ s.watcher.HasRoom svc.key
        (max 1 (totalBackends (collectBackends o s.epsStore svc) svc)) backendSlots)) ∨
    ∃ u ∈ others, u.Owes svc.key s
  | .locked (.deleteService svc) _ =>
    (∀ svc', s.svcStore.lookup svc.key = some svc' → serviceClusterIPs svc' = []) ∨
    ∃ u ∈ others, u.Owes svc.key s
  | _ => True

variable {cfg : WatcherConfig} {s s' : ServiceWorld} {k : String} {others : List ServiceTask}
  {o : IterOrder String}

theorem owes_congr (hstore : s'.svcStore.lookup k = s.svcStore.lookup k) (t : ServiceTask) :
    t.Owes k s' ↔ t.Owes k s := by
  unfold Owes
  rw [hstore]

variable {r : Watcher × List DpRequest} {eps : EndpointSlice} {ev : ServiceEvent} {c : WatcherCall}
  {svc : Service}

theorem keeps_service (hev : ev = .serviceSet svc ∨ ev = .serviceDeleted svc) :
    Keeps (next cfg) (ServiceWorld.RightAt cfg k) (Owes k) s (.event ev o) others := by
  by_cases hk : svc.key = k
  · apply Keeps.rest
    refine ⟨handler o ev, rfl, ?_⟩
    rcases hev with rfl | rfl
    · change ((s.svcStore.insert svc.key svc).lookup k) = some svc
      rw [hk, lookup_insert]
    · refine ⟨hk, ?_⟩
      change ((s.svcStore.erase svc.key).lookup k) = none
      rw [hk, lookup_erase]
  · have hstore : (s.update ev).svcStore.lookup k = s.svcStore.lookup k := by
      rcases hev with rfl | rfl
      · exact lookup_insert_of_ne _ (Ne.symm hk)
      · exact lookup_erase_ne (Ne.symm hk)
    have hslices : (s.update ev).epsStore = s.epsStore := by
      rcases hev with rfl | rfl <;> rfl
    have hright : s.RightAt cfg k → (s.update ev).RightAt cfg k := by
      intro h
      refine h.congr ?_ hstore fun _ _ _ _ => ?_
      · rw [update_watcher]
      · rw [hslices]
    refine .passes hright (fun u hu => (owes_congr hstore u).mpr hu) ?_
    intro ho
    rcases hev with rfl | rfl <;> exact absurd ho hk

theorem keeps_slice (hs : s.Sound) (hev : ev = .sliceSet eps ∨ ev = .sliceDeleted eps)
    (hclean : KeepsService s eps others) :
    Keeps (next cfg) (ServiceWorld.RightAt cfg k) (Owes k) s (.event ev o) others := by
  have hstore : (s.update ev).svcStore = s.svcStore := by
    rcases hev with rfl | rfl <;> rfl
  have howes : ∀ u : ServiceTask, u.Owes k (s.update ev) ↔ u.Owes k s := owes_congr (by rw [hstore])
  by_cases hown : eps.svcKey = some k ∧ s.svcStore.lookup k ≠ none
  · apply Keeps.rest
    refine ⟨.lookup eps o, ?_, (howes _).mpr hown⟩
    rcases hev with rfl | rfl <;> rfl
  · by_cases hother : ∃ u ∈ others, u.Owes k s
    · obtain ⟨u, hu, ho⟩ := hother
      exact .other ⟨u, hu, (howes u).mpr ho⟩
    · have hright : s.RightAt cfg k → (s.update ev).RightAt cfg k := by
        intro h
        refine h.congr (by rw [update_watcher]) (by rw [hstore]) ?_
        -- the service is cached, so neither the old nor the new slice is one of its own
        intro svc hsvc _ key
        have hne : eps.svcKey ≠ some svc.key := by
          intro heq
          rw [hs.keys k svc hsvc] at heq
          exact hown ⟨heq, by simp [hsvc]⟩
        have hold : ∀ old, s.epsStore.lookup eps.key = some old → old.svcKey ≠ some svc.key := by
          intro old hl heq
          rcases hclean old svc.key hl heq with hsame | hnone | howed
          · exact hne hsame
          · rw [hs.keys k svc hsvc, hsvc] at hnone
            cases hnone
          · rw [hs.keys k svc hsvc] at howed
            exact hother howed
        refine backendsAt_congr hold ?_ ?_ key
        · rcases hev with rfl | rfl
          · intro old hl
            obtain rfl := some.inj ((lookup_insert _).symm.trans hl)
            exact hne
          · intro old hl
            cases (lookup_erase _ _).symm.trans hl
        · intro key' hk'
          rcases hev with rfl | rfl
          · exact lookup_insert_of_ne _ hk'
          · exact lookup_erase_ne hk'
      refine .passes hright (fun u hu => (howes u).mpr hu) ?_
      intro ho
      rcases hev with rfl | rfl <;> exact absurd ho hown

theorem keeps_lookup :
    Keeps (next cfg) (ServiceWorld.RightAt cfg k) (Owes k) s (.lookup eps o) others := by
  refine .passes id (fun _ => id) ?_
  rintro ⟨hkey, hne⟩
  obtain ⟨svc, hsvc⟩ := ne_none_iff_exists'.mp hne
  refine ⟨.locked (.reconcileService svc) o, ?_, hsvc⟩
  simp [next, onEndpointSliceChange_eq, hkey, hsvc]

theorem lookup_run_of_ne {store : SliceStore} {w : Watcher} (hr : c.run cfg o store w = some r)
    (hk : k ≠ c.svc.key) : r.1.services.lookup k = w.services.lookup k := by
  rcases c.run_cases hr with hw | ⟨svc, st, rfl, hp⟩
  · rw [hw, lookup_release, if_neg hk]
  · rw [hp.lookup]
    exact if_neg hk

theorem rightAt_deleted
    (hstored : ∀ svc', s.svcStore.lookup svc.key = some svc' → serviceClusterIPs svc' = []) :
    (s.finish (s.watcher.deleteServiceLocked svc)).RightAt cfg svc.key := by
  refine rightAt_untracked ?_ hstored
  change (s.watcher.deleteServiceLocked svc).1.services.lookup svc.key = none
  rw [deleteServiceLocked_fst, lookup_release, if_pos rfl]

theorem rightAt_reconciled (hs : s.Sound)
    (hr : s.watcher.reconcileService cfg o s.epsStore svc = some r)
    (hsvc : s.svcStore.lookup svc.key = some svc)
    (hready : serviceClusterIPs svc = [] ∨
      collectBackends o s.epsStore svc ≠ [] ∧ s.watcher.HasRoom svc.key
        (max 1 (totalBackends (collectBackends o s.epsStore svc) svc)) backendSlots) :
    (s.finish r).RightAt cfg svc.key := by
  rcases reconcileService_cases hr with ⟨hnil, rfl⟩ | ⟨haddr, hwhy, rfl⟩ | ⟨st, hp⟩
  · apply rightAt_deleted
    intro svc' hsvc'
    obtain rfl := some.inj (hsvc.symm.trans hsvc')
    exact hnil
  · -- a service with endpoints and room is not dropped
    obtain ⟨hne, hroom⟩ := hready.resolve_left haddr
    have hsome := hs.slots.alloc_isSome hroom
    rcases hwhy with hnil | hfull
    · exact absurd hnil hne
    · simp [hfull] at hsome
  · have hst : r.1.services.lookup svc.key = some st := by
      rw [hp.lookup, if_pos rfl]
    refine ⟨⟨fun _ => ⟨svc, hsvc, hp.addressed⟩, fun _ => ?_⟩, ?_⟩
    · change r.1.services.lookup svc.key ≠ none
      simp [hst]
    · intro st' svc' hst' hsvc'
      obtain rfl := some.inj (hsvc.symm.trans hsvc')
      exact ⟨s.watcher, o, s.epsStore, r, fun _ => rfl, hr, hst'⟩

theorem keeps_locked (hs : s.Sound) (hclean : Clean s (.locked c o) others) :
    Keeps (next cfg) (ServiceWorld.RightAt cfg k) (Owes k) s (.locked c o) others := by
  cases hr : c.run cfg o s.epsStore s.watcher with
  | none =>
    have hnext : next cfg (.locked c o) s = (s, some (.locked c o)) := by simp only [next, hr]
    refine .passes ?_ ?_ ?_ <;> rw [hnext]
    · exact id
    · exact fun _ => id
    · exact fun ho => ⟨_, rfl, ho⟩
  | some r =>
    have hnext : next cfg (.locked c o) s = (s.finish r, none) := by simp only [next, hr]
    have howes : ∀ u : ServiceTask, u.Owes k (s.finish r) ↔ u.Owes k s := owes_congr rfl
    by_cases hk : k = c.svc.key
    · subst hk
      have hother : (∃ u ∈ others, u.Owes c.svc.key s) →
          Keeps (next cfg) (ServiceWorld.RightAt cfg c.svc.key) (Owes c.svc.key) s (.locked c o)
            others := by
        rintro ⟨u, hu, ho⟩
        refine .other ⟨u, hu, ?_⟩
        rw [hnext]
        exact (howes u).mpr ho
      cases c with
      | reconcileService svc =>
        rcases hclean with ⟨hsvc, hready⟩ | howed
        · apply Keeps.settles
          rw [hnext]
          exact rightAt_reconciled hs hr hsvc hready
        · exact hother howed
      | deleteService svc =>
        rcases hclean with hstored | howed
        · apply Keeps.settles
          rw [hnext]
          obtain rfl := some.inj hr
          exact rightAt_deleted hstored
        · exact hother howed
    · refine .passes ?_ ?_ ?_ <;> rw [hnext]
      · exact fun h => h.congr (lookup_run_of_ne hr hk) rfl fun _ _ _ _ => rfl
      · exact fun u hu => (howes u).mpr hu
      · intro ho
        cases c with
        | reconcileService svc => exact absurd (hs.keys k svc ho).symm hk
        | deleteService svc => exact absurd ho.1.symm hk

theorem keeps (hs : s.Sound) {t : ServiceTask} (hclean : Clean s t others) (cfg : WatcherConfig)
    (k : String) : Keeps (next cfg) (ServiceWorld.RightAt cfg k) (Owes k) s t others := by
  cases t with
  | event ev o =>
    cases ev with
    | serviceSet svc => exact keeps_service (.inl rfl)
    | serviceDeleted svc => exact keeps_service (.inr rfl)
    | sliceSet eps => exact keeps_slice hs (.inl rfl) hclean
    | sliceDeleted eps => exact keeps_slice hs (.inr rfl) hclean
  | lookup eps o => exact keeps_lookup
  | locked c o => exact keeps_locked hs hclean

end ServiceTask

/-- Once all handlers of a clean run have finished, the watcher tracks just the services
of the cache that are not headless, each with a state made from the cached objects. -/
theorem services_converge (cfg : WatcherConfig) {s : ServiceWorld} {tasks : List ServiceTask}
    (hrun : Run (ServiceTask.next cfg) ServiceTask.Clean ⟨.start, tasks⟩ ⟨s, []⟩) :
    s.Converged cfg := by
  intro k
  refine right_of_run (fun s t h => ServiceWorld.Sound.next h t)
    (fun s t others hs hclean => ServiceTask.keeps hs hclean cfg k) sound_start ?_ hrun
  exact rightAt_untracked rfl (by simp [start])

section Example

def shopSliceTask : ServiceTask := .event (.sliceSet (shopSlice [0x0af40005])) .sorted

def shopTask : ServiceTask := .event (.serviceSet (shop twoPorts)) .sorted

def shopCall : ServiceTask := .locked (.reconcileService (shop twoPorts)) .sorted

def shopCached : ServiceWorld :=
  (start.update (.serviceSet (shop twoPorts))).update (.sliceSet (shopSlice [0x0af40005]))

theorem isSome_reconcile_shop (w : Watcher) :
    (w.reconcileService plainConfig .sorted shopCached.epsStore (shop twoPorts)).isSome = true := by
  have hports : (shop twoPorts).ports ≠ [] := by decide
  obtain ⟨q, hq⟩ := isSome_iff_exists.mp (placeMaglev_isSome plainConfig
    (w.freeTracked (shop twoPorts)).1 (collectBackends .sorted shopCached.epsStore (shop twoPorts))
    hports)
  unfold reconcileService
  simp only [hq]
  split
  · split <;> rfl
  · split
    · rfl
    · split <;> rfl

theorem shopCall_step (w : Watcher) (entries : ServiceMap) (others : List ServiceTask)
    (hclean : ServiceTask.Clean { shopCached with watcher := w, entries := entries } shopCall others) :
    ∃ r, w.reconcileService plainConfig .sorted shopCached.epsStore (shop twoPorts) = some r ∧
      Step (ServiceTask.next plainConfig) ServiceTask.Clean
        ⟨{ shopCached with watcher := w, entries := entries }, shopCall :: others⟩
        ⟨{ shopCached with watcher := r.1, entries := r.2.foldl applyRequest entries }, others⟩ := by
  obtain ⟨r, hr⟩ := isSome_iff_exists.mp (isSome_reconcile_shop w)
  refine ⟨r, hr, ?_⟩
  have hnext : ServiceTask.next plainConfig shopCall
      { shopCached with watcher := w, entries := entries } =
      ({ shopCached with watcher := r.1, entries := r.2.foldl applyRequest entries }, none) := by
    simp only [ServiceTask.next, shopCall, WatcherCall.run, hr, finish]
  have hstep : Step (ServiceTask.next plainConfig) ServiceTask.Clean
      ⟨{ shopCached with watcher := w, entries := entries }, [] ++ shopCall :: others⟩ _ :=
    .fire [] others hclean
  rwa [hnext] at hstep

theorem exists_clean_service_run :
    ∃ s, Run (ServiceTask.next plainConfig) ServiceTask.Clean
      ⟨.start, [shopTask, shopSliceTask]⟩ ⟨s, []⟩ := by
  have hcached : Run (ServiceTask.next plainConfig) ServiceTask.Clean
      ⟨.start, [shopTask, shopSliceTask]⟩ ⟨shopCached, [shopCall, shopCall]⟩ :=
    .head (.fire [] [shopSliceTask] trivial) <|
      .head (.fire [shopCall] [] fun old k hold => by cases hold) <|
      .single (.fire [shopCall] [] trivial)
  obtain ⟨r, hr, hfirst⟩ := shopCall_step newWatcher ∅ [shopCall]
    (.inr ⟨shopCall, List.mem_singleton_self _, rfl⟩)
  have hroom : ServiceTask.Clean { shopCached with
      watcher := r.1, entries := r.2.foldl applyRequest ∅ } shopCall [] := by
    have hready : collectBackends .sorted shopCached.epsStore (shop twoPorts) =
        [podBackend 0x0af40005] := collectBackends_shop .sorted [0x0af40005] twoPorts
    refine .inl ⟨rfl, .inr ?_⟩
    change collectBackends .sorted shopCached.epsStore (shop twoPorts) ≠ [] ∧
      r.1.HasRoom (shop twoPorts).key (max 1 (totalBackends
        (collectBackends .sorted shopCached.epsStore (shop twoPorts)) (shop twoPorts))) backendSlots
    rw [hready]
    refine ⟨by simp, 0, by decide, ?_⟩
    intro x _ k b hk hb
    have hrun : (WatcherCall.reconcileService (shop twoPorts)).run plainConfig .sorted
        shopCached.epsStore newWatcher = some r := hr
    have hnone : r.1.services.lookup k = none := ServiceTask.lookup_run_of_ne hrun hk
    simp [backendOwner, hnone] at hb
  obtain ⟨r', -, hsecond⟩ := shopCall_step _ _ _ hroom
  exact ⟨_, .tail (.tail hcached hfirst) hsecond⟩

theorem services_converge_example :
    ∃ s, Run (ServiceTask.next plainConfig) ServiceTask.Clean
      ⟨.start, [shopTask, shopSliceTask]⟩ ⟨s, []⟩ ∧ s.Converged plainConfig := by
  obtain ⟨s, hrun⟩ := exists_clean_service_run
  exact ⟨s, hrun, services_converge plainConfig hrun⟩

/-- Slice and service come and the service is tracked. A second slice event finds the
service in the cache; before it takes the lock the service is deleted. -/
def staleReconcile : Config ServiceWorld ServiceTask :=
  schedule (ServiceTask.next plainConfig)
    ⟨.start, [shopSliceTask, shopTask, shopSliceTask,
      .event (.serviceDeleted (shop twoPorts)) .sorted]⟩ [0, 0, 0, 0, 0, 0, 1, 1, 0]

theorem deleted_service_tracked_again :
    ∃ s, Run (ServiceTask.next plainConfig) anyStep
        ⟨.start, [shopSliceTask, shopTask, shopSliceTask,
          .event (.serviceDeleted (shop twoPorts)) .sorted]⟩ ⟨s, []⟩ ∧
      s.svcStore.lookup (shop twoPorts).key = none ∧
      s.watcher.services.lookup (shop twoPorts).key ≠ none := by
  have hpool : staleReconcile = ⟨staleReconcile.shared, []⟩ := by
    have hempty : staleReconcile.pool = [] := List.isEmpty_iff.mp (by decide +kernel)
    rw [← hempty]
  have hrun := run_schedule (ServiceTask.next plainConfig) [0, 0, 0, 0, 0, 0, 1, 1, 0]
    ⟨.start, [shopSliceTask, shopTask, shopSliceTask, .event (.serviceDeleted (shop twoPorts)) .sorted]⟩
  refine ⟨staleReconcile.shared, hpool ▸ hrun, ?_, ?_⟩
  · decide +kernel
  · decide +kernel

end Example

end NovaNet
