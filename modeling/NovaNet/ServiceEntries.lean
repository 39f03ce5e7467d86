import NovaNet.SlotOwnership

/-! The entries of SERVICES against the services they were written for. What a service
no longer exposes is deleted only as far as the new object and the saved state tell. -/

namespace NovaNet

open LastWrite List Watcher Option

open FreeList (Block)

def Service.Exposes (svc : Service) (addr : ServiceAddr) : Prop :=
  ∃ port ∈ svc.ports, addr.protocol = protocolToNumber port.protocol ∧
    match addr.scope with
    | .clusterIP => addr.ip ∈ serviceClusterIPs svc ∧ addr.port = portToU32 port.port
    | .nodePort => (svc.type = .nodePort ∨ svc.type = .loadBalancer) ∧ 0 < port.nodePort ∧
        addr.ip = "" ∧ addr.port = portToU32 port.nodePort
    | .externalIP => addr.ip ∈ svc.externalIPs ∧ addr.port = portToU32 port.port
    | .loadBalancer => svc.type = .loadBalancer ∧ addr.ip ∈ svc.ingressIPs ∧ addr.ip ≠ "" ∧
        addr.port = portToU32 port.port

structure Service.Plain (svc : Service) : Prop where
  no_external : svc.externalIPs = []
  not_balanced : svc.type ≠ .loadBalancer
  allocated : svc.type = .nodePort → ∀ port ∈ svc.ports, 0 < port.nodePort

variable {addr : ServiceAddr} {port : ServicePort} {svc : Service}

theorem Service.Plain.mem_portAddrs (h : svc.Plain) : addr ∈ portAddrs svc port ↔
      ∃ scope ∈ computeScopes svc, ∃ ip ∈ serviceClusterIPs svc, addr = serviceAddr port scope ip := by
  have hsplit : portAddrs svc port = (computeScopes svc).flatMap fun scope =>
      (serviceClusterIPs svc).map fun ip => serviceAddr port scope ip := by
    simp [portAddrs, h.no_external, h.not_balanced]
  rw [hsplit]
  simp only [mem_flatMap, List.mem_map, eq_comm]

theorem Service.Plain.scope_cases (h : svc.Plain) {scope : Scope} (hs : scope ∈ computeScopes svc) :
    scope = .clusterIP ∨ scope = .nodePort ∧ svc.type = .nodePort := by
  simp only [computeScopes, h.no_external, length_nil, Nat.lt_irrefl, if_false,
    append_nil, mem_append, List.mem_singleton] at hs
  rcases hs with rfl | hs
  · exact .inl rfl
  · cases ht : svc.type with
    | nodePort => exact .inr ⟨by simpa [ht] using hs, rfl⟩
    | loadBalancer => exact absurd ht h.not_balanced
    | clusterIP | externalName => simp [ht] at hs

theorem Service.Plain.exposes (h : svc.Plain) (hport : port ∈ svc.ports)
    (haddr : addr ∈ portAddrs svc port) : svc.Exposes addr := by
  obtain ⟨scope, hs, ip, hip, rfl⟩ := h.mem_portAddrs.mp haddr
  rcases h.scope_cases hs with rfl | ⟨rfl, ht⟩
  · exact ⟨port, hport, rfl, hip, by simp [serviceAddr, servicePortForScope]⟩
  · have hn := h.allocated ht port hport
    exact ⟨port, hport, rfl, .inl ht, hn, rfl, by simp [serviceAddr, servicePortForScope, hn]⟩

/-- What is found after a list of requests was written by one of them, or was there
before and no request deletes it. -/
theorem lookup_applyRequests {reqs : List DpRequest} {m : ServiceMap} {e : ServiceEntry}
    (h : (reqs.foldl applyRequest m).lookup addr = some e) :
    .upsertService addr e ∈ reqs ∨ (m.lookup addr = some e ∧ .deleteService addr ∉ reqs) := by
  induction reqs generalizing m with
  | nil => exact .inr ⟨h, by simp⟩
  | cons q reqs ih =>
    rw [foldl_cons] at h
    rcases ih h with hup | ⟨hm, hdel⟩
    · exact .inl (mem_cons_of_mem _ hup)
    · cases q with
      | upsertService a e' =>
        rcases lookup_insert_eq_some hm with ⟨rfl, rfl⟩ | ⟨-, hm⟩
        · exact .inl (by simp)
        · exact .inr ⟨hm, by simpa using hdel⟩
      | deleteService a =>
        obtain ⟨hne, hm⟩ := lookup_erase_eq_some hm
        refine .inr ⟨hm, ?_⟩
        simp only [mem_cons, DpRequest.deleteService.injEq, not_or]
        exact ⟨hne, hdel⟩
      | upsertBackends es | upsertMaglevTable off es => exact .inr ⟨hm, by simpa using hdel⟩

namespace ServiceWorld

/-- The entry was written for the service under `key`, which is tracked and stored,
exposes its address and owns its slots. -/
def Owns (s : ServiceWorld) (key : String) (addr : ServiceAddr) (e : ServiceEntry) : Prop :=
  ∃ st svc, s.watcher.services.lookup key = some st ∧ s.svcStore.lookup key = some svc ∧
    svc.Exposes addr ∧ ∀ x, e.block.Contains x → st.backendBlock.Contains x

def EntriesOwned (s : ServiceWorld) : Prop :=
  ∀ addr e, s.entries.lookup addr = some e → ∃! key, s.Owns key addr e

structure Wrote (s : ServiceWorld) (key : String) (addr : ServiceAddr) (e : ServiceEntry)
    (st : ServiceState) (svc : Service) : Prop where
  tracked : s.watcher.services.lookup key = some st
  stored : s.svcStore.lookup key = some svc
  plain : svc.Plain
  scopes : st.scopes = computeScopes svc
  clusterIPs : st.clusterIPs = serviceClusterIPs svc
  addressed : ∃ port ∈ svc.ports, addr ∈ portAddrs svc port
  filled : 0 < e.backendCount
  inside : ∀ x, e.block.Contains x → st.backendBlock.Contains x

structure EntriesInv (s : ServiceWorld) : Prop where
  slots : s.watcher.SlotsConserved
  keyed : ∀ key svc, s.svcStore.lookup key = some svc → svc.key = key
  entries : ∀ addr e, s.entries.lookup addr = some e → ∃ key st svc, s.Wrote key addr e st svc

def KeepsPorts (s : ServiceWorld) (svc : Service) : Prop :=
  ∀ old, s.svcStore.lookup svc.key = some old → s.watcher.services.lookup svc.key ≠ none →
    ∀ port ∈ old.ports, ∃ port' ∈ svc.ports,
      port'.protocol = port.protocol ∧ port'.port = port.port ∧ port'.nodePort = port.nodePort

/-- The object that is reconciled or deleted names all ports of the stored one. One that
is reconciled has plain addresses and a number of backends that does not overflow. -/
def EntriesClean (s : ServiceWorld) (ev : ServiceEvent) : Prop :=
  match (s.update ev).call ev with
  | none => True
  | some (.deleteService svc) => s.KeepsPorts svc
  | some (.reconcileService svc) => s.KeepsPorts svc ∧ svc.Plain ∧
      ∀ o, (collectBackends o (s.update ev).epsStore svc).length * svc.ports.length < 2 ^ 32

variable {cfg : WatcherConfig} {o : IterOrder String} {s s' : ServiceWorld} {ev : ServiceEvent}
  {reqs : List DpRequest} {svc : Service} {st : ServiceState} {addr : ServiceAddr}
  {e : ServiceEntry} {key : String} {c : WatcherCall}

theorem EntriesInv.owned (h : s.EntriesInv) : s.EntriesOwned := by
  intro addr e he
  obtain ⟨key, st, svc, hw⟩ := h.entries addr e he
  obtain ⟨port, hport, haddr⟩ := hw.addressed
  have hfirst : e.block.Contains e.backendOffset :=
    ⟨Nat.le_refl _, Nat.lt_add_of_pos_right hw.filled⟩
  refine ⟨key, ⟨st, svc, hw.tracked, hw.stored, hw.plain.exposes hport haddr, hw.inside⟩, ?_⟩
  -- the slots of another owner would be the same slots
  rintro key' ⟨st', svc', htracked', -, -, hinside'⟩
  have hown : s.watcher.backendOwner key = some st.backendBlock := by
    simp [backendOwner, hw.tracked]
  have hown' : s.watcher.backendOwner key' = some st'.backendBlock := by
    simp [backendOwner, htracked']
  exact h.slots.single _ _ _ _ _ hown' hown (hinside' _ hfirst) (hw.inside _ hfirst)

theorem lookup_update_of_ne (hc : (s.update ev).call ev = some c) (hk : key ≠ c.svc.key) :
    (s.update ev).svcStore.lookup key = s.svcStore.lookup key := by
  cases ev with
  | serviceSet svc =>
    obtain rfl := some.inj hc
    exact Finmap.lookup_insert_of_ne _ hk
  | serviceDeleted svc =>
    obtain rfl := some.inj hc
    exact Finmap.lookup_erase_ne hk
  | sliceSet eps => rfl
  | sliceDeleted eps => rfl

theorem keyed_update (h : ∀ key svc, s.svcStore.lookup key = some svc → svc.key = key)
    (ev : ServiceEvent) :
    ∀ key svc, (s.update ev).svcStore.lookup key = some svc → svc.key = key := by
  intro key svc hk
  cases ev with
  | serviceSet svc' =>
    rcases lookup_insert_eq_some hk with ⟨rfl, rfl⟩ | ⟨-, hk⟩
    · rfl
    · exact h key svc hk
  | serviceDeleted svc' => exact h key svc (lookup_erase_eq_some hk).2
  | sliceSet eps | sliceDeleted eps => exact h key svc hk

theorem mem_of_onEndpointSliceChange {store : ServiceStore} {eps : EndpointSlice}
    (h : onEndpointSliceChange store eps = some c) :
    ∃ key svc, store.lookup key = some svc ∧ c = .reconcileService svc := by
  unfold onEndpointSliceChange at h
  cases hn : eps.serviceName with
  | none => simp [hn] at h
  | some name =>
    cases hl : store.lookup (eps.namespace_ ++ "/" ++ name) with
    | none => simp [hn, hl] at h
    | some svc =>
      simp only [hn, hl, some.injEq] at h
      exact ⟨_, svc, hl, h.symm⟩

theorem stored_of_reconcile (h : ∀ key svc, s.svcStore.lookup key = some svc → svc.key = key)
    (hc : (s.update ev).call ev = some (.reconcileService svc)) :
    (s.update ev).svcStore.lookup svc.key = some svc := by
  have hslice : ∀ eps, onEndpointSliceChange (s.update ev).svcStore eps =
      some (.reconcileService svc) → (s.update ev).svcStore.lookup svc.key = some svc := by
    intro eps heps
    obtain ⟨key, svc', hl, hsvc⟩ := mem_of_onEndpointSliceChange heps
    obtain rfl := WatcherCall.reconcileService.inj hsvc
    rwa [keyed_update h ev key svc hl]
  cases ev with
  | serviceSet svc' =>
    obtain rfl := WatcherCall.reconcileService.inj (some.inj hc)
    exact Finmap.lookup_insert _
  | serviceDeleted svc' => cases hc
  | sliceSet eps | sliceDeleted eps => exact hslice eps hc

variable {r : Watcher × List DpRequest} {svc' : Service}

theorem Wrote.deleted (h : s.Wrote svc.key addr e st svc') (hkeeps : s.KeepsPorts svc) :
    .deleteService addr ∈ st.scopes.flatMap (deleteEntries st svc.ports) := by
  obtain ⟨port, hport, haddr⟩ := h.addressed
  obtain ⟨scope, hscope, ip, hip, rfl⟩ := h.plain.mem_portAddrs.mp haddr
  obtain ⟨port', hport', hproto, hnum, hnode⟩ :=
    hkeeps svc' h.stored (by simp [h.tracked]) port hport
  have hsame : serviceAddr port' scope ip = serviceAddr port scope ip := by
    simp [serviceAddr, servicePortForScope, hproto, hnum, hnode]
  simp only [deleteEntries, mem_flatMap, List.mem_map]
  exact ⟨scope, h.scopes ▸ hscope, port', hport', ip, h.clusterIPs ▸ hip, by rw [hsame]⟩

theorem Wrote.mem_freeTracked (h : s.Wrote svc.key addr e st svc') (hkeeps : s.KeepsPorts svc) :
    .deleteService addr ∈ (s.watcher.freeTracked svc).2 := by
  have hdel := h.deleted hkeeps
  simpa only [freeTracked, h.tracked, freeOldState] using hdel

theorem Wrote.mem_deleteServiceLocked (h : s.Wrote svc.key addr e st svc')
    (hkeeps : s.KeepsPorts svc) : .deleteService addr ∈ (s.watcher.deleteServiceLocked svc).2 := by
  have hdel := h.deleted hkeeps
  simp only [deleteServiceLocked, h.tracked]
  obtain ⟨scope, hscope, hmem⟩ := mem_flatMap.mp hdel
  exact mem_flatMap.mpr ⟨scope, hscope, mem_append_left _ (mem_append_left _ hmem)⟩

theorem Wrote.of_ne (h : s.Wrote key addr e st svc') (hc : (s.update ev).call ev = some c)
    (hk : key ≠ c.svc.key) (hr : r.1.services.lookup key = s.watcher.services.lookup key) :
    ((s.update ev).finish r).Wrote key addr e st svc' :=
  { h with
    tracked := hr.trans h.tracked
    stored := (lookup_update_of_ne hc hk).trans h.stored }

theorem EntriesInv.survives (h : s.EntriesInv) (hc : (s.update ev).call ev = some c)
    (hothers : ∀ k, k ≠ c.svc.key → r.1.services.lookup k = s.watcher.services.lookup k)
    (hdel : ∀ st svc, s.Wrote c.svc.key addr e st svc → .deleteService addr ∈ r.2)
    (hfind : ((s.update ev).finish r).entries.lookup addr = some e) :
    .upsertService addr e ∈ r.2 ∨ ∃ key st svc, ((s.update ev).finish r).Wrote key addr e st svc := by
  rcases lookup_applyRequests hfind with hup | ⟨hold, hkept⟩
  · exact .inl hup
  · rw [update_entries] at hold
    obtain ⟨key, st, svc, hw⟩ := h.entries addr e hold
    have hk : key ≠ c.svc.key := by
      rintro rfl
      exact hkept (hdel st svc hw)
    exact .inr ⟨key, st, svc, hw.of_ne hc hk (hothers key hk)⟩

theorem not_upsert_deleteServiceLocked (w : Watcher) (svc : Service) :
    .upsertService addr e ∉ (w.deleteServiceLocked svc).2 := by
  intro hmem
  obtain ⟨a, ha⟩ := NovaNet.mem_deleteServiceLocked hmem
  cases ha

theorem EntriesInv.of_released (h : s.EntriesInv) (hc : (s.update ev).call ev = some c)
    (hr : r.1 = s.watcher.release c.svc.key)
    (hdel : ∀ addr e st svc, s.Wrote c.svc.key addr e st svc → .deleteService addr ∈ r.2)
    (hup : ∀ addr e, .upsertService addr e ∉ r.2)
    (hfind : ((s.update ev).finish r).entries.lookup addr = some e) :
    ∃ key st svc, ((s.update ev).finish r).Wrote key addr e st svc := by
  have hothers : ∀ k, k ≠ c.svc.key → r.1.services.lookup k = s.watcher.services.lookup k := by
    intro k hk
    rw [hr, lookup_release, if_neg hk]
  exact (h.survives hc hothers (hdel addr e) hfind).resolve_left (hup addr e)

theorem EntriesInv.of_placed (h : s.EntriesInv)
    (hc : (s.update ev).call ev = some (.reconcileService svc)) {backends : List BackendInfo}
    (hp : Watcher.Placed cfg s.watcher svc backends st r) (hkeeps : s.KeepsPorts svc)
    (hplain : svc.Plain) (htotal : backends.length * svc.ports.length < 2 ^ 32)
    (hfind : ((s.update ev).finish r).entries.lookup addr = some e) :
    ∃ key st svc, ((s.update ev).finish r).Wrote key addr e st svc := by
  have hothers : ∀ k, k ≠ svc.key → r.1.services.lookup k = s.watcher.services.lookup k := by
    intro k hk
    rw [hp.lookup, if_neg hk]
  have hdel : ∀ st' svc', s.Wrote svc.key addr e st' svc' → .deleteService addr ∈ r.2 := by
    intro st' svc' hw
    obtain ⟨tableRequests, -, hreqs⟩ := hp.table
    have hmem := hw.mem_freeTracked hkeeps
    simp [hreqs, hmem]
  rcases h.survives hc hothers hdel hfind with hup | hold
  · have hfits := hp.fits h.slots htotal
    have hlayout := hfits.layout hp
    obtain ⟨i, port, hport, haddr, rfl⟩ := (hlayout.entries_sent addr e).mp hup
    obtain ⟨hi, hget⟩ := List.getElem?_eq_some_iff.mp hport
    have hblock := hfits.entry cfg hp.ready hi
    have hcount : (st.entry cfg svc backends i).backendCount = backends.length :=
      congrArg Block.count hblock
    refine ⟨svc.key, st, svc, ?_, stored_of_reconcile h.keyed hc, hplain, hp.scopes, hp.clusterIPs,
      ⟨port, hget ▸ getElem_mem hi, haddr⟩, ?_, fun x hx => hlayout.inside i x hi hx⟩
    · exact (hp.lookup svc.key).trans (if_pos rfl)
    · rw [hcount]
      exact length_pos_iff.mpr hp.ready
  · exact hold

theorem EntriesInv.handle (h : s.EntriesInv) (hclean : s.EntriesClean ev)
    (hstep : s.handle cfg o ev = some (s', reqs)) : s'.EntriesInv := by
  have hslots := slotsConserved_handle h.slots hstep
  rcases handle_cases hstep with ⟨hnone, rfl, -⟩ | ⟨c, r, hc, hr, rfl, rfl⟩
  · refine ⟨hslots, keyed_update h.keyed ev, ?_⟩
    cases ev with
    | serviceSet svc | serviceDeleted svc => cases hnone
    | sliceSet eps | sliceDeleted eps =>
      intro addr e he
      obtain ⟨key, st, svc, hw⟩ := h.entries addr e he
      exact ⟨key, st, svc, { hw with }⟩
  · refine ⟨hslots, keyed_update h.keyed ev, ?_⟩
    intro addr e hfind
    simp only [EntriesClean, hc] at hclean
    cases c with
    | deleteService svc =>
      obtain rfl := some.inj hr
      exact h.of_released hc (deleteServiceLocked_fst s.watcher svc)
        (fun _ _ _ _ hw => hw.mem_deleteServiceLocked hclean)
        (fun _ _ => not_upsert_deleteServiceLocked s.watcher svc) hfind
    | reconcileService svc =>
      obtain ⟨hkeeps, hplain, htotal⟩ := hclean
      rcases reconcileService_cases hr with ⟨-, rfl⟩ | ⟨-, -, rfl⟩ | ⟨st, hp⟩
      · exact h.of_released hc (deleteServiceLocked_fst s.watcher svc)
          (fun _ _ _ _ hw => hw.mem_deleteServiceLocked hkeeps)
          (fun _ _ => not_upsert_deleteServiceLocked s.watcher svc) hfind
      · refine h.of_released hc rfl (fun _ _ _ _ hw => hw.mem_freeTracked hkeeps) ?_ hfind
        intro addr e hmem
        obtain ⟨a, ha⟩ := NovaNet.mem_freeTracked hmem
        cases ha
      · exact h.of_placed hc hp hkeeps hplain (htotal o) hfind

theorem entriesInv_start : start.EntriesInv :=
  ⟨slotsConserved_start, by simp [start], by simp [start]⟩

/-- In a run of clean events every entry of SERVICES belongs to exactly one service. -/
theorem service_entries_owned (cfg : WatcherConfig) {s : ServiceWorld}
    (hrun : Run cfg EntriesClean start s) : s.EntriesOwned := by
  have hinv : s.EntriesInv := by
    induction hrun with
    | refl => exact entriesInv_start
    | tail _ hstep ih =>
      obtain ⟨ev, o, reqs, hclean, hh⟩ := hstep
      exact ih.handle hclean hh
  exact hinv.owned

end ServiceWorld

open ServiceWorld

section Example

theorem shop_plain (ports : List ServicePort) : (shop ports).Plain :=
  ⟨rfl, by simp [shop], by simp [shop]⟩

theorem entriesClean_shop (ports : List ServicePort) (pods : List UInt32)
    (h : pods.length * ports.length < 2 ^ 32) :
    (shopWorld pods).EntriesClean (.serviceSet (shop ports)) := by
  refine ⟨?_, shop_plain ports, fun o => ?_⟩
  · intro old hold
    simp [shopWorld, update, start] at hold
  · have hb := collectBackends_shop o pods ports
    change (collectBackends o (shopWorld pods).epsStore (shop ports)).length * ports.length < 2 ^ 32
    rwa [hb, length_map]

theorem entriesClean_shopSlice (pods : List UInt32) :
    start.EntriesClean (.sliceSet (shopSlice pods)) := by
  simp [EntriesClean, call, onEndpointSliceChange, update, start, shopSlice]

theorem service_entries_owned_example :
    ∃ s', Run plainConfig EntriesClean start s' ∧
      (s'.watcher.services.lookup (shop twoPorts).key).isSome = true ∧ s'.EntriesOwned := by
  obtain ⟨st, s', reqs, hstep, htracked, -⟩ := placed_shop plainConfig .sorted [0x0af40005]
    twoPorts (by decide) (by decide) (by decide)
  have hrun : Run plainConfig EntriesClean start s' :=
    .tail (.single ⟨_, .sorted, _, entriesClean_shopSlice _, handle_shopSlice plainConfig .sorted _⟩)
      ⟨_, .sorted, _, entriesClean_shop twoPorts _ (by decide), hstep⟩
  refine ⟨s', hrun, ?_, service_entries_owned plainConfig hrun⟩
  rw [htracked]
  rfl

def portChange : List ServiceEvent :=
  [.sliceSet (shopSlice [0x0af40005]), .serviceSet (shop [portNumbered "" .tcp 80]),
    .serviceSet (shop [portNumbered "" .tcp 81])]

theorem portChange_isSome : (start.handleAll plainConfig .sorted portChange).isSome = true := by
  decide +kernel

def oldAddr : ServiceAddr := ⟨"10.96.0.10", 80, 6, .clusterIP⟩

/-- The deletes for the old port are computed from the new object: the entry of port 80
stays, and no service exposes it. -/
theorem service_entry_outlives_port :
    ∃ s e, Run plainConfig (fun _ _ => True) start s ∧
      s.entries.lookup oldAddr = some e ∧ ¬ ∃ key, s.Owns key oldAddr e := by
  obtain ⟨s, hs⟩ := isSome_iff_exists.mp portChange_isSome
  have hs' : s = get _ portChange_isSome := by simp [hs]
  refine ⟨s, ⟨1, 0, .random, 0, 0, 0⟩, run_handleAll hs, ?_, ?_⟩
  · rw [hs']
    decide +kernel
  · rintro ⟨key, st, svc, -, hstore, ⟨port, hport, -, -, hnum⟩, -⟩
    have hstored : s.svcStore = ((∅ : ServiceStore).insert (shop [portNumbered "" .tcp 80]).key
        (shop [portNumbered "" .tcp 80])).insert (shop [portNumbered "" .tcp 81]).key
        (shop [portNumbered "" .tcp 81]) := by
      rw [hs']
      rfl
    have hsvc : svc = shop [portNumbered "" .tcp 81] := by
      rw [hstored] at hstore
      rcases lookup_insert_eq_some hstore with ⟨-, rfl⟩ | ⟨hne, hstore⟩
      · rfl
      · rcases lookup_insert_eq_some hstore with ⟨rfl, -⟩ | ⟨-, hstore⟩
        · exact absurd rfl hne
        · simp at hstore
    subst hsvc
    obtain rfl := List.mem_singleton.mp hport
    exact absurd hnum (by decide)

end Example

end NovaNet
