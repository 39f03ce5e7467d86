import NovaNet.ServiceLookup
import NovaNet.SlotOwnership

/-! What the dataplane makes of the requests of a reconcile. The watcher leaves the node
address of every backend empty, and the dataplane rejects an empty address. -/

namespace NovaNet

open List Watcher

def DpRequest.IsUpsert : DpRequest → Prop
  | .upsertService _ _ => True
  | .upsertBackends _ => True
  | _ => False

/-- Every upsert succeeds when the requests are served one after the other. -/
def L4Maps.Accepts (m : L4Maps) : List DpRequest → Prop
  | [] => True
  | q :: qs => (q.IsUpsert → (m.serve q).2 = .ok ()) ∧ (m.serve q).1.Accepts qs

/-- The destination under which the packet programs look an address up; a node port is
looked up under 0. -/
def ServiceAddr.lookupIp (addr : ServiceAddr) : Option UInt32 :=
  if addr.scope = .nodePort then some 0
  else
    match Net.parseIp addr.ip with
    | some (.v4 ip) => some ip
    | _ => none

/-- The requests are accepted, and then every new flow to an address of a port reaches a
ready endpoint on its target port. -/
structure EncodingAgrees (m : L4Maps) (svc : Service) (backends : List BackendInfo)
    (reqs : List DpRequest) : Prop where
  accepted : m.Accepts reqs
  found : ∀ port ∈ svc.ports, ∀ addr ∈ portAddrs svc port, ∀ ip, addr.lookupIp = some ip →
    ∀ cpu srcIp srcPort, (m.serveAll reqs).conntrack.lookup
      ⟨srcIp, ip, srcPort, (serviceKey ip addr).port, (serviceKey ip addr).protocol⟩ = none →
    ∃ sel, ((m.serveAll reqs).serviceLookup cpu ip (serviceKey ip addr).port
        (serviceKey ip addr).protocol srcIp srcPort (serviceKey ip addr).scope).1 = some sel ∧
      ∃ be ∈ backends, Net.parseIp be.ip = some (.v4 sel.backendIp) ∧
        sel.backendPort.toNat = resolveTargetPort port be

def L4Maps.fresh (v6Loaded : Bool) : L4Maps :=
  ⟨(∅ : Finmap _).insert configKeyL4lbEnabled 1, ∅, ∅, ∅, ∅, ∅, v6Loaded⟩

section Fresh

variable {cfg : WatcherConfig} {o : IterOrder String} {store : SliceStore} {svc : Service}
  {backends : List BackendInfo} {v6 : Bool}

theorem nodeIP_of_mem_collectBackends {be : BackendInfo} (h : be ∈ collectBackends o store svc) :
    be.nodeIP = "" := by
  obtain ⟨eps, -, hbe⟩ := mem_flatMap.mp h
  split at hbe
  · obtain ⟨ep, -, hbe⟩ := mem_flatMap.mp hbe
    split at hbe
    · cases hbe
    · obtain ⟨addr, -, rfl⟩ := List.mem_map.mp hbe
      unfold sliceBackend
      split <;> rfl
  · cases hbe

theorem upsertBackends_rejected {m : L4Maps} {e : BackendEntry} {es : List BackendEntry}
    (h : e.nodeIp = "") : (m.upsertBackends (e :: es)).2 ≠ .ok () := by
  have hnode : Net.parseIp "" = none := by decide +kernel
  unfold L4Maps.upsertBackends L4Maps.upsertBackend
  rw [h, hnode]
  cases Net.parseIp e.ip <;> simp

theorem pushBackends_rejected {m : L4Maps} {offset : Nat} {ports : List ServicePort}
    {reqs : List DpRequest} (hports : ports ≠ []) (hne : backends ≠ [])
    (hnode : ∀ be ∈ backends, be.nodeIP = "") :
    ¬ m.Accepts (pushBackends offset backends ports ++ reqs) := by
  obtain ⟨port, ports, rfl⟩ := exists_cons_of_ne_nil hports
  obtain ⟨be, rest, rfl⟩ := exists_cons_of_ne_nil hne
  intro hacc
  simp only [pushBackends, mapIdx_cons, portBackends, flatten_cons, cons_append, length_cons] at hacc
  rw [if_pos (Nat.succ_pos _)] at hacc
  exact upsertBackends_rejected (hnode be mem_cons_self) (hacc.1 trivial)

theorem placeMaglev_no_ports {w : Watcher} {m : SlotAllocator} {alg : Algorithm} {off : Nat}
    {tableRequests : List DpRequest} (hports : svc.ports = [])
    (h : w.placeMaglev cfg svc backends = some (m, alg, off, tableRequests)) :
    tableRequests = [] := by
  unfold placeMaglev at h
  rw [hports] at h
  split at h
  · split at h
    · obtain ⟨-, -, -, rfl⟩ := by simpa using h
      rfl
    · cases h
  · obtain ⟨-, -, -, rfl⟩ := by simpa using h
    rfl

theorem agrees_nothing_iff : EncodingAgrees (.fresh v6) svc backends [] ↔
    ∀ port ∈ svc.ports, ∀ addr ∈ portAddrs svc port, addr.lookupIp = none := by
  constructor
  · intro h port hport addr haddr
    cases hip : addr.lookupIp with
    | none => rfl
    | some ip =>
      obtain ⟨sel, hsel, -⟩ := h.found port hport addr haddr ip hip 0 0 0 rfl
      have hmiss : ((L4Maps.fresh v6).serviceLookup 0 ip (serviceKey ip addr).port
          (serviceKey ip addr).protocol 0 0 (serviceKey ip addr).scope).1 = none := by
        unfold L4Maps.serviceLookup
        split <;> simp [L4Maps.fresh]
      rw [show L4Maps.serveAll (.fresh v6) [] = .fresh v6 from rfl, hmiss] at hsel
      cases hsel
  · intro h
    refine ⟨trivial, fun port hport addr haddr ip hip => ?_⟩
    simp [h port hport addr haddr] at hip

theorem freeTracked_newWatcher (svc : Service) : (newWatcher.freeTracked svc).2 = [] := by
  simp [freeTracked, newWatcher]

theorem not_agrees_of_placed {m : L4Maps} {st : ServiceState} {r : Watcher × List DpRequest}
    (hp : Watcher.Placed cfg newWatcher svc backends st r) (hports : svc.ports ≠ [])
    (hnode : ∀ be ∈ backends, be.nodeIP = "") : ¬ EncodingAgrees m svc backends r.2 := by
  intro h
  obtain ⟨tableRequests, -, hreqs⟩ := hp.table
  rw [hreqs, freeTracked_newWatcher, nil_append, append_assoc] at h
  exact pushBackends_rejected hports hp.ready hnode h.accepted

end Fresh

/-- A fresh watcher and a fresh dataplane agree only on a service for which nothing is
sent and which has no IPv4 address to be looked up. -/
theorem encoding_agrees_iff (cfg : WatcherConfig) (o : IterOrder String) (store : SliceStore)
    (svc : Service) (v6 : Bool) {r : Watcher × List DpRequest}
    (hsize : (collectBackends o store svc).length * svc.ports.length < backendSlots)
    (hr : newWatcher.reconcileService cfg o store svc = some r) :
    EncodingAgrees (.fresh v6) svc (collectBackends o store svc) r.2 ↔
      (serviceClusterIPs svc = [] ∨ svc.ports = [] ∨ collectBackends o store svc = []) ∧
      ∀ port ∈ svc.ports, ∀ addr ∈ portAddrs svc port, addr.lookupIp = none := by
  rcases reconcileService_cases hr with ⟨hnil, rfl⟩ | ⟨-, hwhy, rfl⟩ | ⟨st, hp⟩
  · have hnone : (newWatcher.deleteServiceLocked svc).2 = [] := by
      simp [deleteServiceLocked, newWatcher]
    rw [hnone, agrees_nothing_iff]
    simp [hnil]
  · have hempty : collectBackends o store svc = [] := by
      rcases hwhy with hempty | hfull
      · exact hempty
      · -- the fresh allocator is one block that is large enough
        have hrelease : (newWatcher.release svc.key).allocator = [⟨0, backendSlots⟩] := by
          simp [release, untrack, newWatcher, newSlotAllocator]
        have htotal : totalBackends (collectBackends o store svc) svc ≤ backendSlots := by
          unfold backendSlots at hsize ⊢
          rw [totalBackends, intToU32_of_lt (by omega)]
          omega
        rw [hrelease, FreeList.alloc_cons_of_le htotal] at hfull
        cases hfull
    rw [freeTracked_newWatcher, agrees_nothing_iff]
    simp [hempty]
  · obtain ⟨tableRequests, htable, hreqs⟩ := hp.table
    rw [freeTracked_newWatcher, nil_append] at hreqs
    by_cases hports : svc.ports = []
    · have hnone : r.2 = [] := by
        rw [hreqs, placeMaglev_no_ports hports htable, hports]
        simp [pushBackends, upsertServiceEntries, hports]
      rw [hnone, agrees_nothing_iff]
      simp [hports]
    · refine iff_of_false
        (not_agrees_of_placed hp hports fun be hbe => nodeIP_of_mem_collectBackends hbe) ?_
      · rintro ⟨hnil | hnil | hnil, -⟩
        · exact hp.addressed hnil
        · exact hports hnil
        · exact hp.ready hnil

section Example

/-- A service that has lost its ports. -/
theorem encoding_agrees_iff_no_ports :
    ∃ r, newWatcher.reconcileService plainConfig .sorted (shopWorld [0x0af40005]).epsStore
        (shop []) = some r ∧
      EncodingAgrees (.fresh false) (shop [])
        (collectBackends .sorted (shopWorld [0x0af40005]).epsStore (shop [])) r.2 := by
  have hsome : (newWatcher.reconcileService plainConfig .sorted (shopWorld [0x0af40005]).epsStore
      (shop [])).isSome = true := by decide +kernel
  obtain ⟨r, hr⟩ := Option.isSome_iff_exists.mp hsome
  have hsize : (collectBackends .sorted (shopWorld [0x0af40005]).epsStore (shop [])).length *
      (shop []).ports.length < backendSlots := by
    rw [collectBackends_shop]
    decide
  refine ⟨r, hr, (encoding_agrees_iff plainConfig .sorted _ (shop []) false hsize hr).mpr ⟨?_, ?_⟩⟩
  · exact .inr (.inl rfl)
  · exact fun port hport => absurd hport not_mem_nil

/-- One ready endpoint and one port are enough for the backends to be rejected. -/
theorem shop_backends_rejected :
    ∃ r, newWatcher.reconcileService plainConfig .sorted (shopWorld [0x0af40005]).epsStore
        (shop [portNumbered "" .tcp 80]) = some r ∧
      ¬ EncodingAgrees (.fresh true) (shop [portNumbered "" .tcp 80])
        (collectBackends .sorted (shopWorld [0x0af40005]).epsStore
          (shop [portNumbered "" .tcp 80])) r.2 := by
  obtain ⟨st, r, hr, hp⟩ := reconcile_shop plainConfig .sorted [0x0af40005]
    [portNumbered "" .tcp 80] (by decide) (by decide) (by decide)
  refine ⟨r, hr, ?_⟩
  rw [collectBackends_shop]
  exact not_agrees_of_placed hp (by decide) (by decide)

end Example

end NovaNet
