import NovaNet.ServiceEntries
import NovaNet.ServiceSync

/-! The fields of an UpsertService request in the map: the dataplane cuts the port, the number and
the offset of the backends and the affinity timeout to 16 bits. -/

namespace NovaNet

open List MapManager

def ServiceAddr.request (addr : ServiceAddr) (e : ServiceEntry) : Proto.ServiceEntry where
  ip := addr.ip
  port := UInt32.ofNat addr.port
  protocol := UInt32.ofNat addr.protocol
  scope := UInt32.ofNat addr.scope.number
  backendCount := UInt32.ofNat e.backendCount
  backendOffset := UInt32.ofNat e.backendOffset
  algorithm := UInt32.ofNat e.algorithm.number
  flags := UInt32.ofNat e.flags
  affinityTimeout := UInt32.ofNat e.affinityTimeout
  maglevOffset := UInt32.ofNat e.maglevOffset

namespace Proto.ServiceEntry

structure Equals (req : Proto.ServiceEntry) (port : UInt16) (v : ServiceValue) : Prop where
  port : port.toNat = req.port.toNat
  backendCount : v.backendCount.toNat = req.backendCount.toNat
  backendOffset : v.backendOffset.toNat = req.backendOffset.toNat
  affinityTimeout : v.affinityTimeout.toNat = req.affinityTimeout.toNat
  maglevOffset : v.maglevOffset = req.maglevOffset

def StoredIn (req : Proto.ServiceEntry) (m : ServiceMaps) : Prop :=
  (∃ ip port v, Net.parseIp req.ip = some (.v4 ip) ∧ req.Equals port v ∧
    m.services.lookup ⟨ip, port, req.protocol.toUInt8, req.scope.toUInt8⟩ = some v) ∨
  ∃ ip port v, Net.parseIp req.ip = some (.v6 ip) ∧ req.Equals port v ∧
    m.servicesV6.lookup ⟨ip, port, req.protocol.toUInt8, req.scope.toUInt8⟩ = some v

def Lossless (req : Proto.ServiceEntry) (mgr : MapManager) (m : ServiceMaps) : Prop :=
  ∀ m', mgr.upsertService req m = .ok () m' → req.StoredIn m'

structure Narrow (req : Proto.ServiceEntry) : Prop where
  port : req.port.toNat < 65536
  backendCount : req.backendCount.toNat < 65536
  backendOffset : req.backendOffset.toNat < 65536
  affinityTimeout : req.affinityTimeout.toNat < 65536

variable {req : Proto.ServiceEntry}

theorem Narrow.equals (h : req.Narrow) : req.Equals req.port.toUInt16 req.value := by
  refine ⟨?_, ?_, ?_, ?_, rfl⟩
  · rw [UInt32.toNat_toUInt16, Nat.mod_eq_of_lt h.port]
  · rw [value, UInt32.toNat_toUInt16, Nat.mod_eq_of_lt h.backendCount]
  · rw [value, UInt32.toNat_toUInt16, Nat.mod_eq_of_lt h.backendOffset]
  · rw [value, UInt32.toNat_toUInt16, Nat.mod_eq_of_lt h.affinityTimeout]

theorem Equals.narrow {port : UInt16} {v : ServiceValue} (h : req.Equals port v) : req.Narrow :=
  ⟨h.port ▸ port.toNat_lt, h.backendCount ▸ v.backendCount.toNat_lt,
    h.backendOffset ▸ v.backendOffset.toNat_lt, h.affinityTimeout ▸ v.affinityTimeout.toNat_lt⟩

theorem lossless_of_unparsed (h : Net.parseIp req.ip = none) (mgr : MapManager)
    (m : ServiceMaps) : req.Lossless mgr m := by
  intro m' hok
  rw [upsertService, write, parseIpField, h] at hok
  cases hok

theorem write_of_parsed {ip : Net.IP} (h : Net.parseIp req.ip = some ip) :
    ∃ w, req.write = .ok w ∧ ∀ m : ServiceMaps, req.Narrow → req.StoredIn (m.write w) := by
  cases ip with
  | v4 ip =>
    refine ⟨.service ⟨ip, req.port.toUInt16, req.protocol.toUInt8, req.scope.toUInt8⟩ req.value, ?_,
      fun m hreq => .inl ⟨ip, _, _, h, hreq.equals, Finmap.lookup_insert _⟩⟩
    rw [write, parseIpField, h]
    rfl
  | v6 ip =>
    refine ⟨.serviceV6 ⟨ip, req.port.toUInt16, req.protocol.toUInt8, req.scope.toUInt8⟩ req.value,
      ?_, fun m hreq => .inr ⟨ip, _, _, h, hreq.equals, Finmap.lookup_insert _⟩⟩
    rw [write, parseIpField, h]
    rfl

theorem lossless_iff : (∀ mgr m, req.Lossless mgr m) ↔ Net.parseIp req.ip = none ∨ req.Narrow := by
  cases hip : Net.parseIp req.ip with
  | none => exact iff_of_true (lossless_of_unparsed hip) (.inl rfl)
  | some ip =>
    obtain ⟨w, hw, hstored⟩ := write_of_parsed hip
    constructor
    · -- the maps in memory take every write
      intro h
      have hok : upsertService .mock req ⟨∅, ∅, ∅, ∅⟩ = .ok () (.write ⟨∅, ∅, ∅, ∅⟩ w) := by
        rw [upsertService, hw]
        exact upsert_accepted rfl
      rcases h .mock _ _ hok with ⟨_, _, _, -, heq, -⟩ | ⟨_, _, _, -, heq, -⟩ <;>
        exact .inr heq.narrow
    · rintro (hnone | hreq) mgr m m' hok
      · cases hnone
      · rw [upsertService, hw] at hok
        cases href : mgr.refusal m w with
        | none =>
          rw [syncEntry, upsert_accepted href] at hok
          obtain ⟨-, rfl⟩ := EStateM.Result.ok.inj hok
          exact hstored m hreq
        | some e =>
          rw [syncEntry, upsert_refused href] at hok
          cases hok

end Proto.ServiceEntry

/-- What the Kubernetes API asks of the numbers of a service; a node port that is not allocated
is 0. -/
structure Service.ApiValid (svc : Service) : Prop where
  ports : ∀ port ∈ svc.ports, 1 ≤ port.port.toInt ∧ port.port.toInt ≤ 65535
  nodePorts : ∀ port ∈ svc.ports, 0 ≤ port.nodePort.toInt ∧ port.nodePort.toInt ≤ 65535
  affinityTimeout : ∀ t ∈ svc.affinityTimeout, 1 ≤ t.toInt ∧ t.toInt ≤ 86400

section Requests

variable {cfg : WatcherConfig} {o : IterOrder String} {store : SliceStore} {w : Watcher}
  {svc : Service} {r : Watcher × List DpRequest} {addr : ServiceAddr} {e : ServiceEntry}

theorem port_of_mem_portAddrs {port : ServicePort} (h : addr ∈ portAddrs svc port) :
    addr.port = portToU32 port.port ∨ addr.port = portToU32 port.nodePort := by
  rw [portAddrs, mem_append, mem_append] at h
  rcases h with (h | h) | h
  · obtain ⟨scope, -, h⟩ := mem_flatMap.mp h
    obtain ⟨ip, -, rfl⟩ := List.mem_map.mp h
    rw [serviceAddr, servicePortForScope]
    split
    · exact .inr rfl
    · exact .inl rfl
  · obtain ⟨ip, -, rfl⟩ := List.mem_map.mp h
    exact .inl rfl
  · split at h
    · obtain ⟨ip, -, rfl⟩ := List.mem_map.mp h
      exact .inl rfl
    · cases h

theorem Service.ApiValid.port_lt (h : svc.ApiValid) {port : ServicePort} (hport : port ∈ svc.ports)
    (haddr : addr ∈ portAddrs svc port) : addr.port < 65536 := by
  have hnode := h.nodePorts port hport
  have hown := h.ports port hport
  rcases port_of_mem_portAddrs haddr with heq | heq <;>
  · rw [heq, portToU32]
    omega

/-- The numbers of a request, as far as they are bounded. -/
theorem request_of_upsert (hw : w.SlotsConserved) (hvalid : svc.ApiValid)
    (hfits : (collectBackends o store svc).length * svc.ports.length ≤ backendSlots)
    (hr : w.reconcileService cfg o store svc = some r) (hmem : .upsertService addr e ∈ r.2) :
    (addr.request e).port.toNat < 65536 ∧
    (addr.request e).backendCount.toNat = (collectBackends o store svc).length ∧
    (addr.request e).backendOffset.toNat < 65536 ∧
    (addr.request e).affinityTimeout.toNat = computeAffinityTimeout svc := by
  have hsize : UInt32.size = 2 ^ 32 := rfl
  unfold backendSlots at hfits
  obtain ⟨st, hp⟩ := placed_of_request hr hmem nofun
  have hfit := hp.fits hw (by omega)
  obtain ⟨i, port, hport, haddr, rfl⟩ := ((hfit.layout hp).entries_sent addr e).mp hmem
  obtain ⟨hi, rfl⟩ := List.getElem?_eq_some_iff.mp hport
  have hpos : 0 < (collectBackends o store svc).length := length_pos_iff.mpr hp.ready
  have hblock := hfit.entry cfg hp.ready hi
  have hoffset := congrArg FreeList.Block.offset hblock
  have hcount := congrArg FreeList.Block.count hblock
  dsimp only [ServiceEntry.block] at hoffset hcount
  have hbelow : st.backendOffset + (i * (collectBackends o store svc).length + 0) < 65536 :=
    hfit.below _ (slot_lt hi hpos)
  have hfew : (collectBackends o store svc).length ≤ 65536 :=
    Nat.le_trans (Nat.le_mul_of_pos_right _ (by omega)) hfits
  have hportlt := hvalid.port_lt (getElem_mem hi) haddr
  have htimeout : computeAffinityTimeout svc ≤ 86400 := by
    unfold computeAffinityTimeout
    cases ht : svc.affinityTimeout with
    | none => exact Nat.zero_le _
    | some t =>
      have hrange := hvalid.affinityTimeout t ht
      rw [Option.map_some, Option.getD_some, portToU32]
      omega
  refine ⟨?_, ?_, ?_, ?_⟩
  · rw [ServiceAddr.request, UInt32.toNat_ofNat_of_lt' (by omega)]
    exact hportlt
  · rw [ServiceAddr.request, hcount, UInt32.toNat_ofNat_of_lt' (by omega)]
  · rw [ServiceAddr.request, hoffset, UInt32.toNat_ofNat_of_lt' (by omega)]
    omega
  · exact UInt32.toNat_ofNat_of_lt' (show computeAffinityTimeout svc < _ by omega)

end Requests

/-- A request of the watcher is rejected or stored as it is by every dataplane exactly if its
address does not parse, or the backends and the timeout fit 16 bits. -/
theorem service_values_lossless_iff {cfg : WatcherConfig} {s : ServiceWorld}
    (hrun : ServiceWorld.Run cfg (fun _ _ => True) .start s) {o : IterOrder String}
    {store : SliceStore} {svc : Service} (hvalid : svc.ApiValid)
    (hfits : (collectBackends o store svc).length * svc.ports.length ≤ backendSlots)
    {r : Watcher × List DpRequest} (hr : s.watcher.reconcileService cfg o store svc = some r)
    {addr : ServiceAddr} {e : ServiceEntry} (hmem : .upsertService addr e ∈ r.2) :
    (∀ mgr m, (addr.request e).Lossless mgr m) ↔ Net.parseIp addr.ip = none ∨
      (collectBackends o store svc).length < 65536 ∧ computeAffinityTimeout svc < 65536 := by
  obtain ⟨hport, hcount, hoffset, htimeout⟩ := request_of_upsert
    (ServiceWorld.slotsConserved_of_run hrun) hvalid hfits hr hmem
  refine Proto.ServiceEntry.lossless_iff.trans (or_congr Iff.rfl ?_)
  rw [← hcount, ← htimeout]
  exact ⟨fun h => ⟨h.backendCount, h.affinityTimeout⟩, fun h => ⟨hport, h.1, hoffset, h.2⟩⟩

section Example

def stickyShop (timeout : Int32) : Service :=
  { shop [portNumbered "" .tcp 80] with clientIPAffinity := true, affinityTimeout := some timeout }

def shopAddr : ServiceAddr := ⟨"10.96.0.10", 80, 6, .clusterIP⟩

def stickyEntry (timeout : Nat) : ServiceEntry := ⟨1, 0, .random, 1, timeout, 0⟩

def reconcileSticky (timeout : Int32) : Option (Watcher × List DpRequest) :=
  newWatcher.reconcileService plainConfig .sorted (shopWorld [0x0af40005]).epsStore (stickyShop timeout)

theorem exists_reconcileSticky (timeout : Int32) (n : Nat)
    (h : (reconcileSticky timeout).map Prod.snd = some
      [.upsertBackends [⟨0, "10.244.0.5", 8080, ""⟩], .upsertService shopAddr (stickyEntry n)]) :
    ∃ r, reconcileSticky timeout = some r ∧ .upsertService shopAddr (stickyEntry n) ∈ r.2 := by
  obtain ⟨r, hr, hreqs⟩ := Option.map_eq_some_iff.mp h
  refine ⟨r, hr, ?_⟩
  rw [hreqs]
  exact mem_cons_of_mem _ mem_cons_self

/-- Three hours, the default of the API. -/
theorem service_values_lossless_default :
    ∃ r, reconcileSticky 10800 = some r ∧ .upsertService shopAddr (stickyEntry 10800) ∈ r.2 ∧
      ∀ mgr m, (shopAddr.request (stickyEntry 10800)).Lossless mgr m := by
  obtain ⟨r, hr, hmem⟩ := exists_reconcileSticky 10800 10800 (by decide +kernel)
  have hvalid : (stickyShop 10800).ApiValid := ⟨by decide, by decide, by
    rintro t ⟨⟩
    decide⟩
  exact ⟨r, hr, hmem, (service_values_lossless_iff .refl hvalid (by decide +kernel) hr hmem).mpr
    (.inr (by decide +kernel))⟩

/-- A day is stored as 20864 seconds. -/
theorem affinity_timeout_cut :
    ∃ r, reconcileSticky 86400 = some r ∧ .upsertService shopAddr (stickyEntry 86400) ∈ r.2 ∧
      ¬ ∀ mgr m, (shopAddr.request (stickyEntry 86400)).Lossless mgr m := by
  obtain ⟨r, hr, hmem⟩ := exists_reconcileSticky 86400 86400 (by decide +kernel)
  refine ⟨r, hr, hmem, ?_⟩
  rw [Proto.ServiceEntry.lossless_iff]
  rintro (hip | hnarrow)
  · exact absurd hip (by decide +kernel)
  · exact absurd hnarrow.affinityTimeout (by decide)

end Example

end NovaNet
