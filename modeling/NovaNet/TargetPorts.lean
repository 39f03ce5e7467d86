import NovaNet.ListResults
import NovaNet.SlotOwnership

/-! The port that a backend gets for each port of its service. Of a slice the watcher keeps the
first port only, so for the other ports it falls back on what the service says. -/

namespace NovaNet

open List

def readyEndpoints (o : IterOrder String) (store : SliceStore) (svc : Service) :
    List (EndpointSlice × String) :=
  ((o.enum [] store.keys).filterMap store.lookup).flatMap fun eps =>
    if eps.namespace_ = svc.namespace_ ∧ eps.serviceName = some svc.name then
      eps.endpoints.flatMap fun ep =>
        if ep.ready = some false then []
        else (ep.addresses.filter fun addr => (Net.parseIp addr).isSome).map fun addr => (eps, addr)
    else []

/-- A slice as the endpoints controller makes it: for each port of the service one of the same
name, with the number that the target port resolves to. -/
structure EndpointSlice.Produced (eps : EndpointSlice) (svc : Service)
    (resolved : ServicePort → Int32) : Prop where
  ports : eps.ports.Perm (svc.ports.map fun port => ⟨some port.name, some (resolved port)⟩)
  range : ∀ port ∈ svc.ports, 1 ≤ (resolved port).toInt ∧ (resolved port).toInt ≤ 65535
  number : ∀ port ∈ svc.ports, 0 < port.targetPort → (resolved port).toInt = port.targetPort

/-- For each port and each ready endpoint the entry sent carries the number that the slice has
under the name of the port. -/
def TargetPortsRight (svc : Service) (ready : List (EndpointSlice × String))
    (entries : List BackendEntry) : Prop :=
  ∀ i port, svc.ports[i]? = some port → ∀ j eps addr, ready[j]? = some (eps, addr) →
    ∀ n, ⟨some port.name, some n⟩ ∈ EndpointSlice.ports eps →
      ∃ entry : BackendEntry, entries[i * ready.length + j]? = some entry ∧
        entry.ip = addr ∧ entry.port = portToU32 n

section Endpoints

variable {o : IterOrder String} {store : SliceStore} {svc : Service}

theorem collectBackends_eq_map (o : IterOrder String) (store : SliceStore) (svc : Service) :
    collectBackends o store svc = (readyEndpoints o store svc).map fun x => sliceBackend x.1 x.2 := by
  rw [collectBackends, readyEndpoints, map_flatMap]
  congr 1
  funext eps
  split
  · rw [sliceBackends, map_flatMap]
    congr 1
    funext ep
    split
    · rfl
    · rw [List.map_map]
      rfl
  · rfl

theorem sliceBackend_ip (eps : EndpointSlice) (addr : String) : (sliceBackend eps addr).ip = addr := by
  unfold sliceBackend
  split <;> rfl

/-- The entry for the endpoint and the port, among those of a request. -/
theorem exists_entry {cfg : WatcherConfig} {w : Watcher} {r : Watcher × List DpRequest}
    {es : List BackendEntry} (hr : w.reconcileService cfg o store svc = some r)
    (hes : .upsertBackends es ∈ r.2) {i j : Nat} {port : ServicePort} {x : EndpointSlice × String}
    (hport : svc.ports[i]? = some port) (hx : (readyEndpoints o store svc)[j]? = some x) :
    ∃ entry, es[i * (readyEndpoints o store svc).length + j]? = some entry ∧ entry.ip = x.2 ∧
      entry.port = resolveTargetPort port (sliceBackend x.1 x.2) := by
  obtain ⟨st, hp⟩ := placed_of_request hr hes nofun
  have hlen := congrArg List.length (collectBackends_eq_map o store svc)
  rw [length_map] at hlen
  have hbackend : (collectBackends o store svc)[j]? = some (sliceBackend x.1 x.2) := by
    rw [collectBackends_eq_map, List.getElem?_map, hx]
    rfl
  have hblocks : ∀ l ∈ svc.ports.mapIdx
      (portBackends st.backendOffset (collectBackends o store svc)),
      l.length = (collectBackends o store svc).length := by
    intro l hl
    obtain ⟨k, hk, rfl⟩ := mem_mapIdx.mp hl
    exact length_mapIdx
  have hsame : es[i * (readyEndpoints o store svc).length + j]? =
      (portBackends st.backendOffset (collectBackends o store svc) i port)[j]? := by
    rw [((hp.backends_sent es).mp hes).1, ← hlen,
      getElem?_flatten_of_length hblocks (List.getElem?_eq_some_iff.mp hbackend).1,
      List.getElem?_mapIdx, hport]
    rfl
  rw [portBackends, List.getElem?_mapIdx, hbackend, Option.map_some] at hsame
  exact ⟨_, hsame, sliceBackend_ip x.1 x.2, rfl⟩

end Endpoints

section Slices

variable {eps : EndpointSlice} {svc : Service} {resolved : ServicePort → Int32} {port : ServicePort}

theorem EndpointSlice.Produced.mem_ports_iff (h : eps.Produced svc resolved)
    (hnames : (svc.ports.map ServicePort.name).Nodup) (hport : port ∈ svc.ports) {n : Int32} :
    ⟨some port.name, some n⟩ ∈ eps.ports ↔ n = resolved port := by
  rw [h.ports.mem_iff, List.mem_map]
  constructor
  · rintro ⟨port', hport', heq⟩
    obtain ⟨hname, hn⟩ := EndpointPort.mk.inj heq
    have hsame := inj_on_of_nodup_map hnames hport' hport (Option.some.inj hname)
    rw [← hsame]
    exact (Option.some.inj hn).symm
  · rintro rfl
    exact ⟨port, hport, rfl⟩

/-- What a backend of the slice gets for a port of the service. -/
theorem EndpointSlice.Produced.resolveTargetPort_eq (h : eps.Produced svc resolved)
    (hnames : (svc.ports.map ServicePort.name).Nodup) (hport : port ∈ svc.ports)
    (hnamed : port.name ≠ "") (addr : String) :
    resolveTargetPort port (sliceBackend eps addr) =
      if eps.ports.head?.bind EndpointPort.name = some port.name ∨ 0 < port.targetPort then
        portToU32 (resolved port)
      else portToU32 port.port := by
  obtain ⟨first, rest, hports⟩ := exists_cons_of_ne_nil (fun hnil : eps.ports = [] =>
    not_mem_nil (hnil ▸ (h.mem_ports_iff hnames hport).mpr rfl))
  have hmem := h.ports.mem_iff.mp (hports ▸ mem_cons_self : first ∈ eps.ports)
  obtain ⟨owner, howner, rfl⟩ := List.mem_map.mp hmem
  have hbackend : sliceBackend eps addr = ⟨addr, "", resolved owner, owner.name⟩ := by
    rw [sliceBackend, hports]
    rfl
  have hfirst : eps.ports.head?.bind EndpointPort.name = some owner.name := by
    rw [hports]
    rfl
  rw [hbackend, hfirst, resolveTargetPort]
  by_cases hname : owner.name = port.name
  · have hsame := inj_on_of_nodup_map hnames howner hport hname
    simp [hsame, hnamed]
  · by_cases hnumber : 0 < port.targetPort
    · have hrange := h.range port hport
      have heq := h.number port hport hnumber
      have htarget : intToU32 port.targetPort = portToU32 (resolved port) := by
        rw [heq] at hrange
        rw [intToU32, portToU32, heq, if_neg (by omega), Nat.mod_eq_of_lt (by omega)]
      simp [hname, hnamed, hnumber, htarget]
    · simp [hname, hnamed, hnumber]

theorem portToU32_eq_iff {p n : Int32} (hn : 1 ≤ n.toInt) : portToU32 p = portToU32 n ↔ p = n := by
  constructor
  · intro h
    unfold portToU32 at h
    exact Int32.toInt_inj.mp (by omega)
  · rintro rfl
    rfl

end Slices

/-- For named ports the entries are right exactly if each port is the first one of the slice, has
a target port that is a number, or resolves to the number of the port itself. -/
theorem target_ports_right_iff {cfg : WatcherConfig} {o : IterOrder String} {store : SliceStore}
    {w : Watcher} {svc : Service} (hnames : (svc.ports.map ServicePort.name).Nodup)
    (hnamed : ∀ port ∈ svc.ports, port.name ≠ "")
    (hslices : ∀ x ∈ readyEndpoints o store svc, ∃ resolved, x.1.Produced svc resolved)
    {r : Watcher × List DpRequest} (hr : w.reconcileService cfg o store svc = some r)
    {es : List BackendEntry} (hes : .upsertBackends es ∈ r.2) :
    TargetPortsRight svc (readyEndpoints o store svc) es ↔
      ∀ x ∈ readyEndpoints o store svc, ∀ port ∈ svc.ports,
        x.1.ports.head?.bind EndpointPort.name = some port.name ∨ 0 < port.targetPort ∨
          ⟨some port.name, some port.port⟩ ∈ x.1.ports := by
  constructor
  · intro h x hx port hport
    obtain ⟨i, hi⟩ := List.mem_iff_getElem?.mp hport
    obtain ⟨j, hj⟩ := List.mem_iff_getElem?.mp hx
    obtain ⟨resolved, hslice⟩ := hslices x hx
    have hmem := (hslice.mem_ports_iff hnames hport).mpr rfl
    obtain ⟨entry, hentry, -, hright⟩ := h i port hi j x.1 x.2 hj _ hmem
    obtain ⟨entry', hentry', -, hgets⟩ := exists_entry hr hes hi hj
    obtain rfl := Option.some.inj (hentry.symm.trans hentry')
    rw [hgets, hslice.resolveTargetPort_eq hnames hport (hnamed port hport)] at hright
    by_cases hc : x.1.ports.head?.bind EndpointPort.name = some port.name ∨ 0 < port.targetPort
    · exact hc.imp_right .inl
    · rw [if_neg hc, portToU32_eq_iff (hslice.range port hport).1] at hright
      exact .inr (.inr (hright ▸ hmem))
  · intro h i port hi j eps addr hj n hn
    have hport := List.mem_of_getElem? hi
    have hx := List.mem_of_getElem? hj
    obtain ⟨resolved, hslice⟩ := hslices _ hx
    obtain ⟨entry, hentry, hip, hgets⟩ := exists_entry hr hes hi hj
    refine ⟨entry, hentry, hip, ?_⟩
    rw [hgets, hslice.resolveTargetPort_eq hnames hport (hnamed port hport),
      (hslice.mem_ports_iff hnames hport).mp hn]
    split
    · rfl
    · next hc =>
      rw [not_or] at hc
      have hsame := ((h _ hx port hport).resolve_left hc.1).resolve_left hc.2
      rw [(hslice.mem_ports_iff hnames hport).mp hsame]

section Example

/-- The pod serves HTTP on port 8080 and metrics on port 9090. -/
def namedPortSlice : EndpointSlice :=
  ⟨"default", "shop-1", some "shop", [⟨some true, ["10.244.0.5"]⟩],
    [⟨some "http", some 8080⟩, ⟨some "metrics", some 9090⟩]⟩

def namedPortStore : SliceStore := (∅ : SliceStore).insert "default/shop-1" namedPortSlice

/-- The second port has a number for its target port, or a name. -/
def namedPorts (target : Int) : Service :=
  shop [⟨"http", .tcp, 80, 0, 0⟩, ⟨"metrics", .tcp, 9000, 0, target⟩]

def resolvedPort (port : ServicePort) : Int32 := if port.name = "http" then 8080 else 9090

theorem namedPortSlice_produced (target : Int) (h : 0 < target → target = 9090) :
    namedPortSlice.Produced (namedPorts target) resolvedPort := by
  refine ⟨.refl _, ?_, ?_⟩
  · intro port _
    unfold resolvedPort
    split <;> decide
  · simp only [namedPorts, shop, forall_mem_cons]
    refine ⟨fun hpos => ?_, fun hpos => ?_, fun port hport => ?_⟩
    · cases hpos
    · rw [h hpos]
      rfl
    · cases hport

theorem readyEndpoints_namedPorts (target : Int) :
    readyEndpoints .sorted namedPortStore (namedPorts target) = [(namedPortSlice, "10.244.0.5")] := by
  change readyEndpoints .sorted namedPortStore (shop []) = _
  decide +kernel

def namedPortEntries (metrics : Nat) : List BackendEntry :=
  [⟨0, "10.244.0.5", 8080, ""⟩, ⟨1, "10.244.0.5", metrics, ""⟩]

def reconcileNamed (target : Int) : Option (Watcher × List DpRequest) :=
  newWatcher.reconcileService plainConfig .sorted namedPortStore (namedPorts target)

theorem exists_reconcileNamed (target : Int) (metrics : Nat) (h : (reconcileNamed target).map
    (fun r => decide (.upsertBackends (namedPortEntries metrics) ∈ r.2)) = some true) :
    ∃ r, reconcileNamed target = some r ∧ .upsertBackends (namedPortEntries metrics) ∈ r.2 := by
  obtain ⟨r, hr, hsent⟩ := Option.map_eq_some_iff.mp h
  exact ⟨r, hr, of_decide_eq_true hsent⟩

theorem target_ports_right_numbered :
    ∃ r, reconcileNamed 9090 = some r ∧ .upsertBackends (namedPortEntries 9090) ∈ r.2 ∧
      TargetPortsRight (namedPorts 9090)
        (readyEndpoints .sorted namedPortStore (namedPorts 9090)) (namedPortEntries 9090) := by
  obtain ⟨r, hr, hes⟩ := exists_reconcileNamed 9090 9090 (by decide +kernel)
  refine ⟨r, hr, hes, (target_ports_right_iff (by decide) (by decide) ?_ hr hes).mpr ?_⟩
  · rw [readyEndpoints_namedPorts]
    simp only [forall_mem_singleton]
    exact ⟨_, namedPortSlice_produced 9090 fun _ => rfl⟩
  · rw [readyEndpoints_namedPorts]
    decide +kernel

/-- The second port has the name of a port for its target port. The entry gets the number of the
port itself. -/
theorem named_target_port_lost :
    namedPortSlice.Produced (namedPorts 0) resolvedPort ∧
    ∃ r, reconcileNamed 0 = some r ∧ .upsertBackends (namedPortEntries 9000) ∈ r.2 ∧
      ¬ TargetPortsRight (namedPorts 0) (readyEndpoints .sorted namedPortStore (namedPorts 0))
        (namedPortEntries 9000) := by
  obtain ⟨r, hr, hes⟩ := exists_reconcileNamed 0 9000 (by decide +kernel)
  refine ⟨namedPortSlice_produced 0 nofun, r, hr, hes, fun hright => ?_⟩
  rw [readyEndpoints_namedPorts] at hright
  obtain ⟨entry, hentry, -, hport⟩ := hright 1 _ rfl 0 _ _ rfl 9090 (by decide)
  obtain rfl := Option.some.inj hentry
  exact absurd hport (by decide)

end Example

end NovaNet
