import NovaNet.PodInterleaving

/-! The informer of `remotesync` pushes the pods of other nodes to the dataplane, one event at
a time. Events of different pods come in any order. -/

namespace NovaNet

open LastWrite Option Net Net.IP

/-! ### The endpoint calls of the dataplane -/

structure UpsertEndpointRequest where
  ip : String
  ifindex : UInt32
  identityId : UInt32
  nodeIp : String

/-- Each family has its own map. -/
def upsertEndpoint (req : UpsertEndpointRequest) (entries : PodEntries) :
    Except GrpcError PodEntries := do
  let ip ← parseIpField req.ip
  let nodeIp ← parseIpField req.nodeIp
  match ip, nodeIp with
  | .v4 _, .v4 _ | .v6 _, .v6 _ => .ok (entries.insert ip ⟨req.ifindex, req.identityId, nodeIp⟩)
  | _, _ => .error ⟨.invalidArgument, "ip and node_ip must be the same address family"⟩

def deleteEndpoint (ip : String) (entries : PodEntries) : Except GrpcError PodEntries := do
  let ip ← parseIpField ip
  .ok (entries.erase ip)

/-! ### The handlers -/

structure RemotePod where
  name : String
  namespace_ : String
  nodeName : String
  labels : Labels
  podIP : String
  hostIP : String

inductive RemoteEvent where
  | add (pod : RemotePod)
  | update (pod : RemotePod)
  | delete (pod : RemotePod)

structure RemoteState where
  entries : PodEntries
  remoteCount : Nat

namespace RemotePod

def key (pod : RemotePod) : String := podKey pod.namespace_ pod.name

def identity (hash : String → UInt64) (pod : RemotePod) : UInt32 :=
  (hashLabels hash (pod.labels.insert namespaceLabel pod.namespace_)).toUInt32

def address (pod : RemotePod) : Option Net.IP := (parseIp pod.podIP).map normalize

def hostAddress (pod : RemotePod) : Option Net.IP := (parseIp pod.hostIP).map normalize

def Reached (pod : RemotePod) : Prop :=
  ∀ ip ∈ pod.address, ∃ host ∈ pod.hostAddress, ip.to4.isSome = host.to4.isSome

end RemotePod

open RemotePod

def RemoteEvent.pod : RemoteEvent → RemotePod
  | .add pod | .update pod | .delete pod => pod

namespace RemoteState

variable (hash : String → UInt64) (selfNode : String)

def upsertRemoteEndpoint (pod : RemotePod) (entries : PodEntries) : PodEntries × Bool :=
  match parseIp pod.podIP with
  | none => (entries, false)
  | some podIP =>
    match parseIp pod.hostIP with
    | none => (entries, false)
    | some hostIP =>
      match upsertEndpoint ⟨podIP.string, 0, pod.identity hash, hostIP.string⟩ entries with
      | .error _ => (entries, false)
      | .ok entries => (entries, true)

def deleteRemoteEndpoint (pod : RemotePod) (entries : PodEntries) : PodEntries × Bool :=
  match parseIp pod.podIP with
  | none => (entries, false)
  | some podIP =>
    match deleteEndpoint podIP.string entries with
    | .error _ => (entries, false)
    | .ok entries => (entries, true)

def handle (s : RemoteState) (ev : RemoteEvent) : RemoteState :=
  if ev.pod.nodeName = selfNode ∨ ev.pod.podIP = "" then s
  else
    match ev with
    | .add pod =>
      let (entries, synced) := upsertRemoteEndpoint hash pod s.entries
      ⟨entries, if synced then s.remoteCount + 1 else s.remoteCount⟩
    | .update pod => ⟨(upsertRemoteEndpoint hash pod s.entries).1, s.remoteCount⟩
    | .delete pod =>
      let (entries, removed) := deleteRemoteEndpoint pod s.entries
      ⟨entries, if removed then s.remoteCount - 1 else s.remoteCount⟩

end RemoteState

section Calls

variable {entries : PodEntries} {ip nodeIp : Net.IP} {ifindex identityId : UInt32}

theorem normalize_cases (ip : Net.IP) :
    (∃ a, ip.to4 = some a ∧ ip.normalize = .v4 a) ∨ ∃ x, ip.to4 = none ∧ ip.normalize = .v6 x := by
  cases h : ip.to4 with
  | some a => exact .inl ⟨a, rfl, normalize_of_to4 h⟩
  | none =>
    rw [IP.normalize, h]
    cases ip with
    | v4 a => cases h
    | v6 x => exact .inr ⟨x, rfl, rfl⟩

theorem upsertEndpoint_string :
    upsertEndpoint ⟨ip.string, ifindex, identityId, nodeIp.string⟩ entries =
      if ip.to4.isSome = nodeIp.to4.isSome then
        .ok (entries.insert ip.normalize ⟨ifindex, identityId, nodeIp.normalize⟩)
      else .error ⟨.invalidArgument, "ip and node_ip must be the same address family"⟩ := by
  simp only [upsertEndpoint, parseIpField_string]
  rcases normalize_cases ip with ⟨a, hto4, hip⟩ | ⟨a, hto4, hip⟩ <;>
    rcases normalize_cases nodeIp with ⟨b, hnode4, hnode⟩ | ⟨b, hnode4, hnode⟩ <;>
      rw [hip, hnode, hto4, hnode4] <;> rfl

theorem deleteEndpoint_string : deleteEndpoint ip.string entries = .ok (entries.erase ip.normalize) := by
  simp only [deleteEndpoint, parseIpField_string]
  rfl

end Calls

namespace RemoteState

variable {hash : String → UInt64} {selfNode : String} {s : RemoteState} {pod : RemotePod} {ip : Net.IP}

theorem podIP_ne_of_address (h : pod.address = some ip) : pod.podIP ≠ "" := by
  intro hempty
  have hnone : parseIp "" = none := by decide
  simp [address, hempty, hnone] at h

theorem entries_handle_of_skip {ev : RemoteEvent} (h : ev.pod.address = none) :
    (s.handle hash selfNode ev).entries = s.entries := by
  have hparse : parseIp ev.pod.podIP = none := map_eq_none_iff.mp h
  unfold handle
  split
  · rfl
  · cases ev <;> simp only [RemoteEvent.pod] at hparse <;>
      simp [upsertRemoteEndpoint, deleteRemoteEndpoint, hparse]

theorem not_skipped (hself : pod.nodeName ≠ selfNode) (hip : pod.address = some ip) :
    ¬ (pod.nodeName = selfNode ∨ pod.podIP = "") := by
  rintro (hsame | hempty)
  · exact hself hsame
  · exact podIP_ne_of_address hip hempty

theorem lookup_handle_delete (hself : pod.nodeName ≠ selfNode) (ip : Net.IP) :
    (s.handle hash selfNode (.delete pod)).entries.lookup ip =
      if pod.address = some ip then none else s.entries.lookup ip := by
  cases hip : pod.address with
  | none => simp [entries_handle_of_skip (show (RemoteEvent.delete pod).pod.address = none from hip)]
  | some x =>
    have hskip := not_skipped hself hip
    obtain ⟨podIP, hparse, rfl⟩ := map_eq_some_iff.mp hip
    simp only [handle, RemoteEvent.pod, if_neg hskip, deleteRemoteEndpoint, hparse,
      deleteEndpoint_string, lookup_erase_eq, some.injEq]

theorem upsertRemoteEndpoint_eq (hash : String → UInt64) (entries : PodEntries)
    (hip : pod.address = some ip) :
    (∃ host ∈ pod.hostAddress, ip.to4.isSome = host.to4.isSome ∧
      upsertRemoteEndpoint hash pod entries = (entries.insert ip ⟨0, pod.identity hash, host⟩, true)) ∨
    (∀ host ∈ pod.hostAddress, ip.to4.isSome ≠ host.to4.isSome) ∧
      upsertRemoteEndpoint hash pod entries = (entries, false) := by
  obtain ⟨podIP, hparse, rfl⟩ := map_eq_some_iff.mp hip
  cases hhost : parseIp pod.hostIP with
  | none => exact .inr ⟨by simp [hostAddress, hhost],
      by simp only [upsertRemoteEndpoint, hparse, hhost]⟩
  | some hostIP =>
    have hmem : pod.hostAddress = some hostIP.normalize := by
      rw [hostAddress, hhost, map_some]
    simp only [hmem, upsertRemoteEndpoint, hparse, hhost, upsertEndpoint_string,
      mem_some_iff, exists_eq_left', forall_eq', to4_normalize]
    by_cases hfamily : podIP.to4.isSome = hostIP.to4.isSome
    · exact .inl ⟨hfamily, by rw [if_pos hfamily]⟩
    · exact .inr ⟨hfamily, by rw [if_neg hfamily]⟩

variable (s hash) in
theorem lookup_handle_upsert {ev : RemoteEvent} (hev : ev = .add pod ∨ ev = .update pod)
    (hself : pod.nodeName ≠ selfNode) (hreached : pod.Reached) :
    ∃ host, ∀ ip, (s.handle hash selfNode ev).entries.lookup ip =
      if pod.address = some ip then some ⟨0, pod.identity hash, host⟩
      else s.entries.lookup ip := by
  have hpod : ev.pod = pod := by rcases hev with rfl | rfl <;> rfl
  cases hip : pod.address with
  | none => exact ⟨.v4 0, by simp [entries_handle_of_skip (hpod ▸ hip)]⟩
  | some x =>
    have hskip := not_skipped hself hip
    obtain ⟨host, -, -, hup⟩ | ⟨hnone, -⟩ := upsertRemoteEndpoint_eq hash s.entries hip
    rotate_left
    · obtain ⟨host, hhost, hfamily⟩ := hreached x hip
      exact absurd hfamily (hnone host hhost)
    have hentries : (s.handle hash selfNode ev).entries =
        s.entries.insert x ⟨0, pod.identity hash, host⟩ := by
      rcases hev with rfl | rfl <;> simp only [handle, RemoteEvent.pod, if_neg hskip, hup]
    refine ⟨host, fun ip => ?_⟩
    rw [hentries, lookup_insert_eq]
    simp only [some.injEq]

end RemoteState

/-- The handlers' state, next to the pods that are live after the events so far. -/
structure RemoteRun where
  sync : RemoteState
  live : Finmap fun _ : String => RemotePod

namespace RemoteRun

variable (hash : String → UInt64) (selfNode : String)

def event (r : RemoteRun) (ev : RemoteEvent) : RemoteRun where
  sync := r.sync.handle hash selfNode ev
  live := match ev with
    | .add pod | .update pod => r.live.insert pod.key pod
    | .delete pod => r.live.erase pod.key

def after (r : RemoteRun) (events : List RemoteEvent) : RemoteRun :=
  events.foldl (event hash selfNode) r

def Owns (r : RemoteRun) (pod : RemotePod) (ip : Net.IP) : Prop :=
  r.live.lookup pod.key = some pod ∧ pod.address = some ip

/-- Apart from the addresses of this node, the entries are for the addresses of the live
pods, each with the identity of such a pod. -/
structure Converged (own : Set Net.IP) (r : RemoteRun) : Prop where
  covered : ∀ pod ip, ip ∉ own → r.Owns pod ip → (r.sync.entries.lookup ip).isSome
  owned : ∀ ip v, ip ∉ own → r.sync.entries.lookup ip = some v →
    ∃ pod, r.Owns pod ip ∧ v.identity = pod.identity hash

/-- A pod is told of with a host address of its family and keeps its address, and it is
deleted with that address, at a time when no other live pod has it. -/
def Allowed (r : RemoteRun) : RemoteEvent → Prop
  | .add pod | .update pod => pod.Reached ∧
      ∀ old ∈ r.live.lookup pod.key, old.address = none ∨ old.address = pod.address
  | .delete pod => (∀ old ∈ r.live.lookup pod.key, old.address = pod.address) ∧
      ∀ other ip, r.Owns other ip → pod.address = some ip → other.key = pod.key

def AllowedRun : RemoteRun → List RemoteEvent → Prop
  | _, [] => True
  | r, ev :: events => r.Allowed ev ∧ AllowedRun (r.event hash selfNode ev) events

variable {hash selfNode} {own : Set Net.IP} {r : RemoteRun} {pod q : RemotePod} {ip : Net.IP}

theorem owns_insert : (⟨r.sync, r.live.insert pod.key pod⟩ : RemoteRun).Owns q ip ↔
    (q = pod ∧ pod.address = some ip) ∨ (q.key ≠ pod.key ∧ r.Owns q ip) := by
  unfold Owns
  rw [lookup_insert_eq]
  by_cases hkey : pod.key = q.key
  · rw [if_pos hkey, some.injEq]
    constructor
    · rintro ⟨rfl, hip⟩
      exact .inl ⟨rfl, hip⟩
    · rintro (⟨rfl, hip⟩ | ⟨hne, -⟩)
      · exact ⟨rfl, hip⟩
      · exact absurd hkey.symm hne
  · rw [if_neg hkey]
    constructor
    · exact fun h => .inr ⟨fun he => hkey he.symm, h⟩
    · rintro (⟨rfl, -⟩ | ⟨-, h⟩)
      · exact absurd rfl hkey
      · exact h

theorem owns_erase : (⟨r.sync, r.live.erase pod.key⟩ : RemoteRun).Owns q ip ↔
    q.key ≠ pod.key ∧ r.Owns q ip := by
  unfold Owns
  rw [lookup_erase_eq]
  by_cases hkey : pod.key = q.key
  · simp [hkey]
  · simp [hkey, Ne.symm hkey]

theorem Converged.upsert {ev : RemoteEvent} (h : r.Converged hash own)
    (hev : ev = .add pod ∨ ev = .update pod) (hself : pod.nodeName ≠ selfNode)
    (hreached : pod.Reached)
    (hkeeps : ∀ old ∈ r.live.lookup pod.key, old.address = none ∨ old.address = pod.address) :
    Converged hash own ⟨r.sync.handle hash selfNode ev, r.live.insert pod.key pod⟩ := by
  obtain ⟨host, hlookup⟩ := RemoteState.lookup_handle_upsert hash r.sync hev hself hreached
  refine ⟨fun q ip hown hq => ?_, fun ip v hown hv => ?_⟩
  · rw [hlookup]
    by_cases hip : pod.address = some ip
    · rw [if_pos hip]
      rfl
    · rw [if_neg hip]
      rcases owns_insert.mp hq with ⟨-, hpod⟩ | ⟨-, hold⟩
      · exact absurd hpod hip
      · exact h.covered q ip hown hold
  · rw [hlookup] at hv
    by_cases hip : pod.address = some ip
    · rw [if_pos hip, some.injEq] at hv
      exact ⟨pod, owns_insert.mpr (.inl ⟨rfl, hip⟩), hv ▸ rfl⟩
    · rw [if_neg hip] at hv
      obtain ⟨q, hq, hid⟩ := h.owned ip v hown hv
      refine ⟨q, owns_insert.mpr (.inr ⟨fun hkey => ?_, hq⟩), hid⟩
      -- the pod had this address before, and would have kept it
      rcases hkeeps q (hkey ▸ hq.1) with hnone | hsame
      · simp [hq.2] at hnone
      · exact hip (hsame ▸ hq.2)

theorem Converged.delete (h : r.Converged hash own) (hself : pod.nodeName ≠ selfNode)
    (hlast : ∀ old ∈ r.live.lookup pod.key, old.address = pod.address)
    (halone : ∀ other ip, r.Owns other ip → pod.address = some ip → other.key = pod.key) :
    Converged hash own ⟨r.sync.handle hash selfNode (.delete pod), r.live.erase pod.key⟩ := by
  refine ⟨fun q ip hown hq => ?_, fun ip v hown hv => ?_⟩
  · obtain ⟨hkey, hold⟩ := owns_erase.mp hq
    have hip : pod.address ≠ some ip := fun hip => hkey (halone q ip hold hip)
    rw [RemoteState.lookup_handle_delete hself, if_neg hip]
    exact h.covered q ip hown hold
  · rw [RemoteState.lookup_handle_delete hself] at hv
    by_cases hip : pod.address = some ip
    · simp [if_pos hip] at hv
    · rw [if_neg hip] at hv
      obtain ⟨q, hq, hid⟩ := h.owned ip v hown hv
      refine ⟨q, owns_erase.mpr ⟨fun hkey => ?_, hq⟩, hid⟩
      exact hip (hlast q (hkey ▸ hq.1) ▸ hq.2)

theorem Converged.event {ev : RemoteEvent} (h : r.Converged hash own)
    (hself : ev.pod.nodeName ≠ selfNode) (ha : r.Allowed ev) :
    (r.event hash selfNode ev).Converged hash own := by
  cases ev with
  | add pod => exact h.upsert (.inl rfl) hself ha.1 ha.2
  | update pod => exact h.upsert (.inr rfl) hself ha.1 ha.2
  | delete pod => exact h.delete hself ha.1 ha.2

/-- When all events are handled the entries are those of the live pods. -/
theorem remote_pods_converge (hash : String → UInt64) (selfNode : String) (own : Set Net.IP)
    (events : List RemoteEvent) (r : RemoteRun) (h : r.Converged hash own)
    (hself : ∀ ev ∈ events, ev.pod.nodeName ≠ selfNode)
    (hallowed : r.AllowedRun hash selfNode events) :
    (r.after hash selfNode events).Converged hash own := by
  induction events generalizing r with
  | nil => exact h
  | cons ev events ih =>
    refine ih _ (h.event (hself ev List.mem_cons_self) hallowed.1) (fun ev' hev' => ?_) hallowed.2
    exact hself ev' (List.mem_cons_of_mem ev hev')

section Example

def remotePod (name podIP : String) : RemotePod :=
  ⟨name, "default", "node-2", ∅, podIP, "192.168.0.12"⟩

def emptyRun : RemoteRun := ⟨⟨∅, 0⟩, ∅⟩

theorem emptyRun_converged (hash : String → UInt64) : emptyRun.Converged hash ∅ := by
  refine ⟨fun pod ip _ h => ?_, fun ip v _ h => ?_⟩
  · cases h.1
  · cases h

theorem remotePod_reached (name : String) : (remotePod name "10.244.2.5").Reached := by
  have hhost : (parseIp "192.168.0.12").map normalize = some (.v4 0xc0a8000c) := by
    decide +kernel
  have hip : (parseIp "10.244.2.5").map normalize = some (.v4 0x0af40205) := by
    decide +kernel
  intro ip hmem
  obtain rfl : .v4 0x0af40205 = ip := some.inj (hip.symm.trans hmem)
  exact ⟨_, hhost, rfl⟩

def takeover : List RemoteEvent :=
  [.add (remotePod "web" "10.244.2.5"), .delete (remotePod "web" "10.244.2.5"),
    .add (remotePod "api" "10.244.2.5")]

theorem takeover_allowed : emptyRun.AllowedRun PodNode.exampleHash "node-1" takeover := by
  refine ⟨⟨remotePod_reached "web", fun old hold => by cases hold⟩, ⟨fun old hold => ?_, ?_⟩,
    ⟨remotePod_reached "api", fun old hold => ?_⟩, trivial⟩
  · obtain rfl : remotePod "web" "10.244.2.5" = old := some.inj hold
    rfl
  · intro other ip howns _
    obtain ⟨rfl, -⟩ | ⟨-, hold⟩ := owns_insert.mp howns
    · rfl
    · cases hold.1
  · cases hold

theorem remote_pods_converge_example :
    emptyRun.AllowedRun PodNode.exampleHash "node-1" takeover ∧
    (emptyRun.after PodNode.exampleHash "node-1" takeover).Converged PodNode.exampleHash ∅ := by
  have hself : ∀ ev ∈ takeover, ev.pod.nodeName ≠ "node-1" := by decide +kernel
  exact ⟨takeover_allowed, remote_pods_converge _ _ _ _ _ (emptyRun_converged _) hself takeover_allowed⟩

/-- The new owner comes first, and the late deletion of the old one takes its entry. -/
theorem late_delete_drops_entry :
    (emptyRun.after PodNode.exampleHash "node-1"
      [.add (remotePod "web" "10.244.2.5"), .add (remotePod "api" "10.244.2.5"),
        .delete (remotePod "web" "10.244.2.5")]).Owns (remotePod "api" "10.244.2.5")
        (.v4 0x0af40205) ∧
    ¬ (emptyRun.after PodNode.exampleHash "node-1"
      [.add (remotePod "web" "10.244.2.5"), .add (remotePod "api" "10.244.2.5"),
        .delete (remotePod "web" "10.244.2.5")]).Converged PodNode.exampleHash ∅ := by
  refine ⟨⟨rfl, by decide +kernel⟩, fun h => ?_⟩
  have hsome := h.covered (remotePod "api" "10.244.2.5") (.v4 0x0af40205) (Set.notMem_empty _)
    ⟨rfl, by decide +kernel⟩
  revert hsome
  decide +kernel

end Example

end RemoteRun

/-! ### The IPv4 view -/

def RemotePod.object (pod : RemotePod) : PodObject :=
  ⟨pod.namespace_, pod.name, pod.nodeName, pod.labels, pod.address.bind to4, pod.hostAddress.bind to4⟩

attribute [local simp] object

def RemoteEvent.object : RemoteEvent → PodEvent
  | .add pod => .add pod.object
  | .update pod => .update pod.object
  | .delete pod => .delete pod.object

def PodEntry.v4 (e : PodEntry) : Option EndpointValue :=
  e.nodeIP.to4.map fun host => ⟨e.ifIndex, e.identity, host⟩

def V4View (m : EndpointMap) (entries : PodEntries) : Prop :=
  ∀ a, m.lookup a = (entries.lookup (.v4 a)).bind PodEntry.v4

variable {hash : String → UInt64} {selfNode : String} {m : EndpointMap} {s : RemoteState}
  {pod : RemotePod} {entries : PodEntries}

theorem V4View.insert {a host : UInt32} {ifIndex identity : UInt32} (h : V4View m entries) :
    V4View (m.insert a ⟨ifIndex, identity, host⟩)
      (entries.insert (.v4 a) ⟨ifIndex, identity, .v4 host⟩) := by
  intro b
  rw [lookup_insert_eq, lookup_insert_eq]
  simp only [v4.injEq]
  split
  · rfl
  · exact h b

theorem V4View.erase {a : UInt32} (h : V4View m entries) :
    V4View (m.erase a) (entries.erase (.v4 a)) := by
  intro b
  rw [lookup_erase_eq, lookup_erase_eq]
  simp only [v4.injEq]
  split
  · rfl
  · exact h b

theorem V4View.insert_v6 {x : BitVec 128} {v : PodEntry} (h : V4View m entries) :
    V4View m (entries.insert (.v6 x) v) := by
  intro b
  rw [lookup_insert_eq, if_neg nofun]
  exact h b

theorem V4View.erase_v6 {x : BitVec 128} (h : V4View m entries) : V4View m (entries.erase (.v6 x)) := by
  intro b
  rw [lookup_erase_eq, if_neg nofun]
  exact h b

theorem cases_of_normalized {o : Option Net.IP} {ip : Net.IP} (h : o.map normalize = some ip) :
    (∃ a, ip = .v4 a) ∨ ∃ x, ip.to4 = none ∧ ip = .v6 x := by
  obtain ⟨ip', -, rfl⟩ := map_eq_some_iff.mp h
  rcases normalize_cases ip' with ⟨a, -, ha⟩ | ⟨x, hnone, hx⟩
  · exact .inl ⟨a, ha⟩
  · exact .inr ⟨x, by rwa [to4_normalize], hx⟩

theorem V4View.upsert (h : V4View m entries) :
    V4View (RemoteSync.upsertRemoteEndpoint hash m pod.object)
      (RemoteState.upsertRemoteEndpoint hash pod entries).1 := by
  cases hip : pod.address with
  | none =>
    have hobject : pod.object.podIP = none := by simp [hip]
    have hparse : parseIp pod.podIP = none := map_eq_none_iff.mp hip
    simpa only [RemoteSync.upsertRemoteEndpoint, RemoteState.upsertRemoteEndpoint, hobject,
      hparse] using h
  | some ip =>
    have hup := RemoteState.upsertRemoteEndpoint_eq hash entries hip
    rcases cases_of_normalized hip with ⟨a, rfl⟩ | ⟨x, hto4, rfl⟩
    · have hobject : pod.object.podIP = some a := by simp [hip, to4]
      rcases hup with ⟨host, hhost, hfamily, heq⟩ | ⟨hnone, heq⟩
      · rcases cases_of_normalized hhost with ⟨b, rfl⟩ | ⟨x, hto4, -⟩
        · have hhost4 : pod.object.hostIP = some b := by
            rw [object, hhost]
            rfl
          simp only [RemoteSync.upsertRemoteEndpoint, hobject, hhost4, heq]
          exact h.insert
        · rw [hto4] at hfamily
          cases hfamily
      · have hhost4 : pod.object.hostIP = none := by
          refine bind_eq_none_iff.mpr fun host hhost => ?_
          simpa [to4] using hnone host hhost
        simpa only [RemoteSync.upsertRemoteEndpoint, hobject, hhost4, heq] using h
    · have hobject : pod.object.podIP = none := by simp [hip, hto4]
      simp only [RemoteSync.upsertRemoteEndpoint, hobject]
      rcases hup with ⟨host, -, -, heq⟩ | ⟨-, heq⟩
      · rw [heq]
        exact h.insert_v6
      · rwa [heq]

theorem V4View.delete (h : V4View m entries) :
    V4View (RemoteSync.deleteRemoteEndpoint m pod.object)
      (RemoteState.deleteRemoteEndpoint pod entries).1 := by
  cases hip : parseIp pod.podIP with
  | none =>
    have hobject : pod.object.podIP = none := by simp [address, hip]
    simpa only [RemoteSync.deleteRemoteEndpoint, RemoteState.deleteRemoteEndpoint, hobject, hip] using h
  | some podIP =>
    have hobject : pod.object.podIP = podIP.to4 := by
      simp [address, hip, to4_normalize]
    simp only [RemoteSync.deleteRemoteEndpoint, RemoteState.deleteRemoteEndpoint, hobject, hip,
      deleteEndpoint_string]
    rcases normalize_cases podIP with ⟨a, hto4, ha⟩ | ⟨x, hto4, hx⟩
    · rw [hto4, ha]
      exact h.erase
    · rw [hto4, hx]
      exact h.erase_v6

theorem RemotePod.object_podIP_empty (h : pod.podIP = "") : pod.object.podIP = none := by
  cases hip : pod.address with
  | none => simp [hip]
  | some ip => exact absurd h (RemoteState.podIP_ne_of_address hip)

theorem RemoteSync.handle_of_ne {ev : PodEvent} (hself : ev.pod.nodeName ≠ selfNode) :
    handle hash selfNode m ev = match ev with
      | .add pod | .update pod => upsertRemoteEndpoint hash m pod
      | .delete pod => deleteRemoteEndpoint m pod := by
  by_cases hip : ev.pod.podIP = none
  · cases ev <;> simp_all [handle, PodEvent.pod, upsertRemoteEndpoint, deleteRemoteEndpoint]
  · unfold handle
    rw [if_neg (not_or.mpr ⟨hself, hip⟩)]
    cases ev <;> rfl

theorem V4View.handle (h : V4View m s.entries) (ev : RemoteEvent) :
    V4View (RemoteSync.handle hash selfNode m ev.object) (s.handle hash selfNode ev).entries := by
  have hnode : ev.object.pod.nodeName = ev.pod.nodeName := by cases ev <;> rfl
  have hempty : ev.pod.podIP = "" → ev.object.pod.podIP = none := by
    cases ev <;> exact object_podIP_empty
  by_cases hskip : ev.pod.nodeName = selfNode ∨ ev.pod.podIP = ""
  · have hnew : s.handle hash selfNode ev = s := if_pos hskip
    have hold : RemoteSync.handle hash selfNode m ev.object = m :=
      if_pos (hskip.imp hnode.trans hempty)
    rw [hnew, hold]
    exact h
  · unfold RemoteState.handle
    rw [if_neg hskip, RemoteSync.handle_of_ne (hnode.symm ▸ (not_or.mp hskip).1)]
    cases ev with
    | add pod | update pod => exact h.upsert
    | delete pod => exact h.delete

/-- The IPv4 entries depend on the addresses that parse as IPv4 only: after any events they
are those of the handlers over such addresses. -/
theorem v4_entries_of_events (hash : String → UInt64) (selfNode : String)
    (events : List RemoteEvent) :
    V4View (events.foldl (fun m ev => RemoteSync.handle hash selfNode m ev.object) ∅)
      (events.foldl (RemoteState.handle hash selfNode) ⟨∅, 0⟩).entries := by
  suffices hrun : ∀ m s, V4View m s.entries →
      V4View (events.foldl (fun m ev => RemoteSync.handle hash selfNode m ev.object) m)
        (events.foldl (RemoteState.handle hash selfNode) s).entries from
    hrun _ _ fun _ => rfl
  induction events with
  | nil => exact fun _ _ h => h
  | cons ev events ih => exact fun m s h => ih _ _ (h.handle ev)

end NovaNet
