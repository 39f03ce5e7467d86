import NovaNet.IdentitySpec
import NovaNet.Dataplane
import NovaNet.Grpc

/-! The pods as the agent sees them: CNI requests for pods of its own node, and the
informer's events for pods of other nodes. Pod addresses are IPv4. -/

namespace NovaNet

open LastWrite Allocator Finset

structure AddPodRequest where
  podName : String
  podNamespace : String
  containerId : String
  netns : String
  ifName : String
  labels : Labels

structure DelPodRequest where
  podName : String
  podNamespace : String
  containerId : String

def required (value field : String) : Except GrpcError Unit :=
  if value = "" then .error ⟨.invalidArgument, field ++ " is required"⟩ else .ok ()

def validateAddPodRequest (req : AddPodRequest) : Except GrpcError Unit := do
  required req.podName "PodName"
  required req.podNamespace "PodNamespace"
  required req.containerId "ContainerId"
  required req.netns "Netns"
  required req.ifName "IfName"
  if req.containerId.utf8ByteSize < 11 then
    .error ⟨.invalidArgument, "ContainerId too short: must be at least 11 characters, got " ++
      Nat.repr req.containerId.utf8ByteSize⟩
  else .ok ()

structure Endpoint where
  podName : String
  podNamespace : String
  containerID : String
  ip : UInt32
  ifIndex : UInt32
  identityID : UInt64
  deriving DecidableEq

/-- The agent with the ENDPOINTS map it fills. `ipam` holds the addresses that the
pod address allocator has handed out. -/
structure Agent where
  nodeIP : UInt32
  ipam : Finset UInt32
  idAlloc : Allocator
  endpoints : Finmap fun _ : String => Endpoint
  endpointMap : Finmap fun _ : UInt32 => EndpointValue

inductive PodFetch where
  | noClient
  | failed
  | found (labels : Labels)

/-- What a CNI ADD gets from outside: an address or an error text from the address
allocator, the labels, and an interface index or an error text from the setup. -/
structure AddPodEnv where
  allocated : Except String UInt32
  fetched : PodFetch
  ifindex : Except String UInt32

def podKey (ns name : String) : String := ns ++ "/" ++ name

abbrev AddPodRequest.key (req : AddPodRequest) : String := podKey req.podNamespace req.podName

abbrev DelPodRequest.key (req : DelPodRequest) : String := podKey req.podNamespace req.podName

def addPodLabels (fetched : PodFetch) (req : AddPodRequest) : Labels :=
  (match fetched with
  | .noClient => req.labels
  | .failed => ∅
  | .found labels => labels).insert namespaceLabel req.podNamespace

namespace Agent

def putEndpoint (a : Agent) (req : AddPodRequest) (ip ifIndex : UInt32) (id : UInt64)
    (idAlloc : Allocator) : Agent :=
  { a with
    ipam := insert ip a.ipam
    idAlloc := idAlloc
    endpoints := a.endpoints.insert (podKey req.podNamespace req.podName)
      ⟨req.podName, req.podNamespace, req.containerId, ip, ifIndex, id⟩
    endpointMap := a.endpointMap.insert ip ⟨ifIndex, id.toUInt32, a.nodeIP⟩ }

/-- `none` when the identity allocator never returns. -/
def addPod (hash : String → UInt64) (env : AddPodEnv) (a : Agent) (req : AddPodRequest) :
    Option (Except GrpcError UInt32 × Agent) :=
  match validateAddPodRequest req, env.allocated with
  | .error e, _ => some (.error e, a)
  | .ok _, .error text =>
    some (.error ⟨.resourceExhausted, "IP allocation failed: " ++ text⟩, a)
  | .ok _, .ok ip =>
    match a.idAlloc.allocateIdentity hash (addPodLabels env.fetched req), env.ifindex with
    | none, _ => none
    | some (id, idAlloc), .error text =>
      some (.error ⟨.internal, "pod network setup failed: " ++ text⟩,
        { a with ipam := (insert ip a.ipam).erase ip, idAlloc := idAlloc.removeIdentity id })
    | some (id, idAlloc), .ok ifIndex => some (.ok ip, a.putEndpoint req ip ifIndex id idAlloc)

def dropEndpoint (a : Agent) (key : String) (ep : Endpoint) : Agent :=
  { a with
    ipam := a.ipam.erase ep.ip
    idAlloc := a.idAlloc.removeIdentity ep.identityID
    endpoints := a.endpoints.erase key
    endpointMap := a.endpointMap.erase ep.ip }

/-- An unknown pod, or a container that is not the current one of the pod, is
ignored. -/
def delPod (a : Agent) (req : DelPodRequest) : Agent :=
  match a.endpoints.lookup (podKey req.podNamespace req.podName) with
  | none => a
  | some ep =>
    if ep.containerID ≠ req.containerId then a
    else a.dropEndpoint (podKey req.podNamespace req.podName) ep

end Agent

structure PodObject where
  namespace_ : String
  name : String
  nodeName : String
  labels : Labels
  podIP : Option UInt32
  hostIP : Option UInt32

inductive PodEvent where
  | add (pod : PodObject)
  | update (pod : PodObject)
  | delete (pod : PodObject)

def PodEvent.pod : PodEvent → PodObject
  | .add pod | .update pod | .delete pod => pod

def PodObject.fullLabels (pod : PodObject) : Labels :=
  pod.labels.insert namespaceLabel pod.namespace_

abbrev EndpointMap := Finmap fun _ : UInt32 => EndpointValue

namespace RemoteSync

variable (hash : String → UInt64) (selfNode : String)

def upsertRemoteEndpoint (m : EndpointMap) (pod : PodObject) : EndpointMap :=
  match pod.podIP, pod.hostIP with
  | some ip, some host => m.insert ip ⟨0, (hashLabels hash pod.fullLabels).toUInt32, host⟩
  | _, _ => m

def deleteRemoteEndpoint (m : EndpointMap) (pod : PodObject) : EndpointMap :=
  match pod.podIP with
  | some ip => m.erase ip
  | none => m

def handle (m : EndpointMap) (ev : PodEvent) : EndpointMap :=
  if ev.pod.nodeName = selfNode ∨ ev.pod.podIP = none then m
  else
    match ev with
    | .add pod => upsertRemoteEndpoint hash m pod
    | .update pod => upsertRemoteEndpoint hash m pod
    | .delete pod => deleteRemoteEndpoint m pod

theorem lookup_handle_of_ne {m : EndpointMap} {ev : PodEvent} {ip : UInt32}
    (h : ev.pod.nodeName ≠ selfNode → ev.pod.podIP ≠ some ip) :
    (handle hash selfNode m ev).lookup ip = m.lookup ip := by
  unfold handle
  by_cases hself : ev.pod.nodeName = selfNode ∨ ev.pod.podIP = none
  · rw [if_pos hself]
  · rw [if_neg hself]
    rw [not_or] at hself
    obtain ⟨ip', hip'⟩ := Option.ne_none_iff_exists'.mp hself.2
    have hne : ip ≠ ip' := by
      rintro rfl
      exact h hself.1 hip'
    cases ev with
    | add pod | update pod =>
      change pod.podIP = some ip' at hip'
      cases hh : pod.hostIP with
      | none => simp [upsertRemoteEndpoint, hip', hh]
      | some host => simp [upsertRemoteEndpoint, hip', hh, Finmap.lookup_insert_of_ne _ hne]
    | delete pod =>
      change pod.podIP = some ip' at hip'
      simp [deleteRemoteEndpoint, hip', Finmap.lookup_erase_ne hne]

end RemoteSync

def Agent.handlePodEvent (hash : String → UInt64) (selfNode : String) (a : Agent)
    (ev : PodEvent) : Agent :=
  { a with endpointMap := RemoteSync.handle hash selfNode a.endpointMap ev }

namespace Agent

def holders (a : Agent) (id : UInt64) : Finset String :=
  a.endpoints.keys.filter fun key => (a.endpoints.lookup key).any fun ep => ep.identityID = id

/-- What the CNI requests and the informer's events keep true, where `range` are the
pod addresses of the node. -/
structure Inv (range : Set UInt32) (a : Agent) : Prop where
  alloc : a.idAlloc.Inv
  held : ∀ id, (a.holders id).card ≤ a.idAlloc.refs id
  in_ipam : ∀ key ep, a.endpoints.lookup key = some ep → ep.ip ∈ a.ipam ∧ ep.ip ∈ range
  distinct : ∀ key key' ep ep', a.endpoints.lookup key = some ep →
    a.endpoints.lookup key' = some ep' → ep.ip = ep'.ip → key = key'
  mapped : ∀ key ep, a.endpoints.lookup key = some ep →
    a.endpointMap.lookup ep.ip = some ⟨ep.ifIndex, ep.identityID.toUInt32, a.nodeIP⟩

variable {a a' : Agent} {hash : String → UInt64} {env : AddPodEnv} {req : AddPodRequest}
  {r : Except GrpcError UInt32} {range : Set UInt32}

variable {ep : Endpoint} {key : String} {id : UInt64} {ip ifIndex : UInt32} {l : Labels}
  {idAlloc : Allocator}

theorem mem_holders : key ∈ a.holders id ↔
    ∃ ep, a.endpoints.lookup key = some ep ∧ ep.identityID = id := by
  simp only [holders, mem_filter, Finmap.mem_keys, Finmap.mem_iff]
  cases a.endpoints.lookup key <;> simp

theorem Inv.of_start (hid : a.idAlloc = .new) (hep : a.endpoints = ∅) : a.Inv range := by
  have hnone : ∀ key ep, a.endpoints.lookup key ≠ some ep := by simp [hep]
  refine ⟨hid ▸ inv_new, ?_, ?_, ?_, ?_⟩
  · simp [holders, hep]
  · exact fun key ep h => absurd h (hnone key ep)
  · exact fun key _ ep _ h => absurd h (hnone key ep)
  · exact fun key ep h => absurd h (hnone key ep)

theorem addPod_cases (h : a.addPod hash env req = some (r, a')) :
    (∃ e, r = .error e ∧ a' = a) ∨
    (∃ e ip id idAlloc, r = .error e ∧ env.allocated = .ok ip ∧
      a.idAlloc.allocateIdentity hash (addPodLabels env.fetched req) = some (id, idAlloc) ∧
      a' = { a with ipam := (insert ip a.ipam).erase ip, idAlloc := idAlloc.removeIdentity id }) ∨
    ∃ ip id idAlloc ifIndex, r = .ok ip ∧ env.allocated = .ok ip ∧
      a.idAlloc.allocateIdentity hash (addPodLabels env.fetched req) = some (id, idAlloc) ∧
      a' = a.putEndpoint req ip ifIndex id idAlloc := by
  unfold addPod at h
  cases hv : validateAddPodRequest req with
  | error e =>
    simp only [hv, Option.some.injEq, Prod.mk.injEq] at h
    exact .inl ⟨e, h.1.symm, h.2.symm⟩
  | ok u =>
    cases hip : env.allocated with
    | error text =>
      simp only [hv, hip, Option.some.injEq, Prod.mk.injEq] at h
      exact .inl ⟨_, h.1.symm, h.2.symm⟩
    | ok ip =>
      simp only [hv, hip] at h
      cases hid : a.idAlloc.allocateIdentity hash (addPodLabels env.fetched req) with
      | none => simp [hid] at h
      | some p =>
        obtain ⟨id, idAlloc⟩ := p
        cases hif : env.ifindex with
        | error text =>
          simp only [hid, hif, Option.some.injEq, Prod.mk.injEq] at h
          exact .inr (.inl ⟨_, ip, id, idAlloc, h.1.symm, rfl, rfl, h.2.symm⟩)
        | ok ifIndex =>
          simp only [hid, hif, Option.some.injEq, Prod.mk.injEq] at h
          exact .inr (.inr ⟨ip, id, idAlloc, ifIndex, h.1.symm, rfl, rfl, h.2.symm⟩)

theorem lookup_putEndpoint
    (h : (a.putEndpoint req ip ifIndex id idAlloc).endpoints.lookup key = some ep) :
    (key = req.key ∧ ep.ip = ip ∧ ep.ifIndex = ifIndex ∧ ep.identityID = id) ∨
    key ≠ req.key ∧ a.endpoints.lookup key = some ep := by
  change (a.endpoints.insert _ _).lookup key = some ep at h
  rcases lookup_insert_eq_some h with ⟨hk, rfl⟩ | hold
  · exact .inl ⟨hk, rfl, rfl, rfl⟩
  · exact .inr hold

theorem holders_putEndpoint (a : Agent) (req : AddPodRequest) (ip ifIndex : UInt32) (id : UInt64)
    (idAlloc : Allocator) (id' : UInt64) : ((a.putEndpoint req ip ifIndex id idAlloc).holders id').card ≤
      (a.holders id').card + if id = id' then 1 else 0 := by
  by_cases he : id = id'
  · have hsub : (a.putEndpoint req ip ifIndex id idAlloc).holders id' ⊆
        insert req.key (a.holders id') := by
      intro key hkey
      obtain ⟨ep, hep, hid⟩ := mem_holders.mp hkey
      rcases lookup_putEndpoint hep with ⟨rfl, -⟩ | ⟨-, hold⟩
      · exact mem_insert_self _ _
      · exact mem_insert_of_mem (mem_holders.mpr ⟨ep, hold, hid⟩)
    have hcard := (card_le_card hsub).trans (card_insert_le _ _)
    rw [if_pos he]
    exact hcard
  · have hsub : (a.putEndpoint req ip ifIndex id idAlloc).holders id' ⊆ a.holders id' := by
      intro key hkey
      obtain ⟨ep, hep, hid⟩ := mem_holders.mp hkey
      rcases lookup_putEndpoint hep with ⟨-, -, -, hnew⟩ | ⟨-, hold⟩
      · exact absurd (hnew.symm.trans hid) he
      · exact mem_holders.mpr ⟨ep, hold, hid⟩
    rw [if_neg he]
    exact card_le_card hsub

theorem Inv.putEndpoint {lbls : Labels} (ha : a.Inv range) (hrange : ip ∈ range)
    (hfresh : ip ∉ a.ipam) (hid : a.idAlloc.allocateIdentity hash lbls = some (id, idAlloc)) :
    (a.putEndpoint req ip ifIndex id idAlloc).Inv range where
  alloc := inv_allocateIdentity ha.alloc hid
  held := by
    intro id'
    have hcard := holders_putEndpoint a req ip ifIndex id idAlloc id'
    have hrefs := refs_allocateIdentity ha.alloc hid id'
    have hold := ha.held id'
    change _ ≤ idAlloc.refs id'
    omega
  in_ipam := by
    intro key ep hep
    change ep.ip ∈ insert ip a.ipam ∧ ep.ip ∈ range
    rcases lookup_putEndpoint hep with ⟨-, hip, -⟩ | ⟨-, hold⟩
    · rw [hip]
      exact ⟨mem_insert_self _ _, hrange⟩
    · have hin := ha.in_ipam key ep hold
      exact ⟨mem_insert_of_mem hin.1, hin.2⟩
  distinct := by
    intro key key' ep ep' hep hep' hip
    rcases lookup_putEndpoint hep with ⟨hk, hnew, -⟩ | ⟨-, hold⟩
    · rcases lookup_putEndpoint hep' with ⟨hk', -⟩ | ⟨-, hold'⟩
      · rw [hk, hk']
      · rw [← hnew, hip] at hfresh
        exact absurd (ha.in_ipam key' ep' hold').1 hfresh
    · rcases lookup_putEndpoint hep' with ⟨-, hnew', -⟩ | ⟨-, hold'⟩
      · rw [← hnew', ← hip] at hfresh
        exact absurd (ha.in_ipam key ep hold).1 hfresh
      · exact ha.distinct key key' ep ep' hold hold' hip
  mapped := by
    intro key ep hep
    change (a.endpointMap.insert ip _).lookup ep.ip = some ⟨_, _, a.nodeIP⟩
    rw [lookup_insert_eq]
    rcases lookup_putEndpoint hep with ⟨-, hip, hif, hid⟩ | ⟨-, hold⟩
    · rw [if_pos hip.symm, hif, hid]
    · have hne : ip ≠ ep.ip := by
        rintro rfl
        exact hfresh (ha.in_ipam key ep hold).1
      rw [if_neg hne]
      exact ha.mapped key ep hold

theorem Inv.of_endpointMap (ha : a.Inv range) {m : EndpointMap}
    (hm : ∀ ip ∈ range, m.lookup ip = a.endpointMap.lookup ip) :
    ({ a with endpointMap := m } : Agent).Inv range where
  alloc := ha.alloc
  held := ha.held
  in_ipam := ha.in_ipam
  distinct := ha.distinct
  mapped := by
    intro key ep hep
    rw [← ha.mapped key ep hep]
    exact hm ep.ip (ha.in_ipam key ep hep).2

theorem Inv.handlePodEvent {selfNode : String} {ev : PodEvent} (ha : a.Inv range)
    (hev : ev.pod.nodeName ≠ selfNode → ∀ ip ∈ range, ev.pod.podIP ≠ some ip) :
    (a.handlePodEvent hash selfNode ev).Inv range := by
  apply ha.of_endpointMap
  intro ip hip
  exact RemoteSync.lookup_handle_of_ne hash selfNode fun hself => hev hself ip hip

theorem Inv.addPod (ha : a.Inv range)
    (hip : ∀ ip, env.allocated = .ok ip → ip ∈ range ∧ ip ∉ a.ipam)
    (h : a.addPod hash env req = some (r, a')) : a'.Inv range := by
  rcases addPod_cases h with ⟨e, -, rfl⟩ | ⟨e, ip, id, idAlloc, -, halloc, hid, rfl⟩ |
    ⟨ip, id, idAlloc, ifIndex, -, halloc, hid, rfl⟩
  · exact ha
  · have hinv := inv_allocateIdentity ha.alloc hid
    refine ⟨inv_removeIdentity hinv id, ?_, ?_, ha.distinct, ha.mapped⟩
    · intro id'
      have hrefs := refs_allocateIdentity ha.alloc hid id'
      have hback := refs_removeIdentity idAlloc id id'
      have hold := ha.held id'
      change (a.holders id').card ≤ (idAlloc.removeIdentity id).refs id'
      omega
    · intro key ep hep
      have hin := ha.in_ipam key ep hep
      have hne : ep.ip ≠ ip := fun he => (hip ip halloc).2 (he ▸ hin.1)
      exact ⟨mem_erase.mpr ⟨hne, mem_insert_of_mem hin.1⟩, hin.2⟩
  · exact ha.putEndpoint (hip ip halloc).1 (hip ip halloc).2 hid

theorem delPod_cases (a : Agent) (req : DelPodRequest) : a.delPod req = a ∨
    ∃ ep, a.endpoints.lookup req.key = some ep ∧ a.delPod req = a.dropEndpoint req.key ep := by
  cases hep : a.endpoints.lookup req.key with
  | none => exact .inl (by simp only [delPod, hep])
  | some ep =>
    by_cases hc : ep.containerID = req.containerId
    · exact .inr ⟨ep, rfl, by simp [delPod, hep, hc]⟩
    · exact .inl (by simp [delPod, hep, hc])

theorem lookup_dropEndpoint {key' : String} {ep' : Endpoint}
    (h : (a.dropEndpoint key ep).endpoints.lookup key' = some ep') :
    key' ≠ key ∧ a.endpoints.lookup key' = some ep' :=
  lookup_erase_eq_some h

theorem holders_dropEndpoint (hep : a.endpoints.lookup key = some ep) (id : UInt64) :
    ((a.dropEndpoint key ep).holders id).card + (if ep.identityID = id then 1 else 0) ≤
      (a.holders id).card := by
  have hsub : (a.dropEndpoint key ep).holders id ⊆ (a.holders id).erase key := by
    intro key' hkey'
    obtain ⟨ep', hep', hid⟩ := mem_holders.mp hkey'
    obtain ⟨hne, hold⟩ := lookup_dropEndpoint hep'
    exact mem_erase.mpr ⟨hne, mem_holders.mpr ⟨ep', hold, hid⟩⟩
  have hcard := card_le_card hsub
  by_cases he : ep.identityID = id
  · have hmem : key ∈ a.holders id := mem_holders.mpr ⟨ep, hep, he⟩
    have herase := card_erase_add_one hmem
    rw [if_pos he]
    omega
  · have hle := card_le_card (erase_subset key (a.holders id))
    rw [if_neg he]
    omega

theorem Inv.dropEndpoint (ha : a.Inv range) (hep : a.endpoints.lookup key = some ep) :
    (a.dropEndpoint key ep).Inv range where
  alloc := inv_removeIdentity ha.alloc _
  held := by
    intro id
    have hrefs := refs_removeIdentity a.idAlloc ep.identityID id
    have hcard := holders_dropEndpoint hep id
    have hold := ha.held id
    change _ ≤ (a.idAlloc.removeIdentity ep.identityID).refs id
    omega
  in_ipam := by
    intro key' ep' h
    obtain ⟨hne, hold⟩ := lookup_dropEndpoint h
    have hin := ha.in_ipam key' ep' hold
    refine ⟨mem_erase.mpr ⟨?_, hin.1⟩, hin.2⟩
    intro hip
    exact hne (ha.distinct key' key ep' ep hold hep hip)
  distinct := by
    intro key₁ key₂ ep₁ ep₂ h₁ h₂ hip
    have hold₁ := (lookup_dropEndpoint h₁).2
    have hold₂ := (lookup_dropEndpoint h₂).2
    exact ha.distinct key₁ key₂ ep₁ ep₂ hold₁ hold₂ hip
  mapped := by
    intro key' ep' h
    obtain ⟨hne, hold⟩ := lookup_dropEndpoint h
    have hip : ep.ip ≠ ep'.ip := by
      intro hip
      exact hne (ha.distinct key' key ep' ep hold hep hip.symm)
    change (a.endpointMap.erase ep.ip).lookup ep'.ip = some ⟨_, _, a.nodeIP⟩
    rw [lookup_erase_eq, if_neg hip]
    exact ha.mapped key' ep' hold

theorem Inv.delPod (ha : a.Inv range) (req : DelPodRequest) : (a.delPod req).Inv range := by
  rcases delPod_cases a req with hsame | ⟨ep, hep, hdel⟩
  · rw [hsame]
    exact ha
  · rw [hdel]
    exact ha.dropEndpoint hep

theorem lookup_endpoints_delPod {req : DelPodRequest}
    (hep : (a.delPod req).endpoints.lookup key = some ep) : a.endpoints.lookup key = some ep := by
  rcases delPod_cases a req with hsame | ⟨ep', -, hdel⟩
  · rwa [hsame] at hep
  · rw [hdel] at hep
    exact (lookup_dropEndpoint hep).2

theorem lookup_endpointMap_addPod (hrange : ∀ ip, env.allocated = .ok ip → ip ∈ range)
    (h : a.addPod hash env req = some (r, a')) (hout : ip ∉ range) :
    a'.endpointMap.lookup ip = a.endpointMap.lookup ip := by
  rcases addPod_cases h with ⟨e, -, rfl⟩ | ⟨e, ip', id, idAlloc, -, -, -, rfl⟩ |
    ⟨ip', id, idAlloc, ifIndex, -, halloc, -, rfl⟩
  · rfl
  · rfl
  · have hne : ip' ≠ ip := fun he => hout (he ▸ hrange ip' halloc)
    change (a.endpointMap.insert ip' _).lookup ip = _
    rw [lookup_insert_eq, if_neg hne]

theorem Inv.lookup_endpointMap_delPod (ha : a.Inv range) (req : DelPodRequest) (hout : ip ∉ range) :
    (a.delPod req).endpointMap.lookup ip = a.endpointMap.lookup ip := by
  rcases delPod_cases a req with hsame | ⟨ep, hep, hdel⟩
  · rw [hsame]
  · have hne : ep.ip ≠ ip := fun he => hout (he ▸ (ha.in_ipam _ _ hep).2)
    rw [hdel]
    change (a.endpointMap.erase ep.ip).lookup ip = _
    rw [lookup_erase_eq, if_neg hne]

theorem lookup_addPod_cases (ha : a.Inv range) (h : a.addPod hash env req = some (r, a'))
    (hl : a'.idAlloc.idToLabels.lookup id = some l) :
    a.idAlloc.idToLabels.lookup id = some l ∨ l = addPodLabels env.fetched req := by
  rcases addPod_cases h with ⟨e, -, rfl⟩ | ⟨e, ip, id', idAlloc, -, -, hid, rfl⟩ |
    ⟨ip, id', idAlloc, ifIndex, -, -, hid, rfl⟩
  · exact .inl hl
  · have hmem := lookup_removeIdentity_of_mem hl
    exact (lookup_allocateIdentity_cases ha.alloc hid hmem).imp_right And.right
  · exact (lookup_allocateIdentity_cases ha.alloc hid hl).imp_right And.right

theorem lookup_delPod_of_mem {req : DelPodRequest}
    (hl : (a.delPod req).idAlloc.idToLabels.lookup id = some l) :
    a.idAlloc.idToLabels.lookup id = some l := by
  rcases delPod_cases a req with hsame | ⟨ep, -, hdel⟩
  · rwa [hsame] at hl
  · rw [hdel] at hl
    exact lookup_removeIdentity_of_mem hl

theorem Inv.refs_pos (ha : a.Inv range) (hep : a.endpoints.lookup key = some ep) :
    0 < a.idAlloc.refs ep.identityID := by
  have hmem : key ∈ a.holders ep.identityID := mem_holders.mpr ⟨ep, hep, rfl⟩
  have hpos : 0 < (a.holders ep.identityID).card := card_pos.mpr ⟨key, hmem⟩
  have hheld := ha.held ep.identityID
  omega

theorem Inv.stored_addPod (ha : a.Inv range) (h : a.addPod hash env req = some (r, a'))
    (hep : a.endpoints.lookup key = some ep)
    (hl : a.idAlloc.idToLabels.lookup ep.identityID = some l) :
    a'.idAlloc.idToLabels.lookup ep.identityID = some l := by
  rcases addPod_cases h with ⟨e, -, rfl⟩ | ⟨e, ip, id, idAlloc, -, -, hid, rfl⟩ |
    ⟨ip, id, idAlloc, ifIndex, -, -, hid, rfl⟩
  · exact hl
  · have hkept := lookup_allocateIdentity ha.alloc hid hl
    change (idAlloc.removeIdentity id).idToLabels.lookup ep.identityID = some l
    rw [lookup_removeIdentity, hkept]
    rintro rfl
    have hrefs := refs_allocateIdentity ha.alloc hid ep.identityID
    have hpos := ha.refs_pos hep
    rw [if_pos rfl] at hrefs
    omega
  · exact lookup_allocateIdentity ha.alloc hid hl

theorem Inv.stored_delPod (ha : a.Inv range) {req : DelPodRequest}
    (hep : (a.delPod req).endpoints.lookup key = some ep)
    (hl : a.idAlloc.idToLabels.lookup ep.identityID = some l) :
    (a.delPod req).idAlloc.idToLabels.lookup ep.identityID = some l := by
  rcases delPod_cases a req with hsame | ⟨ep', hep', hdel⟩
  · rwa [hsame]
  · rw [hdel] at hep ⊢
    change (a.idAlloc.removeIdentity ep'.identityID).idToLabels.lookup ep.identityID = some l
    rw [lookup_removeIdentity, hl]
    intro hid
    have hcard := holders_dropEndpoint hep' ep'.identityID
    have hmem : key ∈ (a.dropEndpoint _ ep').holders ep'.identityID :=
      mem_holders.mpr ⟨ep, hep, hid.symm⟩
    have hpos := card_pos.mpr ⟨key, hmem⟩
    have hheld := ha.held ep'.identityID
    rw [if_pos rfl] at hcard
    omega

end Agent

end NovaNet
