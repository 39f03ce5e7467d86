import NovaNet.PodAgent
import NovaNet.PodIpam

/-! What a node holds for its pods: the addresses of the allocator and the references of
the identities, over CNI requests and restarts of the agent. Only the files of the address
allocator outlive a restart. -/

namespace NovaNet

open LastWrite Allocator IpAllocator Option Finset

/-- `labels` are those the pod was added with; the source does not keep them. -/
structure PodEndpoint where
  podName : String
  podNamespace : String
  containerID : String
  ip : Net.IP
  ifIndex : UInt32
  identityID : UInt64
  labels : Labels

abbrev PodEndpoint.key (ep : PodEndpoint) : String := podKey ep.podNamespace ep.podName

abbrev PodTable := Finmap fun _ : String => PodEndpoint

structure PodNode where
  ipAlloc : IpAllocator
  files : IpAllocator.Files
  idAlloc : Allocator
  endpoints : PodTable

/-- The outcomes of the calls of a CNI ADD: the file of a new address, its removal when the
address is given back, the labels, and the interface. Calls to the dataplane are left out,
as their failures are only logged. -/
structure AddPodCalls where
  write : Option String
  removed : Bool
  fetched : PodFetch
  ifindex : Except String UInt32

inductive PodRequest where
  | add (calls : AddPodCalls) (req : AddPodRequest)
  | del (removed : Bool) (req : DelPodRequest)
  | restart

namespace PodNode

def start (c : PodCidr) (files : IpAllocator.Files) : PodNode :=
  ⟨.newAllocatorWithStateDir c true files, files, .new, ∅⟩

/-- `none` when the identity allocator never returns. -/
def addPod (hash : String → UInt64) (calls : AddPodCalls) (s : PodNode) (req : AddPodRequest) :
    Option (Except GrpcError Net.IP × PodNode) :=
  match validateAddPodRequest req with
  | .error e => some (.error e, s)
  | .ok _ =>
    match s.ipAlloc.allocate calls.write s.files with
    | (.error e, ipAlloc, files) =>
      some (.error ⟨.resourceExhausted, "IP allocation failed: " ++ e.text⟩,
        { s with ipAlloc := ipAlloc, files := files })
    | (.ok ip, ipAlloc, files) =>
      let labels := addPodLabels calls.fetched req
      match s.idAlloc.allocateIdentity hash labels, calls.ifindex with
      | none, _ => none
      | some (id, idAlloc), .error text =>
        let released := ipAlloc.release calls.removed ip files
        some (.error ⟨.internal, "pod network setup failed: " ++ text⟩,
          { s with
            ipAlloc := released.2.1
            files := released.2.2
            idAlloc := idAlloc.removeIdentity id })
      | some (id, idAlloc), .ok ifIndex =>
        let ep : PodEndpoint :=
          ⟨req.podName, req.podNamespace, req.containerId, ip, ifIndex, id, labels⟩
        some (.ok ip, ⟨ipAlloc, files, idAlloc,
          s.endpoints.insert (podKey req.podNamespace req.podName) ep⟩)

/-- An unknown pod, or a container that is not the current one of the pod, is ignored. -/
def delPod (removed : Bool) (s : PodNode) (req : DelPodRequest) : PodNode :=
  let key := podKey req.podNamespace req.podName
  match s.endpoints.lookup key with
  | none => s
  | some ep =>
    if ep.containerID ≠ req.containerId then s
    else
      let released := s.ipAlloc.release removed ep.ip s.files
      ⟨released.2.1, released.2.2, s.idAlloc.removeIdentity ep.identityID, s.endpoints.erase key⟩

def handle (hash : String → UInt64) (s : PodNode) : PodRequest → Option PodNode
  | .add calls req => (s.addPod hash calls req).map Prod.snd
  | .del removed req => some (s.delPod removed req)
  | .restart => some (start s.ipAlloc.cidr s.files)

def Step (hash : String → UInt64) (guard : PodNode → PodRequest → Prop) (s s' : PodNode) : Prop :=
  ∃ q, guard s q ∧ s.handle hash q = some s'

abbrev Run (hash : String → UInt64) (guard : PodNode → PodRequest → Prop) :=
  Relation.ReflTransGen (Step hash guard)

end PodNode

def Allocator.refsOf (a : Allocator) (labels : Labels) : Nat :=
  ∑ id ∈ keysWhere a.idToLabels (· = labels), a.refs id

namespace PodNode

def holders (s : PodNode) (id : UInt64) : Finset String :=
  keysWhere s.endpoints fun ep => ep.identityID = id

def labelled (s : PodNode) (labels : Labels) : Finset String :=
  keysWhere s.endpoints fun ep => ep.labels = labels

/-- The allocated addresses are those of the endpoints, each endpoint has its own, and every
label set has one reference for each endpoint with it. -/
structure Accounted (s : PodNode) : Prop where
  addresses : ∀ ip, ip ∈ s.ipAlloc.allocated ↔ ∃ key ep, s.endpoints.lookup key = some ep ∧ ep.ip = ip
  distinct : ∀ key key' ep ep', s.endpoints.lookup key = some ep →
    s.endpoints.lookup key' = some ep' → ep.ip = ep'.ip → key = key'
  references : ∀ labels, s.idAlloc.refsOf labels = (s.labelled labels).card

def NoFiles (c : PodCidr) (files : IpAllocator.Files) : Prop :=
  ∀ name ∈ files, ∀ idx, fileIndex c name = some idx → idx.val ∈ c.reserved

/-- A pod is added once, unless the request fails, and no other label set in use has the
same canonical text as its labels. The agent restarts when no address has a file. -/
def Clean (s : PodNode) : PodRequest → Prop
  | .add calls req => ∀ ifIndex, calls.ifindex = .ok ifIndex →
      validateAddPodRequest req = .ok () →
      s.endpoints.lookup (podKey req.podNamespace req.podName) = none ∧
      ∀ id l, s.idAlloc.idToLabels.lookup id = some l →
        canonicalLabels l = canonicalLabels (addPodLabels calls.fetched req) →
        l = addPodLabels calls.fetched req
  | .del _ _ => True
  | .restart => NoFiles s.ipAlloc.cidr s.files

structure Held (s : PodNode) : Prop where
  allocated : ∀ key ep, s.endpoints.lookup key = some ep → ep.ip ∈ s.ipAlloc.allocated
  distinct : ∀ key key' ep ep', s.endpoints.lookup key = some ep →
    s.endpoints.lookup key' = some ep' → ep.ip = ep'.ip → key = key'

structure Inv (s : PodNode) : Prop where
  alloc : s.idAlloc.Inv
  addresses : ∀ ip, ip ∈ s.ipAlloc.allocated ↔ ∃ key ep, s.endpoints.lookup key = some ep ∧ ep.ip = ip
  distinct : ∀ key key' ep ep', s.endpoints.lookup key = some ep →
    s.endpoints.lookup key' = some ep' → ep.ip = ep'.ip → key = key'
  refs : ∀ id, s.idAlloc.refs id = (s.holders id).card
  stored : ∀ key ep, s.endpoints.lookup key = some ep →
    s.idAlloc.idToLabels.lookup ep.identityID = some ep.labels

section Accounting

variable {hash : String → UInt64} {s s' : PodNode}

variable {files : IpAllocator.Files} {ep : PodEndpoint} {idAlloc : Allocator} {key : String}
  {id : UInt64} {labels : Labels} {idx : Nat}

theorem Inv.labelled_eq (h : s.Inv) (hid : s.idAlloc.idToLabels.lookup id = some labels) :
    s.labelled labels = s.holders id := by
  have hback := h.alloc.canonical_of_labels id labels hid
  ext key
  rw [labelled, holders, mem_keysWhere, mem_keysWhere]
  constructor
  · rintro ⟨ep, hep, rfl⟩
    have hback' := h.alloc.canonical_of_labels _ _ (h.stored key ep hep)
    exact ⟨ep, hep, some.inj (hback'.symm.trans hback)⟩
  · rintro ⟨ep, hep, rfl⟩
    exact ⟨ep, hep, some.inj ((h.stored key ep hep).symm.trans hid)⟩

theorem Inv.accounted (h : s.Inv) : s.Accounted := by
  refine ⟨h.addresses, h.distinct, fun labels => ?_⟩
  by_cases hex : ∃ id, s.idAlloc.idToLabels.lookup id = some labels
  · obtain ⟨id, hid⟩ := hex
    have hone : keysWhere s.idAlloc.idToLabels (· = labels) = {id} := by
      ext id'
      rw [mem_keysWhere, mem_singleton]
      constructor
      · rintro ⟨l, hl, rfl⟩
        have hback := h.alloc.canonical_of_labels id l hid
        have hback' := h.alloc.canonical_of_labels id' l hl
        exact some.inj (hback'.symm.trans hback)
      · rintro rfl
        exact ⟨labels, hid, rfl⟩
    rw [refsOf, hone, sum_singleton, h.refs id, h.labelled_eq hid]
  · have hnone : keysWhere s.idAlloc.idToLabels (· = labels) = ∅ := by
      apply eq_empty_of_forall_notMem
      intro id hid
      obtain ⟨l, hl, rfl⟩ := mem_keysWhere.mp hid
      exact hex ⟨id, hl⟩
    have hempty : s.labelled labels = ∅ := by
      apply eq_empty_of_forall_notMem
      intro key hkey
      obtain ⟨ep, hep, rfl⟩ := mem_keysWhere.mp hkey
      exact hex ⟨_, h.stored key ep hep⟩
    rw [refsOf, hnone, hempty, sum_empty, card_empty]

theorem inv_start {c : PodCidr} (h : NoFiles c files) : (start c files).Inv where
  alloc := inv_new
  addresses := by
    simp [start, allocated_new c true files h]
  distinct := by simp [start]
  refs := by simp [start, holders, keysWhere, refs, new]
  stored := by simp [start]

/-- What an ADD does: nothing but to the files, an identity taken and given back, or a new
endpoint on a free address. -/
theorem addPod_cases {calls : AddPodCalls} {req : AddPodRequest} {r : Except GrpcError Net.IP}
    (h : s.addPod hash calls req = some (r, s')) :
    (∃ files, s' = { s with files := files }) ∨
    (∃ files id idAlloc,
      s.idAlloc.allocateIdentity hash (addPodLabels calls.fetched req) = some (id, idAlloc) ∧
      s' = { s with files := files, idAlloc := idAlloc.removeIdentity id }) ∨
    ∃ idx, ∃ hlt : idx < s.ipAlloc.cidr.size, ∃ files id idAlloc ifIndex,
      idx ∉ s.ipAlloc.cidr.reserved ∧ s.ipAlloc.bitmap.get idx = false ∧
      validateAddPodRequest req = .ok () ∧ calls.ifindex = .ok ifIndex ∧
      s.idAlloc.allocateIdentity hash (addPodLabels calls.fetched req) = some (id, idAlloc) ∧
      s' = ⟨s.ipAlloc.mark idx hlt, files, idAlloc,
        s.endpoints.insert req.key
          ⟨req.podName, req.podNamespace, req.containerId, indexToIP s.ipAlloc.cidr.baseIP idx,
            ifIndex, id, addPodLabels calls.fetched req⟩⟩ := by
  unfold addPod at h
  cases hv : validateAddPodRequest req with
  | error e =>
    simp only [hv, some.injEq, Prod.mk.injEq] at h
    exact .inl ⟨s.files, h.2.symm⟩
  | ok u =>
    rcases ha : s.ipAlloc.allocate calls.write s.files with ⟨ra, ipAlloc, files⟩
    simp only [hv, ha] at h
    rcases allocate_cases ha with ⟨e, rfl, rfl, rfl, -⟩ | ⟨idx, hmarks, rfl, -⟩
    · simp only [some.injEq, Prod.mk.injEq] at h
      exact .inl ⟨_, h.2.symm⟩
    · have hlt := hmarks.lt
      have hres := hmarks.not_reserved
      have hfree := hmarks.clear
      obtain rfl : ipAlloc = s.ipAlloc.mark idx hlt := hmarks.marked
      cases hid : s.idAlloc.allocateIdentity hash (addPodLabels calls.fetched req) with
      | none => simp [hid] at h
      | some p =>
        obtain ⟨id, idAlloc⟩ := p
        cases hif : calls.ifindex with
        | error text =>
          simp only [hid, hif, some.injEq, Prod.mk.injEq] at h
          obtain ⟨files', hrel⟩ := release_mark calls.removed files hlt hres hfree
          refine .inr (.inl ⟨files', id, idAlloc, rfl, ?_⟩)
          rw [← h.2, hrel]
        | ok ifIndex =>
          simp only [hid, hif, some.injEq, Prod.mk.injEq] at h
          exact .inr (.inr ⟨idx, hlt, files, id, idAlloc, ifIndex, hres, hfree, rfl, rfl, rfl,
            h.2.symm⟩)

theorem Inv.held (h : s.Inv) : s.Held :=
  ⟨fun key ep hep => (h.addresses ep.ip).mpr ⟨key, ep, hep, rfl⟩, h.distinct⟩

theorem Held.put {hlt : idx < s.ipAlloc.cidr.size} (h : s.Held)
    (hres : idx ∉ s.ipAlloc.cidr.reserved) (hfree : s.ipAlloc.bitmap.get idx = false)
    (hip : ep.ip = indexToIP s.ipAlloc.cidr.baseIP idx) :
    (⟨s.ipAlloc.mark idx hlt, files, idAlloc, s.endpoints.insert key ep⟩ : PodNode).Held := by
  have hnew : ∀ key' ep', s.endpoints.lookup key' = some ep' → ep'.ip ≠ ep.ip := by
    intro key' ep' hep' heq
    have hmem := h.allocated key' ep' hep'
    rw [heq, hip] at hmem
    exact not_mem_allocated hlt hfree hmem
  constructor
  · intro key' ep' hep'
    show ep'.ip ∈ (s.ipAlloc.mark idx hlt).allocated
    rw [allocated_mark hlt hres]
    rcases lookup_insert_eq_some hep' with ⟨-, rfl⟩ | ⟨-, hold⟩
    · rw [hip]
      exact mem_insert_self _ _
    · exact mem_insert_of_mem (h.allocated key' ep' hold)
  · exact pairwise_lookup_insert (fun hr heq => (hr heq.symm).symm) (fun _ => rfl)
      (fun key' ep' hold _ heq => absurd heq (hnew key' ep' hold)) h.distinct

theorem Inv.takeBack (h : s.Inv)
    (hid : s.idAlloc.allocateIdentity hash labels = some (id, idAlloc)) :
    ({ s with files := files, idAlloc := idAlloc.removeIdentity id } : PodNode).Inv where
  alloc := inv_removeIdentity (inv_allocateIdentity h.alloc hid) id
  addresses := h.addresses
  distinct := h.distinct
  refs := by
    intro id'
    have htaken := refs_allocateIdentity h.alloc hid id'
    have hback := refs_removeIdentity idAlloc id id'
    have hold := h.refs id'
    change (idAlloc.removeIdentity id).refs id' = (s.holders id').card
    omega
  stored := by
    intro key ep hep
    have hstored := lookup_allocateIdentity h.alloc hid (h.stored key ep hep)
    have htwo : id = ep.identityID → 2 ≤ idAlloc.refs id := by
      rintro rfl
      have htaken := refs_allocateIdentity h.alloc hid ep.identityID
      have hpos : 0 < (s.holders ep.identityID).card :=
        card_pos.mpr ⟨key, mem_keysWhere.mpr ⟨ep, hep, rfl⟩⟩
      have hold := h.refs ep.identityID
      rw [if_pos rfl] at htaken
      omega
    change (idAlloc.removeIdentity id).idToLabels.lookup ep.identityID = some ep.labels
    rw [lookup_removeIdentity htwo, hstored]

theorem Inv.put {hlt : idx < s.ipAlloc.cidr.size} (h : s.Inv) (hres : idx ∉ s.ipAlloc.cidr.reserved)
    (hfree : s.ipAlloc.bitmap.get idx = false) (hip : ep.ip = indexToIP s.ipAlloc.cidr.baseIP idx)
    (hid : s.idAlloc.allocateIdentity hash ep.labels = some (ep.identityID, idAlloc))
    (hkey : s.endpoints.lookup key = none)
    (hlabels : ∀ id l, s.idAlloc.idToLabels.lookup id = some l →
      canonicalLabels l = canonicalLabels ep.labels → l = ep.labels) :
    (⟨s.ipAlloc.mark idx hlt, files, idAlloc, s.endpoints.insert key ep⟩ : PodNode).Inv where
  alloc := inv_allocateIdentity h.alloc hid
  addresses := by
    intro ip
    rw [allocated_mark hlt hres, mem_insert, h.addresses ip, ← hip]
    constructor
    · rintro (rfl | ⟨key', ep', hep', hip'⟩)
      · exact ⟨key, ep, Finmap.lookup_insert _, rfl⟩
      · have hne : key' ≠ key := by
          rintro rfl
          simp [hkey] at hep'
        exact ⟨key', ep', by rw [Finmap.lookup_insert_of_ne _ hne, hep'], hip'⟩
    · rintro ⟨key', ep', hep', hip'⟩
      rcases lookup_insert_eq_some hep' with ⟨-, rfl⟩ | ⟨-, hold⟩
      · exact .inl hip'.symm
      · exact .inr ⟨key', ep', hold, hip'⟩
  distinct := (h.held.put hres hfree hip).distinct
  refs := by
    intro id
    have htaken := refs_allocateIdentity h.alloc hid id
    have hcard := card_keysWhere_insert (p := fun ep => ep.identityID = id) (v := ep) hkey
    have hold := h.refs id
    change idAlloc.refs id = (keysWhere (s.endpoints.insert key ep) fun ep => ep.identityID = id).card
    rw [htaken, hcard, hold]
    rfl
  stored := by
    intro key' ep' hep'
    rcases lookup_insert_eq_some hep' with ⟨-, rfl⟩ | ⟨-, hold⟩
    · obtain ⟨l, hl, hcan⟩ := labels_allocateIdentity h.alloc hid
      rcases lookup_allocateIdentity_cases h.alloc hid hl with hin | ⟨-, rfl⟩
      · rw [← hlabels _ l hin hcan]
        exact hl
      · exact hl
    · exact lookup_allocateIdentity h.alloc hid (h.stored key' ep' hold)

theorem Held.delPod_cases (h : s.Held) (removed : Bool) (req : DelPodRequest) :
    (s.delPod removed req = s ∧ ∀ ep,
      s.endpoints.lookup req.key = some ep →
      ep.containerID ≠ req.containerId) ∨
    ∃ ep ipAlloc files, s.endpoints.lookup req.key = some ep ∧
      ep.containerID = req.containerId ∧ ipAlloc.cidr = s.ipAlloc.cidr ∧
      ipAlloc.allocated = s.ipAlloc.allocated.erase ep.ip ∧
      s.delPod removed req = ⟨ipAlloc, files, s.idAlloc.removeIdentity ep.identityID,
        s.endpoints.erase req.key⟩ := by
  cases hep : s.endpoints.lookup req.key with
  | none => exact .inl ⟨by simp only [delPod, hep], by simp⟩
  | some ep =>
    by_cases hc : ep.containerID = req.containerId
    · obtain ⟨idx, hlt, hset, hres, hip⟩ := mem_allocated.mp (h.allocated _ ep hep)
      obtain ⟨files, hrel⟩ := release_indexToIP removed s.files hlt hres hset
      rw [hip] at hrel
      have hfreed := allocated_unmark hlt hres
      rw [hip] at hfreed
      exact .inr ⟨ep, s.ipAlloc.unmark idx hlt hres, files, rfl, hc, rfl, hfreed,
        by simp [delPod, hep, hc, hrel]⟩
    · refine .inl ⟨by simp [delPod, hep, hc], ?_⟩
      intro ep' hep'
      obtain rfl := some.inj hep'
      exact hc

theorem Held.drop {ipAlloc : IpAllocator} (h : s.Held) (hep : s.endpoints.lookup key = some ep)
    (hfreed : ipAlloc.allocated = s.ipAlloc.allocated.erase ep.ip) :
    (⟨ipAlloc, files, idAlloc, s.endpoints.erase key⟩ : PodNode).Held := by
  constructor
  · intro key' ep' hep'
    obtain ⟨hne, hold⟩ := lookup_erase_eq_some hep'
    show ep'.ip ∈ ipAlloc.allocated
    rw [hfreed, mem_erase]
    exact ⟨fun heq => hne (h.distinct key' _ ep' ep hold hep heq), h.allocated key' ep' hold⟩
  · intro key₁ key₂ ep₁ ep₂ h₁ h₂ heq
    have hold₁ := (lookup_erase_eq_some h₁).2
    have hold₂ := (lookup_erase_eq_some h₂).2
    exact h.distinct key₁ key₂ ep₁ ep₂ hold₁ hold₂ heq

theorem Inv.drop {ipAlloc : IpAllocator} (h : s.Inv) (hep : s.endpoints.lookup key = some ep)
    (hfreed : ipAlloc.allocated = s.ipAlloc.allocated.erase ep.ip) :
    (⟨ipAlloc, files, s.idAlloc.removeIdentity ep.identityID, s.endpoints.erase key⟩ :
      PodNode).Inv := by
  have hcard := fun id =>
    card_keysWhere_erase (p := fun ep => ep.identityID = id) hep
  constructor
  · exact inv_removeIdentity h.alloc _
  · intro ip
    show ip ∈ ipAlloc.allocated ↔ _
    rw [hfreed, mem_erase, h.addresses ip]
    constructor
    · rintro ⟨hne, key', ep', hep', rfl⟩
      have hkey : key' ≠ key := by
        rintro rfl
        rw [hep, some.injEq] at hep'
        exact hne (by rw [hep'])
      exact ⟨key', ep', by rw [Finmap.lookup_erase_ne hkey, hep'], rfl⟩
    · rintro ⟨key', ep', hep', rfl⟩
      obtain ⟨hne, hold⟩ := lookup_erase_eq_some hep'
      exact ⟨fun heq => hne (h.distinct key' key ep' ep hold hep heq), key', ep', hold, rfl⟩
  · exact (h.held.drop hep hfreed).distinct
  · intro id
    have hrefs := refs_removeIdentity s.idAlloc ep.identityID id
    have hold := h.refs id
    have hleft := hcard id
    show (s.idAlloc.removeIdentity ep.identityID).refs id =
      (keysWhere (s.endpoints.erase key) fun ep => ep.identityID = id).card
    change s.idAlloc.refs id = (keysWhere s.endpoints _).card at hold
    omega
  · intro key' ep' hep'
    obtain ⟨hne, hold⟩ := lookup_erase_eq_some hep'
    have htwo : ep.identityID = ep'.identityID → 2 ≤ s.idAlloc.refs ep.identityID := by
      intro heq
      have hrefs := h.refs ep.identityID
      have hleft := hcard ep.identityID
      have hpos : 0 < (keysWhere (s.endpoints.erase key)
          fun ep' => ep'.identityID = ep.identityID).card :=
        card_pos.mpr ⟨key', mem_keysWhere.mpr ⟨ep', hep', heq.symm⟩⟩
      change s.idAlloc.refs ep.identityID = (keysWhere s.endpoints _).card at hrefs
      rw [if_pos rfl] at hleft
      omega
    show (s.idAlloc.removeIdentity ep.identityID).idToLabels.lookup ep'.identityID = _
    rw [lookup_removeIdentity htwo, h.stored key' ep' hold]

theorem Inv.handle {q : PodRequest} (h : s.Inv) (hclean : s.Clean q)
    (hstep : s.handle hash q = some s') : s'.Inv := by
  cases q with
  | add calls req =>
    obtain ⟨⟨r, s''⟩, hadd, rfl⟩ := map_eq_some_iff.mp hstep
    rcases addPod_cases hadd with ⟨files, rfl⟩ | ⟨files, id, idAlloc, hid, rfl⟩ |
      ⟨idx, hlt, files, id, idAlloc, ifIndex, hres, hfree, hvalid, hif, hid, rfl⟩
    · exact ⟨h.alloc, h.addresses, h.distinct, h.refs, h.stored⟩
    · exact h.takeBack hid
    · obtain ⟨hkey, hlabels⟩ := hclean ifIndex hif hvalid
      exact h.put hres hfree rfl hid hkey hlabels
  | del removed req =>
    cases hstep
    rcases h.held.delPod_cases removed req with ⟨hsame, -⟩ |
      ⟨ep, ipAlloc, files, hep, -, -, hfreed, hdel⟩
    · rw [hsame]
      exact h
    · rw [hdel]
      exact h.drop hep hfreed
  | restart =>
    cases hstep
    exact inv_start hclean

/-- In every state of a run of clean requests and restarts. -/
theorem accounted_of_run {c : PodCidr} {files : IpAllocator.Files} (hfiles : NoFiles c files)
    (hrun : Run hash Clean (start c files) s) : s.Accounted := by
  have hinv : s.Inv := by
    induction hrun with
    | refl => exact inv_start hfiles
    | tail _ hstep ih =>
      obtain ⟨q, hclean, hh⟩ := hstep
      exact ih.handle hclean hh
  exact hinv.accounted

end Accounting

section Example

def exampleCidr : PodCidr := ⟨⟨.v4 0x0af40100, 24⟩, ⟨by decide, by decide⟩, by decide, by decide⟩

def exampleHash (_ : String) : UInt64 := 42

def addWeb (containerId : String) : PodRequest :=
  .add ⟨none, true, .noClient, .ok 7⟩ ⟨"web", "default", containerId, "/run/netns/web", "eth0", ∅⟩

def webAdded : PodNode := ((start exampleCidr []).handle exampleHash (addWeb "0123456789a")).getD
  (start exampleCidr [])

theorem handle_addWeb :
    (start exampleCidr []).handle exampleHash (addWeb "0123456789a") = some webAdded := by
  have hsome : ((start exampleCidr []).handle exampleHash (addWeb "0123456789a")).isSome = true := by
    decide +kernel
  rw [webAdded]
  exact (getD_of_ne_none (ne_none_iff_isSome.mpr hsome) _).symm

theorem clean_addWeb : (start exampleCidr []).Clean (addWeb "0123456789a") := by
  intro ifIndex _ _
  refine ⟨by simp [start], fun id l hl => ?_⟩
  simp [start, new] at hl

theorem accounted_of_run_example : NoFiles exampleCidr [] ∧ webAdded.Accounted := by
  have hfiles : NoFiles exampleCidr [] := by simp [NoFiles]
  have hrun : Run exampleHash Clean (start exampleCidr []) webAdded :=
    .single ⟨_, clean_addWeb, handle_addWeb⟩
  exact ⟨hfiles, accounted_of_run hfiles hrun⟩

theorem not_accounted_of_leak {s : PodNode} {ip : Net.IP} (hmem : ip ∈ s.ipAlloc.allocated)
    (hnone : keysWhere s.endpoints (fun ep => ep.ip = ip) = ∅) : ¬ s.Accounted := by
  intro h
  obtain ⟨key, ep, hep, hip⟩ := (h.addresses ip).mp hmem
  have hkey : key ∈ keysWhere s.endpoints (fun ep => ep.ip = ip) := mem_keysWhere.mpr ⟨ep, hep, hip⟩
  rw [hnone] at hkey
  exact absurd hkey (notMem_empty key)

/-- A second container of the pod leaves the address of the first allocated, and a restart
leaves every address allocated. -/
theorem accounting_fails :
    (start exampleCidr []).handle exampleHash (addWeb "0123456789a") = some webAdded ∧
    (∃ s, webAdded.handle exampleHash (addWeb "0123456789b") = some s ∧ ¬ s.Accounted) ∧
    ∃ s, webAdded.handle exampleHash .restart = some s ∧ ¬ s.Accounted := by
  refine ⟨handle_addWeb, ?_, _, rfl, ?_⟩
  · have hleak : (webAdded.handle exampleHash (addWeb "0123456789b")).any (fun s =>
        Net.IP.v4 0x0af40102 ∈ s.ipAlloc.allocated ∧
        keysWhere s.endpoints (fun ep => ep.ip = Net.IP.v4 0x0af40102) = ∅) = true := by
      decide +kernel
    obtain ⟨s, hs, hp⟩ := (any_eq_true _ _).mp hleak
    have hp := of_decide_eq_true hp
    exact ⟨s, hs, not_accounted_of_leak hp.1 hp.2⟩
  · have hmem : Net.IP.v4 0x0af40102 ∈
        (start webAdded.ipAlloc.cidr webAdded.files).ipAlloc.allocated := by
      decide +kernel
    exact not_accounted_of_leak hmem rfl

end Example

end PodNode

end NovaNet
