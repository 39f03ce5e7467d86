import NovaNet.PodAccounting
import NovaNet.Interleave

/-! CNI requests that run at the same time. Each request is a sequence of atomic steps on the
address allocator, the identities, the endpoint table and the ENDPOINTS map. -/

namespace NovaNet

open LastWrite List Option

structure PodEntry where
  ifIndex : UInt32
  identity : UInt32
  nodeIP : Net.IP
  deriving DecidableEq

abbrev PodEntries := Finmap fun _ : Net.IP => PodEntry

structure PodServer where
  node : PodNode
  nodeIP : Net.IP
  endpointMap : PodEntries

/-- What is left of a request. The pod's key goes with the later parts of a CNI DEL. -/
inductive PodTask where
  | addPod (calls : AddPodCalls) (req : AddPodRequest)
  | identify (calls : AddPodCalls) (req : AddPodRequest) (ip : Net.IP)
  | undoIP (calls : AddPodCalls) (req : AddPodRequest) (ip : Net.IP) (id : UInt64)
  | undoIdentity (req : AddPodRequest) (id : UInt64)
  | register (ep : PodEndpoint)
  | upsert (ep : PodEndpoint)
  | delPod (removed : Bool) (req : DelPodRequest)
  | releaseIP (key : String) (removed : Bool) (ep : PodEndpoint)
  | removeIdentity (key : String) (ep : PodEndpoint)
  | deleteEndpoint (key : String) (ep : PodEndpoint)

def PodEndpoint.entry (nodeIP : Net.IP) (ep : PodEndpoint) : PodEntry :=
  ⟨ep.ifIndex, ep.identityID.toUInt32, nodeIP⟩

namespace PodTask

def key : PodTask → String
  | .addPod _ req => podKey req.podNamespace req.podName
  | .identify _ req _ => podKey req.podNamespace req.podName
  | .undoIP _ req _ _ => podKey req.podNamespace req.podName
  | .undoIdentity req _ => podKey req.podNamespace req.podName
  | .register ep => podKey ep.podNamespace ep.podName
  | .upsert ep => podKey ep.podNamespace ep.podName
  | .delPod _ req => podKey req.podNamespace req.podName
  | .releaseIP key _ _ => key
  | .removeIdentity key _ => key
  | .deleteEndpoint key _ => key

def setup (calls : AddPodCalls) (req : AddPodRequest) (ip : Net.IP) (id : UInt64) : PodTask :=
  match calls.ifindex with
  | .error _ => .undoIP calls req ip id
  | .ok ifIndex => .register ⟨req.podName, req.podNamespace, req.containerId, ip, ifIndex, id,
      addPodLabels calls.fetched req⟩

/-- Identities that never come are probed for again. -/
def next (hash : String → UInt64) : PodTask → PodServer → PodServer × Option PodTask
  | .addPod calls req, s =>
    match validateAddPodRequest req with
    | .error _ => (s, none)
    | .ok _ =>
      match s.node.ipAlloc.allocate calls.write s.node.files with
      | (.error _, ipAlloc, files) =>
        ({ s with node := { s.node with ipAlloc := ipAlloc, files := files } }, none)
      | (.ok ip, ipAlloc, files) =>
        ({ s with node := { s.node with ipAlloc := ipAlloc, files := files } },
          some (.identify calls req ip))
  | .identify calls req ip, s =>
    match s.node.idAlloc.allocateIdentity hash (addPodLabels calls.fetched req) with
    | none => (s, some (.identify calls req ip))
    | some (id, idAlloc) =>
      ({ s with node := { s.node with idAlloc := idAlloc } }, some (setup calls req ip id))
  | .undoIP calls req ip id, s =>
    let released := s.node.ipAlloc.release calls.removed ip s.node.files
    ({ s with node := { s.node with ipAlloc := released.2.1, files := released.2.2 } },
      some (.undoIdentity req id))
  | .undoIdentity _ id, s =>
    ({ s with node := { s.node with idAlloc := s.node.idAlloc.removeIdentity id } }, none)
  | .register ep, s =>
    ({ s with node := { s.node with
        endpoints := s.node.endpoints.insert (podKey ep.podNamespace ep.podName) ep } },
      some (.upsert ep))
  | .upsert ep, s =>
    ({ s with endpointMap := s.endpointMap.insert ep.ip.normalize (ep.entry s.nodeIP) }, none)
  | .delPod removed req, s =>
    let key := podKey req.podNamespace req.podName
    match s.node.endpoints.lookup key with
    | none => (s, none)
    | some ep =>
      if ep.containerID ≠ req.containerId then (s, none)
      else
        ({ s with node := { s.node with endpoints := s.node.endpoints.erase key } },
          some (.releaseIP key removed ep))
  | .releaseIP key removed ep, s =>
    let released := s.node.ipAlloc.release removed ep.ip s.node.files
    ({ s with node := { s.node with ipAlloc := released.2.1, files := released.2.2 } },
      some (.removeIdentity key ep))
  | .removeIdentity key ep, s =>
    ({ s with node := { s.node with idAlloc := s.node.idAlloc.removeIdentity ep.identityID } },
      some (.deleteEndpoint key ep))
  | .deleteEndpoint _ ep, s => ({ s with endpointMap := s.endpointMap.erase ep.ip.normalize }, none)

def IsRequest : PodTask → Prop
  | .addPod _ _ => True
  | .delPod _ _ => True
  | _ => False

def holds : PodTask → Option Net.IP
  | .identify _ _ ip => some ip
  | .undoIP _ _ ip _ => some ip
  | .register ep => some ep.ip
  | .releaseIP _ _ ep => some ep.ip
  | _ => none

def awaits : PodTask → Option Net.IP
  | .removeIdentity _ ep => some ep.ip
  | .deleteEndpoint _ ep => some ep.ip
  | _ => none

def removes : PodTask → Option Net.IP
  | .releaseIP _ _ ep => some ep.ip
  | .removeIdentity _ ep => some ep.ip
  | .deleteEndpoint _ ep => some ep.ip
  | _ => none

def pushes : PodTask → Option PodEndpoint
  | .upsert ep => some ep
  | _ => none

def Adds : PodTask → Prop
  | .identify _ _ _ => True
  | .register _ => True
  | _ => False

end PodTask

namespace PodServer

def Exact (s : PodServer) : Prop :=
  ∀ ip, s.node.ipAlloc.cidr.net.contains ip = true → ∀ v,
    s.endpointMap.lookup ip.normalize = some v ↔ ∃ key ep, s.node.endpoints.lookup key = some ep ∧
      ep.ip.normalize = ip.normalize ∧ v = ep.entry s.nodeIP

/-- As it is when no request is under way: every endpoint has an allocated address of its own,
and the map has the entries of the endpoints. -/
structure Settled (s : PodServer) : Prop where
  held : s.node.Held
  exact : s.Exact

/-- A pod is added when it has no endpoint, and not on an address whose entry an unfinished
CNI DEL still has to delete. -/
def Allowed (s : PodServer) : PodTask → List PodTask → Prop
  | .addPod calls req, others => validateAddPodRequest req = .ok () →
      s.node.endpoints.lookup (podKey req.podNamespace req.podName) = none ∧
      ∀ ip ∈ (s.node.ipAlloc.allocate calls.write s.node.files).1.toOption,
        ∀ u ∈ others, u.awaits ≠ some ip
  | _, _ => True

instance (s : PodServer) : (t : PodTask) → (others : List PodTask) → Decidable (s.Allowed t others)
  | .addPod _ _, _ => inferInstanceAs (Decidable (_ → _ ∧ _))
  | .identify _ _ _, _ | .undoIP _ _ _ _, _ | .undoIdentity _ _, _ | .register _, _ | .upsert _, _
  | .delPod _ _, _ | .releaseIP _ _ _, _ | .removeIdentity _ _, _ | .deleteEndpoint _ _, _ =>
    .isTrue trivial

end PodServer

def PodCidr.range (c : PodCidr) : Finset Net.IP :=
  (Finset.range c.size).image (indexToIP c.baseIP)

open PodCidr

theorem PodCidr.mem_range {c : PodCidr} {ip : Net.IP} :
    ip ∈ c.range ↔ ∃ idx < c.size, indexToIP c.baseIP idx = ip := by
  simp only [range, Finset.mem_image, Finset.mem_range]

theorem PodCidr.normalize_inj {c : PodCidr} {ip ip' : Net.IP} (h : ip ∈ c.range)
    (h' : ip' ∈ c.range) : ip.normalize = ip'.normalize ↔ ip = ip' := by
  obtain ⟨i, hi, rfl⟩ := mem_range.mp h
  obtain ⟨j, hj, rfl⟩ := mem_range.mp h'
  refine ⟨fun heq => ?_, fun heq => by rw [heq]⟩
  rw [indexToIP_normalize_injective hi hj heq]

theorem PodCidr.contains_iff (c : PodCidr) (ip : Net.IP) :
    c.net.contains ip = true ↔ ∃ x ∈ c.range, x.normalize = ip.normalize := by
  simp only [contains_iff_index c.isNetwork c.hostBits_le, range, Finset.mem_image,
    Finset.mem_range, exists_exists_and_eq_and, baseIP, size]

theorem IpAllocator.allocated_subset (a : IpAllocator) : a.allocated ⊆ a.cidr.range := by
  intro ip hip
  obtain ⟨idx, hlt, -, -, rfl⟩ := mem_allocated.mp hip
  exact mem_range.mpr ⟨idx, hlt, rfl⟩

section Pool

variable {c : PodCidr} {nodeIP : Net.IP} {allocated : Finset Net.IP}
  {table : PodTable} {entries : PodEntries} {t t' u : PodTask}
  {others pool : List PodTask} {ip : Net.IP} {key : String} {ep : PodEndpoint}

structure TaskOk (c : PodCidr) (allocated : Finset Net.IP)
    (table : PodTable) (t : PodTask) : Prop where
  holds : ∀ ip, t.holds = some ip → ip ∈ allocated ∧ ∀ key ep, table.lookup key = some ep → ep.ip ≠ ip
  awaits : ∀ ip, t.awaits = some ip → ip ∈ c.range ∧ ip ∉ allocated
  adds : t.Adds → table.lookup t.key = none
  pushes : ∀ ep, t.pushes = some ep → table.lookup t.key = some ep

def PodTask.Apart (t u : PodTask) : Prop := ∀ ip, t.holds = some ip → u.holds ≠ some ip

theorem PodTask.Apart.symm (h : t.Apart u) : u.Apart t := fun ip hu ht => h ip ht hu

/-- The table and the map agree up to what the unfinished requests will still do. -/
structure PoolInv (c : PodCidr) (nodeIP : Net.IP) (used : Finset Net.IP)
    (table : PodTable) (entries : PodEntries) (pool : List PodTask) :
    Prop where
  within : used ⊆ c.range
  allocated : ∀ key ep, table.lookup key = some ep → ep.ip ∈ used
  distinct : ∀ key key' ep ep', table.lookup key = some ep → table.lookup key' = some ep' →
    ep.ip = ep'.ip → key = key'
  keys : (pool.map PodTask.key).Nodup
  apart : pool.Pairwise PodTask.Apart
  tasks : ∀ t ∈ pool, TaskOk c used table t
  present : ∀ key ep, table.lookup key = some ep →
    entries.lookup ep.ip.normalize = some (ep.entry nodeIP) ∨ ∃ t ∈ pool, t.pushes = some ep
  absent : ∀ ip ∈ c.range, (∀ key ep, table.lookup key = some ep → ep.ip ≠ ip) →
    entries.lookup ip.normalize = none ∨ ∃ t ∈ pool, t.removes = some ip

theorem PoolInv.perm {pool' : List PodTask} (h : PoolInv c nodeIP allocated table entries pool)
    (hp : pool.Perm pool') : PoolInv c nodeIP allocated table entries pool' where
  within := h.within
  allocated := h.allocated
  distinct := h.distinct
  keys := (hp.map _).nodup_iff.mp h.keys
  apart := (hp.pairwise_iff fun hab => hab.symm).mp h.apart
  tasks := fun t ht => h.tasks t (hp.mem_iff.mpr ht)
  present := fun key ep hep => by simpa only [hp.mem_iff] using h.present key ep hep
  absent := fun ip hip hall => by simpa only [hp.mem_iff] using h.absent ip hip hall

theorem exists_mem_cons_of_imp {P : PodTask → Prop} (h : P t → P t')
    (hex : ∃ u ∈ t :: others, P u) : ∃ u ∈ t' :: others, P u := by
  rw [exists_mem_cons_iff] at hex ⊢
  exact hex.imp_left h

section Head

variable (h : PoolInv c nodeIP allocated table entries (t :: others))

include h

theorem PoolInv.key_ne (hu : u ∈ others) : u.key ≠ t.key := by
  have hnot := (nodup_cons.mp h.keys).1
  exact fun he => hnot (he ▸ List.mem_map_of_mem hu)

theorem PoolInv.apart_head (hu : u ∈ others) : t.Apart u := (pairwise_cons.mp h.apart).1 u hu

theorem PoolInv.others_ok (hu : u ∈ others) :
    TaskOk c allocated table u := h.tasks u (mem_cons_of_mem t hu)

theorem PoolInv.head_ok : TaskOk c allocated table t := h.tasks t mem_cons_self

/-- The first task goes on as `t'`, and its step may change the addresses and the table. -/
theorem PoolInv.advance {allocated' : Finset Net.IP} {table' : PodTable}
    (hkey : t'.key = t.key) (hwithin : allocated' ⊆ c.range)
    (halloc : ∀ key ep, table'.lookup key = some ep → ep.ip ∈ allocated')
    (hdistinct : ∀ key key' ep ep', table'.lookup key = some ep → table'.lookup key' = some ep' →
      ep.ip = ep'.ip → key = key') (hapart : ∀ u ∈ others, t'.Apart u)
    (hhead : TaskOk c allocated' table' t') (hothers : ∀ u ∈ others, TaskOk c allocated' table' u)
    (hpresent : ∀ key ep, table'.lookup key = some ep →
      entries.lookup ep.ip.normalize = some (ep.entry nodeIP) ∨ ∃ u ∈ t' :: others, u.pushes = some ep)
    (habsent : ∀ ip ∈ c.range, (∀ key ep, table'.lookup key = some ep → ep.ip ≠ ip) →
      entries.lookup ip.normalize = none ∨ ∃ u ∈ t' :: others, u.removes = some ip) :
    PoolInv c nodeIP allocated' table' entries (t' :: others) where
  within := hwithin
  allocated := halloc
  distinct := hdistinct
  keys := by
    rw [map_cons, hkey]
    exact h.keys
  apart := pairwise_cons.mpr ⟨hapart, (pairwise_cons.mp h.apart).2⟩
  tasks := forall_mem_cons.mpr ⟨hhead, hothers⟩
  present := hpresent
  absent := habsent

theorem PoolInv.swap (hkey : t'.key = t.key) (hholds : t'.holds = t.holds ∨ t'.holds = none)
    (hok : TaskOk c allocated table t') (hpush : ∀ ep, t.pushes = some ep → t'.pushes = some ep)
    (hrem : ∀ ip, t.removes = some ip → t'.removes = some ip) :
    PoolInv c nodeIP allocated table entries (t' :: others) := by
  refine h.advance hkey h.within h.allocated h.distinct (fun u hu ip hip => ?_) hok
    (fun u hu => h.others_ok hu)
    (fun key ep hep => (h.present key ep hep).imp_right (exists_mem_cons_of_imp (hpush ep)))
    fun ip hip hall => (h.absent ip hip hall).imp_right (exists_mem_cons_of_imp (hrem ip))
  rcases hholds with hsame | hnone
  · exact h.apart_head hu ip (hsame ▸ hip)
  · simp [hnone] at hip

theorem PoolInv.finish (hpush : t.pushes = none) (hrem : t.removes = none) :
    PoolInv c nodeIP allocated table entries others where
  within := h.within
  allocated := h.allocated
  distinct := h.distinct
  keys := (nodup_cons.mp h.keys).2
  apart := (pairwise_cons.mp h.apart).2
  tasks := fun u hu => h.others_ok hu
  present := fun key ep hep => by simpa [hpush] using h.present key ep hep
  absent := fun ip hip hall => by simpa [hrem] using h.absent ip hip hall

theorem PoolInv.allocate (hin : ip ∈ c.range) (hnew : ip ∉ allocated)
    (hwait : ∀ u ∈ others, u.awaits ≠ some ip)
    (hrole : t'.key = t.key ∧ t'.holds = some ip ∧ t'.awaits = none ∧ t'.pushes = none)
    (hdone : t.pushes = none ∧ t.removes = none) (hadds : table.lookup t.key = none) :
    PoolInv c nodeIP (insert ip allocated) table entries (t' :: others) := by
  obtain ⟨hkey, hholds, hawaits, hpushes⟩ := hrole
  refine h.advance hkey (Finset.insert_subset hin h.within)
    (fun key ep hep => Finset.mem_insert_of_mem (h.allocated key ep hep)) h.distinct
    (fun u hu ip' hip' huip => ?_) ⟨fun ip' hip' => ?_, by simp [hawaits], fun _ => hkey ▸ hadds,
      by simp [hpushes]⟩ (fun u hu => ?_)
    (fun key ep hep => (h.present key ep hep).imp_right (exists_mem_cons_of_imp (by simp [hdone.1])))
    fun ip' hip' hall => (h.absent ip' hip' hall).imp_right (exists_mem_cons_of_imp (by simp [hdone.2]))
  · obtain rfl := some.inj (hholds.symm.trans hip')
    exact hnew ((h.others_ok hu).holds ip huip).1
  · obtain rfl := some.inj (hholds.symm.trans hip')
    exact ⟨Finset.mem_insert_self _ _, fun key ep hep heq => hnew (heq ▸ h.allocated key ep hep)⟩
  · have hok := h.others_ok hu
    refine ⟨fun ip' hip' => ?_, fun ip' hip' => ?_, hok.adds, hok.pushes⟩
    · exact ⟨Finset.mem_insert_of_mem (hok.holds ip' hip').1, (hok.holds ip' hip').2⟩
    · refine ⟨(hok.awaits ip' hip').1, fun hmem => ?_⟩
      rcases Finset.mem_insert.mp hmem with rfl | hmem
      · exact hwait u hu hip'
      · exact (hok.awaits ip' hip').2 hmem

theorem PoolInv.release (hip : t.holds = some ip) (hkey : t'.key = t.key) (hholds : t'.holds = none)
    (hadds : ¬ t'.Adds) (hpush : t.pushes = none ∧ t'.pushes = none)
    (hawaits : ∀ ip', t'.awaits = some ip' → ip' = ip)
    (hrem : ∀ ip, t.removes = some ip → t'.removes = some ip) :
    PoolInv c nodeIP (allocated.erase ip) table entries (t' :: others) := by
  obtain ⟨hmem, hunused⟩ := h.head_ok.holds ip hip
  refine h.advance hkey ((Finset.erase_subset _ _).trans h.within)
    (fun key ep hep => Finset.mem_erase.mpr ⟨hunused key ep hep, h.allocated key ep hep⟩)
    h.distinct (fun u hu ip' hip' => ?_) ⟨by simp [hholds], fun ip' hip' => ?_,
      fun ha => absurd ha hadds, by simp [hpush.2]⟩ (fun u hu => ?_)
    (fun key ep hep => (h.present key ep hep).imp_right (exists_mem_cons_of_imp (by simp [hpush.1])))
    fun ip' hip' hall => (h.absent ip' hip' hall).imp_right (exists_mem_cons_of_imp (hrem ip'))
  · simp [hholds] at hip'
  · rw [hawaits ip' hip']
    exact ⟨h.within hmem, Finset.notMem_erase _ _⟩
  · have hok := h.others_ok hu
    refine ⟨fun ip' hip' => ?_, fun ip' hip' => ?_, hok.adds, hok.pushes⟩
    · have hne : ip' ≠ ip := by
        rintro rfl
        exact h.apart_head hu ip' hip hip'
      exact ⟨Finset.mem_erase.mpr ⟨hne, (hok.holds ip' hip').1⟩, (hok.holds ip' hip').2⟩
    · obtain ⟨hrange, hfree⟩ := hok.awaits ip' hip'
      exact ⟨hrange, fun hmem => hfree (Finset.mem_of_mem_erase hmem)⟩

end Head

theorem PoolInv.register (h : PoolInv c nodeIP allocated table entries (.register ep :: others)) :
    PoolInv c nodeIP allocated (table.insert ep.key ep) entries (.upsert ep :: others) := by
  obtain ⟨hmem, hunused⟩ := h.head_ok.holds ep.ip rfl
  have hnone : table.lookup ep.key = none := h.head_ok.adds trivial
  have hkey : ∀ {u}, u ∈ others → ep.key ≠ u.key := fun hu he => h.key_ne hu he.symm
  refine h.advance rfl h.within ?_ ?_ (fun u hu ip hip => (nomatch hip))
    ⟨fun _ hip => (nomatch hip), fun _ hip => (nomatch hip), fun ha => ha.elim, ?_⟩ ?_ ?_ ?_
  · exact forall_lookup_insert hmem h.allocated
  · exact pairwise_lookup_insert (fun hr heq => (hr heq.symm).symm) (fun _ => rfl)
      (fun key' ep' hold _ heq => absurd heq (hunused key' ep' hold)) h.distinct
  · rintro ep' ⟨⟩
    exact Finmap.lookup_insert _
  · intro u hu
    have hok := h.others_ok hu
    refine ⟨fun ip hip => ⟨(hok.holds ip hip).1, fun key' ep' hep' => ?_⟩, hok.awaits,
      fun ha => ?_, fun ep' hep' => ?_⟩
    · rcases lookup_insert_eq_some hep' with ⟨-, rfl⟩ | ⟨-, hold⟩
      · exact fun heq => h.apart_head hu _ (congrArg some heq) hip
      · exact (hok.holds ip hip).2 key' ep' hold
    · rw [lookup_insert_eq, if_neg (hkey hu), hok.adds ha]
    · rw [lookup_insert_eq, if_neg (hkey hu), hok.pushes ep' hep']
  · intro key' ep' hep'
    rcases lookup_insert_eq_some hep' with ⟨-, rfl⟩ | ⟨-, hold⟩
    · exact .inr ⟨_, mem_cons_self, rfl⟩
    · exact (h.present key' ep' hold).imp_right (exists_mem_cons_of_imp (by simp [PodTask.pushes]))
  · intro ip hip hall
    refine (h.absent ip hip fun key' ep' hep' => hall key' ep' ?_).imp_right
      (exists_mem_cons_of_imp (by simp [PodTask.removes]))
    have hne : ep.key ≠ key' := by
      rintro rfl
      simp [hnone] at hep'
    rw [lookup_insert_eq, if_neg hne, hep']

theorem PoolInv.erase {removed : Bool} {req : DelPodRequest}
    (h : PoolInv c nodeIP allocated table entries (.delPod removed req :: others))
    (hep : table.lookup req.key = some ep) :
    PoolInv c nodeIP allocated (table.erase req.key) entries
      (.releaseIP req.key removed ep :: others) := by
  have hkey : ∀ {u}, u ∈ others → req.key ≠ u.key := fun hu he => h.key_ne hu he.symm
  have hold : ∀ key' ep', (table.erase req.key).lookup key' = some ep' → table.lookup key' = some ep' :=
    fun _ _ hep' => (lookup_erase_eq_some hep').2
  refine h.advance rfl h.within (fun key' ep' hep' => h.allocated key' ep' (hold _ _ hep'))
    (fun key₁ key₂ ep₁ ep₂ h₁ h₂ => h.distinct key₁ key₂ ep₁ ep₂ (hold _ _ h₁) (hold _ _ h₂))
    ?_ ⟨?_, fun _ hip => (nomatch hip), fun ha => ha.elim, fun _ hp => (nomatch hp)⟩ ?_
    (fun key' ep' hep' => (h.present key' ep' (hold _ _ hep')).imp_right
      (exists_mem_cons_of_imp (by simp [PodTask.pushes]))) ?_
  · rintro u hu ip ⟨⟩ huip
    exact ((h.others_ok hu).holds ep.ip huip).2 _ ep hep rfl
  · rintro ip ⟨⟩
    refine ⟨h.allocated _ ep hep, fun key' ep' hep' heq => ?_⟩
    obtain ⟨hne, hold⟩ := lookup_erase_eq_some hep'
    exact hne (h.distinct key' _ ep' ep hold hep heq)
  · intro u hu
    have hok := h.others_ok hu
    refine ⟨fun ip hip => ⟨(hok.holds ip hip).1, fun key' ep' hep' => ?_⟩, hok.awaits,
      fun ha => ?_, fun ep' hep' => ?_⟩
    · exact (hok.holds ip hip).2 key' ep' (hold _ _ hep')
    · rw [lookup_erase_eq, if_neg (hkey hu), hok.adds ha]
    · rw [lookup_erase_eq, if_neg (hkey hu), hok.pushes ep' hep']
  · intro ip hip hall
    by_cases hsame : ep.ip = ip
    · exact .inr ⟨_, mem_cons_self, congrArg some hsame⟩
    · refine (h.absent ip hip fun key' ep' hep' => ?_).imp_right
        (exists_mem_cons_of_imp (by simp [PodTask.removes]))
      by_cases hk : req.key = key'
      · subst hk
        rw [hep, some.injEq] at hep'
        exact hep' ▸ hsame
      · exact hall key' ep' (by rw [lookup_erase_eq, if_neg hk, hep'])

theorem PoolInv.upsert (h : PoolInv c nodeIP allocated table entries (.upsert ep :: others)) :
    PoolInv c nodeIP allocated table (entries.insert ep.ip.normalize (ep.entry nodeIP)) others := by
  have hep : table.lookup ep.key = some ep := h.head_ok.pushes ep rfl
  have hin := h.within (h.allocated _ ep hep)
  refine ⟨h.within, h.allocated, h.distinct, (nodup_cons.mp h.keys).2,
    (pairwise_cons.mp h.apart).2, fun u hu => h.others_ok hu, ?_, ?_⟩
  · intro key' ep' hep'
    have hin' := h.within (h.allocated key' ep' hep')
    rw [lookup_insert_eq]
    by_cases hsame : ep.ip = ep'.ip
    · have hkey := h.distinct _ _ ep ep' hep hep' hsame
      rw [← hkey, hep, some.injEq] at hep'
      rw [hep', if_pos rfl]
      exact .inl rfl
    · rw [if_neg ((normalize_inj hin hin').not.mpr hsame)]
      have hother : ep ≠ ep' := fun heq => hsame (congrArg PodEndpoint.ip heq)
      simpa [PodTask.pushes, hother] using h.present key' ep' hep'
  · intro ip hip hall
    have hne : ep.ip ≠ ip := hall _ ep hep
    rw [lookup_insert_eq, if_neg ((normalize_inj hin hip).not.mpr hne)]
    simpa [PodTask.removes] using h.absent ip hip hall

theorem PoolInv.deleteEndpoint
    (h : PoolInv c nodeIP allocated table entries (.deleteEndpoint key ep :: others)) :
    PoolInv c nodeIP allocated table (entries.erase ep.ip.normalize) others := by
  obtain ⟨hin, hfree⟩ := h.head_ok.awaits ep.ip rfl
  refine ⟨h.within, h.allocated, h.distinct, (nodup_cons.mp h.keys).2,
    (pairwise_cons.mp h.apart).2, fun u hu => h.others_ok hu, ?_, ?_⟩
  · intro key' ep' hep'
    have hmem := h.allocated key' ep' hep'
    have hne : ep.ip ≠ ep'.ip := fun he => hfree (he ▸ hmem)
    rw [lookup_erase_eq, if_neg ((normalize_inj hin (h.within hmem)).not.mpr hne)]
    simpa [PodTask.pushes] using h.present key' ep' hep'
  · intro ip hip hall
    rw [lookup_erase_eq]
    by_cases hsame : ep.ip = ip
    · rw [hsame, if_pos rfl]
      exact .inl rfl
    · rw [if_neg ((normalize_inj hin hip).not.mpr hsame)]
      simpa [PodTask.removes, hsame] using h.absent ip hip hall

end Pool

namespace PodServer

open Interleave

variable {hash : String → UInt64} {s s' : PodServer} {t : PodTask} {others pool : List PodTask}

structure Inv (c : PodCidr) (s : PodServer) (pool : List PodTask) : Prop where
  cidr : s.node.ipAlloc.cidr = c
  pool : PoolInv c s.nodeIP s.node.ipAlloc.allocated s.node.endpoints s.endpointMap pool

theorem Inv.step {c : PodCidr} (h : s.Inv c (t :: others)) (hg : s.Allowed t others) :
    (t.next hash s).1.Inv c ((t.next hash s).2.toList ++ others) := by
  obtain ⟨hcidr, h⟩ := h
  cases t with
  | addPod calls req =>
    cases hv : validateAddPodRequest req with
    | error e =>
      simp only [PodTask.next, hv]
      exact ⟨hcidr, h.finish rfl rfl⟩
    | ok u =>
      obtain ⟨hnone, hwait⟩ := hg hv
      rcases ha : s.node.ipAlloc.allocate calls.write s.node.files with ⟨r, ipAlloc, files⟩
      simp only [PodTask.next, hv, ha]
      cases r with
      | error e =>
        rcases IpAllocator.allocate_cases ha with ⟨e', -, rfl, -⟩ | ⟨idx, -, hr, -⟩
        · exact ⟨hcidr, h.finish rfl rfl⟩
        · cases hr
      | ok ip =>
        obtain ⟨hnew, halloc, hsame⟩ := IpAllocator.allocated_of_allocate ha
        have hin : ip ∈ c.range := by
          rw [← hcidr, ← hsame]
          refine ipAlloc.allocated_subset ?_
          rw [halloc]
          exact Finset.mem_insert_self _ _
        refine ⟨hsame.trans hcidr, ?_⟩
        change PoolInv c s.nodeIP ipAlloc.allocated s.node.endpoints s.endpointMap _
        rw [halloc]
        exact h.allocate hin hnew (hwait ip (by rw [ha]; rfl)) ⟨rfl, rfl, rfl, rfl⟩ ⟨rfl, rfl⟩ hnone
  | identify calls req ip =>
    cases hid : s.node.idAlloc.allocateIdentity hash (addPodLabels calls.fetched req) with
    | none =>
      simp only [PodTask.next, hid]
      exact ⟨hcidr, h⟩
    | some r =>
      obtain ⟨id, idAlloc⟩ := r
      simp only [PodTask.next, hid]
      refine ⟨hcidr, ?_⟩
      have hok := h.head_ok
      have hrole : (PodTask.setup calls req ip id).key = req.key ∧
          (PodTask.setup calls req ip id).holds = some ip ∧
          (PodTask.setup calls req ip id).awaits = none ∧
          (PodTask.setup calls req ip id).pushes = none := by
        unfold PodTask.setup
        cases calls.ifindex <;> exact ⟨rfl, rfl, rfl, rfl⟩
      obtain ⟨hkey, hholds, hawaits, hpushes⟩ := hrole
      refine h.swap hkey (.inl hholds) ⟨fun ip' hip' => ?_, by simp [hawaits], fun _ => ?_,
        by simp [hpushes]⟩ (fun _ hp => (nomatch hp)) (fun _ hr => (nomatch hr))
      · rw [hholds] at hip'
        exact hok.holds ip' hip'
      · rw [hkey]
        exact hok.adds trivial
  | undoIP calls req ip id =>
    obtain ⟨halloc, hsame⟩ := IpAllocator.allocated_of_release calls.removed s.node.files
      (h.head_ok.holds ip rfl).1
    refine ⟨hsame.trans hcidr, ?_⟩
    change PoolInv c s.nodeIP (s.node.ipAlloc.release calls.removed ip s.node.files).2.1.allocated
      s.node.endpoints s.endpointMap _
    rw [halloc]
    exact h.release rfl rfl rfl False.elim ⟨rfl, rfl⟩ (fun _ hw => (nomatch hw))
      (fun _ hr => (nomatch hr))
  | undoIdentity req id => exact ⟨hcidr, h.finish rfl rfl⟩
  | register ep => exact ⟨hcidr, h.register⟩
  | upsert ep => exact ⟨hcidr, h.upsert⟩
  | delPod removed req =>
    cases hep : s.node.endpoints.lookup req.key with
    | none =>
      simp only [PodTask.next, hep]
      exact ⟨hcidr, h.finish rfl rfl⟩
    | some ep =>
      by_cases hstale : ep.containerID ≠ req.containerId
      · simp only [PodTask.next, hep, if_pos hstale]
        exact ⟨hcidr, h.finish rfl rfl⟩
      · simp only [PodTask.next, hep, if_neg hstale]
        exact ⟨hcidr, h.erase hep⟩
  | releaseIP key removed ep =>
    obtain ⟨halloc, hsame⟩ := IpAllocator.allocated_of_release removed s.node.files
      (h.head_ok.holds ep.ip rfl).1
    refine ⟨hsame.trans hcidr, ?_⟩
    change PoolInv c s.nodeIP (s.node.ipAlloc.release removed ep.ip s.node.files).2.1.allocated
      s.node.endpoints s.endpointMap _
    rw [halloc]
    exact h.release rfl rfl rfl False.elim ⟨rfl, rfl⟩ (fun _ hw => (some.inj hw).symm) (fun _ hr => hr)
  | removeIdentity key ep =>
    have hok := h.head_ok
    exact ⟨hcidr, h.swap rfl (.inr rfl) ⟨fun _ hip => (nomatch hip), hok.awaits,
      fun ha => ha.elim, fun _ hp => (nomatch hp)⟩ (fun _ hp => (nomatch hp)) (fun _ hr => hr)⟩
  | deleteEndpoint key ep => exact ⟨hcidr, h.deleteEndpoint⟩

theorem Settled.inv (h : s.Settled) (hreq : ∀ t ∈ pool, t.IsRequest)
    (hkeys : (pool.map PodTask.key).Nodup) : s.Inv s.node.ipAlloc.cidr pool := by
  have hroles : ∀ t ∈ pool, t.holds = none ∧ t.awaits = none ∧ ¬ t.Adds ∧ t.pushes = none := by
    intro t ht
    have hr := hreq t ht
    cases t with
    | addPod calls req | delPod removed req => exact ⟨rfl, rfl, id, rfl⟩
    | _ => exact hr.elim
  refine ⟨rfl, s.node.ipAlloc.allocated_subset, h.held.allocated, h.held.distinct, hkeys, ?_, ?_,
    ?_, ?_⟩
  · refine List.Pairwise.imp_of_mem (R := fun _ _ => True) ?_ (pairwise_of_forall fun _ _ => trivial)
    intro t u ht _ _ ip hip
    simp [(hroles t ht).1] at hip
  · intro t ht
    obtain ⟨hholds, hawaits, hadds, hpushes⟩ := hroles t ht
    exact ⟨by simp [hholds], by simp [hawaits], fun ha => absurd ha hadds, by simp [hpushes]⟩
  · intro key ep hep
    have hin := s.node.ipAlloc.allocated_subset (h.held.allocated key ep hep)
    have hcontains := (contains_iff s.node.ipAlloc.cidr ep.ip).mpr ⟨ep.ip, hin, rfl⟩
    exact .inl ((h.exact ep.ip hcontains _).mpr ⟨key, ep, hep, rfl, rfl⟩)
  · intro ip hip hall
    have hcontains := (contains_iff s.node.ipAlloc.cidr ip).mpr ⟨ip, hip, rfl⟩
    cases hlookup : s.endpointMap.lookup ip.normalize with
    | none => exact .inl rfl
    | some v =>
      obtain ⟨key, ep, hep, hsame, -⟩ := (h.exact ip hcontains v).mp hlookup
      have hin := s.node.ipAlloc.allocated_subset (h.held.allocated key ep hep)
      exact absurd ((normalize_inj hin hip).mp hsame) (hall key ep hep)

theorem Inv.of_run {c : PodCidr} {pool' : List PodTask} (h : s.Inv c pool)
    (hrun : Run (PodTask.next hash) Allowed ⟨s, pool⟩ ⟨s', pool'⟩) : s'.Inv c pool' :=
  pool_inv_of_run (fun _ _ _ hp h => ⟨h.cidr, h.pool.perm hp⟩) (fun _ _ _ hg h => h.step hg) hrun h

theorem Inv.settled {c : PodCidr} (h : s.Inv c []) : s.Settled := by
  obtain ⟨rfl, h⟩ := h
  refine ⟨⟨h.allocated, h.distinct⟩, fun ip hcontains v => ?_⟩
  obtain ⟨x, hx, hsame⟩ := (contains_iff s.node.ipAlloc.cidr ip).mp hcontains
  rw [← hsame]
  constructor
  · intro hv
    by_cases hall : ∀ key ep, s.node.endpoints.lookup key = some ep → ep.ip ≠ x
    · rcases h.absent x hx hall with hnone | ⟨t, ht, -⟩
      · simp [hnone] at hv
      · cases ht
    · push Not at hall
      obtain ⟨key, ep, hep, rfl⟩ := hall
      rcases h.present key ep hep with hentry | ⟨t, ht, -⟩
      · rw [hentry, some.injEq] at hv
        exact ⟨key, ep, hep, rfl, hv.symm⟩
      · cases ht
  · rintro ⟨key, ep, hep, hip, rfl⟩
    rcases h.present key ep hep with hentry | ⟨t, ht, -⟩
    · rw [← hip, hentry]
    · cases ht

/-- Once all requests are finished the entries are those of the endpoints again. -/
theorem pods_settle (hash : String → UInt64) {reqs : List PodTask} (hs : s.Settled)
    (hreq : ∀ t ∈ reqs, t.IsRequest) (hkeys : (reqs.map PodTask.key).Nodup)
    (hrun : Run (PodTask.next hash) Allowed ⟨s, reqs⟩ ⟨s', []⟩) : s'.Settled :=
  ((hs.inv hreq hkeys).of_run hrun).settled

section Example

open PodNode (exampleCidr exampleHash)

def freshServer : PodServer := ⟨PodNode.start exampleCidr [], .v4 0xc0a8000a, ∅⟩

def addPodTask (name : String) : PodTask :=
  .addPod ⟨none, true, .noClient, .ok 7⟩
    ⟨name, "default", "0123456789a", "/run/netns/" ++ name, "eth0", ∅⟩

def delWeb : PodTask := .delPod true ⟨"web", "default", "0123456789a"⟩

def webServer : PodServer :=
  (schedule (PodTask.next exampleHash) ⟨freshServer, [addPodTask "web"]⟩ [0, 0, 0, 0]).shared

theorem freshServer_settled : freshServer.Settled := by
  have hnone : ∀ key, freshServer.node.endpoints.lookup key = none := Finmap.lookup_empty
  refine ⟨⟨fun key ep hep => ?_, fun key key' ep ep' hep _ _ => ?_⟩, fun ip _ v => ?_⟩
  · simp [hnone] at hep
  · simp [hnone] at hep
  · constructor
    · intro hv
      cases hv
    · rintro ⟨key, ep, hep, -⟩
      simp [hnone] at hep

theorem finished_of_isEmpty {c : Config PodServer PodTask} (h : c.pool.isEmpty = true) :
    c = ⟨c.shared, []⟩ := by
  rw [← List.isEmpty_iff.mp h]

theorem webServer_settled : webServer.Settled := by
  have hrun : Run (PodTask.next exampleHash) Allowed ⟨freshServer, [addPodTask "web"]⟩ _ :=
    run_of_permits [0, 0, 0, 0] (by decide +kernel)
  rw [finished_of_isEmpty (c := schedule _ _ _) (by decide +kernel)] at hrun
  exact ((freshServer_settled.inv (by simp [addPodTask, PodTask.IsRequest])
    (by simp)).of_run hrun).settled

def apiForWeb (steps : List Nat) : Config PodServer PodTask :=
  schedule (PodTask.next exampleHash) ⟨webServer, [delWeb, addPodTask "api"]⟩ steps

theorem pods_settle_example :
    Run (PodTask.next exampleHash) Allowed ⟨webServer, [delWeb, addPodTask "api"]⟩
      ⟨(apiForWeb [1, 0, 1, 0, 1, 0, 1, 0]).shared, []⟩ ∧
    (apiForWeb [1, 0, 1, 0, 1, 0, 1, 0]).shared.Settled := by
  have hrun : Run (PodTask.next exampleHash) Allowed ⟨webServer, [delWeb, addPodTask "api"]⟩ _ :=
    run_of_permits [1, 0, 1, 0, 1, 0, 1, 0] (by decide +kernel)
  rw [finished_of_isEmpty (c := schedule _ _ _) (by decide +kernel)] at hrun
  refine ⟨hrun, pods_settle exampleHash webServer_settled ?_ ?_ hrun⟩
  · simp [delWeb, addPodTask, PodTask.IsRequest]
  · decide +kernel

/-- The new pod gets the address that the old one has just released, and its entry goes with
the last step of the CNI DEL of the old one. -/
theorem delPod_deletes_new_entry :
    webServer.Settled ∧
    ∃ s', Run (PodTask.next exampleHash) anyStep ⟨webServer, [delWeb, addPodTask "api"]⟩ ⟨s', []⟩ ∧
      (∃ ep, s'.node.endpoints.lookup "default/api" = some ep ∧ ep.ip = .v4 0x0af40102) ∧
      s'.endpointMap.lookup (.v4 0x0af40102) = none ∧ ¬ s'.Exact := by
  have hrun := run_schedule (PodTask.next exampleHash) [0, 0, 1, 1, 1, 1, 0, 0]
    ⟨webServer, [delWeb, addPodTask "api"]⟩
  rw [finished_of_isEmpty (c := schedule _ _ _) (by decide +kernel)] at hrun
  have hep : ∃ ep, (apiForWeb [0, 0, 1, 1, 1, 1, 0, 0]).shared.node.endpoints.lookup "default/api" =
      some ep ∧ ep.ip = .v4 0x0af40102 := by
    have hany : (Finmap.lookup "default/api"
        (apiForWeb [0, 0, 1, 1, 1, 1, 0, 0]).shared.node.endpoints).any
        (fun ep => ep.ip = .v4 0x0af40102) = true := by decide +kernel
    obtain ⟨ep, hlookup, hip⟩ := (any_eq_true _ _).mp hany
    exact ⟨ep, hlookup, of_decide_eq_true hip⟩
  have hgone : (apiForWeb [0, 0, 1, 1, 1, 1, 0, 0]).shared.endpointMap.lookup (.v4 0x0af40102) =
      none := by decide +kernel
  refine ⟨webServer_settled, _, hrun, hep, hgone, fun hexact => ?_⟩
  obtain ⟨ep, hlookup, hip⟩ := hep
  have hin : (apiForWeb [0, 0, 1, 1, 1, 1, 0, 0]).shared.node.ipAlloc.cidr.net.contains
      (.v4 0x0af40102) = true := by decide +kernel
  have hentry := (hexact (.v4 0x0af40102) hin _).mpr ⟨_, ep, hlookup, by rw [hip], rfl⟩
  exact absurd (hgone.symm.trans hentry) (by simp)

end Example

end PodServer

end NovaNet
