import NovaNet.PodAgent

/-! Several nodes with their agents. The API server holds the pod objects and sends every change
to the informer of every node, which works through its queue in order.
Clean runs keep the nodes in agreement. The invariant looks through the queues:
once a node has handled what is pending, it knows every pod of the others. -/

namespace NovaNet

open LastWrite Function Option Agent

/-- The pod addresses of each node; no address belongs to two nodes. -/
structure PodRanges where
  range : String → Set UInt32
  disjoint : ∀ m n ip, ip ∈ range m → ip ∈ range n → m = n

structure Cluster where
  agents : String → Agent
  objects : Finmap fun _ : String => PodObject
  queues : String → List PodEvent

inductive ClusterAction where
  | addPod (node : String) (env : AddPodEnv) (req : AddPodRequest) (labels : Labels)
  | updateLabels (key : String) (labels : Labels)
  | delPod (node : String) (req : DelPodRequest)
  | deletePod (key : String)
  | deliver (node : String)

namespace Cluster

def setAgent (cl : Cluster) (node : String) (a : Agent) : Cluster :=
  { cl with agents := Function.update cl.agents node a }

def publish (cl : Cluster) (ev : PodEvent) (objects : Finmap fun _ : String => PodObject) :
    Cluster :=
  { cl with objects := objects, queues := fun node => cl.queues node ++ [ev] }

def newObject (cl : Cluster) (node : String) (req : AddPodRequest) (labels : Labels)
    (ip : UInt32) : PodObject where
  namespace_ := req.podNamespace
  name := req.podName
  nodeName := node
  labels := labels
  podIP := some ip
  hostIP := some (cl.agents node).nodeIP

/-- `none` when the action is not possible. -/
def step (hash : String → UInt64) (cl : Cluster) : ClusterAction → Option Cluster
  | .addPod node env req labels =>
    if podKey req.podNamespace req.podName ∈ cl.objects then none
    else
      match (cl.agents node).addPod hash env req with
      | none => none
      | some (.error _, a) => some (cl.setAgent node a)
      | some (.ok ip, a) =>
        let obj := cl.newObject node req labels ip
        some ((cl.setAgent node a).publish (.add obj)
          (cl.objects.insert (podKey req.podNamespace req.podName) obj))
  | .updateLabels key labels =>
    match cl.objects.lookup key with
    | none => none
    | some obj =>
      let obj := { obj with labels := labels }
      some (cl.publish (.update obj) (cl.objects.insert key obj))
  | .delPod node req => some (cl.setAgent node ((cl.agents node).delPod req))
  | .deletePod key =>
    match cl.objects.lookup key with
    | none => none
    | some obj => some (cl.publish (.delete obj) (cl.objects.erase key))
  | .deliver node =>
    match cl.queues node with
    | [] => none
    | ev :: rest =>
      some { cl.setAgent node ((cl.agents node).handlePodEvent hash node ev) with
        queues := Function.update cl.queues node rest }

structure Start (cl : Cluster) : Prop where
  idAlloc : ∀ node, (cl.agents node).idAlloc = .new
  endpoints : ∀ node, (cl.agents node).endpoints = ∅
  objects : cl.objects = ∅
  queues : ∀ node, cl.queues node = []

/-- The address allocator of a node hands out free addresses of the node. -/
def Allocates (ranges : PodRanges) (cl : Cluster) : ClusterAction → Prop
  | .addPod node env _ _ =>
    ∀ ip, env.allocated = .ok ip → ip ∈ ranges.range node ∧ ip ∉ (cl.agents node).ipam
  | _ => True

end Cluster

inductive ClusterRun (hash : String → UInt64) (ranges : PodRanges)
    (ok : Cluster → ClusterAction → Prop) : Cluster → Prop
  | start {cl : Cluster} (h : cl.Start) : ClusterRun hash ranges ok cl
  | step {cl cl' : Cluster} {act : ClusterAction} (hrun : ClusterRun hash ranges ok cl)
      (halloc : cl.Allocates ranges act) (hok : ok cl act)
      (h : cl.step hash act = some cl') : ClusterRun hash ranges ok cl'

structure Running (cl : Cluster) (node key : String) (obj : PodObject) (ep : Endpoint) : Prop where
  object : cl.objects.lookup key = some obj
  endpoint : (cl.agents node).endpoints.lookup key = some ep
  node : obj.nodeName = node
  address : obj.podIP = some ep.ip

def storedIdentity (a : Agent) (ip : UInt32) : Option UInt32 :=
  (a.endpointMap.lookup ip).map EndpointValue.identity

/-- Both nodes store one identity for a pod, and pods with different labels have
different ones. -/
structure Agree (cl : Cluster) (A B : String) : Prop where
  same : ∀ key obj ep, Running cl A key obj ep →
    ∃ i, storedIdentity (cl.agents A) ep.ip = some i ∧ storedIdentity (cl.agents B) ep.ip = some i
  apart : ∀ key obj ep node key' obj' ep', Running cl A key obj ep →
    Running cl node key' obj' ep' → obj.fullLabels ≠ obj'.fullLabels →
    storedIdentity (cl.agents A) ep.ip ≠ storedIdentity (cl.agents node) ep'.ip

def LiveLabels (cl : Cluster) (node : String) (l : Labels) : Prop :=
  (∃ id, (cl.agents node).idAlloc.idToLabels.lookup id = some l) ∨
    ∃ key obj, cl.objects.lookup key = some obj ∧ obj.fullLabels = l

def CleanAction (hash : String → UInt64) (cl : Cluster) : ClusterAction → Prop
  | .addPod node env req labels =>
    env.fetched = .found labels ∧
    (∀ l, LiveLabels cl node l → l ≠ addPodLabels env.fetched req →
      (hashLabels hash l).toUInt32 ≠ (hashLabels hash (addPodLabels env.fetched req)).toUInt32) ∧
    ∀ ip, env.allocated = .ok ip → ∀ key obj, cl.objects.lookup key = some obj → obj.podIP ≠ some ip
  | .updateLabels key labels => ∀ obj, cl.objects.lookup key = some obj →
    ({ obj with labels := labels } : PodObject).fullLabels = obj.fullLabels
  | _ => True

attribute [local simp] Cluster.setAgent Cluster.step

namespace RemoteSync

variable (hash : String → UInt64) (selfNode : String)

variable {m m' : EndpointMap} {ip : UInt32}

theorem lookup_handle_congr (h : m.lookup ip = m'.lookup ip) (ev : PodEvent) :
    (handle hash selfNode m ev).lookup ip = (handle hash selfNode m' ev).lookup ip := by
  unfold handle
  split
  · exact h
  · cases ev with
    | add pod | update pod =>
      dsimp only [upsertRemoteEndpoint]
      cases pod.podIP with
      | none => exact h
      | some ip' =>
        cases pod.hostIP with
        | none => exact h
        | some host => simp only [lookup_insert_eq, h]
    | delete pod =>
      dsimp only [deleteRemoteEndpoint]
      cases pod.podIP with
      | none => exact h
      | some ip' => simp only [lookup_erase_eq, h]

def replay (q : List PodEvent) (m : EndpointMap) : EndpointMap := q.foldl (handle hash selfNode) m

theorem lookup_replay_congr (h : m.lookup ip = m'.lookup ip) (q : List PodEvent) :
    (replay hash selfNode q m).lookup ip = (replay hash selfNode q m').lookup ip := by
  induction q generalizing m m' with
  | nil => exact h
  | cons ev q ih => exact ih (lookup_handle_congr hash selfNode h ev)

theorem replay_append (q : List PodEvent) (ev : PodEvent) (m : EndpointMap) :
    replay hash selfNode (q ++ [ev]) m = handle hash selfNode (replay hash selfNode q m) ev := by
  simp [replay]

theorem lookup_handle_upsert {ev : PodEvent} {host : UInt32}
    (hev : ev = .add ev.pod ∨ ev = .update ev.pod) (hself : ev.pod.nodeName ≠ selfNode)
    (hip : ev.pod.podIP = some ip) (hhost : ev.pod.hostIP = some host) :
    (handle hash selfNode m ev).lookup ip =
      some ⟨0, (hashLabels hash ev.pod.fullLabels).toUInt32, host⟩ := by
  have hact : ¬ (ev.pod.nodeName = selfNode ∨ ev.pod.podIP = none) := by simp [hself, hip]
  unfold handle
  rw [if_neg hact]
  rcases hev with hev | hev <;> rw [hev] at hip hhost ⊢ <;>
    simp only [PodEvent.pod] at hip hhost ⊢ <;> simp [upsertRemoteEndpoint, hip, hhost]

end RemoteSync

open RemoteSync

def Known (hash : String → UInt64) (node : String) (q : List PodEvent) (m : EndpointMap)
    (obj : PodObject) : Prop :=
  ∀ ip, obj.podIP = some ip → ∃ host, (replay hash node q m).lookup ip =
    some ⟨0, (hashLabels hash obj.fullLabels).toUInt32, host⟩

variable {hash : String → UInt64} {ranges : PodRanges} {cl : Cluster}

variable {q : List PodEvent} {ev : PodEvent} {m : EndpointMap} {obj : PodObject} {node : String}

theorem Known.append_of_ne (hk : Known hash node q m obj) (hne : ev.pod.podIP ≠ obj.podIP) :
    Known hash node (q ++ [ev]) m obj := by
  intro ip hip
  rw [replay_append, lookup_handle_of_ne]
  · exact hk ip hip
  · intro _ hev
    exact hne (hev.trans hip.symm)

theorem pod_eq (hev : ev = .add obj ∨ ev = .update obj) : ev.pod = obj := by
  rcases hev with rfl | rfl <;> rfl

theorem Known.append_self (hev : ev = .add obj ∨ ev = .update obj) (hself : obj.nodeName ≠ node)
    (hhost : obj.hostIP ≠ none) : Known hash node (q ++ [ev]) m obj := by
  obtain rfl := pod_eq hev
  intro ip hip
  obtain ⟨host, hhost⟩ := ne_none_iff_exists'.mp hhost
  rw [replay_append]
  exact ⟨host, lookup_handle_upsert hash node hev hself hip hhost⟩

def InRange (ranges : PodRanges) (q : List PodEvent) : Prop :=
  ∀ ev ∈ q, ∀ ip, ev.pod.podIP = some ip → ip ∈ ranges.range ev.pod.nodeName

theorem InRange.append (hq : InRange ranges q)
    (hev : ∃ ip, ev.pod.podIP = some ip ∧ ip ∈ ranges.range ev.pod.nodeName) :
    InRange ranges (q ++ [ev]) := by
  intro ev' hmem ip' hip'
  rcases List.mem_append.mp hmem with hold | hnew
  · exact hq ev' hold ip' hip'
  · obtain ⟨ip, hip, hrange⟩ := hev
    rw [List.mem_singleton.mp hnew] at hip' ⊢
    obtain rfl : ip = ip' := some.inj (hip.symm.trans hip')
    exact hrange

variable (hash ranges cl) in
structure Cluster.Inv : Prop where
  agent : ∀ n, (cl.agents n).Inv (ranges.range n)
  hashed : ∀ n, (cl.agents n).idAlloc.Hashed hash
  address : ∀ key obj, cl.objects.lookup key = some obj →
    (∃ ip, obj.podIP = some ip ∧ ip ∈ ranges.range obj.nodeName) ∧ obj.hostIP ≠ none
  unique : ∀ key key' obj obj', cl.objects.lookup key = some obj →
    cl.objects.lookup key' = some obj' → obj.podIP = obj'.podIP → key = key'
  apart : ∀ key key' obj obj', cl.objects.lookup key = some obj →
    cl.objects.lookup key' = some obj' → obj.fullLabels ≠ obj'.fullLabels →
    (hashLabels hash obj.fullLabels).toUInt32 ≠ (hashLabels hash obj'.fullLabels).toUInt32
  identity : ∀ n key obj ep, Running cl n key obj ep → ep.identityID = hashLabels hash obj.fullLabels
  pending : ∀ n, InRange ranges (cl.queues n)
  known : ∀ n key obj, cl.objects.lookup key = some obj → obj.nodeName ≠ n →
    Known hash n (cl.queues n) (cl.agents n).endpointMap obj

namespace Cluster

theorem Start.inv (h : cl.Start) : cl.Inv hash ranges where
  agent := fun n => .of_start (h.idAlloc n) (h.endpoints n)
  hashed := by
    intro n id l hl
    simp [h.idAlloc n, Allocator.new] at hl
  address := by simp [h.objects]
  unique := by simp [h.objects]
  apart := by simp [h.objects]
  identity := by
    intro n key obj ep hrun
    have hobj := hrun.object
    simp [h.objects] at hobj
  pending := by simp [h.queues, InRange]
  known := by simp [h.objects]

variable {obj : PodObject} {key node : String} {ev : PodEvent} {ep : Endpoint}

theorem Inv.setAgent (hcl : cl.Inv hash ranges) {a : Agent} (ha : a.Inv (ranges.range node))
    (hh : a.idAlloc.Hashed hash)
    (hep : ∀ key ep, key ∈ cl.objects → a.endpoints.lookup key = some ep →
      (cl.agents node).endpoints.lookup key = some ep)
    (hmap : ∀ ip, ip ∉ ranges.range node →
      a.endpointMap.lookup ip = (cl.agents node).endpointMap.lookup ip) :
    (cl.setAgent node a).Inv hash ranges where
  agent := (forall_update_iff _ fun n (a : Agent) => a.Inv (ranges.range n)).mpr
    ⟨ha, fun n _ => hcl.agent n⟩
  hashed := (forall_update_iff _ fun _ (a : Agent) => a.idAlloc.Hashed hash).mpr
    ⟨hh, fun n _ => hcl.hashed n⟩
  address := hcl.address
  unique := hcl.unique
  apart := hcl.apart
  identity := by
    intro n key obj ep hrun
    apply hcl.identity n key obj ep
    refine ⟨hrun.object, ?_, hrun.node, hrun.address⟩
    have hlook := hrun.endpoint
    by_cases hn : n = node
    · subst hn
      simp only [Cluster.setAgent, update_self] at hlook
      exact hep key ep (Finmap.mem_of_lookup_eq_some hrun.object) hlook
    · simpa [hn] using hlook
  pending := hcl.pending
  known := by
    intro n key obj hobj hne ip hip
    obtain ⟨host, hlook⟩ := hcl.known n key obj hobj hne ip hip
    refine ⟨host, ?_⟩
    rw [← hlook]
    apply lookup_replay_congr
    -- the agent only writes addresses of its own node, and the object has another
    by_cases hn : n = node
    · subst hn
      obtain ⟨⟨ip', hip', hrange⟩, -⟩ := hcl.address key obj hobj
      obtain rfl : ip' = ip := some.inj (hip'.symm.trans hip)
      have hout : ip' ∉ ranges.range n := fun h => hne (ranges.disjoint _ _ ip' hrange h)
      simpa using hmap ip' hout
    · simp [hn]

structure Publishable (hash : String → UInt64) (ranges : PodRanges) (cl : Cluster) (key : String)
    (obj : PodObject) : Prop where
  address : (∃ ip, obj.podIP = some ip ∧ ip ∈ ranges.range obj.nodeName) ∧ obj.hostIP ≠ none
  unique : ∀ key' obj', cl.objects.lookup key' = some obj' → key' ≠ key → obj'.podIP ≠ obj.podIP
  apart : ∀ key' obj', cl.objects.lookup key' = some obj' → key' ≠ key →
    obj'.fullLabels ≠ obj.fullLabels →
    (hashLabels hash obj'.fullLabels).toUInt32 ≠ (hashLabels hash obj.fullLabels).toUInt32
  identity : ∀ ep, (cl.agents obj.nodeName).endpoints.lookup key = some ep →
    obj.podIP = some ep.ip → ep.identityID = hashLabels hash obj.fullLabels

variable (hcl : cl.Inv hash ranges)

include hcl

theorem Inv.publish (hobj : Publishable hash ranges cl key obj)
    (hev : ev = .add obj ∨ ev = .update obj) :
    (cl.publish ev (cl.objects.insert key obj)).Inv hash ranges where
  agent := hcl.agent
  hashed := hcl.hashed
  address := forall_lookup_insert hobj.address hcl.address
  unique := pairwise_lookup_insert (fun hr hip => (hr hip.symm).symm) (fun _ => rfl)
    (fun key' obj' hold hk hip => absurd hip (hobj.unique key' obj' hold hk)) hcl.unique
  apart := pairwise_lookup_insert (fun hr hl => (hr hl.symm).symm) (fun hl => absurd rfl hl)
    hobj.apart hcl.apart
  identity := by
    rintro n key' obj' ep ⟨hlook, hep, hnode, hip⟩
    rcases lookup_insert_eq_some hlook with ⟨rfl, rfl⟩ | ⟨-, hold⟩
    · subst hnode
      exact hobj.identity ep hep hip
    · exact hcl.identity n key' obj' ep ⟨hold, hep, hnode, hip⟩
  pending := by
    intro n
    apply (hcl.pending n).append
    rw [pod_eq hev]
    exact hobj.address.1
  known := by
    intro n key' obj' h hne
    -- the event is the last in every queue, so it decides for its own address
    rcases lookup_insert_eq_some h with ⟨-, rfl⟩ | ⟨hk, hold⟩
    · exact Known.append_self hev hne hobj.address.2
    · apply (hcl.known n key' obj' hold hne).append_of_ne
      rw [pod_eq hev]
      exact (hobj.unique key' obj' hold hk).symm

theorem Inv.unpublish (hobj : cl.objects.lookup key = some obj) :
    (cl.publish (.delete obj) (cl.objects.erase key)).Inv hash ranges where
  agent := hcl.agent
  hashed := hcl.hashed
  address key' obj' h := hcl.address key' obj' (lookup_erase_eq_some h).2
  unique key₁ key₂ obj₁ obj₂ h₁ h₂ := hcl.unique key₁ key₂ obj₁ obj₂
    (lookup_erase_eq_some h₁).2 (lookup_erase_eq_some h₂).2
  apart key₁ key₂ obj₁ obj₂ h₁ h₂ := hcl.apart key₁ key₂ obj₁ obj₂
    (lookup_erase_eq_some h₁).2 (lookup_erase_eq_some h₂).2
  identity n key' obj' ep h := hcl.identity n key' obj' ep
    ⟨(lookup_erase_eq_some h.object).2, h.endpoint, h.node, h.address⟩
  pending n := (hcl.pending n).append (hcl.address key obj hobj).1
  known n key' obj' h hne := by
    obtain ⟨hk, hlook⟩ := lookup_erase_eq_some h
    apply (hcl.known n key' obj' hlook hne).append_of_ne
    exact fun hip => hk (hcl.unique key' key obj' obj hlook hobj hip.symm)

theorem Inv.deliver {rest : List PodEvent} (hq : cl.queues node = ev :: rest) :
    ({ cl.setAgent node ((cl.agents node).handlePodEvent hash node ev) with
      queues := update cl.queues node rest } : Cluster).Inv hash ranges where
  agent := by
    refine (forall_update_iff _ fun n (a : Agent) => a.Inv (ranges.range n)).mpr
      ⟨(hcl.agent node).handlePodEvent ?_, fun n _ => hcl.agent n⟩
    intro hself ip hrange hip
    have hmem : ev ∈ cl.queues node := by simp [hq]
    exact hself (ranges.disjoint _ _ ip (hcl.pending node ev hmem ip hip) hrange)
  hashed := (forall_update_iff _ fun _ (a : Agent) => a.idAlloc.Hashed hash).mpr
    ⟨hcl.hashed node, fun n _ => hcl.hashed n⟩
  address := hcl.address
  unique := hcl.unique
  apart := hcl.apart
  identity := by
    rintro n key obj ep ⟨hlook, hep, hnode, hip⟩
    refine hcl.identity n key obj ep ⟨hlook, ?_, hnode, hip⟩
    by_cases hn : n = node
    · subst hn
      simpa [handlePodEvent] using hep
    · simpa [hn] using hep
  pending := by
    refine (forall_update_iff _ fun _ q => InRange ranges q).mpr ⟨?_, fun n _ => hcl.pending n⟩
    intro ev' hmem
    exact hcl.pending node ev' (hq ▸ List.mem_cons_of_mem ev hmem)
  known := by
    intro n key obj hobj hne
    have hknown := hcl.known n key obj hobj hne
    by_cases hn : n = node
    · subst hn
      rw [hq] at hknown
      -- what is handled now is what the replay began with
      simp only [Cluster.setAgent, update_self, handlePodEvent]
      exact hknown
    · simpa [hn] using hknown

theorem Inv.delPod (node : String) (req : DelPodRequest) :
    (cl.setAgent node ((cl.agents node).delPod req)).Inv hash ranges := by
  have ha := hcl.agent node
  apply hcl.setAgent (ha.delPod req)
  · exact fun id l hl => hcl.hashed node id l (lookup_delPod_of_mem hl)
  · exact fun key ep _ hep => lookup_endpoints_delPod hep
  · exact fun ip hout => ha.lookup_endpointMap_delPod req hout

section Add

variable {node : String} {env : AddPodEnv} {req : AddPodRequest} {labels : Labels}
  {r : Except GrpcError UInt32} {a : Agent}

theorem Inv.hash_of_clean (hclean : CleanAction hash cl (.addPod node env req labels)) {id : UInt64}
    {idAlloc : Allocator}
    (hid : (cl.agents node).idAlloc.allocateIdentity hash (addPodLabels env.fetched req) =
      some (id, idAlloc)) :
    id = hashLabels hash (addPodLabels env.fetched req) ∧ idAlloc.Hashed hash := by
  apply Allocator.allocateIdentity_hash (hcl.agent node).alloc (hcl.hashed node) _ hid
  intro id' l hl hne heq
  have hne' : l ≠ addPodLabels env.fetched req := fun he => hne (congrArg canonicalLabels he)
  exact hclean.2.1 l (.inl ⟨id', hl⟩) hne' (congrArg UInt64.toUInt32 heq)

theorem Inv.setAgent_addPod (halloc : cl.Allocates ranges (.addPod node env req labels))
    (hclean : CleanAction hash cl (.addPod node env req labels)) (hkey : req.key ∉ cl.objects)
    (h : (cl.agents node).addPod hash env req = some (r, a)) :
    (cl.setAgent node a).Inv hash ranges := by
  have ha : a.Inv (ranges.range node) := (hcl.agent node).addPod halloc h
  have hmap : ∀ ip, ip ∉ ranges.range node →
      a.endpointMap.lookup ip = (cl.agents node).endpointMap.lookup ip :=
    fun ip hout => lookup_endpointMap_addPod (fun ip h => (halloc ip h).1) h hout
  rcases addPod_cases h with ⟨e, -, rfl⟩ | ⟨e, ip, id, idAlloc, -, -, hid, rfl⟩ |
    ⟨ip, id, idAlloc, ifIndex, -, -, hid, rfl⟩
  · exact hcl.setAgent ha (hcl.hashed node) (fun _ _ _ h => h) hmap
  · have hh := Allocator.hashed_removeIdentity (hcl.hash_of_clean hclean hid).2 id
    exact hcl.setAgent ha hh (fun _ _ _ h => h) hmap
  · refine hcl.setAgent ha (hcl.hash_of_clean hclean hid).2 ?_ hmap
    intro key ep hmem hep
    rcases lookup_putEndpoint hep with ⟨rfl, -⟩ | ⟨-, hold⟩
    · exact absurd hmem hkey
    · exact hold

theorem Inv.publishable_addPod {ip : UInt32}
    (halloc : cl.Allocates ranges (.addPod node env req labels))
    (hclean : CleanAction hash cl (.addPod node env req labels))
    (h : (cl.agents node).addPod hash env req = some (.ok ip, a)) :
    Publishable hash ranges (cl.setAgent node a) req.key (cl.newObject node req labels ip) := by
  have hlabels : (cl.newObject node req labels ip).fullLabels = addPodLabels env.fetched req := by
    rw [hclean.1]
    rfl
  rcases addPod_cases h with ⟨e, he, -⟩ | ⟨e, _, _, _, he, -⟩ |
    ⟨ip', id, idAlloc, ifIndex, hr, hip, hid, rfl⟩
  · cases he
  · cases he
  · obtain rfl : ip = ip' := by simpa using hr
    refine ⟨⟨⟨ip, rfl, (halloc ip hip).1⟩, some_ne_none _⟩, ?_, ?_, ?_⟩
    · exact fun key obj hobj _ => hclean.2.2 ip hip key obj hobj
    · intro key obj hobj _ hne
      rw [hlabels] at hne ⊢
      exact hclean.2.1 obj.fullLabels (.inr ⟨key, obj, hobj, rfl⟩) hne
    · intro ep hep _
      simp only [Cluster.setAgent, newObject, update_self] at hep
      rw [hlabels, ← (hcl.hash_of_clean hclean hid).1]
      rcases lookup_putEndpoint hep with ⟨-, -, -, hnew⟩ | ⟨hne, -⟩
      · exact hnew
      · exact absurd rfl hne

end Add

theorem Inv.publishable_updateLabels {labels : Labels} (hobj : cl.objects.lookup key = some obj)
    (hsame : ({ obj with labels := labels } : PodObject).fullLabels = obj.fullLabels) :
    Publishable hash ranges cl key { obj with labels := labels } where
  address := hcl.address key obj hobj
  unique := fun key' obj' hobj' hk hip => hk (hcl.unique key' key obj' obj hobj' hobj hip)
  apart := by
    intro key' obj' hobj' _ hne
    rw [hsame] at hne ⊢
    exact hcl.apart key' key obj' obj hobj' hobj hne
  identity := by
    intro ep hep hip
    rw [hsame]
    exact hcl.identity obj.nodeName key obj ep ⟨hobj, hep, rfl, hip⟩

theorem Inv.step {act : ClusterAction} {cl' : Cluster} (halloc : cl.Allocates ranges act)
    (hclean : CleanAction hash cl act) (h : cl.step hash act = some cl') : cl'.Inv hash ranges := by
  cases act with
  | addPod node env req labels =>
    by_cases hkey : req.key ∈ cl.objects
    · simp [hkey] at h
    · cases hadd : (cl.agents node).addPod hash env req with
      | none => simp [hkey, hadd] at h
      | some p =>
        obtain ⟨r, a⟩ := p
        have hset := hcl.setAgent_addPod halloc hclean hkey hadd
        cases r with
        | error e =>
          obtain rfl : cl.setAgent node a = cl' := by simpa [hkey, hadd] using h
          exact hset
        | ok ip =>
          simp only [Cluster.step, if_neg hkey, hadd, some.injEq] at h
          rw [← h]
          exact hset.publish (hcl.publishable_addPod halloc hclean hadd) (.inl rfl)
  | updateLabels key labels =>
    cases hobj : cl.objects.lookup key with
    | none => simp [hobj] at h
    | some obj =>
      simp only [Cluster.step, hobj, some.injEq] at h
      rw [← h]
      exact hcl.publish (hcl.publishable_updateLabels hobj (hclean obj hobj)) (.inr rfl)
  | delPod node req =>
    obtain rfl : cl.setAgent node ((cl.agents node).delPod req) = cl' := some.inj h
    exact hcl.delPod node req
  | deletePod key =>
    cases hobj : cl.objects.lookup key with
    | none => simp [hobj] at h
    | some obj =>
      simp only [Cluster.step, hobj, some.injEq] at h
      rw [← h]
      exact hcl.unpublish hobj
  | deliver node =>
    cases hq : cl.queues node with
    | nil => simp [hq] at h
    | cons ev rest =>
      simp only [Cluster.step, hq, some.injEq] at h
      rw [← h]
      exact hcl.deliver hq

omit hcl in
theorem Inv.run (hrun : ClusterRun hash ranges (CleanAction hash) cl) : cl.Inv hash ranges := by
  induction hrun with
  | start h => exact h.inv
  | step _ halloc hclean h ih => exact ih.step halloc hclean h

theorem Inv.storedIdentity_own (h : Running cl node key obj ep) :
    storedIdentity (cl.agents node) ep.ip = some (hashLabels hash obj.fullLabels).toUInt32 := by
  unfold storedIdentity
  rw [(hcl.agent node).mapped key ep h.endpoint, hcl.identity node key obj ep h]
  rfl

theorem Inv.storedIdentity_other {A B : String} (h : Running cl A key obj ep) (hne : A ≠ B)
    (hquiet : cl.queues B = []) :
    storedIdentity (cl.agents B) ep.ip = some (hashLabels hash obj.fullLabels).toUInt32 := by
  have hother : obj.nodeName ≠ B := by
    rwa [h.node]
  obtain ⟨host, hlook⟩ := hcl.known B key obj h.object hother ep.ip h.address
  rw [hquiet] at hlook
  change (cl.agents B).endpointMap.lookup ep.ip = _ at hlook
  rw [storedIdentity, hlook]
  rfl

end Cluster

theorem clusterRun_agree {hash : String → UInt64} {ranges : PodRanges} {cl : Cluster}
    (hrun : ClusterRun hash ranges (CleanAction hash) cl) {A B : String} (hne : A ≠ B)
    (hquiet : cl.queues B = []) : Agree cl A B where
  same := by
    intro key obj ep h
    have hcl := Cluster.Inv.run hrun
    exact ⟨_, hcl.storedIdentity_own h, hcl.storedIdentity_other h hne hquiet⟩
  apart := by
    intro key obj ep node key' obj' ep' h h' hl
    have hcl := Cluster.Inv.run hrun
    rw [hcl.storedIdentity_own h, hcl.storedIdentity_own h', ne_eq, some.injEq]
    exact hcl.apart key key' obj obj' h.object h'.object hl

section Example

def Cluster.after (hash : String → UInt64) (cl : Cluster) (act : ClusterAction) : Cluster :=
  (cl.step hash act).getD cl

theorem ClusterRun.after {hash : String → UInt64} {ranges : PodRanges}
    {ok : Cluster → ClusterAction → Prop} {cl : Cluster} {act : ClusterAction}
    (hrun : ClusterRun hash ranges ok cl) (halloc : cl.Allocates ranges act) (hok : ok cl act) :
    ClusterRun hash ranges ok (cl.after hash act) := by
  unfold Cluster.after
  cases h : cl.step hash act with
  | none => exact hrun
  | some cl' => exact .step hrun halloc hok h

def Cluster.settle (cl : Cluster) (act : ClusterAction) : Cluster :=
  ((cl.after hashCanonical act).after hashCanonical (.deliver "node-a")).after hashCanonical
    (.deliver "node-b")

theorem ClusterRun.settle {ranges : PodRanges} {ok : Cluster → ClusterAction → Prop} {cl : Cluster}
    {act : ClusterAction} (hrun : ClusterRun hashCanonical ranges ok cl)
    (halloc : cl.Allocates ranges act) (hok : ok cl act) (hdeliver : ∀ cl n, ok cl (.deliver n)) :
    ClusterRun hashCanonical ranges ok (cl.settle act) :=
  .after (.after (.after hrun halloc hok) trivial (hdeliver _ _)) trivial (hdeliver _ _)

def twoNodes : PodRanges where
  range n := { ip | n = "node-a" ∧ ip = 0x0a000005 ∨ n = "node-b" ∧ ip = 0x0a020007 }
  disjoint := by
    rintro m n ip (⟨rfl, rfl⟩ | ⟨rfl, rfl⟩) (⟨rfl, h⟩ | ⟨rfl, h⟩)
    · rfl
    · exact absurd h (by decide)
    · exact absurd h (by decide)
    · rfl

def freshCluster : Cluster := ⟨fun _ => ⟨0x0a010001, ∅, .new, ∅, ∅⟩, ∅, fun _ => []⟩

def webLabels : Labels := (∅ : Labels).insert "app" "web"

def apiLabels : Labels := (∅ : Labels).insert "app" "api"

def addWeb : ClusterAction := .addPod "node-a" ⟨.ok 0x0a000005, .found webLabels, .ok 7⟩
  ⟨"web-1", "default", "0123456789ab", "/var/run/netns/web-1", "eth0", ∅⟩ webLabels

def addApi : ClusterAction := .addPod "node-b" ⟨.ok 0x0a020007, .found apiLabels, .ok 8⟩
  ⟨"api-1", "default", "0123456789ab", "/var/run/netns/api-1", "eth0", ∅⟩ apiLabels

def webAdded : Cluster := freshCluster.settle addWeb

def webRelabelled : Cluster := webAdded.settle (.updateLabels "default/web-1" apiLabels)

theorem webAdded_run {ok : Cluster → ClusterAction → Prop} (hadd : ok freshCluster addWeb)
    (hdeliver : ∀ cl n, ok cl (.deliver n)) : ClusterRun hashCanonical twoNodes ok webAdded := by
  refine .settle (.start ⟨fun _ => rfl, fun _ => rfl, rfl, fun _ => rfl⟩) ?_ hadd hdeliver
  intro ip hip
  obtain rfl : 0x0a000005 = ip := by simpa using hip
  exact ⟨.inl ⟨rfl, rfl⟩, Finset.notMem_empty _⟩

theorem addWeb_clean : CleanAction hashCanonical freshCluster addWeb := by
  refine ⟨rfl, ?_, ?_⟩
  · rintro l (⟨id, hid⟩ | ⟨key, obj, hobj, -⟩)
    · simp [freshCluster, Allocator.new] at hid
    · simp [freshCluster] at hobj
  · intro ip _ key obj hobj
    simp [freshCluster] at hobj

def webEndpoint : Endpoint :=
  ⟨"web-1", "default", "0123456789ab", 0x0a000005, 7,
    hashLabels hashCanonical (webLabels.insert namespaceLabel "default")⟩

def webPod (labels : Labels) : PodObject :=
  ⟨"default", "web-1", "node-a", labels, some 0x0a000005, some 0x0a010001⟩

theorem addApi_clean : CleanAction hashCanonical webAdded addApi := by
  have hobjects : ∀ key obj, webAdded.objects.lookup key = some obj → obj = webPod webLabels :=
    forall_lookup_insert rfl fun _ _ h => by cases h
  refine ⟨rfl, ?_, ?_⟩
  · rintro l (⟨id, hid⟩ | ⟨key, obj, hobj, rfl⟩) -
    · have hnew : (webAdded.agents "node-b").idAlloc = .new := rfl
      simp [hnew, Allocator.new] at hid
    · rw [hobjects key obj hobj]
      decide +kernel
  · rintro ip hip key obj hobj
    rw [hobjects key obj hobj]
    cases hip
    decide

theorem clusterRun_agree_bothAdded :
    Running (webAdded.settle addApi) "node-a" "default/web-1" (webPod webLabels) webEndpoint ∧
      "default/api-1" ∈ (webAdded.settle addApi).objects ∧
      Agree (webAdded.settle addApi) "node-a" "node-b" := by
  refine ⟨⟨by rfl, by decide +kernel, rfl, rfl⟩, by decide +kernel, clusterRun_agree
    (.settle (webAdded_run addWeb_clean fun _ _ => trivial) ?_ addApi_clean fun _ _ => trivial)
    (by decide) (by rfl)⟩
  intro ip hip
  obtain rfl : 0x0a020007 = ip := by simpa using hip
  exact ⟨.inr ⟨rfl, rfl⟩, by decide +kernel⟩

theorem webRelabelled_disagree :
    ClusterRun hashCanonical twoNodes (fun _ _ => True) webRelabelled ∧
    webRelabelled.queues "node-a" = [] ∧ webRelabelled.queues "node-b" = [] ∧
    Running webRelabelled "node-a" "default/web-1" (webPod apiLabels) webEndpoint ∧
    ¬ Agree webRelabelled "node-a" "node-b" := by
  have hrunning : Running webRelabelled "node-a" "default/web-1" (webPod apiLabels) webEndpoint :=
    ⟨by rfl, by decide +kernel, rfl, rfl⟩
  refine ⟨?_, by rfl, by rfl, hrunning, ?_⟩
  · have hrun : ClusterRun hashCanonical twoNodes (fun _ _ => True) webAdded :=
      webAdded_run trivial fun _ _ => trivial
    exact hrun.settle trivial trivial fun _ _ => trivial
  · intro hagree
    obtain ⟨i, hA, hB⟩ := hagree.same _ _ _ hrunning
    have hdiff : storedIdentity (webRelabelled.agents "node-a") webEndpoint.ip ≠
        storedIdentity (webRelabelled.agents "node-b") webEndpoint.ip := by decide +kernel
    exact hdiff (hA.trans hB.symm)

end Example

end NovaNet
