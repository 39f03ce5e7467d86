import NovaNet.Interleave
import NovaNet.OrderIndependence
import NovaNet.PodAgent
import NovaNet.SyncHistory

/-! Recompilation of the policies as the agent runs it: the handlers of policy events and the CNI
requests are tasks of their own, and no lock covers more than one step.
When all handlers have finished, POLICIES should hold what the final policies
compile to for the final identities. A run gets there when every callback that comes
too late, and every identity that goes away, is followed by another recompilation. -/

namespace NovaNet

open Interleave LastWrite

abbrev PolicyStore := Finmap fun _ : String => NetworkPolicy

def PolicyStore.list (so : IterOrder String) (store : PolicyStore) : List NetworkPolicy :=
  (so.enum [] store.keys).filterMap store.lookup

inductive PolicyEvent where
  | set (key : String) (np : NetworkPolicy)
  | delete (key : String)

def PolicyEvent.apply (store : PolicyStore) : PolicyEvent → PolicyStore
  | .set key np => store.insert key np
  | .delete key => store.erase key

structure Orders where
  store : IterOrder String
  identities : IterOrder UInt64
  policyKeys : IterOrder PolicyKey

structure PolicyAgent where
  store : PolicyStore
  agent : Agent
  policies : PolicyMap

def Compiler.withIdentities (c : Compiler) (a : Allocator) : Compiler :=
  { c with identityAllocator := a }

/-- What a handler has left to do. `undoAdd`, `putEndpoint` and `releasePod` are the
later parts of the CNI requests, `compile` and `onPolicyChange` those of `recompileAll`. -/
inductive PolicyTask where
  | policyEvent (ev : PolicyEvent) (o : Orders)
  | addPod (env : AddPodEnv) (req : AddPodRequest) (o : Orders)
  | undoAdd (ip : UInt32) (id : UInt64)
  | putEndpoint (req : AddPodRequest) (ip ifIndex : UInt32) (id : UInt64) (o : Orders)
  | delPod (req : DelPodRequest)
  | releasePod (ep : Endpoint)
  | recompileAll (o : Orders)
  | compile (policies : List NetworkPolicy) (identities : Allocator) (o : Orders)
  | onPolicyChange (rules : List CompiledRule) (o : Orders)

namespace Agent

def takePod (a : Agent) (ip : UInt32) (idAlloc : Allocator) : Agent :=
  { a with ipam := insert ip a.ipam, idAlloc := idAlloc }

def undoAdd (a : Agent) (ip : UInt32) (id : UInt64) : Agent :=
  { a with ipam := a.ipam.erase ip, idAlloc := a.idAlloc.removeIdentity id }

def forgetEndpoint (a : Agent) (key : String) : Agent :=
  { a with endpoints := a.endpoints.erase key }

def releasePod (a : Agent) (ep : Endpoint) : Agent :=
  { a with
    ipam := a.ipam.erase ep.ip
    idAlloc := a.idAlloc.removeIdentity ep.identityID
    endpointMap := a.endpointMap.erase ep.ip }

end Agent

namespace PolicyTask

def addPodRest (env : AddPodEnv) (req : AddPodRequest) (o : Orders) (ip : UInt32) (id : UInt64) :
    PolicyTask :=
  match env.ifindex with
  | .error _ => .undoAdd ip id
  | .ok ifIndex => .putEndpoint req ip ifIndex id o

/-- A request whose labels get no identity probes forever. -/
def next (c : Compiler) : PolicyTask → PolicyAgent → PolicyAgent × Option PolicyTask
  | .policyEvent ev o, s => ({ s with store := ev.apply s.store }, some (.recompileAll o))
  | .addPod env req o, s =>
    match validateAddPodRequest req, env.allocated with
    | .error _, _ => (s, none)
    | .ok _, .error _ => (s, none)
    | .ok _, .ok ip =>
      match s.agent.idAlloc.allocateIdentity c.hash (addPodLabels env.fetched req) with
      | none => (s, some (.addPod env req o))
      | some (id, idAlloc) =>
        ({ s with agent := s.agent.takePod ip idAlloc }, some (addPodRest env req o ip id))
  | .undoAdd ip id, s => ({ s with agent := s.agent.undoAdd ip id }, none)
  | .putEndpoint req ip ifIndex id o, s =>
    ({ s with agent := s.agent.putEndpoint req ip ifIndex id s.agent.idAlloc }, some (.recompileAll o))
  | .delPod req, s =>
    match s.agent.endpoints.lookup (podKey req.podNamespace req.podName) with
    | none => (s, none)
    | some ep =>
      if ep.containerID ≠ req.containerId then (s, none)
      else
        ({ s with agent := s.agent.forgetEndpoint (podKey req.podNamespace req.podName) },
          some (.releasePod ep))
  | .releasePod ep, s => ({ s with agent := s.agent.releasePod ep }, none)
  | .recompileAll o, s => (s, some (.compile (s.store.list o.store) s.agent.idAlloc o))
  | .compile policies identities o, s =>
    (s, some (.onPolicyChange ((c.withIdentities identities).compileAll o.identities policies) o))
  | .onPolicyChange rules o, s =>
    ({ s with policies := syncRules o.policyKeys s.policies rules }, none)

end PolicyTask

namespace Compiler

variable {c : Compiler} {o : IterOrder UInt64} {policies : List NetworkPolicy} {k : PolicyKey}
  {v : PolicyValue}

/-- Some target of the policy gets an allow entry at the key, if only for a while. -/
def WritesAllow (c : Compiler) (np : NetworkPolicy) (k : PolicyKey) : Prop :=
  ∃ t, c.Targets np t ∧ ∃ pt, c.Opens np pt t k

def WritesDeny (c : Compiler) (np : NetworkPolicy) (k : PolicyKey) : Prop :=
  ∃ t, c.Targets np t ∧ ∃ pt, Denies np pt t k

theorem LeavesAllow.writes {np : NetworkPolicy} (h : c.LeavesAllow np k) : c.WritesAllow np k := by
  obtain ⟨t, ht, he | ⟨hi, -⟩⟩ := h
  · exact ⟨t, ht, _, he⟩
  · exact ⟨t, ht, _, hi⟩

theorem LeavesDeny.writes {np : NetworkPolicy} (h : c.LeavesDeny np k) : c.WritesDeny np k := by
  obtain ⟨t, ht, he | ⟨hi, -⟩⟩ := h
  · exact ⟨t, ht, _, he⟩
  · exact ⟨t, ht, _, hi⟩

theorem mem_installed_compilePolicy (site : List Nat) (np : NetworkPolicy) :
    (k, v) ∈ installedEntries (c.compilePolicy o site np) ↔
      v = allowValue ∧ c.WritesAllow np k ∨ v = denyValue ∧ c.WritesDeny np k := by
  have htarget : ∀ j t, (k, v) ∈ installedEntries
      (c.compileIngress o (j :: 1 :: site) np t ++ c.compileEgress o (j :: 1 :: site) np t) ↔
      v = allowValue ∧ (∃ pt, c.Opens np pt t k) ∨ v = denyValue ∧ ∃ pt, Denies np pt t k := by
    intro j t
    rw [installedEntries_append, List.mem_append, mem_installed_ingress, mem_installed_egress,
      PolicyType.exists_iff, PolicyType.exists_iff]
    tauto
  rw [compilePolicy, installedEntries_mapIdx, IterOrder.mem_flatten_mapIdx htarget]
  simp only [mem_targetIdentities, WritesAllow, WritesDeny]
  constructor
  · rintro ⟨t, ht, ⟨hv, h⟩ | ⟨hv, h⟩⟩
    · exact .inl ⟨hv, t, ht, h⟩
    · exact .inr ⟨hv, t, ht, h⟩
  · rintro (⟨hv, t, ht, h⟩ | ⟨hv, t, ht, h⟩)
    · exact ⟨t, ht, .inl ⟨hv, h⟩⟩
    · exact ⟨t, ht, .inr ⟨hv, h⟩⟩

theorem mem_installed_compileAll :
    (k, v) ∈ installedEntries (c.compileAll o policies) ↔
      ∃ np ∈ policies, v = allowValue ∧ c.WritesAllow np k ∨ v = denyValue ∧ c.WritesDeny np k := by
  rw [compileAll, installedEntries_mapIdx]
  exact IterOrder.mem_flatten_mapIdx (fun i np => mem_installed_compilePolicy [i] np) _

def ConflictFree (c : Compiler) (policies : List NetworkPolicy) : Prop :=
  ∀ np ∈ policies, ∀ np' ∈ policies, ∀ k, ¬ (c.WritesAllow np k ∧ c.WritesDeny np' k)

theorem ConflictFree.consistent (h : c.ConflictFree policies) :
    Consistent (installedEntries (c.compileAll o policies)) := by
  rintro ⟨k, v⟩ he ⟨k', v'⟩ he' hk
  obtain rfl : k = k' := hk
  obtain ⟨np, hnp, hw⟩ := mem_installed_compileAll.mp he
  obtain ⟨np', hnp', hw'⟩ := mem_installed_compileAll.mp he'
  rcases hw with ⟨rfl, ha⟩ | ⟨rfl, hd⟩ <;> rcases hw' with ⟨rfl, ha'⟩ | ⟨rfl, hd'⟩
  · rfl
  · exact absurd ⟨ha, hd'⟩ (h np hnp np' hnp' k)
  · exact absurd ⟨ha', hd⟩ (h np' hnp' np hnp k)
  · rfl

theorem ConflictFree.syncRules_eq (h : c.ConflictFree policies) {policies' : List NetworkPolicy}
    (hp : policies.Perm policies') (m : PolicyMap) (o o' : IterOrder UInt64)
    (ok ok' : IterOrder PolicyKey) :
    syncRules ok m (c.compileAll o policies) = c.installed o' ok' policies' := by
  have hempty : syncRules ok m (c.compileAll o policies) = c.installed o ok policies := by
    rw [installed, syncRules, syncRules, RealMaps.syncPolicies_eq_assign ok m h.consistent,
      RealMaps.syncPolicies_empty]
  rw [hempty]
  apply Finmap.ext_lookup
  intro k
  refine lookup_eq_of_disjoint ?_ hp
  rintro np hnp np' hnp' ⟨ha, hd⟩
  exact h np (hp.mem_iff.mpr hnp) np' (hp.mem_iff.mpr hnp') k ⟨ha.writes, hd.writes⟩

theorem compileAll_withIdentities (c : Compiler) {a b : Allocator}
    (h : a.idToLabels = b.idToLabels) (o : IterOrder UInt64) (policies : List NetworkPolicy) :
    (c.withIdentities a).compileAll o policies = (c.withIdentities b).compileAll o policies := by
  obtain ⟨ids, refs, byLabels⟩ := a
  obtain ⟨ids', refs', byLabels'⟩ := b
  obtain rfl : ids = ids' := h
  rfl

end Compiler

theorem PolicyStore.list_perm (store : PolicyStore) (so so' : IterOrder String) :
    (store.list so).Perm (store.list so') := by
  apply List.Perm.filterMap
  refine (List.perm_ext_iff_of_nodup (so.nodup_enum _ _) (so'.nodup_enum _ _)).mpr ?_
  simp

namespace PolicyAgent

variable (c : Compiler) (s : PolicyAgent)

abbrev compiler : Compiler := c.withIdentities s.agent.idAlloc

/-- POLICIES is what the store compiles to for the live identities, synced into an
empty map. -/
def Converged : Prop :=
  ∀ o : Orders, s.policies = (s.compiler c).installed o.identities o.policyKeys (s.store.list o.store)

def Current (rules : List CompiledRule) : Prop :=
  ∃ so o, rules = (s.compiler c).compileAll o (s.store.list so)

def ConflictFree : Prop := ∀ so, (s.compiler c).ConflictFree (s.store.list so)

end PolicyAgent

namespace PolicyTask

def WillRead : PolicyTask → Prop
  | .policyEvent _ _ | .putEndpoint _ _ _ _ _ | .recompileAll _ => True
  | .addPod env req _ =>
    (validateAddPodRequest req).isOk ∧ env.allocated.isOk ∧ env.ifindex.isOk
  | _ => False

/-- The task will write, or has compiled, rules for the present store and identities. -/
def Owes (c : Compiler) (s : PolicyAgent) : PolicyTask → Prop
  | .compile policies identities _ =>
    (∃ so, policies = s.store.list so) ∧ identities.idToLabels = s.agent.idAlloc.idToLabels
  | .onPolicyChange rules _ => s.Current c rules
  | t => t.WillRead

def StaysAlive (s : PolicyAgent) (id : UInt64) : Prop :=
  ∀ n, s.agent.idAlloc.refCount.lookup id = some n → 1 < n

/-- A callback brings current rules without conflicts, or another task will. An
identity comes or goes without a recompilation only if another task has yet to read. -/
def Clean (c : Compiler) (s : PolicyAgent) (t : PolicyTask) (others : List PolicyTask) : Prop :=
  match t with
  | .onPolicyChange rules _ =>
    (s.Current c rules ∧ s.ConflictFree c) ∨ ∃ u ∈ others, u.Owes c s
  | .addPod env req o =>
    (PolicyTask.addPod env req o).WillRead ∨
      canonicalLabels (addPodLabels env.fetched req) ∈ s.agent.idAlloc.labelsToID ∨
      ∃ u ∈ others, u.WillRead
  | .undoAdd _ id => StaysAlive s id ∨ ∃ u ∈ others, u.WillRead
  | .releasePod ep => StaysAlive s ep.identityID ∨ ∃ u ∈ others, u.WillRead
  | _ => True

variable {c : Compiler} {s s' : PolicyAgent}

variable {others : List PolicyTask} {t : PolicyTask} {req : AddPodRequest} {a : Allocator}
  {env : AddPodEnv} {o : Orders} {id : UInt64}

theorem WillRead.owes (h : t.WillRead) : t.Owes c s := by
  cases t with
  | compile _ _ _ | onPolicyChange _ _ => exact h.elim
  | _ => exact h

theorem current_congr (hstore : s'.store = s.store)
    (hids : s'.agent.idAlloc.idToLabels = s.agent.idAlloc.idToLabels) (rules : List CompiledRule) :
    s'.Current c rules ↔ s.Current c rules := by
  simp only [PolicyAgent.Current, hstore, c.compileAll_withIdentities hids]

theorem owes_congr (hstore : s'.store = s.store)
    (hids : s'.agent.idAlloc.idToLabels = s.agent.idAlloc.idToLabels) (t : PolicyTask) :
    t.Owes c s' ↔ t.Owes c s := by
  cases t with
  | compile policies identities o => simp only [Owes, hstore, hids]
  | onPolicyChange rules o => exact current_congr hstore hids rules
  | _ => exact Iff.rfl

theorem converged_congr (hstore : s'.store = s.store)
    (hids : s'.agent.idAlloc.idToLabels = s.agent.idAlloc.idToLabels)
    (hpolicies : s'.policies = s.policies) : s'.Converged c ↔ s.Converged c := by
  simp only [PolicyAgent.Converged, Compiler.installed, hstore, hpolicies,
    c.compileAll_withIdentities hids]

theorem idToLabels_removeIdentity (h : ∀ n, a.refCount.lookup id = some n → 1 < n) :
    (a.removeIdentity id).idToLabels = a.idToLabels := by
  unfold Allocator.removeIdentity
  cases hn : a.refCount.lookup id with
  | none => rfl
  | some n =>
    have hlt : ¬ n ≤ 1 := by
      have := h n hn
      omega
    simp only [if_neg hlt]

theorem idToLabels_allocateIdentity {a' : Allocator} {hash : String → UInt64} {lbls : Labels}
    (hmem : canonicalLabels lbls ∈ a.labelsToID)
    (h : a.allocateIdentity hash lbls = some (id, a')) : a'.idToLabels = a.idToLabels := by
  obtain ⟨held, hheld⟩ := Finmap.mem_iff.mp hmem
  simp only [Allocator.allocateIdentity, hheld, Option.some.injEq, Prod.mk.injEq] at h
  obtain ⟨-, rfl⟩ := h
  rfl

theorem keeps_of_same (hstore : (t.next c s).1.store = s.store)
    (hids : (t.next c s).1.agent.idAlloc.idToLabels = s.agent.idAlloc.idToLabels)
    (hpolicies : (t.next c s).1.policies = s.policies)
    (hself : t.Owes c s → ∃ u ∈ (t.next c s).2, u.Owes c (t.next c s).1) :
    Keeps (next c) (PolicyAgent.Converged c) (Owes c) s t others :=
  .passes (converged_congr hstore hids hpolicies).mpr
    (fun u hu => (owes_congr hstore hids u).mpr hu) hself

theorem next_addPod (c : Compiler) (s : PolicyAgent) (env : AddPodEnv) (req : AddPodRequest)
    (o : Orders) :
    (¬ (PolicyTask.addPod env req o).WillRead ∧ next c (.addPod env req o) s = (s, none)) ∨
    next c (.addPod env req o) s = (s, some (.addPod env req o)) ∨
    ∃ ip id idAlloc,
      s.agent.idAlloc.allocateIdentity c.hash (addPodLabels env.fetched req) = some (id, idAlloc) ∧
      next c (.addPod env req o) s =
        ({ s with agent := s.agent.takePod ip idAlloc }, some (addPodRest env req o ip id)) := by
  cases hv : validateAddPodRequest req with
  | error e => exact .inl ⟨by simp [WillRead, hv, Except.isOk, Except.toBool], by simp [next, hv]⟩
  | ok u =>
    cases hip : env.allocated with
    | error e =>
      exact .inl ⟨by simp [WillRead, hip, Except.isOk, Except.toBool], by simp [next, hv, hip]⟩
    | ok ip =>
      cases hid : s.agent.idAlloc.allocateIdentity c.hash (addPodLabels env.fetched req) with
      | none => exact .inr (.inl (by simp [next, hv, hip, hid]))
      | some p => exact .inr (.inr ⟨ip, p.1, p.2, rfl, by simp [next, hv, hip, hid]⟩)

theorem WillRead.addPodRest (h : (PolicyTask.addPod env req o).WillRead) (ip : UInt32)
    (id : UInt64) : (addPodRest env req o ip id).WillRead := by
  obtain ⟨-, -, hif⟩ := h
  unfold PolicyTask.addPodRest
  cases hi : env.ifindex with
  | error e => simp [hi, Except.isOk, Except.toBool] at hif
  | ok ifIndex => exact trivial

theorem keeps_addPod (h : Clean c s (.addPod env req o) others) :
    Keeps (next c) (PolicyAgent.Converged c) (Owes c) s (.addPod env req o) others := by
  obtain ⟨hread, hn⟩ | hn | ⟨ip, id, idAlloc, hid, hn⟩ := next_addPod c s env req o
  · exact keeps_of_same (by rw [hn]) (by rw [hn]) (by rw [hn]) fun ho => absurd ho hread
  · refine keeps_of_same (by rw [hn]) (by rw [hn]) (by rw [hn]) fun ho => ?_
    exact ⟨.addPod env req o, by rw [hn]; rfl, ho⟩
  · have hrest : (PolicyTask.addPod env req o).WillRead →
        ∃ u ∈ (next c (.addPod env req o) s).2, u.Owes c (next c (.addPod env req o) s).1 :=
      fun hread => ⟨_, by rw [hn]; rfl, (hread.addPodRest ip id).owes⟩
    rcases h with hread | hmem | ⟨u, hu, hread⟩
    · exact .rest (hrest hread)
    · refine keeps_of_same (by rw [hn]) ?_ (by rw [hn]) hrest
      rw [hn]
      exact idToLabels_allocateIdentity hmem hid
    · exact .other ⟨u, hu, hread.owes⟩

theorem keeps_delPod (req : DelPodRequest) (others : List PolicyTask) :
    Keeps (next c) (PolicyAgent.Converged c) (Owes c) s (.delPod req) others := by
  cases hep : s.agent.endpoints.lookup req.key with
  | none =>
    exact keeps_of_same (by simp [next, hep]) (by simp [next, hep]) (by simp [next, hep]) False.elim
  | some ep =>
    by_cases hid : ep.containerID = req.containerId <;>
      exact keeps_of_same (by simp [next, hep, hid]) (by simp [next, hep, hid, Agent.forgetEndpoint])
        (by simp [next, hep, hid]) False.elim

theorem keeps_onPolicyChange {rules : List CompiledRule}
    (h : Clean c s (.onPolicyChange rules o) others) :
    Keeps (next c) (PolicyAgent.Converged c) (Owes c) s (.onPolicyChange rules o) others := by
  rcases h with ⟨⟨so, oi, rfl⟩, hfree⟩ | ⟨u, hu, ho⟩
  · apply Keeps.settles
    intro o'
    exact (hfree so).syncRules_eq (s.store.list_perm so o'.store) s.policies oi o'.identities
      o.policyKeys o'.policyKeys
  · -- only the map changes, and nobody owes more or less for that
    exact .other ⟨u, hu, (owes_congr rfl rfl u).mpr ho⟩

theorem keeps (h : Clean c s t others) :
    Keeps (next c) (PolicyAgent.Converged c) (Owes c) s t others := by
  cases t with
  | policyEvent ev o | putEndpoint req ip ifIndex id o => exact .rest ⟨_, rfl, trivial⟩
  | addPod env req o => exact keeps_addPod h
  | undoAdd ip id | releasePod ep =>
    rcases h with halive | ⟨u, hu, hread⟩
    · exact keeps_of_same rfl (idToLabels_removeIdentity halive) rfl False.elim
    · exact .other ⟨u, hu, hread.owes⟩
  | delPod req => exact keeps_delPod req others
  | recompileAll o => exact .rest ⟨_, rfl, ⟨o.store, rfl⟩, rfl⟩
  | compile policies identities o =>
    refine keeps_of_same rfl rfl rfl ?_
    rintro ⟨⟨so, rfl⟩, hids⟩
    exact ⟨_, rfl, so, o.identities, c.compileAll_withIdentities hids o.identities _⟩
  | onPolicyChange rules o => exact keeps_onPolicyChange h

end PolicyTask

open PolicyTask

theorem policies_converge (c : Compiler) {s s' : PolicyAgent} {tasks : List PolicyTask}
    (hs : s.Converged c)
    (hrun : Run (PolicyTask.next c) (PolicyTask.Clean c) ⟨s, tasks⟩ ⟨s', []⟩) : s'.Converged c :=
  right_of_run (fun _ _ (h : True) => h) (fun _ _ _ _ h => keeps h)
    trivial hs hrun

section Example

def policyKeyOrder : IterOrder PolicyKey :=
  .sortedBy (fun k => k.srcIdentity.toNat * 2 ^ 56 + k.dstIdentity.toNat * 2 ^ 24 +
      k.protocol.toNat * 2 ^ 16 + k.dstPort.toNat) <| by
    rintro ⟨s, d, p, q⟩ ⟨s', d', p', q'⟩ h
    have hd := d.toNat_lt
    have hd' := d'.toNat_lt
    have hp := p.toNat_lt
    have hp' := p'.toNat_lt
    have hq := q.toNat_lt
    have hq' := q'.toNat_lt
    simp only at h
    simp only [PolicyKey.mk.injEq, ← UInt32.toNat_inj, ← UInt8.toNat_inj, ← UInt16.toNat_inj]
    omega

def exampleOrders : Orders := ⟨.sorted, identityOrder, policyKeyOrder⟩

def freshAgent : PolicyAgent := ⟨∅, ⟨0x0a000001, ∅, .new, ∅, ∅⟩, ∅⟩

def addFrontend : PolicyTask :=
  .addPod ⟨.ok 0x0af40002, .noClient, .ok 7⟩
    ⟨"web-0", "default", "0123456789ab", "/run/netns/web", "eth0",
      ((∅ : Labels).insert "app" "web").insert "tier" "front"⟩ exampleOrders

def setAllowFromWeb : PolicyTask :=
  .policyEvent (.set "default/allow-from-web" allowFromWeb) exampleOrders

def delFrontend : PolicyTask := .delPod ⟨"web-0", "default", "0123456789ab"⟩

theorem freshAgent_converged (c : Compiler) : freshAgent.Converged c := by
  intro o
  have hkeys : o.store.enum [] freshAgent.store.keys = [] := (o.store.enum_eq_nil_iff _ _).mpr rfl
  have hlist : freshAgent.store.list o.store = [] := by simp [PolicyStore.list, hkeys]
  rw [Compiler.installed, syncRules, RealMaps.syncPolicies_empty, hlist]
  rfl

theorem allowFromWeb_not_writesDeny (c : Compiler) (k : PolicyKey) : ¬ c.WritesDeny allowFromWeb k := by
  rintro ⟨t, -, _ | _, htype, hnil, -⟩
  · cases hnil
  · revert htype
    decide

theorem eq_allowFromWeb_of_mem {s : PolicyAgent} {so : IterOrder String} {np : NetworkPolicy}
    (h : s.store = (∅ : PolicyStore).insert "default/allow-from-web" allowFromWeb)
    (hnp : np ∈ s.store.list so) : np = allowFromWeb := by
  obtain ⟨key, -, hkey⟩ := List.mem_filterMap.mp hnp
  rw [h] at hkey
  rcases LastWrite.lookup_insert_eq_some hkey with ⟨-, rfl⟩ | ⟨-, hkey⟩
  · rfl
  · simp at hkey

theorem conflictFree_of_allowFromWeb {c : Compiler} {s : PolicyAgent}
    (h : s.store = (∅ : PolicyStore).insert "default/allow-from-web" allowFromWeb) :
    s.ConflictFree c := by
  rintro so np - np' hnp' k ⟨-, hd⟩
  obtain rfl := eq_allowFromWeb_of_mem h hnp'
  exact allowFromWeb_not_writesDeny _ k hd

theorem exists_clean_run :
    ∃ s', Run (next exampleCompiler) (PolicyTask.Clean exampleCompiler)
      ⟨freshAgent, [setAllowFromWeb, addFrontend]⟩ ⟨s', []⟩ := by
  refine ⟨_, .head (.fire [] [_] trivial) <| .head (.fire [_] [] (.inl ⟨rfl, rfl, rfl⟩)) <|
    .head (.fire [] [_] trivial) <| .head (.fire [] [_] trivial) <|
    .head (.fire [] [_] ?_) <| .head (.fire [] [] trivial) <|
    .head (.fire [] [] trivial) <| .head (.fire [] [] trivial) <| .head (.fire [] [] ?_) .refl⟩
  · exact .inl ⟨⟨_, _, rfl⟩, conflictFree_of_allowFromWeb rfl⟩
  · exact .inl ⟨⟨_, _, rfl⟩, conflictFree_of_allowFromWeb rfl⟩

theorem policies_converge_example :
    ∃ s', Run (PolicyTask.next exampleCompiler) (PolicyTask.Clean exampleCompiler)
      ⟨freshAgent, [setAllowFromWeb, addFrontend]⟩ ⟨s', []⟩ ∧ s'.Converged exampleCompiler := by
  obtain ⟨s', hrun⟩ := exists_clean_run
  exact ⟨s', hrun, policies_converge exampleCompiler (freshAgent_converged exampleCompiler) hrun⟩

def afterDelete : Config PolicyAgent PolicyTask :=
  schedule (next exampleCompiler)
    ⟨freshAgent, [addFrontend, setAllowFromWeb, delFrontend]⟩ (List.replicate 11 0)

def staleKey : PolicyKey := ⟨2898717510, 707919474, 0, 0⟩

/-- The deletion of a pod recompiles nothing: the entry of its identity stays. -/
theorem policies_keep_deleted_identity :
    ∃ s', Run (PolicyTask.next exampleCompiler) anyStep
        ⟨freshAgent, [addFrontend, setAllowFromWeb, delFrontend]⟩ ⟨s', []⟩ ∧
      ∀ o : Orders, s'.policies ≠
        (s'.compiler exampleCompiler).installed o.identities o.policyKeys (s'.store.list o.store) := by
  have hpool : afterDelete = ⟨afterDelete.shared, []⟩ := by
    have hempty : afterDelete.pool = [] := List.isEmpty_iff.mp (by decide +kernel)
    rw [← hempty]
  have hrun := run_schedule (next exampleCompiler) (List.replicate 11 0)
    ⟨freshAgent, [addFrontend, setAllowFromWeb, delFrontend]⟩
  refine ⟨afterDelete.shared, hpool ▸ hrun, ?_⟩
  intro o heq
  have hstore : afterDelete.shared.store =
      (∅ : PolicyStore).insert "default/allow-from-web" allowFromWeb := rfl
  have hfree := conflictFree_of_allowFromWeb (c := exampleCompiler) hstore
  have hsame := (hfree .sorted).syncRules_eq
    (afterDelete.shared.store.list_perm .sorted o.store) ∅ identityOrder o.identities
    policyKeyOrder o.policyKeys
  rw [← hsame] at heq
  have hheld : afterDelete.shared.policies.lookup staleKey = some allowValue := by decide +kernel
  rw [heq] at hheld
  revert hheld
  decide +kernel

end Example

end NovaNet
