import NovaNet.PodAgent

/-! The runs of one node: its agent next to a record of the pods that the requests and
events were about, so that the maps can be compared with the labels of the pods. -/

namespace NovaNet

open RemoteSync

structure LocalLabels where
  actual : Labels
  used : Labels

/-- An agent together with what is known of the pods it handled: the labels of the
pods of its node, and for each address the pod of another node pushed to it last. -/
structure NodeView where
  agent : Agent
  locals : Finmap fun _ : String => LocalLabels
  remotes : Finmap fun _ : UInt32 => PodObject

def recordAdd (locals : Finmap fun _ : String => LocalLabels) (req : AddPodRequest)
    (labels : LocalLabels) : Except GrpcError UInt32 → Finmap fun _ : String => LocalLabels
  | .ok _ => locals.insert (podKey req.podNamespace req.podName) labels
  | .error _ => locals

def recordEvent (selfNode : String) (remotes : Finmap fun _ : UInt32 => PodObject)
    (ev : PodEvent) : Finmap fun _ : UInt32 => PodObject :=
  if ev.pod.nodeName = selfNode then remotes
  else
    match ev, ev.pod.podIP, ev.pod.hostIP with
    | .add pod, some ip, some _ => remotes.insert ip pod
    | .update pod, some ip, some _ => remotes.insert ip pod
    | .delete _, some ip, _ => remotes.erase ip
    | _, _, _ => remotes

/-- Requests and events at one node. The address allocator hands out free addresses
of the node, and the pods of other nodes have other addresses. Labels follow the
grammar of Kubernetes. -/
inductive NodeStep (hash : String → UInt64) (selfNode : String) (range : Set UInt32) :
    NodeView → NodeView → Prop
  | add {v : NodeView} {env : AddPodEnv} {req : AddPodRequest} {r : Except GrpcError UInt32}
      {a : Agent} (labels : Labels)
      (hip : ∀ ip, env.allocated = .ok ip → ip ∈ range ∧ ip ∉ v.agent.ipam)
      (hplain : PlainLabels (addPodLabels env.fetched req))
      (h : v.agent.addPod hash env req = some (r, a)) :
      NodeStep hash selfNode range v
        { v with
          agent := a
          locals := recordAdd v.locals req
            ⟨labels.insert namespaceLabel req.podNamespace, addPodLabels env.fetched req⟩ r }
  | del {v : NodeView} (req : DelPodRequest) :
      NodeStep hash selfNode range v { v with agent := v.agent.delPod req }
  | event {v : NodeView} (ev : PodEvent)
      (hip : ev.pod.nodeName ≠ selfNode → ∀ ip ∈ range, ev.pod.podIP ≠ some ip) :
      NodeStep hash selfNode range v
        { v with
          agent := v.agent.handlePodEvent hash selfNode ev
          remotes := recordEvent selfNode v.remotes ev }

structure NodeView.Start (v : NodeView) : Prop where
  idAlloc : v.agent.idAlloc = .new
  endpoints : v.agent.endpoints = ∅
  remotes : v.remotes = ∅

structure NodeView.Inv (hash : String → UInt64) (range : Set UInt32) (v : NodeView) : Prop where
  agent : v.agent.Inv range
  plain : ∀ id l, v.agent.idAlloc.idToLabels.lookup id = some l → PlainLabels l
  labels : ∀ key ep ls, v.agent.endpoints.lookup key = some ep → v.locals.lookup key = some ls →
    v.agent.idAlloc.idToLabels.lookup ep.identityID = some ls.used
  remote : ∀ ip pod, v.remotes.lookup ip = some pod → ip ∉ range ∧
    ∃ host, v.agent.endpointMap.lookup ip = some ⟨0, (hashLabels hash pod.fullLabels).toUInt32, host⟩

namespace NodeView

variable {hash : String → UInt64} {selfNode : String} {range : Set UInt32} {v v' : NodeView}

theorem Start.inv (h : v.Start) : v.Inv hash range where
  agent := .of_start h.idAlloc h.endpoints
  plain := by simp [h.idAlloc, Allocator.new]
  labels := by simp [h.endpoints]
  remote := by simp [h.remotes]

section Add

variable {env : AddPodEnv} {req : AddPodRequest} {r : Except GrpcError UInt32} {a : Agent}
  {labels : Labels}

theorem Inv.labels_add (hv : v.Inv hash range) (hplain : PlainLabels (addPodLabels env.fetched req))
    (h : v.agent.addPod hash env req = some (r, a)) {key : String} {ep : Endpoint}
    {ls : LocalLabels} (hep : a.endpoints.lookup key = some ep)
    (hls : (recordAdd v.locals req ⟨labels.insert namespaceLabel req.podNamespace,
      addPodLabels env.fetched req⟩ r).lookup key = some ls) :
    a.idAlloc.idToLabels.lookup ep.identityID = some ls.used := by
  have hstored : v.agent.endpoints.lookup key = some ep → v.locals.lookup key = some ls →
      a.idAlloc.idToLabels.lookup ep.identityID = some ls.used :=
    fun hold hls => hv.agent.stored_addPod h hold (hv.labels key ep ls hold hls)
  rcases Agent.addPod_cases h with ⟨e, rfl, rfl⟩ | ⟨e, ip, id, idAlloc, rfl, -, -, rfl⟩ |
    ⟨ip, id, idAlloc, ifIndex, rfl, -, hid, rfl⟩
  · exact hstored hep hls
  · exact hstored hep hls
  · rw [recordAdd, LastWrite.lookup_insert_eq] at hls
    rcases Agent.lookup_putEndpoint hep with ⟨hk, -, -, hnew⟩ | ⟨hk, hold⟩
    · rw [if_pos hk.symm, Option.some.injEq] at hls
      rw [← hls, hnew]
      obtain ⟨l, hl, hcan⟩ := Allocator.labels_allocateIdentity hv.agent.alloc hid
      have hpl : PlainLabels l := by
        rcases Allocator.lookup_allocateIdentity_cases hv.agent.alloc hid hl with hin | ⟨-, rfl⟩
        · exact hv.plain id l hin
        · exact hplain
      rw [← canonicalLabels_injective hpl hplain hcan]
      exact hl
    · rw [if_neg fun he => hk he.symm] at hls
      exact hstored hold hls

theorem Inv.add (hv : v.Inv hash range)
    (hip : ∀ ip, env.allocated = .ok ip → ip ∈ range ∧ ip ∉ v.agent.ipam)
    (hplain : PlainLabels (addPodLabels env.fetched req))
    (h : v.agent.addPod hash env req = some (r, a)) :
    NodeView.Inv hash range { v with
      agent := a
      locals := recordAdd v.locals req
        ⟨labels.insert namespaceLabel req.podNamespace, addPodLabels env.fetched req⟩ r } where
  agent := hv.agent.addPod hip h
  plain := by
    intro id l hl
    rcases Agent.lookup_addPod_cases hv.agent h hl with hold | rfl
    · exact hv.plain id l hold
    · exact hplain
  labels := fun _ _ _ hep hls => hv.labels_add hplain h hep hls
  remote := by
    intro ip pod hpod
    obtain ⟨hout, host, hmap⟩ := hv.remote ip pod hpod
    refine ⟨hout, host, ?_⟩
    rw [← hmap]
    exact Agent.lookup_endpointMap_addPod (fun ip h => (hip ip h).1) h hout

end Add

theorem Inv.del (hv : v.Inv hash range) (req : DelPodRequest) :
    NodeView.Inv hash range { v with agent := v.agent.delPod req } where
  agent := hv.agent.delPod req
  plain := fun id l hl => hv.plain id l (Agent.lookup_delPod_of_mem hl)
  labels := by
    intro key ep ls hep hls
    apply hv.agent.stored_delPod hep
    exact hv.labels key ep ls (Agent.lookup_endpoints_delPod hep) hls
  remote := by
    intro ip pod hpod
    obtain ⟨hout, host, hmap⟩ := hv.remote ip pod hpod
    refine ⟨hout, host, ?_⟩
    rw [← hmap]
    exact hv.agent.lookup_endpointMap_delPod req hout

variable {remotes : Finmap fun _ : UInt32 => PodObject} {ev : PodEvent} {ip : UInt32}

theorem recordEvent_of_ne (h : ev.pod.nodeName ≠ selfNode → ev.pod.podIP ≠ some ip) :
    (recordEvent selfNode remotes ev).lookup ip = remotes.lookup ip := by
  unfold recordEvent
  by_cases hself : ev.pod.nodeName = selfNode
  · rw [if_pos hself]
  · rw [if_neg hself]
    have hne : ∀ ip', ev.pod.podIP = some ip' → ip ≠ ip' := by
      rintro ip' hip' rfl
      exact h hself hip'
    cases hip : ev.pod.podIP with
    | none => cases ev <;> rfl
    | some ip' =>
      cases ev with
      | add pod | update pod =>
        cases hh : pod.hostIP with
        | none => simp [PodEvent.pod, hh]
        | some host => simp [PodEvent.pod, hh, Finmap.lookup_insert_of_ne _ (hne ip' hip)]
      | delete pod => exact Finmap.lookup_erase_ne (hne ip' hip)

variable (hash) in
theorem lookup_event (m : EndpointMap) {pod : PodObject} (hself : ev.pod.nodeName ≠ selfNode)
    (hip : ev.pod.podIP = some ip) (h : (recordEvent selfNode remotes ev).lookup ip = some pod) :
    (∃ host, (handle hash selfNode m ev).lookup ip =
      some ⟨0, (hashLabels hash pod.fullLabels).toUInt32, host⟩) ∨
    remotes.lookup ip = some pod ∧ handle hash selfNode m ev = m := by
  have hact : ¬ (ev.pod.nodeName = selfNode ∨ ev.pod.podIP = none) := by simp [hself, hip]
  unfold handle
  unfold recordEvent at h
  rw [if_neg hact]
  rw [if_neg hself] at h
  cases ev with
  | add p | update p =>
    change p.podIP = some ip at hip
    cases hh : p.hostIP with
    | none =>
      simp only [PodEvent.pod, hip, hh] at h
      exact .inr ⟨h, by simp [upsertRemoteEndpoint, hip, hh]⟩
    | some host =>
      simp only [PodEvent.pod, hip, hh, Finmap.lookup_insert] at h
      cases h
      exact .inl ⟨host, by simp [upsertRemoteEndpoint, hip, hh]⟩
  | delete p =>
    change p.podIP = some ip at hip
    simp [PodEvent.pod, hip] at h

theorem Inv.event (hv : v.Inv hash range)
    (hip : ev.pod.nodeName ≠ selfNode → ∀ ip ∈ range, ev.pod.podIP ≠ some ip) :
    NodeView.Inv hash range { v with
      agent := v.agent.handlePodEvent hash selfNode ev
      remotes := recordEvent selfNode v.remotes ev } where
  agent := hv.agent.handlePodEvent hip
  plain := hv.plain
  labels := hv.labels
  remote := by
    intro ip pod hpod
    change (recordEvent selfNode v.remotes ev).lookup ip = some pod at hpod
    change ip ∉ range ∧ ∃ host, (handle hash selfNode v.agent.endpointMap ev).lookup ip =
      some ⟨0, (hashLabels hash pod.fullLabels).toUInt32, host⟩
    by_cases hown : ev.pod.nodeName ≠ selfNode ∧ ev.pod.podIP = some ip
    · have hout : ip ∉ range := fun hin => hip hown.1 ip hin hown.2
      rcases lookup_event hash v.agent.endpointMap hown.1 hown.2 hpod with hnew | ⟨hold, hsame⟩
      · exact ⟨hout, hnew⟩
      · rw [hsame]
        exact hv.remote ip pod hold
    · have hne : ev.pod.nodeName ≠ selfNode → ev.pod.podIP ≠ some ip := fun hs he => hown ⟨hs, he⟩
      rw [recordEvent_of_ne hne] at hpod
      rw [lookup_handle_of_ne hash selfNode hne]
      exact hv.remote ip pod hpod

theorem Inv.step (hv : v.Inv hash range) (h : NodeStep hash selfNode range v v') :
    v'.Inv hash range := by
  cases h with
  | add labels hip hplain h => exact hv.add hip hplain h
  | del req => exact hv.del req
  | event ev hip => exact hv.event hip

theorem Inv.run (hv : v.Inv hash range)
    (h : Relation.ReflTransGen (NodeStep hash selfNode range) v v') : v'.Inv hash range := by
  induction h with
  | refl => exact hv
  | tail _ hstep ih => exact ih.step hstep

inductive Runs (hash : String → UInt64) (v : NodeView) : UInt32 → Labels → UInt32 → Prop → Prop
  | localPod {key : String} {ep : Endpoint} {ls : LocalLabels}
      (hep : v.agent.endpoints.lookup key = some ep) (hls : v.locals.lookup key = some ls) :
      Runs hash v ep.ip ls.actual ep.identityID.toUInt32 (ls.used = ls.actual)
  | remotePod {ip : UInt32} {pod : PodObject} (h : v.remotes.lookup ip = some pod) :
      Runs hash v ip pod.fullLabels (hashLabels hash pod.fullLabels).toUInt32 False

theorem Runs.mapped {i : UInt32} {l : Labels} {known : Prop} (h : Runs hash v ip l i known)
    (hv : v.Inv hash range) : ∃ e, v.agent.endpointMap.lookup ip = some e ∧ e.identity = i := by
  cases h with
  | localPod hep hls => exact ⟨_, hv.agent.mapped _ _ hep, rfl⟩
  | remotePod h =>
    obtain ⟨-, host, hmap⟩ := hv.remote _ _ h
    exact ⟨_, hmap, rfl⟩

end NodeView

end NovaNet
