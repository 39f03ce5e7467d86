import NovaNet.NodeView
import NovaNet.PodAccounting

/-! The address allocator against the set of addresses that stands for it in the runs of a
node. On an IPv4 network it hands out addresses of the node that are free, as those runs
assume. -/

namespace NovaNet

open LastWrite IpAllocator Finset

def PodEndpoint.view (ep : PodEndpoint) : Endpoint :=
  ⟨ep.podName, ep.podNamespace, ep.containerID, ep.ip.to4.getD 0, ep.ifIndex, ep.identityID⟩

def AddPodCalls.env (calls : AddPodCalls) (s : PodNode) : AddPodEnv where
  allocated :=
    match (s.ipAlloc.allocate calls.write s.files).1 with
    | .ok ip => .ok (ip.to4.getD 0)
    | .error e => .error e.text
  fetched := calls.fetched
  ifindex := calls.ifindex

def PodCidr.addresses (c : PodCidr) : Set UInt32 :=
  { ip | ∃ idx, idx < c.size ∧ indexToIP c.baseIP idx = .v4 ip }

namespace PodNode

structure Represents (s : PodNode) (a : Agent) : Prop where
  ipam : ∀ ip, ip ∈ a.ipam ↔ Net.IP.v4 ip ∈ s.ipAlloc.allocated
  idAlloc : a.idAlloc = s.idAlloc
  endpoints : ∀ key, a.endpoints.lookup key = (s.endpoints.lookup key).map PodEndpoint.view

section Refinement

variable {hash : String → UInt64} {s s' : PodNode} {a : Agent} {calls : AddPodCalls}
  {req : AddPodRequest} {r : Except GrpcError Net.IP}

theorem indexToIP_v4 {c : PodCidr} (h4 : c.isIPv4 = true) (idx : Nat) :
    indexToIP c.baseIP idx = .v4 ((indexToIP c.baseIP idx).to4.getD 0) := by
  cases hip : c.net.ip with
  | v4 b => simp [indexToIP, PodCidr.baseIP, hip, Net.IP.add, Net.IP.to4]
  | v6 b => simp [PodCidr.isIPv4, hip] at h4

theorem mem_allocated_v4 (h4 : s.ipAlloc.cidr.isIPv4 = true) {ip : Net.IP}
    (h : ip ∈ s.ipAlloc.allocated) : ip = .v4 (ip.to4.getD 0) := by
  obtain ⟨idx, -, -, -, rfl⟩ := mem_allocated.mp h
  exact indexToIP_v4 h4 idx

theorem Represents.fresh (h : s.Represents a) (h4 : s.ipAlloc.cidr.isIPv4 = true) {ip : UInt32}
    (hip : (calls.env s).allocated = .ok ip) : ip ∈ s.ipAlloc.cidr.addresses ∧ ip ∉ a.ipam := by
  rcases ha : s.ipAlloc.allocate calls.write s.files with ⟨ra, ipAlloc, files⟩
  rcases allocate_cases ha with ⟨e, rfl, -, -⟩ | ⟨idx, hmarks, rfl, -⟩
  · simp [AddPodCalls.env, ha] at hip
  · have hlt := hmarks.lt
    have hv4 := indexToIP_v4 h4 idx
    simp only [AddPodCalls.env, ha, Except.ok.injEq] at hip
    rw [hip] at hv4
    refine ⟨⟨idx, hlt, hv4⟩, ?_⟩
    rw [h.ipam ip, ← hv4]
    exact not_mem_allocated hlt hmarks.clear

theorem Represents.addPod (h : s.Represents a) (h4 : s.ipAlloc.cidr.isIPv4 = true)
    (hadd : s.addPod hash calls req = some (r, s')) :
    ∃ a', a.addPod hash (calls.env s) req = some (r.map fun ip => ip.to4.getD 0, a') ∧
      s'.Represents a' := by
  have hfresh : ∀ ip, (calls.env s).allocated = .ok ip → ip ∉ a.ipam :=
    fun ip hip => (h.fresh h4 hip).2
  unfold PodNode.addPod at hadd
  unfold Agent.addPod
  cases hv : validateAddPodRequest req with
  | error e =>
    simp only [hv] at hadd
    cases hadd
    exact ⟨a, rfl, h⟩
  | ok u =>
    rcases ha : s.ipAlloc.allocate calls.write s.files with ⟨ra, ipAlloc, files⟩
    simp only [AddPodCalls.env, ha] at hfresh ⊢
    simp only [hv, ha] at hadd
    rcases allocate_cases ha with ⟨e, rfl, rfl, rfl, -⟩ | ⟨idx, hmarks, rfl, -⟩
    · cases hadd
      exact ⟨a, rfl, h.ipam, h.idAlloc, h.endpoints⟩
    · have hlt := hmarks.lt
      have hres := hmarks.not_reserved
      have hfree := hmarks.clear
      obtain rfl : ipAlloc = s.ipAlloc.mark idx hlt := hmarks.marked
      have hv4 := indexToIP_v4 h4 idx
      have hnot := hfresh _ rfl
      rw [h.idAlloc]
      cases hid : s.idAlloc.allocateIdentity hash (addPodLabels calls.fetched req) with
      | none => simp [hid] at hadd
      | some p =>
        obtain ⟨id, idAlloc⟩ := p
        cases hif : calls.ifindex with
        | error text =>
          simp only [hid, hif, Option.some.injEq, Prod.mk.injEq] at hadd
          obtain ⟨files', hrel⟩ := release_mark calls.removed files hlt hres hfree
          rw [hrel] at hadd
          obtain ⟨rfl, rfl⟩ := hadd
          refine ⟨_, rfl, ?_, rfl, h.endpoints⟩
          show ∀ ip, ip ∈ (insert _ a.ipam).erase _ ↔ _
          rw [erase_insert hnot]
          exact h.ipam
        | ok ifIndex =>
          simp only [hid, hif] at hadd
          cases hadd
          refine ⟨_, rfl, ?_, rfl, ?_⟩
          · intro ip
            show ip ∈ insert _ a.ipam ↔ _
            rw [allocated_mark hlt hres, mem_insert, mem_insert, h.ipam ip, hv4, Net.IP.v4.injEq]
            rfl
          · intro key
            show (a.endpoints.insert _ _).lookup key = ((s.endpoints.insert _ _).lookup key).map _
            rw [lookup_insert_eq, lookup_insert_eq]
            split
            · rfl
            · exact h.endpoints key

theorem Held.addPod (h : s.Held) (hadd : s.addPod hash calls req = some (r, s')) :
    s'.Held ∧ s'.ipAlloc.cidr = s.ipAlloc.cidr := by
  rcases addPod_cases hadd with ⟨files, rfl⟩ | ⟨files, id, idAlloc, -, rfl⟩ |
    ⟨idx, hlt, files, id, idAlloc, ifIndex, hres, hfree, -, -, -, rfl⟩
  · exact ⟨⟨h.allocated, h.distinct⟩, rfl⟩
  · exact ⟨⟨h.allocated, h.distinct⟩, rfl⟩
  · exact ⟨h.put hres hfree rfl, rfl⟩

theorem Held.delPod (h : s.Held) (removed : Bool) (req : DelPodRequest) :
    (s.delPod removed req).Held ∧ (s.delPod removed req).ipAlloc.cidr = s.ipAlloc.cidr := by
  rcases h.delPod_cases removed req with ⟨hsame, -⟩ | ⟨ep, ipAlloc, files, hep, -, hcidr, hfreed, hdel⟩
  · rw [hsame]
    exact ⟨h, rfl⟩
  · rw [hdel]
    exact ⟨h.drop hep hfreed, hcidr⟩

theorem Represents.delPod (h : s.Represents a) (hheld : s.Held)
    (h4 : s.ipAlloc.cidr.isIPv4 = true) (removed : Bool) (req : DelPodRequest) :
    (s.delPod removed req).Represents (a.delPod req) := by
  have hlook := h.endpoints req.key
  rcases hheld.delPod_cases removed req with ⟨hsame, hstale⟩ |
    ⟨ep, ipAlloc, files, hep, hc, -, hfreed, hdel⟩
  · have hsame' : a.delPod req = a := by
      rw [Agent.delPod, hlook]
      cases hep : s.endpoints.lookup req.key with
      | none => rfl
      | some ep => exact if_pos (hstale ep hep)
    rw [hsame, hsame']
    exact h
  · have hdel' : a.delPod req = a.dropEndpoint req.key ep.view := by
      rw [Agent.delPod, hlook, hep]
      exact if_neg (not_not.mpr hc)
    have hv4 := mem_allocated_v4 h4 (hheld.allocated _ ep hep)
    rw [hdel, hdel']
    refine ⟨?_, congrArg (fun al => al.removeIdentity ep.identityID) h.idAlloc, ?_⟩
    · intro ip
      show ip ∈ a.ipam.erase (ep.ip.to4.getD 0) ↔ Net.IP.v4 ip ∈ ipAlloc.allocated
      rw [hfreed, mem_erase, mem_erase, h.ipam ip, hv4, ne_eq, ne_eq, Net.IP.v4.injEq]
      rfl
    · intro key
      show (a.endpoints.erase _).lookup key = ((s.endpoints.erase _).lookup key).map _
      rw [lookup_erase_eq, lookup_erase_eq]
      split
      · rfl
      · exact h.endpoints key

end Refinement

def Plain (_ : PodNode) : PodRequest → Prop
  | .add calls req => PlainLabels (addPodLabels calls.fetched req)
  | .del _ _ => True
  | .restart => False

theorem exists_view_of_run {hash : String → UInt64} {s : PodNode} {c : PodCidr}
    {files : IpAllocator.Files} (selfNode : String) (h4 : c.isIPv4 = true)
    (hrun : Run hash Plain (start c files) s) :
    ∃ v₀ v, v₀.Start ∧ Relation.ReflTransGen (NodeStep hash selfNode c.addresses) v₀ v ∧
      s.Represents v.agent := by
  let a₀ : Agent := ⟨0, (start c files).ipAlloc.allocated.image fun ip => ip.to4.getD 0, .new, ∅, ∅⟩
  have hcidr : (start c files).ipAlloc.cidr = c := cidr_new c true files
  have hrep : (start c files).Represents a₀ := by
    refine ⟨?_, rfl, fun key => rfl⟩
    intro ip
    show ip ∈ image _ _ ↔ _
    rw [mem_image]
    constructor
    · rintro ⟨ip', hip', rfl⟩
      have hv4 := mem_allocated_v4 (by rw [hcidr]; exact h4) hip'
      rwa [hv4] at hip'
    · intro hip
      exact ⟨_, hip, rfl⟩
  refine ⟨⟨a₀, ∅, ∅⟩, ?_⟩
  suffices hinv : ∃ v, Relation.ReflTransGen (NodeStep hash selfNode c.addresses) ⟨a₀, ∅, ∅⟩ v ∧
      s.Represents v.agent ∧ s.Held ∧ s.ipAlloc.cidr = c by
    obtain ⟨v, hv, hs, -⟩ := hinv
    exact ⟨v, ⟨rfl, rfl, rfl⟩, hv, hs⟩
  induction hrun with
  | refl =>
    have hheld : (start c files).Held := ⟨by simp [start], by simp [start]⟩
    exact ⟨_, .refl, hrep, hheld, hcidr⟩
  | tail _ hstep ih =>
    obtain ⟨v, hv, hs, hheld, hc⟩ := ih
    obtain ⟨q, hplain, hq⟩ := hstep
    cases q with
    | add calls req =>
      obtain ⟨⟨r, s'⟩, hadd, rfl⟩ := Option.map_eq_some_iff.mp hq
      obtain ⟨hheld', hc'⟩ := hheld.addPod hadd
      obtain ⟨a', ha', hs'⟩ := hs.addPod (hc ▸ h4) hadd
      have hip : ∀ ip, (calls.env _).allocated = .ok ip → ip ∈ c.addresses ∧ ip ∉ v.agent.ipam :=
        fun ip hip => hc ▸ hs.fresh (hc ▸ h4) hip
      exact ⟨_, hv.tail (.add ∅ hip hplain ha'), hs', hheld', hc'.trans hc⟩
    | del removed req =>
      cases hq
      obtain ⟨hheld', hc'⟩ := hheld.delPod removed req
      exact ⟨_, hv.tail (.del req), hs.delPod hheld (hc ▸ h4) removed req, hheld', hc'.trans hc⟩
    | restart => exact absurd hplain id

theorem exists_view_of_run_example : ∃ v₀ v, v₀.Start ∧
    Relation.ReflTransGen (NodeStep exampleHash "node-1" exampleCidr.addresses) v₀ v ∧
      webAdded.Represents v.agent := by
  refine exists_view_of_run _ rfl (.single ⟨_, ?_, handle_addWeb⟩)
  intro k v h
  rw [addPodLabels, lookup_insert_eq] at h
  split at h
  · cases h
    subst k
    constructor <;> unfold PlainText <;> decide +kernel
  · cases h

end PodNode

end NovaNet
