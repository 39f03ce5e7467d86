import NovaNet.PolicyVerdict
import NovaNet.NodeView

/-! Which pods the rules of a policy let in, on one node. The peers of a policy are
resolved against the identities of this node, while the pods of other nodes are known
by the hash of their labels. -/

namespace NovaNet

open List

structure IngressAllow (r : CompiledRule) : Prop where
  action : r.action = actionAllow
  ingress : r.isEgress = false
  identity : r.cidr = ""

theorem not_ingressAllow_of_deny {r : CompiledRule} (h : r.action = actionDeny) : ¬ IngressAllow r := by
  intro hallow
  have hne : actionDeny ≠ actionAllow := by decide
  exact hne (h.symm.trans hallow.action)

namespace Compiler

variable {c : Compiler} {o : IterOrder UInt64} {np : NetworkPolicy} {i : UInt32}

theorem targets_nonempty (site : List Nat) (np : NetworkPolicy) :
    ∃ t, t ∈ c.targetIdentities o site np := by
  simp only [mem_targetIdentities, Targets, Resolves]
  by_cases hok : c.selectorOk (targetSelector np) = true
  · rcases Finset.eq_empty_or_nonempty (c.identityAllocator.matching (targetSelector np)) with
      hm | ⟨t, ht⟩
    · exact ⟨_, .inl ⟨hok, .inr ⟨hm, rfl⟩⟩⟩
    · exact ⟨t, .inl ⟨hok, .inl ht⟩⟩
  · exact ⟨_, .inr ⟨by simpa using hok, rfl⟩⟩

theorem allows_compileIngressRule (site : List Nat) (rule : NetworkPolicyIngressRule) (t : UInt64)
    (ns : String) (sel : LabelSelector) :
    (∃ r ∈ c.compileIngressRule o site rule t ns sel, IngressAllow r ∧ r.srcIdentity.toUInt32 = i) ↔
    ∃ id, c.PeersReach ns rule.from_ id ∧ id.toUInt32 = i := by
  constructor
  · rintro ⟨r, hr, hallow, hi⟩
    rcases mem_append.mp hr with hr | hr
    · obtain ⟨id, hid, hr⟩ := mem_flatMap.mp hr
      obtain ⟨pp, -, rfl⟩ := mem_map.mp hr
      exact ⟨id, mem_ruleIdentities.mp hid, hi⟩
    · obtain ⟨e, he, hr⟩ := mem_flatMap.mp hr
      obtain ⟨pp, -, rfl⟩ := mem_map.mp hr
      exact absurd hallow.identity (cidr_ne_empty he)
  · rintro ⟨id, hid, hi⟩
    obtain ⟨pp, hpp⟩ := exists_mem_of_ne_nil _ (c.rulePorts_ne_nil rule.ports ns sel)
    refine ⟨⟨id, t, pp.protocol, pp.port, actionAllow, "", false, ns⟩, ?_, ⟨rfl, rfl, rfl⟩, hi⟩
    apply mem_append_left
    apply mem_flatMap.mpr
    exact ⟨id, mem_ruleIdentities.mpr hid, mem_map.mpr ⟨pp, hpp, rfl⟩⟩

theorem allows_compileIngress (site : List Nat) (np : NetworkPolicy) (t : UInt64) :
    (∃ r ∈ c.compileIngress o site np t, IngressAllow r ∧ r.srcIdentity.toUInt32 = i) ↔
      np.OfType .ingress ∧ ∃ rule ∈ np.ingress, ∃ id,
        c.PeersReach np.namespace_ rule.from_ id ∧ id.toUInt32 = i := by
  unfold compileIngress
  rw [← hasPolicyType_iff]
  by_cases ht : hasPolicyType np .ingress = true
  · by_cases hl : np.ingress.length = 0
    · have hnil : np.ingress = [] := length_eq_zero_iff.mp hl
      simp only [ht, hnil, if_true, length_nil, not_mem_nil, false_and, exists_false,
        and_false, iff_false]
      rintro ⟨r, hr, hallow, -⟩
      rw [mem_singleton.mp hr] at hallow
      exact not_ingressAllow_of_deny rfl hallow
    · simp only [ht, if_true, hl, if_false, true_and]
      exact IterOrder.exists_mem_flatten_mapIdx (fun j rule =>
        allows_compileIngressRule (j :: 0 :: site) rule t np.namespace_ np.podSelector) _
  · simp [ht]

theorem not_allows_compileEgress {site : List Nat} {np : NetworkPolicy} {t : UInt64}
    {r : CompiledRule} (hr : r ∈ c.compileEgress o site np t) : ¬ IngressAllow r := by
  intro hallow
  unfold compileEgress at hr
  by_cases ht : hasPolicyType np .egress = true
  · by_cases hl : np.egress.length = 0
    · simp only [ht, if_true, hl, mem_singleton] at hr
      rw [hr] at hallow
      exact not_ingressAllow_of_deny rfl hallow
    · simp only [ht, if_true, hl, if_false] at hr
      obtain ⟨_, hm, hr⟩ := mem_flatten.mp hr
      obtain ⟨j, hj, rfl⟩ := mem_mapIdx.mp hm
      rcases mem_append.mp hr with hr | hr <;>
      · obtain ⟨_, -, hr⟩ := mem_flatMap.mp hr
        obtain ⟨pp, -, rfl⟩ := mem_map.mp hr
        exact absurd hallow.ingress (by simp)
  · simp [ht] at hr

theorem allows_compilePolicy (site : List Nat) (np : NetworkPolicy) :
    (∃ r ∈ c.compilePolicy o site np, IngressAllow r ∧ r.srcIdentity.toUInt32 = i) ↔
      np.OfType .ingress ∧ ∃ rule ∈ np.ingress, ∃ id,
        c.PeersReach np.namespace_ rule.from_ id ∧ id.toUInt32 = i := by
  have htarget : ∀ (j : Nat) (t : UInt64), (∃ r ∈ c.compileIngress o (j :: 1 :: site) np t ++
      c.compileEgress o (j :: 1 :: site) np t, IngressAllow r ∧ r.srcIdentity.toUInt32 = i) ↔
      np.OfType .ingress ∧ ∃ rule ∈ np.ingress, ∃ id,
        c.PeersReach np.namespace_ rule.from_ id ∧ id.toUInt32 = i := by
    intro j t
    rw [← allows_compileIngress (c := c) (o := o) (j :: 1 :: site) np t]
    constructor
    · rintro ⟨r, hr, hallow, hi⟩
      rcases mem_append.mp hr with hr | hr
      · exact ⟨r, hr, hallow, hi⟩
      · exact absurd hallow (not_allows_compileEgress hr)
    · rintro ⟨r, hr, hallow⟩
      exact ⟨r, mem_append_left _ hr, hallow⟩
  obtain ⟨t, ht⟩ := c.targets_nonempty (o := o) site np
  rw [compilePolicy, IterOrder.exists_mem_flatten_mapIdx htarget]
  constructor
  · rintro ⟨t', -, h⟩
    exact h
  · intro h
    exact ⟨t, ht, h⟩

end Compiler

def Covers (c : Compiler) (o : IterOrder UInt64) (site : List Nat) (np : NetworkPolicy)
    (m : EndpointMap) (ip : UInt32) : Prop :=
  ∃ e, m.lookup ip = some e ∧
    ∃ r ∈ c.compilePolicy o site np, IngressAllow r ∧ r.srcIdentity.toUInt32 = e.identity

structure SelectorPeer (c : Compiler) (np : NetworkPolicy) (sel : LabelSelector) : Prop where
  ingress : np.OfType .ingress
  peer : ∃ rule ∈ np.ingress, ⟨some sel, none, none⟩ ∈ rule.from_
  accepted : c.selectorOk (sel.withLabel namespaceLabel np.namespace_) = true

theorem SelectorPeer.reaches {c : Compiler} {np : NetworkPolicy} {sel : LabelSelector}
    (hp : SelectorPeer c np sel) {id : UInt64} {l : Labels}
    (hl : c.identityAllocator.idToLabels.lookup id = some l)
    (hns : l.lookup namespaceLabel = some np.namespace_) (hsel : sel.matches l = true) :
    ∃ rule ∈ np.ingress, c.PeersReach np.namespace_ rule.from_ id := by
  obtain ⟨rule, hrule, hpeer⟩ := hp.peer
  have hmatch := LabelSelector.matches_withLabel_of hns hsel
  have hmem := Allocator.mem_matching.mpr ⟨l, hl, hmatch⟩
  exact ⟨rule, hrule, .inr ⟨_, hpeer, rfl, hp.accepted, .inl hmem⟩⟩

theorem covers_iff_reaches {hash : String → UInt64} {range : Set UInt32} {v : NodeView}
    {c : Compiler} {o : IterOrder UInt64} {site : List Nat} {np : NetworkPolicy} {ip i : UInt32}
    {l : Labels} {known : Prop} (hv : v.Inv hash range) (hpod : v.Runs hash ip l i known)
    (ht : np.OfType .ingress) : Covers c o site np v.agent.endpointMap ip ↔
      ∃ rule ∈ np.ingress, ∃ id, c.PeersReach np.namespace_ rule.from_ id ∧ id.toUInt32 = i := by
  obtain ⟨e, he, hi⟩ := hpod.mapped hv
  unfold Covers
  rw [he]
  simp only [Option.some.injEq, exists_eq_left', hi, Compiler.allows_compilePolicy, ht, true_and]

theorem covers_iff {hash : String → UInt64} {selfNode : String} {range : Set UInt32}
    {v₀ v : NodeView} {c : Compiler} {o : IterOrder UInt64} {site : List Nat} {np : NetworkPolicy}
    {sel : LabelSelector} {ip i : UInt32} {l : Labels} {known : Prop} (hstart : v₀.Start)
    (hrun : Relation.ReflTransGen (NodeStep hash selfNode range) v₀ v)
    (hc : c.identityAllocator = v.agent.idAlloc) (hp : SelectorPeer c np sel)
    (hpod : v.Runs hash ip l i known) (hns : l.lookup namespaceLabel = some np.namespace_)
    (hsel : sel.matches l = true) :
    Covers c o site np v.agent.endpointMap ip ↔
      known ∨ ∃ rule ∈ np.ingress, ∃ id, c.PeersReach np.namespace_ rule.from_ id ∧
        id.toUInt32 = i := by
  have hv : v.Inv hash range := hstart.inv.run hrun
  rw [covers_iff_reaches hv hpod hp.ingress]
  constructor
  · exact .inr
  · rintro (hknown | hreach)
    · cases hpod with
      | localPod hep hls =>
        have hl := hv.labels _ _ _ hep hls
        rw [← hc, hknown] at hl
        obtain ⟨rule, hrule, hreach⟩ := hp.reaches hl hns hsel
        exact ⟨rule, hrule, _, hreach, rfl⟩
      | remotePod h => exact hknown.elim
    · exact hreach

section Example

def webTierPod : PodObject where
  namespace_ := "default"
  name := "web-1"
  nodeName := "node-b"
  labels := ((∅ : Labels).insert "app" "web").insert "tier" "front"
  podIP := some 0x0a020007
  hostIP := some 0x0a010002

def emptyView : NodeView := ⟨⟨0x0a010001, ∅, .new, ∅, ∅⟩, ∅, ∅⟩

def webTierView : NodeView :=
  { emptyView with
    agent := emptyView.agent.handlePodEvent hashCanonical "node-a" (.add webTierPod)
    remotes := recordEvent "node-a" emptyView.remotes (.add webTierPod) }

def emptyCompiler : Compiler := { exampleCompiler with identityAllocator := .new }

theorem emptyView_start : emptyView.Start := ⟨rfl, rfl, rfl⟩

theorem webTierView_run :
    Relation.ReflTransGen (NodeStep hashCanonical "node-a" {0x0a000005}) emptyView webTierView := by
  apply Relation.ReflTransGen.single
  apply NodeStep.event
  intro _ ip hip
  rw [Set.mem_singleton_iff.mp hip]
  decide

theorem webTierPod_runs : webTierView.Runs hashCanonical 0x0a020007 webTierPod.fullLabels
    (hashLabels hashCanonical webTierPod.fullLabels).toUInt32 False :=
  .remotePod (by simp [webTierView, recordEvent, PodEvent.pod, webTierPod])

theorem allowFromWeb_peer : SelectorPeer emptyCompiler allowFromWeb (appSelector "web") where
  ingress := by decide
  peer := ⟨_, mem_singleton.mpr rfl, mem_singleton.mpr rfl⟩
  accepted := rfl

theorem webTierPod_selected : webTierPod.fullLabels.lookup namespaceLabel = some "default" ∧
    (appSelector "web").matches webTierPod.fullLabels = true := by
  decide +kernel

theorem covers_iff_webTierPod :
    Covers emptyCompiler identityOrder [0] allowFromWeb webTierView.agent.endpointMap 0x0a020007 ↔
      False ∨ ∃ rule ∈ allowFromWeb.ingress, ∃ id,
        emptyCompiler.PeersReach allowFromWeb.namespace_ rule.from_ id ∧
          id.toUInt32 = (hashLabels hashCanonical webTierPod.fullLabels).toUInt32 :=
  covers_iff emptyView_start webTierView_run rfl allowFromWeb_peer webTierPod_runs
    webTierPod_selected.1 webTierPod_selected.2

/-- The rules name the hash of the selector's labels, the pod has that of its own. -/
theorem webTierPod_not_covered :
    emptyView.Start ∧
    Relation.ReflTransGen (NodeStep hashCanonical "node-a" {0x0a000005}) emptyView webTierView ∧
    SelectorPeer emptyCompiler allowFromWeb (appSelector "web") ∧
    webTierView.Runs hashCanonical 0x0a020007 webTierPod.fullLabels
      (hashLabels hashCanonical webTierPod.fullLabels).toUInt32 False ∧
    (appSelector "web").matches webTierPod.fullLabels = true ∧
    ¬ Covers emptyCompiler identityOrder [0] allowFromWeb webTierView.agent.endpointMap
      0x0a020007 := by
  refine ⟨emptyView_start, webTierView_run, allowFromWeb_peer, webTierPod_runs,
    webTierPod_selected.2, ?_⟩
  have hv := (emptyView_start.inv).run webTierView_run
  rw [covers_iff_reaches hv webTierPod_runs allowFromWeb_peer.ingress]
  rintro ⟨rule, hrule, id, hreach, hid⟩
  obtain rfl : rule = ⟨[⟨some (appSelector "web"), none, none⟩], []⟩ := mem_singleton.mp hrule
  rcases hreach with ⟨hnil, -⟩ | ⟨peer, hpeer, hpr⟩
  · cases hnil
  · obtain rfl : peer = ⟨some (appSelector "web"), none, none⟩ := mem_singleton.mp hpeer
    rcases hpr.2.2 with hlive | ⟨-, hhash⟩
    · obtain ⟨l, hl, -⟩ := Allocator.mem_matching.mp hlive
      simp [emptyCompiler, Allocator.new] at hl
    · rw [hhash] at hid
      exact absurd hid (by decide +kernel)

end Example

end NovaNet
