import NovaNet.Compiler

/-! What the compiler resolves a policy to, as relations that no iteration order
enters. -/

namespace NovaNet

open List

theorem hasPolicyType_iff {np : NetworkPolicy} {pt : PolicyType} :
    hasPolicyType np pt = true ↔ np.OfType pt := by
  unfold hasPolicyType NetworkPolicy.OfType
  cases np.policyTypes with
  | nil => simp
  | cons a l => simp

namespace Compiler

variable (c : Compiler)

def Resolves (sel : LabelSelector) (id : UInt64) : Prop :=
  c.selectorOk sel = true ∧ (id ∈ c.identityAllocator.matching sel ∨
    c.identityAllocator.matching sel = ∅ ∧ id = hashLabels c.hash sel.matchLabels)

def targetSelector (np : NetworkPolicy) : LabelSelector :=
  np.podSelector.withLabel namespaceLabel np.namespace_

def Targets (np : NetworkPolicy) (t : UInt64) : Prop :=
  c.Resolves (targetSelector np) t ∨ c.selectorOk (targetSelector np) = false ∧ t = wildcardIdentity

def ResolvesInNamespaces (podSelector nsSel : LabelSelector) (id : UInt64) : Prop :=
  if nsSel.isEmpty then
    if podSelector.isEmpty then id = wildcardIdentity else c.Resolves podSelector id
  else
    (∃ name ∈ c.resolveNamespaceNames nsSel,
      c.Resolves (podSelector.withLabel namespaceLabel name) id) ∨
    c.resolveNamespaceNames nsSel = [] ∧
      id = hashLabels c.hash (nsFallbackLabels podSelector.matchLabels nsSel.matchLabels)

def PeerReaches (ns : String) (peer : NetworkPolicyPeer) (id : UInt64) : Prop :=
  peer.ipBlock = none ∧
  match peer.podSelector, peer.namespaceSelector with
  | none, none => id = wildcardIdentity
  | podSel, some nsSel => c.ResolvesInNamespaces (podSel.getD .empty) nsSel id
  | some podSelector, none => c.Resolves (podSelector.withLabel namespaceLabel ns) id

def PeersReach (ns : String) (peers : List NetworkPolicyPeer) (id : UInt64) : Prop :=
  peers = [] ∧ id = wildcardIdentity ∨ ∃ peer ∈ peers, c.PeerReaches ns peer id

def PortsOpen (ns : String) (podSelector : LabelSelector) (ports : List NetworkPolicyPort)
    (pp : PortProto) : Prop :=
  (∃ p ∈ ports, pp ∈ c.resolvePort ns podSelector p) ∨
    (∀ p ∈ ports, c.resolvePort ns podSelector p = []) ∧ pp = ⟨0, 0⟩

variable {c} {o : IterOrder UInt64} {site : List Nat}

variable {sel podSelector : LabelSelector} {id : UInt64} {ns : String} {pp : PortProto}

theorem findOrFallback_of_mem (hok : c.selectorOk sel = true)
    (hm : id ∈ c.identityAllocator.matching sel) :
    c.findOrFallback o site sel = c.identityAllocator.findMatchingIdentities o site sel := by
  have hlen : (c.identityAllocator.findMatchingIdentities o site sel).length > 0 :=
    length_pos_of_mem (Allocator.mem_findMatchingIdentities.mpr hm)
  simp only [findOrFallback, hok, if_true, if_pos hlen]

theorem findOrFallback_of_empty (hok : c.selectorOk sel = true)
    (hm : c.identityAllocator.matching sel = ∅) :
    c.findOrFallback o site sel = [hashLabels c.hash sel.matchLabels] := by
  have hnil : c.identityAllocator.findMatchingIdentities o site sel = [] :=
    (o.enum_eq_nil_iff site _).mpr hm
  simp [findOrFallback, hok, hnil]

theorem mem_findOrFallback : id ∈ c.findOrFallback o site sel ↔ c.Resolves sel id := by
  unfold Resolves
  by_cases hok : c.selectorOk sel = true
  · rcases Finset.eq_empty_or_nonempty (c.identityAllocator.matching sel) with hm | ⟨x, hx⟩
    · rw [findOrFallback_of_empty hok hm]
      simp [hok, hm]
    · have hne : c.identityAllocator.matching sel ≠ ∅ := Finset.ne_empty_of_mem hx
      rw [findOrFallback_of_mem hok hx, Allocator.mem_findMatchingIdentities]
      simp [hok, hne]
  · simp [findOrFallback, hok]

theorem targetIdentities_eq (np : NetworkPolicy) : c.targetIdentities o site np =
    if c.selectorOk (targetSelector np) = true
    then c.findOrFallback o (0 :: site) (targetSelector np) else [wildcardIdentity] := by
  have hdef : c.targetIdentities o site np = if c.selectorOk (targetSelector np) = true then
      if (c.identityAllocator.findMatchingIdentities o (0 :: site) (targetSelector np)).length > 0
      then c.identityAllocator.findMatchingIdentities o (0 :: site) (targetSelector np)
      else [hashLabels c.hash (targetSelector np).matchLabels] else [wildcardIdentity] := rfl
  rw [hdef]
  by_cases hok : c.selectorOk (targetSelector np) = true
  · simp only [hok, if_true, findOrFallback]
  · simp only [hok, if_false, Bool.false_eq_true]

theorem mem_targetIdentities {np : NetworkPolicy} {t : UInt64} :
    t ∈ c.targetIdentities o site np ↔ c.Targets np t := by
  rw [targetIdentities_eq, Targets]
  by_cases hok : c.selectorOk (targetSelector np) = true
  · simp [hok, mem_findOrFallback]
  · simp [hok, Resolves]

theorem mem_resolveInNamespaces {nsSel : LabelSelector} :
    id ∈ c.resolveInNamespaces o site podSelector nsSel ↔
      c.ResolvesInNamespaces podSelector nsSel id := by
  unfold resolveInNamespaces ResolvesInNamespaces
  by_cases hns : nsSel.isEmpty = true
  · by_cases hpod : podSelector.isEmpty = true
    · simp [hns, hpod]
    · simp [hns, hpod, mem_findOrFallback]
  · cases hnames : c.resolveNamespaceNames nsSel with
    | nil => simp [hns]
    | cons name names =>
      have hlen : (name :: names).length > 0 := Nat.succ_pos _
      simp only [hns, if_pos hlen, Bool.false_eq_true, if_false, reduceCtorEq, false_and, or_false]
      have hname : ∀ (i : Nat) (name : String),
          id ∈ c.findOrFallback o (i :: site) (podSelector.withLabel namespaceLabel name) ↔
            c.Resolves (podSelector.withLabel namespaceLabel name) id :=
        fun _ _ => mem_findOrFallback
      exact IterOrder.mem_flatten_mapIdx hname _

theorem mem_resolvePodAndNsPeers {podSel nsSel : Option LabelSelector} :
    id ∈ c.resolvePodAndNsPeers o site podSel nsSel ns ↔ c.PeerReaches ns ⟨podSel, nsSel, none⟩ id := by
  cases podSel with
  | none =>
    cases nsSel with
    | none => simp [resolvePodAndNsPeers, PeerReaches]
    | some nsSel => simp [resolvePodAndNsPeers, PeerReaches, mem_resolveInNamespaces]
  | some podSelector =>
    cases nsSel with
    | none => simp [resolvePodAndNsPeers, PeerReaches, mem_findOrFallback]
    | some nsSel => simp [resolvePodAndNsPeers, PeerReaches, mem_resolveInNamespaces]

theorem mem_ruleIdentities {peers : List NetworkPolicyPeer} :
    id ∈ c.ruleIdentities o site peers ns ↔ c.PeersReach ns peers id := by
  unfold ruleIdentities PeersReach
  cases peers with
  | nil => simp
  | cons peer peers =>
    simp only [length_cons, Nat.add_one_ne_zero, if_false, reduceCtorEq, false_and, false_or]
    refine IterOrder.mem_flatten_mapIdx (fun i peer => ?_) _
    obtain ⟨podSel, nsSel, ipBlock⟩ := peer
    cases ipBlock with
    | none => exact mem_resolvePodAndNsPeers
    | some b => simp [PeerReaches]

theorem number_ne_zero (proto : Protocol) : proto.number ≠ 0 := by cases proto <;> decide

theorem protocol_of_mem_resolvePort {p : NetworkPolicyPort}
    (h : pp ∈ c.resolvePort ns podSelector p) : pp.protocol = (p.protocol.getD .tcp).number := by
  unfold resolvePort at h
  split at h
  · split at h
    · obtain ⟨port, -, rfl⟩ := List.mem_map.mp h
      rfl
    · cases h
  · rw [List.mem_singleton.mp h]
  · rw [List.mem_singleton.mp h]

theorem mem_rulePorts {ports : List NetworkPolicyPort} :
    pp ∈ c.rulePorts ports ns podSelector ↔ c.PortsOpen ns podSelector ports pp := by
  unfold rulePorts PortsOpen
  have hmem : pp ∈ c.resolvePorts ports ns podSelector ↔
      ∃ p ∈ ports, pp ∈ c.resolvePort ns podSelector p := mem_flatMap
  by_cases hnil : c.resolvePorts ports ns podSelector = []
  · have hall : ∀ p ∈ ports, c.resolvePort ns podSelector p = [] := flatMap_eq_nil_iff.mp hnil
    have hno : ¬ ∃ p ∈ ports, pp ∈ c.resolvePort ns podSelector p := by
      rw [← hmem, hnil]
      exact not_mem_nil
    simp only [hnil, length_nil, if_true, List.mem_singleton, hno, false_or]
    exact ⟨fun h => ⟨hall, h⟩, fun h => h.2⟩
  · have hnot : ¬ ∀ p ∈ ports, c.resolvePort ns podSelector p = [] :=
      fun h => hnil (flatMap_eq_nil_iff.mpr h)
    have hlen : (c.resolvePorts ports ns podSelector).length ≠ 0 := by simpa using hnil
    simp only [hlen, if_false, hmem, hnot, false_and, or_false]

theorem rulePorts_ne_nil (ports : List NetworkPolicyPort) (ns : String) (sel : LabelSelector) :
    c.rulePorts ports ns sel ≠ [] := by
  unfold rulePorts
  intro h
  by_cases hl : (c.resolvePorts ports ns sel).length = 0
  · simp [hl] at h
  · simp only [hl, if_false] at h
    simp [h] at hl

end Compiler

end NovaNet
