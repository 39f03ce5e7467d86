import NovaNet.CompilerSpec

/-! From compiled rules to the POLICIES map: the encoding of the agent, the decoding
of the dataplane, and which policy writes which key. -/

namespace NovaNet

open LastWrite List IterOrder

inductive PolicyAction where
  | deny
  | allow
  deriving DecidableEq

structure PolicyEntry where
  srcIdentity : UInt32
  dstIdentity : UInt32
  protocol : UInt32
  dstPort : UInt32
  action : PolicyAction
  deriving DecidableEq

/-- Identities are truncated to the 32 bits of the wire format. -/
def toPolicyEntry (r : CompiledRule) : PolicyEntry where
  srcIdentity := r.srcIdentity.toUInt32
  dstIdentity := r.dstIdentity.toUInt32
  protocol := r.protocol.toUInt32
  dstPort := r.dstPort.toUInt32
  action := if r.action = actionAllow then .allow else .deny

def policyEntries (rules : List CompiledRule) : List PolicyEntry :=
  (rules.filter fun r => r.cidr = "").map toPolicyEntry

def decodePolicyEntry (e : PolicyEntry) : PolicyKey × PolicyValue :=
  (⟨e.srcIdentity, e.dstIdentity, e.protocol.toUInt8, e.dstPort.toUInt16⟩,
    ⟨match e.action with
      | .allow => actionAllow
      | .deny => actionDeny⟩)

def installedEntries (rules : List CompiledRule) : List (PolicyKey × PolicyValue) :=
  (policyEntries rules).map decodePolicyEntry

def syncRules (ok : IterOrder PolicyKey) (m : PolicyMap) (rules : List CompiledRule) : PolicyMap :=
  (RealMaps.syncPolicies ok m (installedEntries rules)).map

def allowValue : PolicyValue := ⟨actionAllow⟩

def denyValue : PolicyValue := ⟨actionDeny⟩

theorem allowValue_ne_denyValue : allowValue ≠ denyValue := by decide

theorem decode_toPolicyEntry (r : CompiledRule) : decodePolicyEntry (toPolicyEntry r) =
    (⟨r.srcIdentity.toUInt32, r.dstIdentity.toUInt32, r.protocol, r.dstPort⟩,
      if r.action = actionAllow then allowValue else denyValue) := by
  by_cases ha : r.action = actionAllow <;>
    simp [decodePolicyEntry, toPolicyEntry, ha, allowValue, denyValue]

variable {e : PolicyKey × PolicyValue} {peers : List NetworkPolicyPeer} {ports : List PortProto}
  {k : PolicyKey} {opens denies : Prop} {t : UInt64} {ns : String} {α : Type*} {eg : Bool}

theorem mem_installedEntries {rules : List CompiledRule} :
    e ∈ installedEntries rules ↔
      ∃ r ∈ rules, r.cidr = "" ∧ decodePolicyEntry (toPolicyEntry r) = e := by
  simp [installedEntries, policyEntries, and_assoc]

theorem installedEntries_append (l l' : List CompiledRule) :
    installedEntries (l ++ l') = installedEntries l ++ installedEntries l' := by
  simp [installedEntries, policyEntries]

theorem installedEntries_mapIdx (f : Nat → α → List CompiledRule) (l : List α) :
    installedEntries (l.mapIdx f).flatten = (l.mapIdx fun i a => installedEntries (f i a)).flatten := by
  induction l generalizing f with
  | nil => rfl
  | cons a l ih =>
    rw [mapIdx_cons, mapIdx_cons, flatten_cons, flatten_cons, installedEntries_append, ih]

/-- Both directions of a policy: rules that allow, or one that denies if there are none. -/
theorem mem_installed_direction {rules : List α} {f : Nat → α → List CompiledRule}
    {deny : CompiledRule} {k key : PolicyKey} {v : PolicyValue} {w : Prop} {p : α → Prop}
    {ty : Bool} {t : Prop} (hty : ty = true ↔ t)
    (hf : ∀ i a, (k, v) ∈ installedEntries (f i a) ↔ v = allowValue ∧ w ∧ p a)
    (hcidr : deny.cidr = "") (hdeny : decodePolicyEntry (toPolicyEntry deny) = (key, denyValue)) :
    (k, v) ∈ installedEntries (if ty = true then
      if rules.length = 0 then [deny] else (rules.mapIdx f).flatten else []) ↔
    v = allowValue ∧ (t ∧ w ∧ ∃ a ∈ rules, p a) ∨ v = denyValue ∧ t ∧ rules = [] ∧ k = key := by
  rw [← hty]
  cases ty with
  | false => simp [installedEntries, policyEntries]
  | true =>
    cases rules with
    | nil =>
      rw [if_pos rfl, if_pos length_nil, mem_installedEntries]
      constructor
      · rintro ⟨r, hr, -, he⟩
        rw [List.mem_singleton.mp hr, hdeny] at he
        cases he
        exact .inr ⟨rfl, rfl, rfl, rfl⟩
      · rintro (⟨-, -, -, a, ha, -⟩ | ⟨rfl, -, -, rfl⟩)
        · cases ha
        · exact ⟨deny, List.mem_singleton.mpr rfl, hcidr, hdeny⟩
    | cons a rules =>
      simp only [if_true, length_cons, Nat.add_one_ne_zero, if_false, reduceCtorEq,
        false_and, and_false, or_false, true_and]
      rw [installedEntries_mapIdx, mem_flatten_mapIdx hf]
      constructor
      · rintro ⟨a, ha, hv, hw, hp⟩
        exact ⟨hv, hw, a, ha, hp⟩
      · rintro ⟨hv, hw, a, ha, hp⟩
        exact ⟨a, ha, hv, hw, hp⟩

/-- The sides of a key as an ingress rule (`false`) or an egress rule (`true`) sees
them: its own end and the end of its peer. -/
def PolicyKey.ownEnd (k : PolicyKey) (isEgress : Bool) : UInt32 :=
  if isEgress then k.srcIdentity else k.dstIdentity

def PolicyKey.peerEnd (k : PolicyKey) (isEgress : Bool) : UInt32 :=
  if isEgress then k.dstIdentity else k.srcIdentity

theorem mem_installed_identityRules {ids : List UInt64} {v : PolicyValue} :
    (k, v) ∈ installedEntries (buildIdentityRules ids t ports eg ns) ↔
      v = allowValue ∧ k.ownEnd eg = t.toUInt32 ∧ (∃ id ∈ ids, id.toUInt32 = k.peerEnd eg) ∧
        ⟨k.protocol, k.dstPort⟩ ∈ ports := by
  simp only [mem_installedEntries, decode_toPolicyEntry, buildIdentityRules, mem_flatMap,
    List.mem_map, Prod.mk.injEq]
  obtain ⟨s, d, p, q⟩ := k
  constructor
  · rintro ⟨r, ⟨id, hid, pp, hpp, rfl⟩, -, hk, hv⟩
    cases eg <;>
      · simp only [PolicyKey.mk.injEq, Bool.false_eq_true, if_false, if_true] at hk hv
        obtain ⟨rfl, rfl, rfl, rfl⟩ := hk
        exact ⟨hv.symm, rfl, ⟨id, hid, rfl⟩, hpp⟩
  · rintro ⟨rfl, hown, ⟨id, hid, hpeer⟩, hpp⟩
    refine ⟨_, ⟨id, hid, ⟨p, q⟩, hpp, rfl⟩, rfl, ?_, by simp⟩
    cases eg <;>
      · simp only [PolicyKey.ownEnd, PolicyKey.peerEnd, Bool.false_eq_true, if_false,
          if_true] at hown hpeer
        simp [hown, hpeer]

theorem parseCIDR_empty : Net.parseCIDR "" = none := by decide

theorem cidr_ne_empty {e : CidrEntry} (he : e ∈ resolvePeersWithIPBlock peers) : e.cidr ≠ "" := by
  obtain ⟨peer, -, hm⟩ := mem_flatMap.mp he
  cases hb : peer.ipBlock with
  | none => simp [hb] at hm
  | some b =>
    have hsome : (Net.parseCIDR e.cidr).isSome = true := by
      simp only [hb, resolveIPBlockCIDRs] at hm
      by_cases hc : (Net.parseCIDR b.cidr).isSome = true
      · rw [if_pos hc] at hm
        rcases mem_cons.mp hm with rfl | hm
        · exact hc
        · obtain ⟨x, hx, rfl⟩ := List.mem_map.mp hm
          exact (mem_filter.mp hx).2
      · simp [hc] at hm
    intro h
    simp [h, parseCIDR_empty] at hsome

theorem installed_cidrRules :
    installedEntries (buildCIDRRules (resolvePeersWithIPBlock peers) t ports eg ns) = [] := by
  apply eq_nil_iff_forall_not_mem.mpr
  intro e he
  obtain ⟨r, hr, hcidr, -⟩ := mem_installedEntries.mp he
  obtain ⟨entry, hentry, hm⟩ := mem_flatMap.mp hr
  obtain ⟨pp, -, rfl⟩ := List.mem_map.mp hm
  exact cidr_ne_empty hentry hcidr

/-- The end of a packet that the direction is about. -/
def PolicyType.own {α : Type} (src dst : α) : PolicyType → α
  | .ingress => dst
  | .egress => src

theorem PolicyType.exists_iff {p : PolicyType → Prop} : (∃ pt, p pt) ↔ p .egress ∨ p .ingress :=
  ⟨fun ⟨pt, h⟩ => by cases pt <;> simp [h], fun h => h.elim (⟨_, ·⟩) (⟨_, ·⟩)⟩

/-- The peers and the ports of the rules of one direction. -/
def NetworkPolicy.rules (np : NetworkPolicy) :
    PolicyType → List (List NetworkPolicyPeer × List NetworkPolicyPort)
  | .ingress => np.ingress.map fun r => (r.from_, r.ports)
  | .egress => np.egress.map fun r => (r.to_, r.ports)

namespace Compiler

variable (c : Compiler) (np : NetworkPolicy) (pt : PolicyType) (t : UInt64) (k : PolicyKey)

def Opens : Prop :=
  np.OfType pt ∧ pt.own k.srcIdentity k.dstIdentity = t.toUInt32 ∧ ∃ rule ∈ np.rules pt,
    (∃ s, c.PeersReach np.namespace_ rule.1 s ∧ s.toUInt32 = pt.own k.dstIdentity k.srcIdentity) ∧
    c.PortsOpen np.namespace_ (pt.own .empty np.podSelector) rule.2 ⟨k.protocol, k.dstPort⟩

def Denies : Prop :=
  np.OfType pt ∧ np.rules pt = [] ∧ k = ⟨pt.own t.toUInt32 0, pt.own 0 t.toUInt32, 0, 0⟩

/-- Some target of the policy is left with an allow entry at the key. For one target
the egress entries come after the ingress entries. -/
def LeavesAllow : Prop :=
  ∃ t, c.Targets np t ∧ (c.Opens np .egress t k ∨ c.Opens np .ingress t k ∧ ¬ Denies np .egress t k)

def LeavesDeny : Prop :=
  ∃ t, c.Targets np t ∧ (Denies np .egress t k ∨ Denies np .ingress t k ∧ ¬ c.Opens np .egress t k)

end Compiler

open Classical in
noncomputable def writeOf (opens denies : Prop) : Option PolicyValue :=
  if opens then some allowValue else if denies then some denyValue else none

theorem written_eq_writeOf {l : PolicyEntries}
    (h : ∀ v, (k, v) ∈ l ↔ v = allowValue ∧ opens ∨ v = denyValue ∧ denies)
    (hex : opens → ¬ denies) : written k l = writeOf opens denies := by
  have hallow := (h allowValue).mpr
  have hdeny := (h denyValue).mpr
  unfold writeOf
  cases hw : written k l with
  | none =>
    have hno := written_eq_none_iff.mp hw
    have ho : ¬ opens := fun ho => hno _ (hallow (.inl ⟨rfl, ho⟩)) rfl
    have hd : ¬ denies := fun hd => hno _ (hdeny (.inr ⟨rfl, hd⟩)) rfl
    simp [ho, hd]
  | some v =>
    rcases (h v).mp (mem_of_written hw) with ⟨rfl, ho⟩ | ⟨rfl, hd⟩
    · simp [ho]
    · have ho : ¬ opens := fun ho => hex ho hd
      simp [ho, hd]

theorem writeOf_eq_none_iff : writeOf opens denies = none ↔ ¬ opens ∧ ¬ denies := by
  unfold writeOf
  by_cases ho : opens <;> by_cases hd : denies <;> simp [ho, hd]

theorem writeOf_eq_allow_iff : writeOf opens denies = some allowValue ↔ opens := by
  have hne := allowValue_ne_denyValue.symm
  unfold writeOf
  by_cases ho : opens <;> by_cases hd : denies <;> simp [ho, hd, hne]

theorem writeOf_eq_deny_iff : writeOf opens denies = some denyValue ↔ ¬ opens ∧ denies := by
  have hne := allowValue_ne_denyValue
  unfold writeOf
  by_cases ho : opens <;> by_cases hd : denies <;> simp [ho, hd, hne]

namespace Compiler

variable {c : Compiler} {np : NetworkPolicy} {t : UInt64} {k : PolicyKey} {v : PolicyValue}
  {o : IterOrder UInt64} {site : List Nat}

theorem mem_installed_ingressRule (site : List Nat) (rule : NetworkPolicyIngressRule) :
    (k, v) ∈ installedEntries (c.compileIngressRule o site rule t np.namespace_ np.podSelector) ↔
      v = allowValue ∧ k.dstIdentity = t.toUInt32 ∧
        (∃ s, c.PeersReach np.namespace_ rule.from_ s ∧ s.toUInt32 = k.srcIdentity) ∧
        c.PortsOpen np.namespace_ np.podSelector rule.ports ⟨k.protocol, k.dstPort⟩ := by
  rw [compileIngressRule, installedEntries_append, installed_cidrRules, append_nil,
    mem_installed_identityRules]
  simp only [mem_ruleIdentities, mem_rulePorts]
  rfl

theorem mem_installed_egressRule (site : List Nat) (rule : NetworkPolicyEgressRule) :
    (k, v) ∈ installedEntries (c.compileEgressRule o site rule t np.namespace_) ↔
      v = allowValue ∧ k.srcIdentity = t.toUInt32 ∧
        (∃ d, c.PeersReach np.namespace_ rule.to_ d ∧ d.toUInt32 = k.dstIdentity) ∧
        c.PortsOpen np.namespace_ .empty rule.ports ⟨k.protocol, k.dstPort⟩ := by
  rw [compileEgressRule, installedEntries_append, installed_cidrRules, append_nil,
    mem_installed_identityRules]
  simp only [mem_ruleIdentities, mem_rulePorts]
  rfl

theorem mem_installed_ingress :
    (k, v) ∈ installedEntries (c.compileIngress o site np t) ↔
      v = allowValue ∧ c.Opens np .ingress t k ∨ v = denyValue ∧ Denies np .ingress t k := by
  simp only [Opens, Denies, NetworkPolicy.rules, mem_map, exists_exists_and_eq_and, map_eq_nil_iff]
  exact mem_installed_direction hasPolicyType_iff
    (fun i rule => mem_installed_ingressRule (i :: 0 :: site) rule) rfl (decode_toPolicyEntry _)

theorem mem_installed_egress :
    (k, v) ∈ installedEntries (c.compileEgress o site np t) ↔
      v = allowValue ∧ c.Opens np .egress t k ∨ v = denyValue ∧ Denies np .egress t k := by
  simp only [Opens, Denies, NetworkPolicy.rules, mem_map, exists_exists_and_eq_and, map_eq_nil_iff]
  exact mem_installed_direction hasPolicyType_iff
    (fun i rule => mem_installed_egressRule (i :: 1 :: site) rule) rfl (decode_toPolicyEntry _)

theorem Opens.not_denies {pt : PolicyType} (h : c.Opens np pt t k) : ¬ Denies np pt t k := by
  obtain ⟨-, -, rule, hr, -⟩ := h
  rintro ⟨-, hnil, -⟩
  simp [hnil] at hr

noncomputable def targetWrite (c : Compiler) (np : NetworkPolicy) (k : PolicyKey) (t : UInt64) :
    Option PolicyValue :=
  (writeOf (c.Opens np .egress t k) (Denies np .egress t k)).or
    (writeOf (c.Opens np .ingress t k) (Denies np .ingress t k))

theorem written_target (site : List Nat) (t : UInt64) :
    written k (installedEntries
      (c.compileIngress o site np t ++ c.compileEgress o site np t)) = c.targetWrite np k t := by
  rw [installedEntries_append, written_append,
    written_eq_writeOf (fun v => mem_installed_ingress) Opens.not_denies,
    written_eq_writeOf (fun v => mem_installed_egress) Opens.not_denies, targetWrite]

theorem targetWrite_values (h : c.targetWrite np k t = some v) : v = allowValue ∨ v = denyValue := by
  unfold targetWrite writeOf at h
  split at h <;> split at h <;> grind

theorem targetWrite_eq_allow_iff : c.targetWrite np k t = some allowValue ↔
    c.Opens np .egress t k ∨ c.Opens np .ingress t k ∧ ¬ Denies np .egress t k := by
  rw [targetWrite, Option.or_eq_some_iff, writeOf_eq_allow_iff, writeOf_eq_allow_iff,
    writeOf_eq_none_iff]
  by_cases ho : c.Opens np .egress t k
  · simp [ho]
  · simp [ho, and_comm]

theorem targetWrite_eq_deny_iff : c.targetWrite np k t = some denyValue ↔
    Denies np .egress t k ∨ Denies np .ingress t k ∧ ¬ c.Opens np .egress t k := by
  rw [targetWrite, Option.or_eq_some_iff, writeOf_eq_deny_iff, writeOf_eq_deny_iff, writeOf_eq_none_iff]
  by_cases hd : Denies np .egress t k
  · have ho : ¬ c.Opens np .egress t k := fun h => h.not_denies hd
    simp [hd, ho]
  · have hi : Denies np .ingress t k → ¬ c.Opens np .ingress t k :=
      fun hdeny hopen => hopen.not_denies hdeny
    constructor
    · rintro (⟨-, h⟩ | ⟨⟨ho, -⟩, -, h⟩)
      · exact absurd h hd
      · exact .inr ⟨h, ho⟩
    · rintro (h | ⟨h, ho⟩)
      · exact absurd h hd
      · exact .inr ⟨⟨ho, hd⟩, hi h, h⟩

def Leaves (c : Compiler) (np : NetworkPolicy) (k : PolicyKey) (v : PolicyValue) : Prop :=
  ∃ t, c.Targets np t ∧ c.targetWrite np k t = some v

theorem leaves_allow_iff : c.Leaves np k allowValue ↔ c.LeavesAllow np k := by
  simp only [Leaves, LeavesAllow, targetWrite_eq_allow_iff]

theorem leaves_deny_iff : c.Leaves np k denyValue ↔ c.LeavesDeny np k := by
  simp only [Leaves, LeavesDeny, targetWrite_eq_deny_iff]

theorem Leaves.cases (h : c.Leaves np k v) :
    v = allowValue ∧ c.LeavesAllow np k ∨ v = denyValue ∧ c.LeavesDeny np k := by
  obtain ⟨t, -, ht⟩ := id h
  rcases targetWrite_values ht with rfl | rfl
  · exact .inl ⟨rfl, leaves_allow_iff.mp h⟩
  · exact .inr ⟨rfl, leaves_deny_iff.mp h⟩

theorem written_compilePolicy :
    written k (installedEntries (c.compilePolicy o site np)) =
      lastSome (c.targetWrite np k) (c.targetIdentities o site np) := by
  rw [compilePolicy, installedEntries_mapIdx]
  exact lastSome_flatten_mapIdx _ (fun j t => written_target (j :: 1 :: site) t) _

theorem leaves_of_written (h : written k (installedEntries (c.compilePolicy o site np)) = some v) :
    c.Leaves np k v := by
  rw [written_compilePolicy] at h
  obtain ⟨t, ht, hv⟩ := exists_of_lastSome h
  exact ⟨t, mem_targetIdentities.mp ht, hv⟩

theorem written_compilePolicy_eq_none_iff :
    written k (installedEntries (c.compilePolicy o site np)) = none ↔
      ¬ c.LeavesAllow np k ∧ ¬ c.LeavesDeny np k := by
  rw [written_compilePolicy, lastSome_eq_none_iff, ← leaves_allow_iff, ← leaves_deny_iff]
  constructor
  · intro h
    have hno : ∀ v, ¬ c.Leaves np k v := by
      rintro v ⟨t, ht, hv⟩
      simp [h t (mem_targetIdentities.mpr ht)] at hv
    exact ⟨hno _, hno _⟩
  · rintro ⟨ha, hd⟩ t ht
    cases hw : c.targetWrite np k t with
    | none => rfl
    | some v =>
      have hl : c.Leaves np k v := ⟨t, mem_targetIdentities.mp ht, hw⟩
      rcases targetWrite_values hw with rfl | rfl
      · exact absurd hl ha
      · exact absurd hl hd

/-- Every value a target leaves is the final one for some iteration order: visit that
target last. -/
theorem exists_order_written (site : List Nat) (h : c.Leaves np k v) :
    ∃ o, written k (installedEntries (c.compilePolicy o site np)) = some v := by
  obtain ⟨t, ht, hv⟩ := h
  suffices hs : ∃ o l, c.targetIdentities o site np = l ++ [t] by
    obtain ⟨o, l, hl⟩ := hs
    refine ⟨o, ?_⟩
    rw [written_compilePolicy, hl, lastSome_append]
    simp [hv]
  rcases ht with ⟨hok, hm | ⟨hm, rfl⟩⟩ | ⟨hok, rfl⟩
  · refine ⟨arbitrary.visitLast (0 :: site) t,
      (arbitrary.enum (0 :: site) (c.identityAllocator.matching (targetSelector np))).erase t, ?_⟩
    rw [targetIdentities_eq, if_pos hok, findOrFallback_of_mem hok hm]
    exact visitLast_enum arbitrary (0 :: site) hm
  · refine ⟨arbitrary, [], ?_⟩
    rw [targetIdentities_eq, if_pos hok, findOrFallback_of_empty hok hm]
    rfl
  · refine ⟨arbitrary, [], ?_⟩
    rw [targetIdentities_eq, hok]
    rfl

end Compiler

end NovaNet
