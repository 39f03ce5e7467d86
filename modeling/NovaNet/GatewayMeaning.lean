import NovaNet.EgressGateway

/-! What the rules of an egress gateway policy select, against what the policy says. The rules
forget the namespace and the excluded CIDRs, and a policy that selects no identity gets rules for
all of them. -/

namespace NovaNet

open LastWrite List

section RuleNames

variable {name gateway : String}

theorem toList_repr (n : Nat) : n.repr.toList = Nat.toDigits 10 n := by
  rw [Nat.repr_eq_ofList_toDigits, String.toList_ofList]

theorem toList_repr_inj {m n : Nat} (h : m.repr.toList = n.repr.toList) : m = n := by
  rw [toList_repr, toList_repr] at h
  rw [← Nat.ofDigitChars_ten_toDigits (n := m), h, Nat.ofDigitChars_ten_toDigits]

theorem dash_not_mem_repr (n : Nat) : '-' ∉ n.repr.toList := by
  rw [toList_repr]
  exact Net.not_mem_toDigits (fun _ => Nat.digitChar_ne '-' (by decide)) (by decide) n

theorem pairRuleName_inj {i i' j j' : Nat}
    (h : pairRuleName name gateway i j = pairRuleName name gateway i' j') : i = i' ∧ j = j' := by
  have hlist := congrArg String.toList h
  simp only [pairRuleName, String.toList_append, append_assoc, append_cancel_left_eq] at hlist
  obtain ⟨hi, hj⟩ := append_cons_inj (dash_not_mem_repr i) (dash_not_mem_repr i') hlist
  exact ⟨toList_repr_inj hi, toList_repr_inj hj⟩

theorem wildcardRuleName_inj {i i' : Nat}
    (h : wildcardRuleName name gateway i = wildcardRuleName name gateway i') : i = i' := by
  have hlist := congrArg String.toList h
  simp only [wildcardRuleName, String.toList_append, append_assoc, append_cancel_left_eq] at hlist
  exact toList_repr_inj hlist

theorem gatewayRules_name_inj {cidrs : List String} {ids : List UInt64} {rule rule' : EgressRule}
    (h : rule ∈ gatewayRules name gateway cidrs ids)
    (h' : rule' ∈ gatewayRules name gateway cidrs ids) (heq : rule.name = rule'.name) :
    rule = rule' := by
  rcases mem_gatewayRules.mp h with ⟨i, hi, j, hj, rfl⟩ | ⟨hids, i, hi, rfl⟩
  · rcases mem_gatewayRules.mp h' with ⟨i', hi', j', hj', rfl⟩ | ⟨hids, -⟩
    · obtain ⟨rfl, rfl⟩ := pairRuleName_inj heq
      rfl
    · rw [hids] at hj
      exact absurd hj (Nat.not_lt_zero j)
  · rcases mem_gatewayRules.mp h' with ⟨i', hi', j', hj', -⟩ | ⟨-, i', hi', rfl⟩
    · rw [hids] at hj'
      exact absurd hj' (Nat.not_lt_zero j')
    · obtain rfl := wildcardRuleName_inj heq
      rfl

end RuleNames

def InCIDRs (cidrs : List String) (d : UInt32) : Prop :=
  ∃ cidr ∈ cidrs, ∃ net ∈ Net.parseCIDR cidr, net.contains (.v4 d) = true

instance (cidrs : List String) (d : UInt32) : Decidable (InCIDRs cidrs d) :=
  inferInstanceAs (Decidable (∃ cidr ∈ cidrs, _))

namespace EgressGatewayPolicy

variable {env : GatewayEnv} {policy : EgressGatewayPolicy} {nodes : List String}

def Selects (policy : EgressGatewayPolicy) (lbls : Labels) : Prop :=
  lbls.lookup namespaceLabel = some policy.namespace_ ∧ policy.podSelector.matches lbls = true

def Says (policy : EgressGatewayPolicy) (lbls : Labels) (d : UInt32) : Prop :=
  policy.Selects lbls ∧ InCIDRs policy.destCIDRs d ∧ ¬ InCIDRs policy.excludedCIDRs d

def Takes (policy : EgressGatewayPolicy) (m : EgressManager) (s : UInt64) (d : UInt32) : Prop :=
  ∃ key r, m.rules.lookup key = some r ∧ r.Under policy.namespace_ policy.name ∧
    (r.srcIdentity = s ∨ r.srcIdentity = 0) ∧ r.dstCIDR.contains (.v4 d) = true

def Meant (env : GatewayEnv) (policy : EgressGatewayPolicy) (m : EgressManager) : Prop :=
  ∀ s lbls, env.identityAlloc.idToLabels.lookup s = some lbls → ∀ d,
    (policy.Takes m s d ↔ policy.Says lbls d)

/-- The identities that the rules reach: those that the selector matches in any namespace, and
all when it matches none or matches the identity 0. -/
def Reaches (env : GatewayEnv) (policy : EgressGatewayPolicy) (s : UInt64) : Prop :=
  env.identityAlloc.matching policy.podSelector = ∅ ∨
    0 ∈ env.identityAlloc.matching policy.podSelector ∨
    s ∈ env.identityAlloc.matching policy.podSelector

/-- The identities that the rules reach are those of the policy, and nothing that it excludes is
in a destination. -/
structure Aligned (env : GatewayEnv) (policy : EgressGatewayPolicy) : Prop where
  selected : ∀ s lbls, env.identityAlloc.idToLabels.lookup s = some lbls →
    policy.Reaches env s → policy.Selects lbls
  disjoint : (∃ s lbls, env.identityAlloc.idToLabels.lookup s = some lbls ∧
    policy.Reaches env s) → ∀ d, InCIDRs policy.destCIDRs d → ¬ InCIDRs policy.excludedCIDRs d

theorem ruleEntries_functional {e e' : String × CompiledEgressRule}
    (h : e ∈ ruleEntries policy.namespace_ (policy.rules env nodes))
    (h' : e' ∈ ruleEntries policy.namespace_ (policy.rules env nodes)) (heq : e'.1 = e.1) :
    e'.2 = e.2 := by
  obtain ⟨rule, hrule, net, hnet, rfl⟩ := mem_ruleEntries.mp h
  obtain ⟨rule', hrule', net', hnet', rfl⟩ := mem_ruleEntries.mp h'
  have hname : rule'.name = rule.name := by
    have hlist := congrArg String.toList heq
    simp only [ruleKey, String.toList_append, append_cancel_left_eq] at hlist
    exact String.toList_inj.mp hlist
  obtain rfl := gatewayRules_name_inj hrule' hrule hname
  rw [hnet] at hnet'
  cases hnet'
  rfl

theorem under_iff {m m' : EgressManager} {r : CompiledEgressRule}
    (h : Replaces m m' policy.namespace_ policy.name
      (ruleEntries policy.namespace_ (policy.rules env nodes))) :
    (∃ key, m'.rules.lookup key = some r ∧ r.Under policy.namespace_ policy.name) ↔
      ∃ e ∈ ruleEntries policy.namespace_ (policy.rules env nodes), e.2 = r := by
  constructor
  · rintro ⟨key, hkey, hunder⟩
    rw [h key, Option.or_eq_some_iff] at hkey
    rcases hkey with hw | ⟨-, hold⟩
    · exact ⟨_, mem_of_written hw, rfl⟩
    · simp [Option.filter_eq_some_iff, hunder] at hold
  · rintro ⟨e, he, rfl⟩
    obtain ⟨rule, hrule, net, hnet, rfl⟩ := mem_ruleEntries.mp he
    refine ⟨ruleKey policy.namespace_ rule.name, ?_, rfl, (rule_spec hrule).1⟩
    rw [h, (written_of_forall fun e' he' heq => ruleEntries_functional he he' heq).mpr
      ⟨_, he, rfl⟩, Option.some_or]

theorem exists_gatewayRule_iff {name gateway : String} {cidrs : List String} {ids : List UInt64}
    {p : UInt64 → String → Prop} :
    (∃ rule ∈ gatewayRules name gateway cidrs ids, p rule.srcIdentity rule.dstCIDR) ↔
      (∃ s, (s ∈ ids ∨ ids = [] ∧ s = 0) ∧ ∃ cidr ∈ cidrs, p s cidr) := by
  constructor
  · rintro ⟨rule, hrule, hp⟩
    rcases mem_gatewayRules.mp hrule with ⟨i, hi, j, hj, rfl⟩ | ⟨hids, i, hi, rfl⟩
    · exact ⟨ids[j], .inl (getElem_mem hj), cidrs[i], getElem_mem hi, hp⟩
    · exact ⟨0, .inr ⟨hids, rfl⟩, cidrs[i], getElem_mem hi, hp⟩
  · rintro ⟨s, hs, cidr, hcidr, hp⟩
    obtain ⟨i, hi, rfl⟩ := getElem_of_mem hcidr
    rcases hs with hs | ⟨hids, rfl⟩
    · obtain ⟨j, hj, rfl⟩ := getElem_of_mem hs
      exact ⟨_, mem_gatewayRules.mpr (.inl ⟨i, hi, j, hj, rfl⟩), hp⟩
    · exact ⟨_, mem_gatewayRules.mpr (.inr ⟨hids, i, hi, rfl⟩), hp⟩

theorem reaches_iff {s : UInt64} : policy.Reaches env s ↔ ∃ s',
    (s' ∈ env.identityAlloc.findMatchingIdentities env.identityOrder [] policy.podSelector ∨
      env.identityAlloc.findMatchingIdentities env.identityOrder [] policy.podSelector = [] ∧
        s' = 0) ∧ (s' = s ∨ s' = 0) := by
  have hnil :
      env.identityAlloc.findMatchingIdentities env.identityOrder [] policy.podSelector = [] ↔
        env.identityAlloc.matching policy.podSelector = ∅ := by
    rw [eq_nil_iff_forall_not_mem, Finset.eq_empty_iff_forall_notMem]
    simp only [Allocator.mem_findMatchingIdentities]
  simp only [Allocator.mem_findMatchingIdentities, hnil]
  constructor
  · rintro (hnone | hzero | hs)
    · exact ⟨0, .inr ⟨hnone, rfl⟩, .inr rfl⟩
    · exact ⟨0, .inl hzero, .inr rfl⟩
    · exact ⟨s, .inl hs, .inl rfl⟩
  · rintro ⟨s', hs' | ⟨hnone, -⟩, rfl | rfl⟩
    · exact .inr (.inr hs')
    · exact .inr (.inl hs')
    · exact .inl hnone
    · exact .inl hnone

theorem takes_iff {m m' : EgressManager} {s : UInt64} {d : UInt32}
    (h : Replaces m m' policy.namespace_ policy.name
      (ruleEntries policy.namespace_ (policy.rules env nodes))) :
    policy.Takes m' s d ↔ policy.Reaches env s ∧ InCIDRs policy.destCIDRs d := by
  have hentries : policy.Takes m' s d ↔ ∃ rule ∈ policy.rules env nodes,
      (rule.srcIdentity = s ∨ rule.srcIdentity = 0) ∧
        ∃ net ∈ Net.parseCIDR rule.dstCIDR, net.contains (.v4 d) = true := by
    constructor
    · rintro ⟨key, r, hr, hunder, hsrc, hdst⟩
      obtain ⟨e, he, rfl⟩ := (under_iff h).mp ⟨key, hr, hunder⟩
      obtain ⟨rule, hrule, net, hnet, rfl⟩ := mem_ruleEntries.mp he
      exact ⟨rule, hrule, hsrc, net, hnet, hdst⟩
    · rintro ⟨rule, hrule, hsrc, net, hnet, hdst⟩
      obtain ⟨key, hr, hunder⟩ :=
        (under_iff h).mpr ⟨_, mem_ruleEntries.mpr ⟨rule, hrule, net, hnet, rfl⟩, rfl⟩
      exact ⟨key, _, hr, hunder, hsrc, hdst⟩
  rw [hentries, rules, exists_gatewayRule_iff (p := fun src cidr => (src = s ∨ src = 0) ∧
    ∃ net ∈ Net.parseCIDR cidr, net.contains (.v4 d) = true), reaches_iff]
  constructor
  · rintro ⟨s', hs', cidr, hcidr, hsrc, hnet⟩
    exact ⟨⟨s', hs', hsrc⟩, cidr, hcidr, hnet⟩
  · rintro ⟨⟨s', hs', hsrc⟩, cidr, hcidr, hnet⟩
    exact ⟨s', hs', cidr, hcidr, hsrc, hnet⟩

theorem reaches_of_selects {s : UInt64} {lbls : Labels}
    (hs : env.identityAlloc.idToLabels.lookup s = some lbls) (h : policy.Selects lbls) :
    policy.Reaches env s :=
  .inr (.inr (Allocator.mem_matching.mpr ⟨lbls, hs, h.2⟩))

theorem replaces_of_reconcile {r r' : EgressGatewayReconciler}
    (h : r.reconcile env policy nodes = (.ok (), r')) :
    Replaces r.egressMgr r'.egressMgr policy.namespace_ policy.name
      (ruleEntries policy.namespace_ (policy.rules env nodes)) := by
  cases hcheck : policy.check env nodes with
  | error e => simp [reconcile_of_check_error r hcheck] at h
  | ok u =>
    obtain ⟨r'', hreconcile, hreplaces⟩ := reconcile_of_check r hcheck
    rw [hreconcile] at h
    cases h
    exact hreplaces

/-- After a successful reconciliation the rules take what the policy says exactly when nothing
can be told apart, for want of an IPv4 destination, or the policy is aligned with its rules. -/
theorem gateway_rules_mean_policy_iff {r r' : EgressGatewayReconciler}
    (h : r.reconcile env policy nodes = (.ok (), r')) :
    policy.Meant env r'.egressMgr ↔ (∀ d, ¬ InCIDRs policy.destCIDRs d) ∨ policy.Aligned env := by
  simp only [Meant, takes_iff (replaces_of_reconcile h)]
  constructor
  · intro hmeans
    rw [or_iff_not_imp_left]
    intro hdest
    push Not at hdest
    obtain ⟨d₀, hd₀⟩ := hdest
    refine ⟨fun s lbls hs hreach => ((hmeans s lbls hs d₀).mp ⟨hreach, hd₀⟩).1, ?_⟩
    rintro ⟨s, lbls, hs, hreach⟩ d hd
    exact ((hmeans s lbls hs d).mp ⟨hreach, hd⟩).2.2
  · rintro (hnone | haligned) s lbls hs d
    · exact ⟨fun hd => absurd hd.2 (hnone d), fun hd => absurd hd.2.1 (hnone d)⟩
    · constructor
      · rintro ⟨hreach, hd⟩
        exact ⟨haligned.selected s lbls hs hreach, hd, haligned.disjoint ⟨s, lbls, hs, hreach⟩ d hd⟩
      · rintro ⟨hselects, hd, -⟩
        exact ⟨reaches_of_selects hs hselects, hd⟩

def webLabels (ns : String) : Labels :=
  (Finmap.singleton "app" "web").insert namespaceLabel ns

def oneIdentity : Allocator := ⟨(∅ : Finmap _).insert 7 (webLabels "default"), ∅, ∅⟩

def twoIdentities : Allocator :=
  ⟨oneIdentity.idToLabels.insert 8 (webLabels "other"), ∅, ∅⟩

def envWith (a : Allocator) : GatewayEnv := ⟨a, NovaNet.identityOrder, .sorted, fun _ => true⟩

def webPolicy (excludedCIDRs : List String) : EgressGatewayPolicy :=
  ⟨"default", "web", ⟨Finmap.singleton "app" "web", []⟩, ["10.0.0.0/8"], excludedCIDRs, ""⟩

def reconciled (a : Allocator) (excludedCIDRs : List String) :
    Except GatewayError Unit × EgressGatewayReconciler :=
  EgressGatewayReconciler.reconcile (envWith a) ⟨⟨false, ∅, EgressManager.keyed_empty⟩, ∅⟩ (webPolicy excludedCIDRs)
    ["gw"]

theorem aligned_oneIdentity : (webPolicy []).Aligned (envWith oneIdentity) where
  selected := by
    intro s lbls hs _
    rcases lookup_insert_eq_some hs with ⟨rfl, rfl⟩ | ⟨-, hold⟩
    · exact ⟨by decide +kernel, by decide +kernel⟩
    · cases hold
  disjoint := by
    rintro - d - ⟨cidr, hcidr, -⟩
    cases hcidr

theorem gateway_rules_mean_policy_example :
    (reconciled oneIdentity []).1 = .ok () ∧
      (webPolicy []).Meant (envWith oneIdentity) (reconciled oneIdentity []).2.egressMgr := by
  have hok : (reconciled oneIdentity []).1 = .ok () := by decide +kernel
  exact ⟨hok, (gateway_rules_mean_policy_iff (Prod.ext hok rfl)).mpr (.inr aligned_oneIdentity)⟩

/-- The excluded address 10.1.0.1 is taken, and so is the traffic of a pod of another namespace. -/
theorem gateway_rules_miss_policy :
    (reconciled twoIdentities ["10.1.0.0/16"]).1 = .ok () ∧
      twoIdentities.idToLabels.lookup 7 = some (webLabels "default") ∧
      twoIdentities.idToLabels.lookup 8 = some (webLabels "other") ∧
      (webPolicy ["10.1.0.0/16"]).Takes (reconciled twoIdentities ["10.1.0.0/16"]).2.egressMgr
        7 0x0a010001 ∧
      ¬ (webPolicy ["10.1.0.0/16"]).Says (webLabels "default") 0x0a010001 ∧
      (webPolicy ["10.1.0.0/16"]).Takes (reconciled twoIdentities ["10.1.0.0/16"]).2.egressMgr
        8 0x0a000001 ∧
      ¬ (webPolicy ["10.1.0.0/16"]).Says (webLabels "other") 0x0a000001 := by
  refine ⟨by decide +kernel, by decide +kernel, by decide +kernel, ?_, ?_, ?_, ?_⟩
  · exact ⟨"default/egp-web-gw-0-0",
      ⟨"default", "egp-web-gw-0-0", 7, ⟨.v4 0x0a000000, 8⟩, 0, 0, 2⟩, by decide +kernel⟩
  · rintro ⟨-, -, hexcluded⟩
    exact hexcluded (by decide +kernel)
  · exact ⟨"default/egp-web-gw-0-1",
      ⟨"default", "egp-web-gw-0-1", 8, ⟨.v4 0x0a000000, 8⟩, 0, 0, 2⟩, by decide +kernel⟩
  · rintro ⟨⟨hns, -⟩, -⟩
    exact absurd hns (by decide +kernel)

end EgressGatewayPolicy

end NovaNet
