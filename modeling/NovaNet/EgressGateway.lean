import NovaNet.AddrText
import NovaNet.EgressSync

/-! The reconciler of EgressGatewayPolicy objects (internal/egressgateway/reconciler.go). It keeps
the rules of a policy in the egress manager and finds them again by the beginning of their
names. -/

namespace NovaNet

open LastWrite List Option

structure EgressGatewayPolicy where
  namespace_ : String
  name : String
  podSelector : LabelSelector
  destinationCIDRs : List String
  excludedCIDRs : List String
  egressIP : String

/-- The reconciled state of a policy, `Policy` in the source. -/
structure GatewayPolicyState where
  namespace_ : String
  name : String
  podSelector : LabelSelector
  destCIDRs : List String
  excludedCIDRs : List String
  gatewayNodes : List String
  activeGateway : String
  egressIP : String

inductive GatewayError where
  | noGatewayNodes (key : String)
  | invalidDestinationCIDR (cidr : String)
  | invalidExcludedCIDR (cidr : String)
  | podSelector
  | addingRule (cidr : String)
  deriving DecidableEq

structure GatewayEnv where
  identityAlloc : Allocator
  identityOrder : IterOrder UInt64
  ruleOrder : IterOrder String
  selectorOk : LabelSelector → Bool

structure EgressGatewayReconciler where
  egressMgr : EgressManager
  policies : Finmap fun _ : String => GatewayPolicyState

def policyKey (ns name : String) : String := ns ++ "/" ++ name

def rulePrefix (name : String) : String := "egp-" ++ name ++ "-"

def CompiledEgressRule.Under (r : CompiledEgressRule) (ns name : String) : Prop :=
  r.namespace_ = ns ∧ (rulePrefix name).toList <+: r.name.toList

instance (r : CompiledEgressRule) (ns name : String) : Decidable (r.Under ns name) :=
  inferInstanceAs (Decidable (_ ∧ _))

def EgressManager.removeIfUnder (ns name : String) (m : EgressManager) (r : CompiledEgressRule) :
    EgressManager :=
  if r.Under ns name then m.removeEgressRule ns r.name else m

open EgressManager

def EgressManager.removeRulesForPolicy (m : EgressManager) (o : IterOrder String)
    (ns name : String) : EgressManager :=
  (m.getRules o).foldl (removeIfUnder ns name) m

def addGatewayRules (ns : String) :
    EgressManager → List EgressRule → Except GatewayError Unit × EgressManager
  | m, [] => (.ok (), m)
  | m, rule :: rules =>
    match m.addEgressRule ns rule with
    | some m' => addGatewayRules ns m' rules
    | none => (.error (.addingRule rule.dstCIDR), m)

section Rules

variable (name activeGateway : String)

def pairRuleName (i j : Nat) : String :=
  "egp-" ++ name ++ "-" ++ activeGateway ++ "-" ++ Nat.repr i ++ "-" ++ Nat.repr j

def wildcardRuleName (i : Nat) : String :=
  "egp-" ++ name ++ "-" ++ activeGateway ++ "-" ++ Nat.repr i

def gatewayRule (ruleName cidr : String) (srcIdentity : UInt64) : EgressRule :=
  ⟨ruleName, srcIdentity, cidr, 0, 0, EgressAction.snat.number⟩

def gatewayRules (destCIDRs : List String) (matchingIdentities : List UInt64) : List EgressRule :=
  (destCIDRs.mapIdx fun i cidr => matchingIdentities.mapIdx fun j srcID =>
    gatewayRule (pairRuleName name activeGateway i j) cidr srcID).flatten ++
  if matchingIdentities.length = 0 then
    destCIDRs.mapIdx fun i cidr => gatewayRule (wildcardRuleName name activeGateway i) cidr 0
  else []

end Rules

def firstInvalidCIDR (cidrs : List String) : Option String :=
  cidrs.find? fun cidr => (Net.parseCIDR cidr).isNone

def sortNodes (nodes : List String) : List String := nodes.insertionSort (· ≤ ·)

namespace EgressGatewayPolicy

def destCIDRs (policy : EgressGatewayPolicy) : List String :=
  if policy.destinationCIDRs.length = 0 then ["0.0.0.0/0"] else policy.destinationCIDRs

def activeGateway (nodes : List String) : String := (sortNodes nodes).headD ""

def rules (env : GatewayEnv) (policy : EgressGatewayPolicy) (nodes : List String) :
    List EgressRule :=
  gatewayRules policy.name (activeGateway nodes) policy.destCIDRs
    (env.identityAlloc.findMatchingIdentities env.identityOrder [] policy.podSelector)

def state (policy : EgressGatewayPolicy) (nodes : List String) : GatewayPolicyState where
  namespace_ := policy.namespace_
  name := policy.name
  podSelector := policy.podSelector
  destCIDRs := policy.destCIDRs
  excludedCIDRs := policy.excludedCIDRs
  gatewayNodes := sortNodes nodes
  activeGateway := activeGateway nodes
  egressIP := policy.egressIP

def check (env : GatewayEnv) (policy : EgressGatewayPolicy) (nodes : List String) :
    Except GatewayError Unit :=
  if nodes.length = 0 then .error (.noGatewayNodes (policyKey policy.namespace_ policy.name))
  else
    match firstInvalidCIDR policy.destinationCIDRs with
    | some cidr => .error (.invalidDestinationCIDR cidr)
    | none =>
      match firstInvalidCIDR policy.excludedCIDRs with
      | some cidr => .error (.invalidExcludedCIDR cidr)
      | none => if env.selectorOk policy.podSelector then .ok () else .error .podSelector

end EgressGatewayPolicy

namespace EgressGatewayReconciler

def reconcile (env : GatewayEnv) (r : EgressGatewayReconciler) (policy : EgressGatewayPolicy)
    (nodes : List String) : Except GatewayError Unit × EgressGatewayReconciler :=
  match policy.check env nodes with
  | .error e => (.error e, r)
  | .ok () =>
    let mgr := r.egressMgr.removeRulesForPolicy env.ruleOrder policy.namespace_ policy.name
    match addGatewayRules policy.namespace_ mgr (policy.rules env nodes) with
    | (.error e, mgr) => (.error e, { r with egressMgr := mgr })
    | (.ok (), mgr) =>
      (.ok (), ⟨mgr, r.policies.insert (policyKey policy.namespace_ policy.name) (policy.state nodes)⟩)

def delete (env : GatewayEnv) (r : EgressGatewayReconciler) (ns name : String) :
    EgressGatewayReconciler where
  egressMgr := r.egressMgr.removeRulesForPolicy env.ruleOrder ns name
  policies := r.policies.erase (policyKey ns name)

end EgressGatewayReconciler

section Names

theorem ruleKey_inj {ns ns' name name' : String} (h : '/' ∉ ns.toList) (h' : '/' ∉ ns'.toList)
    (heq : ruleKey ns name = ruleKey ns' name') : ns = ns' ∧ name = name' := by
  have hlist := congrArg String.toList heq
  simp only [ruleKey, String.toList_append, append_assoc] at hlist
  obtain ⟨hns, hname⟩ := append_cons_inj h h' hlist
  exact ⟨String.toList_inj.mp hns, String.toList_inj.mp hname⟩

end Names

section Removal

variable {m : EgressManager} {o : IterOrder String} {ns name key : String}

theorem rules_foldl_removeIfUnder (l : List CompiledEgressRule) (m : EgressManager) :
    (l.foldl (removeIfUnder ns name) m).rules =
      eraseAll m.rules ((l.filter (·.Under ns name)).map fun r => ruleKey ns r.name) := by
  induction l generalizing m with
  | nil => rfl
  | cons r l ih =>
    rw [foldl_cons, ih, removeIfUnder]
    by_cases hr : r.Under ns name
    · rw [if_pos hr, filter_cons_of_pos (by simpa using hr)]
      rfl
    · rw [if_neg hr, filter_cons_of_neg (by simpa using hr)]

theorem lookup_removeRulesForPolicy : (m.removeRulesForPolicy o ns name).rules.lookup key =
    (m.rules.lookup key).filter fun r => ¬ r.Under ns name := by
  rw [removeRulesForPolicy, rules_foldl_removeIfUnder, lookup_eraseAll]
  have hmem : key ∈ ((m.getRules o).filter (·.Under ns name)).map (fun r => ruleKey ns r.name) ↔
      ∃ r, m.rules.lookup key = some r ∧ r.Under ns name := by
    simp only [List.mem_map, mem_filter, mem_getRules, decide_eq_true_eq]
    constructor
    · rintro ⟨r, ⟨hr, hunder⟩, rfl⟩
      rw [hunder.1] at hr
      exact ⟨r, hr, hunder⟩
    · rintro ⟨r, hr, hunder⟩
      have hkey := m.keyed key r hr
      exact ⟨r, ⟨by rwa [hkey], hunder⟩, by rw [← hunder.1]; exact hkey⟩
  cases hr : m.rules.lookup key with
  | none => simp
  | some r =>
    by_cases hunder : r.Under ns name
    · rw [if_pos (hmem.mpr ⟨r, hr, hunder⟩), filter_some, if_neg (by simpa using hunder)]
    · have hnot : key ∉ ((m.getRules o).filter (·.Under ns name)).map fun r => ruleKey ns r.name := by
        intro h
        obtain ⟨r', hr', hunder'⟩ := hmem.mp h
        rw [hr] at hr'
        cases hr'
        exact hunder hunder'
      rw [if_neg hnot, filter_some, if_pos (by simpa using hunder)]

end Removal

section Additions

variable {ns : String} {rules : List EgressRule}

def compileEgressRule (ns : String) (rule : EgressRule) (net : Net.IPNet) : CompiledEgressRule :=
  ⟨ns, rule.name, rule.srcIdentity, net, rule.protocol, rule.dstPort, rule.action⟩

def ruleEntries (ns : String) (rules : List EgressRule) : List (String × CompiledEgressRule) :=
  rules.filterMap fun rule => (Net.parseCIDR rule.dstCIDR).map fun net =>
    (ruleKey ns rule.name, compileEgressRule ns rule net)

theorem addGatewayRules_ok (ns : String) (m : EgressManager)
    (hparse : ∀ rule ∈ rules, (Net.parseCIDR rule.dstCIDR).isSome = true) :
    ∃ m', addGatewayRules ns m rules = (.ok (), m') ∧
      m'.rules = assign m.rules (ruleEntries ns rules) := by
  induction rules generalizing m with
  | nil => exact ⟨m, rfl, rfl⟩
  | cons rule rules ih =>
    obtain ⟨hrule, hrest⟩ := forall_mem_cons.mp hparse
    obtain ⟨net, hnet⟩ := isSome_iff_exists.mp hrule
    obtain ⟨m', hadd, hrules⟩ := ih (m.store (compileEgressRule ns rule net)) hrest
    refine ⟨m', ?_, ?_⟩
    · simp only [addGatewayRules, addEgressRule, hnet, map_some]
      exact hadd
    · rw [hrules, ruleEntries, ruleEntries, filterMap_cons_some (by rw [hnet]; rfl)]
      rfl

theorem mem_ruleEntries {e : String × CompiledEgressRule} :
    e ∈ ruleEntries ns rules ↔ ∃ rule ∈ rules, ∃ net, Net.parseCIDR rule.dstCIDR = some net ∧
      e = (ruleKey ns rule.name, compileEgressRule ns rule net) := by
  simp only [ruleEntries, mem_filterMap, map_eq_some_iff]
  constructor <;>
  · rintro ⟨rule, hrule, net, hnet, rfl⟩
    exact ⟨rule, hrule, net, hnet, rfl⟩

end Additions

section Reconcile

variable {env : GatewayEnv} {policy : EgressGatewayPolicy} {nodes : List String}

theorem mem_gatewayRules {name gateway : String} {cidrs : List String} {ids : List UInt64}
    {rule : EgressRule} : rule ∈ gatewayRules name gateway cidrs ids ↔
      (∃ i, ∃ hi : i < cidrs.length, ∃ j, ∃ hj : j < ids.length,
        rule = gatewayRule (pairRuleName name gateway i j) cidrs[i] ids[j]) ∨
      ids = [] ∧ ∃ i, ∃ hi : i < cidrs.length,
        rule = gatewayRule (wildcardRuleName name gateway i) cidrs[i] 0 := by
  unfold gatewayRules
  rw [mem_append, mem_flatten]
  refine or_congr ?_ ?_
  · constructor
    · rintro ⟨l, hl, hrule⟩
      obtain ⟨i, hi, rfl⟩ := mem_mapIdx.mp hl
      obtain ⟨j, hj, rfl⟩ := mem_mapIdx.mp hrule
      exact ⟨i, hi, j, hj, rfl⟩
    · rintro ⟨i, hi, j, hj, rfl⟩
      exact ⟨_, mem_mapIdx.mpr ⟨i, hi, rfl⟩, mem_mapIdx.mpr ⟨j, hj, rfl⟩⟩
  · cases ids with
    | nil =>
      simp only [length_nil, if_true, mem_mapIdx, true_and]
      constructor <;>
      · rintro ⟨i, hi, rfl⟩
        exact ⟨i, hi, rfl⟩
    | cons id ids => simp

theorem rule_spec {rule : EgressRule} (h : rule ∈ policy.rules env nodes) :
    (rulePrefix policy.name).toList <+: rule.name.toList ∧ rule.dstCIDR ∈ policy.destCIDRs := by
  have hprefix (x : String) : (rulePrefix policy.name).toList <+:
      ("egp-" ++ policy.name ++ "-" ++ x).toList := by
    rw [String.toList_append]
    exact prefix_append _ _
  rcases mem_gatewayRules.mp h with ⟨i, hi, j, hj, rfl⟩ | ⟨-, i, hi, rfl⟩ <;>
  · refine ⟨?_, getElem_mem hi⟩
    simp only [gatewayRule, pairRuleName, wildcardRuleName, String.append_assoc]
    rw [← String.append_assoc, ← String.append_assoc]
    exact hprefix _

theorem parse_of_check (h : policy.check env nodes = .ok ()) :
    ∀ cidr ∈ policy.destCIDRs, (Net.parseCIDR cidr).isSome = true := by
  have hdest : firstInvalidCIDR policy.destinationCIDRs = none := by
    unfold EgressGatewayPolicy.check at h
    split at h
    · cases h
    · cases hd : firstInvalidCIDR policy.destinationCIDRs with
      | none => rfl
      | some cidr => rw [hd] at h; cases h
  intro cidr hcidr
  unfold EgressGatewayPolicy.destCIDRs at hcidr
  split at hcidr
  · rw [List.mem_singleton.mp hcidr]
    decide
  · have hnone := List.find?_eq_none.mp hdest cidr hcidr
    simpa [isSome_iff_ne_none] using hnone

def Replaces (m m' : EgressManager) (ns name : String)
    (entries : List (String × CompiledEgressRule)) : Prop :=
  ∀ key, m'.rules.lookup key =
    (written key entries).or ((m.rules.lookup key).filter fun r => ¬ r.Under ns name)

theorem reconcile_of_check (r : EgressGatewayReconciler) (h : policy.check env nodes = .ok ()) :
    ∃ r', r.reconcile env policy nodes = (.ok (), r') ∧
      Replaces r.egressMgr r'.egressMgr policy.namespace_ policy.name
        (ruleEntries policy.namespace_ (policy.rules env nodes)) := by
  have hparse : ∀ rule ∈ policy.rules env nodes, (Net.parseCIDR rule.dstCIDR).isSome = true :=
    fun rule hrule => parse_of_check h _ (rule_spec hrule).2
  obtain ⟨m', hadd, hrules⟩ := addGatewayRules_ok policy.namespace_
    (r.egressMgr.removeRulesForPolicy env.ruleOrder policy.namespace_ policy.name) hparse
  refine ⟨⟨m', r.policies.insert (policyKey policy.namespace_ policy.name) (policy.state nodes)⟩,
    ?_, fun key => ?_⟩
  · simp only [EgressGatewayReconciler.reconcile, h, hadd]
  · simp only [hrules, lookup_assign, lookup_removeRulesForPolicy]

theorem reconcile_of_check_error (r : EgressGatewayReconciler) {e : GatewayError}
    (h : policy.check env nodes = .error e) : r.reconcile env policy nodes = (.error e, r) := by
  simp only [EgressGatewayReconciler.reconcile, h]

theorem delete_replaces (env : GatewayEnv) (r : EgressGatewayReconciler) (ns name : String) :
    Replaces r.egressMgr (r.delete env ns name).egressMgr ns name [] := fun _ => by
  rw [written_nil, none_or]
  exact lookup_removeRulesForPolicy

end Reconcile

end NovaNet
