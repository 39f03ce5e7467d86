import NovaNet.EgressGateway

/-! Runs of the egress gateway reconciler. For every rule it is remembered for which policy it was
created, which the reconciler itself does not do. -/

namespace NovaNet

open LastWrite Option

inductive GatewayCall where
  | reconcile (env : GatewayEnv) (policy : EgressGatewayPolicy) (nodes : List String)
  | delete (env : GatewayEnv) (ns name : String)

namespace GatewayCall

def target : GatewayCall → String × String
  | .reconcile _ policy _ => (policy.namespace_, policy.name)
  | .delete _ ns name => (ns, name)

def Removes : GatewayCall → Prop
  | .reconcile env policy nodes => policy.check env nodes = .ok ()
  | .delete _ _ _ => True

instance decidableRemoves : (c : GatewayCall) → Decidable c.Removes
  | .reconcile env policy nodes => inferInstanceAs (Decidable (policy.check env nodes = .ok ()))
  | .delete _ _ _ => isTrue trivial

def created (c : GatewayCall) : List EgressRule :=
  match c with
  | .reconcile env policy nodes => if c.Removes then policy.rules env nodes else []
  | .delete _ _ _ => []

def Creates (c : GatewayCall) (key : String) : Prop :=
  key ∈ c.created.map fun rule => ruleKey c.target.1 rule.name

instance (c : GatewayCall) (key : String) : Decidable (c.Creates key) :=
  inferInstanceAs (Decidable (_ ∈ _))

/-- The name of a Kubernetes namespace holds no slash. Nothing else is asked of the names. -/
def ValidNames (c : GatewayCall) : Prop := '/' ∉ c.target.1.toList

instance (c : GatewayCall) : Decidable c.ValidNames := inferInstanceAs (Decidable (¬ _))

end GatewayCall

open GatewayCall

structure GatewayRun where
  reconciler : EgressGatewayReconciler
  creator : String → Option (String × String)

namespace GatewayRun

variable {s : GatewayRun} {c : GatewayCall}

def rule (s : GatewayRun) (key : String) : Option CompiledEgressRule :=
  s.reconciler.egressMgr.rules.lookup key

def start (r : EgressGatewayReconciler) : GatewayRun := ⟨r, fun _ => none⟩

def reconcilerAfter (r : EgressGatewayReconciler) : GatewayCall → EgressGatewayReconciler
  | .reconcile env policy nodes => (r.reconcile env policy nodes).2
  | .delete env ns name => r.delete env ns name

def creatorAfter (s : GatewayRun) (c : GatewayCall) (key : String) : Option (String × String) :=
  ((reconcilerAfter s.reconciler c).egressMgr.rules.lookup key).bind fun _ =>
    if c.Creates key then some c.target else s.creator key

def call (s : GatewayRun) (c : GatewayCall) : GatewayRun :=
  ⟨reconcilerAfter s.reconciler c, s.creatorAfter c⟩

/-- What is created for the other policies is neither added, removed nor changed, and a deletion
leaves nothing that was created for its own policy. -/
structure Independent (s : GatewayRun) (c : GatewayCall) : Prop where
  others : ∀ policy ≠ c.target, ∀ key,
    ((s.call c).creator key = some policy ↔ s.creator key = some policy) ∧
    (s.creator key = some policy → (s.call c).rule key = s.rule key)
  deleted : ∀ env ns name, c = .delete env ns name → ∀ key, (s.call c).creator key ≠ some (ns, name)

/-- No rule that was created for another policy begins with the prefix of this one. -/
def Apart (s : GatewayRun) (c : GatewayCall) : Prop :=
  c.Removes → ∀ key ∈ s.reconciler.egressMgr.rules.keys, ∀ r ∈ s.rule key,
    r.Under c.target.1 c.target.2 → s.creator key = none ∨ s.creator key = some c.target

instance (s : GatewayRun) (c : GatewayCall) : Decidable (s.Apart c) :=
  inferInstanceAs (Decidable (_ → _))

def Along (p : GatewayRun → GatewayCall → Prop) : GatewayRun → List GatewayCall → Prop
  | _, [] => True
  | s, c :: calls => p s c ∧ Along p (s.call c) calls

instance decidableAlong (p : GatewayRun → GatewayCall → Prop) [∀ s c, Decidable (p s c)] :
    (s : GatewayRun) → (calls : List GatewayCall) → Decidable (Along p s calls)
  | _, [] => isTrue trivial
  | s, c :: calls =>
    have := decidableAlong p (s.call c) calls
    inferInstanceAs (Decidable (_ ∧ _))

def Traced (s : GatewayRun) : Prop :=
  ∀ key policy, s.creator key = some policy → '/' ∉ policy.1.toList ∧
    ∃ r, s.rule key = some r ∧ r.Under policy.1 policy.2

theorem traced_start (r : EgressGatewayReconciler) : (start r).Traced := nofun

section Step

theorem created_of_not_removes (h : ¬ c.Removes) : c.created = [] := by
  cases c with
  | reconcile env policy nodes => exact if_neg h
  | delete env ns name => rfl

theorem call_of_not_removes (s : GatewayRun) (h : ¬ c.Removes) :
    (s.call c).reconciler = s.reconciler := by
  cases c with
  | delete env ns name => exact absurd trivial h
  | reconcile env policy nodes =>
    cases hcheck : policy.check env nodes with
    | ok u => exact absurd hcheck h
    | error e => exact congrArg Prod.snd (reconcile_of_check_error s.reconciler hcheck)

theorem rule_call_of_removes (s : GatewayRun) (h : c.Removes) (key : String) :
    (s.call c).rule key = (written key (ruleEntries c.target.1 c.created)).or
      ((s.rule key).filter fun r => ¬ r.Under c.target.1 c.target.2) := by
  cases c with
  | delete env ns name => exact delete_replaces env s.reconciler ns name key
  | reconcile env policy nodes =>
    obtain ⟨r', hreconcile, hreplaces⟩ := reconcile_of_check s.reconciler h
    have hafter : (s.call (.reconcile env policy nodes)).reconciler = r' :=
      congrArg Prod.snd hreconcile
    rw [created, if_pos h, rule, hafter]
    exact hreplaces key

variable {policy : String × String} {key : String} {rule : EgressRule}

theorem created_spec (h : rule ∈ c.created) :
    (rulePrefix c.target.2).toList <+: rule.name.toList ∧
      (Net.parseCIDR rule.dstCIDR).isSome = true := by
  cases c with
  | delete env ns name => cases h
  | reconcile env policy nodes =>
    by_cases hremoves : (GatewayCall.reconcile env policy nodes).Removes
    · rw [created, if_pos hremoves] at h
      exact ⟨(rule_spec h).1, parse_of_check hremoves _ (rule_spec h).2⟩
    · simp [created_of_not_removes hremoves] at h

theorem removes_of_mem_created (h : rule ∈ c.created) : c.Removes := by
  by_contra hnot
  simp [created_of_not_removes hnot] at h

theorem rule_call_of_created (h : c.Creates key) :
    ∃ r, (s.call c).rule key = some r ∧ r.Under c.target.1 c.target.2 := by
  obtain ⟨rule, hrule, rfl⟩ := List.mem_map.mp h
  obtain ⟨net, hnet⟩ := isSome_iff_exists.mp (created_spec hrule).2
  have hentry : (ruleKey c.target.1 rule.name, compileEgressRule c.target.1 rule net) ∈
      ruleEntries c.target.1 c.created := mem_ruleEntries.mpr ⟨rule, hrule, net, hnet, rfl⟩
  cases hw : written (ruleKey c.target.1 rule.name) (ruleEntries c.target.1 c.created) with
  | none => exact absurd rfl (written_eq_none_iff.mp hw _ hentry)
  | some r =>
    obtain ⟨rule', hrule', net', -, he⟩ := mem_ruleEntries.mp (mem_of_written hw)
    obtain ⟨-, rfl⟩ := Prod.mk.inj he
    refine ⟨compileEgressRule c.target.1 rule' net', ?_, rfl, (created_spec hrule').1⟩
    rw [rule_call_of_removes s (removes_of_mem_created hrule), hw, some_or]

theorem rule_call_of_not_created (h : ¬ c.Creates key) :
    (s.call c).rule key =
      (s.rule key).filter fun r => ¬ (c.Removes ∧ r.Under c.target.1 c.target.2) := by
  by_cases hremoves : c.Removes
  · have hw : written key (ruleEntries c.target.1 c.created) = none := by
      refine written_eq_none_iff.mpr fun e he heq => h ?_
      obtain ⟨rule, hrule, net, -, rfl⟩ := mem_ruleEntries.mp he
      exact List.mem_map.mpr ⟨rule, hrule, heq⟩
    rw [rule_call_of_removes s hremoves, hw, none_or]
    simp only [hremoves, true_and]
  · have hsame : (s.call c).rule key = s.rule key := by
      rw [rule, rule, call_of_not_removes s hremoves]
    rw [hsame]
    simp only [hremoves, false_and, not_false_eq_true, decide_true]
    cases s.rule key <;> rfl

theorem creator_call_of_created (h : c.Creates key) : (s.call c).creator key = some c.target := by
  obtain ⟨r, hr, -⟩ := rule_call_of_created (s := s) h
  have hr' : (reconcilerAfter s.reconciler c).egressMgr.rules.lookup key = some r := hr
  simp only [call, creatorAfter, hr', bind_some, if_pos h]

theorem creator_call_of_not_created (h : ¬ c.Creates key) :
    (s.call c).creator key = some policy ↔
      s.creator key = some policy ∧ ∃ r, (s.call c).rule key = some r := by
  have hcall : (s.call c).creator key = ((s.call c).rule key).bind fun _ => s.creator key := by
    simp only [call, creatorAfter, if_neg h]
    rfl
  rw [hcall]
  cases (s.call c).rule key <;> simp

theorem traced_call (hs : s.Traced) (hvalid : c.ValidNames) : (s.call c).Traced := by
  intro key policy hcreator
  by_cases hcreated : c.Creates key
  · rw [creator_call_of_created hcreated] at hcreator
    cases hcreator
    exact ⟨hvalid, rule_call_of_created hcreated⟩
  · obtain ⟨hold, r, hr⟩ := (creator_call_of_not_created hcreated).mp hcreator
    obtain ⟨hslash, r', hr', hunder⟩ := hs key policy hold
    rw [rule_call_of_not_created hcreated, hr', filter_eq_some_iff] at hr
    cases hr.1
    refine ⟨hslash, r, ?_, hunder⟩
    rwa [rule_call_of_not_created hcreated, hr', filter_eq_some_iff]

theorem under_of_created (hs : s.Traced) (hvalid : c.ValidNames)
    (hcreator : s.creator key = some policy) (h : c.Creates key) :
    ∃ r, s.rule key = some r ∧ r.Under c.target.1 c.target.2 := by
  obtain ⟨hslash, r, hr, hunder⟩ := hs key policy hcreator
  obtain ⟨rule, hrule, rfl⟩ := List.mem_map.mp h
  have hkey := s.reconciler.egressMgr.keyed _ r hr
  rw [hunder.1] at hkey
  obtain ⟨hns, hname⟩ := ruleKey_inj hslash hvalid hkey
  refine ⟨r, hr, hunder.1.trans hns, ?_⟩
  rw [hname]
  exact (created_spec hrule).1

theorem apart_iff : s.Apart c ↔ (c.Removes → ∀ key r, s.rule key = some r →
    r.Under c.target.1 c.target.2 → s.creator key = none ∨ s.creator key = some c.target) := by
  refine imp_congr_right fun _ => ⟨fun h key r hr => ?_, fun h key _ r hr => h key r hr⟩
  exact h key (Finmap.mem_keys.mpr (Finmap.mem_of_lookup_eq_some hr)) r hr

theorem keeps_other (hs : s.Traced) (hvalid : c.ValidNames) (hapart : s.Apart c)
    (hne : policy ≠ c.target) (hcreator : s.creator key = some policy) :
    ¬ c.Creates key ∧ (s.call c).rule key = s.rule key := by
  have hnot : ∀ r, s.rule key = some r → ¬ (c.Removes ∧ r.Under c.target.1 c.target.2) := by
    rintro r hr ⟨hremoves, hunder⟩
    rcases apart_iff.mp hapart hremoves key r hr hunder with h | h
    · simp [hcreator] at h
    · rw [hcreator] at h
      exact hne (Option.some.inj h)
  have hcreated : ¬ c.Creates key := by
    intro h
    obtain ⟨r, hr, hunder⟩ := under_of_created hs hvalid hcreator h
    obtain ⟨rule, hrule, -⟩ := List.mem_map.mp h
    exact hnot r hr ⟨removes_of_mem_created hrule, hunder⟩
  refine ⟨hcreated, ?_⟩
  obtain ⟨-, r, hr, -⟩ := hs key policy hcreator
  rw [rule_call_of_not_created hcreated, hr, filter_some, if_pos (decide_eq_true (hnot r hr))]

theorem independent_of_apart (hs : s.Traced) (hvalid : c.ValidNames) (hapart : s.Apart c) :
    s.Independent c where
  others := by
    intro policy hne key
    refine ⟨⟨fun h => ?_, fun h => ?_⟩, fun h => (keeps_other hs hvalid hapart hne h).2⟩
    · by_cases hcreated : c.Creates key
      · rw [creator_call_of_created hcreated] at h
        exact absurd (Option.some.inj h).symm hne
      · exact ((creator_call_of_not_created hcreated).mp h).1
    · obtain ⟨hcreated, hrule⟩ := keeps_other hs hvalid hapart hne h
      obtain ⟨-, r, hr, -⟩ := hs key policy h
      exact (creator_call_of_not_created hcreated).mpr ⟨h, r, hrule.trans hr⟩
  deleted := by
    rintro env ns name rfl key h
    have hcreated : ¬ (delete env ns name).Creates key := List.not_mem_nil
    obtain ⟨hold, r, hr⟩ := (creator_call_of_not_created hcreated).mp h
    obtain ⟨-, r', hr', hunder⟩ := hs key _ hold
    rw [rule_call_of_not_created hcreated, hr', filter_eq_some_iff] at hr
    cases hr.1
    simp [GatewayCall.Removes, target, hunder] at hr

theorem apart_of_independent (h : s.Independent c) : s.Apart c := by
  refine apart_iff.mpr fun hremoves key r hr hunder => ?_
  cases hcreator : s.creator key with
  | none => exact .inl rfl
  | some policy =>
    refine .inr (congrArg some ?_)
    by_contra hne
    obtain ⟨hkeeps, hrule⟩ := h.others policy hne key
    by_cases hcreated : c.Creates key
    · have hsame := hkeeps.mpr hcreator
      rw [creator_call_of_created hcreated] at hsame
      exact hne (Option.some.inj hsame).symm
    · have hsame := hrule hcreator
      rw [rule_call_of_not_created hcreated, hr, filter_some] at hsame
      simp [hremoves, hunder] at hsame

end Step

theorem along_independent_iff (hs : s.Traced) {calls : List GatewayCall}
    (hvalid : ∀ c ∈ calls, c.ValidNames) : Along Independent s calls ↔ Along Apart s calls := by
  induction calls generalizing s with
  | nil => exact Iff.rfl
  | cons c calls ih =>
    obtain ⟨hc, hrest⟩ := List.forall_mem_cons.mp hvalid
    exact and_congr ⟨apart_of_independent, independent_of_apart hs hc⟩ (ih (traced_call hs hc) hrest)

/-- The policies are independent along a run exactly when no call finds a rule of another policy
under its own prefix. -/
theorem gateway_policies_independent_iff (r : EgressGatewayReconciler) (calls : List GatewayCall)
    (hvalid : ∀ c ∈ calls, c.ValidNames) :
    Along Independent (start r) calls ↔ Along Apart (start r) calls :=
  along_independent_iff (traced_start r) hvalid

def gatewayEnv : GatewayEnv := ⟨.new, identityOrder, .sorted, fun _ => true⟩

def emptyReconciler : EgressGatewayReconciler := ⟨⟨false, ∅, nofun⟩, ∅⟩

def gatewayPolicy (name : String) : EgressGatewayPolicy :=
  ⟨"default", name, ⟨∅, []⟩, ["10.0.0.0/8"], [], ""⟩

def twoPolicies (name name' : String) : List GatewayCall :=
  [.reconcile gatewayEnv (gatewayPolicy name) ["gw"],
    .reconcile gatewayEnv (gatewayPolicy name') ["gw"], .delete gatewayEnv "default" name]

theorem gateway_policies_independent_example :
    Along Apart (start emptyReconciler) (twoPolicies "web" "db") ∧
      Along Independent (start emptyReconciler) (twoPolicies "web" "db") :=
  ⟨by decide +kernel, (gateway_policies_independent_iff emptyReconciler (twoPolicies "web" "db")
    (by decide)).mpr (by decide +kernel)⟩

/-- The rule of web-canary begins with the prefix of web, so deleting web removes it. -/
theorem gateway_policies_interfere :
    (∀ c ∈ twoPolicies "web" "web-canary", c.ValidNames) ∧
      ¬ Along Independent (start emptyReconciler) (twoPolicies "web" "web-canary") ∧
      (((twoPolicies "web" "web-canary").take 2).foldl call (start emptyReconciler)).rule
        "default/egp-web-canary-gw-0" ≠ none ∧
      ((twoPolicies "web" "web-canary").foldl call (start emptyReconciler)).rule
        "default/egp-web-canary-gw-0" = none := by
  refine ⟨by decide, ?_, by decide +kernel, by decide +kernel⟩
  rw [along_independent_iff (traced_start emptyReconciler) (by decide)]
  decide +kernel

/-- The CIDRs of the rules are those checked before, so no rule can fail to be added. -/
theorem reconcile_error_no_effect (r : EgressGatewayReconciler) (env : GatewayEnv)
    (policy : EgressGatewayPolicy) (nodes : List String) {e : GatewayError}
    (h : (r.reconcile env policy nodes).1 = .error e) : (r.reconcile env policy nodes).2 = r := by
  cases hcheck : policy.check env nodes with
  | error e' => rw [reconcile_of_check_error r hcheck]
  | ok u =>
    obtain ⟨r', hok, -⟩ := reconcile_of_check r hcheck
    simp [hok] at h

theorem reconcile_error_no_effect_example :
    let r := (emptyReconciler.reconcile gatewayEnv (gatewayPolicy "web") ["gw"]).2
    (r.reconcile gatewayEnv (gatewayPolicy "web") []).2 = r :=
  reconcile_error_no_effect _ _ _ _ (e := .noGatewayNodes "default/web") (by decide +kernel)

end GatewayRun

end NovaNet
