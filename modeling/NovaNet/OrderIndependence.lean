import NovaNet.PolicyVerdict

/-! Whether the installed map depends on the order of the policies or on the order in
which identities are enumerated. -/

namespace NovaNet

open LastWrite

/-- Every permutation of the policies, with every choice of iteration orders, gives
one map and one verdict. -/
structure OrderIndependent (c : Compiler) (policies : List NetworkPolicy) : Prop where
  map_eq : ∀ policies', policies'.Perm policies → ∀ o o' ok ok',
    c.installed o ok policies' = c.installed o' ok' policies
  verdict_eq : ∀ policies', policies'.Perm policies → ∀ o o' ok ok' src dst proto port,
    checkPolicy (c.installed o ok policies') src dst proto port =
      checkPolicy (c.installed o' ok' policies) src dst proto port

namespace Compiler

variable {c : Compiler} {policies : List NetworkPolicy} {k : PolicyKey} {v : PolicyValue}

/-- Move the policy to the end and let the right target come last in it. -/
theorem exists_perm_lookup {np : NetworkPolicy} (hnp : np ∈ policies) (h : c.Leaves np k v)
    (ok : IterOrder PolicyKey) :
    ∃ policies' o, policies'.Perm policies ∧ (c.installed o ok policies').lookup k = some v := by
  obtain ⟨pre, post, rfl⟩ := List.append_of_mem hnp
  obtain ⟨o, ho⟩ := exists_order_written [(pre ++ post).length] h
  refine ⟨(pre ++ post) ++ [np], o, ?_, ?_⟩
  · exact (List.perm_append_singleton np (pre ++ post)).trans List.perm_middle.symm
  · rw [lookup_installed_concat, ho]
    rfl

theorem not_leaves_both (hi : OrderIndependent c policies) {np np' : NetworkPolicy}
    (hnp : np ∈ policies) (hnp' : np' ∈ policies) (k : PolicyKey) :
    ¬ (c.LeavesAllow np k ∧ c.LeavesDeny np' k) := by
  rintro ⟨ha, hd⟩
  obtain ⟨p, o, hp, hallow⟩ := exists_perm_lookup hnp (leaves_allow_iff.mpr ha) .arbitrary
  obtain ⟨p', o', hp', hdeny⟩ := exists_perm_lookup hnp' (leaves_deny_iff.mpr hd) .arbitrary
  have he := hi.map_eq p hp o .arbitrary .arbitrary .arbitrary
  have he' := hi.map_eq p' hp' o' .arbitrary .arbitrary .arbitrary
  rw [he] at hallow
  rw [he', hallow] at hdeny
  exact allowValue_ne_denyValue (Option.some.inj hdeny)

theorem lookup_eq_of_disjoint
    (h : ∀ np ∈ policies, ∀ np' ∈ policies, ¬ (c.LeavesAllow np k ∧ c.LeavesDeny np' k))
    {policies' : List NetworkPolicy} (hp : policies'.Perm policies) {o o' : IterOrder UInt64}
    {ok ok' : IterOrder PolicyKey} :
    (c.installed o ok policies').lookup k = (c.installed o' ok' policies).lookup k := by
  cases hl : (c.installed o' ok' policies).lookup k with
  | none =>
    have hno := lookup_installed_eq_none_iff.mp hl
    exact lookup_installed_eq_none_iff.mpr fun np hnp => hno np (hp.mem_iff.mp hnp)
  | some v =>
    obtain ⟨np, hnp, hv⟩ := leaves_of_lookup hl
    cases hl' : (c.installed o ok policies').lookup k with
    | none =>
      have hno := lookup_installed_eq_none_iff.mp hl' np (hp.mem_iff.mpr hnp)
      rcases hv.cases with ⟨-, ha⟩ | ⟨-, hd⟩
      · exact absurd ha hno.1
      · exact absurd hd hno.2
    | some v' =>
      obtain ⟨np', hnp', hv'⟩ := leaves_of_lookup hl'
      have hmem := hp.mem_iff.mp hnp'
      rcases hv.cases with ⟨rfl, ha⟩ | ⟨rfl, hd⟩ <;> rcases hv'.cases with ⟨rfl, ha'⟩ | ⟨rfl, hd'⟩
      · rfl
      · exact absurd ⟨ha, hd'⟩ (h np hnp np' hmem)
      · exact absurd ⟨ha', hd⟩ (h np' hmem np hnp)
      · rfl

end Compiler

theorem orderIndependent_iff (c : Compiler) (policies : List NetworkPolicy) :
    OrderIndependent c policies ↔
      ∀ np ∈ policies, ∀ np' ∈ policies, ∀ k, ¬ (c.LeavesAllow np k ∧ c.LeavesDeny np' k) := by
  constructor
  · intro hi np hnp np' hnp' k
    exact Compiler.not_leaves_both hi hnp hnp' k
  · intro h
    have hmap : ∀ policies', policies'.Perm policies → ∀ o o' ok ok',
        c.installed o ok policies' = c.installed o' ok' policies := by
      intro policies' hp o o' ok ok'
      apply Finmap.ext_lookup
      intro k
      exact Compiler.lookup_eq_of_disjoint (fun np hnp np' hnp' => h np hnp np' hnp' k) hp
    refine ⟨hmap, ?_⟩
    intro policies' hp o o' ok ok' src dst proto port
    rw [hmap policies' hp o o' ok ok']

section Example

def denyIngressToDb : NetworkPolicy where
  namespace_ := "default"
  podSelector := appSelector "db"
  policyTypes := [.ingress]
  ingress := []
  egress := []

def allowIngressToDb : NetworkPolicy := { denyIngressToDb with ingress := [⟨[], []⟩] }

/-- The later of a deny-all and an allow-all policy wins. -/
theorem orderIndependent_fails :
    ¬ OrderIndependent exampleCompiler [denyIngressToDb, allowIngressToDb] := by
  intro h
  have he := h.verdict_eq [allowIngressToDb, denyIngressToDb] (List.Perm.swap _ _ _) identityOrder
    identityOrder .arbitrary .arbitrary 8 9 6 80
  simp only [Compiler.installed, syncRules, RealMaps.syncPolicies_empty] at he
  revert he
  decide +kernel

end Example

end NovaNet
