import NovaNet.EgressSync

/-! Runs of syncs. What a run leaves in the egress map and in the egress manager is
followed call by call from the state in which the agent started. -/

namespace NovaNet

open LastWrite List EgressLoop Option

def Encodes (r : CompiledRule) (k : EgressKey) : Prop :=
  (ruleMapKey r).bind EgressMapKey.encode = some k

inductive SyncRun (ok : Server → List CompiledRule → Prop) (s₀ : Server) (m₀ : EgressMaps) :
    List (List CompiledRule) → Server → EgressMaps → Prop
  | start (h : s₀.prevEgressKeys = ∅) : SyncRun ok s₀ m₀ [] s₀ m₀
  | call {calls : List (List CompiledRule)} {s : Server} {maps : EgressMaps}
      {rules : List CompiledRule} (o : EgressOrders) (h : SyncRun ok s₀ m₀ calls s maps)
      (hok : ok s rules) : SyncRun ok s₀ m₀ (rules :: calls) (syncEgressRules o s maps rules).1
        (syncEgressRules o s maps rules).2.1

structure Exact (s₀ : Server) (m₀ : EgressMaps) (calls : List (List CompiledRule)) (s : Server)
    (maps : EgressMaps) : Prop where
  present : ∀ r ∈ calls.headD [], r.isEgress = true → ∀ k, Encodes r k →
    ∃ snat, snat4 (snatIPStr s₀.egressMgr s₀.nodeIP) = some snat ∧
      maps.v4.lookup k = some ⟨(ruleAction r).number, snat⟩
  no_other : ∀ rules ∈ calls, ∀ r ∈ rules, ∀ k, Encodes r k →
    (∀ r' ∈ calls.headD [], r'.isEgress = true → ¬ Encodes r' k) → maps.v4.lookup k = none
  untouched : ∀ k, (∀ rules ∈ calls, ∀ r ∈ rules, ¬ Encodes r k) → maps.v4.lookup k = m₀.v4.lookup k
  manager : ∀ key e, s₀.egressMgr.rules.lookup key = some e → s.egressMgr.rules.lookup key = some e

/-- The calls that keep the map exact, where `others` holds the rules that other
users of the manager stored. -/
structure CleanCall (others : EgressManager) (s : Server) (rules : List CompiledRule) :
    Prop where
  snat : ∀ r ∈ rules, ∀ k, Encodes r k → snat4 (snatIPStr s.egressMgr s.nodeIP) ≠ none
  egress : ∀ r ∈ rules, ∀ k, Encodes r k → r.isEgress = true
  agree : ∀ r ∈ rules, ∀ r' ∈ rules, ∀ k, Encodes r k → Encodes r' k → ruleAction r = ruleAction r'
  renewed : ∀ old ∈ s.prevEgressKeys, ∀ r ∈ rules, ∀ k, old.encode = some k → Encodes r k →
    old ∈ listKeys rules
  relisted : ∀ key e, others.rules.lookup key = some e → mapKey e.srcIdentity e.dstCIDR ∈ listKeys rules
  names : ∀ key e, others.rules.lookup key = some e → ∀ p ∈ rules.zipIdx,
    ruleKey p.1.namespace_ (managerRule p.1 p.2).name ≠ key

section Manager

variable {nodeIP : Option Net.IP} {key : String}

theorem lookup_addEgressRule (m : EgressManager) {ns : String} {rule : EgressRule}
    (hk : ruleKey ns rule.name ≠ key) :
    ((m.addEgressRule ns rule).getD m).rules.lookup key = m.rules.lookup key := by
  unfold EgressManager.addEgressRule
  cases Net.parseCIDR rule.dstCIDR with
  | none => rfl
  | some net =>
    have hne : key ≠ ruleKey ns rule.name := fun h => hk h.symm
    exact Finmap.lookup_insert_of_ne _ hne

theorem pushRule_lookup (st : EgressLoop) {p : CompiledRule × Nat}
    (hk : ruleKey p.1.namespace_ (managerRule p.1 p.2).name ≠ key) :
    (pushRule nodeIP st p).mgr.rules.lookup key = st.mgr.rules.lookup key := by
  unfold pushRule
  by_cases hc : p.1.cidr = ""
  · simp [hc]
  · cases hp : Net.parseCIDR p.1.cidr with
    | none => simp [hc]
    | some net =>
      simp only [hc, if_false, rpc_mgr]
      exact lookup_addEgressRule st.mgr hk

variable (nodeIP) in
theorem loop_lookup {l : List (CompiledRule × Nat)}
    (hk : ∀ p ∈ l, ruleKey p.1.namespace_ (managerRule p.1 p.2).name ≠ key)
    (st : EgressLoop) :
    (l.foldl (pushRule nodeIP) st).mgr.rules.lookup key = st.mgr.rules.lookup key := by
  induction l generalizing st with
  | nil => rfl
  | cons p l ih =>
    have htail := ih (fun x hx => hk x (mem_cons_of_mem p hx)) (pushRule nodeIP st p)
    rw [foldl_cons, htail, pushRule_lookup st (hk p mem_cons_self)]

theorem removeUnlisted_lookup {newKeys : Finset EgressMapKey} (mgr : EgressManager)
    {existing : CompiledEgressRule}
    (hk : mapKey existing.srcIdentity existing.dstCIDR ∉ newKeys →
      ruleKey existing.namespace_ existing.name ≠ key) :
    (removeUnlisted newKeys mgr existing).rules.lookup key = mgr.rules.lookup key := by
  unfold removeUnlisted
  split
  · rfl
  · rename_i hnew
    have hne : key ≠ ruleKey existing.namespace_ existing.name := fun h => hk hnew h.symm
    exact Finmap.lookup_erase_ne hne

theorem removal_lookup {newKeys : Finset EgressMapKey} {l : List CompiledEgressRule}
    (hk : ∀ e ∈ l, mapKey e.srcIdentity e.dstCIDR ∉ newKeys →
      ruleKey e.namespace_ e.name ≠ key) (mgr : EgressManager) :
    (l.foldl (removeUnlisted newKeys) mgr).rules.lookup key = mgr.rules.lookup key := by
  induction l generalizing mgr with
  | nil => rfl
  | cons e l ih =>
    have htail := ih (fun x hx => hk x (mem_cons_of_mem e hx)) (removeUnlisted newKeys mgr e)
    rw [foldl_cons, htail, removeUnlisted_lookup mgr (hk e mem_cons_self)]

end Manager

section Call

variable {others : EgressManager} {o : EgressOrders} {s : Server} {maps : EgressMaps}
  {rules : List CompiledRule} {k : EgressKey}

theorem lookup_sync_manager {key : String} {e : CompiledEgressRule}
    (he : s.egressMgr.rules.lookup key = some e)
    (hlisted : mapKey e.srcIdentity e.dstCIDR ∈ listKeys rules)
    (hname : ∀ p ∈ rules.zipIdx, ruleKey p.1.namespace_ (managerRule p.1 p.2).name ≠ key) :
    (syncEgressRules o s maps rules).1.egressMgr.rules.lookup key = some e := by
  have hpush := loop_lookup s.nodeIP hname ⟨s.egressMgr, maps, ∅, 0⟩
  rw [he] at hpush
  simp only [syncEgressRules, cleanup_mgr, cleanup_newKeys,
    loop_newKeys, zipIdx_map_fst, Finset.empty_union]
  rw [removal_lookup, hpush]
  intro x hx hnew hkey
  have hstored := mem_getRules.mp hx
  rw [hkey, hpush, some.injEq] at hstored
  rw [← hstored] at hnew
  exact hnew hlisted

theorem encodes_listKeys {old : EgressMapKey} (hold : old ∈ listKeys rules)
    (henc : old.encode = some k) : ∃ r ∈ rules, Encodes r k := by
  obtain ⟨r, hr, hkey⟩ := mem_listKeys.mp hold
  exact ⟨r, hr, by rw [Encodes, hkey, bind_some, henc]⟩

theorem egressEntry_eq_some_iff {snat : String} {r : CompiledRule} {v : EgressValue} :
    egressEntry snat r = some (k, v) ↔
      Encodes r k ∧ ∃ a, snat4 snat = some a ∧ ⟨(ruleAction r).number, a⟩ = v := by
  unfold egressEntry Encodes
  cases (ruleMapKey r).bind EgressMapKey.encode <;> cases snat4 snat <;> simp

theorem lookup_of_not_encoded (hno : ∀ r ∈ rules, ¬ Encodes r k) (hst : ¬ StaleKey s rules k) :
    (syncEgressRules o s maps rules).2.1.v4.lookup k = maps.v4.lookup k := by
  rcases lookup_syncEgressRules o s maps rules k with hl | hl
  · exact absurd hl.2 hst
  · have hnone : written k (rules.filterMap (egressEntry (snatIPStr s.egressMgr s.nodeIP))) = none := by
      apply written_eq_none_iff.mpr
      rintro ⟨_, v⟩ he rfl
      obtain ⟨r, hr, hentry⟩ := mem_filterMap.mp he
      exact hno r hr (egressEntry_eq_some_iff.mp hentry).1
    rw [hl.1, hnone, none_or]

theorem staleKey_of_dropped {r : CompiledRule} {before : List CompiledRule}
    (hprev : s.prevEgressKeys = listKeys before) (hr : r ∈ before) (hk : Encodes r k)
    (hno : ∀ r' ∈ rules, ¬ Encodes r' k) : StaleKey s rules k := by
  obtain ⟨old, hkey, henc⟩ := bind_eq_some_iff.mp hk
  refine ⟨old, ?_, ?_, henc⟩
  · rw [hprev]
    exact mem_listKeys.mpr ⟨r, hr, hkey⟩
  · intro hold
    obtain ⟨r', hr', hk'⟩ := encodes_listKeys hold henc
    exact hno r' hr' hk'

variable (hc : CleanCall others s rules)

include hc

theorem CleanCall.not_stale {r : CompiledRule} (hr : r ∈ rules) (hk : Encodes r k) :
    ¬ StaleKey s rules k := by
  rintro ⟨old, hprev, hnew, henc⟩
  exact hnew (hc.renewed old hprev r hr k henc hk)

theorem CleanCall.value {r : CompiledRule} (hr : r ∈ rules) (hk : Encodes r k) :
    ∃ snat, snat4 (snatIPStr s.egressMgr s.nodeIP) = some snat ∧
      (syncEgressRules o s maps rules).2.1.v4.lookup k = some ⟨(ruleAction r).number, snat⟩ := by
  obtain ⟨snat, hsnat⟩ := ne_none_iff_exists'.mp (hc.snat r hr k hk)
  have hwritten : written k (rules.filterMap (egressEntry (snatIPStr s.egressMgr s.nodeIP))) =
      some ⟨(ruleAction r).number, snat⟩ := by
    apply (written_of_forall ?_).mpr
    · exact ⟨_, mem_filterMap.mpr ⟨r, hr, egressEntry_eq_some_iff.mpr ⟨hk, snat, hsnat, rfl⟩⟩, rfl⟩
    · rintro ⟨_, v⟩ he rfl
      obtain ⟨x, hx, hentry⟩ := mem_filterMap.mp he
      obtain ⟨hxk, a, ha, rfl⟩ := egressEntry_eq_some_iff.mp hentry
      rw [hc.agree x hx r hr _ hxk hk, some.inj (ha.symm.trans hsnat)]
  have hkept := (lookup_syncEgressRules o s maps rules k).resolve_left fun h => hc.not_stale hr hk h.2
  exact ⟨snat, hsnat, by rw [hkept.1, hwritten, some_or]⟩

end Call

theorem snatIPStr_sync (o : EgressOrders) (s : Server) (maps : EgressMaps)
    (rules : List CompiledRule) : snatIPStr (syncEgressRules o s maps rules).1.egressMgr
      (syncEgressRules o s maps rules).1.nodeIP = snatIPStr s.egressMgr s.nodeIP := by
  have hmasq : (syncEgressRules o s maps rules).1.egressMgr.masquerade = s.egressMgr.masquerade := by
    refine foldlRecOn (motive := fun m : EgressManager => m.masquerade = _) _ _ ?_ ?_
    · rw [cleanup_mgr]
      exact foldlRecOn (motive := fun st : EgressLoop => st.mgr.masquerade = _) _ _ rfl
        fun st h e _ => pushRule_masquerade.trans h
    · intro mgr h e _
      unfold removeUnlisted
      split <;> exact h
  rw [snatIPStr, hmasq]
  rfl

structure RunInv (s₀ : Server) (m₀ : EgressMaps) (calls : List (List CompiledRule)) (s : Server)
    (maps : EgressMaps) : Prop extends Exact s₀ m₀ calls s maps where
  prev : s.prevEgressKeys = listKeys (calls.headD [])
  egress : ∀ r ∈ calls.headD [], ∀ k, Encodes r k → r.isEgress = true
  snat : snatIPStr s.egressMgr s.nodeIP = snatIPStr s₀.egressMgr s₀.nodeIP

theorem RunInv.start {s₀ : Server} {m₀ : EgressMaps} (h : s₀.prevEgressKeys = ∅) :
    RunInv s₀ m₀ [] s₀ m₀ where
  present := by simp
  no_other := by simp
  untouched := fun _ _ => rfl
  manager := fun _ _ he => he
  prev := by simp [h, listKeys]
  egress := by simp
  snat := rfl

theorem RunInv.call {s₀ s : Server} {m₀ maps : EgressMaps} {calls : List (List CompiledRule)}
    {rules : List CompiledRule} {o : EgressOrders} (hi : RunInv s₀ m₀ calls s maps)
    (hc : CleanCall s₀.egressMgr s rules) :
    RunInv s₀ m₀ (rules :: calls) (syncEgressRules o s maps rules).1
      (syncEgressRules o s maps rules).2.1 where
  present := fun r hr _ k hk => hi.snat ▸ hc.value hr hk
  no_other := by
    intro pushed hpushed r hr k hk hlatest
    have hno : ∀ r' ∈ rules, ¬ Encodes r' k :=
      fun r' hr' hk' => hlatest r' hr' (hc.egress r' hr' k hk') hk'
    by_cases hst : StaleKey s rules k
    · exact lookup_syncEgressRules_stale hst
    · rw [lookup_of_not_encoded hno hst]
      rcases mem_cons.mp hpushed with rfl | hpushed
      · exact absurd hk (hno r hr)
      · apply hi.no_other pushed hpushed r hr k hk
        intro r' hr' _ hk'
        exact hst (staleKey_of_dropped hi.prev hr' hk' hno)
  untouched := by
    intro k hk
    have hno : ∀ r ∈ rules, ¬ Encodes r k := hk rules mem_cons_self
    have hst : ¬ StaleKey s rules k := by
      rintro ⟨old, hold, -, henc⟩
      rw [hi.prev] at hold
      obtain ⟨r, hr, hrk⟩ := encodes_listKeys hold henc
      cases calls with
      | nil => simp at hr
      | cons latest earlier => exact hk latest (by simp) r hr hrk
    rw [lookup_of_not_encoded hno hst]
    exact hi.untouched k fun l hl => hk l (mem_cons_of_mem rules hl)
  manager := by
    intro key e he
    exact lookup_sync_manager (hi.manager key e he) (hc.relisted key e he) (hc.names key e he)
  prev := syncEgressRules_prev
  egress := hc.egress
  snat := (snatIPStr_sync o s maps rules).trans hi.snat

theorem syncRun_exact {s₀ s : Server} {m₀ maps : EgressMaps} {calls : List (List CompiledRule)}
    (hrun : SyncRun (CleanCall s₀.egressMgr) s₀ m₀ calls s maps) : Exact s₀ m₀ calls s maps := by
  have hinv : RunInv s₀ m₀ calls s maps := by
    induction hrun with
    | start h => exact RunInv.start h
    | call o _ hok ih => exact ih.call hok
  exact hinv.toExact

section Settling

theorem lookup_sync_again (o o' : EgressOrders) (s : Server) (maps maps' : EgressMaps)
    (rules : List CompiledRule) (k : EgressKey) :
    (syncEgressRules o' (syncEgressRules o s maps rules).1 maps' rules).2.1.v4.lookup k =
      (written k (rules.filterMap (egressEntry (snatIPStr s.egressMgr s.nodeIP)))).or
        (maps'.v4.lookup k) := by
  rw [← snatIPStr_sync o s maps rules]
  refine ((lookup_syncEgressRules o' _ maps' rules k).resolve_left ?_).1
  rintro ⟨-, old, hold, hnew, -⟩
  rw [syncEgressRules_prev] at hold
  exact hnew hold

/-- Two syncs of one list settle the map, and one is enough unless it writes an entry under a
key that it then deletes as stale. -/
theorem syncEgressRules_settles (o₁ o₂ o₃ : EgressOrders) (s : Server) (maps : EgressMaps)
    (rules : List CompiledRule) :
    let r₁ := syncEgressRules o₁ s maps rules
    let r₂ := syncEgressRules o₂ r₁.1 r₁.2.1 rules
    let r₃ := syncEgressRules o₃ r₂.1 r₂.2.1 rules
    r₃.2.1.v4 = r₂.2.1.v4 ∧ (r₂.2.1.v4 = r₁.2.1.v4 ↔
      ∀ e ∈ rules.filterMap (egressEntry (snatIPStr s.egressMgr s.nodeIP)),
        ¬ StaleKey s rules e.1) := by
  intro r₁ r₂ r₃
  have hsecond : ∀ k, r₂.2.1.v4.lookup k = _ := lookup_sync_again o₁ o₂ s maps r₁.2.1 rules
  have hthird : ∀ k, r₃.2.1.v4.lookup k = _ := lookup_sync_again o₂ o₃ r₁.1 r₁.2.1 r₂.2.1 rules
  rw [show snatIPStr r₁.1.egressMgr r₁.1.nodeIP = _ from snatIPStr_sync ..] at hthird
  refine ⟨Finmap.ext_lookup fun k => ?_, fun heq e he hst => ?_,
    fun hno => Finmap.ext_lookup fun k => ?_⟩
  · rw [hthird, hsecond, ← Option.or_assoc, Option.or_self]
  · have hnone := hsecond e.1
    rw [heq, lookup_syncEgressRules_stale hst, or_none] at hnone
    exact written_eq_none_iff.mp hnone.symm e he rfl
  · rw [hsecond]
    rcases lookup_syncEgressRules o₁ s maps rules k with ⟨-, hst⟩ | ⟨hl, -⟩
    · rw [written_eq_none_iff.mpr fun e he hk => hno e he (hk ▸ hst), none_or]
    · rw [hl, ← Option.or_assoc, Option.or_self]

end Settling

section Example

def egressRule : CompiledRule := ⟨7, 0, 0, 0, actionAllow, "192.0.2.0/24", true, "default"⟩

def ingressRule : CompiledRule := ⟨0, 9, 0, 0, actionAllow, "10.0.0.0/8", false, "default"⟩

theorem exampleServer_snat : snat4 (snatIPStr exampleServer.egressMgr exampleServer.nodeIP) ≠ none := by
  decide +kernel

theorem egressRule_clean : CleanCall exampleServer.egressMgr exampleServer [egressRule] where
  snat := fun _ _ _ _ => exampleServer_snat
  egress := by simp [egressRule]
  agree := by simp
  renewed := by simp [exampleServer]
  relisted := by simp [exampleServer]
  names := by simp [exampleServer]

theorem syncRun_exact_egressRule : Exact exampleServer ⟨∅, none⟩ [[egressRule]]
    (syncEgressRules someOrders exampleServer ⟨∅, none⟩ [egressRule]).1
    (syncEgressRules someOrders exampleServer ⟨∅, none⟩ [egressRule]).2.1 :=
  syncRun_exact (.call someOrders (.start rfl) egressRule_clean)

/-- An ingress rule is pushed too, under source 0. -/
theorem ingressRule_pushed : ∃ s maps,
    SyncRun (fun _ _ => True) exampleServer ⟨∅, none⟩ [[ingressRule]] s maps ∧
      ¬ Exact exampleServer ⟨∅, none⟩ [[ingressRule]] s maps := by
  refine ⟨_, _, .call someOrders (.start rfl) trivial, ?_⟩
  intro hexact
  have hk : Encodes ingressRule ⟨0, 0x0a000000, 8⟩ := by
    have hdec : (ruleMapKey ingressRule).bind EgressMapKey.encode = some ⟨0, 0x0a000000, 8⟩ := by
      decide +kernel
    exact hdec
  have hnone := hexact.no_other [ingressRule] (by simp) ingressRule (by simp) _ hk
    (by simp [ingressRule])
  have hst : ¬ StaleKey exampleServer [ingressRule] ⟨0, 0x0a000000, 8⟩ := by
    simp [StaleKey, exampleServer]
  have haction : (syncEgressRules someOrders exampleServer ⟨∅, none⟩
      [ingressRule]).2.1.v4.actionAt ⟨0, 0x0a000000, 8⟩ = _ :=
    action_of_snat hst fun _ _ _ => exampleServer_snat
  have hwrite : egressWrite ⟨0, 0x0a000000, 8⟩ ingressRule = some egressAllow := if_pos hk
  rw [EgressMap.actionAt, hnone] at haction
  simp [hwrite] at haction

end Example

end NovaNet
