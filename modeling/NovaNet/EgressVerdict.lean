import NovaNet.EgressBlocks
import NovaNet.PolicyVerdict
import NovaNet.DenyAll

/-! The verdict on traffic that leaves the cluster. The packet program tries five
prefix lengths, so a verdict depends on which blocks land on five keys of the map. -/

namespace NovaNet

open LastWrite Option

def egressKeyAt (srcIdentity dstIp : UInt32) (len : UInt8) : EgressKey :=
  ⟨srcIdentity, dstIp &&& prefixMask len.toUInt32, len⟩

def DenyingAction (a : UInt8) : Prop := a ≠ egressAllow ∧ a ≠ egressSnat

theorem egressVerdict_deny_iff {v : EgressValue} :
    (egressVerdict v).1 = false ↔ DenyingAction v.action := by
  unfold egressVerdict DenyingAction
  by_cases hd : v.action = egressDeny
  · simp [hd, egressDeny, egressAllow, egressSnat]
  · by_cases ha : v.action = egressAllow
    · simp [ha, egressDeny, egressAllow]
    · by_cases hs : v.action = egressSnat
      · simp [hs, egressDeny, egressAllow, egressSnat]
      · simp [hd, ha, hs]

variable {rules : List CompiledRule} {blocks : List SourceBlock} {env : PacketEnv} {h : Headers}
  {src d : UInt32} {p : Packet}

theorem checkEgressPolicy_deny_iff {m : EgressMap} :
    (checkEgressPolicy m src d).1 = false ↔
      ∃ shorter len longer, egressPrefixLengths = longer ++ len :: shorter ∧
        (∀ l ∈ longer, m.actionAt (egressKeyAt src d l) = none) ∧
        ∃ a, m.actionAt (egressKeyAt src d len) = some a ∧ DenyingAction a := by
  unfold checkEgressPolicy
  constructor
  · intro h
    cases hf : egressPrefixLengths.findSome? fun len =>
        (m.lookup ⟨src, d &&& prefixMask len.toUInt32, len⟩).map egressVerdict with
    | none => simp [hf] at h
    | some r =>
      rw [hf, getD_some] at h
      obtain ⟨longer, len, shorter, hsplit, hhit, hmiss⟩ := List.findSome?_eq_some_iff.mp hf
      obtain ⟨v, hv, rfl⟩ := map_eq_some_iff.mp hhit
      refine ⟨shorter, len, longer, hsplit, ?_, v.action, ?_, egressVerdict_deny_iff.mp h⟩
      · intro l hl
        simpa [EgressMap.actionAt, egressKeyAt] using hmiss l hl
      · exact map_eq_some_iff.mpr ⟨v, hv, rfl⟩
  · rintro ⟨shorter, len, longer, hsplit, hmiss, a, ha, hdeny⟩
    obtain ⟨v, hv, rfl⟩ := map_eq_some_iff.mp ha
    have hf : (egressPrefixLengths.findSome? fun len =>
        (m.lookup ⟨src, d &&& prefixMask len.toUInt32, len⟩).map egressVerdict) =
          some (egressVerdict v) := by
      apply List.findSome?_eq_some_iff.mpr
      refine ⟨longer, len, shorter, hsplit, map_eq_some_iff.mpr ⟨v, hv, rfl⟩, ?_⟩
      intro l hl
      simpa [EgressMap.actionAt, egressKeyAt] using hmiss l hl
    rw [hf, getD_some]
    exact egressVerdict_deny_iff.mpr hdeny

/-! What a sync leaves at a key, in terms of the blocks it was given and of the state
before it. -/

section Left

def Deleted (s : Server) (blocks : List SourceBlock) (k : EgressKey) : Prop :=
  ∃ old ∈ s.prevEgressKeys, old.encode = some k ∧ ∀ b ∈ blocks, blockKey b ≠ some old

def LeftUnset (s : Server) (m : EgressMap) (blocks : List SourceBlock) (k : EgressKey) : Prop :=
  Deleted s blocks k ∨ (∀ b ∈ blocks, ¬ b.At k) ∧ m.lookup k = none

def LeftDenying (s : Server) (m : EgressMap) (blocks : List SourceBlock) (k : EgressKey) : Prop :=
  ¬ Deleted s blocks k ∧
    ((∃ before b after, blocks = before ++ b :: after ∧ b.At k ∧ b.action ≠ actionAllow ∧
        ∀ b' ∈ after, ¬ b'.At k) ∨
      (∀ b ∈ blocks, ¬ b.At k) ∧ ∃ v, m.lookup k = some v ∧ DenyingAction v.action)

theorem blockWrite_eq_none_iff {k : EgressKey} {b : SourceBlock} :
    blockWrite k b = none ↔ ¬ b.At k := by
  unfold blockWrite
  by_cases h : b.At k <;> simp [h]

theorem blockWrite_denying_iff {k : EgressKey} {b : SourceBlock} :
    (∃ a, blockWrite k b = some a ∧ DenyingAction a) ↔ b.At k ∧ b.action ≠ actionAllow := by
  unfold blockWrite DenyingAction
  by_cases h : b.At k
  · by_cases ha : b.action = actionAllow
    · simp [h, ha]
    · simp [h, ha, egressDeny, egressAllow, egressSnat]
  · simp [h]

variable {o : EgressOrders} {s : Server} {maps : EgressMaps} {rules : List CompiledRule}
  {blocks : List SourceBlock} {k : EgressKey}

theorem staleKey_iff (hb : BlocksOf rules blocks) : StaleKey s rules k ↔ Deleted s blocks k := by
  unfold StaleKey Deleted
  simp only [hb.mem_listKeys, not_exists, not_and]
  constructor
  · rintro ⟨old, hold, hnew, henc⟩
    exact ⟨old, hold, henc, hnew⟩
  · rintro ⟨old, hold, henc, hnew⟩
    exact ⟨old, hold, hnew, henc⟩

variable (hb : BlocksOf rules blocks) (herr : (syncEgressRules o s maps rules).2.2 = 0)
  (hk : k.dstPrefixLen ≤ 32)

include hb herr hk

theorem actionAt_sync (hdel : ¬ Deleted s blocks k) :
    (syncEgressRules o s maps rules).2.1.v4.actionAt k =
      (lastSome (blockWrite k) blocks).or (maps.v4.actionAt k) := by
  have hst : ¬ StaleKey s rules k := fun h => hdel ((staleKey_iff hb).mp h)
  rw [← hb.lastSome_egressWrite hk]
  exact action_syncEgressRules herr hst

omit herr hk in
theorem actionAt_sync_deleted (hdel : Deleted s blocks k) :
    (syncEgressRules o s maps rules).2.1.v4.actionAt k = none := by
  rw [EgressMap.actionAt, lookup_syncEgressRules_stale ((staleKey_iff hb).mpr hdel)]
  rfl

theorem leftUnset_iff : (syncEgressRules o s maps rules).2.1.v4.actionAt k = none ↔
    LeftUnset s maps.v4 blocks k := by
  unfold LeftUnset
  by_cases hdel : Deleted s blocks k
  · simp [actionAt_sync_deleted hb hdel, hdel]
  · rw [actionAt_sync hb herr hk hdel, or_eq_none_iff, lastSome_eq_none_iff]
    simp [blockWrite_eq_none_iff, EgressMap.actionAt, hdel]

theorem leftDenying_iff : (∃ a, (syncEgressRules o s maps rules).2.1.v4.actionAt k = some a ∧
    DenyingAction a) ↔ LeftDenying s maps.v4 blocks k := by
  unfold LeftDenying
  by_cases hdel : Deleted s blocks k
  · simp [actionAt_sync_deleted hb hdel, hdel]
  · rw [actionAt_sync hb herr hk hdel]
    simp only [hdel, not_false_eq_true, true_and, or_eq_some_iff, lastSome_eq_none_iff,
      blockWrite_eq_none_iff]
    constructor
    · rintro ⟨a, h | ⟨hnone, hold⟩, ha⟩
      · obtain ⟨before, b, after, hsplit, hw, hlater⟩ := lastSome_eq_some_iff.mp h
        have hdeny := blockWrite_denying_iff.mp ⟨a, hw, ha⟩
        exact .inl ⟨before, b, after, hsplit, hdeny.1, hdeny.2,
          fun x hx => blockWrite_eq_none_iff.mp (hlater x hx)⟩
      · obtain ⟨v, hv, rfl⟩ := map_eq_some_iff.mp hold
        exact .inr ⟨hnone, v, hv, ha⟩
    · rintro (⟨before, b, after, hsplit, hat, hact, hlater⟩ | ⟨hnone, v, hv, ha⟩)
      · obtain ⟨a, hw, ha⟩ := blockWrite_denying_iff.mpr ⟨hat, hact⟩
        refine ⟨a, .inl (lastSome_eq_some_iff.mpr ⟨before, b, after, hsplit, hw, ?_⟩), ha⟩
        intro x hx
        exact blockWrite_eq_none_iff.mpr (hlater x hx)
      · exact ⟨v.action, .inr ⟨hnone, map_eq_some_iff.mpr ⟨v, hv, rfl⟩⟩, ha⟩

end Left

structure AgentState where
  server : Server
  dataplane : Dataplane
  egressPoliciesV6 : Option (Finmap fun _ : EgressKeyV6 => EgressValueV6)

def onPolicyChange (ok : IterOrder PolicyKey) (oe : EgressOrders) (st : AgentState)
    (rules : List CompiledRule) : AgentState × Nat :=
  let r := syncEgressRules oe st.server ⟨st.dataplane.egressPolicies, st.egressPoliciesV6⟩ rules
  ({ server := r.1
     dataplane := { st.dataplane with
       policies := syncRules ok st.dataplane.policies rules
       egressPolicies := r.2.1.v4 }
     egressPoliciesV6 := r.2.1.v6 }, r.2.2)

def DeniedByBlocks (s : Server) (m : EgressMap) (blocks : List SourceBlock) (src d : UInt32) :
    Prop :=
  ∃ shorter len longer, egressPrefixLengths = longer ++ len :: shorter ∧
    (∀ l ∈ longer, LeftUnset s m blocks (egressKeyAt src d l)) ∧
    LeftDenying s m blocks (egressKeyAt src d len)

theorem egressKeyAt_le {l : UInt8} (h : l ∈ egressPrefixLengths) :
    (egressKeyAt src d l).dstPrefixLen ≤ 32 := by
  have hall : egressPrefixLengths.all (fun l => decide (l ≤ 32)) = true := by decide
  exact of_decide_eq_true (List.all_eq_true.mp hall l h)

theorem checkEgressPolicy_sync {o : EgressOrders} {s : Server} {maps : EgressMaps}
    (hb : BlocksOf rules blocks) (herr : (syncEgressRules o s maps rules).2.2 = 0)
    (src d : UInt32) :
    (checkEgressPolicy (syncEgressRules o s maps rules).2.1.v4 src d).1 = false ↔
      DeniedByBlocks s maps.v4 blocks src d := by
  rw [checkEgressPolicy_deny_iff]
  unfold DeniedByBlocks
  refine exists_congr fun shorter => exists_congr fun len => exists_congr fun longer =>
    and_congr_right fun hsplit => and_congr (forall₂_congr fun l hl => ?_) ?_
  · exact leftUnset_iff hb herr (egressKeyAt_le (by simp [hsplit, hl]))
  · exact leftDenying_iff hb herr (egressKeyAt_le (by simp [hsplit]))

theorem tryTcEgress_external {s : Dataplane} (hp : parseHeaders env.ihl p = .ok (some h))
    (hdst : s.endpoints.lookup h.dstIp = none) (hext : s.isClusterIp h.dstIp = false) :
    (tryTcEgress env s p).1 = .ok .shot ↔
      (checkEgressPolicy s.egressPolicies (s.identityOf h.srcIp) h.dstIp).1 = false := by
  rw [tryTcEgress, runProgram_headers hp]
  unfold Dataplane.tcEgressHeaders Dataplane.lookupIdentity
  rw [hdst]
  cases hc : (checkEgressPolicy s.egressPolicies (s.identityOf h.srcIp) h.dstIp).1 <;>
    simp [hext, hc]

theorem tryTcEgress_onPolicyChange {st : AgentState} {ok : IterOrder PolicyKey} {oe : EgressOrders}
    (hb : BlocksOf rules blocks) (herr : (onPolicyChange ok oe st rules).2 = 0)
    (hp : parseHeaders env.ihl p = .ok (some h))
    (hdst : st.dataplane.endpoints.lookup h.dstIp = none)
    (hext : st.dataplane.isClusterIp h.dstIp = false) :
    (tryTcEgress env (onPolicyChange ok oe st rules).1.dataplane p).1 = .ok .shot ↔
      DeniedByBlocks st.server st.dataplane.egressPolicies blocks
        (st.dataplane.identityOf h.srcIp) h.dstIp := by
  have hshot := tryTcEgress_external (s := (onPolicyChange ok oe st rules).1.dataplane) hp hdst hext
  have hsync := checkEgressPolicy_sync hb herr (st.dataplane.identityOf h.srcIp) h.dstIp
  exact hshot.trans hsync

structure ExternalEgress (c : Compiler) (policies : List NetworkPolicy) (env : PacketEnv)
    (s : Dataplane) (p : Packet) (h : Headers) (id : UInt64) (labels : Labels) : Prop where
  live : c.identityAllocator.idToLabels.lookup id = some labels
  selected : ∃ np ∈ policies, np.OfType .egress ∧ np.Selects labels
  parsed : parseHeaders env.ihl p = .ok (some h)
  protocol : h.protocol = 6 ∨ h.protocol = 17
  source : s.identityOf h.srcIp = id.toUInt32
  destination : s.endpoints.lookup h.dstIp = none
  external : s.isClusterIp h.dstIp = false
  uncovered : ∀ np ∈ policies, np.OfType .egress → np.Selects labels → ∀ rule ∈ np.egress,
    ∀ peer ∈ rule.to_, ∀ b ∈ peer.ipBlock, ¬ b.Covers h.dstIp

theorem externalEgress_shot_iff {c : Compiler} {o : IterOrder UInt64}
    {policies : List NetworkPolicy} {env : PacketEnv} {st : AgentState} {p : Packet} {h : Headers}
    {id : UInt64} {labels : Labels} {ok : IterOrder PolicyKey} {oe : EgressOrders}
    (hs : ExternalEgress c policies env st.dataplane p h id labels)
    (herr : (onPolicyChange ok oe st (c.compileAll o policies)).2 = 0) :
    (tryTcEgress env (onPolicyChange ok oe st (c.compileAll o policies)).1.dataplane p).1 = .ok .shot ↔
      DeniedByBlocks st.server st.dataplane.egressPolicies (c.blocks o policies) id.toUInt32
        h.dstIp := by
  have hiff := tryTcEgress_onPolicyChange (blocksOf_compileAll policies) herr hs.parsed
    hs.destination hs.external
  rwa [hs.source] at hiff

section Example

def externalFrame : Packet :=
  [2, 0, 0, 0, 0, 2, 2, 0, 0, 0, 0, 1, 0x08, 0x00] ++
  [0x45, 0, 0, 40, 0, 0, 0, 0, 64, 6, 0, 0, 10, 0, 0, 5, 192, 0, 2, 1] ++
  [0x9c, 0x40, 0, 80, 0, 0, 0, 0, 0, 0, 0, 0, 0x50, 0x02, 0, 0, 0, 0, 0, 0]

def externalHeaders : Headers := ⟨0x0a000005, 0xc0000201, 6, 40000, 80, 2, 40⟩

def noEgress : NetworkPolicy where
  namespace_ := "default"
  podSelector := appSelector "db"
  policyTypes := [.egress]
  ingress := []
  egress := []

def exampleAgent : AgentState := ⟨exampleServer, exampleDataplane 0, none⟩

theorem noEgress_scene : ExternalEgress exampleCompiler [noEgress] exampleEnv
    exampleAgent.dataplane externalFrame externalHeaders 9 (podLabels "db") where
  live := by simp [exampleCompiler]
  selected := ⟨noEgress, List.mem_singleton.mpr rfl, by decide, by decide⟩
  parsed := by decide +kernel
  protocol := .inl rfl
  source := by decide
  destination := by decide
  external := by decide
  uncovered := by simp [noEgress]

theorem noEgress_requests : (onPolicyChange .arbitrary someOrders exampleAgent
    (exampleCompiler.compileAll identityOrder [noEgress])).2 = 0 := by
  have hrules : exampleCompiler.compileAll identityOrder [noEgress] =
      [⟨9, 0, 0, 0, actionDeny, "", false, "default"⟩] := by decide +kernel
  have henum : someOrders.keys.enum [] exampleServer.prevEgressKeys = [] :=
    (IterOrder.enum_eq_nil_iff _ _ _).mpr rfl
  rw [hrules]
  simp [onPolicyChange, syncEgressRules, exampleAgent, henum, EgressLoop.pushRule]

theorem externalEgress_shot_iff_noEgress :
    (tryTcEgress exampleEnv (onPolicyChange .arbitrary someOrders exampleAgent
        (exampleCompiler.compileAll identityOrder [noEgress])).1.dataplane externalFrame).1 =
        .ok .shot ↔
      DeniedByBlocks exampleServer (exampleDataplane 0).egressPolicies
        (exampleCompiler.blocks identityOrder [noEgress]) 9 0xc0000201 :=
  externalEgress_shot_iff noEgress_scene noEgress_requests

theorem noEgress_passes :
    ExternalEgress exampleCompiler [noEgress] exampleEnv exampleAgent.dataplane externalFrame
      externalHeaders 9 (podLabels "db") ∧
    (onPolicyChange .arbitrary someOrders exampleAgent
      (exampleCompiler.compileAll identityOrder [noEgress])).2 = 0 ∧
    (tryTcEgress exampleEnv (onPolicyChange .arbitrary someOrders exampleAgent
        (exampleCompiler.compileAll identityOrder [noEgress])).1.dataplane externalFrame).1 ≠
        .ok .shot := by
  have hs := noEgress_scene
  refine ⟨hs, noEgress_requests, ?_⟩
  have hblocks : exampleCompiler.blocks identityOrder [noEgress] = [] := by decide +kernel
  have hiff := tryTcEgress_onPolicyChange (blocksOf_compileAll [noEgress]) noEgress_requests
    hs.parsed hs.destination hs.external
  intro hshot
  obtain ⟨shorter, len, longer, -, -, -, hleft⟩ := hiff.mp hshot
  rw [hblocks] at hleft
  rcases hleft with ⟨before, b, after, hnil, -⟩ | ⟨-, v, hv, -⟩
  · simp at hnil
  · simp [exampleAgent, exampleDataplane] at hv

end Example

end NovaNet
