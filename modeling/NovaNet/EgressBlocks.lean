import NovaNet.EgressSync
import NovaNet.PolicyInstall

/-! What the IP blocks of a set of policies amount to in the egress map. A rule is
reduced to the block it came from: its ports play no role there. -/

namespace Net

def network (d : UInt32) (len : Nat) : IPNet := ⟨.v4 (d &&& mask4 len), len⟩

def InCIDR (cidr : String) (d : UInt32) : Prop := ∃ len, parseCIDR cidr = some (network d len)

end Net

namespace NovaNet

open LastWrite

def IPBlock.Covers (b : IPBlock) (d : UInt32) : Prop :=
  Net.InCIDR b.cidr d ∧ ∀ e ∈ b.except, ¬ Net.InCIDR e d

structure SourceBlock where
  srcIdentity : UInt64
  cidr : String
  action : UInt8
  deriving DecidableEq

def CidrEntry.under (src : UInt64) (b : CidrEntry) : SourceBlock := ⟨src, b.cidr, b.action⟩

open CidrEntry

def ruleBlock (r : CompiledRule) : SourceBlock := ⟨r.srcIdentity, r.cidr, r.action⟩

def NetworkPolicy.ingressBlocks (np : NetworkPolicy) : List CidrEntry :=
  if hasPolicyType np .ingress
  then np.ingress.flatMap fun rule => resolvePeersWithIPBlock rule.from_ else []

def NetworkPolicy.egressBlocks (np : NetworkPolicy) : List CidrEntry :=
  if hasPolicyType np .egress
  then np.egress.flatMap fun rule => resolvePeersWithIPBlock rule.to_ else []

/-- Ingress blocks have source 0, and nothing keeps them out of the egress map. -/
def NetworkPolicy.blocks (np : NetworkPolicy) (targetID : UInt64) : List SourceBlock :=
  np.ingressBlocks.map (under wildcardIdentity) ++ np.egressBlocks.map (under targetID)

def Compiler.blocks (c : Compiler) (o : IterOrder UInt64) (policies : List NetworkPolicy) :
    List SourceBlock :=
  (policies.mapIdx fun i np => (c.targetIdentities o [i] np).flatMap np.blocks).flatten

open Compiler

def SourceBlock.At (b : SourceBlock) (k : EgressKey) : Prop :=
  b.srcIdentity.toUInt32 = k.srcIdentity ∧
    Net.parseCIDR b.cidr = some ⟨.v4 k.dstIp, k.dstPrefixLen.toNat⟩

instance (b : SourceBlock) (k : EgressKey) : Decidable (b.At k) :=
  inferInstanceAs (Decidable (_ ∧ _))

def blockWrite (k : EgressKey) (b : SourceBlock) : Option UInt8 :=
  if b.At k then some (if b.action = actionAllow then egressAllow else egressDeny) else none

def blockKey (b : SourceBlock) : Option EgressMapKey :=
  (Net.parseCIDR b.cidr).map (mapKey b.srcIdentity)

section Encoding

theorem toUInt8_ofNat {n : Nat} (h : n ≤ 128) : (UInt32.ofNat n).toUInt8.toNat = n := by
  rw [UInt32.toNat_toUInt8, UInt32.toNat_ofNat']
  omega

theorem encode_mapKey_iff {cidr : String} {net : Net.IPNet} (h : Net.parseCIDR cidr = some net)
    {src : UInt64} {k : EgressKey} (hk : k.dstPrefixLen ≤ 32) :
    (mapKey src net).encode = some k ↔
      src.toUInt32 = k.srcIdentity ∧ net = ⟨.v4 k.dstIp, k.dstPrefixLen.toNat⟩ := by
  have hones : net.ones ≤ 128 := by
    rcases Net.parseCIDR_cases h with ⟨a, -, hle⟩ | ⟨a, -, hle⟩ <;> omega
  have hlen := toUInt8_ofNat hones
  have hk' : k.dstPrefixLen.toNat ≤ 32 := UInt8.le_iff_toNat_le.mp hk
  constructor
  · intro he
    unfold EgressMapKey.encode mapKey at he
    split at he
    · rename_i d hd
      cases he
      dsimp only at hk' hd ⊢
      rw [hlen] at hk' ⊢
      have hip := (Net.parseIp_network_v4_iff h hk').mp hd
      exact ⟨rfl, by rw [← hip]⟩
    · cases he
  · intro ⟨hsrc, hnet⟩
    have hd : Net.parseIp (Net.stripPrefixLen net.string) = some (.v4 k.dstIp) := by
      apply (Net.parseIp_network_v4_iff h _).mpr
      · rw [hnet]
      · rwa [hnet]
    have hfin : (UInt32.ofNat net.ones).toUInt8 = k.dstPrefixLen := by
      apply UInt8.toNat_inj.mp
      rw [hlen, hnet]
    simp only [EgressMapKey.encode, mapKey, hd, hsrc, hfin]

theorem ruleAction_number (r : CompiledRule) : (EgressLoop.ruleAction r).number =
    if r.action = actionAllow then egressAllow else egressDeny := by
  by_cases ha : r.action = actionAllow <;> simp [EgressLoop.ruleAction, ha] <;> rfl

theorem encode_ruleMapKey_iff {k : EgressKey} (hk : k.dstPrefixLen ≤ 32) (r : CompiledRule) :
    (ruleMapKey r).bind EgressMapKey.encode = some k ↔ (ruleBlock r).At k := by
  unfold SourceBlock.At ruleBlock ruleMapKey
  by_cases hc : r.cidr = ""
  · simp [hc, parseCIDR_empty]
  · cases hp : Net.parseCIDR r.cidr with
    | none => simp [hc]
    | some net =>
      simp only [hc, if_false, Option.map_some, Option.bind_some, encode_mapKey_iff hp hk,
        Option.some.injEq]

theorem egressWrite_eq {k : EgressKey} (hk : k.dstPrefixLen ≤ 32) (r : CompiledRule) :
    egressWrite k r = blockWrite k (ruleBlock r) := by
  have hiff := encode_ruleMapKey_iff hk r
  by_cases hat : (ruleBlock r).At k
  · rw [egressWrite, blockWrite, if_pos hat, if_pos (hiff.mpr hat), ruleAction_number, ruleBlock]
  · rw [egressWrite, blockWrite, if_neg hat, if_neg fun h => hat (hiff.mp h)]

theorem ruleMapKey_eq (r : CompiledRule) : ruleMapKey r = blockKey (ruleBlock r) := by
  by_cases hc : r.cidr = "" <;> simp [ruleMapKey, blockKey, ruleBlock, hc, parseCIDR_empty]

end Encoding

/-- A function of rules that only looks at the block of a rule, and ignores rules
without one, has the same last value on the rules and on the blocks. -/
def BlocksOf (rules : List CompiledRule) (blocks : List SourceBlock) : Prop :=
  ∀ g : SourceBlock → Option UInt8, (∀ src action, g ⟨src, "", action⟩ = none) →
    lastSome (fun r => g (ruleBlock r)) rules = lastSome g blocks

section Compile

variable {g : SourceBlock → Option UInt8} {c : Compiler} {o : IterOrder UInt64}

theorem lastSome_identityRules (hg : ∀ src action, g ⟨src, "", action⟩ = none)
    (ids : List UInt64) (fixedID : UInt64) (ports : List PortProto) (isEgress : Bool)
    (ns : String) :
    lastSome (fun r => g (ruleBlock r)) (buildIdentityRules ids fixedID ports isEgress ns) =
      none := by
  apply lastSome_eq_none_iff.mpr
  intro r hr
  obtain ⟨id, -, hr⟩ := List.mem_flatMap.mp hr
  obtain ⟨pp, -, rfl⟩ := List.mem_map.mp hr
  exact hg _ _

theorem lastSome_cidrRules (entries : List CidrEntry) (fixedID : UInt64) {ports : List PortProto}
    (hports : ports ≠ []) (isEgress : Bool) (ns : String) :
    lastSome (fun r => g (ruleBlock r)) (buildCIDRRules entries fixedID ports isEgress ns) =
      lastSome g (entries.map (under (if isEgress then fixedID else wildcardIdentity))) := by
  rw [buildCIDRRules, lastSome_flatMap, lastSome_map]
  apply lastSome_congr
  intro entry _
  rw [lastSome_map]
  exact lastSome_const hports fun _ _ => rfl

theorem blocksOf_compileEgressRule (site : List Nat) (rule : NetworkPolicyEgressRule)
    (targetID : UInt64) (ns : String) : BlocksOf (c.compileEgressRule o site rule targetID ns)
      ((resolvePeersWithIPBlock rule.to_).map (under targetID)) := by
  intro g hg
  rw [compileEgressRule, lastSome_append, lastSome_identityRules hg,
    lastSome_cidrRules _ _ (rulePorts_ne_nil _ _ _)]
  simp

variable (hg : ∀ src action, g ⟨src, "", action⟩ = none)

include hg

theorem lastSome_compileIngressRule (site : List Nat) (rule : NetworkPolicyIngressRule)
    (targetID : UInt64) (ns : String) (sel : LabelSelector) :
    lastSome (fun r => g (ruleBlock r)) (c.compileIngressRule o site rule targetID ns sel) =
      lastSome g ((resolvePeersWithIPBlock rule.from_).map (under wildcardIdentity)) := by
  rw [compileIngressRule, lastSome_append, lastSome_identityRules hg,
    lastSome_cidrRules _ _ (rulePorts_ne_nil _ _ _)]
  simp

theorem lastSome_compileIngress (site : List Nat) (np : NetworkPolicy) (targetID : UInt64) :
    lastSome (fun r => g (ruleBlock r)) (c.compileIngress o site np targetID) =
      lastSome g (np.ingressBlocks.map (under wildcardIdentity)) := by
  unfold compileIngress NetworkPolicy.ingressBlocks
  by_cases ht : hasPolicyType np .ingress = true
  · rw [if_pos ht, if_pos ht]
    by_cases hl : np.ingress.length = 0
    · have hnil : np.ingress = [] := List.length_eq_zero_iff.mp hl
      simp [hnil, ruleBlock, hg]
    · rw [if_neg hl, lastSome_flatten_mapIdx _ fun i rule =>
        lastSome_compileIngressRule hg (i :: 0 :: site) rule targetID np.namespace_ np.podSelector,
        ← lastSome_flatMap, List.map_flatMap]
  · simp [ht]

theorem lastSome_compileEgress (site : List Nat) (np : NetworkPolicy) (targetID : UInt64) :
    lastSome (fun r => g (ruleBlock r)) (c.compileEgress o site np targetID) =
      lastSome g (np.egressBlocks.map (under targetID)) := by
  unfold compileEgress NetworkPolicy.egressBlocks
  by_cases ht : hasPolicyType np .egress = true
  · rw [if_pos ht, if_pos ht]
    by_cases hl : np.egress.length = 0
    · have hnil : np.egress = [] := List.length_eq_zero_iff.mp hl
      simp [hnil, ruleBlock, hg]
    · rw [if_neg hl, lastSome_flatten_mapIdx _ fun i rule =>
        blocksOf_compileEgressRule (i :: 1 :: site) rule targetID np.namespace_ g hg,
        ← lastSome_flatMap, List.map_flatMap]
  · simp [ht]

theorem lastSome_compilePolicy (site : List Nat) (np : NetworkPolicy) :
    lastSome (fun r => g (ruleBlock r)) (c.compilePolicy o site np) =
      lastSome g ((c.targetIdentities o site np).flatMap np.blocks) := by
  have htarget : ∀ (j : Nat) (t : UInt64), lastSome (fun r => g (ruleBlock r))
      (c.compileIngress o (j :: 1 :: site) np t ++ c.compileEgress o (j :: 1 :: site) np t) =
        lastSome g (np.blocks t) := by
    intro j t
    rw [lastSome_append, lastSome_compileIngress hg, lastSome_compileEgress hg,
      NetworkPolicy.blocks, lastSome_append]
  rw [compilePolicy, lastSome_flatten_mapIdx _ htarget, ← lastSome_flatMap]

omit hg in
theorem blocksOf_compileAll (policies : List NetworkPolicy) :
    BlocksOf (c.compileAll o policies) (c.blocks o policies) := by
  intro g hg
  exact lastSome_flatten_mapIdx_congr (fun i np => lastSome_compilePolicy hg [i] np) policies

end Compile

namespace BlocksOf

variable {rules : List CompiledRule} {blocks : List SourceBlock} (hb : BlocksOf rules blocks)

include hb

theorem lastSome_egressWrite {k : EgressKey} (hk : k.dstPrefixLen ≤ 32) :
    lastSome (egressWrite k) rules = lastSome (blockWrite k) blocks := by
  rw [← hb (blockWrite k) (by simp [blockWrite, SourceBlock.At, parseCIDR_empty])]
  exact lastSome_congr fun r _ => egressWrite_eq hk r

theorem mem_listKeys {key : EgressMapKey} :
    key ∈ listKeys rules ↔ ∃ b ∈ blocks, blockKey b = some key := by
  have hall := hb (fun b => if blockKey b = some key then some 0 else none)
    (by simp [blockKey, parseCIDR_empty])
  have hnone := congrArg (· = none) hall
  simp only [lastSome_eq_none_iff, eq_iff_iff] at hnone
  rw [NovaNet.mem_listKeys]
  simp only [ruleMapKey_eq]
  have hneg := not_congr hnone
  simpa using hneg

end BlocksOf

end NovaNet
