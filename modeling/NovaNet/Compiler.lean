import NovaNet.Identity
import NovaNet.NetworkPolicy
import NovaNet.NetAddr
import NovaNet.PolicyMap

/-! The policy compiler: NetworkPolicy objects to identity rules and CIDR rules.
Selectors are resolved against the identities the allocator holds at that moment. -/

namespace NovaNet

structure CompiledRule where
  srcIdentity : UInt64
  dstIdentity : UInt64
  protocol : UInt8
  dstPort : UInt16
  action : UInt8
  cidr : String
  isEgress : Bool
  namespace_ : String
  deriving DecidableEq

def wildcardIdentity : UInt64 := 0

structure PortProto where
  protocol : UInt8
  port : UInt16
  deriving DecidableEq

structure CidrEntry where
  cidr : String
  action : UInt8
  deriving DecidableEq

/-- `selectorOk` is whether the label library accepts a selector, `hash` the hash of
canonical label strings. -/
structure Compiler where
  identityAllocator : Allocator
  namespaceResolver : Option (LabelSelector → List String)
  portResolver : Option (String → Protocol → String → LabelSelector → List UInt16)
  selectorOk : LabelSelector → Bool
  hash : String → UInt64

def hasPolicyType (np : NetworkPolicy) (pt : PolicyType) : Bool :=
  if np.policyTypes.length = 0 then pt = .ingress else np.policyTypes.contains pt

def buildIdentityRules (ids : List UInt64) (fixedID : UInt64) (ports : List PortProto)
    (isEgress : Bool) (ns : String) : List CompiledRule :=
  ids.flatMap fun id => ports.map fun pp =>
    { srcIdentity := if isEgress then fixedID else id
      dstIdentity := if isEgress then id else fixedID
      protocol := pp.protocol
      dstPort := pp.port
      action := actionAllow
      cidr := ""
      isEgress := isEgress
      namespace_ := ns }

def buildCIDRRules (entries : List CidrEntry) (fixedID : UInt64) (ports : List PortProto)
    (isEgress : Bool) (ns : String) : List CompiledRule :=
  entries.flatMap fun entry => ports.map fun pp =>
    { srcIdentity := if isEgress then fixedID else wildcardIdentity
      dstIdentity := if isEgress then wildcardIdentity else fixedID
      protocol := pp.protocol
      dstPort := pp.port
      action := entry.action
      cidr := entry.cidr
      isEgress := isEgress
      namespace_ := ns }

def resolveIPBlockCIDRs (cidr : String) (except : List String) : List CidrEntry :=
  if (Net.parseCIDR cidr).isSome then
    ⟨cidr, actionAllow⟩ ::
      (except.filter fun e => (Net.parseCIDR e).isSome).map fun e => ⟨e, actionDeny⟩
  else []

def resolvePeersWithIPBlock (peers : List NetworkPolicyPeer) : List CidrEntry :=
  peers.flatMap fun peer =>
    match peer.ipBlock with
    | some b => resolveIPBlockCIDRs b.cidr b.except
    | none => []

/-- An integer port outside 1..65535 compiles to the wildcard 0. -/
def numericPort (v : Int) : UInt16 :=
  if 0 < v ∧ v ≤ 65535 then UInt16.ofNat v.toNat else 0

def nsFallbackLabels (pod ns : Labels) : Labels :=
  (sortedKeys ns).foldl (fun m k => m.insert ("ns." ++ k) ((ns.lookup k).getD "")) pod

namespace Compiler

variable (c : Compiler) (o : IterOrder UInt64)

def selectorToIdentities (site : List Nat) (selector : LabelSelector) (ns : String) :
    List UInt64 :=
  let scopedSel := selector.withLabel namespaceLabel ns
  if c.selectorOk scopedSel then
    let found := c.identityAllocator.findMatchingIdentities o site scopedSel
    if found.length > 0 then found else [hashLabels c.hash scopedSel.matchLabels]
  else [wildcardIdentity]

def findOrFallback (site : List Nat) (selector : LabelSelector) : List UInt64 :=
  if c.selectorOk selector then
    let found := c.identityAllocator.findMatchingIdentities o site selector
    if found.length > 0 then found else [hashLabels c.hash selector.matchLabels]
  else []

/-- The well-known name label short-circuits the rest of the selector. -/
def resolveNamespaceNames (nsSel : LabelSelector) : List String :=
  match nsSel.matchLabels.lookup "kubernetes.io/metadata.name" with
  | some name => [name]
  | none =>
    match c.namespaceResolver with
    | some resolve => resolve nsSel
    | none => []

def resolveInNamespaces (site : List Nat) (podSelector nsSel : LabelSelector) : List UInt64 :=
  if nsSel.isEmpty then
    if podSelector.isEmpty then [wildcardIdentity] else c.findOrFallback o site podSelector
  else
    let nsNames := c.resolveNamespaceNames nsSel
    if nsNames.length > 0 then
      (nsNames.mapIdx fun i name =>
        c.findOrFallback o (i :: site) (podSelector.withLabel namespaceLabel name)).flatten
    else [hashLabels c.hash (nsFallbackLabels podSelector.matchLabels nsSel.matchLabels)]

def resolvePodAndNsPeers (site : List Nat) (podSel nsSel : Option LabelSelector) (ns : String) :
    List UInt64 :=
  match podSel, nsSel with
  | none, none => [wildcardIdentity]
  | podSel, some nsSel => c.resolveInNamespaces o site (podSel.getD .empty) nsSel
  | some podSelector, none => c.findOrFallback o site (podSelector.withLabel namespaceLabel ns)

def resolvePeers (site : List Nat) (peers : List NetworkPolicyPeer) (ns : String) :
    List UInt64 :=
  (peers.mapIdx fun i peer =>
    match peer.ipBlock with
    | some _ => []
    | none =>
      c.resolvePodAndNsPeers o (i :: site) peer.podSelector peer.namespaceSelector ns).flatten

def resolvePort (ns : String) (podSelector : LabelSelector) (p : NetworkPolicyPort) :
    List PortProto :=
  let proto := p.protocol.getD .tcp
  match p.port with
  | some (.string name) =>
    match c.portResolver with
    | some resolve => (resolve name proto ns podSelector).map fun port => ⟨proto.number, port⟩
    | none => []
  | some (.int v) => [⟨proto.number, numericPort v⟩]
  | none => [⟨proto.number, 0⟩]

def resolvePorts (npPorts : List NetworkPolicyPort) (ns : String) (podSelector : LabelSelector) :
    List PortProto :=
  npPorts.flatMap (c.resolvePort ns podSelector)

/-- Ports that all fail to resolve are treated like no ports at all. -/
def rulePorts (npPorts : List NetworkPolicyPort) (ns : String) (podSelector : LabelSelector) :
    List PortProto :=
  let ports := c.resolvePorts npPorts ns podSelector
  if ports.length = 0 then [⟨0, 0⟩] else ports

def ruleIdentities (site : List Nat) (peers : List NetworkPolicyPeer) (ns : String) :
    List UInt64 :=
  if peers.length = 0 then [wildcardIdentity] else c.resolvePeers o site peers ns

def compileIngressRule (site : List Nat) (rule : NetworkPolicyIngressRule) (dstIdentity : UInt64)
    (ns : String) (podSelector : LabelSelector) : List CompiledRule :=
  let ports := c.rulePorts rule.ports ns podSelector
  buildIdentityRules (c.ruleIdentities o site rule.from_ ns) dstIdentity ports false ns ++
    buildCIDRRules (resolvePeersWithIPBlock rule.from_) dstIdentity ports false ns

def compileEgressRule (site : List Nat) (rule : NetworkPolicyEgressRule) (srcIdentity : UInt64)
    (ns : String) : List CompiledRule :=
  let ports := c.rulePorts rule.ports ns .empty
  buildIdentityRules (c.ruleIdentities o site rule.to_ ns) srcIdentity ports true ns ++
    buildCIDRRules (resolvePeersWithIPBlock rule.to_) srcIdentity ports true ns

def compileIngress (site : List Nat) (np : NetworkPolicy) (targetID : UInt64) :
    List CompiledRule :=
  if hasPolicyType np .ingress then
    if np.ingress.length = 0 then
      [{ srcIdentity := wildcardIdentity, dstIdentity := targetID, protocol := 0, dstPort := 0,
         action := actionDeny, cidr := "", isEgress := false, namespace_ := np.namespace_ }]
    else
      (np.ingress.mapIdx fun i rule =>
        c.compileIngressRule o (i :: 0 :: site) rule targetID np.namespace_ np.podSelector).flatten
  else []

def compileEgress (site : List Nat) (np : NetworkPolicy) (targetID : UInt64) :
    List CompiledRule :=
  if hasPolicyType np .egress then
    if np.egress.length = 0 then
      [{ srcIdentity := targetID, dstIdentity := wildcardIdentity, protocol := 0, dstPort := 0,
         action := actionDeny, cidr := "", isEgress := false, namespace_ := np.namespace_ }]
    else
      (np.egress.mapIdx fun i rule =>
        c.compileEgressRule o (i :: 1 :: site) rule targetID np.namespace_).flatten
  else []

def targetIdentities (site : List Nat) (np : NetworkPolicy) : List UInt64 :=
  c.selectorToIdentities o (0 :: site) np.podSelector np.namespace_

def compilePolicy (site : List Nat) (np : NetworkPolicy) : List CompiledRule :=
  ((c.targetIdentities o site np).mapIdx fun j targetID =>
    c.compileIngress o (j :: 1 :: site) np targetID ++
      c.compileEgress o (j :: 1 :: site) np targetID).flatten

def compileAll (policies : List NetworkPolicy) : List CompiledRule :=
  (policies.mapIdx fun i np => c.compilePolicy o [i] np).flatten

end Compiler

end NovaNet
