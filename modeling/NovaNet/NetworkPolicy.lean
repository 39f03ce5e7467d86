import NovaNet.Labels

/-! NetworkPolicy objects and what they mean for traffic between pods. -/

namespace NovaNet

inductive Protocol where
  | tcp
  | udp
  | sctp
  deriving DecidableEq

inductive IntOrString where
  | int (v : Int)
  | string (s : String)
  deriving DecidableEq

structure NetworkPolicyPort where
  protocol : Option Protocol
  port : Option IntOrString
  endPort : Option Int
  deriving DecidableEq

structure IPBlock where
  cidr : String
  except : List String
  deriving DecidableEq

structure NetworkPolicyPeer where
  podSelector : Option LabelSelector
  namespaceSelector : Option LabelSelector
  ipBlock : Option IPBlock

structure NetworkPolicyIngressRule where
  from_ : List NetworkPolicyPeer
  ports : List NetworkPolicyPort

structure NetworkPolicyEgressRule where
  to_ : List NetworkPolicyPeer
  ports : List NetworkPolicyPort

inductive PolicyType where
  | ingress
  | egress
  deriving DecidableEq

structure NetworkPolicy where
  namespace_ : String
  podSelector : LabelSelector
  policyTypes : List PolicyType
  ingress : List NetworkPolicyIngressRule
  egress : List NetworkPolicyEgressRule

def Protocol.number : Protocol → UInt8
  | .tcp => 6
  | .udp => 17
  | .sctp => 132

def NetworkPolicy.OfType (np : NetworkPolicy) (pt : PolicyType) : Prop :=
  pt ∈ np.policyTypes ∨ np.policyTypes = [] ∧ pt = .ingress

def NetworkPolicyPort.Numeric (p : NetworkPolicyPort) : Prop :=
  p.endPort = none ∧ ∀ s, p.port ≠ some (.string s)

structure NetworkPolicy.LabelOnly (np : NetworkPolicy) : Prop where
  ingress_peers : ∀ r ∈ np.ingress, ∀ peer ∈ r.from_, peer.ipBlock = none
  ingress_ports : ∀ r ∈ np.ingress, ∀ p ∈ r.ports, p.Numeric
  egress_peers : ∀ r ∈ np.egress, ∀ peer ∈ r.to_, peer.ipBlock = none
  egress_ports : ∀ r ∈ np.egress, ∀ p ∈ r.ports, p.Numeric

/-! The meaning of a policy with label-selector peers and numeric ports. The labels
of a pod carry its namespace under `namespaceLabel`; `nsLabels` gives the labels of
each namespace. -/

namespace NetworkPolicy

def Selects (np : NetworkPolicy) (pod : Labels) : Prop :=
  pod.lookup namespaceLabel = some np.namespace_ ∧ np.podSelector.matches pod = true

def PortsMatch (ports : List NetworkPolicyPort) (proto : Protocol) (port : UInt16) : Prop :=
  ports = [] ∨ ∃ p ∈ ports, p.protocol.getD .tcp = proto ∧
    (p.port = none ∨ p.port = some (.int port.toNat))

variable (nsLabels : String → Labels) (np : NetworkPolicy)

def PeerMatches (peer : NetworkPolicyPeer) (pod : Labels) : Prop :=
  (∀ sel ∈ peer.podSelector, sel.matches pod = true) ∧
  (peer.namespaceSelector.isNone = true → pod.lookup namespaceLabel = some np.namespace_) ∧
  ∀ sel ∈ peer.namespaceSelector, ∃ name ∈ pod.lookup namespaceLabel, sel.matches (nsLabels name) = true

def PeersMatch (peers : List NetworkPolicyPeer) (pod : Labels) : Prop :=
  peers = [] ∨ ∃ peer ∈ peers, np.PeerMatches nsLabels peer pod

def IngressMatches (src : Labels) (proto : Protocol) (port : UInt16) : Prop :=
  ∃ rule ∈ np.ingress, np.PeersMatch nsLabels rule.from_ src ∧ PortsMatch rule.ports proto port

def EgressMatches (dst : Labels) (proto : Protocol) (port : UInt16) : Prop :=
  ∃ rule ∈ np.egress, np.PeersMatch nsLabels rule.to_ dst ∧ PortsMatch rule.ports proto port

end NetworkPolicy

section Semantics

variable (nsLabels : String → Labels) (policies : List NetworkPolicy)

/-- Once an egress policy selects the source, only what some such policy lists may
leave it. -/
def EgressPermitted (src dst : Labels) (proto : Protocol) (port : UInt16) : Prop :=
  (∀ np ∈ policies, np.OfType .egress → ¬ np.Selects src) ∨
    ∃ np ∈ policies, np.OfType .egress ∧ np.Selects src ∧ np.EgressMatches nsLabels dst proto port

def IngressPermitted (src dst : Labels) (proto : Protocol) (port : UInt16) : Prop :=
  (∀ np ∈ policies, np.OfType .ingress → ¬ np.Selects dst) ∨
    ∃ np ∈ policies, np.OfType .ingress ∧ np.Selects dst ∧ np.IngressMatches nsLabels src proto port

def Permitted (src dst : Labels) (proto : Protocol) (port : UInt16) : Prop :=
  EgressPermitted nsLabels policies src dst proto port ∧
    IngressPermitted nsLabels policies src dst proto port

end Semantics

section Decidable

variable {nsLabels : String → Labels} {np : NetworkPolicy} {policies : List NetworkPolicy}
  {src dst : Labels} {proto : Protocol} {port : UInt16}

instance (pt : PolicyType) : Decidable (np.OfType pt) :=
  inferInstanceAs (Decidable (_ ∨ _))

instance (pod : Labels) : Decidable (np.Selects pod) :=
  inferInstanceAs (Decidable (_ ∧ _))

instance (ports : List NetworkPolicyPort) : Decidable (NetworkPolicy.PortsMatch ports proto port) :=
  inferInstanceAs (Decidable (_ ∨ ∃ p ∈ ports, _))

instance (peer : NetworkPolicyPeer) (pod : Labels) : Decidable (np.PeerMatches nsLabels peer pod) :=
  inferInstanceAs (Decidable (_ ∧ _ ∧ _))

instance (peers : List NetworkPolicyPeer) (pod : Labels) :
    Decidable (np.PeersMatch nsLabels peers pod) :=
  inferInstanceAs (Decidable (_ ∨ ∃ peer ∈ peers, _))

instance : Decidable (np.IngressMatches nsLabels src proto port) :=
  inferInstanceAs (Decidable (∃ rule ∈ np.ingress, _))

instance : Decidable (np.EgressMatches nsLabels dst proto port) :=
  inferInstanceAs (Decidable (∃ rule ∈ np.egress, _))

instance : Decidable (EgressPermitted nsLabels policies src dst proto port) :=
  inferInstanceAs (Decidable ((∀ np ∈ policies, _) ∨ ∃ np ∈ policies, _))

instance : Decidable (IngressPermitted nsLabels policies src dst proto port) :=
  inferInstanceAs (Decidable ((∀ np ∈ policies, _) ∨ ∃ np ∈ policies, _))

instance : Decidable (Permitted nsLabels policies src dst proto port) :=
  inferInstanceAs (Decidable (_ ∧ _))

end Decidable

end NovaNet
