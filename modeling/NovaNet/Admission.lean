import NovaNet.ListResults
import NovaNet.NetworkPolicy
import NovaNet.Subnet

/-! The custom resources (api/v1alpha1) and the checks of their admission webhooks
(internal/webhook). A resource is accepted when its check finds no error. -/

namespace NovaNet

open List

section Resources

structure NovaNetworkPolicyPort where
  protocol : Option String
  port : Option Int
  endPort : Option Int
  deriving DecidableEq

structure ServiceAccountPeer where
  name : String
  namespace_ : String

structure NovaNetworkPolicyPeer where
  podSelector : Option LabelSelector
  namespaceSelector : Option LabelSelector
  ipBlock : Option IPBlock
  fqdn : Option String
  serviceAccount : Option ServiceAccountPeer

structure NovaNetworkPolicyIngressRule where
  ports : List NovaNetworkPolicyPort
  from_ : List NovaNetworkPolicyPeer

structure NovaNetworkPolicyEgressRule where
  ports : List NovaNetworkPolicyPort
  to_ : List NovaNetworkPolicyPeer

structure NovaNetworkPolicySpec where
  podSelector : LabelSelector
  policyTypes : List String
  ingress : List NovaNetworkPolicyIngressRule
  egress : List NovaNetworkPolicyEgressRule

structure HostPort where
  port : Int
  endPort : Option Int
  deriving DecidableEq

structure HostRule where
  action : String
  protocol : Option String
  cidrs : List String
  ports : List HostPort
  deriving DecidableEq

structure HostEndpointPolicySpec where
  ingress : List HostRule
  egress : List HostRule

def policyTypeIngress : String := "Ingress"

def policyTypeEgress : String := "Egress"

def hostRuleActionAllow : String := "Allow"

def hostRuleActionDeny : String := "Deny"

end Resources

section Fields

inductive FieldValue where
  | text (s : String)
  | int (v : Int)
  | absent
  deriving DecidableEq

inductive FieldErrorType where
  | notSupported (values : List String)
  | invalid (detail : String)
  | required (detail : String)
  deriving DecidableEq

structure FieldError where
  type : FieldErrorType
  field : String
  badValue : FieldValue
  deriving DecidableEq

abbrev FieldPath := String

def FieldPath.child (path : FieldPath) (name : String) : FieldPath := path ++ "." ++ name

def FieldPath.index (path : FieldPath) (i : Nat) : FieldPath := path ++ "[" ++ Nat.repr i ++ "]"

def invalid (path : FieldPath) (value : FieldValue) (err : Option String) : List FieldError :=
  err.toList.map fun detail => ⟨.invalid detail, path, value⟩

def whenSet {α : Type} (v : Option α) (check : α → List FieldError) : List FieldError :=
  match v with
  | some a => check a
  | none => []

def supported (path : FieldPath) (values : List String) (value : String) : List FieldError :=
  if value ∈ values then [] else [⟨.notSupported values, path, .text value⟩]

theorem invalid_eq_nil {path : FieldPath} {value : FieldValue} {err : Option String} :
    invalid path value err = [] ↔ err = none := by
  cases err <;> simp [invalid]

theorem whenSet_eq_nil {α : Type} {v : Option α} {check : α → List FieldError} :
    whenSet v check = [] ↔ ∀ a ∈ v, check a = [] := by
  cases v <;> simp [whenSet]

theorem supported_eq_nil {path : FieldPath} {values : List String} {value : String} :
    supported path values value = [] ↔ value ∈ values := by
  simp [supported]

end Fields

section Checks

/-- Text in quotes, without what Go escapes in it. -/
def quoted (s : String) : String := "\"" ++ s ++ "\""

def cidrAddress (cidr : String) : Option Net.IP := Net.parseAddr (cidr.toList.takeWhile (· ≠ '/'))

def netString (net : Net.IPNet) : String := net.ip.string ++ "/" ++ Nat.repr net.ones

def validateCIDR (cidr : String) : Option String :=
  match Net.parseCIDR cidr with
  | none => some ("invalid CIDR: " ++ quoted cidr ++ ": invalid CIDR address: " ++ cidr)
  | some net =>
    if (cidrAddress cidr).map Net.IP.string ≠ some net.ip.string then
      some ("CIDR is not in canonical form: " ++ quoted cidr ++ ", expected " ++ netString net)
    else none

def validateIP (ip : String) : Option String :=
  match Net.parseIp ip with
  | none => some ("invalid IP address: " ++ quoted ip)
  | some _ => none

def validatePort (port : Int) : Option String :=
  if port < 1 ∨ port > 65535 then
    some ("port is out of valid range [1, 65535]: " ++ toString port)
  else none

def validatePortRange (port endPort : Int) : Option String :=
  match validatePort port with
  | some err => some err
  | none =>
    match validatePort endPort with
    | some err => some ("endPort: " ++ err)
    | none =>
      if endPort < port then
        some ("endPort must be >= port: " ++ toString endPort ++ " < " ++ toString port)
      else none

/-- The upper case of a character as far as it can be an ASCII letter: apart from a to z only
U+0131 and U+017F have one. -/
def upperChar (c : Char) : Char :=
  if c = 'ı' then 'I' else if c = 'ſ' then 'S' else c.toUpper

def upper (s : String) : List Char := s.toList.map upperChar

def protocolNames : List (String × Protocol) := [("TCP", .tcp), ("UDP", .udp), ("SCTP", .sctp)]

def protocolNamed (s : String) : Option Protocol :=
  (protocolNames.find? fun e => e.1.toList = upper s).map Prod.snd

def validateProtocol (protocol : String) : Option String :=
  if (protocolNamed protocol).isNone then
    some ("invalid protocol, must be one of TCP, UDP, SCTP: " ++ quoted protocol)
  else none

def lastAddr (net : Net.IPNet) : Net.IP :=
  match net.ip with
  | .v4 a => .v4 (a ||| ~~~ Net.mask4 net.ones)
  | .v6 a => .v6 (a ||| ~~~ Net.mask6 net.ones)

def cidrsOverlap (a b : Net.IPNet) : Bool := a.contains b.ip || b.contains a.ip

def cidrContains (parent child : Net.IPNet) : Bool :=
  parent.contains child.ip && parent.contains (lastAddr child)

theorem validatePort_eq_none {port : Int} : validatePort port = none ↔ 1 ≤ port ∧ port ≤ 65535 := by
  unfold validatePort
  split <;> simp <;> omega

theorem validatePortRange_eq_none {port endPort : Int} :
    validatePortRange port endPort = none ↔ 1 ≤ port ∧ port ≤ endPort ∧ endPort ≤ 65535 := by
  unfold validatePortRange
  cases hp : validatePort port with
  | some err =>
    have hbad : ¬ (1 ≤ port ∧ port ≤ 65535) := by rw [← validatePort_eq_none, hp]; simp
    simp only [reduceCtorEq, false_iff]
    omega
  | none =>
    have hport := validatePort_eq_none.mp hp
    cases he : validatePort endPort with
    | some err =>
      have hbad : ¬ (1 ≤ endPort ∧ endPort ≤ 65535) := by rw [← validatePort_eq_none, he]; simp
      simp only [reduceCtorEq, false_iff]
      omega
    | none =>
      have hend := validatePort_eq_none.mp he
      simp only [ite_eq_right_iff, reduceCtorEq, imp_false]
      omega

theorem validateProtocol_eq_none {protocol : String} :
    validateProtocol protocol = none ↔ ∃ proto, protocolNamed protocol = some proto := by
  unfold validateProtocol
  cases protocolNamed protocol <;> simp

def validateProtocolField (path : FieldPath) (protocol : Option String) : List FieldError :=
  whenSet protocol fun t => invalid (path.child "protocol") (.text t) (validateProtocol t)

theorem validateProtocolField_eq_nil {path : FieldPath} {protocol : Option String} :
    validateProtocolField path protocol = [] ↔
      ∀ t ∈ protocol, ∃ proto, protocolNamed t = some proto := by
  simp only [validateProtocolField, whenSet_eq_nil, invalid_eq_nil, validateProtocol_eq_none]

end Checks

section NetworkPolicies

def validateNetworkPolicyPort (path : FieldPath) (p : NovaNetworkPolicyPort) : List FieldError :=
  validateProtocolField path p.protocol ++
  (whenSet p.port (fun port => invalid (path.child "port") (.int port) (validatePort port)) ++
  whenSet p.endPort fun endPort =>
    match p.port with
    | none => [⟨.required "port must be set when endPort is specified", path.child "port", .absent⟩]
    | some port =>
      invalid (path.child "endPort") (.int endPort) (validatePortRange port endPort))

def validateNetworkPolicyPorts (ports : List NovaNetworkPolicyPort) (path : FieldPath) :
    List FieldError :=
  (ports.mapIdx fun i p => validateNetworkPolicyPort (path.index i) p).flatten

def validateIPBlock (b : IPBlock) (path : FieldPath) : List FieldError :=
  match validateCIDR b.cidr, Net.parseCIDR b.cidr with
  | none, some parent => (b.except.mapIdx fun i e =>
      let exceptPath := (path.child "except").index i
      match validateCIDR e, Net.parseCIDR e with
      | none, some child =>
        if cidrContains parent child then []
        else invalid exceptPath (.text e) (some ("except CIDR " ++ e ++
          " is not contained within parent CIDR " ++ b.cidr))
      | err, _ => invalid exceptPath (.text e) err).flatten
  | err, _ => invalid (path.child "cidr") (.text b.cidr) err

def validateNetworkPolicyPeers (peers : List NovaNetworkPolicyPeer) (path : FieldPath) :
    List FieldError :=
  (peers.mapIdx fun i peer =>
    match peer.ipBlock with
    | some b => validateIPBlock b ((path.index i).child "ipBlock")
    | none => []).flatten

def validateNovaNetworkPolicySpec (spec : NovaNetworkPolicySpec) : List FieldError :=
  (spec.policyTypes.mapIdx fun i pt =>
    supported (FieldPath.index "spec.policyTypes" i) [policyTypeIngress, policyTypeEgress]
      pt).flatten ++
  ((spec.ingress.mapIdx fun i rule =>
    let rulePath := FieldPath.index "spec.ingress" i
    validateNetworkPolicyPorts rule.ports (rulePath.child "ports") ++
      validateNetworkPolicyPeers rule.from_ (rulePath.child "from")).flatten ++
  (spec.egress.mapIdx fun i rule =>
    let rulePath := FieldPath.index "spec.egress" i
    validateNetworkPolicyPorts rule.ports (rulePath.child "ports") ++
      validateNetworkPolicyPeers rule.to_ (rulePath.child "to")).flatten)

structure NovaNetworkPolicyPort.Valid (p : NovaNetworkPolicyPort) : Prop where
  protocol : ∀ t ∈ p.protocol, ∃ proto, protocolNamed t = some proto
  port : ∀ v ∈ p.port, 1 ≤ v ∧ v ≤ 65535
  range : ∀ e ∈ p.endPort, ∃ v, p.port = some v ∧ v ≤ e ∧ e ≤ 65535

theorem validateNetworkPolicyPort_eq_nil {path : FieldPath} {p : NovaNetworkPolicyPort} :
    validateNetworkPolicyPort path p = [] ↔ p.Valid := by
  rw [validateNetworkPolicyPort, append_eq_nil_iff, append_eq_nil_iff,
    validateProtocolField_eq_nil, whenSet_eq_nil, whenSet_eq_nil]
  simp only [invalid_eq_nil, validatePort_eq_none]
  constructor
  · rintro ⟨hprotocol, hport, hend⟩
    refine ⟨hprotocol, hport, fun e he => ?_⟩
    have hcheck := hend e he
    cases hp : p.port with
    | none => simp [hp] at hcheck
    | some v =>
      simp only [hp, invalid_eq_nil, validatePortRange_eq_none] at hcheck
      exact ⟨v, rfl, hcheck.2⟩
  · intro h
    refine ⟨h.protocol, h.port, fun e he => ?_⟩
    obtain ⟨v, hv, hle⟩ := h.range e he
    simp only [hv, invalid_eq_nil, validatePortRange_eq_none]
    exact ⟨(h.port v hv).1, hle⟩

theorem validateNetworkPolicyPorts_eq_nil {ports : List NovaNetworkPolicyPort}
    {path : FieldPath} : validateNetworkPolicyPorts ports path = [] ↔ ∀ p ∈ ports, p.Valid :=
  flatten_mapIdx_eq_nil fun _ _ => validateNetworkPolicyPort_eq_nil

theorem validPorts_of_accepted {spec : NovaNetworkPolicySpec}
    (h : validateNovaNetworkPolicySpec spec = []) :
    (∀ rule ∈ spec.ingress, ∀ p ∈ rule.ports, p.Valid) ∧
      ∀ rule ∈ spec.egress, ∀ p ∈ rule.ports, p.Valid := by
  obtain ⟨-, h⟩ := append_eq_nil_iff.mp h
  obtain ⟨hingress, hegress⟩ := append_eq_nil_iff.mp h
  rw [flatten_eq_nil_iff] at hingress hegress
  refine ⟨fun rule hrule => ?_, fun rule hrule => ?_⟩
  · obtain ⟨i, hi, rfl⟩ := getElem_of_mem hrule
    have hnil := hingress _ (mem_mapIdx.mpr ⟨i, hi, rfl⟩)
    exact validateNetworkPolicyPorts_eq_nil.mp (append_eq_nil_iff.mp hnil).1
  · obtain ⟨i, hi, rfl⟩ := getElem_of_mem hrule
    have hnil := hegress _ (mem_mapIdx.mpr ⟨i, hi, rfl⟩)
    exact validateNetworkPolicyPorts_eq_nil.mp (append_eq_nil_iff.mp hnil).1

end NetworkPolicies

section HostPolicies

def validateHostPort (path : FieldPath) (hp : HostPort) : List FieldError :=
  invalid (path.child "port") (.int hp.port) (validatePort hp.port) ++
    whenSet hp.endPort fun endPort =>
      invalid (path.child "endPort") (.int endPort) (validatePortRange hp.port endPort)

def validateHostRule (path : FieldPath) (rule : HostRule) : List FieldError :=
  supported (path.child "action") [hostRuleActionAllow, hostRuleActionDeny] rule.action ++
  ((rule.cidrs.mapIdx fun i cidr =>
    invalid ((path.child "cidrs").index i) (.text cidr) (validateCIDR cidr)).flatten ++
  ((rule.ports.mapIdx fun i hp => validateHostPort ((path.child "ports").index i) hp).flatten ++
  validateProtocolField path rule.protocol))

def validateHostEndpointPolicySpec (spec : HostEndpointPolicySpec) : List FieldError :=
  (spec.ingress.mapIdx fun i rule =>
    validateHostRule (FieldPath.index "spec.ingress" i) rule).flatten ++
  (spec.egress.mapIdx fun i rule =>
    validateHostRule (FieldPath.index "spec.egress" i) rule).flatten

structure HostPort.Valid (hp : HostPort) : Prop where
  port : 1 ≤ hp.port ∧ hp.port ≤ 65535
  range : ∀ e ∈ hp.endPort, hp.port ≤ e ∧ e ≤ 65535

structure HostRule.Valid (rule : HostRule) : Prop where
  action : rule.action = hostRuleActionAllow ∨ rule.action = hostRuleActionDeny
  cidrs : ∀ cidr ∈ rule.cidrs, validateCIDR cidr = none
  ports : ∀ hp ∈ rule.ports, hp.Valid
  protocol : ∀ t ∈ rule.protocol, ∃ proto, protocolNamed t = some proto

theorem validateHostPort_eq_nil {path : FieldPath} {hp : HostPort} :
    validateHostPort path hp = [] ↔ hp.Valid := by
  rw [validateHostPort, append_eq_nil_iff, invalid_eq_nil, validatePort_eq_none, whenSet_eq_nil]
  simp only [invalid_eq_nil, validatePortRange_eq_none]
  exact ⟨fun h => ⟨h.1, fun e he => (h.2 e he).2⟩,
    fun h => ⟨h.port, fun e he => ⟨h.port.1, h.range e he⟩⟩⟩

theorem validateHostRule_eq_nil {path : FieldPath} {rule : HostRule} :
    validateHostRule path rule = [] ↔ rule.Valid := by
  have hcidrs : (rule.cidrs.mapIdx fun i cidr => invalid ((path.child "cidrs").index i)
      (.text cidr) (validateCIDR cidr)).flatten = [] ↔ ∀ cidr ∈ rule.cidrs, validateCIDR cidr = none :=
    flatten_mapIdx_eq_nil fun _ _ => invalid_eq_nil
  have hports : (rule.ports.mapIdx fun i hp => validateHostPort ((path.child "ports").index i)
      hp).flatten = [] ↔ ∀ hp ∈ rule.ports, hp.Valid :=
    flatten_mapIdx_eq_nil fun _ _ => validateHostPort_eq_nil
  rw [validateHostRule, append_eq_nil_iff, append_eq_nil_iff, append_eq_nil_iff,
    supported_eq_nil, hcidrs, hports, validateProtocolField_eq_nil]
  constructor
  · rintro ⟨haction, hcidrs, hports, hproto⟩
    exact ⟨by simpa using haction, hcidrs, hports, hproto⟩
  · intro h
    exact ⟨by simpa using h.action, h.cidrs, h.ports, h.protocol⟩

theorem validateHostEndpointPolicySpec_eq_nil {spec : HostEndpointPolicySpec} :
    validateHostEndpointPolicySpec spec = [] ↔
      (∀ rule ∈ spec.ingress, rule.Valid) ∧ ∀ rule ∈ spec.egress, rule.Valid := by
  have hrules (name : String) (rules : List HostRule) : (rules.mapIdx fun i rule =>
      validateHostRule (FieldPath.index name i) rule).flatten = [] ↔ ∀ rule ∈ rules, rule.Valid :=
    flatten_mapIdx_eq_nil fun _ _ => validateHostRule_eq_nil
  rw [validateHostEndpointPolicySpec, append_eq_nil_iff, hrules, hrules]

end HostPolicies

end NovaNet
