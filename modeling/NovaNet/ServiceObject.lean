import NovaNet.NetworkPolicy
import NovaNet.NetAddr

/-! Services and EndpointSlices as the service watcher reads them, and the requests it
sends to the dataplane. Counts and offsets are the values of unsigned 32-bit fields. -/

namespace NovaNet

inductive Scope where
  | clusterIP
  | nodePort
  | externalIP
  | loadBalancer
  deriving DecidableEq

def Scope.number : Scope → Nat
  | .clusterIP => 0
  | .nodePort => 1
  | .externalIP => 2
  | .loadBalancer => 3

inductive Algorithm where
  | random
  | roundRobin
  | maglev
  deriving DecidableEq

def Algorithm.number : Algorithm → Nat
  | .random => 0
  | .roundRobin => 1
  | .maglev => 2

inductive ServiceType where
  | clusterIP
  | nodePort
  | loadBalancer
  | externalName
  deriving DecidableEq

/-- `targetPort` is the integer value of the target port, 0 for a port name. -/
structure ServicePort where
  name : String
  protocol : Protocol
  port : Int32
  nodePort : Int32
  targetPort : Int
  deriving DecidableEq

structure Service where
  namespace_ : String
  name : String
  type : ServiceType
  clusterIP : String
  clusterIPs : List String
  ports : List ServicePort
  externalIPs : List String
  ingressIPs : List String
  clientIPAffinity : Bool
  externalLocal : Bool
  internalLocal : Bool
  affinityTimeout : Option Int32
  deriving DecidableEq

structure EndpointPort where
  name : Option String
  port : Option Int32
  deriving DecidableEq

structure SliceEndpoint where
  ready : Option Bool
  addresses : List String
  deriving DecidableEq

/-- `serviceName` is the label that names the service of the slice. -/
structure EndpointSlice where
  namespace_ : String
  name : String
  serviceName : Option String
  endpoints : List SliceEndpoint
  ports : List EndpointPort
  deriving DecidableEq

def Service.key (svc : Service) : String := svc.namespace_ ++ "/" ++ svc.name

def EndpointSlice.key (eps : EndpointSlice) : String := eps.namespace_ ++ "/" ++ eps.name

structure BackendInfo where
  ip : String
  nodeIP : String
  port : Int32
  portName : String
  deriving DecidableEq

structure ServiceAddr where
  ip : String
  port : Nat
  protocol : Nat
  scope : Scope
  deriving DecidableEq

structure ServiceEntry where
  backendCount : Nat
  backendOffset : Nat
  algorithm : Algorithm
  flags : Nat
  affinityTimeout : Nat
  maglevOffset : Nat
  deriving DecidableEq

structure BackendEntry where
  index : Nat
  ip : String
  port : Nat
  nodeIp : String
  deriving DecidableEq

inductive DpRequest where
  | upsertService (addr : ServiceAddr) (entry : ServiceEntry)
  | deleteService (addr : ServiceAddr)
  | upsertBackends (backends : List BackendEntry)
  | upsertMaglevTable (offset : Nat) (entries : List Nat)
  deriving DecidableEq

/-- Negative ports become 0. -/
def portToU32 (port : Int32) : Nat := port.toInt.toNat

def intToU32 (n : Int) : Nat := if n < 0 then 0 else n.toNat % 2 ^ 32

def protocolToNumber (proto : Protocol) : Nat := proto.number.toNat

def notBlank (ip : String) : Bool := ip ≠ "" ∧ ip ≠ "None"

def serviceClusterIPs (svc : Service) : List String :=
  if 0 < svc.clusterIPs.length then svc.clusterIPs.filter notBlank
  else if notBlank svc.clusterIP then [svc.clusterIP]
  else []

def computeScopes (svc : Service) : List Scope :=
  [.clusterIP] ++
    (match svc.type with
    | .clusterIP => []
    | .nodePort => [.nodePort]
    | .loadBalancer => [.nodePort, .loadBalancer]
    | .externalName => []) ++
    if 0 < svc.externalIPs.length then [.externalIP] else []

def serviceIPForScope (clusterIP : String) (scope : Scope) (specificIP : String) : String :=
  match scope with
  | .clusterIP => clusterIP
  | .nodePort => ""
  | .externalIP | .loadBalancer => if specificIP ≠ "" then specificIP else clusterIP

def servicePortForScope (port : ServicePort) (scope : Scope) : Nat :=
  if scope = .nodePort ∧ 0 < port.nodePort then portToU32 port.nodePort else portToU32 port.port

def serviceAddr (port : ServicePort) (scope : Scope) (clusterIP : String) : ServiceAddr :=
  ⟨serviceIPForScope clusterIP scope "", servicePortForScope port scope,
    protocolToNumber port.protocol, scope⟩

def specificAddr (port : ServicePort) (scope : Scope) (ip : String) : ServiceAddr :=
  ⟨ip, portToU32 port.port, protocolToNumber port.protocol, scope⟩

def computeFlags (dsrEnabled : Bool) (svc : Service) : Nat :=
  (if svc.clientIPAffinity then 0x01 else 0) ||| (if svc.externalLocal then 0x02 else 0) |||
    (if dsrEnabled then 0x04 else 0) ||| (if svc.internalLocal then 0x08 else 0)

def computeAffinityTimeout (svc : Service) : Nat := (svc.affinityTimeout.map portToU32).getD 0

def resolveTargetPort (port : ServicePort) (be : BackendInfo) : Nat :=
  if be.portName ≠ "" ∧ be.portName = port.name then portToU32 be.port
  else if 0 < be.port ∧ port.name = "" then portToU32 be.port
  else if 0 < port.targetPort then intToU32 port.targetPort
  else portToU32 port.port

/-- Only the first port of a slice is looked at. -/
def sliceBackend (eps : EndpointSlice) (addr : String) : BackendInfo :=
  match eps.ports with
  | ⟨name, some port⟩ :: _ => ⟨addr, "", port, name.getD ""⟩
  | _ => ⟨addr, "", 0, ""⟩

def sliceBackends (eps : EndpointSlice) : List BackendInfo :=
  eps.endpoints.flatMap fun ep =>
    if ep.ready = some false then []
    else (ep.addresses.filter fun addr => (Net.parseIp addr).isSome).map (sliceBackend eps)

abbrev SliceStore := Finmap fun _ : String => EndpointSlice

def collectBackends (o : IterOrder String) (store : SliceStore) (svc : Service) :
    List BackendInfo :=
  ((o.enum [] store.keys).filterMap store.lookup).flatMap fun eps =>
    if eps.namespace_ = svc.namespace_ ∧ eps.serviceName = some svc.name then sliceBackends eps
    else []

theorem intToU32_natCast (n : Nat) : intToU32 n = n % 2 ^ 32 := by
  have hn : ¬ (n : Int) < 0 := by omega
  rw [intToU32, if_neg hn, Int.toNat_natCast]

theorem intToU32_of_lt {n : Nat} (h : n < 2 ^ 32) : intToU32 n = n := by
  rw [intToU32_natCast, Nat.mod_eq_of_lt h]

end NovaNet
