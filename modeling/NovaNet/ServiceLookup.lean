import NovaNet.ServiceObject

/-! The load balancer in the dataplane: what the requests of the service watcher write
into its maps, and how a packet program finds a backend there. The IPv6 maps are not
read by these programs and only decide whether a request is accepted. -/

namespace NovaNet

structure ServiceKey where
  ip : UInt32
  port : UInt16
  protocol : UInt8
  scope : UInt8
  deriving DecidableEq

structure ServiceValue where
  backendCount : UInt16
  backendOffset : UInt16
  algorithm : UInt8
  flags : UInt8
  affinityTimeout : UInt16
  maglevOffset : UInt32
  deriving DecidableEq

structure BackendValue where
  ip : UInt32
  port : UInt16
  nodeIp : UInt32
  deriving DecidableEq

structure CtKey where
  srcIp : UInt32
  dstIp : UInt32
  srcPort : UInt16
  dstPort : UInt16
  protocol : UInt8
  deriving DecidableEq

/-- The timestamp and the flags are always 0. -/
structure CtValue where
  backendIp : UInt32
  originIp : UInt32
  backendPort : UInt16
  originPort : UInt16
  deriving DecidableEq

def maxServices : Nat := 16384

def maxBackends : Nat := 65536

def maxMaglev : Nat := 1048576

def configKeyL4lbEnabled : UInt32 := 10

def scopeNodePort : UInt8 := 1

def scopeExternalIp : UInt8 := 2

def lbAlgRoundRobin : UInt8 := 1

def lbAlgMaglev : UInt8 := 2

/-- The arrays hold what was written; the other entries below their size are zero.
Round-robin counters are kept for each processor. -/
structure L4Maps where
  config : Finmap fun _ : UInt32 => UInt64
  services : Finmap fun _ : ServiceKey => ServiceValue
  backends : Finmap fun _ : Nat => BackendValue
  maglev : Finmap fun _ : Nat => UInt32
  conntrack : Finmap fun _ : CtKey => CtValue
  rrCounters : Finmap fun _ : Nat × Nat => UInt32
  v6Loaded : Bool

inductive L4Error where
  | invalidIp (ip : String)
  | addressFamilies (index : Nat)
  | upsertService
  | deleteService
  | upsertBackend (index : Nat)
  | upsertMaglevEntry (index : Nat)
  deriving DecidableEq

def serviceKey (ip : UInt32) (addr : ServiceAddr) : ServiceKey :=
  ⟨ip, UInt16.ofNat addr.port, UInt8.ofNat addr.protocol, UInt8.ofNat addr.scope.number⟩

def serviceValue (e : ServiceEntry) : ServiceValue where
  backendCount := UInt16.ofNat e.backendCount
  backendOffset := UInt16.ofNat e.backendOffset
  algorithm := UInt8.ofNat e.algorithm.number
  flags := UInt8.ofNat e.flags
  affinityTimeout := UInt16.ofNat e.affinityTimeout
  maglevOffset := UInt32.ofNat e.maglevOffset

namespace L4Maps

def upsertService (m : L4Maps) (addr : ServiceAddr) (e : ServiceEntry) : Except L4Error L4Maps :=
  match Net.parseIp addr.ip with
  | none => .error (.invalidIp addr.ip)
  | some (.v4 ip) =>
    if serviceKey ip addr ∈ m.services ∨ m.services.keys.card < maxServices then
      .ok { m with services := m.services.insert (serviceKey ip addr) (serviceValue e) }
    else .error .upsertService
  | some (.v6 _) => if m.v6Loaded then .ok m else .error .upsertService

def deleteService (m : L4Maps) (addr : ServiceAddr) : Except L4Error L4Maps :=
  match Net.parseIp addr.ip with
  | none => .error (.invalidIp addr.ip)
  | some (.v4 ip) =>
    if serviceKey ip addr ∈ m.services then
      .ok { m with services := m.services.erase (serviceKey ip addr) }
    else .error .deleteService
  | some (.v6 _) => if m.v6Loaded then .ok m else .error .deleteService

def upsertBackend (m : L4Maps) (e : BackendEntry) : Except L4Error L4Maps :=
  match Net.parseIp e.ip with
  | none => .error (.invalidIp e.ip)
  | some ip =>
    match Net.parseIp e.nodeIp with
    | none => .error (.invalidIp e.nodeIp)
    | some node =>
      match ip, node with
      | .v4 ip, .v4 node =>
        if e.index < maxBackends then
          .ok { m with backends := m.backends.insert e.index ⟨ip, UInt16.ofNat e.port, node⟩ }
        else .error (.upsertBackend e.index)
      | .v6 _, .v6 _ =>
        if m.v6Loaded ∧ e.index < maxBackends then .ok m else .error (.upsertBackend e.index)
      | _, _ => .error (.addressFamilies e.index)

/-- The backends before the first one that is rejected stay written. -/
def upsertBackends (m : L4Maps) : List BackendEntry → L4Maps × Except L4Error Unit
  | [] => (m, .ok ())
  | e :: es =>
    match m.upsertBackend e with
    | .error err => (m, .error err)
    | .ok m' => m'.upsertBackends es

def upsertMaglevTable (m : L4Maps) (offset : Nat) : List Nat → L4Maps × Except L4Error Unit
  | [] => (m, .ok ())
  | e :: es =>
    if offset % 2 ^ 32 < maxMaglev then
      upsertMaglevTable { m with maglev := m.maglev.insert (offset % 2 ^ 32) (UInt32.ofNat e) }
        (offset + 1) es
    else (m, .error (.upsertMaglevEntry (offset % 2 ^ 32)))

def keepOnError (m : L4Maps) : Except L4Error L4Maps → L4Maps × Except L4Error Unit
  | .ok m' => (m', .ok ())
  | .error e => (m, .error e)

def serve (m : L4Maps) : DpRequest → L4Maps × Except L4Error Unit
  | .upsertService addr e => m.keepOnError (m.upsertService addr e)
  | .deleteService addr => m.keepOnError (m.deleteService addr)
  | .upsertBackends es => m.upsertBackends es
  | .upsertMaglevTable offset es => m.upsertMaglevTable offset es

def serveAll (m : L4Maps) (reqs : List DpRequest) : L4Maps :=
  reqs.foldl (fun m q => (m.serve q).1) m

def getConfig (m : L4Maps) (key : UInt32) : UInt64 := (m.config.lookup key).getD 0

def backend (m : L4Maps) (i : Nat) : Option BackendValue :=
  if i < maxBackends then some ((m.backends.lookup i).getD ⟨0, 0, 0⟩) else none

def maglevEntry (m : L4Maps) (i : Nat) : Option UInt32 :=
  if i < maxMaglev then some ((m.maglev.lookup i).getD 0) else none

end L4Maps

def hash5tuple (srcIp dstIp : UInt32) (srcPort dstPort : UInt16) (proto : UInt8) : UInt32 :=
  [srcIp, dstIp, srcPort.toUInt32, dstPort.toUInt32, proto.toUInt32].foldl
    (fun h x => (h ^^^ x) * 16777619) 2166136261

def L4Maps.selectBackend (m : L4Maps) (cpu : Nat) (svc : ServiceValue) (hash : UInt32) :
    UInt32 × L4Maps :=
  if svc.algorithm = lbAlgRoundRobin then
    if svc.backendOffset.toNat < maxServices then
      let val := (m.rrCounters.lookup (cpu, svc.backendOffset.toNat)).getD 0
      (val % svc.backendCount.toUInt32,
        { m with rrCounters := m.rrCounters.insert (cpu, svc.backendOffset.toNat) (val + 1) })
    else (0, m)
  else if svc.algorithm = lbAlgMaglev then
    ((m.maglevEntry (svc.maglevOffset + hash % 65537).toNat).getD 0, m)
  else (hash % svc.backendCount.toUInt32, m)

structure Selected where
  backendIp : UInt32
  backendPort : UInt16
  originIp : UInt32
  originPort : UInt16
  deriving DecidableEq

def CtKey.reply (fwd : CtKey) (b : BackendValue) : CtKey :=
  ⟨b.ip, fwd.srcIp, b.port, fwd.srcPort, fwd.protocol⟩

def L4Maps.track (m : L4Maps) (fwd : CtKey) (b : BackendValue) : L4Maps :=
  let forward : CtValue := ⟨b.ip, fwd.dstIp, b.port, fwd.dstPort⟩
  let reverse : CtValue := ⟨0, fwd.dstIp, 0, fwd.dstPort⟩
  { m with conntrack := (m.conntrack.insert fwd forward).insert (fwd.reply b) reverse }

def L4Maps.serviceLookup (m : L4Maps) (cpu : Nat) (dstIp : UInt32) (dstPort : UInt16)
    (protocol : UInt8) (srcIp : UInt32) (srcPort : UInt16) (scope : UInt8) :
    Option Selected × L4Maps :=
  if m.getConfig configKeyL4lbEnabled = 0 then (none, m)
  else
    let ctKey : CtKey := ⟨srcIp, dstIp, srcPort, dstPort, protocol⟩
    match m.conntrack.lookup ctKey with
    | some ct => (some ⟨ct.backendIp, ct.backendPort, ct.originIp, ct.originPort⟩, m)
    | none =>
      match m.services.lookup ⟨dstIp, dstPort, protocol, scope⟩ with
      | none => (none, m)
      | some svc =>
        if svc.backendCount = 0 then (none, m)
        else
          let r := m.selectBackend cpu svc (hash5tuple srcIp dstIp srcPort dstPort protocol)
          match r.2.backend (svc.backendOffset.toUInt32 + r.1).toNat with
          | none => (none, r.2)
          | some b => (some ⟨b.ip, b.port, dstIp, dstPort⟩, r.2.track ctKey b)

end NovaNet
