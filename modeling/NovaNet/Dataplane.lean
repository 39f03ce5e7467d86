import NovaNet.PolicyMap

/-! The maps of the packet programs, and the helpers that the programs share. A map
lookup that the source leaves to the kernel is a lookup in a finite map here. -/

namespace NovaNet

structure EndpointValue where
  ifindex : UInt32
  identity : UInt32
  nodeIp : UInt32
  deriving DecidableEq

structure TunnelValue where
  ifindex : UInt32
  remoteIp : UInt32
  vni : UInt32
  deriving DecidableEq

structure EgressKey where
  srcIdentity : UInt32
  dstIp : UInt32
  dstPrefixLen : UInt8
  deriving DecidableEq

structure EgressValue where
  action : UInt8
  snatIp : UInt32
  deriving DecidableEq

abbrev EgressMap := Finmap fun _ : EgressKey => EgressValue

structure RateLimitConfig where
  rate : UInt32
  burst : UInt32
  windowNs : UInt64
  deriving DecidableEq

structure TokenBucketState where
  tokens : UInt64
  lastRefillNs : UInt64
  deriving DecidableEq

structure BackendHealthKey where
  ip : UInt32
  port : UInt32
  deriving DecidableEq

structure BackendHealthCounters where
  totalConns : UInt64
  failedConns : UInt64
  timeoutConns : UInt64
  successConns : UInt64
  lastSuccessNs : UInt64
  lastFailureNs : UInt64
  totalRttNs : UInt64
  deriving DecidableEq

structure FlowEvent where
  family : UInt8
  verdict : UInt8
  dropReason : UInt8
  tcpFlags : UInt8
  srcIdentity : UInt32
  dstIdentity : UInt32
  protocol : UInt8
  srcPort : UInt16
  dstPort : UInt16
  srcIp : UInt32
  dstIp : UInt32
  bytes : UInt64
  packets : UInt64
  timestampNs : UInt64
  deriving DecidableEq

def configKeyMode : UInt32 := 0
def configKeyNodeIp : UInt32 := 2
def configKeyClusterCidrIp : UInt32 := 3
def configKeyClusterCidrPrefixLen : UInt32 := 4
def configKeyDefaultDeny : UInt32 := 5

def modeOverlay : UInt64 := 0
def modeNative : UInt64 := 1

def egressDeny : UInt8 := 0
def egressAllow : UInt8 := 1
def egressSnat : UInt8 := 2

def dropReasonNone : UInt8 := 0
def dropReasonPolicyDenied : UInt8 := 1
def dropReasonNoIdentity : UInt8 := 2
def dropReasonNoRoute : UInt8 := 3
def dropReasonNoTunnel : UInt8 := 4
def dropReasonRateLimited : UInt8 := 6

def afInet : UInt8 := 2

structure Dataplane where
  config : Finmap fun _ : UInt32 => UInt64
  endpoints : Finmap fun _ : UInt32 => EndpointValue
  policies : PolicyMap
  tunnels : Finmap fun _ : UInt32 => TunnelValue
  egressPolicies : EgressMap
  rlConfig : Option RateLimitConfig
  rlTokens : Finmap fun _ : UInt32 => TokenBucketState
  backendHealth : Finmap fun _ : BackendHealthKey => BackendHealthCounters
  dropCounters : Finmap fun _ : UInt8 => UInt64
  flowEvents : List FlowEvent

abbrev Packet := List UInt8

/-- What a program gets from the kernel while it handles one packet: the clock,
whether the event ring has room, the result of setting a tunnel key, and the header
length accessor of the header library. -/
structure PacketEnv where
  nowNs : UInt64
  ringSpace : Bool
  setTunnelKey : UInt32 → UInt32 → Int
  ihl : UInt8 → UInt8

structure Headers where
  srcIp : UInt32
  dstIp : UInt32
  protocol : UInt8
  srcPort : UInt16
  dstPort : UInt16
  tcpFlags : UInt8
  totalLen : UInt64
  deriving DecidableEq

def Packet.fits (p : Packet) (offset size : Nat) : Bool := offset + size ≤ p.length

def Packet.byte (p : Packet) (i : Nat) : UInt8 := p.getD i 0

def Packet.be16 (p : Packet) (i : Nat) : UInt16 :=
  ((p.byte i).toUInt16 <<< 8) ||| (p.byte (i + 1)).toUInt16

def Packet.be32 (p : Packet) (i : Nat) : UInt32 :=
  ((p.be16 i).toUInt32 <<< 16) ||| (p.be16 (i + 2)).toUInt32

def parseL4Ports (p : Packet) (l4Offset : Nat) (protocol : UInt8) : UInt16 × UInt16 × UInt8 :=
  if protocol = 6 then
    if p.fits l4Offset 20 then
      (p.be16 l4Offset, p.be16 (l4Offset + 2),
        if p.fits (l4Offset + 13) 1 then p.byte (l4Offset + 13) else 0)
    else (0, 0, 0)
  else if protocol = 17 then
    if p.fits l4Offset 8 then (p.be16 l4Offset, p.be16 (l4Offset + 2), 0) else (0, 0, 0)
  else (0, 0, 0)

def parseHeaders (ihl : UInt8 → UInt8) (p : Packet) : Except Unit (Option Headers) :=
  if p.fits 0 14 then
    if p.be16 12 ≠ 0x0800 then .ok none
    else if p.fits 14 20 then
      let protocol := p.byte 23
      let l4 := parseL4Ports p (14 + (ihl (p.byte 14)).toNat * 4) protocol
      .ok (some
        { srcIp := p.be32 26
          dstIp := p.be32 30
          protocol := protocol
          srcPort := l4.1
          dstPort := l4.2.1
          tcpFlags := l4.2.2
          totalLen := (p.be16 16).toUInt64 })
    else .error ()
  else .error ()

def prefixMask (len : UInt32) : UInt32 :=
  if len = 0 then 0
  else if len = 32 then 0xFFFFFFFF
  else ~~~((1 <<< (32 - len)) - 1)

def egressPrefixLengths : List UInt8 := [32, 24, 16, 8, 0]

def egressVerdict (val : EgressValue) : Bool × UInt32 :=
  if val.action = egressDeny then (false, 0)
  else if val.action = egressAllow then (true, 0)
  else if val.action = egressSnat then (true, val.snatIp)
  else (false, 0)

/-- Whether external traffic may leave, and the address to translate to. Only five
prefix lengths are tried, and no hit allows. -/
def checkEgressPolicy (m : EgressMap) (srcIdentity dstIp : UInt32) : Bool × UInt32 :=
  (egressPrefixLengths.findSome? fun len =>
    (m.lookup ⟨srcIdentity, dstIp &&& prefixMask len.toUInt32, len⟩).map egressVerdict).getD
    (true, 0)

namespace Dataplane

variable (env : PacketEnv) (s : Dataplane)

def getConfig (key : UInt32) : UInt64 := (s.config.lookup key).getD 0

def lookupIdentity (ip : UInt32) : Option EndpointValue := s.endpoints.lookup ip

def identityOf (ip : UInt32) : UInt32 := ((s.lookupIdentity ip).map EndpointValue.identity).getD 0

def isClusterIp (ip : UInt32) : Bool :=
  let cidrIp := (s.getConfig configKeyClusterCidrIp).toUInt32
  let prefixLen := (s.getConfig configKeyClusterCidrPrefixLen).toUInt32
  if prefixLen = 0 ∨ prefixLen > 32 then false
  else (ip &&& prefixMask prefixLen) = (cidrIp &&& prefixMask prefixLen)

def incDropCounter (reason : UInt8) : Dataplane :=
  { s with dropCounters :=
      s.dropCounters.insert reason ((s.dropCounters.lookup reason).getD 0 + 1) }

def emitFlowEvent (h : Headers) (srcIdentity dstIdentity : UInt32) (verdict dropReason : UInt8) :
    Dataplane :=
  if env.ringSpace then
    { s with flowEvents := s.flowEvents ++
        [{ family := afInet, verdict, dropReason, tcpFlags := h.tcpFlags, srcIdentity, dstIdentity
           protocol := h.protocol, srcPort := h.srcPort, dstPort := h.dstPort, srcIp := h.srcIp
           dstIp := h.dstIp, bytes := h.totalLen, packets := 1, timestampNs := env.nowNs }] }
  else s

def drop (h : Headers) (srcIdentity dstIdentity : UInt32) (reason : UInt8) : Dataplane :=
  (s.incDropCounter reason).emitFlowEvent env h srcIdentity dstIdentity actionDeny reason

def refill (cfg : RateLimitConfig) (state : TokenBucketState) (nowNs : UInt64) : UInt64 :=
  let elapsed := if nowNs < state.lastRefillNs then 0 else nowNs - state.lastRefillNs
  if elapsed ≥ cfg.windowNs ∧ cfg.windowNs > 0 then
    let gain := elapsed / cfg.windowNs * cfg.rate.toUInt64
    let tokens := if state.tokens + gain < state.tokens then 0xFFFFFFFFFFFFFFFF
      else state.tokens + gain
    if tokens > cfg.burst.toUInt64 then cfg.burst.toUInt64 else tokens
  else state.tokens

def checkRateLimit (srcIp : UInt32) : Bool × Dataplane :=
  match s.rlConfig with
  | none => (true, s)
  | some cfg =>
    if cfg.rate = 0 then (true, s)
    else
      match s.rlTokens.lookup srcIp with
      | some state =>
        let tokens := refill cfg state env.nowNs
        if tokens > 0 then
          (true, { s with rlTokens := s.rlTokens.insert srcIp ⟨tokens - 1, env.nowNs⟩ })
        else (false, s)
      | none =>
        let tokens := if cfg.burst > 0 then cfg.burst.toUInt64 - 1 else 0
        (true, { s with rlTokens := s.rlTokens.insert srcIp ⟨tokens, env.nowNs⟩ })

def bumpHealth (c : BackendHealthCounters) (tcpFlags : UInt8) (nowNs : UInt64) :
    BackendHealthCounters :=
  let c := if tcpFlags &&& 0x02 ≠ 0 ∧ tcpFlags &&& 0x10 = 0
    then { c with totalConns := c.totalConns + 1 } else c
  let c := if tcpFlags &&& 0x12 = 0x12
    then { c with successConns := c.successConns + 1, lastSuccessNs := nowNs } else c
  if tcpFlags &&& 0x04 ≠ 0
    then { c with failedConns := c.failedConns + 1, lastFailureNs := nowNs } else c

def trackBackendHealth (dstIp : UInt32) (dstPort : UInt16) (tcpFlags : UInt8) : Dataplane :=
  if tcpFlags = 0 then s
  else
    let key : BackendHealthKey := ⟨dstIp, dstPort.toUInt32⟩
    let counters := (s.backendHealth.lookup key).getD ⟨0, 0, 0, 0, 0, 0, 0⟩
    { s with backendHealth := s.backendHealth.insert key (bumpHealth counters tcpFlags env.nowNs) }

/-- The policy match that every program contains: whether the packet passes, and the
state with its drop counted and its event reported. An explicit allow is reported
here only if `logAllow`. -/
def enforcePolicy (h : Headers) (srcIdentity dstIdentity : UInt32) (logAllow : Bool) :
    Bool × Dataplane :=
  let r := checkPolicy s.policies srcIdentity dstIdentity h.protocol h.dstPort
  if r = some actionDeny then
    (false, s.drop env h srcIdentity dstIdentity dropReasonPolicyDenied)
  else if r = some actionAllow then
    (true, if logAllow
      then s.emitFlowEvent env h srcIdentity dstIdentity actionAllow dropReasonNone else s)
  else if s.getConfig configKeyDefaultDeny = 1 then
    (false, s.drop env h srcIdentity dstIdentity dropReasonPolicyDenied)
  else (true, s)

end Dataplane

end NovaNet
