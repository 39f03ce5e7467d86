import NovaNet.Dataplane

/-! The three packet programs on the way to a pod, and what they do with a source
that has no identity. -/

namespace NovaNet

inductive TcAction where
  | ok
  | shot
  | redirect (ifindex : UInt32)
  deriving DecidableEq

namespace Dataplane

variable (env : PacketEnv) (s : Dataplane) (h : Headers)

/-- The policy part of the ingress program. In overlay mode the tunnel program has
already enforced policy. -/
def tcIngressPolicy : TcAction × Dataplane :=
  if s.getConfig configKeyMode = modeOverlay then (.ok, s)
  else
    match s.lookupIdentity h.srcIp with
    | none =>
      if s.getConfig configKeyDefaultDeny = 1 then (.shot, s.drop env h 0 0 dropReasonNoIdentity)
      else (.ok, s)
    | some src =>
      let (pass, s) := s.enforcePolicy env h src.identity (s.identityOf h.dstIp) true
      (if pass then .ok else .shot, s)

def observeHealth : Dataplane :=
  if h.protocol = 6 then s.trackBackendHealth env h.dstIp h.dstPort h.tcpFlags else s

def tcIngressHeaders : TcAction × Dataplane :=
  match s.checkRateLimit env h.srcIp with
  | (false, s) => (.shot, s.incDropCounter dropReasonRateLimited)
  | (true, s) => (s.observeHealth env h).tcIngressPolicy env h

def overlayEgress (srcIdentity : UInt32) (dst : EndpointValue) : TcAction × Dataplane :=
  match s.tunnels.lookup dst.nodeIp with
  | some tunnel =>
    let (pass, s) := s.enforcePolicy env h srcIdentity dst.identity false
    if !pass then (.shot, s)
    else if env.setTunnelKey tunnel.remoteIp tunnel.vni < 0 then
      (.shot, s.incDropCounter dropReasonNoTunnel)
    else
      (.redirect tunnel.ifindex,
        s.emitFlowEvent env h srcIdentity dst.identity actionAllow dropReasonNone)
  | none => (.shot, s.drop env h srcIdentity dst.identity dropReasonNoTunnel)

def endpointEgress (srcIdentity : UInt32) (dst : EndpointValue) : TcAction × Dataplane :=
  if dst.nodeIp = (s.getConfig configKeyNodeIp).toUInt32 ∨ dst.nodeIp = 0 then
    let (pass, s) := s.enforcePolicy env h srcIdentity dst.identity true
    (if pass then .ok else .shot, s)
  else if s.getConfig configKeyMode = modeOverlay then s.overlayEgress env h srcIdentity dst
  else
    let (pass, s) := s.enforcePolicy env h srcIdentity dst.identity true
    (if pass then .ok else .shot, s)

def tcEgressHeaders : TcAction × Dataplane :=
  let srcIdentity := s.identityOf h.srcIp
  match s.lookupIdentity h.dstIp with
  | some dst => s.endpointEgress env h srcIdentity dst
  | none =>
    if !s.isClusterIp h.dstIp then
      if !(checkEgressPolicy s.egressPolicies srcIdentity h.dstIp).1 then
        (.shot, s.drop env h srcIdentity 0 dropReasonPolicyDenied)
      else (.ok, s.emitFlowEvent env h srcIdentity 0 actionAllow dropReasonNone)
    else if s.getConfig configKeyMode = modeOverlay then
      (.shot, s.drop env h srcIdentity 0 dropReasonNoRoute)
    else (.ok, s)

def redirectTo (dstIp : UInt32) : TcAction :=
  match s.lookupIdentity dstIp with
  | some dst => .redirect dst.ifindex
  | none => .ok

def enforceTunnelPolicy (srcIdentity dstIdentity : UInt32) : TcAction × Dataplane :=
  if srcIdentity = 0 then
    if s.getConfig configKeyDefaultDeny = 1 then
      (.shot, s.drop env h 0 dstIdentity dropReasonNoIdentity)
    else (s.redirectTo h.dstIp, s)
  else
    let (pass, s') := s.enforcePolicy env h srcIdentity dstIdentity true
    (if pass then s.redirectTo h.dstIp else .shot, s')

def tcTunnelHeaders : TcAction × Dataplane :=
  s.enforceTunnelPolicy env h (s.identityOf h.srcIp) (s.identityOf h.dstIp)

end Dataplane

def runProgram (env : PacketEnv) (s : Dataplane) (p : Packet)
    (program : Headers → TcAction × Dataplane) : Except Unit TcAction × Dataplane :=
  match parseHeaders env.ihl p with
  | .error e => (.error e, s)
  | .ok none => (.ok .ok, s)
  | .ok (some h) => let (a, s) := program h; (.ok a, s)

def tryTcIngress (env : PacketEnv) (s : Dataplane) (p : Packet) : Except Unit TcAction × Dataplane :=
  runProgram env s p (s.tcIngressHeaders env)

def tryTcEgress (env : PacketEnv) (s : Dataplane) (p : Packet) : Except Unit TcAction × Dataplane :=
  runProgram env s p (s.tcEgressHeaders env)

def tryTcTunnelIngress (env : PacketEnv) (s : Dataplane) (p : Packet) :
    Except Unit TcAction × Dataplane :=
  runProgram env s p (s.tcTunnelHeaders env)

theorem runProgram_headers {env : PacketEnv} {s : Dataplane} {p : Packet} {h : Headers}
    (hp : parseHeaders env.ihl p = .ok (some h)) (program : Headers → TcAction × Dataplane) :
    runProgram env s p program = (.ok (program h).1, (program h).2) := by
  simp only [runProgram, hp]

/-! What the bookkeeping of a packet leaves alone. -/

namespace Dataplane

variable (env : PacketEnv) (s : Dataplane)

theorem checkRateLimit_frame (srcIp : UInt32) :
    (s.checkRateLimit env srcIp).2.config = s.config ∧
      (s.checkRateLimit env srcIp).2.endpoints = s.endpoints := by
  unfold checkRateLimit
  cases s.rlConfig with
  | none => exact ⟨rfl, rfl⟩
  | some cfg =>
    by_cases hr : cfg.rate = 0
    · simp [hr]
    · cases s.rlTokens.lookup srcIp with
      | none => simp [hr]
      | some state => by_cases ht : refill cfg state env.nowNs > 0 <;> simp [hr, ht]

theorem observeHealth_frame (h : Headers) : (s.observeHealth env h).config = s.config ∧
    (s.observeHealth env h).endpoints = s.endpoints := by
  unfold observeHealth trackBackendHealth
  by_cases hp : h.protocol = 6
  · by_cases hf : h.tcpFlags = 0 <;> simp [hp, hf]
  · simp [hp]

theorem enforcePolicy_pass (h : Headers) (srcIdentity dstIdentity : UInt32) (logAllow : Bool) :
    (s.enforcePolicy env h srcIdentity dstIdentity logAllow).1 =
      !policyDenies (s.getConfig configKeyDefaultDeny)
        (checkPolicy s.policies srcIdentity dstIdentity h.protocol h.dstPort) := by
  unfold enforcePolicy policyDenies
  generalize checkPolicy s.policies srcIdentity dstIdentity h.protocol h.dstPort = r
  by_cases hdeny : r = some actionDeny
  · simp [hdeny]
  · by_cases hallow : r = some actionAllow
    · simp [hallow, actionAllow, actionDeny]
    · by_cases hd : s.getConfig configKeyDefaultDeny = 1 <;> simp [hdeny, hallow, hd]

end Dataplane

end NovaNet
