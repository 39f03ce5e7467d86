import NovaNet.TcPrograms

/-! A deny-all entry for a pod, met by a source without an identity. Only the program
of the same-node path looks the entry up. -/

namespace NovaNet

open Dataplane

theorem checkPair_of_wildcard {m : PolicyMap} {src dst : UInt32} {proto : UInt8}
    (dstPort : UInt16) (hp : proto ≠ 0) {v : PolicyValue}
    (hv : m.lookup ⟨src, dst, 0, 0⟩ = some v) :
    ∃ k w, checkPair m src dst proto dstPort = some w.action ∧ k.dstIdentity = dst ∧
      m.lookup k = some w := by
  cases hexact : m.lookup ⟨src, dst, proto, dstPort⟩ with
  | some w => exact ⟨_, w, by simp [checkPair, hexact], rfl, hexact⟩
  | none =>
    by_cases hq : dstPort = 0
    · exact ⟨_, v, by simp [checkPair, hexact, hq, hp, hv], rfl, hv⟩
    · cases hany : m.lookup ⟨src, dst, proto, 0⟩ with
      | some w => exact ⟨_, w, by simp [checkPair, hexact, hq, hany], rfl, hany⟩
      | none => exact ⟨_, v, by simp [checkPair, hexact, hq, hany, hp, hv], rfl, hv⟩

structure DenyAllScene (env : PacketEnv) (s : Dataplane) (p : Packet) (h : Headers)
    (dstIdentity : UInt32) : Prop where
  deny_all : s.policies.lookup ⟨0, dstIdentity, 0, 0⟩ = some ⟨actionDeny⟩
  no_allow : ∀ k v, s.policies.lookup k = some v → k.dstIdentity = dstIdentity → v.action ≠ actionAllow
  parsed : parseHeaders env.ihl p = .ok (some h)
  protocol : h.protocol = 6 ∨ h.protocol = 17
  dst_local : ∃ ep, s.endpoints.lookup h.dstIp = some ep ∧ ep.identity = dstIdentity ∧
    (ep.nodeIp = (s.getConfig configKeyNodeIp).toUInt32 ∨ ep.nodeIp = 0)

structure DropsUnidentified (env : PacketEnv) (s : Dataplane) (p : Packet) (h : Headers)
    (dstIdentity : UInt32) : Prop where
  ingress : s.endpoints.lookup h.srcIp = none → s.getConfig configKeyMode = modeNative →
    (tryTcIngress env s p).1 = .ok .shot
  tunnel : (s.enforceTunnelPolicy env h 0 dstIdentity).1 = .shot
  tunnel_program : s.endpoints.lookup h.srcIp = none → (tryTcTunnelIngress env s p).1 = .ok .shot
  same_node : s.endpoints.lookup h.srcIp = none → (tryTcEgress env s p).1 = .ok .shot

section

variable {env : PacketEnv} {s : Dataplane} {p : Packet} {h : Headers} {dstIdentity : UInt32}

theorem DenyAllScene.checkPolicy_ne_allow (hs : DenyAllScene env s p h dstIdentity) :
    checkPolicy s.policies 0 dstIdentity h.protocol h.dstPort ≠ some actionAllow := by
  have hproto : h.protocol ≠ 0 := by
    rcases hs.protocol with hp | hp <;> rw [hp] <;> decide
  obtain ⟨k, w, hpair, hk, hw⟩ := checkPair_of_wildcard h.dstPort hproto hs.deny_all
  have hcheck : checkPolicy s.policies 0 dstIdentity h.protocol h.dstPort = some w.action := by
    simp [checkPolicy, hpair]
  rw [hcheck]
  intro ha
  exact hs.no_allow k w hw hk (Option.some.inj ha)

theorem tcIngress_unknown (hsrc : s.endpoints.lookup h.srcIp = none)
    (hdd : s.getConfig configKeyDefaultDeny = 1) (hmode : s.getConfig configKeyMode = modeNative) :
    (s.tcIngressHeaders env h).1 = .shot := by
  have hnative : modeNative ≠ modeOverlay := by decide
  have hrate := s.checkRateLimit_frame env h.srcIp
  unfold tcIngressHeaders
  generalize s.checkRateLimit env h.srcIp = r at hrate ⊢
  obtain ⟨allowed, s'⟩ := r
  cases allowed with
  | false => rfl
  | true =>
    have hobs := s'.observeHealth_frame env h
    have hconfig : (s'.observeHealth env h).config = s.config := hobs.1.trans hrate.1
    have hends : (s'.observeHealth env h).endpoints = s.endpoints := hobs.2.trans hrate.2
    have hmode' : (s'.observeHealth env h).getConfig configKeyMode ≠ modeOverlay := by
      rw [getConfig, hconfig]
      exact fun he => hnative (hmode.symm.trans he)
    have hdd' : (s'.observeHealth env h).getConfig configKeyDefaultDeny = 1 := by
      rwa [getConfig, hconfig]
    have hsrc' : (s'.observeHealth env h).lookupIdentity h.srcIp = none := by
      rw [lookupIdentity, hends, hsrc]
    simp [tcIngressPolicy, hmode', hsrc', hdd']

theorem identityOf_unknown (hsrc : s.endpoints.lookup h.srcIp = none) : s.identityOf h.srcIp = 0 := by
  simp [identityOf, lookupIdentity, hsrc]

theorem enforceTunnelPolicy_unknown_iff (hs : DenyAllScene env s p h dstIdentity) :
    (s.enforceTunnelPolicy env h 0 dstIdentity).1 = .shot ↔ s.getConfig configKeyDefaultDeny = 1 := by
  obtain ⟨ep, hep, -, -⟩ := hs.dst_local
  by_cases hdd : s.getConfig configKeyDefaultDeny = 1
  · simp [enforceTunnelPolicy, hdd]
  · simp [enforceTunnelPolicy, hdd, redirectTo, lookupIdentity, hep]

theorem tcEgress_unknown (hs : DenyAllScene env s p h dstIdentity)
    (hsrc : s.endpoints.lookup h.srcIp = none) (hdd : s.getConfig configKeyDefaultDeny = 1) :
    (s.tcEgressHeaders env h).1 = .shot := by
  obtain ⟨ep, hep, rfl, hnode⟩ := hs.dst_local
  have hpass := s.enforcePolicy_pass env h 0 ep.identity true
  have hdeny : policyDenies 1 (checkPolicy s.policies 0 ep.identity h.protocol h.dstPort) =
      true := by
    simp [policyDenies, hs.checkPolicy_ne_allow]
  rw [hdd, hdeny] at hpass
  simp [tcEgressHeaders, lookupIdentity, hep, endpointEgress, hnode, identityOf_unknown hsrc, hpass]

end

theorem dropsUnidentified_iff {env : PacketEnv} {s : Dataplane} {p : Packet} {h : Headers}
    {dstIdentity : UInt32} (hs : DenyAllScene env s p h dstIdentity) :
    DropsUnidentified env s p h dstIdentity ↔ s.getConfig configKeyDefaultDeny = 1 := by
  constructor
  · intro hd
    exact (enforceTunnelPolicy_unknown_iff hs).mp hd.tunnel
  · intro hdd
    have htunnel := (enforceTunnelPolicy_unknown_iff hs).mpr hdd
    obtain ⟨ep, hep, hid, -⟩ := hs.dst_local
    have hdst : s.identityOf h.dstIp = dstIdentity := by
      simp [identityOf, lookupIdentity, hep, hid]
    constructor
    · intro hsrc hmode
      rw [tryTcIngress, runProgram_headers hs.parsed, tcIngress_unknown hsrc hdd hmode]
    · exact htunnel
    · intro hsrc
      rw [tryTcTunnelIngress, runProgram_headers hs.parsed, tcTunnelHeaders,
        identityOf_unknown hsrc, hdst, htunnel]
    · intro hsrc
      rw [tryTcEgress, runProgram_headers hs.parsed, tcEgress_unknown hs hsrc hdd]

section Example

def exampleFrame : Packet :=
  [2, 0, 0, 0, 0, 1, 2, 0, 0, 0, 0, 2, 0x08, 0x00] ++
  [0x45, 0, 0, 40, 0, 0, 0, 0, 64, 6, 0, 0, 192, 0, 2, 1, 10, 0, 0, 5] ++
  [0x9c, 0x40, 0, 80, 0, 0, 0, 0, 0, 0, 0, 0, 0x50, 0x02, 0, 0, 0, 0, 0, 0]

def exampleEnv : PacketEnv := ⟨0, true, fun _ _ => 0, fun vihl => vihl &&& 0x0f⟩

def exampleDataplane (defaultDeny : UInt64) : Dataplane where
  config := ((∅ : Finmap _).insert configKeyMode modeNative).insert configKeyDefaultDeny defaultDeny
  endpoints := (∅ : Finmap _).insert 0x0a000005 ⟨3, 9, 0⟩
  policies := (∅ : PolicyMap).insert ⟨0, 9, 0, 0⟩ ⟨actionDeny⟩
  tunnels := ∅
  egressPolicies := ∅
  rlConfig := none
  rlTokens := ∅
  backendHealth := ∅
  dropCounters := ∅
  flowEvents := []

def exampleHeaders : Headers := ⟨0xc0000201, 0x0a000005, 6, 40000, 80, 2, 40⟩

theorem exampleScene (defaultDeny : UInt64) :
    DenyAllScene exampleEnv (exampleDataplane defaultDeny) exampleFrame exampleHeaders 9 where
  deny_all := by simp [exampleDataplane]
  no_allow := by
    intro k v hv _
    rw [exampleDataplane, LastWrite.lookup_insert_eq] at hv
    by_cases hk : (⟨0, 9, 0, 0⟩ : PolicyKey) = k
    · obtain rfl : PolicyValue.mk actionDeny = v := by simpa [hk] using hv
      decide
    · simp [hk] at hv
  parsed := by decide +kernel
  protocol := .inl rfl
  dst_local := ⟨⟨3, 9, 0⟩, by simp [exampleDataplane, exampleHeaders], rfl, .inr rfl⟩

theorem dropsUnidentified_iff_example :
    DropsUnidentified exampleEnv (exampleDataplane 1) exampleFrame exampleHeaders 9 ↔
      (exampleDataplane 1).getConfig configKeyDefaultDeny = 1 :=
  dropsUnidentified_iff (exampleScene 1)

/-- With default deny off, the packet reaches the pod in native mode and through the
tunnel. -/
theorem dropsUnidentified_fails :
    DenyAllScene exampleEnv (exampleDataplane 0) exampleFrame exampleHeaders 9 ∧
      ¬ DropsUnidentified exampleEnv (exampleDataplane 0) exampleFrame exampleHeaders 9 := by
  refine ⟨exampleScene 0, fun hd => ?_⟩
  have hshot := hd.ingress (by decide) (by decide)
  exact absurd hshot (by decide +kernel)

end Example

end NovaNet
