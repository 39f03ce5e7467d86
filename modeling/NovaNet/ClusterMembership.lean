import NovaNet.CidrRelations
import NovaNet.Dataplane
import NovaNet.ServiceLookup

/-! The configuration that the agent pushes, and the cluster membership test that reads the
address and the length of the cluster CIDR from it. -/

namespace NovaNet

open LastWrite Net

def configKeyTunnelType : UInt32 := 1
def configKeyMasqueradeEnable : UInt32 := 6
def configKeyPodCidrIp : UInt32 := 8
def configKeyPodCidrPl : UInt32 := 9

def tunnelGeneve : UInt64 := 0
def tunnelVxlan : UInt64 := 1

structure AgentConfig where
  routingMode : String
  tunnelProtocol : String
  clusterCIDR : String
  defaultDeny : Bool
  masqueradeEnabled : Bool
  l4lbEnabled : Bool

abbrev ConfigEntries := List (UInt32 × UInt64)

def nameEntry (key : UInt32) (name : String) (values : List (String × UInt64)) : ConfigEntries :=
  ((values.lookup name.toLower).map (key, ·)).toList

def ipEntry (key : UInt32) (ip : Option IP) : ConfigEntries :=
  ((ip.bind IP.to4).map fun ip4 => (key, ip4.toUInt64)).toList

def cidrEntries (ipKey lenKey : UInt32) (cidr : String) : ConfigEntries :=
  (parsePrefix cidr).elim [] fun (ip, ipNet) =>
    ipEntry ipKey (some ip) ++ [(lenKey, UInt64.ofNat ipNet.ones)]

def pushEntries (cfg : AgentConfig) (nodeIP : Option IP) (podCIDR : String) : ConfigEntries :=
  nameEntry configKeyMode cfg.routingMode [("overlay", modeOverlay), ("native", modeNative)] ++
    nameEntry configKeyTunnelType cfg.tunnelProtocol
      [("geneve", tunnelGeneve), ("vxlan", tunnelVxlan)] ++
    ipEntry configKeyNodeIp nodeIP ++
    cidrEntries configKeyClusterCidrIp configKeyClusterCidrPrefixLen cfg.clusterCIDR ++
    cidrEntries configKeyPodCidrIp configKeyPodCidrPl podCIDR ++
    [(configKeyDefaultDeny, cfg.defaultDeny.toUInt64),
      (configKeyMasqueradeEnable, cfg.masqueradeEnabled.toUInt64),
      (configKeyL4lbEnabled, cfg.l4lbEnabled.toUInt64)]

/-- The dataplane writes the entries in the order of a hash map, but no key has two. -/
def Dataplane.pushDataplaneConfig (s : Dataplane) (cfg : AgentConfig) (nodeIP : Option IP)
    (podCIDR : String) : Dataplane :=
  { s with config := assign s.config (pushEntries cfg nodeIP podCIDR) }

variable {cfg : AgentConfig} {ipNet : IPNet} {a k key key' : UInt32}

theorem written_nameEntry (hk : key ≠ k) (name : String) (values : List (String × UInt64)) :
    written k (nameEntry key name values) = none := by
  unfold nameEntry
  cases values.lookup name.toLower <;> simp [written_cons, hk]

theorem written_ipEntry (hk : key ≠ k) (ip : Option IP) : written k (ipEntry key ip) = none := by
  unfold ipEntry
  cases ip.bind IP.to4 <;> simp [written_cons, hk]

theorem written_cidrEntries (hk : key ≠ k) (hk' : key' ≠ k) (cidr : String) :
    written k (cidrEntries key key' cidr) = none := by
  unfold cidrEntries
  cases parsePrefix cidr <;> simp [written_append, written_cons, written_ipEntry, hk, hk']

theorem getConfig_pushed (hparse : parsePrefix cfg.clusterCIDR = some (.v4 a, ipNet))
    (s : Dataplane) (nodeIP : Option IP) (podCIDR : String) :
    (s.pushDataplaneConfig cfg nodeIP podCIDR).getConfig configKeyClusterCidrIp = a.toUInt64 ∧
      (s.pushDataplaneConfig cfg nodeIP podCIDR).getConfig configKeyClusterCidrPrefixLen =
        UInt64.ofNat ipNet.ones := by
  have hcluster : cidrEntries configKeyClusterCidrIp configKeyClusterCidrPrefixLen
      cfg.clusterCIDR = [(configKeyClusterCidrIp, a.toUInt64),
        (configKeyClusterCidrPrefixLen, UInt64.ofNat ipNet.ones)] := by
    rw [cidrEntries, hparse]
    rfl
  simp only [Dataplane.getConfig, Dataplane.pushDataplaneConfig, lookup_assign, pushEntries,
    written_append, hcluster]
  constructor <;>
  · simp (disch := decide) only [written_nameEntry, written_ipEntry, written_cidrEntries,
      written_cons, if_neg]
    rfl

theorem prefixLen_facts {n : Nat} (hpos : 1 ≤ n) (hle : n ≤ 32) {len : UInt32}
    (hlen : len = (UInt64.ofNat n).toUInt32) :
    prefixMask len = mask4 n ∧ len ≠ 0 ∧ len ≤ 32 ∧
      (len ≠ 32 → 32 - len < 32 ∧ (1 : UInt32) ≤ 1 <<< (32 - len)) := by
  have hall : ∀ i : Fin 33, 1 ≤ i.val → prefixMask (UInt64.ofNat i).toUInt32 = mask4 i ∧
      (UInt64.ofNat i).toUInt32 ≠ 0 ∧ (UInt64.ofNat i).toUInt32 ≤ 32 ∧
      ((UInt64.ofNat i).toUInt32 ≠ 32 → 32 - (UInt64.ofNat i).toUInt32 < 32 ∧
        (1 : UInt32) ≤ 1 <<< (32 - (UInt64.ofNat i).toUInt32)) := by decide +kernel
  rw [hlen]
  exact hall ⟨n, by omega⟩ hpos

/-- The mask drops the bits of the written address that are not of its network. The shift is by
less than the width, and there is a bit to subtract one from. -/
theorem isClusterIp_iff_contains
    (hparse : parsePrefix cfg.clusterCIDR = some (.v4 a, ipNet)) (hpos : 1 ≤ ipNet.ones)
    (s : Dataplane) (nodeIP : Option IP) (podCIDR : String) :
    (∀ ip, (s.pushDataplaneConfig cfg nodeIP podCIDR).isClusterIp ip = true ↔
      ipNet.contains (.v4 ip) = true) ∧
    ∀ len : UInt32, len = ((s.pushDataplaneConfig cfg nodeIP podCIDR).getConfig
      configKeyClusterCidrPrefixLen).toUInt32 →
      len ≤ 32 ∧ (len ≠ 32 → 32 - len < 32 ∧ (1 : UInt32) ≤ 1 <<< (32 - len)) := by
  obtain ⟨-, ⟨n, hn, hnet, hle⟩ | ⟨n, hn, -⟩⟩ := parsePrefix_cases hparse
  · cases hn
    obtain ⟨haddr, hlen⟩ := getConfig_pushed hparse s nodeIP podCIDR
    obtain ⟨hmask, hne, hle32, hshift⟩ := prefixLen_facts hpos hle (congrArg _ hlen)
    refine ⟨fun ip => ?_, fun len h => h ▸ ⟨hle32, hshift⟩⟩
    have hcontains : ipNet.contains (.v4 ip) = true ↔
        ip &&& mask4 ipNet.ones = a &&& mask4 ipNet.ones := by
      rw [hnet]
      unfold IPNet.contains
      simpa [IP.to4, IPNet.shortMask, UInt32.and_assoc] using eq_comm
    rw [hcontains, Dataplane.isClusterIp, if_neg (not_or.mpr ⟨hne, UInt32.not_lt.mpr hle32⟩),
      haddr, hmask]
    simp
  · cases hn

theorem isClusterIp_iff_contains_example :
    (Dataplane.pushDataplaneConfig ⟨∅, ∅, ∅, ∅, ∅, none, ∅, ∅, ∅, []⟩
      ⟨"overlay", "geneve", "10.42.7.1/16", false, true, false⟩ none "").isClusterIp
        0x0a2a0105 = true := by
  have hparse : parsePrefix "10.42.7.1/16" = some (.v4 0x0a2a0701, ⟨.v4 0x0a2a0000, 16⟩) := by
    decide +kernel
  exact ((isClusterIp_iff_contains hparse (by decide) _ none "").1 _).mpr (by decide +kernel)

end NovaNet
