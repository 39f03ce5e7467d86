import NovaNet.PodAgent
import NovaNet.ExtendedCompiler
import NovaNet.PolicyInstall

/-! Peers that name a service account. The compiler hashes two labels for the account, while a
pod is stored under the identity of all its labels; nothing puts the account among them. -/

namespace NovaNet

open List

def accountLabels (ns name : String) : Labels :=
  ((∅ : Labels).insert namespaceLabel ns).insert "novanet.io/service-account" name

def ServiceAccountPeer.accountNamespace (sa : ServiceAccountPeer) (policyNamespace : String) :
    String :=
  if sa.namespace_ = "" then policyNamespace else sa.namespace_

namespace Allocator

/-- The tables give a label set the identity stored for it, or else the first one from its hash
on that no other label set has. -/
def Gives (hash : String → UInt64) (a : Allocator) (l : Labels) (id : UInt64) : Prop :=
  a.labelsToID.lookup (canonicalLabels l) = some id ∨
    a.labelsToID.lookup (canonicalLabels l) = none ∧ ¬ a.Taken (canonicalLabels l) id ∧
      ∃ n, id = hashLabels hash l + UInt64.ofNat n ∧
        ∀ i < n, a.Taken (canonicalLabels l) (hashLabels hash l + UInt64.ofNat i)

def Aliases (hash : String → UInt64) (a : Allocator) (l l' : Labels) : Prop :=
  ∃ id, a.Gives hash l id ∧ id.toUInt32 = (hashLabels hash l').toUInt32

/-- The live label sets hash apart from `l`, and `l` from `l'` in the 32 bits that are pushed. -/
structure CollisionFree (hash : String → UInt64) (a : Allocator) (l l' : Labels) : Prop where
  inv : a.Inv
  hashed : a.Hashed hash
  live : ∀ id l₁, a.idToLabels.lookup id = some l₁ → canonicalLabels l₁ ≠ canonicalLabels l →
    hashLabels hash l₁ ≠ hashLabels hash l
  low : (hashLabels hash l).toUInt32 = (hashLabels hash l').toUInt32 →
    canonicalLabels l = canonicalLabels l'
  plain : PlainLabels l ∧ PlainLabels l'

variable {hash : String → UInt64} {a a' : Allocator} {l l' : Labels} {id id' : UInt64}

theorem allocateIdentity_gives (h : a.allocateIdentity hash l = some (id, a')) : a.Gives hash l id := by
  rw [allocateIdentity] at h
  cases hc : a.labelsToID.lookup (canonicalLabels l) with
  | some id' =>
    simp only [hc, Option.some.injEq, Prod.mk.injEq] at h
    exact .inl (hc.trans (congrArg some h.1))
  | none =>
    cases hp : a.probe (canonicalLabels l) (a.idToLabels.keys.card + 1) (hash (canonicalLabels l)) with
    | none => simp [hc, hp] at h
    | some id' =>
      simp only [hc, hp, Option.some.injEq, Prod.mk.injEq] at h
      rw [← h.1]
      exact .inr ⟨hc, probe_spec hp⟩

theorem Gives.unique (h : a.Gives hash l id) (h' : a.Gives hash l id') : id = id' := by
  rcases h with h | ⟨hnone, hfree, n, rfl, hn⟩ <;>
    rcases h' with h' | ⟨hnone', hfree', n', rfl, hn'⟩
  · exact Option.some.inj (h.symm.trans h')
  · cases h.symm.trans hnone'
  · cases hnone.symm.trans h'
  · rcases lt_trichotomy n n' with hlt | rfl | hlt
    · exact absurd (hn' n hlt) hfree
    · rfl
    · exact absurd (hn n' hlt) hfree'

theorem aliases_iff (h : a.allocateIdentity hash l = some (id, a')) :
    a.Aliases hash l l' ↔ (hashLabels hash l').toUInt32 = id.toUInt32 := by
  constructor
  · rintro ⟨id', hgives, hlow⟩
    rw [(allocateIdentity_gives h).unique hgives, hlow]
  · exact fun hlow => ⟨id, allocateIdentity_gives h, hlow.symm⟩

theorem aliases_iff_eq (hfree : a.CollisionFree hash l l')
    (h : a.allocateIdentity hash l = some (id, a')) : a.Aliases hash l l' ↔ l = l' := by
  rw [aliases_iff h, (allocateIdentity_hash hfree.inv hfree.hashed hfree.live h).1]
  constructor
  · intro hlow
    exact canonicalLabels_injective hfree.plain.1 hfree.plain.2 (hfree.low hlow.symm)
  · rintro rfl
    rfl

end Allocator

namespace ExtendedCompiler

variable (e : ExtendedCompiler) (o : IterOrder UInt64)

def PeerCovers (site : List Nat) (peer : NovaNetworkPolicyPeer) (ports : List NovaNetworkPolicyPort)
    (fixedID : UInt64) (isEgress : Bool) (ns : String) (i : UInt32) : Prop :=
  ∃ fuel rules, e.compileDirectionalRule o fuel site [peer] ports fixedID isEgress ns = some rules ∧
    ∃ r ∈ rules, r.cidr = "" ∧ (if isEgress then r.dstIdentity else r.srcIdentity).toUInt32 = i

variable {e o} {site : List Nat} {peer : NovaNetworkPolicyPeer} {sa : ServiceAccountPeer}
  {ports : List NovaNetworkPolicyPort} {fixedID : UInt64} {isEgress : Bool} {ns : String}
  {i : UInt32}

theorem hostCIDR_ne_empty (ip : Net.IP) : hostCIDR ip ≠ "" := by
  intro h
  have hlen := congrArg String.length h
  rw [hostCIDR] at hlen
  split at hlen <;> simp at hlen

theorem cidr_ne_empty_of_mem {r : CompiledRule} {pairs : List PortProto}
    (hr : r ∈ buildCIDRRules (resolveExtendedCIDRs [peer]) fixedID pairs isEgress ns ++
      buildFQDNCIDRRules (e.resolveFQDNPeers [peer]) fixedID pairs isEgress ns) : r.cidr ≠ "" := by
  rcases mem_append.mp hr with hr | hr
  · obtain ⟨entry, hentry, hr⟩ := mem_flatMap.mp hr
    obtain ⟨pp, -, rfl⟩ := List.mem_map.mp hr
    have hblock : entry ∈ resolvePeersWithIPBlock [⟨none, none, peer.ipBlock⟩] := hentry
    exact cidr_ne_empty hblock
  · obtain ⟨entry, hentry, hr⟩ := mem_flatMap.mp hr
    obtain ⟨pp, -, rfl⟩ := List.mem_map.mp hr
    obtain ⟨cidr, hcidr, rfl⟩ := List.mem_map.mp hentry
    obtain ⟨p, -, hcidr⟩ := mem_flatMap.mp hcidr
    cases hf : p.fqdn with
    | none => simp [hf] at hcidr
    | some name =>
      simp only [hf] at hcidr
      obtain ⟨ip, -, rfl⟩ := List.mem_map.mp hcidr
      exact hostCIDR_ne_empty ip

theorem exists_directionalRules_iff {pairs : List PortProto} (hpairs : pairs ≠ []) :
    (∃ r ∈ e.directionalRules o site [peer] fixedID isEgress ns pairs, r.cidr = "" ∧
      (if isEgress then r.dstIdentity else r.srcIdentity).toUInt32 = i) ↔
    ∃ id ∈ e.resolveExtendedPeers o site [peer] ns, id.toUInt32 = i := by
  constructor
  · rintro ⟨r, hr, hcidr, hi⟩
    rcases mem_append.mp hr with hr | hr
    · obtain ⟨id, hid, hr⟩ := mem_flatMap.mp hr
      obtain ⟨pp, -, rfl⟩ := List.mem_map.mp hr
      refine ⟨id, hid, ?_⟩
      cases isEgress <;> exact hi
    · exact absurd hcidr (cidr_ne_empty_of_mem hr)
  · rintro ⟨id, hid, hi⟩
    obtain ⟨pp, hpp⟩ := exists_mem_of_ne_nil _ hpairs
    refine ⟨_, mem_append_left _ (mem_flatMap.mpr ⟨id, hid, List.mem_map.mpr ⟨pp, hpp, rfl⟩⟩), rfl, ?_⟩
    cases isEgress <;> exact hi

theorem resolveExtendedPeers_account (hpeer : peer.serviceAccount = some sa) :
    e.resolveExtendedPeers o site [peer] ns =
      if peer.ipBlock.isSome ∨ peer.fqdn.isSome then []
      else [hashLabels e.hash (accountLabels (sa.accountNamespace ns) sa.name)] := by
  simp only [resolveExtendedPeers, mapIdx_cons, mapIdx_nil, flatten_cons,
    flatten_nil, append_nil, hpeer]
  rfl

theorem peerCovers_account_iff (hpeer : peer.serviceAccount = some sa) :
    e.PeerCovers o site peer ports fixedID isEgress ns i ↔
      (peer.ipBlock = none ∧ peer.fqdn = none ∧ ∀ p ∈ ports, ¬ p.Overruns) ∧
        (hashLabels e.hash (accountLabels (sa.accountNamespace ns) sa.name)).toUInt32 = i := by
  have hids : (∃ id ∈ e.resolveExtendedPeers o site [peer] ns, id.toUInt32 = i) ↔
      (peer.ipBlock = none ∧ peer.fqdn = none) ∧
        (hashLabels e.hash (accountLabels (sa.accountNamespace ns) sa.name)).toUInt32 = i := by
    rw [resolveExtendedPeers_account hpeer]
    cases peer.ipBlock <;> cases peer.fqdn <;> simp
  have hpairs : ∀ pairs : List PortProto,
      (if pairs.length = 0 then [⟨0, 0⟩] else pairs) ≠ ([] : List PortProto) := by
    intro pairs
    split
    · exact cons_ne_nil _ _
    · rename_i hlen
      exact fun h => hlen (by rw [h]; rfl)
  constructor
  · rintro ⟨fuel, rules, hcompile, hrule⟩
    obtain ⟨pairs, hports, rfl⟩ := Option.map_eq_some_iff.mp hcompile
    obtain ⟨⟨hblock, hname⟩, hi⟩ := hids.mp ((exists_directionalRules_iff (hpairs pairs)).mp hrule)
    exact ⟨⟨hblock, hname, (resolveExtendedPorts_eq_some hports).1⟩, hi⟩
  · rintro ⟨⟨hblock, hname, hports⟩, hi⟩
    have hcompile := resolveExtendedPorts_eq hports (Nat.lt_succ_self 100)
    refine ⟨101, _, Option.map_eq_some_iff.mpr ⟨_, hcompile, rfl⟩, ?_⟩
    exact (exists_directionalRules_iff (hpairs _)).mpr (hids.mpr ⟨⟨hblock, hname⟩, hi⟩)

end ExtendedCompiler

/-- A pod in the namespace of the account, whatever account it runs under, is covered exactly when
the tables give its labels the hash of the two labels of the account: without collisions, when it
carries these two labels and no other. -/
theorem account_pod_covered_iff {hash : String → UInt64} {env : AddPodEnv} {a a' : Agent}
    {req : AddPodRequest} {ip : UInt32} (hadd : a.addPod hash env req = some (.ok ip, a'))
    {e : ExtendedCompiler} (hhash : e.hash = hash) {peer : NovaNetworkPolicyPeer}
    {sa : ServiceAccountPeer} (hpeer : peer.serviceAccount = some sa) {ns : String}
    (hns : req.podNamespace = sa.accountNamespace ns) (o : IterOrder UInt64) (site : List Nat)
    (ports : List NovaNetworkPolicyPort) (fixedID : UInt64) (isEgress : Bool) :
    ((∃ v, a'.endpointMap.lookup ip = some v ∧
      e.PeerCovers o site peer ports fixedID isEgress ns v.identity) ↔
    (peer.ipBlock = none ∧ peer.fqdn = none ∧ ∀ p ∈ ports, ¬ p.Overruns) ∧
      a.idAlloc.Aliases hash (addPodLabels env.fetched req) (accountLabels req.podNamespace sa.name)) ∧
    (a.idAlloc.CollisionFree hash (addPodLabels env.fetched req)
        (accountLabels req.podNamespace sa.name) →
      (a.idAlloc.Aliases hash (addPodLabels env.fetched req) (accountLabels req.podNamespace sa.name) ↔
        addPodLabels env.fetched req = accountLabels req.podNamespace sa.name)) := by
  rcases Agent.addPod_cases hadd with ⟨_, herr, -⟩ | ⟨_, _, _, _, herr, -⟩ |
    ⟨ip', id, idAlloc, ifIndex, hok, -, halloc, rfl⟩
  · cases herr
  · cases herr
  · cases hok
    have hstored : (a.putEndpoint req ip ifIndex id idAlloc).endpointMap.lookup ip =
        some ⟨ifIndex, id.toUInt32, a.nodeIP⟩ := Finmap.lookup_insert _
    refine ⟨?_, fun hfree => Allocator.aliases_iff_eq hfree halloc⟩
    simp only [hstored, Option.some.injEq, exists_eq_left']
    rw [ExtendedCompiler.peerCovers_account_iff hpeer, Allocator.aliases_iff halloc, hhash, ← hns]

section Example

def frontendPeer : NovaNetworkPolicyPeer := ⟨none, none, none, none, some ⟨"frontend", ""⟩⟩

def accountCompiler : ExtendedCompiler :=
  { identityAllocator := .new, namespaceResolver := none, portResolver := none
    selectorOk := fun _ => true, hash := hashCanonical, resolve := fun _ => [] }

def idleAgent : Agent := ⟨0x0a010001, ∅, .new, ∅, ∅⟩

def podRequest (l : Labels) : AddPodRequest :=
  ⟨"web-1", "default", "0123456789ab", "/proc/1/ns/net", "eth0", l⟩

def podEnv : AddPodEnv := ⟨.ok 0x0a000005, .noClient, .ok 7⟩

theorem allocateIdentity_new (l : Labels) : Allocator.new.allocateIdentity hashCanonical l =
    some (hashLabels hashCanonical l, (Allocator.new.store (hashLabels hashCanonical l) l).incRef
      (hashLabels hashCanonical l)) := rfl

theorem addPod_idleAgent (l : Labels) : ∃ a',
    idleAgent.addPod hashCanonical podEnv (podRequest l) = some (.ok 0x0a000005, a') ∧
      a'.endpointMap.lookup 0x0a000005 = some ⟨7,
        (hashLabels hashCanonical (l.insert namespaceLabel "default")).toUInt32, 0x0a010001⟩ := by
  have hvalid : validateAddPodRequest (podRequest l) = .ok () := rfl
  simp only [Agent.addPod, hvalid, podEnv, idleAgent, allocateIdentity_new]
  exact ⟨_, rfl, Finmap.lookup_insert _⟩

theorem frontend_namespace :
    ServiceAccountPeer.accountNamespace ⟨"frontend", ""⟩ "default" = "default" := if_pos rfl

def frontendLabels : Labels := (∅ : Labels).insert "novanet.io/service-account" "frontend"

def webOnlyLabels : Labels := (∅ : Labels).insert "app" "web"

theorem account_pod_covered_example : ∃ a' v,
    idleAgent.addPod hashCanonical podEnv (podRequest frontendLabels) =
      some (.ok 0x0a000005, a') ∧ a'.endpointMap.lookup 0x0a000005 = some v ∧
    accountCompiler.PeerCovers identityOrder [] frontendPeer [] 7 false "default" v.identity := by
  obtain ⟨a', hadd, -⟩ := addPod_idleAgent frontendLabels
  have hsame : (hashLabels hashCanonical (accountLabels "default" "frontend")).toUInt32 =
      (hashLabels hashCanonical (frontendLabels.insert namespaceLabel "default")).toUInt32 := by
    decide +kernel
  have hpeer : frontendPeer.serviceAccount = some ⟨"frontend", ""⟩ := rfl
  have hiff := account_pod_covered_iff hadd (e := accountCompiler) rfl hpeer
    frontend_namespace.symm identityOrder [] [] 7 false
  obtain ⟨v, hv, hcovers⟩ := hiff.1.mpr ⟨⟨rfl, rfl, fun p hp => absurd hp not_mem_nil⟩,
    (Allocator.aliases_iff (allocateIdentity_new _)).mpr hsame⟩
  exact ⟨a', v, hadd, hv, hcovers⟩

/-- A pod with the label app=web is not covered, whatever account it runs under. -/
theorem account_pod_not_covered : ∃ a' v,
    idleAgent.addPod hashCanonical podEnv (podRequest webOnlyLabels) =
      some (.ok 0x0a000005, a') ∧ a'.endpointMap.lookup 0x0a000005 = some v ∧
    ¬ accountCompiler.PeerCovers identityOrder [] frontendPeer [] 7 false "default" v.identity := by
  obtain ⟨a', hadd, hstored⟩ := addPod_idleAgent webOnlyLabels
  refine ⟨a', _, hadd, hstored, fun hcovers => ?_⟩
  have hlow := ((ExtendedCompiler.peerCovers_account_iff rfl).mp hcovers).2
  have hdiffer : (hashLabels hashCanonical (accountLabels "default" "frontend")).toUInt32 ≠
      (hashLabels hashCanonical (webOnlyLabels.insert namespaceLabel "default")).toUInt32 := by
    decide +kernel
  rw [frontend_namespace] at hlow
  exact hdiffer hlow

end Example

end NovaNet
