import NovaNet.CompilerSpec
import NovaNet.ExtendedCompiler

/-! What the port list of a policy rule contains, and what it is compiled to. In a compiled rule 0
stands for any port and any protocol, and a list that comes out empty for both. -/

namespace NovaNet

open List Option

def PortProto.Matches (pp : PortProto) (proto : UInt8) (port : UInt16) : Prop :=
  (pp.protocol = 0 ∨ pp.protocol = proto) ∧ (pp.port = 0 ∨ pp.port = port)

instance (pp : PortProto) (proto : UInt8) (port : UInt16) : Decidable (pp.Matches proto port) :=
  inferInstanceAs (Decidable (_ ∧ _))

def CompiledRule.ports (r : CompiledRule) : PortProto := ⟨r.protocol, r.dstPort⟩

section Coverage

variable {ε : Type} (lists numeric : ε → UInt8 → UInt16 → Prop) (compiled : ε → List PortProto)
  (entries : List ε)

/-- An allow rule matches only what the list contains, and what the list names by numbers is
matched by some rule. -/
structure NeverFailsOpen (rules : List CompiledRule) : Prop where
  only : ∀ r ∈ rules, r.action = actionAllow → ∀ proto port, port ≠ 0 →
    r.ports.Matches proto port → ∃ e ∈ entries, lists e proto port
  all : ∀ e ∈ entries, ∀ proto port, port ≠ 0 → numeric e proto port →
    ∃ r ∈ rules, r.ports.Matches proto port

/-- The other entries make up for this one: they contain what it is compiled to, and are compiled
to what it names. -/
structure MadeGood (e : ε) : Prop where
  listed : ∀ pp ∈ compiled e, ∀ proto port, port ≠ 0 → pp.Matches proto port →
    ∃ e' ∈ entries, lists e' proto port
  covered : ∀ proto port, port ≠ 0 → numeric e proto port →
    ∃ e' ∈ entries, ∃ pp ∈ compiled e', pp.Matches proto port

/-- When a port list is safe. Without a peer there are no rules, so the list must name nothing;
with one, some entry is compiled to a pair and the crooked entries are made good. -/
def PortsSafe (hasPeer : Prop) (crooked : ε → Prop) : Prop :=
  (¬ hasPeer ∧ ∀ e ∈ entries, ∀ proto port, port ≠ 0 → ¬ numeric e proto port) ∨
  (hasPeer ∧ (∃ e ∈ entries, compiled e ≠ []) ∧
    ∀ e ∈ entries, crooked e → MadeGood lists numeric compiled entries e)

def orAny (pairs : List PortProto) : List PortProto := if pairs.length = 0 then [⟨0, 0⟩] else pairs

/-- Rules made of the pairs for every peer; some peer is allowed if there is one. -/
structure Spread (hasPeer : Prop) (pairs : List PortProto) (rules : List CompiledRule) : Prop where
  pair : ∀ r ∈ rules, r.ports ∈ pairs
  rule : hasPeer → ∀ pp ∈ pairs, ∃ r ∈ rules, r.action = actionAllow ∧ r.ports = pp
  idle : ¬ hasPeer → rules = []

variable {lists numeric compiled entries} {hasPeer : Prop} {crooked : ε → Prop}
  {rules : List CompiledRule}

theorem orAny_of_exists {pairs : List PortProto} (h : pairs ≠ []) : orAny pairs = pairs := by
  rw [orAny, if_neg (by simpa using h)]

theorem neverFailsOpen_iff (hspread : Spread hasPeer (orAny (entries.flatMap compiled)) rules)
    (hplain : ∀ e ∈ entries, ¬ crooked e → ∀ proto port, port ≠ 0 →
      ((∃ pp ∈ compiled e, pp.Matches proto port) ↔ lists e proto port))
    (hnumeric : ∀ e ∈ entries, ∀ proto port, numeric e proto port → lists e proto port)
    (hicmp : ∀ e ∈ entries, ∀ port, ¬ lists e 1 port) :
    NeverFailsOpen lists numeric entries rules ↔
      PortsSafe lists numeric compiled entries hasPeer crooked := by
  constructor
  · intro h
    by_cases hpeer : hasPeer
    · have hsome : entries.flatMap compiled ≠ [] := by
        intro hnil
        have hany : (⟨0, 0⟩ : PortProto) ∈ orAny (entries.flatMap compiled) := by
          rw [hnil]
          exact mem_cons_self
        obtain ⟨r, hr, hallow, hports⟩ := hspread.rule hpeer _ hany
        obtain ⟨e, he, hlists⟩ := h.only r hr hallow 1 1 (by decide) (by rw [hports]; decide)
        exact hicmp e he 1 hlists
      rw [orAny_of_exists hsome] at hspread
      refine .inr ⟨hpeer, ?_, fun e he _ => ⟨fun pp hpp proto port hport hm => ?_,
        fun proto port hport hnum => ?_⟩⟩
      · by_contra hnone
        push Not at hnone
        exact hsome (flatMap_eq_nil_iff.mpr hnone)
      · obtain ⟨r, hr, hallow, rfl⟩ := hspread.rule hpeer pp (mem_flatMap.mpr ⟨e, he, hpp⟩)
        exact h.only r hr hallow proto port hport hm
      · obtain ⟨r, hr, hm⟩ := h.all e he proto port hport hnum
        obtain ⟨e', he', hpp⟩ := mem_flatMap.mp (hspread.pair r hr)
        exact ⟨e', he', r.ports, hpp, hm⟩
    · refine .inl ⟨hpeer, fun e he proto port hport hnum => ?_⟩
      obtain ⟨r, hr, -⟩ := h.all e he proto port hport hnum
      simp [hspread.idle hpeer] at hr
  · rintro (⟨hpeer, hnone⟩ | ⟨hpeer, ⟨e₀, he₀, hsome⟩, hgood⟩)
    · refine ⟨fun r hr => ?_, fun e he proto port hport hnum => ?_⟩
      · simp [hspread.idle hpeer] at hr
      · exact absurd hnum (hnone e he proto port hport)
    · rw [orAny_of_exists fun hnil => hsome (flatMap_eq_nil_iff.mp hnil e₀ he₀)] at hspread
      refine ⟨fun r hr _ proto port hport hm => ?_, fun e he proto port hport hnum => ?_⟩
      · obtain ⟨e, he, hpp⟩ := mem_flatMap.mp (hspread.pair r hr)
        by_cases hc : crooked e
        · exact (hgood e he hc).listed _ hpp proto port hport hm
        · exact ⟨e, he, (hplain e he hc proto port hport).mp ⟨_, hpp, hm⟩⟩
      · have hcover : ∃ e' ∈ entries, ∃ pp ∈ compiled e', pp.Matches proto port := by
          by_cases hc : crooked e
          · exact (hgood e he hc).covered proto port hport hnum
          · exact ⟨e, he, (hplain e he hc proto port hport).mpr (hnumeric e he _ _ hnum)⟩
        obtain ⟨e', he', pp, hpp, hm⟩ := hcover
        obtain ⟨r, hr, -, rfl⟩ := hspread.rule hpeer pp (mem_flatMap.mpr ⟨e', he', hpp⟩)
        exact ⟨r, hr, hm⟩

theorem Spread.append {hasPeer' : Prop} {pairs : List PortProto} {rules' : List CompiledRule}
    (h : Spread hasPeer pairs rules) (h' : Spread hasPeer' pairs rules') :
    Spread (hasPeer ∨ hasPeer') pairs (rules ++ rules') where
  pair r hr := (mem_append.mp hr).elim (h.pair r) (h'.pair r)
  rule hpeer pp hpp := by
    rcases hpeer with hpeer | hpeer
    · obtain ⟨r, hr, hports⟩ := h.rule hpeer pp hpp
      exact ⟨r, mem_append_left _ hr, hports⟩
    · obtain ⟨r, hr, hports⟩ := h'.rule hpeer pp hpp
      exact ⟨r, mem_append_right _ hr, hports⟩
  idle hpeer := by
    obtain ⟨hno, hno'⟩ := not_or.mp hpeer
    rw [h.idle hno, h'.idle hno']
    rfl

theorem spread_flatMap {α : Type} {peers : List α} {rule : α → PortProto → CompiledRule}
    (hports : ∀ a pp, (rule a pp).ports = pp)
    (hallow : peers ≠ [] → ∃ a ∈ peers, ∀ pp, (rule a pp).action = actionAllow)
    (pairs : List PortProto) :
    Spread (peers ≠ []) pairs (peers.flatMap fun a => pairs.map (rule a)) where
  pair r hr := by
    obtain ⟨a, -, hr⟩ := mem_flatMap.mp hr
    obtain ⟨pp, hpp, rfl⟩ := List.mem_map.mp hr
    rwa [hports]
  rule hpeer pp hpp := by
    obtain ⟨a, ha, haction⟩ := hallow hpeer
    exact ⟨_, mem_flatMap.mpr ⟨a, ha, List.mem_map_of_mem hpp⟩, haction pp, hports a pp⟩
  idle hpeer := by
    rw [not_not.mp hpeer]
    rfl

theorem spread_identityRules (ids : List UInt64) (fixedID : UInt64) (pairs : List PortProto)
    (isEgress : Bool) (ns : String) :
    Spread (ids ≠ []) pairs (buildIdentityRules ids fixedID pairs isEgress ns) := by
  refine spread_flatMap (fun _ _ => rfl) (fun hpeer => ?_) pairs
  obtain ⟨id, hid⟩ := exists_mem_of_ne_nil ids hpeer
  exact ⟨id, hid, fun _ => rfl⟩

theorem spread_cidrRules {cidrs : List CidrEntry}
    (hallow : cidrs ≠ [] → ∃ entry ∈ cidrs, entry.action = actionAllow) (fixedID : UInt64)
    (pairs : List PortProto) (isEgress : Bool) (ns : String) :
    Spread (cidrs ≠ []) pairs (buildCIDRRules cidrs fixedID pairs isEgress ns) := by
  refine spread_flatMap (fun _ _ => rfl) (fun hpeer => ?_) pairs
  obtain ⟨entry, hentry, haction⟩ := hallow hpeer
  exact ⟨entry, hentry, fun _ => haction⟩

theorem exists_allowed_of_blocks {α : Type} {peers : List α} (ipBlock : α → Option IPBlock)
    (h : (peers.flatMap fun peer => match ipBlock peer with
      | some b => resolveIPBlockCIDRs b.cidr b.except
      | none => []) ≠ []) :
    ∃ entry ∈ peers.flatMap fun peer => match ipBlock peer with
      | some b => resolveIPBlockCIDRs b.cidr b.except
      | none => [], entry.action = actionAllow := by
  obtain ⟨entry, hentry⟩ := exists_mem_of_ne_nil _ h
  obtain ⟨peer, hpeer, hmem⟩ := mem_flatMap.mp hentry
  split at hmem
  · next b hb =>
    rw [resolveIPBlockCIDRs] at hmem
    split at hmem
    · next hcidr =>
      refine ⟨⟨b.cidr, actionAllow⟩, mem_flatMap.mpr ⟨peer, hpeer, ?_⟩, rfl⟩
      simp [hb, resolveIPBlockCIDRs, hcidr]
    · cases hmem
  · cases hmem

end Coverage

section NetworkPolicies

/-- What the Kubernetes API asks of a port: a number in range, and an end only above a number. -/
structure NetworkPolicyPort.ApiValid (p : NetworkPolicyPort) : Prop where
  port : ∀ v, p.port = some (.int v) → 1 ≤ v ∧ v ≤ 65535
  range : ∀ e ∈ p.endPort, ∃ v, p.port = some (.int v) ∧ v ≤ e ∧ e ≤ 65535

namespace Compiler

variable (c : Compiler) (ns : String) (sel : LabelSelector)

def namedPorts (p : NetworkPolicyPort) (name : String) : List UInt16 :=
  match c.portResolver with
  | some resolve => resolve name (p.protocol.getD .tcp) ns sel
  | none => []

def PortListed (p : NetworkPolicyPort) (proto : UInt8) (port : UInt16) : Prop :=
  (p.protocol.getD .tcp).number = proto ∧
    match p.port with
    | none => True
    | some (.int v) => v ≤ port.toNat ∧ (port.toNat : Int) ≤ p.endPort.getD v
    | some (.string name) => port ∈ c.namedPorts ns sel p name

def PortNumbered (p : NetworkPolicyPort) (proto : UInt8) (port : UInt16) : Prop :=
  p.port.isSome = true ∧ c.PortListed ns sel p proto port

def CrookedPort (p : NetworkPolicyPort) : Prop :=
  (∃ v e, p.port = some (.int v) ∧ p.endPort = some e ∧ v < e) ∨
    ∃ name, p.port = some (.string name) ∧ 0 ∈ c.namedPorts ns sel p name

variable {c ns sel} {p : NetworkPolicyPort}

theorem resolvePort_named {name : String} (h : p.port = some (.string name)) :
    c.resolvePort ns sel p = (c.namedPorts ns sel p name).map (⟨(p.protocol.getD .tcp).number, ·⟩) := by
  simp only [resolvePort, h, namedPorts]
  cases c.portResolver <;> rfl

theorem number_ne_one (proto : Protocol) : proto.number ≠ 1 := by cases proto <;> decide

theorem matches_number {proto : Protocol} {q : UInt16} {proto' : UInt8} {port : UInt16} :
    PortProto.Matches ⟨proto.number, q⟩ proto' port ↔ proto.number = proto' ∧ (q = 0 ∨ q = port) := by
  simp [PortProto.Matches, number_ne_zero]

theorem numericPort_eq_iff {v : Int} (hv : 1 ≤ v ∧ v ≤ 65535) (port : UInt16) :
    (numericPort v = 0 ∨ numericPort v = port) ↔ v = port.toNat := by
  have hnat : (numericPort v).toNat = v.toNat := by
    have hsize : UInt16.size = 65536 := rfl
    rw [numericPort, if_pos (by omega)]
    exact UInt16.toNat_ofNat_of_lt' (by omega)
  have hzero : (0 : UInt16).toNat = 0 := rfl
  rw [← UInt16.toNat_inj, ← UInt16.toNat_inj, hnat, hzero]
  omega

theorem resolvePort_plain (hvalid : p.ApiValid) (hplain : ¬ c.CrookedPort ns sel p) (proto : UInt8)
    (port : UInt16) :
    (∃ pp ∈ c.resolvePort ns sel p, pp.Matches proto port) ↔ c.PortListed ns sel p proto port := by
  unfold PortListed
  cases h : p.port with
  | none => simp [resolvePort, h, matches_number]
  | some value =>
    cases value with
    | int v =>
      have hend : p.endPort.getD v = v := by
        cases he : p.endPort with
        | none => rfl
        | some e =>
          obtain ⟨v', hv', hle, -⟩ := hvalid.range e he
          simp [h] at hv'
          have hnot : ¬ v < e := fun hlt => hplain (.inl ⟨v, e, h, he, hlt⟩)
          simp only [getD_some]
          omega
      have hnum := numericPort_eq_iff (hvalid.port v h) port
      simp only [resolvePort, h, List.mem_singleton, exists_eq_left, matches_number, hnum, hend]
      exact and_congr_right fun _ => le_antisymm_iff
    | string name =>
      have hnonzero : ∀ q ∈ c.namedPorts ns sel p name, q ≠ 0 :=
        fun q hq hzero => hplain (.inr ⟨name, h, hzero ▸ hq⟩)
      rw [resolvePort_named h]
      constructor
      · rintro ⟨pp, hpp, hm⟩
        obtain ⟨q, hq, rfl⟩ := List.mem_map.mp hpp
        obtain ⟨hproto, hport'⟩ := matches_number.mp hm
        exact ⟨hproto, (hport'.resolve_left (hnonzero q hq)) ▸ hq⟩
      · rintro ⟨hproto, hq⟩
        exact ⟨_, List.mem_map_of_mem hq, matches_number.mpr ⟨hproto, .inr rfl⟩⟩

end Compiler

end NetworkPolicies

section NovaPolicies

namespace NovaNetworkPolicyPort

def named (p : NovaNetworkPolicyPort) : Option Protocol :=
  match p.protocol with
  | none => some .tcp
  | some t => protocolNamed t

/-- A range of more than 100 ports, which is documented to stand for all ports. -/
def LargeRange (p : NovaNetworkPolicyPort) : Prop :=
  ∃ v e, p.port = some v ∧ p.endPort = some e ∧ maxExpandablePortRange < e - v + 1

def InRange (p : NovaNetworkPolicyPort) (port : UInt16) : Prop :=
  ∀ v ∈ p.port, v ≤ port.toNat ∧ (port.toNat : Int) ≤ p.endPort.getD v

def Listed (p : NovaNetworkPolicyPort) (proto : UInt8) (port : UInt16) : Prop :=
  (∃ pr, p.named = some pr ∧ pr.number = proto) ∧ (p.InRange port ∨ p.LargeRange)

def Numbered (p : NovaNetworkPolicyPort) (proto : UInt8) (port : UInt16) : Prop :=
  p.port.isSome = true ∧ (∃ pr, p.named = some pr ∧ pr.number = proto) ∧ p.InRange port

/-- An entry whose protocol is not the one it is compiled to, or whose port numbers are not in
order from 1 to 65535. -/
def Crooked (p : NovaNetworkPolicyPort) : Prop :=
  (∀ pr, p.named = some pr → extendedProtocol p.protocol ≠ pr.number) ∨
    ∃ v, p.port = some v ∧ ¬ (1 ≤ v ∧ v ≤ p.endPort.getD v ∧ p.endPort.getD v ≤ 65535)

variable {p : NovaNetworkPolicyPort}

theorem mem_portSpan {proto : UInt8} {v e : Int} {pp : PortProto} :
    pp ∈ portSpan proto v e ↔ pp.protocol = proto ∧
      ∃ q : Nat, v.toNat ≤ q ∧ q < v.toNat + (e - v + 1).toNat ∧ pp.port = UInt16.ofNat q := by
  simp only [portSpan, List.mem_map, mem_range'_1]
  constructor
  · rintro ⟨q, ⟨hle, hlt⟩, rfl⟩
    exact ⟨rfl, q, hle, hlt, rfl⟩
  · rintro ⟨rfl, q, hle, hlt, hq⟩
    exact ⟨q, ⟨hle, hlt⟩, by rw [← hq]⟩

theorem portSpan_matches {pr : Protocol} {v e : Int} (hv : 1 ≤ v) (he : e ≤ 65535)
    {proto : UInt8} {port : UInt16} :
    (∃ pp ∈ portSpan pr.number v e, pp.Matches proto port) ↔
      pr.number = proto ∧ v ≤ port.toNat ∧ (port.toNat : Int) ≤ e := by
  have hsize : UInt16.size = 65536 := rfl
  constructor
  · rintro ⟨pp, hpp, hm⟩
    obtain ⟨hproto, q, hle, hlt, hq⟩ := mem_portSpan.mp hpp
    have hnat : (UInt16.ofNat q).toNat = q := UInt16.toNat_ofNat_of_lt' (by omega)
    obtain ⟨hp, hport⟩ := hm
    rw [hproto] at hp
    refine ⟨hp.resolve_left (Compiler.number_ne_zero pr), ?_⟩
    rcases hport with hzero | heq
    · rw [hq] at hzero
      rw [hzero, show (0 : UInt16).toNat = 0 from rfl] at hnat
      omega
    · rw [← heq, hq, hnat]
      omega
  · rintro ⟨hproto, hle, hge⟩
    refine ⟨⟨pr.number, port⟩, mem_portSpan.mpr ⟨rfl, port.toNat, by omega, by omega, ?_⟩,
      Compiler.matches_number.mpr ⟨hproto, .inr rfl⟩⟩
    exact UInt16.ofNat_toNat.symm

theorem extendedPairs_plain (hplain : ¬ p.Crooked) (proto : UInt8) (port : UInt16) :
    (∃ pp ∈ extendedPairs p, pp.Matches proto port) ↔ p.Listed proto port := by
  obtain ⟨hnamed, hrange⟩ := not_or.mp hplain
  push Not at hnamed hrange
  obtain ⟨pr, hpr, hproto⟩ := hnamed
  have hlisted : (∃ pr', p.named = some pr' ∧ pr'.number = proto) ↔ pr.number = proto := by
    simp [hpr]
  unfold Listed extendedPairs
  rw [hlisted, hproto]
  cases hp : p.port with
  | none =>
    have hall : p.InRange port := by simp [InRange, hp]
    simp [Compiler.matches_number, hall]
  | some v =>
    have hv := hrange v hp
    have hin : p.InRange port ↔ v ≤ port.toNat ∧ (port.toNat : Int) ≤ p.endPort.getD v := by
      simp [InRange, hp]
    rw [hin]
    cases he : p.endPort with
    | none =>
      rw [he] at hv
      have hv' : 1 ≤ v ∧ v ≤ 65535 := ⟨hv.1, hv.2.2⟩
      have hsmall : ¬ p.LargeRange := by simp [LargeRange, he]
      have hnum := Compiler.numericPort_eq_iff hv' port
      rw [numericPort, if_pos (by omega)] at hnum
      simp only [if_neg (show ¬ (v < 0 ∨ v > 65535) by omega), List.mem_singleton, exists_eq_left,
        Compiler.matches_number, hnum, hsmall, or_false, getD_none]
      exact and_congr_right fun _ => le_antisymm_iff
    | some e =>
      rw [he] at hv
      obtain ⟨hv1, hve, he1⟩ := hv
      simp only [getD_some] at hve he1
      have hkeep : ¬ (v < 0 ∨ e > 65535 ∨ e < v) := by omega
      simp only [if_neg hkeep]
      by_cases hlarge : e - v + 1 > maxExpandablePortRange
      · have hdoc : p.LargeRange := ⟨v, e, hp, he, hlarge⟩
        simp only [if_pos hlarge]
        simp [Compiler.matches_number, hdoc]
      · have hsmall : ¬ p.LargeRange := by simpa [LargeRange, hp, he] using hlarge
        simp only [if_neg hlarge, hsmall, or_false, getD_some]
        exact portSpan_matches hv1 he1

end NovaNetworkPolicyPort

end NovaPolicies

section Rules

open NovaNetworkPolicyPort

variable (c : Compiler) (x : ExtendedCompiler) (o : IterOrder UInt64) (site : List Nat)
  (ns : String) (sel : LabelSelector)

def Compiler.HasPeer (peers : List NetworkPolicyPeer) : Prop :=
  c.ruleIdentities o site peers ns ≠ [] ∨ resolvePeersWithIPBlock peers ≠ []

def ExtendedCompiler.HasPeer (peers : List NovaNetworkPolicyPeer) : Prop :=
  (if peers.length = 0 then [wildcardIdentity] else x.resolveExtendedPeers o site peers ns) ≠ [] ∨
    resolveExtendedCIDRs peers ≠ [] ∨ x.resolveFQDNPeers peers ≠ []

theorem Compiler.spread_rules (peers : List NetworkPolicyPeer) (fixedID : UInt64)
    (pairs : List PortProto) (isEgress : Bool) : Spread (c.HasPeer o site ns peers) pairs
      (buildIdentityRules (c.ruleIdentities o site peers ns) fixedID pairs isEgress ns ++
        buildCIDRRules (resolvePeersWithIPBlock peers) fixedID pairs isEgress ns) :=
  (spread_identityRules _ fixedID pairs isEgress ns).append
    (spread_cidrRules (exists_allowed_of_blocks NetworkPolicyPeer.ipBlock) fixedID pairs isEgress ns)

theorem ExtendedCompiler.spread_rules (peers : List NovaNetworkPolicyPeer) (fixedID : UInt64)
    (pairs : List PortProto) (isEgress : Bool) : Spread (x.HasPeer o site ns peers) pairs
      (x.directionalRules o site peers fixedID isEgress ns pairs) := by
  have hallow : (x.resolveFQDNPeers peers).map (fun cidr => CidrEntry.mk cidr actionAllow) ≠ [] →
      ∃ entry ∈ (x.resolveFQDNPeers peers).map (fun cidr => CidrEntry.mk cidr actionAllow),
        entry.action = actionAllow := by
    intro h
    obtain ⟨entry, hentry⟩ := exists_mem_of_ne_nil _ h
    obtain ⟨cidr, -, rfl⟩ := List.mem_map.mp hentry
    exact ⟨_, hentry, rfl⟩
  have hfqdn := spread_cidrRules hallow fixedID pairs isEgress ns
  rw [Ne, map_eq_nil_iff] at hfqdn
  exact (spread_identityRules _ fixedID pairs isEgress ns).append
    ((spread_cidrRules (exists_allowed_of_blocks NovaNetworkPolicyPeer.ipBlock) fixedID pairs
      isEgress ns).append hfqdn)

variable {c x o site ns sel}

theorem Compiler.neverFailsOpen_rules {peers : List NetworkPolicyPeer}
    {ports : List NetworkPolicyPort} (hvalid : ∀ p ∈ ports, p.ApiValid) (fixedID : UInt64)
    (isEgress : Bool) :
    NeverFailsOpen (c.PortListed ns sel) (c.PortNumbered ns sel) ports
      (buildIdentityRules (c.ruleIdentities o site peers ns) fixedID (c.rulePorts ports ns sel)
          isEgress ns ++
        buildCIDRRules (resolvePeersWithIPBlock peers) fixedID (c.rulePorts ports ns sel) isEgress ns) ↔
      PortsSafe (c.PortListed ns sel) (c.PortNumbered ns sel) (c.resolvePort ns sel) ports
        (c.HasPeer o site ns peers) (c.CrookedPort ns sel) :=
  neverFailsOpen_iff (c.spread_rules o site ns peers fixedID _ isEgress)
    (fun p hp hplain proto port _ => resolvePort_plain (hvalid p hp) hplain proto port)
    (fun _ _ _ _ h => h.2) fun p _ _ h => number_ne_one (p.protocol.getD .tcp) h.1

theorem ExtendedCompiler.neverFailsOpen_rules {peers : List NovaNetworkPolicyPeer}
    {ports : List NovaNetworkPolicyPort} (fixedID : UInt64) (isEgress : Bool) :
    (∃ fuel rules,
      x.compileDirectionalRule o fuel site peers ports fixedID isEgress ns = some rules ∧
      NeverFailsOpen Listed Numbered ports rules) ↔
    (∀ p ∈ ports, ¬ p.Overruns) ∧ PortsSafe Listed
      Numbered extendedPairs ports (x.HasPeer o site ns peers)
      Crooked := by
  have hiff := neverFailsOpen_iff
    (x.spread_rules o site ns peers fixedID (orAny (ports.flatMap extendedPairs)) isEgress)
    (fun p _ hplain proto port _ => extendedPairs_plain hplain proto port)
    (fun _ _ _ _ (h : Numbered _ _ _) => ⟨h.2.1, .inl h.2.2⟩) fun p _ _ h => by
      obtain ⟨⟨pr, -, hpr⟩, -⟩ := h
      exact Compiler.number_ne_one pr hpr
  constructor
  · rintro ⟨fuel, rules, hcompile, hopen⟩
    obtain ⟨pairs, hpairs, rfl⟩ := map_eq_some_iff.mp hcompile
    obtain ⟨hover, rfl⟩ := resolveExtendedPorts_eq_some hpairs
    exact ⟨hover, hiff.mp hopen⟩
  · rintro ⟨hover, hsafe⟩
    refine ⟨101, _, ?_, hiff.mpr hsafe⟩
    rw [compileDirectionalRule, resolveExtendedPorts_eq hover (by omega)]
    rfl

end Rules

open NovaNetworkPolicyPort (Listed Numbered Crooked)

/-- A non-empty port list, in each direction and for both compilers, never fails open exactly when
it is safe. -/
theorem portLists_never_fail_open_iff (c : Compiler) (x : ExtendedCompiler) (o : IterOrder UInt64)
    (site : List Nat) (ns : String) (sel : LabelSelector) (fixedID : UInt64) :
    (∀ rule : NetworkPolicyIngressRule, rule.ports ≠ [] → (∀ p ∈ rule.ports, p.ApiValid) →
      (NeverFailsOpen (c.PortListed ns sel) (c.PortNumbered ns sel) rule.ports
          (c.compileIngressRule o site rule fixedID ns sel) ↔
        PortsSafe (c.PortListed ns sel) (c.PortNumbered ns sel) (c.resolvePort ns sel) rule.ports
          (c.HasPeer o site ns rule.from_) (c.CrookedPort ns sel))) ∧
    (∀ rule : NetworkPolicyEgressRule, rule.ports ≠ [] → (∀ p ∈ rule.ports, p.ApiValid) →
      (NeverFailsOpen (c.PortListed ns .empty) (c.PortNumbered ns .empty) rule.ports
          (c.compileEgressRule o site rule fixedID ns) ↔
        PortsSafe (c.PortListed ns .empty) (c.PortNumbered ns .empty) (c.resolvePort ns .empty)
          rule.ports (c.HasPeer o site ns rule.to_) (c.CrookedPort ns .empty))) ∧
    (∀ rule : NovaNetworkPolicyIngressRule, rule.ports ≠ [] →
      ((∃ fuel rules, x.compileIngressRule o fuel site rule fixedID ns = some rules ∧
          NeverFailsOpen Listed Numbered rule.ports rules) ↔
        (∀ p ∈ rule.ports, ¬ p.Overruns) ∧ PortsSafe Listed
          Numbered extendedPairs rule.ports (x.HasPeer o site ns rule.from_)
          Crooked)) ∧
    (∀ rule : NovaNetworkPolicyEgressRule, rule.ports ≠ [] →
      ((∃ fuel rules, x.compileEgressRule o fuel site rule fixedID ns = some rules ∧
          NeverFailsOpen Listed Numbered rule.ports rules) ↔
        (∀ p ∈ rule.ports, ¬ p.Overruns) ∧ PortsSafe Listed
          Numbered extendedPairs rule.ports (x.HasPeer o site ns rule.to_)
          Crooked)) :=
  ⟨fun _ _ hvalid => Compiler.neverFailsOpen_rules hvalid fixedID false,
    fun _ _ hvalid => Compiler.neverFailsOpen_rules hvalid fixedID true,
    fun _ _ => ExtendedCompiler.neverFailsOpen_rules fixedID false,
    fun _ _ => ExtendedCompiler.neverFailsOpen_rules fixedID true⟩

section Example

def bareCompiler : ExtendedCompiler where
  identityAllocator := .new
  namespaceResolver := none
  portResolver := none
  selectorOk := fun _ => true
  hash := fun _ => 7
  resolve := fun _ => []

def webPort : NetworkPolicyPort := ⟨some .tcp, some (.int 80), none⟩

theorem portLists_never_fail_open_example :
    NeverFailsOpen (bareCompiler.PortListed "ns" .empty) (bareCompiler.PortNumbered "ns" .empty)
      [webPort] (bareCompiler.toCompiler.compileEgressRule identityOrder [] ⟨[], [webPort]⟩ 9 "ns") ∧
    ∃ fuel rules, bareCompiler.compileEgressRule identityOrder fuel []
        ⟨[⟨some "UDP", some 53, some 60⟩], []⟩ 9 "ns" = some rules ∧
      NeverFailsOpen Listed Numbered [⟨some "UDP", some 53, some 60⟩] rules := by
  obtain ⟨-, hegress, -, hextended⟩ := portLists_never_fail_open_iff bareCompiler.toCompiler
    bareCompiler identityOrder [] "ns" .empty 9
  constructor
  · refine (hegress ⟨[], [webPort]⟩ (by simp) ?_).mpr
      (.inr ⟨.inl (by decide), ⟨webPort, by simp, by decide⟩, ?_⟩)
    · intro p hp
      rw [List.mem_singleton.mp hp]
      exact ⟨fun v hv => by cases hv; omega, fun e he => by cases he⟩
    · intro p hp hcrooked
      rw [List.mem_singleton.mp hp] at hcrooked
      rcases hcrooked with ⟨v, e, -, he, -⟩ | ⟨name, hname, -⟩
      · cases he
      · cases hname
  · refine (hextended ⟨[⟨some "UDP", some 53, some 60⟩], []⟩ (by simp)).mpr
      ⟨by decide, .inr ⟨.inl (by decide), ⟨_, mem_singleton_self _, by decide⟩, ?_⟩⟩
    intro p hp hcrooked
    rw [List.mem_singleton.mp hp] at hcrooked
    rcases hcrooked with hproto | ⟨v, hv, hrange⟩
    · exact absurd (by decide) (hproto .udp (by decide))
    · cases hv
      exact absurd (by decide) hrange

/-- A name without a result opens everything, of a range only the first port is open, and a
protocol in lower case is taken for TCP. -/
theorem portLists_fail_open :
    ¬ NeverFailsOpen (bareCompiler.PortListed "ns" .empty) (bareCompiler.PortNumbered "ns" .empty)
      [⟨some .tcp, some (.string "http"), none⟩] (bareCompiler.toCompiler.compileEgressRule identityOrder []
        ⟨[], [⟨some .tcp, some (.string "http"), none⟩]⟩ 9 "ns") ∧
    ¬ NeverFailsOpen (bareCompiler.PortListed "ns" .empty) (bareCompiler.PortNumbered "ns" .empty)
      [⟨some .tcp, some (.int 80), some 90⟩] (bareCompiler.toCompiler.compileEgressRule identityOrder []
        ⟨[], [⟨some .tcp, some (.int 80), some 90⟩]⟩ 9 "ns") ∧
    ¬ ∃ fuel rules, bareCompiler.compileEgressRule identityOrder fuel []
        ⟨[⟨some "udp", some 53, none⟩], []⟩ 9 "ns" = some rules ∧
      NeverFailsOpen Listed Numbered [⟨some "udp", some 53, none⟩] rules := by
  refine ⟨fun h => ?_, fun h => ?_, ?_⟩
  · obtain ⟨p, hp, hlisted⟩ := h.only _ mem_cons_self rfl 1 1 (by decide) (by decide)
    rw [List.mem_singleton.mp hp] at hlisted
    exact absurd hlisted.1 (by decide)
  · obtain ⟨r, hr, hm⟩ := h.all _ mem_cons_self 6 85 (by decide) ⟨rfl, rfl, by decide, by decide⟩
    rw [List.mem_singleton.mp hr] at hm
    exact absurd hm (by decide)
  · rintro ⟨fuel, rules, hcompile, h⟩
    cases hcompile
    obtain ⟨p, hp, ⟨pr, hpr, hnumber⟩, -⟩ := h.only _ mem_cons_self rfl 6 53 (by decide) (by decide)
    rw [List.mem_singleton.mp hp] at hpr
    have hudp : pr = .udp := by
      have hnamed : protocolNamed "udp" = some .udp := by decide
      exact Option.some.inj (hpr.symm.trans hnamed)
    rw [hudp] at hnumber
    exact absurd hnumber (by decide)

end Example

end NovaNet
