import NovaNet.HostFirewall
import NovaNet.ListResults
import NovaNet.PortLists

/-! Policies that the webhooks accept, and the rules they are compiled to. The webhooks take the
name of a protocol in any case, the compilers only in upper case. -/

namespace NovaNet

open List

def exactProtocols : List String := ["TCP", "UDP", "SCTP"]

def NamesNumber (t : String) (number : UInt8) : Prop :=
  ∃ pr, protocolNamed t = some pr ∧ number = pr.number

section HostPolicies

/-- The rules that a host rule becomes: with a protocol text they have its number, and the ports
of an entry if there is one. -/
structure HostBlockFaithful (policyName : String) (dir : Direction) (rule : HostRule)
    (block : List CompiledHostRule) : Prop where
  compiled : ∃ idx, compileHostRule policyName dir idx rule = .ok block
  faithful : ∀ t ∈ rule.protocol, ∀ r ∈ block, NamesNumber t r.protocol ∧
    (rule.ports = [] ∨ ∃ hp ∈ rule.ports, hp.CarriedBy r)

def HostFaithful (policy : HostEndpointPolicy) : Prop :=
  ∃ ingress egress, compileHostPolicy policy = .ok (ingress.flatten ++ egress.flatten) ∧
    List.Forall₂ (HostBlockFaithful policy.name .ingress) policy.spec.ingress ingress ∧
    List.Forall₂ (HostBlockFaithful policy.name .egress) policy.spec.egress egress

def HostExact (rules : List HostRule) : Prop :=
  ∀ rule ∈ rules, ∀ t ∈ rule.protocol, t ∈ exactProtocols

instance : DecidablePred HostExact := fun rules =>
  inferInstanceAs (Decidable (∀ rule ∈ rules, ∀ t ∈ rule.protocol, t ∈ exactProtocols))

variable {policyName : String} {dir : Direction} {rules : List HostRule}

theorem convertProtocol_exact {t : String} (h : t ∈ exactProtocols) :
    NamesNumber t (convertProtocol (some t)) := by
  simp only [exactProtocols, mem_cons, not_mem_nil, or_false] at h
  rcases h with rfl | rfl | rfl
  · exact ⟨.tcp, by decide, rfl⟩
  · exact ⟨.udp, by decide, rfl⟩
  · exact ⟨.sctp, by decide, rfl⟩

theorem exact_of_convertProtocol {t : String} (h : NamesNumber t (convertProtocol (some t))) :
    t ∈ exactProtocols := by
  obtain ⟨pr, -, hnumber⟩ := h
  by_contra hnot
  simp only [exactProtocols, mem_cons, not_mem_nil, or_false, not_or] at hnot
  have hzero : convertProtocol (some t) = 0 := by
    simp only [convertProtocol, if_neg hnot.1, if_neg hnot.2.1, if_neg hnot.2.2]
  exact Compiler.number_ne_zero pr (hnumber.symm.trans hzero)

theorem hostBlockFaithful_of_exact {rule : HostRule} (hvalid : rule.Valid)
    (hexact : ∀ t ∈ rule.protocol, t ∈ exactProtocols) (idx : Nat) :
    ∃ block, compileHostRule policyName dir idx rule = .ok block ∧
      HostBlockFaithful policyName dir rule block := by
  obtain ⟨block, hblock, -, hrules⟩ := compileHostRule_of_valid policyName dir idx hvalid
  refine ⟨block, hblock, ⟨idx, hblock⟩, fun t ht r hr => ?_⟩
  obtain ⟨hprotocol, hports⟩ := hrules r hr
  rw [Option.mem_def] at ht
  rw [ht] at hprotocol
  exact ⟨hprotocol ▸ convertProtocol_exact (hexact t ht), hports⟩

theorem exact_of_hostBlockFaithful {rule : HostRule} {block : List CompiledHostRule}
    (hvalid : rule.Valid) (h : HostBlockFaithful policyName dir rule block) :
    ∀ t ∈ rule.protocol, t ∈ exactProtocols := by
  intro t ht
  obtain ⟨idx, hidx⟩ := h.compiled
  obtain ⟨block', hblock', hne, hrules⟩ := compileHostRule_of_valid policyName dir idx hvalid
  rw [hidx] at hblock'
  cases hblock'
  obtain ⟨r, hr⟩ := exists_mem_of_ne_nil _ hne
  have hnamed := (h.faithful t ht r hr).1
  rw [(hrules r hr).1, Option.mem_def.mp ht] at hnamed
  exact exact_of_convertProtocol hnamed

theorem compileRulesFrom_of_exact (policyName : String) (dir : Direction)
    (hvalid : ∀ rule ∈ rules, rule.Valid) (hexact : HostExact rules) (i idx : Nat) :
    ∃ blocks, compileRulesFrom policyName dir i idx rules = .ok blocks.flatten ∧
      List.Forall₂ (HostBlockFaithful policyName dir) rules blocks := by
  induction rules generalizing i idx with
  | nil => exact ⟨[], rfl, .nil⟩
  | cons rule rules ih =>
    obtain ⟨hrule, hrest⟩ := forall_mem_cons.mp hvalid
    obtain ⟨hexact, hexacts⟩ := forall_mem_cons.mp hexact
    obtain ⟨block, hblock, hfaithful⟩ := hostBlockFaithful_of_exact hrule hexact idx
    obtain ⟨blocks, hblocks, hall⟩ := ih hrest hexacts (i + 1) (idx + block.length)
    refine ⟨block :: blocks, ?_, .cons hfaithful hall⟩
    rw [compileRulesFrom, hblock]
    simp only [hblocks]
    rfl

theorem exact_of_forall₂ {blocks : List (List CompiledHostRule)}
    (hvalid : ∀ rule ∈ rules, rule.Valid)
    (h : List.Forall₂ (HostBlockFaithful policyName dir) rules blocks) : HostExact rules := by
  induction h with
  | nil => exact fun _ hrule => absurd hrule not_mem_nil
  | cons hblock _ ih =>
    obtain ⟨hrule, hrest⟩ := forall_mem_cons.mp hvalid
    exact forall_mem_cons.mpr ⟨exact_of_hostBlockFaithful hrule hblock, ih hrest⟩

theorem hostFaithful_iff {policy : HostEndpointPolicy}
    (haccepted : validateHostEndpointPolicySpec policy.spec = []) :
    HostFaithful policy ↔ HostExact policy.spec.ingress ∧ HostExact policy.spec.egress := by
  obtain ⟨hingress, hegress⟩ := validateHostEndpointPolicySpec_eq_nil.mp haccepted
  constructor
  · rintro ⟨_, _, -, hin, hout⟩
    exact ⟨exact_of_forall₂ hingress hin, exact_of_forall₂ hegress hout⟩
  · rintro ⟨hin, hout⟩
    obtain ⟨ingress, hi, hiall⟩ := compileRulesFrom_of_exact policy.name .ingress hingress hin 0 0
    obtain ⟨egress, he, heall⟩ := compileRulesFrom_of_exact policy.name .egress hegress hout 0 0
    refine ⟨ingress, egress, ?_, hiall, heall⟩
    simp only [compileHostPolicy, compileRules, hi, he]
    rfl

end HostPolicies

section NovaPolicies

structure DirectionalCall where
  site : List Nat
  peers : List NovaNetworkPolicyPeer
  ports : List NovaNetworkPolicyPort
  fixedID : UInt64
  isEgress : Bool

namespace ExtendedCompiler

variable (c : ExtendedCompiler) (o : IterOrder UInt64)

def ingressCalls (site : List Nat) (nnp : NovaNetworkPolicy) (targetID : UInt64) :
    List DirectionalCall :=
  if hasExtendedPolicyType nnp policyTypeIngress then
    nnp.spec.ingress.mapIdx fun i rule => ⟨i :: 0 :: site, rule.from_, rule.ports, targetID, false⟩
  else []

def egressCalls (site : List Nat) (nnp : NovaNetworkPolicy) (targetID : UInt64) :
    List DirectionalCall :=
  if hasExtendedPolicyType nnp policyTypeEgress then
    nnp.spec.egress.mapIdx fun i rule => ⟨i :: 1 :: site, rule.to_, rule.ports, targetID, true⟩
  else []

def calls (site : List Nat) (nnp : NovaNetworkPolicy) : List DirectionalCall :=
  ((c.targetIdentities o site nnp).mapIdx fun j targetID =>
    ingressCalls (j :: 1 :: site) nnp targetID ++ egressCalls (j :: 1 :: site) nnp targetID).flatten

def CompiledFrom (fuel : Nat) (site : List Nat) (nnp : NovaNetworkPolicy)
    (p : NovaNetworkPolicyPort) (r : CompiledRule) : Prop :=
  ∃ call ∈ c.calls o site nnp, p ∈ call.ports ∧ ∃ pairs, resolveExtendedPort fuel p = some pairs ∧
    r ∈ c.directionalRules o call.site call.peers call.fixedID call.isEgress nnp.namespace_ pairs

/-- The compilation returns, and a rule from an entry with a protocol text has the number of the
protocol and a port of the entry. -/
def NovaFaithful (site : List Nat) (nnp : NovaNetworkPolicy) : Prop :=
  ∃ fuel rules, c.compilePolicy o fuel site nnp = some rules ∧
    ∀ p r, c.CompiledFrom o fuel site nnp p r → r ∈ rules ∧ ∀ t ∈ p.protocol,
      NamesNumber t r.protocol ∧
        ∀ v ∈ p.port, v ≤ r.dstPort.toNat ∧ (r.dstPort.toNat : Int) ≤ p.endPort.getD v

/-- No expansion runs over the last port, and where a rule has a peer its entries are written as
the compiler reads them: UDP and SCTP in upper case, and no range of more than 100 ports. -/
def NovaExact (site : List Nat) (nnp : NovaNetworkPolicy) : Prop :=
  ∀ call ∈ c.calls o site nnp, (∀ p ∈ call.ports, ¬ p.Overruns) ∧
    (c.HasPeer o call.site nnp.namespace_ call.peers → ∀ p ∈ call.ports, ∀ t ∈ p.protocol,
      (protocolNamed t = some .tcp ∨ t = "UDP" ∨ t = "SCTP") ∧ ¬ p.LargeRange)

variable {c o} {fuel : Nat} {site : List Nat} {nnp : NovaNetworkPolicy}

structure Joins {κ : Type} (run : κ → Option (List CompiledRule)) (calls : List κ)
    (result : Option (List CompiledRule)) : Prop where
  isSome : (∃ rules, result = some rules) ↔ ∀ call ∈ calls, ∃ b, run call = some b
  mem : ∀ rules, result = some rules → ∀ call ∈ calls, ∀ b, run call = some b → ∀ r ∈ b, r ∈ rules

variable {call : DirectionalCall} {p : NovaNetworkPolicyPort} {rules : List CompiledRule}
  {r : CompiledRule} {κ : Type}

theorem joins_map (run : κ → Option (List CompiledRule)) (calls : List κ) :
    Joins run calls (concatAll (calls.map run)) where
  isSome := by simp [concatAll_isSome]
  mem rules h call hcall b hb r hr :=
    (mem_of_concatAll h).mpr ⟨b, hb ▸ mem_map_of_mem hcall, hr⟩

theorem Joins.concat {run : κ → Option (List CompiledRule)}
    (parts : List (List κ × Option (List CompiledRule)))
    (h : ∀ part ∈ parts, Joins run part.1 part.2) :
    Joins run (parts.map Prod.fst).flatten (concatAll (parts.map Prod.snd)) where
  isSome := by
    rw [concatAll_isSome, forall_mem_map, forall_mem_flatten, forall_mem_map]
    exact forall₂_congr fun part hpart => (h part hpart).isSome
  mem rules hrules call hcall b hb r hr := by
    obtain ⟨calls, hcalls, hcall⟩ := mem_flatten.mp hcall
    obtain ⟨part, hpart, rfl⟩ := mem_map.mp hcalls
    obtain ⟨b', hb'⟩ := concatAll_isSome.mp ⟨rules, hrules⟩ _ (mem_map_of_mem hpart)
    have hmem := (h part hpart).mem b' hb' call hcall b hb r hr
    exact (mem_of_concatAll hrules).mpr ⟨b', hb' ▸ mem_map_of_mem hpart, hmem⟩

def runCall (c : ExtendedCompiler) (o : IterOrder UInt64) (fuel : Nat) (ns : String)
    (call : DirectionalCall) : Option (List CompiledRule) :=
  c.compileDirectionalRule o fuel call.site call.peers call.ports call.fixedID call.isEgress ns

theorem joins_rules {α : Type} {isType : Prop} [Decidable isType]
    (run : κ → Option (List CompiledRule)) (rules : List α) (f : Nat → α → κ)
    (deny : List CompiledRule) :
    Joins run (if isType then rules.mapIdx f else [])
      (if isType then if rules.length = 0 then some deny
        else concatAll (rules.mapIdx fun i rule => run (f i rule)) else some []) := by
  split
  · split
    · rename_i hnil
      rw [length_eq_zero_iff.mp hnil]
      exact ⟨by simp, by simp⟩
    · rw [← map_mapIdx]
      exact joins_map run _
  · exact ⟨by simp, by simp⟩

theorem joins_ingress (site : List Nat) (nnp : NovaNetworkPolicy) (targetID : UInt64) :
    Joins (c.runCall o fuel nnp.namespace_) (ingressCalls site nnp targetID)
      (c.compileIngress o fuel site nnp targetID) := joins_rules _ _ _ _

theorem joins_egress (site : List Nat) (nnp : NovaNetworkPolicy) (targetID : UInt64) :
    Joins (c.runCall o fuel nnp.namespace_) (egressCalls site nnp targetID)
      (c.compileEgress o fuel site nnp targetID) := joins_rules _ _ _ _

theorem joins_policy (fuel : Nat) (site : List Nat) (nnp : NovaNetworkPolicy) :
    Joins (c.runCall o fuel nnp.namespace_) (c.calls o site nnp) (c.compilePolicy o fuel site nnp) := by
  have htarget (site : List Nat) (targetID : UInt64) :
      Joins (c.runCall o fuel nnp.namespace_)
        (ingressCalls site nnp targetID ++ egressCalls site nnp targetID)
        (concatAll [c.compileIngress o fuel site nnp targetID,
          c.compileEgress o fuel site nnp targetID]) := by
    have hboth := Joins.concat
      [(ingressCalls site nnp targetID, c.compileIngress o fuel site nnp targetID),
        (egressCalls site nnp targetID, c.compileEgress o fuel site nnp targetID)]
      (forall_mem_cons.mpr ⟨joins_ingress site nnp targetID,
        forall_mem_singleton.mpr (joins_egress site nnp targetID)⟩)
    simpa using hboth
  have hall := Joins.concat ((c.targetIdentities o site nnp).mapIdx fun j targetID =>
      (ingressCalls (j :: 1 :: site) nnp targetID ++ egressCalls (j :: 1 :: site) nnp targetID,
        concatAll [c.compileIngress o fuel (j :: 1 :: site) nnp targetID,
          c.compileEgress o fuel (j :: 1 :: site) nnp targetID]))
    (fun part hpart => by
      obtain ⟨j, hj, rfl⟩ := mem_mapIdx.mp hpart
      exact htarget _ _)
  rwa [map_mapIdx, map_mapIdx] at hall

theorem valid_of_accepted (haccepted : validateNovaNetworkPolicySpec nnp.spec = [])
    (hcall : call ∈ c.calls o site nnp) : ∀ p ∈ call.ports, p.Valid := by
  obtain ⟨hingress, hegress⟩ := validPorts_of_accepted haccepted
  obtain ⟨l, hl, hcall⟩ := mem_flatten.mp hcall
  obtain ⟨j, hj, rfl⟩ := mem_mapIdx.mp hl
  unfold ingressCalls egressCalls at hcall
  rcases mem_append.mp hcall with hcall | hcall <;> split at hcall
  · obtain ⟨i, hi, rfl⟩ := mem_mapIdx.mp hcall
    exact hingress _ (getElem_mem hi)
  · cases hcall
  · obtain ⟨i, hi, rfl⟩ := mem_mapIdx.mp hcall
    exact hegress _ (getElem_mem hi)
  · cases hcall

theorem directionalRules_mono {pairs pairs' : List PortProto} (h : pairs ⊆ pairs')
    {peers : List NovaNetworkPolicyPeer} {fixedID : UInt64} {isEgress : Bool} {ns : String}
    (hr : r ∈ c.directionalRules o site peers fixedID isEgress ns pairs) :
    r ∈ c.directionalRules o site peers fixedID isEgress ns pairs' := by
  have hsub {α : Type} (l : List α) (f : α → PortProto → CompiledRule) :
      (l.flatMap fun a => pairs.map (f a)) ⊆ l.flatMap fun a => pairs'.map (f a) := by
    intro r hr
    obtain ⟨a, ha, hr⟩ := mem_flatMap.mp hr
    obtain ⟨pp, hpp, rfl⟩ := mem_map.mp hr
    exact mem_flatMap.mpr ⟨a, ha, mem_map_of_mem (h hpp)⟩
  rcases mem_append.mp hr with hr | hr
  · exact mem_append_left _ (hsub _ _ hr)
  · rcases mem_append.mp hr with hr | hr
    · exact mem_append_right _ (mem_append_left _ (hsub _ _ hr))
    · exact mem_append_right _ (mem_append_right _ (hsub _ _ hr))

theorem compiledFrom_mem (hrules : c.compilePolicy o fuel site nnp = some rules)
    (h : c.CompiledFrom o fuel site nnp p r) : r ∈ rules := by
  obtain ⟨call, hcall, hp, pairs, hpairs, hr⟩ := h
  have hjoins := joins_policy (c := c) (o := o) fuel site nnp
  obtain ⟨b, hb⟩ := hjoins.isSome.mp ⟨rules, hrules⟩ call hcall
  obtain ⟨all, hall, rfl⟩ := Option.map_eq_some_iff.mp hb
  have hsub : pairs ⊆ all := by
    intro pp hpp
    exact (mem_of_concatAll hall).mpr ⟨pairs, hpairs ▸ mem_map_of_mem hp, hpp⟩
  refine hjoins.mem rules hrules call hcall _ hb r (directionalRules_mono ?_ hr)
  split
  · rename_i hnil
    rw [length_eq_zero_iff.mp hnil] at hsub
    rw [subset_nil.mp hsub]
    exact nil_subset _
  · exact hsub

theorem resolved_of_compiled (hrules : c.compilePolicy o fuel site nnp = some rules)
    (hcall : call ∈ c.calls o site nnp) (hp : p ∈ call.ports) :
    resolveExtendedPort fuel p = some (extendedPairs p) := by
  obtain ⟨b, hb⟩ := (joins_policy fuel site nnp).isSome.mp ⟨rules, hrules⟩ call hcall
  obtain ⟨all, hall, -⟩ := Option.map_eq_some_iff.mp hb
  obtain ⟨pairs, hpairs⟩ := concatAll_isSome.mp ⟨all, hall⟩ _ (mem_map_of_mem hp)
  rw [hpairs, (resolveExtendedPort_eq_some hpairs).2]

theorem compilePolicy_isSome :
    (∃ fuel rules, c.compilePolicy o fuel site nnp = some rules) ↔
      ∀ call ∈ c.calls o site nnp, ∀ p ∈ call.ports, ¬ p.Overruns := by
  constructor
  · rintro ⟨fuel, rules, h⟩ call hcall p hp
    exact (resolveExtendedPort_eq_some (resolved_of_compiled h hcall hp)).1
  · intro h
    refine ⟨101, (joins_policy 101 site nnp).isSome.mpr fun call hcall => ?_⟩
    rw [runCall, compileDirectionalRule, resolveExtendedPorts_eq (h call hcall) (by omega)]
    exact ⟨_, rfl⟩

end ExtendedCompiler

open ExtendedCompiler

theorem namesNumber_extendedProtocol {t : String} :
    NamesNumber t (extendedProtocol (some t)) ↔
      protocolNamed t = some .tcp ∨ t = "UDP" ∨ t = "SCTP" := by
  by_cases hudp : t = "UDP"
  · rw [hudp]
    exact iff_of_true ⟨.udp, by decide, rfl⟩ (.inr (.inl rfl))
  · by_cases hsctp : t = "SCTP"
    · rw [hsctp]
      exact iff_of_true ⟨.sctp, by decide, rfl⟩ (.inr (.inr rfl))
    · have hnumber : extendedProtocol (some t) = Protocol.tcp.number := by
        simp only [extendedProtocol, if_neg hudp, if_neg hsctp, ite_self]
      rw [hnumber]
      constructor
      · rintro ⟨pr, hpr, heq⟩
        cases pr with
        | tcp => exact .inl hpr
        | udp | sctp => exact absurd heq (by decide)
      · rintro (h | h | h)
        · exact ⟨.tcp, h, rfl⟩
        · exact absurd h hudp
        · exact absurd h hsctp

namespace NovaNetworkPolicyPort

variable {p : NovaNetworkPolicyPort}

theorem protocol_of_mem_pairs {pp : PortProto} (h : pp ∈ extendedPairs p) :
    pp.protocol = extendedProtocol p.protocol := by
  unfold extendedPairs at h
  split at h
  · rw [mem_singleton.mp h]
  · split at h
    · cases h
    · rw [mem_singleton.mp h]
  · split_ifs at h
    · cases h
    · rw [mem_singleton.mp h]
    · exact (mem_portSpan.mp h).1

theorem Valid.pairs (hvalid : p.Valid) : extendedPairs p ≠ [] ∧
    ((∀ pp ∈ extendedPairs p, p.InRange pp.port) ↔ ¬ p.LargeRange) := by
  have hsize : UInt16.size = 65536 := rfl
  unfold InRange LargeRange extendedPairs
  cases hport : p.port with
  | none => simp
  | some v =>
    have hv := hvalid.port v hport
    cases hend : p.endPort with
    | none =>
      have hkeep : ¬ (v < 0 ∨ v > 65535) := by omega
      have hnat : (UInt16.ofNat v.toNat).toNat = v.toNat := UInt16.toNat_ofNat_of_lt' (by omega)
      simp only [if_neg hkeep, mem_singleton, forall_eq, Option.mem_def, Option.some.injEq,
        forall_eq', Option.getD_none, hnat]
      exact ⟨by simp, iff_of_true (by omega) (by simp)⟩
    | some e =>
      obtain ⟨v', hv', hle, hlast⟩ := hvalid.range e hend
      simp [hport] at hv'
      have hkeep : ¬ (v < 0 ∨ e > 65535 ∨ e < v) := by omega
      simp only [if_neg hkeep, Option.mem_def, Option.some.injEq, forall_eq', Option.getD_some,
        exists_and_left, exists_eq_left']
      by_cases hlarge : e - v + 1 > maxExpandablePortRange
      · have hzero : (0 : UInt16).toNat = 0 := rfl
        simp only [if_pos hlarge, mem_singleton, forall_eq, hzero]
        exact ⟨by simp, iff_of_false (by omega) (by simpa using hlarge)⟩
      · simp only [if_neg hlarge]
        constructor
        · have hfirst : (⟨extendedProtocol p.protocol, UInt16.ofNat v.toNat⟩ : PortProto) ∈
              portSpan (extendedProtocol p.protocol) v e :=
            mem_portSpan.mpr ⟨rfl, v.toNat, le_refl _, by omega, rfl⟩
          exact ne_nil_of_mem hfirst
        · refine iff_of_true (fun pp hpp => ?_) hlarge
          obtain ⟨-, q, hq, hlt, hpq⟩ := mem_portSpan.mp hpp
          rw [hpq, UInt16.toNat_ofNat_of_lt' (by omega)]
          omega

end NovaNetworkPolicyPort

open NovaNetworkPolicyPort in
theorem novaFaithful_iff {c : ExtendedCompiler} {o : IterOrder UInt64} {site : List Nat}
    {nnp : NovaNetworkPolicy} (haccepted : validateNovaNetworkPolicySpec nnp.spec = []) :
    c.NovaFaithful o site nnp ↔ c.NovaExact o site nnp := by
  constructor
  · rintro ⟨fuel, rules, hrules, hfaithful⟩ call hcall
    have hover := compilePolicy_isSome.mp ⟨fuel, rules, hrules⟩ call hcall
    refine ⟨hover, fun hpeer p hp t ht => ?_⟩
    obtain ⟨hne, hrange⟩ := (valid_of_accepted haccepted hcall p hp).pairs
    -- every pair of the entry is in a rule of the peer
    have hpair : ∀ pp ∈ extendedPairs p, NamesNumber t pp.protocol ∧ p.InRange pp.port := by
      intro pp hpp
      obtain ⟨r, hr, -, hports⟩ := (spread_rules c o call.site nnp.namespace_
        call.peers call.fixedID (extendedPairs p) call.isEgress).rule hpeer pp hpp
      have hresolved := resolved_of_compiled hrules hcall hp
      obtain ⟨-, hnumber⟩ := hfaithful p r ⟨call, hcall, hp, _, hresolved, hr⟩
      rw [← hports]
      exact hnumber t ht
    obtain ⟨pp, hpp⟩ := exists_mem_of_ne_nil _ hne
    have hnamed := (hpair pp hpp).1
    rw [protocol_of_mem_pairs hpp, Option.mem_def.mp ht] at hnamed
    exact ⟨namesNumber_extendedProtocol.mp hnamed, hrange.mp fun pp hpp => (hpair pp hpp).2⟩
  · intro hexact
    obtain ⟨fuel, rules, hrules⟩ :=
      compilePolicy_isSome.mpr fun call hcall => (hexact call hcall).1
    refine ⟨fuel, rules, hrules, fun p r hfrom =>
      ⟨compiledFrom_mem hrules hfrom, fun t ht => ?_⟩⟩
    obtain ⟨call, hcall, hp, pairs, hpairs, hr⟩ := hfrom
    have hspread := spread_rules c o call.site nnp.namespace_ call.peers
      call.fixedID pairs call.isEgress
    have hpeer : c.HasPeer o call.site nnp.namespace_ call.peers := by
      by_contra hnone
      simp [hspread.idle hnone] at hr
    have hpair := hspread.pair r hr
    rw [(resolveExtendedPort_eq_some hpairs).2] at hpair
    obtain ⟨hwritten, hsmall⟩ := (hexact call hcall).2 hpeer p hp t ht
    have hvalid := valid_of_accepted haccepted hcall p hp
    have hproto : r.protocol = extendedProtocol p.protocol := protocol_of_mem_pairs hpair
    rw [hproto, Option.mem_def.mp ht]
    exact ⟨namesNumber_extendedProtocol.mpr hwritten, hvalid.pairs.2.mpr hsmall _ hpair⟩

/-- For the policies that the webhooks accept, every rule compiled from an entry with a protocol
text has the protocol of the text and a port of the entry, exactly when the texts and the ranges
are written as the two compilers read them. -/
theorem admitted_policies_compile_iff (c : ExtendedCompiler) (o : IterOrder UInt64)
    (site : List Nat) :
    (∀ nnp : NovaNetworkPolicy, validateNovaNetworkPolicySpec nnp.spec = [] →
      (c.NovaFaithful o site nnp ↔ c.NovaExact o site nnp)) ∧
    ∀ policy : HostEndpointPolicy, validateHostEndpointPolicySpec policy.spec = [] →
      (HostFaithful policy ↔ HostExact policy.spec.ingress ∧ HostExact policy.spec.egress) :=
  ⟨fun _ => novaFaithful_iff, fun _ => hostFaithful_iff⟩

section Example

def egressPolicy (p : NovaNetworkPolicyPort) : NovaNetworkPolicy where
  namespace_ := "ns"
  spec :=
    { podSelector := .empty
      ingress := []
      egress := [⟨[p], []⟩]
      policyTypes := ["Egress"] }

def hostPolicy (protocol : String) : HostEndpointPolicy where
  name := "host"
  spec := ⟨[⟨"Allow", some protocol, ["10.0.0.0/8"], [⟨22, none⟩]⟩], []⟩

def egressCall (p : NovaNetworkPolicyPort) : DirectionalCall := ⟨[0, 1, 0, 1], [], [p], 7, true⟩

theorem calls_egressPolicy (p : NovaNetworkPolicyPort) :
    bareCompiler.calls identityOrder [] (egressPolicy p) = [egressCall p] := rfl

theorem hasPeer_egressCall (p : NovaNetworkPolicyPort) : bareCompiler.HasPeer identityOrder
    (egressCall p).site (egressPolicy p).namespace_ (egressCall p).peers :=
  .inl (cons_ne_nil _ _)

theorem admitted_policies_compile_example :
    bareCompiler.NovaFaithful identityOrder [] (egressPolicy ⟨some "UDP", some 53, some 60⟩) ∧
      HostFaithful (hostPolicy "TCP") := by
  obtain ⟨hnova, hhost⟩ := admitted_policies_compile_iff bareCompiler identityOrder []
  constructor
  · refine (hnova _ (by decide +kernel)).mpr ?_
    intro call hcall
    rw [calls_egressPolicy, mem_singleton] at hcall
    rw [hcall]
    refine ⟨by decide, fun _ p hp t ht => ?_⟩
    rw [mem_singleton.mp hp] at ht ⊢
    cases ht
    refine ⟨.inr (.inl rfl), ?_⟩
    rintro ⟨v, e, hv, he, hlarge⟩
    cases hv
    cases he
    exact absurd hlarge (by decide)
  · exact (hhost (hostPolicy "TCP") (by decide +kernel)).mpr (by decide)

/-- A protocol in lower case becomes TCP in one compiler and any protocol in the other, and a
range of more than 100 ports becomes port 0. -/
theorem admitted_policies_miscompile :
    (validateNovaNetworkPolicySpec (egressPolicy ⟨some "udp", some 53, none⟩).spec = [] ∧
      ¬ bareCompiler.NovaFaithful identityOrder [] (egressPolicy ⟨some "udp", some 53, none⟩)) ∧
    (validateNovaNetworkPolicySpec (egressPolicy ⟨some "TCP", some 8000, some 8200⟩).spec = [] ∧
      ¬ bareCompiler.NovaFaithful identityOrder [] (egressPolicy ⟨some "TCP", some 8000, some 8200⟩)) ∧
    validateHostEndpointPolicySpec (hostPolicy "udp").spec = [] ∧
      ¬ HostFaithful (hostPolicy "udp") := by
  have hwritten (p : NovaNetworkPolicyPort) (t : String) (ht : p.protocol = some t)
      (haccepted : validateNovaNetworkPolicySpec (egressPolicy p).spec = [])
      (h : bareCompiler.NovaFaithful identityOrder [] (egressPolicy p)) :
      (protocolNamed t = some .tcp ∨ t = "UDP" ∨ t = "SCTP") ∧ ¬ p.LargeRange := by
    have hcall := (novaFaithful_iff haccepted).mp h (egressCall p) mem_cons_self
    exact hcall.2 (hasPeer_egressCall p) p mem_cons_self t ht
  have hlower : validateNovaNetworkPolicySpec (egressPolicy ⟨some "udp", some 53, none⟩).spec = [] := by
    decide +kernel
  have hlarge :
      validateNovaNetworkPolicySpec (egressPolicy ⟨some "TCP", some 8000, some 8200⟩).spec = [] := by
    decide +kernel
  have hhost : validateHostEndpointPolicySpec (hostPolicy "udp").spec = [] := by decide +kernel
  refine ⟨⟨hlower, fun h => ?_⟩, ⟨hlarge, fun h => ?_⟩, hhost, fun h => ?_⟩
  · exact absurd (hwritten _ "udp" rfl hlower h).1 (by decide)
  · exact (hwritten _ "TCP" rfl hlarge h).2 ⟨8000, 8200, rfl, rfl, by decide⟩
  · exact absurd ((hostFaithful_iff hhost).mp h).1 (by decide)

end Example

end NovaPolicies

end NovaNet
