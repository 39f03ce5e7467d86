import NovaNet.CompilerSpec
import NovaNet.ExtendedCompiler

/-! The two policy compilers on what both kinds of policy can say. They share the resolution
of peers and differ in two places: the denial for an egress policy without rules, and port
numbers that are none. -/

namespace NovaNet

open List

section Translation

def Protocol.text : Protocol → String
  | .tcp => "TCP"
  | .udp => "UDP"
  | .sctp => "SCTP"

def PolicyType.text : PolicyType → String
  | .ingress => policyTypeIngress
  | .egress => policyTypeEgress

/-- A named port has no counterpart. -/
def IntOrString.number : IntOrString → Option Int
  | .int v => some v
  | .string _ => none

def NetworkPolicyPort.toNova (p : NetworkPolicyPort) : NovaNetworkPolicyPort :=
  ⟨p.protocol.map Protocol.text, p.port.bind IntOrString.number, p.endPort⟩

def NetworkPolicyPeer.toNova (peer : NetworkPolicyPeer) : NovaNetworkPolicyPeer :=
  ⟨peer.podSelector, peer.namespaceSelector, peer.ipBlock, none, none⟩

def NetworkPolicyIngressRule.toNova (r : NetworkPolicyIngressRule) :
    NovaNetworkPolicyIngressRule :=
  ⟨r.ports.map NetworkPolicyPort.toNova, r.from_.map NetworkPolicyPeer.toNova⟩

def NetworkPolicyEgressRule.toNova (r : NetworkPolicyEgressRule) : NovaNetworkPolicyEgressRule :=
  ⟨r.ports.map NetworkPolicyPort.toNova, r.to_.map NetworkPolicyPeer.toNova⟩

def NetworkPolicy.toNova (np : NetworkPolicy) : NovaNetworkPolicy :=
  ⟨np.namespace_, np.podSelector, np.policyTypes.map PolicyType.text,
    np.ingress.map NetworkPolicyIngressRule.toNova, np.egress.map NetworkPolicyEgressRule.toNova⟩

structure NetworkPolicy.NumericPorts (np : NetworkPolicy) : Prop where
  ingress : ∀ r ∈ np.ingress, ∀ p ∈ r.ports, p.Numeric
  egress : ∀ r ∈ np.egress, ∀ p ∈ r.ports, p.Numeric

end Translation

section Blocks

variable {α β : Type}

/-- `a` is no longer than `b`, and equals it exactly under `P`. -/
structure Agrees (a b : List β) (P : Prop) : Prop where
  length_le : a.length ≤ b.length
  eq_iff : a = b ↔ P

theorem Agrees.append {a a' b b' : List β} {P Q : Prop} (h : Agrees a b P) (h' : Agrees a' b' Q) :
    Agrees (a ++ a') (b ++ b') (P ∧ Q) := by
  have hle := h.length_le
  have hle' := h'.length_le
  constructor
  · rw [length_append, length_append]
    omega
  · rw [← h.eq_iff, ← h'.eq_iff]
    constructor
    · intro heq
      have hlen := congrArg length heq
      rw [length_append, length_append] at hlen
      exact append_inj heq (by omega)
    · rintro ⟨rfl, rfl⟩
      rfl

theorem Agrees.flatten {f g : Nat → α → List β} {l : List α} {P : α → Prop}
    (h : ∀ i, ∀ a ∈ l, Agrees (f i a) (g i a) (P a)) :
    Agrees (l.mapIdx f).flatten (l.mapIdx g).flatten (∀ a ∈ l, P a) := by
  induction l generalizing f g with
  | nil => exact ⟨Nat.le_refl _, by simp⟩
  | cons a l ih =>
    rw [mapIdx_cons, mapIdx_cons, flatten_cons, flatten_cons, forall_mem_cons]
    exact (h 0 a mem_cons_self).append (ih fun i b hb => h (i + 1) b (mem_cons_of_mem a hb))

theorem concatAll_map_some (blocks : List (List β)) :
    concatAll (blocks.map some) = some blocks.flatten :=
  concatAll_eq_some.mpr ⟨blocks, rfl, rfl⟩

end Blocks

section Ports

def numericPair (p : NetworkPolicyPort) : PortProto :=
  ⟨(p.protocol.getD .tcp).number, ((p.port.bind IntOrString.number).map numericPort).getD 0⟩

def NetworkPolicyPort.InRange (p : NetworkPolicyPort) : Prop :=
  ∀ v ∈ p.port.bind IntOrString.number, 0 ≤ v ∧ v ≤ 65535

instance : DecidablePred NetworkPolicyPort.InRange := fun p =>
  inferInstanceAs (Decidable (∀ v ∈ p.port.bind IntOrString.number, 0 ≤ v ∧ v ≤ 65535))

variable {p : NetworkPolicyPort} {c : Compiler}

theorem resolvePort_numeric (h : p.Numeric) (ns : String) (sel : LabelSelector) :
    c.resolvePort ns sel p = [numericPair p] := by
  obtain ⟨protocol, port, endPort⟩ := p
  cases port with
  | none => rfl
  | some v =>
    cases v with
    | int v => rfl
    | string s => exact absurd rfl (h.2 s)

theorem extendedProtocol_text (protocol : Option Protocol) :
    extendedProtocol (protocol.map Protocol.text) = (protocol.getD .tcp).number := by
  cases protocol with
  | none => rfl
  | some t => cases t <;> decide

theorem resolveExtendedPort_toNova (h : p.Numeric) (fuel : Nat) :
    resolveExtendedPort fuel p.toNova = some (if p.InRange then [numericPair p] else []) := by
  simp only [resolveExtendedPort, NetworkPolicyPort.toNova, h.1, extendedProtocol_text]
  cases hport : p.port.bind IntOrString.number with
  | none =>
    have hin : p.InRange := by simp [NetworkPolicyPort.InRange, hport]
    simp [hin, numericPair, hport]
  | some v =>
    have hin : p.InRange ↔ 0 ≤ v ∧ v ≤ 65535 := by simp [NetworkPolicyPort.InRange, hport]
    by_cases hv : v < 0 ∨ v > 65535
    · have hout : ¬ p.InRange := by
        rw [hin]
        omega
      simp only [if_pos hv, if_neg hout]
    · have hnum : numericPort v = UInt16.ofNat v.toNat := by
        rw [numericPort]
        split
        · rfl
        · have hzero : v = 0 := by omega
          rw [hzero]
          rfl
      have hin' : p.InRange := by
        rw [hin]
        omega
      simp [hv, hin', numericPair, hport, hnum]

def novaPorts (ports : List NetworkPolicyPort) : List PortProto :=
  let pairs := (ports.filter fun p => p.InRange).map numericPair
  if pairs.length = 0 then [⟨0, 0⟩] else pairs

variable {ports : List NetworkPolicyPort}

theorem rulePorts_numeric (h : ∀ p ∈ ports, p.Numeric) (ns : String) (sel : LabelSelector) :
    c.rulePorts ports ns sel = if ports = [] then [⟨0, 0⟩] else ports.map numericPair := by
  have hpairs : c.resolvePorts ports ns sel = ports.map numericPair := by
    rw [Compiler.resolvePorts, map_eq_flatMap]
    exact flatMap_congr fun p hp => resolvePort_numeric (h p hp) ns sel
  simp only [Compiler.rulePorts, hpairs, length_map, length_eq_zero_iff]

theorem resolveExtendedPorts_toNova (h : ∀ p ∈ ports, p.Numeric) (fuel : Nat) :
    resolveExtendedPorts fuel (ports.map NetworkPolicyPort.toNova) =
      some ((ports.filter fun p => p.InRange).map numericPair) := by
  rw [resolveExtendedPorts, map_map]
  have hblocks : ports.map (resolveExtendedPort fuel ∘ NetworkPolicyPort.toNova) =
      (ports.map fun p => if p.InRange then [numericPair p] else []).map some := by
    rw [map_map]
    exact map_congr_left fun p hp => resolveExtendedPort_toNova (h p hp) fuel
  rw [hblocks, concatAll_map_some, Option.some.injEq]
  clear h hblocks
  induction ports with
  | nil => rfl
  | cons p ports ih => by_cases hp : p.InRange <;> simp [hp, ih]

theorem length_novaPorts_le (h : ∀ p ∈ ports, p.Numeric) (ns : String) (sel : LabelSelector) :
    (novaPorts ports).length ≤ (c.rulePorts ports ns sel).length := by
  rw [rulePorts_numeric h, novaPorts]
  have hle := length_filter_le (fun p => decide p.InRange) ports
  cases ports with
  | nil => simp
  | cons p ports =>
    rw [if_neg (cons_ne_nil p ports)]
    split
    · simp
    · simpa using hle

theorem novaPorts_eq_iff (h : ∀ p ∈ ports, p.Numeric) (ns : String) (sel : LabelSelector) :
    novaPorts ports = c.rulePorts ports ns sel ↔ ∀ p ∈ ports, p.InRange := by
  rw [rulePorts_numeric h, novaPorts]
  constructor
  · intro heq
    cases ports with
    | nil => exact fun p hp => absurd hp not_mem_nil
    | cons q rest =>
      rw [if_neg (cons_ne_nil q rest)] at heq
      by_cases hnone : ((q :: rest).filter fun p => p.InRange).length = 0
      · -- all numbers are skipped, and what is left is a pair that no port gives
        simp only [length_map, hnone, if_true, map_cons, cons.injEq] at heq
        have hproto := congrArg PortProto.protocol heq.1
        exact absurd hproto.symm (Compiler.number_ne_zero _)
      · simp only [length_map, hnone, if_false] at heq
        have hlen := congrArg length heq
        rw [length_map, length_map] at hlen
        have hall := length_filter_eq_length_iff.mp hlen
        exact fun p hp => of_decide_eq_true (hall p hp)
  · intro hall
    have hfilter : (ports.filter fun p => p.InRange) = ports :=
      filter_eq_self.mpr fun p hp => decide_eq_true (hall p hp)
    simp only [hfilter, length_map, length_eq_zero_iff]

end Ports

section Rules

def rulesOver (ids : List UInt64) (cidrs : List CidrEntry) (fixedID : UInt64) (isEgress : Bool)
    (ns : String) (ports : List PortProto) : List CompiledRule :=
  buildIdentityRules ids fixedID ports isEgress ns ++ buildCIDRRules cidrs fixedID ports isEgress ns

def CompiledRule.pair (r : CompiledRule) : PortProto := ⟨r.protocol, r.dstPort⟩

open CompiledRule

variable {ids : List UInt64} {cidrs : List CidrEntry} {fixedID : UInt64} {isEgress : Bool}
  {ns : String} {ports ports' : List PortProto}

theorem map_pair_rulesOver : (rulesOver ids cidrs fixedID isEgress ns ports).map pair =
    (replicate (ids.length + cidrs.length) ports).flatten := by
  have hpairs {β : Type} (l : List β) {rule : β → PortProto → CompiledRule}
      (hrule : ∀ b pp, (rule b pp).pair = pp) :
      (l.flatMap fun b => ports.map (rule b)).map pair = (replicate l.length ports).flatten := by
    induction l with
    | nil => rfl
    | cons b l ih => simp [ih, replicate_succ, Function.comp_def, hrule]
  rw [rulesOver, buildIdentityRules, buildCIDRRules, map_append, hpairs ids fun _ _ => rfl,
    hpairs cidrs fun _ _ => rfl, replicate_add, flatten_append]

theorem length_rulesOver : (rulesOver ids cidrs fixedID isEgress ns ports).length =
    (ids.length + cidrs.length) * ports.length := by
  rw [← length_map (f := pair), map_pair_rulesOver]
  simp

theorem rulesOver_eq_iff : rulesOver ids cidrs fixedID isEgress ns ports =
      rulesOver ids cidrs fixedID isEgress ns ports' ↔
    ports = ports' ∨ ids = [] ∧ cidrs = [] := by
  constructor
  · intro h
    by_cases hnone : ids.length + cidrs.length = 0
    · rw [Nat.add_eq_zero_iff, length_eq_zero_iff, length_eq_zero_iff] at hnone
      exact .inr hnone
    · have hlen := congrArg length h
      rw [length_rulesOver, length_rulesOver] at hlen
      have hsame := Nat.eq_of_mul_eq_mul_left (Nat.pos_of_ne_zero hnone) hlen
      have hpairs := congrArg (map pair) h
      obtain ⟨n, hn⟩ := Nat.exists_eq_succ_of_ne_zero hnone
      rw [map_pair_rulesOver, map_pair_rulesOver, hn, replicate_succ, replicate_succ,
        flatten_cons, flatten_cons] at hpairs
      exact .inl (append_inj hpairs hsame).1
  · rintro (rfl | ⟨rfl, rfl⟩) <;> rfl

end Rules

namespace ExtendedCompiler

variable {e : ExtendedCompiler} {o : IterOrder UInt64} {site : List Nat}

theorem resolveExtendedPeers_toNova (peers : List NetworkPolicyPeer) (ns : String) :
    e.resolveExtendedPeers o site (peers.map NetworkPolicyPeer.toNova) ns =
      e.resolvePeers o site peers ns := by
  rw [resolveExtendedPeers, Compiler.resolvePeers]
  congr 1
  refine ext_getElem (by simp) fun i _ hi => ?_
  have hlt : i < peers.length := by simpa using hi
  cases hb : peers[i].ipBlock <;> simp [NetworkPolicyPeer.toNova, hb]

theorem resolveExtendedCIDRs_toNova (peers : List NetworkPolicyPeer) :
    resolveExtendedCIDRs (peers.map NetworkPolicyPeer.toNova) = resolvePeersWithIPBlock peers := by
  rw [resolveExtendedCIDRs, resolvePeersWithIPBlock, flatMap_map]
  rfl

theorem resolveFQDNPeers_toNova (peers : List NetworkPolicyPeer) :
    e.resolveFQDNPeers (peers.map NetworkPolicyPeer.toNova) = [] := by
  rw [resolveFQDNPeers, flatMap_map]
  exact flatMap_eq_nil_iff.mpr fun _ _ => rfl

variable (e o) in
def novaRule (site : List Nat) (peers : List NetworkPolicyPeer) (ports : List NetworkPolicyPort)
    (fixedID : UInt64) (isEgress : Bool) (ns : String) : List CompiledRule :=
  rulesOver (e.ruleIdentities o site peers ns) (resolvePeersWithIPBlock peers) fixedID isEgress ns
    (novaPorts ports)

theorem compileDirectionalRule_toNova {ports : List NetworkPolicyPort}
    (h : ∀ p ∈ ports, p.Numeric) (fuel : Nat) (peers : List NetworkPolicyPeer) (fixedID : UInt64)
    (isEgress : Bool) (ns : String) :
    e.compileDirectionalRule o fuel site (peers.map NetworkPolicyPeer.toNova)
      (ports.map NetworkPolicyPort.toNova) fixedID isEgress ns =
    some (e.novaRule o site peers ports fixedID isEgress ns) := by
  rw [compileDirectionalRule, resolveExtendedPorts_toNova h, Option.map_some]
  simp only [directionalRules, resolveExtendedPeers_toNova, resolveExtendedCIDRs_toNova,
    resolveFQDNPeers_toNova, length_map]
  rw [novaRule, rulesOver, novaPorts, Compiler.ruleIdentities]
  simp [buildFQDNCIDRRules, buildCIDRRules]

end ExtendedCompiler

section Condition

/-- The port numbers of the rule are ports, or no rule comes of its peers anyway. -/
def Compiler.SharedRule (c : Compiler) (ns : String) (peers : List NetworkPolicyPeer)
    (ports : List NetworkPolicyPort) : Prop :=
  (∀ p ∈ ports, p.InRange) ∨ (∀ id, ¬ c.PeersReach ns peers id) ∧ resolvePeersWithIPBlock peers = []

/-- What both compilers treat alike: an egress policy has a rule, and numbers of ports that are
used are ports. -/
structure Compiler.Shared (c : Compiler) (np : NetworkPolicy) : Prop where
  ingress : np.OfType .ingress → ∀ r ∈ np.ingress, c.SharedRule np.namespace_ r.from_ r.ports
  egress : np.OfType .egress →
    np.egress ≠ [] ∧ ∀ r ∈ np.egress, c.SharedRule np.namespace_ r.to_ r.ports

end Condition

namespace ExtendedCompiler

variable {e : ExtendedCompiler} {o : IterOrder UInt64} {site : List Nat}

section OneRule

variable {ports : List NetworkPolicyPort} (h : ∀ p ∈ ports, p.Numeric)
  (peers : List NetworkPolicyPeer) (fixedID : UInt64) (isEgress : Bool) (ns : String)
  (sel : LabelSelector)

include h

theorem agrees_novaRule : Agrees (e.novaRule o site peers ports fixedID isEgress ns)
    (rulesOver (e.ruleIdentities o site peers ns) (resolvePeersWithIPBlock peers) fixedID isEgress
      ns (e.rulePorts ports ns sel)) (e.SharedRule ns peers ports) := by
  have hnone : e.ruleIdentities o site peers ns = [] ↔ ∀ id, ¬ e.PeersReach ns peers id := by
    rw [eq_nil_iff_forall_not_mem]
    exact forall_congr' fun id => not_congr Compiler.mem_ruleIdentities
  constructor
  · rw [novaRule, length_rulesOver, length_rulesOver]
    exact Nat.mul_le_mul_left _ (length_novaPorts_le h ns sel)
  · rw [novaRule, rulesOver_eq_iff, novaPorts_eq_iff h, hnone, Compiler.SharedRule]

end OneRule

section OnePolicy

variable {np : NetworkPolicy}

theorem hasExtendedPolicyType_toNova (np : NetworkPolicy) (pt : PolicyType) :
    hasExtendedPolicyType np.toNova pt.text = hasPolicyType np pt := by
  have htext : ∀ a b : PolicyType, a.text = b.text ↔ a = b := by
    intro a b
    cases a <;> cases b <;> decide
  simp only [hasExtendedPolicyType, hasPolicyType, NetworkPolicy.toNova, length_map]
  split
  · exact decide_eq_decide.mpr (htext pt .ingress)
  · rw [Bool.eq_iff_iff, contains_iff_mem, contains_iff_mem, mem_map]
    simp [htext]

theorem concatAll_rules {α γ : Type} {l : List α} {toNova : α → γ}
    {f : Nat → γ → Option (List CompiledRule)} {g : Nat → α → List CompiledRule}
    (h : ∀ i, ∀ a ∈ l, f i (toNova a) = some (g i a)) :
    concatAll ((l.map toNova).mapIdx f) = some (l.mapIdx g).flatten := by
  have hblocks : (l.map toNova).mapIdx f = (l.mapIdx g).map some := by
    refine ext_getElem (by simp) fun i _ _ => ?_
    simp [h i _ (getElem_mem _)]
  rw [hblocks, concatAll_map_some]

variable (e o site np) in
def novaIngress (targetID : UInt64) : List CompiledRule :=
  if hasPolicyType np .ingress then
    if np.ingress.length = 0 then
      [{ srcIdentity := wildcardIdentity, dstIdentity := targetID, protocol := 0, dstPort := 0,
         action := actionDeny, cidr := "", isEgress := false, namespace_ := np.namespace_ }]
    else
      (np.ingress.mapIdx fun i rule =>
        e.novaRule o (i :: 0 :: site) rule.from_ rule.ports targetID false np.namespace_).flatten
  else []

variable (e o site np) in
/-- The denial for an egress policy without rules is an egress rule here. -/
def novaEgress (targetID : UInt64) : List CompiledRule :=
  if hasPolicyType np .egress then
    if np.egress.length = 0 then
      [{ srcIdentity := targetID, dstIdentity := wildcardIdentity, protocol := 0, dstPort := 0,
         action := actionDeny, cidr := "", isEgress := true, namespace_ := np.namespace_ }]
    else
      (np.egress.mapIdx fun i rule =>
        e.novaRule o (i :: 1 :: site) rule.to_ rule.ports targetID true np.namespace_).flatten
  else []

variable (hnum : np.NumericPorts)

include hnum

theorem compileIngress_toNova (fuel : Nat) (targetID : UInt64) :
    e.compileIngress o fuel site np.toNova targetID = some (e.novaIngress o site np targetID) := by
  have htype := hasExtendedPolicyType_toNova np .ingress
  rw [PolicyType.text] at htype
  rw [compileIngress, novaIngress, htype]
  split
  · simp only [NetworkPolicy.toNova, length_map]
    split
    · rfl
    · exact concatAll_rules fun i r hr =>
        compileDirectionalRule_toNova (hnum.ingress r hr) fuel r.from_ targetID false np.namespace_
  · rfl

theorem compileEgress_toNova (fuel : Nat) (targetID : UInt64) :
    e.compileEgress o fuel site np.toNova targetID = some (e.novaEgress o site np targetID) := by
  have htype := hasExtendedPolicyType_toNova np .egress
  rw [PolicyType.text] at htype
  rw [compileEgress, novaEgress, htype]
  split
  · simp only [NetworkPolicy.toNova, length_map]
    split
    · rfl
    · exact concatAll_rules fun i r hr =>
        compileDirectionalRule_toNova (hnum.egress r hr) fuel r.to_ targetID true np.namespace_
  · rfl

theorem agrees_novaIngress (targetID : UInt64) :
    Agrees (e.novaIngress o site np targetID) (e.toCompiler.compileIngress o site np targetID)
      (np.OfType .ingress → ∀ r ∈ np.ingress, e.SharedRule np.namespace_ r.from_ r.ports) := by
  rw [novaIngress, Compiler.compileIngress, ← hasPolicyType_iff]
  split
  · rename_i htype
    rw [forall_prop_of_true htype]
    split
    · rename_i hnil
      exact ⟨Nat.le_refl _, by simp [length_eq_zero_iff.mp hnil]⟩
    · exact .flatten fun i r hr => agrees_novaRule (hnum.ingress r hr) r.from_ targetID false
        np.namespace_ np.podSelector
  · rename_i htype
    exact ⟨Nat.le_refl _, by simp [htype]⟩

theorem agrees_novaEgress (targetID : UInt64) :
    Agrees (e.novaEgress o site np targetID) (e.toCompiler.compileEgress o site np targetID)
      (np.OfType .egress →
        np.egress ≠ [] ∧ ∀ r ∈ np.egress, e.SharedRule np.namespace_ r.to_ r.ports) := by
  rw [novaEgress, Compiler.compileEgress, ← hasPolicyType_iff]
  split
  · rename_i htype
    rw [forall_prop_of_true htype]
    split
    · rename_i hnil
      exact ⟨Nat.le_refl _, by simp [length_eq_zero_iff.mp hnil]⟩
    · rename_i hnil
      rw [and_iff_right (mt length_eq_zero_iff.mpr hnil)]
      exact .flatten fun i r hr => agrees_novaRule (hnum.egress r hr) r.to_ targetID true
        np.namespace_ .empty
  · rename_i htype
    exact ⟨Nat.le_refl _, by simp [htype]⟩

omit hnum in
theorem targetIdentities_toNova :
    e.targetIdentities o site np.toNova = e.toCompiler.targetIdentities o site np := rfl

theorem compilePolicy_toNova (fuel : Nat) : e.compilePolicy o fuel site np.toNova =
    some ((e.toCompiler.targetIdentities o site np).mapIdx fun j targetID =>
      e.novaIngress o (j :: 1 :: site) np targetID ++
        e.novaEgress o (j :: 1 :: site) np targetID).flatten := by
  rw [compilePolicy, targetIdentities_toNova]
  nth_rewrite 1 [← map_id (e.toCompiler.targetIdentities o site np)]
  apply concatAll_rules
  intro j targetID _
  rw [id, compileIngress_toNova hnum, compileEgress_toNova hnum]
  simp [concatAll]

end OnePolicy

/-- Compiled as objects of either kind, a policy gives the same rules exactly when it is shared. -/
theorem compilePolicy_agrees_iff (e : ExtendedCompiler) (o : IterOrder UInt64) (fuel : Nat)
    (site : List Nat) {np : NetworkPolicy} (hnum : np.NumericPorts) :
    e.compilePolicy o fuel site np.toNova = some (e.toCompiler.compilePolicy o site np) ↔
      e.Shared np := by
  have htargets : e.toCompiler.targetIdentities o site np ≠ [] := by
    rw [Compiler.targetIdentities, Compiler.selectorToIdentities]
    dsimp only
    split
    · split
      · rename_i hlen
        exact ne_nil_of_length_pos hlen
      · exact cons_ne_nil _ _
    · exact cons_ne_nil _ _
  obtain ⟨t, ht⟩ := exists_mem_of_ne_nil _ htargets
  rw [compilePolicy_toNova hnum, Option.some.injEq, Compiler.compilePolicy]
  refine (Agrees.flatten fun j t _ =>
    (agrees_novaIngress hnum t).append (agrees_novaEgress hnum t)).eq_iff.trans ?_
  exact ⟨fun h => ⟨(h t ht).1, (h t ht).2⟩, fun h _ _ => ⟨h.ingress, h.egress⟩⟩

end ExtendedCompiler

section Example

def freshCompiler : ExtendedCompiler :=
  { identityAllocator := .new, namespaceResolver := none, portResolver := none
    selectorOk := fun _ => true, hash := fun _ => 7, resolve := fun _ => [] }

def defaultEgress (rules : List NetworkPolicyEgressRule) : NetworkPolicy :=
  ⟨"default", .empty, [.egress], [], rules⟩

def toPort (v : Int) : NetworkPolicyEgressRule := ⟨[], [⟨some .udp, some (.int v), none⟩]⟩

theorem numericPorts_toPort (v : Int) : (defaultEgress [toPort v]).NumericPorts := by
  refine ⟨fun r hr => absurd hr not_mem_nil, fun r hr p hp => ?_⟩
  rw [mem_singleton.mp hr] at hp
  rw [mem_singleton.mp hp]
  exact ⟨rfl, fun s h => by cases h⟩

theorem compilePolicy_agrees_example :
    freshCompiler.compilePolicy identityOrder 0 [] (defaultEgress [toPort 53]).toNova =
      some (freshCompiler.toCompiler.compilePolicy identityOrder [] (defaultEgress [toPort 53])) := by
  apply (freshCompiler.compilePolicy_agrees_iff identityOrder 0 [] (numericPorts_toPort 53)).mpr
  constructor
  · exact fun _ r hr => absurd hr not_mem_nil
  · refine fun _ => ⟨cons_ne_nil _ _, fun r hr => .inl fun p hp => ?_⟩
    rw [mem_singleton.mp hr] at hp
    rw [mem_singleton.mp hp]
    decide

/-- The denial of an egress policy without rules, and a port number that is none. -/
theorem compilePolicy_disagrees :
    ((defaultEgress []).NumericPorts ∧
      freshCompiler.compilePolicy identityOrder 0 [] (defaultEgress []).toNova ≠
        some (freshCompiler.toCompiler.compilePolicy identityOrder [] (defaultEgress []))) ∧
    (defaultEgress [toPort 70000]).NumericPorts ∧
      freshCompiler.compilePolicy identityOrder 0 [] (defaultEgress [toPort 70000]).toNova ≠
        some (freshCompiler.toCompiler.compilePolicy identityOrder []
          (defaultEgress [toPort 70000])) := by
  have hnone : (defaultEgress []).NumericPorts :=
    ⟨fun r hr => absurd hr not_mem_nil, fun r hr => absurd hr not_mem_nil⟩
  exact ⟨⟨hnone, by decide +kernel⟩, numericPorts_toPort 70000, by decide +kernel⟩

end Example

end NovaNet
