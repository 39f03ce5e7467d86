import NovaNet.Admission
import NovaNet.Compiler

/-! The compiler of NovaNetworkPolicy objects (internal/policy/extended.go). It shares the
resolution of selectors with the compiler of NetworkPolicy objects and expands port ranges in a
loop over 16-bit numbers; `fuel` bounds the turns of that loop. -/

namespace NovaNet

open List Option

structure NovaNetworkPolicy where
  namespace_ : String
  spec : NovaNetworkPolicySpec

def maxExpandablePortRange : Int := 100

def extendedProtocol (protocol : Option String) : UInt8 :=
  match protocol with
  | none => Protocol.tcp.number
  | some t =>
    if t = "TCP" then Protocol.tcp.number
    else if t = "UDP" then Protocol.udp.number
    else if t = "SCTP" then Protocol.sctp.number
    else Protocol.tcp.number

def expandRange : Nat → UInt16 → UInt16 → Option (List UInt16)
  | 0, _, _ => none
  | fuel + 1, port, endPort =>
    if port ≤ endPort then (expandRange fuel (port + 1) endPort).map (port :: ·) else some []

def resolveExtendedPort (fuel : Nat) (p : NovaNetworkPolicyPort) : Option (List PortProto) :=
  let proto := extendedProtocol p.protocol
  match p.port with
  | none => some [⟨proto, 0⟩]
  | some portVal =>
    if portVal < 0 ∨ portVal > 65535 then some []
    else
      let startPort := UInt16.ofNat portVal.toNat
      match p.endPort with
      | none => some [⟨proto, startPort⟩]
      | some endPortVal =>
        if endPortVal < 0 ∨ endPortVal > 65535 then some []
        else
          let endPort := UInt16.ofNat endPortVal.toNat
          let rangeSize := endPortVal - portVal + 1
          if rangeSize ≤ 0 then some []
          else if rangeSize > maxExpandablePortRange then some [⟨proto, 0⟩]
          else (expandRange fuel startPort endPort).map fun ports => ports.map (⟨proto, ·⟩)

def concatAll {α : Type} : List (Option (List α)) → Option (List α)
  | [] => some []
  | x :: l => x.bind fun b => (concatAll l).map (b ++ ·)

def resolveExtendedPorts (fuel : Nat) (nnpPorts : List NovaNetworkPolicyPort) :
    Option (List PortProto) :=
  concatAll (nnpPorts.map (resolveExtendedPort fuel))

def hasExtendedPolicyType (nnp : NovaNetworkPolicy) (pt : String) : Bool :=
  if nnp.spec.policyTypes.length = 0 then pt = policyTypeIngress
  else nnp.spec.policyTypes.contains pt

def buildFQDNCIDRRules (cidrs : List String) (fixedID : UInt64) (ports : List PortProto)
    (isEgress : Bool) (ns : String) : List CompiledRule :=
  buildCIDRRules (cidrs.map (⟨·, actionAllow⟩)) fixedID ports isEgress ns

/-- `resolve` is what the DNS cache gives for a name. -/
structure ExtendedCompiler extends Compiler where
  resolve : String → List Net.IP

def resolveExtendedCIDRs (peers : List NovaNetworkPolicyPeer) : List CidrEntry :=
  peers.flatMap fun peer =>
    match peer.ipBlock with
    | some b => resolveIPBlockCIDRs b.cidr b.except
    | none => []

def hostCIDR (ip : Net.IP) : String := ip.string ++ if ip.to4.isSome then "/32" else "/128"

namespace ExtendedCompiler

variable (c : ExtendedCompiler) (o : IterOrder UInt64)

def resolveServiceAccountPeer (sa : ServiceAccountPeer) (policyNamespace : String) : UInt64 :=
  let ns := if sa.namespace_ = "" then policyNamespace else sa.namespace_
  hashLabels c.hash
    (((∅ : Labels).insert namespaceLabel ns).insert "novanet.io/service-account" sa.name)

def resolveExtendedPeers (site : List Nat) (peers : List NovaNetworkPolicyPeer) (ns : String) :
    List UInt64 :=
  (peers.mapIdx fun i peer =>
    if peer.ipBlock.isSome ∨ peer.fqdn.isSome then []
    else
      match peer.serviceAccount with
      | some sa => [c.resolveServiceAccountPeer sa ns]
      | none =>
        c.resolvePodAndNsPeers o (i :: site) peer.podSelector peer.namespaceSelector ns).flatten

def resolveFQDNPeers (peers : List NovaNetworkPolicyPeer) : List String :=
  peers.flatMap fun peer =>
    match peer.fqdn with
    | some name => (c.resolve name).map hostCIDR
    | none => []

def directionalRules (site : List Nat) (peers : List NovaNetworkPolicyPeer) (fixedID : UInt64)
    (isEgress : Bool) (ns : String) (ports : List PortProto) : List CompiledRule :=
  let identities :=
    if peers.length = 0 then [wildcardIdentity] else c.resolveExtendedPeers o site peers ns
  buildIdentityRules identities fixedID ports isEgress ns ++
    (buildCIDRRules (resolveExtendedCIDRs peers) fixedID ports isEgress ns ++
      buildFQDNCIDRRules (c.resolveFQDNPeers peers) fixedID ports isEgress ns)

/-- Ports that are all skipped are treated like no ports at all. -/
def compileDirectionalRule (fuel : Nat) (site : List Nat) (peers : List NovaNetworkPolicyPeer)
    (nnpPorts : List NovaNetworkPolicyPort) (fixedID : UInt64) (isEgress : Bool) (ns : String) :
    Option (List CompiledRule) :=
  (resolveExtendedPorts fuel nnpPorts).map fun ports =>
    c.directionalRules o site peers fixedID isEgress ns (if ports.length = 0 then [⟨0, 0⟩] else ports)

def compileIngressRule (fuel : Nat) (site : List Nat) (rule : NovaNetworkPolicyIngressRule)
    (dstIdentity : UInt64) (ns : String) : Option (List CompiledRule) :=
  c.compileDirectionalRule o fuel site rule.from_ rule.ports dstIdentity false ns

def compileEgressRule (fuel : Nat) (site : List Nat) (rule : NovaNetworkPolicyEgressRule)
    (srcIdentity : UInt64) (ns : String) : Option (List CompiledRule) :=
  c.compileDirectionalRule o fuel site rule.to_ rule.ports srcIdentity true ns

def compileIngress (fuel : Nat) (site : List Nat) (nnp : NovaNetworkPolicy) (targetID : UInt64) :
    Option (List CompiledRule) :=
  if hasExtendedPolicyType nnp policyTypeIngress then
    if nnp.spec.ingress.length = 0 then
      some [{ srcIdentity := wildcardIdentity, dstIdentity := targetID, protocol := 0, dstPort := 0,
              action := actionDeny, cidr := "", isEgress := false, namespace_ := nnp.namespace_ }]
    else
      concatAll (nnp.spec.ingress.mapIdx fun i rule =>
        c.compileIngressRule o fuel (i :: 0 :: site) rule targetID nnp.namespace_)
  else some []

def compileEgress (fuel : Nat) (site : List Nat) (nnp : NovaNetworkPolicy) (targetID : UInt64) :
    Option (List CompiledRule) :=
  if hasExtendedPolicyType nnp policyTypeEgress then
    if nnp.spec.egress.length = 0 then
      some [{ srcIdentity := targetID, dstIdentity := wildcardIdentity, protocol := 0, dstPort := 0,
              action := actionDeny, cidr := "", isEgress := true, namespace_ := nnp.namespace_ }]
    else
      concatAll (nnp.spec.egress.mapIdx fun i rule =>
        c.compileEgressRule o fuel (i :: 1 :: site) rule targetID nnp.namespace_)
  else some []

def targetIdentities (site : List Nat) (nnp : NovaNetworkPolicy) : List UInt64 :=
  c.selectorToIdentities o (0 :: site) nnp.spec.podSelector nnp.namespace_

def compilePolicy (fuel : Nat) (site : List Nat) (nnp : NovaNetworkPolicy) :
    Option (List CompiledRule) :=
  concatAll ((c.targetIdentities o site nnp).mapIdx fun j targetID =>
    concatAll [c.compileIngress o fuel (j :: 1 :: site) nnp targetID,
      c.compileEgress o fuel (j :: 1 :: site) nnp targetID])

end ExtendedCompiler

section Joins

variable {α : Type}

variable {l : List (Option (List α))} {r : List α}

theorem concatAll_eq_some :
    concatAll l = some r ↔ ∃ blocks : List (List α), l = blocks.map some ∧ r = blocks.flatten := by
  induction l generalizing r with
  | nil =>
    simp only [concatAll, Option.some.injEq]
    constructor
    · rintro rfl
      exact ⟨[], rfl, rfl⟩
    · rintro ⟨blocks, hnil, rfl⟩
      rw [map_eq_nil_iff.mp hnil.symm]
      rfl
  | cons x l ih =>
    simp only [concatAll, bind_eq_some_iff, map_eq_some_iff, ih]
    constructor
    · rintro ⟨b, rfl, rest, ⟨blocks, rfl, rfl⟩, rfl⟩
      exact ⟨b :: blocks, rfl, rfl⟩
    · rintro ⟨blocks, hl, rfl⟩
      obtain ⟨b, blocks, rfl, rfl, rfl⟩ := map_eq_cons_iff.mp hl.symm
      exact ⟨b, rfl, _, ⟨blocks, rfl, rfl⟩, rfl⟩

theorem concatAll_isSome : (∃ r, concatAll l = some r) ↔ ∀ x ∈ l, ∃ b, x = some b := by
  simp only [concatAll_eq_some]
  constructor
  · rintro ⟨r, blocks, rfl, -⟩ x hx
    obtain ⟨b, -, rfl⟩ := List.mem_map.mp hx
    exact ⟨b, rfl⟩
  · intro h
    refine ⟨_, l.map (Option.getD · []), ?_, rfl⟩
    rw [List.map_map, eq_comm]
    conv_rhs => rw [← List.map_id l]
    refine map_congr_left fun x hx => ?_
    obtain ⟨b, rfl⟩ := h x hx
    rfl

theorem mem_of_concatAll (h : concatAll l = some r) {a : α} : a ∈ r ↔ ∃ b, some b ∈ l ∧ a ∈ b := by
  obtain ⟨blocks, rfl, rfl⟩ := concatAll_eq_some.mp h
  simp

end Joins

section Expansion

theorem expandRange_none (fuel : Nat) (port : UInt16) : expandRange fuel port 65535 = none := by
  induction fuel generalizing port with
  | zero => rfl
  | succ fuel ih =>
    have hle : port ≤ 65535 := by
      rw [UInt16.le_iff_toNat_le]
      exact Nat.le_of_lt_succ port.toNat_lt
    rw [expandRange, if_pos hle, ih, map_none]

variable {ports : List NovaNetworkPolicyPort} {pairs : List PortProto} {port endPort : UInt16}
  {fuel' : Nat}

theorem expandRange_eq (hlast : endPort ≠ 65535) {fuel : Nat}
    (hfuel : endPort.toNat + 1 - port.toNat < fuel) : expandRange fuel port endPort =
      some ((List.range' port.toNat (endPort.toNat + 1 - port.toNat)).map UInt16.ofNat) := by
  have hlt : endPort.toNat < 65535 := by
    have hne : endPort.toNat ≠ 65535 := fun h => hlast (UInt16.toNat_inj.mp h)
    have hsize := endPort.toNat_lt
    omega
  induction fuel generalizing port with
  | zero => omega
  | succ fuel ih =>
    rw [expandRange]
    by_cases hle : port ≤ endPort
    · have hle' := UInt16.le_iff_toNat_le.mp hle
      have hnext : (port + 1).toNat = port.toNat + 1 := by
        rw [UInt16.toNat_add, UInt16.toNat_one]
        omega
      have hcount : endPort.toNat + 1 - port.toNat = endPort.toNat + 1 - (port + 1).toNat + 1 := by
        omega
      rw [if_pos hle, ih (by omega), hcount, range'_succ, hnext]
      simp
    · have hgt : endPort.toNat < port.toNat := by
        rw [UInt16.le_iff_toNat_le] at hle
        omega
      have hzero : endPort.toNat + 1 - port.toNat = 0 := by omega
      rw [if_neg hle, hzero]
      rfl

theorem expandRange_mono {fuel : Nat} {ports : List UInt16} (hle : fuel ≤ fuel')
    (h : expandRange fuel port endPort = some ports) :
    expandRange fuel' port endPort = some ports := by
  induction fuel generalizing fuel' port ports with
  | zero => cases h
  | succ fuel ih =>
    obtain ⟨n, rfl⟩ := Nat.exists_eq_add_of_le hle
    rw [Nat.add_right_comm, expandRange]
    rw [expandRange] at h
    split
    · rename_i hport
      rw [if_pos hport] at h
      obtain ⟨rest, hrest, rfl⟩ := map_eq_some_iff.mp h
      rw [ih (Nat.le_add_right fuel n) hrest]
      rfl
    · rename_i hport
      rwa [if_neg hport] at h

/-- A range of at most 100 ports that ends at the last port number: its loop has no end. -/
def NovaNetworkPolicyPort.Overruns (p : NovaNetworkPolicyPort) : Prop :=
  p.endPort = some 65535 ∧ ∃ v ∈ p.port, 65435 < v ∧ v ≤ 65535

instance : DecidablePred NovaNetworkPolicyPort.Overruns := fun _ =>
  inferInstanceAs (Decidable (_ ∧ ∃ v ∈ _, _))

def portSpan (proto : UInt8) (v e : Int) : List PortProto :=
  (List.range' v.toNat (e - v + 1).toNat).map fun q => ⟨proto, UInt16.ofNat q⟩

def extendedPairs (p : NovaNetworkPolicyPort) : List PortProto :=
  let proto := extendedProtocol p.protocol
  match p.port, p.endPort with
  | none, _ => [⟨proto, 0⟩]
  | some v, none => if v < 0 ∨ v > 65535 then [] else [⟨proto, UInt16.ofNat v.toNat⟩]
  | some v, some e =>
    if v < 0 ∨ e > 65535 ∨ e < v then []
    else if e - v + 1 > maxExpandablePortRange then [⟨proto, 0⟩]
    else portSpan proto v e

variable {p : NovaNetworkPolicyPort} {fuel : Nat}

theorem expandRange_span {v e : Int} (hv : 0 ≤ v) (hle : v ≤ e) (he : e < 65535)
    (hfuel : (e - v + 1).toNat < fuel) (proto : UInt8) :
    (expandRange fuel (UInt16.ofNat v.toNat) (UInt16.ofNat e.toNat)).map
      (fun ports => ports.map (⟨proto, ·⟩)) = some (portSpan proto v e) := by
  have hsize : UInt16.size = 65536 := rfl
  have hstart : (UInt16.ofNat v.toNat).toNat = v.toNat := UInt16.toNat_ofNat_of_lt' (by omega)
  have hend : (UInt16.ofNat e.toNat).toNat = e.toNat := UInt16.toNat_ofNat_of_lt' (by omega)
  have hlast : UInt16.ofNat e.toNat ≠ 65535 := by
    intro heq
    have hnat : (UInt16.ofNat e.toNat).toNat = 65535 := by rw [heq]; rfl
    omega
  have hcount : e.toNat + 1 - v.toNat = (e - v + 1).toNat := by omega
  rw [expandRange_eq hlast (by rw [hstart, hend, hcount]; exact hfuel), hstart, hend, hcount]
  simp [portSpan, Function.comp_def]

theorem resolveExtendedPort_of_overruns (h : p.Overruns) (fuel : Nat) :
    resolveExtendedPort fuel p = none := by
  obtain ⟨hend, v, hv, hgt, hle⟩ := h
  have hlarge : ¬ ((65535 : Int) - v + 1 > maxExpandablePortRange) := by
    unfold maxExpandablePortRange
    omega
  rw [Option.mem_def] at hv
  simp only [resolveExtendedPort, hv, hend]
  rw [if_neg (by omega), if_neg (by omega), if_neg (by omega), if_neg hlarge]
  rw [show UInt16.ofNat (65535 : Int).toNat = 65535 from rfl, expandRange_none]
  rfl

theorem resolveExtendedPort_eq (h : ¬ p.Overruns) (hfuel : 100 < fuel) :
    resolveExtendedPort fuel p = some (extendedPairs p) := by
  unfold resolveExtendedPort extendedPairs
  cases hport : p.port with
  | none => rfl
  | some v =>
    cases hend : p.endPort with
    | none =>
      simp only
      split <;> rfl
    | some e =>
      by_cases hv : v < 0 ∨ v > 65535
      · have hskip : v < 0 ∨ e > 65535 ∨ e < v := by omega
        simp only [if_pos hv, if_pos hskip]
      · by_cases he : e < 0 ∨ e > 65535
        · have hskip : v < 0 ∨ e > 65535 ∨ e < v := by omega
          simp only [if_neg hv, if_pos he, if_pos hskip]
        · by_cases hsize : e - v + 1 ≤ 0
          · have hskip : v < 0 ∨ e > 65535 ∨ e < v := by omega
            simp only [if_neg hv, if_neg he, if_pos hsize, if_pos hskip]
          · have hkeep : ¬ (v < 0 ∨ e > 65535 ∨ e < v) := by omega
            simp only [if_neg hv, if_neg he, if_neg hsize, if_neg hkeep]
            split
            · rfl
            · rename_i hsmall
              unfold maxExpandablePortRange at hsmall
              have hbelow : e < 65535 := by
                by_contra hlast
                have heq : e = 65535 := by omega
                exact h ⟨by rw [hend, heq], v, hport, by omega, by omega⟩
              exact expandRange_span (by omega) (by omega) hbelow (by omega) _

theorem resolveExtendedPort_mono (hle : fuel ≤ fuel')
    (h : resolveExtendedPort fuel p = some pairs) : resolveExtendedPort fuel' p = some pairs := by
  by_cases hover : p.Overruns
  · simp [resolveExtendedPort_of_overruns hover] at h
  · unfold resolveExtendedPort at h ⊢
    cases hport : p.port with
    | none => simpa only [hport] using h
    | some v =>
      cases hend : p.endPort with
      | none => simpa only [hport, hend] using h
      | some e =>
        simp only [hport, hend] at h ⊢
        split_ifs at h ⊢ with h1 h2 h3 h4
        · exact h
        · exact h
        · exact h
        · exact h
        · obtain ⟨ports, hports, rfl⟩ := map_eq_some_iff.mp h
          rw [expandRange_mono hle hports]
          rfl

theorem resolveExtendedPort_eq_some (h : resolveExtendedPort fuel p = some pairs) :
    ¬ p.Overruns ∧ pairs = extendedPairs p := by
  have hover : ¬ p.Overruns := by
    intro hover
    simp [resolveExtendedPort_of_overruns hover] at h
  have hmore := resolveExtendedPort_mono (Nat.le_add_right fuel 101) h
  rw [resolveExtendedPort_eq hover (by omega)] at hmore
  exact ⟨hover, (Option.some.inj hmore).symm⟩

theorem resolveExtendedPorts_eq (h : ∀ p ∈ ports, ¬ p.Overruns) (hfuel : 100 < fuel) :
    resolveExtendedPorts fuel ports = some (ports.flatMap extendedPairs) := by
  refine concatAll_eq_some.mpr ⟨ports.map extendedPairs, ?_, rfl⟩
  rw [List.map_map]
  exact map_congr_left fun p hp => resolveExtendedPort_eq (h p hp) hfuel

theorem resolveExtendedPorts_eq_some (h : resolveExtendedPorts fuel ports = some pairs) :
    (∀ p ∈ ports, ¬ p.Overruns) ∧ pairs = ports.flatMap extendedPairs := by
  have hover : ∀ p ∈ ports, ¬ p.Overruns := by
    intro p hp
    obtain ⟨b, hb⟩ := concatAll_isSome.mp ⟨pairs, h⟩ _ (List.mem_map_of_mem hp)
    exact (resolveExtendedPort_eq_some hb).1
  obtain ⟨blocks, hblocks, rfl⟩ := concatAll_eq_some.mp h
  refine ⟨hover, ?_⟩
  rw [flatMap_def]
  congr 1
  apply map_injective_iff.mpr (some_injective _)
  rw [← hblocks, List.map_map]
  refine map_congr_left fun p hp => ?_
  obtain ⟨b, hb⟩ := concatAll_isSome.mp ⟨_, h⟩ _ (List.mem_map_of_mem hp)
  rw [hb, (resolveExtendedPort_eq_some hb).2]
  rfl

end Expansion

structure EmitsRange (fuel : Nat) (p : NovaNetworkPolicyPort) (pairs : List PortProto) : Prop where
  block : resolveExtendedPort fuel p = some pairs
  range : ∀ v e, p.port = some v → p.endPort = some e → e - v + 1 ≤ 100 →
    pairs = (List.range' v.toNat (e - v + 1).toNat).map fun q =>
      ⟨extendedProtocol p.protocol, UInt16.ofNat q⟩

/-- On accepted entries the expansion ends, and gives each small range port by port, exactly when
no small range ends at the last port number. -/
theorem resolveExtendedPorts_expands_iff {ports : List NovaNetworkPolicyPort} {path : FieldPath}
    (haccepted : validateNetworkPolicyPorts ports path = []) :
    (∃ fuel blocks, resolveExtendedPorts fuel ports = some blocks.flatten ∧
      List.Forall₂ (EmitsRange fuel) ports blocks) ↔ ∀ p ∈ ports, ¬ p.Overruns := by
  have hvalid := validateNetworkPolicyPorts_eq_nil.mp haccepted
  constructor
  · rintro ⟨fuel, blocks, h, -⟩
    exact (resolveExtendedPorts_eq_some h).1
  · intro h
    refine ⟨101, ports.map extendedPairs, resolveExtendedPorts_eq h (by omega), ?_⟩
    rw [List.forall₂_map_right_iff, List.forall₂_same]
    intro p hp
    refine ⟨resolveExtendedPort_eq (h p hp) (by omega), fun v e hv he hsize => ?_⟩
    obtain ⟨v', hv', hle, hlast⟩ := (hvalid p hp).range e he
    simp [hv] at hv'
    have hpos := (hvalid p hp).port v hv
    have hkeep : ¬ (v < 0 ∨ e > 65535 ∨ e < v) := by omega
    have hsmall : ¬ (e - v + 1 > maxExpandablePortRange) := by
      unfold maxExpandablePortRange
      omega
    simp only [extendedPairs, hv, he, if_neg hkeep, if_neg hsmall, portSpan]

section Example

def lowRange : List NovaNetworkPolicyPort := [⟨some "UDP", some 8000, some 8003⟩]

def highRange : List NovaNetworkPolicyPort := [⟨some "UDP", some 65530, some 65535⟩]

theorem resolveExtendedPorts_expands_example : ∃ fuel blocks,
    resolveExtendedPorts fuel lowRange = some blocks.flatten ∧
      List.Forall₂ (EmitsRange fuel) lowRange blocks := by
  have haccepted : validateNetworkPolicyPorts lowRange "ports" = [] := by decide +kernel
  exact (resolveExtendedPorts_expands_iff haccepted).mpr (by decide)

/-- The range up to the last port is accepted, and its expansion never ends. -/
theorem highRange_diverges : validateNetworkPolicyPorts highRange "ports" = [] ∧
    ∀ fuel, resolveExtendedPorts fuel highRange = none := by
  refine ⟨by decide +kernel, fun fuel => ?_⟩
  have hover : NovaNetworkPolicyPort.Overruns ⟨some "UDP", some 65530, some 65535⟩ := by decide
  simp [resolveExtendedPorts, highRange, resolveExtendedPort_of_overruns hover, concatAll]

end Example

end NovaNet
