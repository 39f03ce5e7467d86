import NovaNet.Admission
import NovaNet.PolicyMap

/-! The compiler of HostEndpointPolicy objects (internal/hostfirewall/manager.go): one rule for
every combination of a CIDR and a port of a host rule. -/

namespace NovaNet

open List

structure HostEndpointPolicy where
  name : String
  spec : HostEndpointPolicySpec

inductive Direction where
  | ingress
  | egress
  deriving DecidableEq

def Direction.text : Direction → String
  | .ingress => "ingress"
  | .egress => "egress"

structure CompiledHostRule where
  ruleId : String
  direction : Direction
  protocol : UInt8
  cidr : Net.IPNet
  port : UInt16
  endPort : UInt16
  action : UInt8
  policyName : String
  deriving DecidableEq

structure PortRange where
  port : UInt16
  endPort : UInt16
  deriving DecidableEq

inductive HostRuleError where
  | unknownAction (action : String)
  | invalidCIDR (cidr : String)
  deriving DecidableEq

structure HostFirewallError where
  direction : Direction
  rule : Nat
  cause : HostRuleError
  deriving DecidableEq

def convertAction (action : String) : Except HostRuleError UInt8 :=
  if action = hostRuleActionAllow then .ok actionAllow
  else if action = hostRuleActionDeny then .ok actionDeny
  else .error (.unknownAction action)

/-- A text that is not known stands for any protocol. -/
def convertProtocol (protocol : Option String) : UInt8 :=
  match protocol with
  | none => 0
  | some t =>
    if t = "TCP" then Protocol.tcp.number
    else if t = "UDP" then Protocol.udp.number
    else if t = "SCTP" then Protocol.sctp.number
    else 0

def parseHostCIDR (cidr : String) : Except HostRuleError Net.IPNet :=
  match Net.parseCIDR cidr with
  | some net => .ok net
  | none => .error (.invalidCIDR cidr)

def parseCIDRs (cidrs : List String) : Except HostRuleError (List Net.IPNet) :=
  cidrs.mapM parseHostCIDR

def allAddresses : Net.IPNet := ⟨.v4 0, 0⟩

def int32ToUInt16 (port : Int) : UInt16 :=
  if port < 0 ∨ port > 65535 then 0 else UInt16.ofNat port.toNat

def expandPorts (ports : List HostPort) : List PortRange :=
  (ports.filter fun p => ¬ (p.port < 0 ∨ p.port > 65535)).map fun p =>
    ⟨int32ToUInt16 p.port, (p.endPort.map int32ToUInt16).getD 0⟩

def compileHostRule (policyName : String) (dir : Direction) (idx : Nat) (rule : HostRule) :
    Except HostRuleError (List CompiledHostRule) := do
  let action ← convertAction rule.action
  let proto := convertProtocol rule.protocol
  let cidrs ← parseCIDRs rule.cidrs
  let cidrs := if cidrs.length = 0 then [allAddresses] else cidrs
  let ports := expandPorts rule.ports
  let ports := if ports.length = 0 then [⟨0, 0⟩] else ports
  .ok ((cidrs.flatMap fun cidr => ports.map fun pr => (cidr, pr)).mapIdx fun k e =>
    { ruleId := policyName ++ "/" ++ dir.text ++ "/" ++ Nat.repr (idx + k)
      direction := dir
      protocol := proto
      cidr := e.1
      port := e.2.port
      endPort := e.2.endPort
      action := action
      policyName := policyName })

def compileRulesFrom (policyName : String) (dir : Direction) :
    Nat → Nat → List HostRule → Except HostFirewallError (List CompiledHostRule)
  | _, _, [] => .ok []
  | i, idx, rule :: rules =>
    match compileHostRule policyName dir idx rule with
    | .error cause => .error ⟨dir, i, cause⟩
    | .ok block =>
      (compileRulesFrom policyName dir (i + 1) (idx + block.length) rules).map (block ++ ·)

def compileRules (policyName : String) (dir : Direction) (rules : List HostRule) :
    Except HostFirewallError (List CompiledHostRule) :=
  compileRulesFrom policyName dir 0 0 rules

def compileHostPolicy (policy : HostEndpointPolicy) :
    Except HostFirewallError (List CompiledHostRule) := do
  let ingressRules ← compileRules policy.name .ingress policy.spec.ingress
  let egressRules ← compileRules policy.name .egress policy.spec.egress
  .ok (ingressRules ++ egressRules)

section Blocks

def HostPort.CarriedBy (hp : HostPort) (r : CompiledHostRule) : Prop :=
  (r.port.toNat : Int) = hp.port ∧ (r.endPort.toNat : Int) = hp.endPort.getD 0

variable {policyName : String} {dir : Direction} {idx : Nat} {rule : HostRule}

theorem int32ToUInt16_toNat {v : Int} (h : 0 ≤ v ∧ v ≤ 65535) :
    ((int32ToUInt16 v).toNat : Int) = v := by
  have hsize : UInt16.size = 65536 := rfl
  rw [int32ToUInt16, if_neg (by omega), UInt16.toNat_ofNat_of_lt' (by omega)]
  omega

theorem parseCIDR_of_valid {cidr : String} (h : validateCIDR cidr = none) :
    ∃ net, parseHostCIDR cidr = .ok net := by
  unfold validateCIDR at h
  unfold parseHostCIDR
  cases hp : Net.parseCIDR cidr with
  | none => rw [hp] at h; cases h
  | some net => exact ⟨net, rfl⟩

theorem parseCIDRs_of_valid {cidrs : List String} (h : ∀ cidr ∈ cidrs, validateCIDR cidr = none) :
    ∃ nets, parseCIDRs cidrs = .ok nets := by
  unfold parseCIDRs
  induction cidrs with
  | nil => exact ⟨[], rfl⟩
  | cons cidr cidrs ih =>
    obtain ⟨hcidr, hrest⟩ := forall_mem_cons.mp h
    obtain ⟨net, hnet⟩ := parseCIDR_of_valid hcidr
    obtain ⟨nets, hnets⟩ := ih hrest
    exact ⟨net :: nets, by rw [mapM_cons, hnet, hnets]; rfl⟩

theorem convertAction_of_valid {action : String}
    (h : action = hostRuleActionAllow ∨ action = hostRuleActionDeny) :
    ∃ a, convertAction action = .ok a := by
  rcases h with rfl | rfl
  · exact ⟨actionAllow, rfl⟩
  · exact ⟨actionDeny, rfl⟩

theorem compileHostRule_of_valid (policyName : String) (dir : Direction) (idx : Nat)
    (h : rule.Valid) : ∃ block, compileHostRule policyName dir idx rule = .ok block ∧ block ≠ [] ∧
      ∀ r ∈ block, r.protocol = convertProtocol rule.protocol ∧
        (rule.ports = [] ∨ ∃ hp ∈ rule.ports, hp.CarriedBy r) := by
  obtain ⟨action, haction⟩ := convertAction_of_valid h.action
  obtain ⟨nets, hnets⟩ := parseCIDRs_of_valid h.cidrs
  unfold compileHostRule
  rw [haction, hnets]
  refine ⟨_, rfl, ?_, ?_⟩
  · have hcidrs : (if nets.length = 0 then [allAddresses] else nets) ≠ [] := by
      split
      · simp
      · rename_i hlen
        simpa using hlen
    have hports : (if (expandPorts rule.ports).length = 0 then [(⟨0, 0⟩ : PortRange)]
        else expandPorts rule.ports) ≠ [] := by
      split
      · simp
      · rename_i hlen
        simpa using hlen
    obtain ⟨net, hnet⟩ := exists_mem_of_ne_nil _ hcidrs
    obtain ⟨pr, hpr⟩ := exists_mem_of_ne_nil _ hports
    rw [Ne, mapIdx_eq_nil_iff]
    exact ne_nil_of_mem (mem_flatMap.mpr ⟨net, hnet, List.mem_map_of_mem hpr⟩)
  · intro r hr
    obtain ⟨k, hk, rfl⟩ := mem_mapIdx.mp hr
    refine ⟨rfl, ?_⟩
    obtain ⟨net, -, hmem⟩ := mem_flatMap.mp (getElem_mem hk)
    obtain ⟨pr, hpr, hpair⟩ := List.mem_map.mp hmem
    by_cases hnil : rule.ports = []
    · exact .inl hnil
    · -- every entry of a valid rule is kept
      have hkept : (expandPorts rule.ports).length ≠ 0 := by
        obtain ⟨hp, hhp⟩ := exists_mem_of_ne_nil _ hnil
        have hvalid := h.ports hp hhp
        have hmemf : hp ∈ rule.ports.filter fun p => ¬ (p.port < 0 ∨ p.port > 65535) :=
          mem_filter.mpr ⟨hhp, decide_eq_true (by have := hvalid.port; omega)⟩
        have hne := ne_nil_of_mem (List.mem_map_of_mem (f := fun p : HostPort =>
          (⟨int32ToUInt16 p.port, (p.endPort.map int32ToUInt16).getD 0⟩ : PortRange)) hmemf)
        simpa [expandPorts] using hne
      rw [if_neg hkept] at hpr
      obtain ⟨hp, hhp, rfl⟩ := List.mem_map.mp hpr
      have hvalid := h.ports hp (mem_filter.mp hhp).1
      refine .inr ⟨hp, (mem_filter.mp hhp).1, ?_⟩
      rw [HostPort.CarriedBy, ← hpair]
      refine ⟨int32ToUInt16_toNat (by have := hvalid.port; omega), ?_⟩
      cases he : hp.endPort with
      | none => rfl
      | some e =>
        have hrange := hvalid.range e he
        have hport := hvalid.port
        exact int32ToUInt16_toNat (by omega)

end Blocks

end NovaNet
