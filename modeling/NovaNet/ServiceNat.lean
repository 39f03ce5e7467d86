import NovaNet.PacketRewrite
import NovaNet.ServiceLookup

/-! Address translation for services in the packet programs. The program on the host
interface translates both directions, the one on the tunnel interface only replies, and
the one behind a pod neither. -/

namespace NovaNet

inductive Translation where
  | unchanged
  | source (ip : UInt32) (port : UInt16)
  | destination (ip : UInt32) (port : UInt16)
  deriving DecidableEq

/-- Ports are replaced in TCP and UDP packets only. -/
def Headers.translate (h : Headers) : Translation → Headers
  | .unchanged => h
  | .source ip port =>
    if h.protocol = 6 ∨ h.protocol = 17 then { h with srcIp := ip, srcPort := port }
    else { h with srcIp := ip }
  | .destination ip port =>
    if h.protocol = 6 ∨ h.protocol = 17 then { h with dstIp := ip, dstPort := port }
    else { h with dstIp := ip }

def Packet.translate (csum : CsumReplace) (ihl : UInt8 → UInt8) (h : Headers) (p : Packet) :
    Translation → Packet
  | .unchanged => p
  | .source ip port =>
    performSnat csum (p.l4Offset ihl) h.protocol h.srcIp ip h.srcPort port p
  | .destination ip port =>
    performDnat csum (p.l4Offset ihl) h.protocol h.dstIp ip h.dstPort port p

def Headers.ctKey (h : Headers) : CtKey := ⟨h.srcIp, h.dstIp, h.srcPort, h.dstPort, h.protocol⟩

/-- A tracked packet gets the address its connection was opened to as its source, unless
that is the 0 of a node port. -/
def CtValue.translation (ct : CtValue) : Translation :=
  if ct.originIp ≠ 0 then .source ct.originIp ct.originPort else .unchanged

def Selected.translation (sel : Selected) : Translation :=
  .destination sel.backendIp sel.backendPort

namespace L4Maps

def hostIngress (m : L4Maps) (cpu : Nat) (h : Headers) : Translation × L4Maps :=
  match m.conntrack.lookup h.ctKey with
  | some ct => (ct.translation, m)
  | none =>
    match m.serviceLookup cpu 0 h.dstPort h.protocol h.srcIp h.srcPort scopeNodePort with
    | (some sel, m) => (sel.translation, m)
    | (none, m) =>
      match m.serviceLookup cpu h.dstIp h.dstPort h.protocol h.srcIp h.srcPort scopeExternalIp with
      | (some sel, m) => (sel.translation, m)
      | (none, m) => (.unchanged, m)

def tunnelIngress (m : L4Maps) (h : Headers) : Translation :=
  if m.getConfig configKeyL4lbEnabled ≠ 0 then
    match m.conntrack.lookup h.ctKey with
    | some ct => ct.translation
    | none => .unchanged
  else .unchanged

end L4Maps

open L4Maps

def tryTcHostIngress (csum : CsumReplace) (env : PacketEnv) (cpu : Nat) (m : L4Maps) (p : Packet) :
    Except Unit TcAction × L4Maps × Packet :=
  if m.getConfig configKeyL4lbEnabled = 0 then (.ok .ok, m, p)
  else
    match parseHeaders env.ihl p with
    | .error e => (.error e, m, p)
    | .ok none => (.ok .ok, m, p)
    | .ok (some h) =>
      let r := m.hostIngress cpu h
      (.ok .ok, r.2, p.translate csum env.ihl h r.1)

theorem Packet.WellFormed.parse_translate {ihl : UInt8 → UInt8} {p : Packet} {h : Headers}
    (hp : p.WellFormed ihl h) (csum : CsumReplace) (t : Translation) :
    parseHeaders ihl (p.translate csum ihl h t) = .ok (some (h.translate t)) := by
  cases t with
  | unchanged => exact hp.parsed
  | source ip port =>
    rw [Headers.translate, if_pos hp.transport]
    exact hp.parse_performSnat
  | destination ip port =>
    rw [Headers.translate, if_pos hp.transport]
    exact hp.parse_performDnat

/-- The headers as the program on the host interface leaves them. -/
def L4Maps.forward (cpu : Nat) (m : L4Maps) (h : Headers) : L4Maps × Headers :=
  if m.getConfig configKeyL4lbEnabled = 0 then (m, h)
  else
    let r := m.hostIngress cpu h
    (r.2, h.translate r.1)

theorem Packet.WellFormed.tryTcHostIngress_eq {env : PacketEnv} {p : Packet} {h : Headers}
    (hp : p.WellFormed env.ihl h) (csum : CsumReplace) (cpu : Nat) (m : L4Maps) :
    ∃ p', tryTcHostIngress csum env cpu m p = (.ok .ok, (m.forward cpu h).1, p') ∧
      parseHeaders env.ihl p' = .ok (some (m.forward cpu h).2) := by
  unfold tryTcHostIngress L4Maps.forward
  split
  · exact ⟨p, rfl, hp.parsed⟩
  · rw [hp.parsed]
    exact ⟨_, rfl, hp.parse_translate csum _⟩

section Lookup

variable {m : L4Maps} {cpu : Nat} {dstIp srcIp : UInt32} {dstPort srcPort : UInt16}
  {protocol scope : UInt8} {svc : ServiceValue}

structure L4Maps.Usable (m : L4Maps) (svc : ServiceValue) : Prop where
  some_backend : svc.backendCount ≠ 0
  inside : svc.backendOffset.toNat + svc.backendCount.toNat ≤ maxBackends
  table : svc.algorithm = lbAlgMaglev → ∀ i : UInt32,
    ((m.maglevEntry (svc.maglevOffset + i % 65537).toNat).getD 0).toNat < svc.backendCount.toNat

theorem L4Maps.Usable.select_lt (h : m.Usable svc) (cpu : Nat) (hash : UInt32) :
    (m.selectBackend cpu svc hash).1.toNat < svc.backendCount.toNat := by
  have hpos : 0 < svc.backendCount.toNat := by
    have hne := h.some_backend
    rw [ne_eq, ← UInt16.toNat_inj] at hne
    simp at hne
    omega
  unfold selectBackend
  split
  · split
    · simp only [UInt32.toNat_mod, UInt16.toNat_toUInt32]
      exact Nat.mod_lt _ hpos
    · simpa using hpos
  · split
    · next halg => exact h.table halg hash
    · simp only [UInt32.toNat_mod, UInt16.toNat_toUInt32]
      exact Nat.mod_lt _ hpos

theorem selectBackend_snd (m : L4Maps) (cpu : Nat) (svc : ServiceValue) (hash : UInt32) :
    ∃ rr, (m.selectBackend cpu svc hash).2 = { m with rrCounters := rr } := by
  unfold selectBackend
  split
  · split
    · exact ⟨_, rfl⟩
    · exact ⟨m.rrCounters, rfl⟩
  · split <;> exact ⟨m.rrCounters, rfl⟩

def L4Maps.addresses (m : L4Maps) (svc : ServiceValue) : List (UInt32 × UInt16) :=
  (List.range svc.backendCount.toNat).filterMap fun i =>
    (m.backend (svc.backendOffset.toNat + i)).map fun b => (b.ip, b.port)

variable (cpu) in
theorem serviceLookup_new (hon : m.getConfig configKeyL4lbEnabled ≠ 0)
    (hct : m.conntrack.lookup ⟨srcIp, dstIp, srcPort, dstPort, protocol⟩ = none)
    (hsvc : m.services.lookup ⟨dstIp, dstPort, protocol, scope⟩ = some svc) (husable : m.Usable svc) :
    ∃ b rr, (b.ip, b.port) ∈ m.addresses svc ∧
      m.serviceLookup cpu dstIp dstPort protocol srcIp srcPort scope =
        (some ⟨b.ip, b.port, dstIp, dstPort⟩,
          track { m with rrCounters := rr } ⟨srcIp, dstIp, srcPort, dstPort, protocol⟩ b) := by
  have hlt := husable.select_lt cpu (hash5tuple srcIp dstIp srcPort dstPort protocol)
  obtain ⟨rr, hrr⟩ := selectBackend_snd m cpu svc (hash5tuple srcIp dstIp srcPort dstPort protocol)
  have hinside := husable.inside
  have hindex : (svc.backendOffset.toUInt32 + (m.selectBackend cpu svc
      (hash5tuple srcIp dstIp srcPort dstPort protocol)).1).toNat = svc.backendOffset.toNat +
      (m.selectBackend cpu svc (hash5tuple srcIp dstIp srcPort dstPort protocol)).1.toNat := by
    unfold maxBackends at hinside
    rw [UInt32.toNat_add, UInt16.toNat_toUInt32]
    omega
  generalize hsel : m.selectBackend cpu svc (hash5tuple srcIp dstIp srcPort dstPort protocol) = sel
    at hlt hrr hindex
  have hb : ∃ b, m.backend (svc.backendOffset.toNat + sel.1.toNat) = some b := by
    unfold backend
    rw [if_pos (by omega)]
    exact ⟨_, rfl⟩
  obtain ⟨b, hb⟩ := hb
  refine ⟨b, rr, ?_, ?_⟩
  · refine List.mem_filterMap.mpr ⟨sel.1.toNat, List.mem_range.mpr hlt, ?_⟩
    rw [hb]
    rfl
  · have hb' : sel.2.backend (svc.backendOffset.toUInt32 + sel.1).toNat = some b := by
      rwa [hindex, hrr]
    simp only [serviceLookup, if_neg hon, hct, hsvc, if_neg husable.some_backend, hsel, hb']
    rw [hrr]

variable (cpu scope) in
theorem serviceLookup_tracked {ct : CtValue} (hon : m.getConfig configKeyL4lbEnabled ≠ 0)
    (hct : m.conntrack.lookup ⟨srcIp, dstIp, srcPort, dstPort, protocol⟩ = some ct) :
    m.serviceLookup cpu dstIp dstPort protocol srcIp srcPort scope =
      (some ⟨ct.backendIp, ct.backendPort, ct.originIp, ct.originPort⟩, m) := by
  simp only [serviceLookup, if_neg hon, hct]

variable (cpu) in
theorem serviceLookup_none
    (hct : m.conntrack.lookup ⟨srcIp, dstIp, srcPort, dstPort, protocol⟩ = none)
    (hsvc : m.services.lookup ⟨dstIp, dstPort, protocol, scope⟩ = none) :
    m.serviceLookup cpu dstIp dstPort protocol srcIp srcPort scope = (none, m) := by
  unfold serviceLookup
  split
  · rfl
  · simp only [hct, hsvc]

end Lookup

end NovaNet
