import NovaNet.ServiceNat

/-! Connections to service addresses, packet by packet. All connections share one
conntrack map, whose entries for the two directions are looked up in the same way. -/

namespace NovaNet

open Finmap LastWrite L4Maps

inductive Via where
  | clusterIP
  | nodePort
  | externalIP
  deriving DecidableEq

inductive Transport where
  | tcp
  | udp
  deriving DecidableEq

def Transport.number : Transport → UInt8
  | .tcp => 6
  | .udp => 17

structure Conn where
  clientIp : UInt32
  clientPort : UInt16
  svcIp : UInt32
  svcPort : UInt16
  transport : Transport
  via : Via
  deriving DecidableEq

namespace Conn

def protocol (c : Conn) : UInt8 := c.transport.number

def packet (c : Conn) (tcpFlags : UInt8) (totalLen : UInt64) : Headers :=
  ⟨c.clientIp, c.svcIp, c.protocol, c.clientPort, c.svcPort, tcpFlags, totalLen⟩

def reply (c : Conn) (b : UInt32 × UInt16) (tcpFlags : UInt8) (totalLen : UInt64) : Headers :=
  ⟨b.1, c.clientIp, c.protocol, b.2, c.clientPort, tcpFlags, totalLen⟩

/-- A node port is entered under address 0. -/
def entryIp (c : Conn) : UInt32 := if c.via = .nodePort then 0 else c.svcIp

def scope (c : Conn) : UInt8 :=
  match c.via with
  | .clusterIP => 0
  | .nodePort => scopeNodePort
  | .externalIP => scopeExternalIp

def serviceKey (c : Conn) : ServiceKey := ⟨c.entryIp, c.svcPort, c.protocol, c.scope⟩

def forwardKey (c : Conn) : CtKey :=
  ⟨c.clientIp, c.entryIp, c.clientPort, c.svcPort, c.protocol⟩

theorem entryIp_of_external {c : Conn} (h : c.via = .externalIP) : c.entryIp = c.svcIp := by
  simp [entryIp, h]

theorem entryIp_of_nodePort {c : Conn} (h : c.via = .nodePort) : c.entryIp = 0 := by
  simp [entryIp, h]

theorem protocol_cases (c : Conn) : c.protocol = 6 ∨ c.protocol = 17 := by
  unfold protocol
  cases c.transport <;> simp [Transport.number]

end Conn

open Conn

/-- The program that sees a reply first: the one behind the pod that sent it, the one on
the host interface or the one on the tunnel interface. -/
inductive ReplyPath where
  | pod
  | host
  | tunnel
  deriving DecidableEq

inductive PacketEvent where
  | client (c : Conn) (cpu : Nat) (tcpFlags : UInt8) (totalLen : UInt64)
  | reply (c : Conn) (path : ReplyPath) (cpu : Nat) (tcpFlags : UInt8) (totalLen : UInt64)

/-- `sentTo` records where the first packet of each connection went. -/
structure NatState where
  maps : L4Maps
  sentTo : Finmap fun _ : Conn => UInt32 × UInt16

namespace NatState

def clientPath (s : NatState) (c : Conn) (cpu : Nat) (h : Headers) : Translation × L4Maps :=
  match c.via with
  | .clusterIP => (.unchanged, s.maps)
  | .nodePort => s.maps.hostIngress cpu h
  | .externalIP => s.maps.hostIngress cpu h

def replyPath (s : NatState) (path : ReplyPath) (cpu : Nat) (h : Headers) : Translation × L4Maps :=
  match path with
  | .pod => (.unchanged, s.maps)
  | .host => s.maps.hostIngress cpu h
  | .tunnel => (s.maps.tunnelIngress h, s.maps)

def record (s : NatState) (c : Conn) (b : UInt32 × UInt16) :
    Finmap fun _ : Conn => UInt32 × UInt16 :=
  if c ∈ s.sentTo then s.sentTo else s.sentTo.insert c b

/-- The headers of the packet as the program leaves it. A reply needs a connection that
has reached a backend. -/
def handle (s : NatState) : PacketEvent → Option (Headers × NatState)
  | .client c cpu tcpFlags totalLen =>
    let h := c.packet tcpFlags totalLen
    let r := s.clientPath c cpu h
    let out := h.translate r.1
    some (out, ⟨r.2, s.record c (out.dstIp, out.dstPort)⟩)
  | .reply c path cpu tcpFlags totalLen =>
    match s.sentTo.lookup c with
    | none => none
    | some b =>
      let h := c.reply b tcpFlags totalLen
      let r := s.replyPath path cpu h
      some (h.translate r.1, { s with maps := r.2 })

def Step (guard : NatState → PacketEvent → Prop) (s s' : NatState) : Prop :=
  ∃ ev out, guard s ev ∧ s.handle ev = some (out, s')

abbrev Run (guard : NatState → PacketEvent → Prop) := Relation.ReflTransGen (Step guard)

/-- A client packet goes to a backend of the service, the same one for each packet of a
connection; a reply comes from the address the client sent to. -/
def RoundTrip (s : NatState) (ev : PacketEvent) (out : Headers) : Prop :=
  match ev with
  | .client c _ _ _ =>
    (∃ svc, s.maps.services.lookup c.serviceKey = some svc ∧
      (out.dstIp, out.dstPort) ∈ s.maps.addresses svc) ∧
    (∀ b, s.sentTo.lookup c = some b → (out.dstIp, out.dstPort) = b) ∧
    (out.srcIp, out.srcPort) = (c.clientIp, c.clientPort)
  | .reply c _ _ _ _ =>
    (out.srcIp, out.srcPort) = (c.svcIp, c.svcPort) ∧
    (out.dstIp, out.dstPort) = (c.clientIp, c.clientPort)

end NatState

def Conn.Served (m : L4Maps) (c : Conn) : Prop :=
  m.getConfig configKeyL4lbEnabled ≠ 0 ∧ ∃ svc, m.services.lookup c.serviceKey = some svc ∧ m.Usable svc

def NatState.Domain (s : NatState) : PacketEvent → Prop
  | .client c _ _ _ => c.Served s.maps
  | .reply c _ _ _ _ => c.Served s.maps

/-- No conntrack entry for the packets of the connection, under the address or under 0, and
none for a reply of a backend of the service. -/
structure Conn.Fresh (m : L4Maps) (c : Conn) : Prop where
  to_svc : m.conntrack.lookup ⟨c.clientIp, c.svcIp, c.clientPort, c.svcPort, c.protocol⟩ = none
  to_node : m.conntrack.lookup ⟨c.clientIp, 0, c.clientPort, c.svcPort, c.protocol⟩ = none
  from_backend : ∀ svc, m.services.lookup c.serviceKey = some svc → ∀ b ∈ m.addresses svc,
    m.conntrack.lookup (c.reply b 0 0).ctKey = none

/-- An external address: the first packet of a connection that is not tracked yet, to an
address that is not 0 and a port that is no node port. A node port: a client address
that is not 0, no entry under the address of the node, and a connection that is not
tracked yet or was seen before. Only replies of connections to an external address, not
seen first behind a pod. -/
def NatState.Clean (s : NatState) (ev : PacketEvent) : Prop :=
  s.Domain ev ∧
  match ev with
  | .client c _ tcpFlags totalLen =>
    match c.via with
    | .clusterIP => False
    | .nodePort => c.clientIp ≠ 0 ∧
        s.maps.conntrack.lookup (c.packet tcpFlags totalLen).ctKey = none ∧
        (s.sentTo.lookup c ≠ none ∨ c.Fresh s.maps)
    | .externalIP => c.svcIp ≠ 0 ∧ c.Fresh s.maps ∧
        s.maps.services.lookup ⟨0, c.svcPort, c.protocol, scopeNodePort⟩ = none
  | .reply c path _ _ _ => c.via = .externalIP ∧ path ≠ .pod

section Tracking

variable {m : L4Maps} {c : Conn} {cpu : Nat} {tcpFlags : UInt8} {totalLen : UInt64} {k : CtKey}
  {v : CtValue} {b : BackendValue}

theorem Conn.Fresh.forward_none (h : c.Fresh m) : m.conntrack.lookup c.forwardKey = none := by
  by_cases hvia : c.via = .nodePort
  · have hentry : c.entryIp = 0 := if_pos hvia
    rw [forwardKey, hentry]
    exact h.to_node
  · have hentry : c.entryIp = c.svcIp := if_neg hvia
    rw [forwardKey, hentry]
    exact h.to_svc

theorem Conn.Fresh.lookup_track {svc : ServiceValue} (h : c.Fresh m)
    (hsvc : m.services.lookup c.serviceKey = some svc) (hb : (b.ip, b.port) ∈ m.addresses svc)
    (hk : m.conntrack.lookup k = some v) (rr : Finmap fun _ : Nat × Nat => UInt32) :
    (track { m with rrCounters := rr } c.forwardKey b).conntrack.lookup k = some v := by
  have hforward : k ≠ c.forwardKey := by
    rintro rfl
    simp [h.forward_none] at hk
  have hreply : k ≠ c.forwardKey.reply b := by
    rintro rfl
    have hnone := h.from_backend svc hsvc _ hb
    exact absurd (hnone.symm.trans hk) (by simp)
  simp only [track]
  rw [lookup_insert_of_ne _ hreply, lookup_insert_of_ne _ hforward, hk]

theorem Conn.packet_destination (c : Conn) (ip : UInt32) (port : UInt16) :
    (c.packet tcpFlags totalLen).translate (.destination ip port) =
      { c.packet tcpFlags totalLen with dstIp := ip, dstPort := port } :=
  if_pos c.protocol_cases

theorem lookup_track_reply (m : L4Maps) (fwd : CtKey) (b : BackendValue) :
    (m.track fwd b).conntrack.lookup (fwd.reply b) = some ⟨0, fwd.dstIp, 0, fwd.dstPort⟩ := by
  simp only [track, lookup_insert]

theorem hostIngress_new {svc : ServiceValue} (hon : m.getConfig configKeyL4lbEnabled ≠ 0)
    (hvia : c.via ≠ .clusterIP) (hfresh : c.Fresh m) (hnode : c.via = .externalIP →
      m.services.lookup ⟨0, c.svcPort, c.protocol, scopeNodePort⟩ = none)
    (hsvc : m.services.lookup c.serviceKey = some svc) (husable : m.Usable svc) :
    ∃ b rr, (b.ip, b.port) ∈ m.addresses svc ∧
      m.hostIngress cpu (c.packet tcpFlags totalLen) = (.destination b.ip b.port,
        track { m with rrCounters := rr } c.forwardKey b) := by
  obtain ⟨b, rr, hb, hlook⟩ := serviceLookup_new cpu hon hfresh.forward_none hsvc husable
  refine ⟨b, rr, hb, ?_⟩
  have hct : m.conntrack.lookup (c.packet tcpFlags totalLen).ctKey = none := hfresh.to_svc
  simp only [hostIngress, hct]
  simp only [packet]
  cases hv : c.via with
  | clusterIP => exact absurd hv hvia
  | nodePort =>
    rw [entryIp_of_nodePort hv, show c.scope = scopeNodePort by simp [scope, hv]] at hlook
    simp only [hlook, Selected.translation, forwardKey, entryIp_of_nodePort hv]
  | externalIP =>
    -- the lookup as a node port misses first
    have hmiss := serviceLookup_none cpu hfresh.to_node (hnode hv)
    rw [entryIp_of_external hv,
      show c.scope = scopeExternalIp by simp [scope, hv]] at hlook
    simp only [hmiss, hlook, Selected.translation, forwardKey, entryIp_of_external hv]

theorem hostIngress_seen (hon : m.getConfig configKeyL4lbEnabled ≠ 0) (hvia : c.via = .nodePort)
    (hct : m.conntrack.lookup (c.packet tcpFlags totalLen).ctKey = none)
    (hseen : m.conntrack.lookup c.forwardKey = some v) :
    m.hostIngress cpu (c.packet tcpFlags totalLen) = (.destination v.backendIp v.backendPort, m) := by
  have hentry := entryIp_of_nodePort hvia
  rw [forwardKey, hentry] at hseen
  have hlook := serviceLookup_tracked cpu scopeNodePort hon hseen
  simp only [hostIngress, hct]
  simp only [packet, hlook, Selected.translation]

end Tracking

namespace NatState

/-- Every connection seen has the conntrack entry it needs: to an external address the
one for its replies, to a node port the one for its packets. -/
structure Inv (s : NatState) : Prop where
  cluster : ∀ c b, s.sentTo.lookup c = some b → c.via ≠ .clusterIP
  served : ∀ c b, s.sentTo.lookup c = some b →
    ∃ svc, s.maps.services.lookup c.serviceKey = some svc ∧ b ∈ s.maps.addresses svc
  external : ∀ c b, s.sentTo.lookup c = some b → c.via = .externalIP → c.svcIp ≠ 0 ∧
    s.maps.conntrack.lookup (c.reply b 0 0).ctKey = some ⟨0, c.svcIp, 0, c.svcPort⟩
  node : ∀ c b, s.sentTo.lookup c = some b → c.via = .nodePort →
    s.maps.conntrack.lookup c.forwardKey = some ⟨b.1, 0, b.2, c.svcPort⟩

variable {s s' : NatState} {c : Conn} {svc : ServiceValue} {b : BackendValue}

theorem inv_start (m : L4Maps) : Inv ⟨m, ∅⟩ := by
  refine ⟨?_, ?_, ?_, ?_⟩ <;> simp

theorem Inv.not_mem (h : Inv s) (hfresh : c.Fresh s.maps) : c ∉ s.sentTo := by
  intro hmem
  obtain ⟨b, hb⟩ := Finmap.mem_iff.mp hmem
  cases hvia : c.via with
  | clusterIP => exact h.cluster c b hb hvia
  | nodePort =>
    have hsome := h.node c b hb hvia
    simp [hfresh.forward_none] at hsome
  | externalIP =>
    obtain ⟨svc, hsvc, hmem⟩ := h.served c b hb
    have hsome := (h.external c b hb hvia).2
    simp [hfresh.from_backend svc hsvc b hmem] at hsome

def Good (s : NatState) (ev : PacketEvent) (out : Headers) (s' : NatState) : Prop :=
  s.RoundTrip ev out ∧ s'.Inv

variable {totalLen : UInt64} {tcpFlags : UInt8} {cpu : Nat} {out : Headers}

theorem good_sent {ip : UInt32} {port : UInt16} {m : L4Maps} (hvia : c.via ≠ .clusterIP)
    (hr : s.maps.hostIngress cpu (c.packet tcpFlags totalLen) = (.destination ip port, m))
    (hserved : ∃ svc, s.maps.services.lookup c.serviceKey = some svc ∧
      (ip, port) ∈ s.maps.addresses svc)
    (hsame : ∀ b, s.sentTo.lookup c = some b → (ip, port) = b)
    (hinv : Inv ⟨m, s.record c (ip, port)⟩)
    (hstep : s.handle (.client c cpu tcpFlags totalLen) = some (out, s')) :
    Good s (.client c cpu tcpFlags totalLen) out s' := by
  have hpath : s.clientPath c cpu (c.packet tcpFlags totalLen) = (.destination ip port, m) := by
    cases hv : c.via <;> simp_all [clientPath]
  simp only [handle, hpath, c.packet_destination] at hstep
  cases hstep
  exact ⟨⟨hserved, hsame, rfl⟩, hinv⟩

section New

variable (h : Inv s) (hfresh : c.Fresh s.maps) (hvia : c.via ≠ .clusterIP)
  (hip : c.via = .externalIP → c.svcIp ≠ 0) (hclient : c.via = .nodePort → c.clientIp ≠ 0)
  (hsvc : s.maps.services.lookup c.serviceKey = some svc)

include h hfresh hvia hip hclient hsvc

theorem Inv.tracked (hb : (b.ip, b.port) ∈ s.maps.addresses svc)
    (rr : Finmap fun _ : Nat × Nat => UInt32) :
    Inv ⟨track { s.maps with rrCounters := rr } c.forwardKey b, s.record c (b.ip, b.port)⟩ := by
  have hrecord : s.record c (b.ip, b.port) = s.sentTo.insert c (b.ip, b.port) :=
    if_neg (h.not_mem hfresh)
  rw [hrecord]
  refine ⟨?_, ?_, ?_, ?_⟩
  · exact forall_lookup_insert hvia h.cluster
  · exact forall_lookup_insert ⟨svc, hsvc, hb⟩ h.served
  · intro c' b' hc' hvia'
    rcases lookup_insert_eq_some hc' with ⟨rfl, rfl⟩ | ⟨-, hold⟩
    · refine ⟨hip hvia', ?_⟩
      have hdst : c'.forwardKey.dstIp = c'.svcIp := entryIp_of_external hvia'
      have hreply := lookup_track_reply { s.maps with rrCounters := rr } c'.forwardKey b
      rwa [hdst] at hreply
    · obtain ⟨hne, hk⟩ := h.external c' b' hold hvia'
      exact ⟨hne, hfresh.lookup_track hsvc hb hk rr⟩
  · intro c' b' hc' hvia'
    rcases lookup_insert_eq_some hc' with ⟨rfl, rfl⟩ | ⟨-, hold⟩
    · have hentry := entryIp_of_nodePort hvia'
      -- the two new entries differ, since the reply goes to a client address that is not 0
      have hne : c'.forwardKey ≠ c'.forwardKey.reply b := by
        intro heq
        have hdst := congrArg CtKey.dstIp heq
        simp only [forwardKey, CtKey.reply, hentry] at hdst
        exact hclient hvia' hdst.symm
      simp only [track]
      rw [lookup_insert_of_ne _ hne, lookup_insert]
      simp only [forwardKey, hentry]
    · exact hfresh.lookup_track hsvc hb (h.node c' b' hold hvia') rr

theorem good_new (hon : s.maps.getConfig configKeyL4lbEnabled ≠ 0)
    (hnode : c.via = .externalIP →
      s.maps.services.lookup ⟨0, c.svcPort, c.protocol, scopeNodePort⟩ = none)
    (husable : s.maps.Usable svc)
    (hstep : s.handle (.client c cpu tcpFlags totalLen) = some (out, s')) :
    Good s (.client c cpu tcpFlags totalLen) out s' := by
  obtain ⟨b, rr, hb, hr⟩ := hostIngress_new hon hvia hfresh hnode hsvc husable
  have hinv := Inv.tracked h hfresh hvia hip hclient hsvc hb rr
  refine good_sent hvia hr ⟨svc, hsvc, hb⟩ (fun b' hb' => ?_) hinv hstep
  exact absurd (mem_of_lookup_eq_some hb') (h.not_mem hfresh)

end New

theorem replyPath_external {path : ReplyPath} {b : UInt32 × UInt16} (h : Inv s)
    (hon : s.maps.getConfig configKeyL4lbEnabled ≠ 0) (hvia : c.via = .externalIP)
    (hpath : path ≠ .pod) (hb : s.sentTo.lookup c = some b) :
    s.replyPath path cpu (c.reply b tcpFlags totalLen) = (.source c.svcIp c.svcPort, s.maps) := by
  obtain ⟨hne, hct⟩ := h.external c b hb hvia
  have hct' : s.maps.conntrack.lookup (c.reply b tcpFlags totalLen).ctKey =
      some ⟨0, c.svcIp, 0, c.svcPort⟩ := hct
  have htrans : CtValue.translation ⟨0, c.svcIp, 0, c.svcPort⟩ = .source c.svcIp c.svcPort :=
    if_pos hne
  cases path with
  | pod => exact absurd rfl hpath
  | host => simp only [replyPath, hostIngress, hct', htrans]
  | tunnel => simp only [replyPath, tunnelIngress, if_pos hon, hct', htrans]

theorem Inv.handle {ev : PacketEvent} (h : Inv s) (hclean : s.Clean ev)
    (hstep : s.handle ev = some (out, s')) : Good s ev out s' := by
  cases ev with
  | client c cpu tcpFlags totalLen =>
    obtain ⟨⟨hon, svc, hsvc, husable⟩, hclean⟩ := hclean
    cases hvia : c.via with
    | clusterIP => simp only [hvia] at hclean
    | externalIP =>
      simp only [hvia] at hclean
      obtain ⟨hip, hfresh, hnode⟩ := hclean
      exact good_new h hfresh (by simp [hvia]) (fun _ => hip) (by simp [hvia]) hsvc hon
        (fun _ => hnode) husable hstep
    | nodePort =>
      simp only [hvia] at hclean
      obtain ⟨hclient, hct, hseen⟩ := hclean
      cases hb : s.sentTo.lookup c with
      | none =>
        have hfresh := hseen.resolve_left (by simp [hb])
        exact good_new h hfresh (by simp [hvia]) (by simp [hvia]) (fun _ => hclient) hsvc hon
          (by simp [hvia]) husable hstep
      | some b =>
        have hrecord : s.record c b = s.sentTo := if_pos (mem_of_lookup_eq_some hb)
        refine good_sent (by simp [hvia]) (hostIngress_seen hon hvia hct (h.node c b hb hvia))
          (h.served c b hb) (fun b' hb' => ?_) ?_ hstep
        · exact Option.some.inj (hb.symm.trans hb')
        · rwa [hrecord]
  | reply c path cpu tcpFlags totalLen =>
    obtain ⟨⟨hon, -⟩, hvia, hpath⟩ := hclean
    cases hb : s.sentTo.lookup c with
    | none => simp [NatState.handle, hb] at hstep
    | some b =>
      have hsrc : s.replyPath path cpu (c.reply b tcpFlags totalLen) =
          (.source c.svcIp c.svcPort, s.maps) := replyPath_external h hon hvia hpath hb
      simp only [NatState.handle, hb, hsrc] at hstep
      cases hstep
      have hout : (c.reply b tcpFlags totalLen).translate (.source c.svcIp c.svcPort) =
          { c.reply b tcpFlags totalLen with srcIp := c.svcIp, srcPort := c.svcPort } :=
        if_pos c.protocol_cases
      rw [hout]
      exact ⟨⟨rfl, rfl⟩, h⟩

theorem inv_of_run {m : L4Maps} (hrun : Run Clean ⟨m, ∅⟩ s) : s.Inv := by
  induction hrun with
  | refl => exact inv_start m
  | tail _ hstep ih =>
    obtain ⟨ev, out, hclean, hh⟩ := hstep
    exact (ih.handle hclean hh).2

/-- After any run of clean packets each next clean packet makes the round trip. -/
theorem nat_round_trip {m : L4Maps} {s s' : NatState} {ev : PacketEvent} {out : Headers}
    (hrun : Run Clean ⟨m, ∅⟩ s) (hclean : s.Clean ev) (hstep : s.handle ev = some (out, s')) :
    s.RoundTrip ev out :=
  ((inv_of_run hrun).handle hclean hstep).1

end NatState

section Example

def exampleMaps : L4Maps where
  config := (∅ : Finmap _).insert configKeyL4lbEnabled 1
  services := (((∅ : Finmap _).insert
    ⟨0xcb00710a, 80, 6, 2⟩ ⟨1, 0, 0, 0, 0, 0⟩).insert ⟨0, 30080, 6, 1⟩ ⟨1, 1, 0, 0, 0, 0⟩).insert
    ⟨0x0a60000a, 80, 6, 0⟩ ⟨1, 0, 0, 0, 0, 0⟩
  backends := ((∅ : Finmap _).insert 0
    ⟨0x0af40005, 8080, 0x0a000002⟩).insert 1 ⟨0x0af40006, 8080, 0x0a000002⟩
  maglev := ∅
  conntrack := ∅
  rrCounters := ∅
  v6Loaded := false

def toExternal : Conn := ⟨0xc0000207, 40000, 0xcb00710a, 80, .tcp, .externalIP⟩

def toNode : Conn := ⟨0xc0000207, 40000, 0x0a000001, 30080, .tcp, .nodePort⟩

def toCluster : Conn := ⟨0x0af40009, 40000, 0x0a60000a, 80, .tcp, .clusterIP⟩

open NatState

def firstPacket (c : Conn) : Headers × NatState :=
  (handle ⟨exampleMaps, ∅⟩ (.client c 0 2 60)).get rfl

theorem served_of_lookup {m : L4Maps} {c : Conn} (svc : ServiceValue)
    (h : m.getConfig configKeyL4lbEnabled ≠ 0 ∧ m.services.lookup c.serviceKey = some svc ∧
      svc.backendCount ≠ 0 ∧ svc.backendOffset.toNat + svc.backendCount.toNat ≤ maxBackends ∧
      svc.algorithm ≠ lbAlgMaglev) : c.Served m := by
  obtain ⟨hconfig, hsvc, hcount, hfits, hplain⟩ := h
  exact ⟨hconfig, svc, hsvc, hcount, hfits, fun halg => absurd halg hplain⟩

theorem served_toNode : toNode.Served exampleMaps :=
  served_of_lookup ⟨1, 1, 0, 0, 0, 0⟩ (by decide +kernel)

theorem served_toCluster : toCluster.Served exampleMaps :=
  served_of_lookup ⟨1, 0, 0, 0, 0, 0⟩ (by decide +kernel)

theorem clean_toExternal : Clean ⟨exampleMaps, ∅⟩ (.client toExternal 0 2 60) := by
  refine ⟨served_of_lookup ⟨1, 0, 0, 0, 0, 0⟩ (by decide +kernel), ?_⟩
  refine ⟨by decide, ⟨?_, ?_, fun _ _ _ _ => ?_⟩, by decide +kernel⟩ <;> simp [exampleMaps]

/-- The answer to the first packet of a connection to an external address. -/
theorem nat_round_trip_example :
    ∃ s out s', Run Clean ⟨exampleMaps, ∅⟩ s ∧
      s.handle (.reply toExternal .host 0 18 60) = some (out, s') ∧
      s.RoundTrip (.reply toExternal .host 0 18 60) out := by
  have hrun : Run Clean ⟨exampleMaps, ∅⟩ (firstPacket toExternal).2 :=
    .single ⟨_, _, clean_toExternal, rfl⟩
  have hsome : ((firstPacket toExternal).2.handle (.reply toExternal .host 0 18 60)).isSome =
      true := by decide +kernel
  obtain ⟨⟨out, s'⟩, hstep⟩ := Option.isSome_iff_exists.mp hsome
  refine ⟨_, out, s', hrun, hstep, nat_round_trip hrun ⟨?_, rfl, by decide⟩ hstep⟩
  exact served_of_lookup ⟨1, 0, 0, 0, 0, 0⟩ (by decide +kernel)

/-- The second packet to an external address gets that address as its source, the first
packet to a cluster address stays as it is, and so does the reply of a node port. -/
theorem nat_round_trip_fails :
    (∃ s out s', Run Domain ⟨exampleMaps, ∅⟩ s ∧
      s.Domain (.client toExternal 0 16 52) ∧
      s.handle (.client toExternal 0 16 52) = some (out, s') ∧
      ¬ s.RoundTrip (.client toExternal 0 16 52) out) ∧
    (∃ s out s', Run Domain ⟨exampleMaps, ∅⟩ s ∧
      s.Domain (.client toCluster 0 2 60) ∧
      s.handle (.client toCluster 0 2 60) = some (out, s') ∧
      ¬ s.RoundTrip (.client toCluster 0 2 60) out) ∧
    ∃ s out s', Run Domain ⟨exampleMaps, ∅⟩ s ∧
      s.Domain (.reply toNode .host 0 18 60) ∧
      s.handle (.reply toNode .host 0 18 60) = some (out, s') ∧
      ¬ s.RoundTrip (.reply toNode .host 0 18 60) out := by
  refine ⟨⟨(firstPacket toExternal).2, _, _, .single ⟨_, _, clean_toExternal.1, rfl⟩, ?_, rfl, ?_⟩,
    ⟨⟨exampleMaps, ∅⟩, _, _, .refl, served_toCluster, rfl, ?_⟩, ?_⟩
  · exact served_of_lookup ⟨1, 0, 0, 0, 0, 0⟩ (by decide +kernel)
  · rintro ⟨-, -, hsrc⟩
    revert hsrc
    decide +kernel
  · rintro ⟨⟨svc, hsvc, hmem⟩, -⟩
    have hentry : exampleMaps.services.lookup toCluster.serviceKey = some ⟨1, 0, 0, 0, 0, 0⟩ := by
      decide +kernel
    obtain rfl := Option.some.inj (hentry.symm.trans hsvc)
    revert hmem
    decide +kernel
  · have hsource : ((firstPacket toNode).2.handle (.reply toNode .host 0 18 60)).map
        (fun r => (r.1.srcIp, r.1.srcPort)) = some (0x0af40006, 8080) := by decide +kernel
    obtain ⟨⟨out, s'⟩, hstep, hout⟩ := Option.map_eq_some_iff.mp hsource
    refine ⟨(firstPacket toNode).2, out, s',
      .single ⟨.client toNode 0 2 60, _, served_toNode, rfl⟩, ?_, hstep, ?_⟩
    · exact served_of_lookup ⟨1, 1, 0, 0, 0, 0⟩ (by decide +kernel)
    · rintro ⟨hsrc, -⟩
      exact absurd (hout.symm.trans hsrc) (by decide)

end Example

/-- Packets come one after the other, each on some processor. -/
def L4Maps.runAll {α β : Type} (step : Nat → L4Maps → α → L4Maps × β) :
    L4Maps → List (Nat × α) → L4Maps × List β
  | m, [] => (m, [])
  | m, (cpu, x) :: xs =>
    let r := step cpu m x
    let rest := runAll step r.1 xs
    (rest.1, r.2 :: rest.2)

def hostIngressRun (csum : CsumReplace) (env : PacketEnv) :
    L4Maps → List (Nat × Packet) → L4Maps × List (Except Unit TcAction × Packet) :=
  runAll fun cpu m p =>
    let r := tryTcHostIngress csum env cpu m p
    (r.2.1, r.1, r.2.2)

/-- On bytes the program does what it does on headers: every packet is passed on with the
translated headers, and the maps are the same. -/
theorem hostIngressRun_refines (csum : CsumReplace) {env : PacketEnv} {ps : List (Nat × Packet)}
    {hs : List (Nat × Headers)}
    (hwf : List.Forall₂ (fun p h => p.1 = h.1 ∧ p.2.WellFormed env.ihl h.2) ps hs) (m : L4Maps) :
    (hostIngressRun csum env m ps).1 = (m.runAll forward hs).1 ∧
      List.Forall₂ (fun r h => r.1 = .ok .ok ∧ parseHeaders env.ihl r.2 = .ok (some h))
        (hostIngressRun csum env m ps).2 (m.runAll forward hs).2 := by
  induction hwf generalizing m with
  | nil => exact ⟨rfl, .nil⟩
  | @cons p h ps hs hp _ ih =>
    obtain ⟨cpu, p⟩ := p
    obtain ⟨_, h⟩ := h
    obtain ⟨rfl, hp⟩ := hp
    obtain ⟨p', hstep, hparsed⟩ := hp.tryTcHostIngress_eq csum cpu m
    obtain ⟨hmaps, hout⟩ := ih (m.forward cpu h).1
    simp only [hostIngressRun, runAll, hstep]
    exact ⟨hmaps, .cons ⟨rfl, hparsed⟩ hout⟩

def Conn.bytes (c : Conn) : Packet :=
  List.replicate 12 0 ++ [8, 0, 0x45] ++ List.replicate 8 0 ++ [c.protocol, 0, 0] ++
    be32Bytes c.clientIp ++ be32Bytes c.svcIp ++ be16Bytes c.clientPort ++ be16Bytes c.svcPort ++
    List.replicate 16 0

theorem hostIngressRun_refines_example :
    (hostIngressRun (fun _ c _ _ => c) ⟨0, true, fun _ _ => 0, fun b => b &&& 0x0f⟩ exampleMaps
      [(0, toExternal.bytes), (1, toCluster.bytes)]).1 =
    (exampleMaps.runAll forward [(0, toExternal.packet 0 0), (1, toCluster.packet 0 0)]).1 :=
  (hostIngressRun_refines _ (.cons ⟨rfl, by decide +kernel, by decide, by decide, by decide⟩
    (.cons ⟨rfl, by decide +kernel, by decide, by decide, by decide⟩ .nil)) _).1

end NovaNet
