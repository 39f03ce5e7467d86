import NovaNet.SocketPrograms

/-! The keys of the programs at socket level against the keys that the requests store for
the same address and port. The programs take addresses as they stand in the context, in
network byte order, and the requests store them in host byte order. -/

namespace NovaNet

open List Net

structure SockEndpoint where
  ip : UInt32
  port : UInt16
  deriving DecidableEq

/-- A port in network byte order in a word of 32 bits: in its low half, or over all of it. -/
inductive PortWord where
  | half
  | whole
  deriving DecidableEq

def PortWord.store : PortWord → UInt16 → UInt32
  | .half, port => (swap16 port).toUInt32
  | .whole, port => swap32 port.toUInt32

section Contexts

def SockAddr.ofDestination (e : SockEndpoint) (cookie : UInt64) : SockAddr :=
  ⟨swap32 e.ip, PortWord.half.store e.port, cookie⟩

def SockAddr.denotes (ctx : SockAddr) : SockEndpoint :=
  ⟨swap32 ctx.userIp4, swap16 ctx.userPort.toUInt16⟩

def SockOps.ofPeers (w : PortWord) (own peer : SockEndpoint) : SockOps :=
  ⟨swap32 own.ip, swap32 peer.ip, own.port.toUInt32, w.store peer.port⟩

def SkLookup.ofDestination (e : SockEndpoint) : SkLookup :=
  ⟨swap32 e.ip, e.port.toUInt32⟩

end Contexts

def SockEndpoint.text (e : SockEndpoint) : String := (Net.IP.v4 e.ip).string

/-- Each program computes the key that the request for the same address and port stores. -/
structure SocketKeysAgree (w : PortWord) (e : SockEndpoint) : Prop where
  connect4 : ∀ cookie, serviceKey e.ip ⟨e.text, e.port.toNat, 6, .clusterIP⟩ =
    (SockAddr.ofDestination e cookie).serviceKey 6
  sendmsg4 : ∀ cookie, serviceKey e.ip ⟨e.text, e.port.toNat, 17, .clusterIP⟩ =
    (SockAddr.ofDestination e cookie).serviceKey 17
  sockopsSrc : ∀ peer, sockmapEndpointKey e.text e.port.toUInt32 = .ok (SockOps.ofPeers w e peer).srcKey
  sockopsDst : ∀ own, sockmapEndpointKey e.text e.port.toUInt32 = .ok (SockOps.ofPeers w own e).dstKey
  mesh : meshServiceKey e.text e.port.toUInt32 = .ok (SkLookup.ofDestination e).meshKey

/-- Whenever the lookup selects a backend with address `ip`, the socket is connected to
it. -/
def WriteBackDenotes (ip : UInt32) : Prop :=
  ∀ cpu ctx (s : L4Maps × SockMaps) port m,
    s.1.sockServiceLookup cpu ctx.dstIp ctx.dstPort 6 = (some (ip, port), m) →
    (trySockConnect4 cpu ctx s).1.denotes = ⟨ip, port⟩

def Palindromic (ip : UInt32) : Prop :=
  octet ip 3 = octet ip 0 ∧ octet ip 2 = octet ip 1

section Words

theorem toNat_swap32 (ip : UInt32) : (swap32 ip).toNat =
    ((octet ip 0 * 256 + octet ip 1) * 256 + octet ip 2) * 256 + octet ip 3 := by
  have hlt : ByteOrder.swap 4 ip.toNat < 2 ^ 32 := ByteOrder.swap_lt 4 ip.toNat
  rw [swap32, UInt32.toNat_ofNat_of_lt' hlt]
  simp only [ByteOrder.swap, ByteOrder.leBytes, ByteOrder.leRead, reverse_cons,
    reverse_nil, nil_append, cons_append, Nat.ofDigits_cons, Nat.ofDigits_nil,
    Nat.div_div_eq_div_mul, Nat.reduceMul, octet, Nat.reducePow, Nat.div_one]
  omega

theorem swap32_eq_self_iff (ip : UInt32) : swap32 ip = ip ↔ Palindromic ip := by
  have h1 := octet_lt ip 1
  have h2 := octet_lt ip 2
  rw [← UInt32.toNat_inj, toNat_swap32, Palindromic]
  have hsum := toNat_octets ip
  omega

theorem toUInt16_toUInt32 (x : UInt16) : x.toUInt32.toUInt16 = x := by simp

theorem fromBe_store_half (port : UInt16) : fromBe (PortWord.half.store port).toUInt16 = port := by
  rw [PortWord.store, toUInt16_toUInt32, fromBe, swap16_swap16]

theorem fromBe_store_whole (port : UInt16) : fromBe (PortWord.whole.store port).toUInt16 = 0 := by
  have hlow : (swap32 port.toUInt32).toUInt16 = 0 := by
    have hlt : port.toNat < 65536 := port.toNat_lt
    have htwo : octet port.toUInt32 2 = 0 := by
      simp only [octet, UInt16.toNat_toUInt32]
      omega
    have hthree : octet port.toUInt32 3 = 0 := by
      simp only [octet, UInt16.toNat_toUInt32]
      omega
    rw [← UInt16.toNat_inj, UInt32.toNat_toUInt16, toNat_swap32, htwo, hthree, UInt16.toNat_zero]
    omega
  rw [PortWord.store, hlow]
  decide

theorem fromBe_store_eq_iff (w : PortWord) (port : UInt16) :
    fromBe (w.store port).toUInt16 = port ↔ w = .half ∨ port = 0 := by
  cases w with
  | half => simp [fromBe_store_half]
  | whole =>
    rw [fromBe_store_whole]
    simp [eq_comm]

end Words

section Keys

variable {w : PortWord} {e : SockEndpoint}

theorem requestV4_text (unsupported : String) (e : SockEndpoint) :
    requestV4 unsupported e.text = .ok e.ip := by
  have hparse : parseIp e.text = some (.v4 e.ip) := by
    rw [SockEndpoint.text, parseIp, Net.IP.string, String.toList_ofList, parseAddr_chars_v4]
  rw [requestV4, hparse]

theorem serviceKey_eq_iff (protocol : Nat) (cookie : UInt64) :
    serviceKey e.ip ⟨e.text, e.port.toNat, protocol, .clusterIP⟩ =
      (SockAddr.ofDestination e cookie).serviceKey (UInt8.ofNat protocol) ↔ swap32 e.ip = e.ip := by
  have hport : (SockAddr.ofDestination e cookie).dstPort = e.port := fromBe_store_half e.port
  have hstored : UInt16.ofNat e.port.toNat = e.port := UInt16.ofNat_toNat
  rw [SockAddr.serviceKey, hport, serviceKey, hstored, ServiceKey.mk.injEq]
  exact ⟨fun h => h.1.symm, fun h => ⟨h.symm, rfl, rfl, rfl⟩⟩

theorem srcKey_eq_iff (peer : SockEndpoint) :
    sockmapEndpointKey e.text e.port.toUInt32 = .ok (SockOps.ofPeers w e peer).srcKey ↔
      swap32 e.ip = e.ip := by
  have hport : (SockOps.ofPeers w e peer).srcPort = e.port := toUInt16_toUInt32 e.port
  rw [sockmapEndpointKey, requestV4_text, SockOps.srcKey, hport]
  show (Except.ok _ : Except SockError _) = .ok _ ↔ _
  rw [Except.ok.injEq, SockmapEndpointKey.mk.injEq]
  exact ⟨fun h => h.1.symm, fun h => ⟨h.symm, rfl⟩⟩

theorem dstKey_eq_iff (own : SockEndpoint) :
    sockmapEndpointKey e.text e.port.toUInt32 = .ok (SockOps.ofPeers w own e).dstKey ↔
      swap32 e.ip = e.ip ∧ (w = .half ∨ e.port = 0) := by
  rw [sockmapEndpointKey, requestV4_text, SockOps.dstKey, ← fromBe_store_eq_iff]
  show (Except.ok _ : Except SockError _) = .ok _ ↔ _
  rw [Except.ok.injEq, SockmapEndpointKey.mk.injEq, UInt16.toUInt32_inj]
  exact ⟨fun h => ⟨h.1.symm, h.2.symm⟩, fun h => ⟨h.1.symm, h.2.symm⟩⟩

theorem meshKey_eq_iff : meshServiceKey e.text e.port.toUInt32 =
    .ok (SkLookup.ofDestination e).meshKey ↔ swap32 e.ip = e.ip := by
  rw [meshServiceKey, requestV4_text, SkLookup.meshKey]
  show (Except.ok _ : Except SockError _) = .ok _ ↔ _
  rw [Except.ok.injEq, MeshServiceKey.mk.injEq]
  exact ⟨fun h => h.1.symm, fun h => ⟨h.symm, rfl⟩⟩

theorem socketKeysAgree_iff (w : PortWord) (e : SockEndpoint) :
    SocketKeysAgree w e ↔ swap32 e.ip = e.ip ∧ (w = .half ∨ e.port = 0) := by
  constructor
  · intro h
    exact (dstKey_eq_iff e).mp (h.sockopsDst e)
  · intro h
    exact ⟨fun cookie => (serviceKey_eq_iff 6 cookie).mpr h.1,
      fun cookie => (serviceKey_eq_iff 17 cookie).mpr h.1,
      fun peer => (srcKey_eq_iff peer).mpr h.1, fun own => (dstKey_eq_iff own).mpr h,
      meshKey_eq_iff.mpr h.1⟩

end Keys

section WriteBack

theorem denotes_redirect (ctx : SockAddr) (ip : UInt32) (port : UInt16) :
    (ctx.redirect ip port).denotes = ⟨swap32 ip, port⟩ := by
  have hport : swap16 ((toBe port).toUInt32).toUInt16 = port := by
    rw [toUInt16_toUInt32, toBe, swap16_swap16]
  simp only [SockAddr.denotes, SockAddr.redirect, hport]

theorem trySockConnect4_redirect {cpu : Nat} {ctx : SockAddr} {s : L4Maps × SockMaps}
    {ip : UInt32} {port : UInt16} {m : L4Maps}
    (h : s.1.sockServiceLookup cpu ctx.dstIp ctx.dstPort 6 = (some (ip, port), m)) :
    (trySockConnect4 cpu ctx s).1 = ctx.redirect ip port := by
  simp only [trySockConnect4, sockTranslate, h]

def oneBackend (ip : UInt32) : L4Maps where
  config := (∅ : Finmap _).insert configKeyL4lbEnabled 1
  services := (∅ : Finmap _).insert ⟨0, 0, 6, 0⟩ ⟨1, 0, 0, 0, 0, 0⟩
  backends := (∅ : Finmap _).insert 0 ⟨ip, 0, 0⟩
  maglev := ∅
  conntrack := ∅
  rrCounters := ∅
  v6Loaded := false

theorem oneBackend_lookup (ip : UInt32) :
    (oneBackend ip).sockServiceLookup 0 0 0 6 = (some (ip, 0), oneBackend ip) := rfl

theorem writeBackDenotes_iff (ip : UInt32) : WriteBackDenotes ip ↔ swap32 ip = ip := by
  constructor
  · intro h
    have hback := h 0 ⟨0, 0, 0⟩ (oneBackend ip, ⟨∅⟩) 0 (oneBackend ip) (oneBackend_lookup ip)
    rw [trySockConnect4_redirect (oneBackend_lookup ip), denotes_redirect] at hback
    exact (SockEndpoint.mk.inj hback).1
  · intro h cpu ctx s port m hlook
    rw [trySockConnect4_redirect hlook, denotes_redirect, h]

end WriteBack

/-- The keys for an address and port agree, and a backend is reached, exactly if both
addresses are palindromic and the port of a peer stands in the half of the word that is
read. -/
theorem socket_keys_agree_iff (w : PortWord) (e : SockEndpoint) (backend : UInt32) :
    SocketKeysAgree w e ∧ WriteBackDenotes backend ↔
      Palindromic e.ip ∧ Palindromic backend ∧ (w = .half ∨ e.port = 0) := by
  rw [socketKeysAgree_iff, writeBackDenotes_iff, ← swap32_eq_self_iff, ← swap32_eq_self_iff]
  exact ⟨fun h => ⟨h.1.1, h.2, h.1.2⟩, fun h => ⟨⟨h.1, h.2.2⟩, h.2.1⟩⟩

section Example

def clusterMaps : L4Maps :=
  L4Maps.serveAll ⟨(∅ : Finmap _).insert configKeyL4lbEnabled 1, ∅, ∅, ∅, ∅, ∅, false⟩
    [.upsertBackends [⟨0, "10.244.0.5", 8080, "10.0.0.2"⟩],
      .upsertService ⟨"10.96.0.10", 80, 6, .clusterIP⟩ ⟨1, 0, .random, 0, 0, 0⟩,
      .upsertService ⟨"10.0.0.10", 80, 6, .clusterIP⟩ ⟨1, 0, .random, 0, 0, 0⟩]

/-- The first address is not found. The second one is, and the socket is then connected to
5.0.244.10. -/
theorem socket_keys_differ :
    ¬ SocketKeysAgree .half ⟨0x0a60000a, 80⟩ ∧ ¬ WriteBackDenotes 0x0af40005 ∧
    (trySockConnect4 0 (.ofDestination ⟨0x0a60000a, 80⟩ 1) (clusterMaps, ⟨∅⟩)).1.denotes =
      ⟨0x0a60000a, 80⟩ ∧
    (trySockConnect4 0 (.ofDestination ⟨0x0a00000a, 80⟩ 1) (clusterMaps, ⟨∅⟩)).1.denotes =
      ⟨0x0500f40a, 8080⟩ := by
  refine ⟨?_, ?_, by decide +kernel, by decide +kernel⟩
  · rw [socketKeysAgree_iff]
    decide
  · rw [writeBackDenotes_iff]
    decide

end Example

end NovaNet
