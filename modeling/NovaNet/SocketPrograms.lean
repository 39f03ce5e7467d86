import NovaNet.ByteOrder
import NovaNet.ServiceLookup

/-! Programs of the dataplane at socket level, with the keys that requests fill maps under.
A context holds its words as the kernel puts them there; the host is little-endian. -/

namespace NovaNet

open ByteOrder

def swap16 (x : UInt16) : UInt16 := UInt16.ofNat (swap 2 x.toNat)

def swap32 (x : UInt32) : UInt32 := UInt32.ofNat (swap 4 x.toNat)

theorem swap16_swap16 (x : UInt16) : swap16 (swap16 x) = x := by
  have hlt : swap 2 x.toNat < 2 ^ 16 := swap_lt 2 x.toNat
  rw [swap16, swap16, UInt16.toNat_ofNat_of_lt' hlt, swap_swap x.toNat_lt, UInt16.ofNat_toNat]

/-- On a little-endian host a value is swapped on its way from and to network byte order. -/
def fromBe (x : UInt16) : UInt16 := swap16 x

def toBe (x : UInt16) : UInt16 := swap16 x

structure SockLbOrigin where
  originalIp : UInt32
  originalPort : UInt16
  protocol : UInt8
  deriving DecidableEq

structure SockmapEndpointKey where
  ip : UInt32
  port : UInt32
  deriving DecidableEq

structure MeshServiceKey where
  ip : UInt32
  port : UInt32
  deriving DecidableEq

structure SockMaps where
  origins : Finmap fun _ : UInt64 => SockLbOrigin

inductive SockError where
  | invalidIp (ip : String)
  | invalidArgument (text : String)
  deriving DecidableEq

section Requests

def requestV4 (unsupported : String) (ip : String) : Except SockError UInt32 :=
  match Net.parseIp ip with
  | none => .error (.invalidIp ip)
  | some (.v4 a) => .ok a
  | some (.v6 _) => .error (.invalidArgument unsupported)

def sockmapEndpointKey (ip : String) (port : UInt32) : Except SockError SockmapEndpointKey :=
  (requestV4 "IPv6 not yet supported for SOCKMAP" ip).map fun a => ⟨a, port⟩

def meshServiceKey (ip : String) (port : UInt32) : Except SockError MeshServiceKey :=
  (requestV4 "IPv6 not yet supported for mesh redirect" ip).map fun a => ⟨a, port⟩

end Requests

section SocketLb

def scopeClusterIp : UInt8 := 0

/-- The source port is not known when a socket connects. -/
def hash3tuple (dstIp : UInt32) (dstPort : UInt16) (proto : UInt8) : UInt32 :=
  [dstIp, dstPort.toUInt32, proto.toUInt32].foldl (fun h x => (h ^^^ x) * 16777619) 2166136261

def L4Maps.sockServiceLookup (m : L4Maps) (cpu : Nat) (dstIp : UInt32) (dstPort : UInt16)
    (protocol : UInt8) : Option (UInt32 × UInt16) × L4Maps :=
  if m.getConfig configKeyL4lbEnabled = 0 then (none, m)
  else
    match m.services.lookup ⟨dstIp, dstPort, protocol, scopeClusterIp⟩ with
    | none => (none, m)
    | some svc =>
      if svc.backendCount = 0 then (none, m)
      else
        let r := m.selectBackend cpu svc (hash3tuple dstIp dstPort protocol)
        match r.2.backend (svc.backendOffset.toUInt32 + r.1).toNat with
        | none => (none, r.2)
        | some b => (some (b.ip, b.port), r.2)

structure SockAddr where
  userIp4 : UInt32
  userPort : UInt32
  cookie : UInt64
  deriving DecidableEq

namespace SockAddr

def dstIp (ctx : SockAddr) : UInt32 := ctx.userIp4

def dstPort (ctx : SockAddr) : UInt16 := fromBe ctx.userPort.toUInt16

def serviceKey (ctx : SockAddr) (protocol : UInt8) : ServiceKey :=
  ⟨ctx.dstIp, ctx.dstPort, protocol, scopeClusterIp⟩

def redirect (ctx : SockAddr) (ip : UInt32) (port : UInt16) : SockAddr :=
  { ctx with userIp4 := ip, userPort := (toBe port).toUInt32 }

end SockAddr

/-- The two programs differ in the protocol they ask for. -/
def sockTranslate (protocol : UInt8) (cpu : Nat) (ctx : SockAddr) (s : L4Maps × SockMaps) :
    SockAddr × L4Maps × SockMaps :=
  match s.1.sockServiceLookup cpu ctx.dstIp ctx.dstPort protocol with
  | (none, m) => (ctx, m, s.2)
  | (some (backendIp, backendPort), m) =>
    let origin : SockLbOrigin := ⟨ctx.dstIp, ctx.dstPort, protocol⟩
    (ctx.redirect backendIp backendPort, m,
      { s.2 with origins := s.2.origins.insert ctx.cookie origin })

def trySockConnect4 (cpu : Nat) (ctx : SockAddr) (s : L4Maps × SockMaps) :
    SockAddr × L4Maps × SockMaps := sockTranslate 6 cpu ctx s

def trySockSendmsg4 (cpu : Nat) (ctx : SockAddr) (s : L4Maps × SockMaps) :
    SockAddr × L4Maps × SockMaps := sockTranslate 17 cpu ctx s

end SocketLb

section Sockmap

structure SockOps where
  localIp4 : UInt32
  remoteIp4 : UInt32
  localPort : UInt32
  remotePort : UInt32

namespace SockOps

def srcPort (ctx : SockOps) : UInt16 := ctx.localPort.toUInt16

def dstPort (ctx : SockOps) : UInt16 := fromBe ctx.remotePort.toUInt16

def srcKey (ctx : SockOps) : SockmapEndpointKey := ⟨ctx.localIp4, ctx.srcPort.toUInt32⟩

def dstKey (ctx : SockOps) : SockmapEndpointKey := ⟨ctx.remoteIp4, ctx.dstPort.toUInt32⟩

end SockOps

end Sockmap

section Mesh

structure SkLookup where
  localIp4 : UInt32
  localPort : UInt32

def SkLookup.meshKey (ctx : SkLookup) : MeshServiceKey := ⟨ctx.localIp4, ctx.localPort⟩

end Mesh

end NovaNet
