import NovaNet.Grpc
import NovaNet.SlotTable

/-! The host policy store of the dataplane: the requests that add, replace and delete rules,
the keys they expand to, and the record by which a rule is found again. -/

namespace NovaNet

open LastWrite SlotTable

structure HostPolicyKey where
  prefixLen : UInt32
  identity : UInt32
  direction : UInt8
  protocol : UInt8
  dstPort : UInt16
  deriving DecidableEq

structure HostPolicyValue where
  action : UInt8
  deriving DecidableEq

structure IPCacheKey where
  prefixLen : UInt32
  addr : List UInt8
  deriving DecidableEq

/-- A rule as it is sent. The enumerations are numbers on the wire. -/
structure HostPolicyEntry where
  ruleId : String
  direction : Int32
  protocol : UInt32
  cidrIp : List UInt8
  cidrPrefixLen : UInt32
  port : UInt32
  endPort : UInt32
  action : Int32
  deriving DecidableEq

def hostPolicyIngress : UInt8 := 0

def hostPolicyEgress : UInt8 := 1

def hostPolicyFullPrefix : UInt32 := 64

def hostPolicyProtoPrefix : UInt32 := 48

def hostPolicyIdentityPrefix : UInt32 := 40

section Rules

/-- An IPv4 network is mapped into IPv6. The prefix length is not checked. -/
def cidrToIpcacheKey (cidrIp : List UInt8) (prefixLen : UInt32) : Except GrpcError IPCacheKey :=
  if cidrIp.length = 4 then
    .ok ⟨prefixLen + 96, List.replicate 10 0 ++ [0xff, 0xff] ++ cidrIp⟩
  else if cidrIp.length = 16 then .ok ⟨prefixLen, cidrIp⟩
  else .error ⟨.invalidArgument, "cidr_ip must be 4 or 16 bytes"⟩

def fnvStep (h : UInt32) (byte : UInt8) : UInt32 := (h ^^^ byte.toUInt32) * 0x01000193

def toLeBytes (n : UInt32) : List UInt8 :=
  [n.toUInt8, (n >>> 8).toUInt8, (n >>> 16).toUInt8, (n >>> 24).toUInt8]

def identityForCidr (cidrIp : List UInt8) (prefixLen : UInt32) : UInt32 :=
  1000 + (cidrIp ++ toLeBytes prefixLen).foldl fnvStep 0x811c9dc5 % (0xffffffff - 1000)

def buildHostPolicyKey (identity : UInt32) (direction protocol : UInt8) (port : UInt16) :
    HostPolicyKey where
  prefixLen :=
    if 0 < port then hostPolicyFullPrefix
    else if 0 < protocol then hostPolicyProtoPrefix
    else hostPolicyIdentityPrefix
  identity := identity
  direction := direction
  protocol := protocol
  dstPort := port

namespace HostPolicyEntry

def hostDirection (e : HostPolicyEntry) : Option UInt8 :=
  if e.direction = 0 then some hostPolicyIngress
  else if e.direction = 1 then some hostPolicyEgress
  else none

def check (e : HostPolicyEntry) : Except GrpcError (IPCacheKey × UInt8) :=
  if e.cidrIp = [] then .error ⟨.invalidArgument, "cidr_ip is required"⟩
  else
    match e.hostDirection with
    | none => .error ⟨.invalidArgument, "Invalid host policy direction"⟩
    | some direction =>
      match cidrToIpcacheKey e.cidrIp e.cidrPrefixLen with
      | .error err => .error err
      | .ok key => .ok (key, direction)

/-- The size of a range is a 16-bit number, so the range of all ports has size 0. -/
def ports (e : HostPolicyEntry) : Option (List UInt16) :=
  let port := e.port.toUInt16
  let endPort := e.endPort.toUInt16
  if port < endPort ∧ 0 < endPort then
    if 1024 < (endPort - port + 1).toUInt32 then none
    else some ((List.range' port.toNat (endPort.toNat + 1 - port.toNat)).map UInt16.ofNat)
  else some [port]

def policyKeys (e : HostPolicyEntry) (direction : UInt8) : Option (List HostPolicyKey) :=
  e.ports.map fun ps => ps.map fun p =>
    buildHostPolicyKey (identityForCidr e.cidrIp e.cidrPrefixLen) direction e.protocol.toUInt8 p

def value (e : HostPolicyEntry) : HostPolicyValue := ⟨if e.action = 1 then 1 else 0⟩

end HostPolicyEntry

end Rules

/-- The map in memory, or the trie of the kernel. The trie may not be there, and two keys
that agree on the bits of their prefix have one place in it. -/
inductive HostMaps where
  | mock
  | real (loaded : Bool) (place : HostPolicyKey → HostPolicyKey)

/-- What the kernel does during a request: the writes to IPCACHE and to HOST_POLICIES that it
refuses, the deletions that fail, and the order of a traversal. -/
structure HostEnv where
  ipcache : IPCacheKey → Option String
  insert : HostPolicyKey → Option String
  remove : HostPolicyKey → Bool
  order : IterOrder HostPolicyKey

namespace HostMaps

def slot : HostMaps → HostPolicyKey → HostPolicyKey
  | .mock, k => k
  | .real _ place, k => place k

abbrev Policies (maps : HostMaps) := Table maps.slot HostPolicyValue

def ipcacheRefusal : HostMaps → HostEnv → IPCacheKey → Option String
  | .mock, _, _ => none
  | .real .., env, k => env.ipcache k

def refusal : HostMaps → HostEnv → HostPolicyKey → Option String
  | .mock, _, _ => none
  | .real false _, _, _ => some "HOST_POLICIES map not available"
  | .real true _, env, k => env.insert k

def removes : HostMaps → HostEnv → HostPolicyKey → Bool
  | .mock, _, _ => true
  | .real loaded _, env, k => loaded && !env.remove k

def available : HostMaps → Bool
  | .mock => true
  | .real loaded _ => loaded

def upsertIpcache (maps : HostMaps) (env : HostEnv) (key : IPCacheKey) : Except GrpcError Unit :=
  match maps.ipcacheRefusal env key with
  | none => .ok ()
  | some e => .error ⟨.internal, "Failed to upsert ipcache: " ++ e⟩

def insertPolicies (maps : HostMaps) (env : HostEnv) :
    List (HostPolicyKey × HostPolicyValue) → maps.Policies → maps.Policies × Option String
  | [], t => (t, none)
  | e :: l, t =>
    match maps.refusal env e.1 with
    | some err => (t, some err)
    | none => insertPolicies maps env l (t.insert e.1 e.2)

def deletePolicy (maps : HostMaps) (env : HostEnv) (t : maps.Policies) (k : HostPolicyKey) :
    maps.Policies :=
  if maps.removes env k then t.remove k else t

def removable (maps : HostMaps) (env : HostEnv) (t : maps.Policies) : List HostPolicyKey :=
  (t.listKeys env.order).filter (maps.removes env)

def clearPolicies (maps : HostMaps) (env : HostEnv) (t : maps.Policies) : maps.Policies :=
  t.removeAll (maps.removable env t)

end HostMaps

structure HostPolicyStore (maps : HostMaps) where
  policies : maps.Policies
  rules : Finmap fun _ : String => List HostPolicyKey

structure SyncHostPoliciesResponse where
  added : UInt32
  removed : UInt32

namespace HostPolicyStore

variable {maps : HostMaps}

/-- The keys of a rule that no check rejects. The write to IPCACHE comes before the check of
the range. -/
def accept (maps : HostMaps) (env : HostEnv) (e : HostPolicyEntry) :
    Except GrpcError (List HostPolicyKey) :=
  match e.check with
  | .error err => .error err
  | .ok (key, direction) =>
    match maps.upsertIpcache env key with
    | .error err => .error err
    | .ok () =>
      match e.policyKeys direction with
      | none => .error ⟨.invalidArgument,
          "Port range too large (max 1024 ports per rule to prevent map exhaustion)"⟩
      | some keys => .ok keys

def finishUpsert (s : HostPolicyStore maps) (ruleId : String) (keys : List HostPolicyKey) :
    maps.Policies × Option String → Except GrpcError Unit × HostPolicyStore maps
  | (t, some err) =>
    (.error ⟨.internal, "Failed to upsert host policy: " ++ err⟩, { s with policies := t })
  | (t, none) => (.ok (), ⟨t, s.rules.insert ruleId keys⟩)

/-- The keys of an earlier definition of the rule are not looked at. -/
def upsertHostPolicy (env : HostEnv) (s : HostPolicyStore maps) (req : HostPolicyEntry) :
    Except GrpcError Unit × HostPolicyStore maps :=
  match accept maps env req with
  | .error err => (.error err, s)
  | .ok keys => s.finishUpsert req.ruleId keys
      (maps.insertPolicies env (keys.map fun k => (k, req.value)) s.policies)

/-- A deletion that fails is only logged, and so is an unknown rule. -/
def deleteHostPolicy (env : HostEnv) (s : HostPolicyStore maps) (ruleId : String) :
    Except GrpcError Unit × HostPolicyStore maps :=
  match s.rules.lookup ruleId with
  | none => (.ok (), s)
  | some keys => (.ok (), ⟨keys.foldl (maps.deletePolicy env) s.policies, s.rules.erase ruleId⟩)

/-- Rules that a check rejects are skipped; a refused write to IPCACHE ends the request. -/
def collect (maps : HostMaps) (env : HostEnv) :
    List HostPolicyEntry → Except GrpcError (List (HostPolicyEntry × List HostPolicyKey))
  | [] => .ok []
  | e :: es =>
    match e.check with
    | .error _ => collect maps env es
    | .ok (key, direction) =>
      match maps.upsertIpcache env key, e.policyKeys direction with
      | .error err, _ => .error err
      | .ok (), none => collect maps env es
      | .ok (), some keys =>
        match collect maps env es with
        | .error err => .error err
        | .ok rest => .ok ((e, keys) :: rest)

def policyEntries (accepted : List (HostPolicyEntry × List HostPolicyKey)) :
    List (HostPolicyKey × HostPolicyValue) :=
  accepted.flatMap fun p => p.2.map fun k => (k, p.1.value)

def newRules (accepted : List (HostPolicyEntry × List HostPolicyKey)) :
    Finmap fun _ : String => List HostPolicyKey :=
  assign ∅ (accepted.map fun p => (p.1.ruleId, p.2))

/-- The map in memory counts its entries, the trie counts the writes. -/
def addedCount : (maps : HostMaps) → maps.Policies → List (HostPolicyKey × HostPolicyValue) → Nat
  | .mock, t, _ => t.keys.card
  | .real .., _, new => new.length

def finishSync (s : HostPolicyStore maps) (removed : Nat)
    (accepted : List (HostPolicyEntry × List HostPolicyKey)) :
    maps.Policies × Option String → Except GrpcError SyncHostPoliciesResponse × HostPolicyStore maps
  | (t, some err) =>
    (.error ⟨.internal, "Failed to sync host policies: " ++ err⟩, { s with policies := t })
  | (t, none) =>
    (.ok ⟨UInt32.ofNat (addedCount maps t (policyEntries accepted)), UInt32.ofNat removed⟩,
      ⟨t, newRules accepted⟩)

def syncHostPolicies (env : HostEnv) (s : HostPolicyStore maps) (req : List HostPolicyEntry) :
    Except GrpcError SyncHostPoliciesResponse × HostPolicyStore maps :=
  match collect maps env req with
  | .error err => (.error err, s)
  | .ok accepted =>
    if maps.available then
      s.finishSync (maps.removable env s.policies).length accepted
        (maps.insertPolicies env (policyEntries accepted) (maps.clearPolicies env s.policies))
    else
      (.error ⟨.internal, "Failed to sync host policies: HOST_POLICIES map not available"⟩, s)

end HostPolicyStore

inductive HostRequest where
  | upsert (rule : HostPolicyEntry)
  | delete (ruleId : String)
  | sync (rules : List HostPolicyEntry)

def HostPolicyStore.serve {maps : HostMaps} (env : HostEnv) (s : HostPolicyStore maps) :
    HostRequest → Except GrpcError Unit × HostPolicyStore maps
  | .upsert e => s.upsertHostPolicy env e
  | .delete id => s.deleteHostPolicy env id
  | .sync es => ((s.syncHostPolicies env es).1.map fun _ => (), (s.syncHostPolicies env es).2)

end NovaNet
