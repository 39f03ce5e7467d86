import NovaNet.ServiceObject
import NovaNet.FreeList

/-! The service watcher: it keeps a block of backend slots, and with the Maglev
algorithm a table, for each service it tracks. A failed request is only logged, so the
requests of a reconcile do not depend on the answers. -/

namespace NovaNet

open FreeList (Block)

abbrev SlotAllocator := List Block

def newSlotAllocator (maxSlots : Nat) : SlotAllocator := [⟨0, maxSlots⟩]

def maglevTableSize : Nat := 65537

def backendSlots : Nat := 65536

def maglevSlots : Nat := 1048576

structure ServiceState where
  backendOffset : Nat
  backendCount : Nat
  algorithm : Algorithm
  maglevOffset : Nat
  scopes : List Scope
  clusterIPs : List String
  deriving DecidableEq

structure Watcher where
  allocator : SlotAllocator
  maglevAllocator : SlotAllocator
  services : Finmap fun _ : String => ServiceState

def newWatcher : Watcher := ⟨newSlotAllocator backendSlots, newSlotAllocator maglevSlots, ∅⟩

/-- `defaultAlg` is in lower case, `maglevTable` the table generated for a list of
backends. -/
structure WatcherConfig where
  defaultAlg : String
  dsrEnabled : Bool
  maglevTable : List String → List Nat

def resolveAlgorithm (defaultAlg : String) : Algorithm :=
  if defaultAlg = "round-robin" then .roundRobin
  else if defaultAlg = "maglev" then .maglev
  else .random

def ServiceState.backendBlock (st : ServiceState) : Block := ⟨st.backendOffset, st.backendCount⟩

def ServiceState.maglevBlock (st : ServiceState) : Block := ⟨st.maglevOffset, maglevTableSize⟩

def deleteEntries (st : ServiceState) (ports : List ServicePort) (scope : Scope) :
    List DpRequest :=
  ports.flatMap fun port => st.clusterIPs.map fun ip => .deleteService (serviceAddr port scope ip)

def deleteSpecific (ports : List ServicePort) (scope : Scope) (ips : List String) :
    List DpRequest :=
  ips.flatMap fun ip => ports.map fun port => .deleteService (specificAddr port scope ip)

def portBackends (offset : Nat) (backends : List BackendInfo) (portIdx : Nat)
    (port : ServicePort) : List BackendEntry :=
  backends.mapIdx fun i be =>
    ⟨(offset + intToU32 (portIdx * backends.length + i : Nat)) % 2 ^ 32, be.ip,
      resolveTargetPort port be, be.nodeIP⟩

def pushBackends (offset : Nat) (backends : List BackendInfo) (ports : List ServicePort) :
    List DpRequest :=
  let entries := (ports.mapIdx fun portIdx port => portBackends offset backends portIdx port).flatten
  if 0 < entries.length then [.upsertBackends entries] else []

def portEntry (cfg : WatcherConfig) (svc : Service) (offset : Nat) (backends : List BackendInfo)
    (alg : Algorithm) (maglevOff portIdx : Nat) : ServiceEntry where
  backendCount := intToU32 backends.length
  backendOffset := (offset + intToU32 (portIdx * backends.length : Nat)) % 2 ^ 32
  algorithm := alg
  flags := computeFlags cfg.dsrEnabled svc
  affinityTimeout := computeAffinityTimeout svc
  maglevOffset := maglevOff

def portAddrs (svc : Service) (port : ServicePort) : List ServiceAddr :=
  ((computeScopes svc).flatMap fun scope =>
    (serviceClusterIPs svc).map fun ip => serviceAddr port scope ip) ++
  svc.externalIPs.map (specificAddr port .externalIP) ++
  if svc.type = .loadBalancer then
    (svc.ingressIPs.filter (· ≠ "")).map (specificAddr port .loadBalancer)
  else []

def upsertServiceEntries (cfg : WatcherConfig) (svc : Service) (offset : Nat)
    (backends : List BackendInfo) (alg : Algorithm) (maglevOff : Nat) : List DpRequest :=
  (svc.ports.mapIdx fun portIdx port => (portAddrs svc port).map fun addr =>
    .upsertService addr (portEntry cfg svc offset backends alg maglevOff portIdx)).flatten

def totalBackends (backends : List BackendInfo) (svc : Service) : Nat :=
  intToU32 (backends.length * svc.ports.length : Nat)

namespace Watcher

/-- A table at offset 0 is not given back. -/
def freeSlots (w : Watcher) (st : ServiceState) : Watcher :=
  { w with
    allocator := if 0 < st.backendCount then FreeList.free w.allocator st.backendBlock
      else w.allocator
    maglevAllocator := if st.algorithm = .maglev ∧ 0 < st.maglevOffset then
        FreeList.free w.maglevAllocator st.maglevBlock
      else w.maglevAllocator }

def untrack (w : Watcher) (key : String) : Watcher :=
  { w with services := w.services.erase key }

def freeOldState (w : Watcher) (svc : Service) (old : ServiceState) : Watcher × List DpRequest :=
  (w.freeSlots old, old.scopes.flatMap (deleteEntries old svc.ports))

def freeTracked (w : Watcher) (svc : Service) : Watcher × List DpRequest :=
  match w.services.lookup svc.key with
  | some old => w.freeOldState svc old
  | none => (w, [])

def deleteServiceLocked (w : Watcher) (svc : Service) : Watcher × List DpRequest :=
  match w.services.lookup svc.key with
  | none => (w, [])
  | some st =>
    ((w.freeSlots st).untrack svc.key, st.scopes.flatMap fun scope =>
      deleteEntries st svc.ports scope ++
      (if scope = .externalIP then deleteSpecific svc.ports .externalIP svc.externalIPs else []) ++
      if scope = .loadBalancer then
        deleteSpecific svc.ports .loadBalancer (svc.ingressIPs.filter (· ≠ ""))
      else [])

/-- Where the table goes, with the algorithm that is used in the end. `none` is the
index panic for a service without ports. -/
def placeMaglev (cfg : WatcherConfig) (w : Watcher) (svc : Service)
    (backends : List BackendInfo) :
    Option (SlotAllocator × Algorithm × Nat × List DpRequest) :=
  if resolveAlgorithm cfg.defaultAlg = .maglev then
    match FreeList.alloc w.maglevAllocator maglevTableSize with
    | none => some (w.maglevAllocator, .random, 0, [])
    | some (offset, rest) =>
      match svc.ports with
      | [] => none
      | port :: _ =>
        some (rest, .maglev, offset, [.upsertMaglevTable offset (cfg.maglevTable
          (backends.map fun be => be.ip ++ ":" ++ Nat.repr (resolveTargetPort port be)))])
  else some (w.maglevAllocator, resolveAlgorithm cfg.defaultAlg, 0, [])

/-- `none` when the process panics. -/
def reconcileService (cfg : WatcherConfig) (o : IterOrder String) (store : SliceStore)
    (w : Watcher) (svc : Service) : Option (Watcher × List DpRequest) :=
  if (serviceClusterIPs svc).length = 0 then
    match w.services.lookup svc.key with
    | some _ => some (w.deleteServiceLocked svc)
    | none => some (w, [])
  else
    let backends := collectBackends o store svc
    let freed := w.freeTracked svc
    if backends.length = 0 then some (freed.1.untrack svc.key, freed.2)
    else
      match FreeList.alloc freed.1.allocator (totalBackends backends svc) with
      | none => some (freed.1.untrack svc.key, freed.2)
      | some (offset, rest) =>
        match freed.1.placeMaglev cfg svc backends with
        | none => none
        | some (maglevAllocator, alg, maglevOff, tableRequests) =>
          some ({ allocator := rest
                  maglevAllocator := maglevAllocator
                  services := freed.1.services.insert svc.key
                    ⟨offset, totalBackends backends svc, alg, maglevOff, computeScopes svc,
                      serviceClusterIPs svc⟩ },
            freed.2 ++ pushBackends offset backends svc.ports ++ tableRequests ++
              upsertServiceEntries cfg svc offset backends alg maglevOff)

end Watcher

end NovaNet
