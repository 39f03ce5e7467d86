import NovaNet.PoolRuns

/-! The address manager of the operator and the two controllers that keep it in step with the
IPPool and IPAllocation objects. -/

namespace NovaNet

def PoolType.text : PoolType → String
  | .loadBalancerVIP => "LoadBalancerVIP"
  | .ingressIP => "IngressIP"
  | .podCIDR => "PodCIDR"
  | .serviceClusterIP => "ServiceClusterIP"
  | .custom => "Custom"

inductive ManagerError where
  | poolNotFound (name : String)
  | creatingPool (name : String) (err : PoolError)
  | pool (err : PoolError)
  | noPoolOfType (poolType : PoolType)
  deriving DecidableEq

namespace ManagerError

def text : ManagerError → String
  | .poolNotFound name => "pool not found: " ++ name
  | .creatingPool name err => "creating pool \"" ++ name ++ "\": " ++ err.text
  | .pool err => err.text
  | .noPoolOfType poolType => IpamSentinel.noFreeAddresses.text ++ ": no pool of type " ++
      poolType.text ++ " with available addresses"

def isAlreadyAllocatedError : ManagerError → Bool
  | .pool (.sentinel .ipAlreadyAlloc _) => true
  | _ => false

end ManagerError

structure Manager where
  pools : Finmap fun _ : String => Pool

namespace Manager

variable (o : IterOrder String)

def getPool (m : Manager) (name : String) : Except ManagerError Pool :=
  match m.pools.lookup name with
  | some p => .ok p
  | none => .error (.poolNotFound name)

def put (m : Manager) (name : String) (p : Pool) : Manager := ⟨m.pools.insert name p⟩

/-- The pool is built anew; what it had allocated is gone. -/
def updatePool (m : Manager) (cfg : PoolConfig) : Except ManagerError Manager :=
  match Pool.newPool cfg with
  | .error err => .error (.creatingPool cfg.name err)
  | .ok p => .ok (m.put cfg.name p)

def unregisterPool (m : Manager) (name : String) : Manager := ⟨m.pools.erase name⟩

def allocate (site : List Nat) (m : Manager) (poolName owner resource : String) :
    Except ManagerError (Option Net.IP × Manager) := do
  let p ← m.getPool poolName
  match p.allocate o site owner resource with
  | .error err => .error (.pool err)
  | .ok (ip, p') => .ok (ip, m.put poolName p')

def tryPool (site : List Nat) (m : Manager) (poolType : PoolType) (owner resource name : String) :
    Option (Option Net.IP × String × Manager) :=
  match m.pools.lookup name with
  | none => none
  | some p =>
    if p.poolType ≠ poolType ∨ p.autoAssign = false then none
    else
      match p.allocate o site owner resource with
      | .error _ => none
      | .ok (ip, p') => some (ip, p.name, m.put name p')

def allocateByType (site : List Nat) (m : Manager) (poolType : PoolType)
    (owner resource : String) : Except ManagerError (Option Net.IP × String × Manager) :=
  match (o.enum site m.pools.keys).findSome? (m.tryPool o (0 :: site) poolType owner resource) with
  | some r => .ok r
  | none => .error (.noPoolOfType poolType)

def allocateSpecific (m : Manager) (poolName : String) (ip : IPSlice) (owner resource : String) :
    Except ManagerError Manager := do
  let p ← m.getPool poolName
  match p.allocateSpecific ip owner resource with
  | .error err => .error (.pool err)
  | .ok p' => .ok (m.put poolName p')

def release (m : Manager) (poolName : String) (ip : IPSlice) : Except ManagerError Manager := do
  let p ← m.getPool poolName
  match p.release ip with
  | .error err => .error (.pool err)
  | .ok p' => .ok (m.put poolName p')

end Manager

/-! ### The objects -/

/-- A status condition; each controller writes one type only. -/
structure Condition where
  status : Bool
  reason : String
  message : String

inductive IPPoolType where
  | loadBalancerVIP
  | ingressIP
  | podCIDR
  | serviceClusterIP
  | custom
  | other (text : String)

def crdPoolTypeToIPAM : IPPoolType → PoolType
  | .loadBalancerVIP => .loadBalancerVIP
  | .ingressIP => .ingressIP
  | .podCIDR => .podCIDR
  | .serviceClusterIP => .serviceClusterIP
  | .custom => .custom
  | .other _ => .custom

structure IPPoolSpec where
  type : IPPoolType
  cidrs : List String
  addresses : List String
  autoAssign : Bool
  owner : String

structure IPPoolStatus where
  allocated : Int32
  total : Int32
  available : Int32
  ready : Option Condition

structure IPPool where
  spec : IPPoolSpec
  status : IPPoolStatus

def IPPoolSpec.config (spec : IPPoolSpec) (name : String) : PoolConfig where
  name := name
  type := crdPoolTypeToIPAM spec.type
  cidrs := spec.cidrs
  addresses := spec.addresses
  autoAssign := spec.autoAssign
  owner := spec.owner

structure IPAllocationSpec where
  pool : String
  ip : String
  owner : String
  resource : String

inductive IPAllocationState where
  | unset
  | bound
  | released
  | conflict
  deriving DecidableEq

structure IPAllocation where
  spec : IPAllocationSpec
  finalizers : List String
  deleting : Bool
  state : IPAllocationState
  valid : Option Condition

def IPAllocationSpec.address (spec : IPAllocationSpec) : Option String :=
  (Net.parseIp spec.ip).map Net.IP.string

def ipAllocationFinalizer : String := "novanet.io/ipallocation-finalizer"

/-- The objects in the cluster, and the manager in the operator's memory. -/
structure OperatorWorld where
  manager : Manager
  pools : Finmap fun _ : String => IPPool
  allocations : Finmap fun _ : String => IPAllocation

namespace OperatorWorld

variable (o : IterOrder String)

/-! ### The API server -/

def applyPool (w : OperatorWorld) (name : String) (spec : IPPoolSpec) : OperatorWorld :=
  let status := ((w.pools.lookup name).map IPPool.status).getD ⟨0, 0, 0, none⟩
  { w with pools := w.pools.insert name ⟨spec, status⟩ }

def deletePool (w : OperatorWorld) (name : String) : OperatorWorld :=
  { w with pools := w.pools.erase name }

/-- An object that is to be deleted goes with its last finalizer. -/
def putAllocation (w : OperatorWorld) (name : String) (a : IPAllocation) : OperatorWorld :=
  if a.deleting ∧ a.finalizers = [] then { w with allocations := w.allocations.erase name }
  else { w with allocations := w.allocations.insert name a }

/-- Creates the object or updates it. One that is being deleted gets no new finalizers. -/
def applyAllocation (w : OperatorWorld) (name : String) (spec : IPAllocationSpec)
    (finalizers : List String) : OperatorWorld :=
  match w.allocations.lookup name with
  | none => w.putAllocation name ⟨spec, finalizers, false, .unset, none⟩
  | some a =>
    let kept := if a.deleting then finalizers.filter (· ∈ a.finalizers) else finalizers
    w.putAllocation name { a with spec := spec, finalizers := kept }

def deleteAllocation (w : OperatorWorld) (name : String) : OperatorWorld :=
  match w.allocations.lookup name with
  | none => w
  | some a => w.putAllocation name { a with deleting := true }

/-! ### The controllers -/

def reconcilePool (site : List Nat) (w : OperatorWorld) (name : String) : OperatorWorld :=
  match w.pools.lookup name with
  | none => { w with manager := w.manager.unregisterPool name }
  | some pool =>
    match w.manager.updatePool (pool.spec.config name) with
    | .error err =>
      let status := { pool.status with ready := some ⟨false, "InvalidConfig", err.text⟩ }
      { w with pools := w.pools.insert name { pool with status := status } }
    | .ok manager =>
      match manager.getPool name with
      | .error _ => { w with manager := manager }
      | .ok p =>
        let status := p.status o site
        let message := "Pool has " ++ Int.repr status.available ++ " available addresses"
        { w with
          manager := manager
          pools := w.pools.insert name { pool with
            status := ⟨.ofInt status.allocated, .ofInt status.total, .ofInt status.available,
              some ⟨true, "PoolReady", message⟩⟩ } }

def releaseOf (m : Manager) (spec : IPAllocationSpec) : Manager :=
  match Net.parseIp spec.ip with
  | none => m
  | some ip =>
    match m.release spec.pool (.ok ip) with
    | .error _ => m
    | .ok m' => m'

/-- Claims the address of the object. An address that is allocated already is taken to be
its own. -/
def bind (m : Manager) (spec : IPAllocationSpec) : Manager × IPAllocationState × Condition :=
  match Net.parseIp spec.ip with
  | none => (m, .conflict, ⟨false, "InvalidIP", "invalid IP address: " ++ spec.ip⟩)
  | some ip =>
    let boundCondition : Condition :=
      ⟨true, "Bound", "IP " ++ spec.ip ++ " allocated from pool " ++ spec.pool⟩
    match m.allocateSpecific spec.pool (.ok ip) spec.owner spec.resource with
    | .ok m' => (m', .bound, boundCondition)
    | .error err =>
      if err.isAlreadyAllocatedError then (m, .bound, boundCondition)
      else (m, .conflict, ⟨false, "AllocationFailed", err.text⟩)

def reconcileAllocation (w : OperatorWorld) (name : String) : OperatorWorld :=
  match w.allocations.lookup name with
  | none => w
  | some a =>
    if a.deleting then
      if ipAllocationFinalizer ∈ a.finalizers then
        { w with manager := releaseOf w.manager a.spec }.putAllocation name
          { a with finalizers := a.finalizers.filter (· ≠ ipAllocationFinalizer) }
      else w
    else
      let finalizers := if ipAllocationFinalizer ∈ a.finalizers then a.finalizers
        else a.finalizers ++ [ipAllocationFinalizer]
      let (manager, state, condition) := bind w.manager a.spec
      { w with
        manager := manager
        allocations := w.allocations.insert name
          { a with finalizers := finalizers, state := state, valid := some condition } }

end OperatorWorld

end NovaNet
