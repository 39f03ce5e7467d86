import NovaNet.ErrorState
import NovaNet.Grpc
import NovaNet.ServiceLookup

/-! The request that replaces the content of the service and backend maps. The handler
clears and then writes entry by entry, so an entry that it rejects finds the maps already
changed, and what clearing does not reach stays. -/

namespace NovaNet

open ErrorState LastWrite List

structure ServiceKeyV6 where
  ip : BitVec 128
  port : UInt16
  protocol : UInt8
  scope : UInt8
  deriving DecidableEq

structure BackendValueV6 where
  ip : BitVec 128
  port : UInt16
  nodeIp : BitVec 128
  deriving DecidableEq

namespace Proto

structure ServiceEntry where
  ip : String
  port : UInt32
  protocol : UInt32
  scope : UInt32
  backendCount : UInt32
  backendOffset : UInt32
  algorithm : UInt32
  flags : UInt32
  affinityTimeout : UInt32
  maglevOffset : UInt32

structure BackendEntry where
  index : UInt32
  ip : String
  port : UInt32
  nodeIp : String

structure SyncServicesRequest where
  services : List ServiceEntry
  backends : List BackendEntry

structure SyncServicesResponse where
  servicesSynced : UInt32
  backendsSynced : UInt32
  deriving DecidableEq

end Proto

/-- An array is what was written to it; its other entries are zero. -/
structure ServiceMaps where
  services : Finmap fun _ : ServiceKey => ServiceValue
  servicesV6 : Finmap fun _ : ServiceKeyV6 => ServiceValue
  backends : Finmap fun _ : UInt32 => BackendValue
  backendsV6 : Finmap fun _ : UInt32 => BackendValueV6
  deriving DecidableEq

inductive MapWrite where
  | service (key : ServiceKey) (value : ServiceValue)
  | serviceV6 (key : ServiceKeyV6) (value : ServiceValue)
  | backend (index : UInt32) (value : BackendValue)
  | backendV6 (index : UInt32) (value : BackendValueV6)
  deriving DecidableEq

open MapWrite

/-- The maps in memory, or those of the kernel. The latter may lack an IPv6 map, and the
kernel may refuse a write: a full hash map, an index beyond the array. -/
inductive MapManager where
  | mock
  | real (servicesV6Loaded backendsV6Loaded : Bool) (refuses : ServiceMaps → MapWrite → Option String)

section Content

inductive MapKey where
  | service (key : ServiceKey)
  | serviceV6 (key : ServiceKeyV6)
  | backend (index : UInt32)
  | backendV6 (index : UInt32)
  deriving DecidableEq

inductive MapValue where
  | service (value : ServiceValue)
  | backend (value : BackendValue)
  | backendV6 (value : BackendValueV6)
  deriving DecidableEq

def ServiceMaps.lookup (m : ServiceMaps) : MapKey → Option MapValue
  | .service k => (m.services.lookup k).map .service
  | .serviceV6 k => (m.servicesV6.lookup k).map .service
  | .backend i => (m.backends.lookup i).map .backend
  | .backendV6 i => (m.backendsV6.lookup i).map .backendV6

def MapWrite.entry : MapWrite → MapKey × MapValue
  | .service k v => (.service k, .service v)
  | .serviceV6 k v => (.serviceV6 k, .service v)
  | .backend i v => (.backend i, .backend v)
  | .backendV6 i v => (.backendV6 i, .backendV6 v)

def ServiceMaps.write (m : ServiceMaps) : MapWrite → ServiceMaps
  | .service k v => { m with services := m.services.insert k v }
  | .serviceV6 k v => { m with servicesV6 := m.servicesV6.insert k v }
  | .backend i v => { m with backends := m.backends.insert i v }
  | .backendV6 i v => { m with backendsV6 := m.backendsV6.insert i v }

theorem ServiceMaps.ext_lookup {m m' : ServiceMaps} (h : ∀ k, m.lookup k = m'.lookup k) : m = m' := by
  obtain ⟨services, servicesV6, backends, backendsV6⟩ := m
  obtain ⟨services', servicesV6', backends', backendsV6'⟩ := m'
  have hservice : Function.Injective MapValue.service := fun _ _ => MapValue.service.inj
  have hbackend : Function.Injective MapValue.backend := fun _ _ => MapValue.backend.inj
  have hbackendV6 : Function.Injective MapValue.backendV6 := fun _ _ => MapValue.backendV6.inj
  have h₁ : services = services' :=
    Finmap.ext_lookup fun k => Option.map_injective hservice (h (.service k))
  have h₂ : servicesV6 = servicesV6' :=
    Finmap.ext_lookup fun k => Option.map_injective hservice (h (.serviceV6 k))
  have h₃ : backends = backends' :=
    Finmap.ext_lookup fun i => Option.map_injective hbackend (h (.backend i))
  have h₄ : backendsV6 = backendsV6' :=
    Finmap.ext_lookup fun i => Option.map_injective hbackendV6 (h (.backendV6 i))
  rw [h₁, h₂, h₃, h₄]

theorem ServiceMaps.lookup_write (m : ServiceMaps) (w : MapWrite) (k : MapKey) :
    (m.write w).lookup k = if w.entry.1 = k then some w.entry.2 else m.lookup k := by
  cases w <;> cases k <;>
    simp only [write, lookup, entry, lookup_insert_eq, MapKey.service.injEq,
      MapKey.serviceV6.injEq, MapKey.backend.injEq, MapKey.backendV6.injEq, reduceCtorEq,
      if_false, apply_ite (Option.map _), Option.map_some]

theorem ServiceMaps.lookup_writeAll (m : ServiceMaps) (ws : List MapWrite) (k : MapKey) :
    (ws.foldl write m).lookup k = (written k (ws.map entry)).or (m.lookup k) := by
  induction ws generalizing m with
  | nil => rw [foldl_nil, map_nil, written_nil, Option.none_or]
  | cons w ws ih =>
    rw [foldl_cons, ih, lookup_write, map_cons, written_cons, Option.or_assoc]
    by_cases hk : w.entry.1 = k <;> simp [hk]

end Content

namespace MapManager

def clearServices (_ : MapManager) (m : ServiceMaps) : ServiceMaps := { m with services := ∅ }

/-- Nothing happens to the array of the kernel. -/
def clearBackends : MapManager → ServiceMaps → ServiceMaps
  | .mock, m => { m with backends := ∅ }
  | .real .., m => m

def refusal : MapManager → ServiceMaps → MapWrite → Option String
  | .mock, _, _ => none
  | .real false _ _, _, .serviceV6 .. => some "SERVICES_V6 map not loaded"
  | .real _ false _, _, .backendV6 .. => some "BACKENDS_V6 map not loaded"
  | .real _ _ refuses, m, w => refuses m w

def failureText (e : String) : MapWrite → String
  | .service .. => "Failed to upsert service: " ++ e
  | .serviceV6 .. => "Failed to upsert service v6: " ++ e
  | .backend i _ => "Failed to upsert backend at index " ++ toString i ++ ": " ++ e
  | .backendV6 i _ => "Failed to upsert backend v6 at index " ++ toString i ++ ": " ++ e

def writeUnless (w : MapWrite) : Option String → EStateM GrpcError ServiceMaps Unit
  | some e => throw ⟨.internal, failureText e w⟩
  | none => modify (·.write w)

def upsert (mgr : MapManager) (w : MapWrite) : EStateM GrpcError ServiceMaps Unit := do
  writeUnless w (mgr.refusal (← get) w)

end MapManager

namespace Proto

def ServiceEntry.value (e : ServiceEntry) : ServiceValue where
  backendCount := e.backendCount.toUInt16
  backendOffset := e.backendOffset.toUInt16
  algorithm := e.algorithm.toUInt8
  flags := e.flags.toUInt8
  affinityTimeout := e.affinityTimeout.toUInt16
  maglevOffset := e.maglevOffset

def ServiceEntry.write (e : ServiceEntry) : Except GrpcError MapWrite := do
  match ← parseIpField e.ip with
  | .v4 ip => return .service ⟨ip, e.port.toUInt16, e.protocol.toUInt8, e.scope.toUInt8⟩ e.value
  | .v6 ip => return .serviceV6 ⟨ip, e.port.toUInt16, e.protocol.toUInt8, e.scope.toUInt8⟩ e.value

def BackendEntry.write (e : BackendEntry) : Except GrpcError MapWrite := do
  let ip ← parseIpField e.ip
  let nodeIp ← parseIpField e.nodeIp
  match ip, nodeIp with
  | .v4 ip, .v4 node => return .backend e.index ⟨ip, e.port.toUInt16, node⟩
  | .v6 ip, .v6 node => return .backendV6 e.index ⟨ip, e.port.toUInt16, node⟩
  | _, _ => throw ⟨.invalidArgument, "backend at index " ++ toString e.index ++
      ": ip and node_ip must be the same address family"⟩

end Proto

namespace MapManager

def syncEntry (mgr : MapManager) : Except GrpcError MapWrite → EStateM GrpcError ServiceMaps Unit
  | .error e => throw e
  | .ok w => mgr.upsert w

def upsertService (mgr : MapManager) (req : Proto.ServiceEntry) :
    EStateM GrpcError ServiceMaps Unit := mgr.syncEntry req.write

def upsertBackends (mgr : MapManager) (req : List Proto.BackendEntry) :
    EStateM GrpcError ServiceMaps Unit := forM req fun e => mgr.syncEntry e.write

def syncServices (mgr : MapManager) (req : Proto.SyncServicesRequest) :
    EStateM GrpcError ServiceMaps Proto.SyncServicesResponse := do
  modify mgr.clearServices
  modify mgr.clearBackends
  forM req.services fun e => mgr.syncEntry e.write
  forM req.backends fun e => mgr.syncEntry e.write
  return ⟨UInt32.ofNat req.services.length, UInt32.ofNat req.backends.length⟩

end MapManager

section Loops

def plan : List (Except GrpcError MapWrite) → List MapWrite × Option GrpcError
  | [] => ([], none)
  | .error e :: _ => ([], some e)
  | .ok w :: l => (w :: (plan l).1, (plan l).2)

def MapManager.Accepts (mgr : MapManager) : ServiceMaps → List MapWrite → Prop
  | _, [] => True
  | m, w :: ws => mgr.refusal m w = none ∧ mgr.Accepts (m.write w) ws

instance MapManager.decidableAccepts (mgr : MapManager) :
    (m : ServiceMaps) → (ws : List MapWrite) → Decidable (mgr.Accepts m ws)
  | _, [] => inferInstanceAs (Decidable True)
  | m, w :: ws =>
    have := mgr.decidableAccepts (m.write w) ws
    inferInstanceAs (Decidable (mgr.refusal m w = none ∧ mgr.Accepts (m.write w) ws))

def endsWith (m : ServiceMaps) : Option GrpcError → EStateM.Result GrpcError ServiceMaps Unit
  | none => .ok () m
  | some e => .error e m

variable {mgr : MapManager} {m : ServiceMaps}

variable {l : List (Except GrpcError MapWrite)} {w : MapWrite}

theorem MapManager.upsert_accepted (h : mgr.refusal m w = none) :
    mgr.upsert w m = .ok () (m.write w) := by
  change writeUnless w (mgr.refusal m w) m = _
  rw [h]
  rfl

theorem MapManager.upsert_refused {e : String} (h : mgr.refusal m w = some e) :
    mgr.upsert w m = .error ⟨.internal, failureText e w⟩ m := by
  change writeUnless w (mgr.refusal m w) m = _
  rw [h]
  rfl

theorem MapManager.forM_syncEntry (mgr : MapManager) (l : List (Except GrpcError MapWrite))
    (m : ServiceMaps) :
    (mgr.Accepts m (plan l).1 →
      forM l mgr.syncEntry m = endsWith ((plan l).1.foldl ServiceMaps.write m) (plan l).2) ∧
    (¬ mgr.Accepts m (plan l).1 → ∃ text m', forM l mgr.syncEntry m = .error ⟨.internal, text⟩ m') := by
  induction l generalizing m with
  | nil => exact ⟨fun _ => rfl, fun h => absurd trivial h⟩
  | cons x l ih =>
    rw [forM_cons]
    cases x with
    | error e => exact ⟨fun _ => rfl, fun h => absurd trivial h⟩
    | ok w =>
      cases hw : mgr.refusal m w with
      | none =>
        have hrest : (mgr.syncEntry (.ok w) >>= fun _ => forM l mgr.syncEntry) m =
            forM l mgr.syncEntry (m.write w) := by
          change EStateM.bind (mgr.upsert w) _ m = _
          rw [EStateM.bind, upsert_accepted hw]
        rw [hrest]
        refine ⟨fun h => (ih (m.write w)).1 h.2, fun h => (ih (m.write w)).2 ?_⟩
        exact fun hws => h ⟨hw, hws⟩
      | some e =>
        refine ⟨fun h => absurd (hw.symm.trans h.1) (Option.some_ne_none e), fun _ => ?_⟩
        refine ⟨failureText e w, m, ?_⟩
        change EStateM.bind (mgr.upsert w) _ m = _
        rw [EStateM.bind, upsert_refused hw]

theorem mem_of_plan {e : GrpcError} (h : (plan l).2 = some e) : .error e ∈ l := by
  induction l with
  | nil => cases h
  | cons x l ih =>
    cases x with
    | error e' =>
      obtain rfl := Option.some.inj h
      exact mem_cons_self
    | ok w => exact mem_cons_of_mem _ (ih h)

theorem plan_map_ok (h : (plan l).2 = none) : l = (plan l).1.map .ok := by
  induction l with
  | nil => rfl
  | cons x l ih =>
    cases x with
    | error e => cases h
    | ok w =>
      rw [plan, map_cons, ← ih h]

theorem MapManager.forM_syncEntry_ok {u : Unit} {m' : ServiceMaps}
    (h : forM l mgr.syncEntry m = .ok u m') :
    ∃ ws : List MapWrite, l = ws.map .ok ∧ m' = ws.foldl ServiceMaps.write m := by
  by_cases hacc : mgr.Accepts m (plan l).1
  · rw [(mgr.forM_syncEntry l m).1 hacc] at h
    cases he : (plan l).2 with
    | some e =>
      rw [he] at h
      cases h
    | none =>
      rw [he] at h
      exact ⟨(plan l).1, plan_map_ok he, (EStateM.Result.ok.inj h).2.symm⟩
  · obtain ⟨text, m'', herr⟩ := (mgr.forM_syncEntry l m).2 hacc
    simp [herr] at h

end Loops

section Request

variable (mgr : MapManager) (m : ServiceMaps) (req : Proto.SyncServicesRequest)

def Proto.SyncServicesRequest.entries : List (Except GrpcError MapWrite) :=
  req.services.map (·.write) ++ req.backends.map (·.write)

def MapManager.clear : ServiceMaps := mgr.clearBackends (mgr.clearServices m)

theorem Proto.ServiceEntry.write_error {x : Proto.ServiceEntry} {e : GrpcError}
    (h : x.write = .error e) : e.code = .invalidArgument := by
  refine code_of_parse_bind h fun ip h => ?_
  cases ip <;> cases h

theorem Proto.BackendEntry.write_error {x : Proto.BackendEntry} {e : GrpcError}
    (h : x.write = .error e) : e.code = .invalidArgument := by
  refine code_of_parse_bind h fun ip h => code_of_parse_bind h fun node h => ?_
  cases ip <;> cases node <;> cases h <;> rfl

variable {req} in
theorem Proto.SyncServicesRequest.rejection {e : GrpcError} (h : .error e ∈ req.entries) :
    e.code = .invalidArgument := by
  obtain h | h := mem_append.mp h
  · obtain ⟨x, -, hx⟩ := List.mem_map.mp h
    exact Proto.ServiceEntry.write_error hx
  · obtain ⟨x, -, hx⟩ := List.mem_map.mp h
    exact Proto.BackendEntry.write_error hx

theorem MapManager.syncServices_eq :
    mgr.syncServices req m = (forM req.entries mgr.syncEntry >>= fun _ =>
      pure ⟨UInt32.ofNat req.services.length, UInt32.ofNat req.backends.length⟩) (mgr.clear m) := by
  rw [Proto.SyncServicesRequest.entries, forM_append, forM_map, forM_map, bind_assoc]
  rfl

/-- What the maps hold when the request is all they hold. -/
def Proto.SyncServicesRequest.content : List (MapKey × MapValue) :=
  (req.entries.filterMap Except.toOption).map entry

/-- Every number of the entry fits the field that the map has for it. -/
def Proto.ServiceEntry.Fits (e : Proto.ServiceEntry) : Prop :=
  e.port.toNat < 2 ^ 16 ∧ e.protocol.toNat < 2 ^ 8 ∧ e.scope.toNat < 2 ^ 8 ∧
    e.backendCount.toNat < 2 ^ 16 ∧ e.backendOffset.toNat < 2 ^ 16 ∧ e.algorithm.toNat < 2 ^ 8 ∧
    e.flags.toNat < 2 ^ 8 ∧ e.affinityTimeout.toNat < 2 ^ 16

instance (e : Proto.ServiceEntry) : Decidable e.Fits := inferInstanceAs (Decidable (_ ∧ _))

def Proto.SyncServicesRequest.Fits : Prop :=
  (∀ e ∈ req.services, e.Fits) ∧ ∀ e ∈ req.backends, e.port.toNat < 2 ^ 16

instance : Decidable req.Fits := inferInstanceAs (Decidable (_ ∧ _))

/-- Exactly the entries of the request, and each of them as it was sent. -/
def ServiceMaps.Holds : Prop :=
  req.Fits ∧ ∀ k, m.lookup k = written k req.content

def MapManager.AllOrNothing : Prop :=
  (∀ e m', mgr.syncServices req m = .error e m' → e.code = .invalidArgument → m' = m) ∧
    ∀ resp m', mgr.syncServices req m = .ok resp m' → m'.Holds req

def MapManager.Clears : MapManager → MapKey → Prop
  | _, .service _ => True
  | .mock, .backend _ => True
  | _, _ => False

instance MapManager.decidableClears : (mgr : MapManager) → (k : MapKey) → Decidable (mgr.Clears k)
  | .mock, .service _ | .real .., .service _ => inferInstanceAs (Decidable True)
  | .mock, .backend _ => inferInstanceAs (Decidable True)
  | .real .., .backend _ => inferInstanceAs (Decidable False)
  | .mock, .serviceV6 _ | .real .., .serviceV6 _ => inferInstanceAs (Decidable False)
  | .mock, .backendV6 _ | .real .., .backendV6 _ => inferInstanceAs (Decidable False)

theorem MapManager.lookup_clear (k : MapKey) :
    (mgr.clear m).lookup k = if mgr.Clears k then none else m.lookup k := by
  cases mgr <;> cases k <;> simp [clear, clearBackends, clearServices, ServiceMaps.lookup, Clears]

def MapManager.Restores (ws : List MapWrite) : Prop :=
  (∀ k v, written k (ws.map entry) = some v → m.lookup k = some v) ∧
    ∀ k, mgr.Clears k → m.lookup k ≠ none → written k (ws.map entry) ≠ none

def MapManager.Covers (ws : List MapWrite) : Prop :=
  ∀ k, ¬ mgr.Clears k → m.lookup k ≠ none → written k (ws.map entry) ≠ none

variable {mgr m} {ws : List MapWrite}

theorem MapManager.lookup_after (k : MapKey) :
    (ws.foldl ServiceMaps.write (mgr.clear m)).lookup k =
      (written k (ws.map entry)).or (if mgr.Clears k then none else m.lookup k) := by
  rw [ServiceMaps.lookup_writeAll, lookup_clear]

theorem MapManager.restores_iff : ws.foldl ServiceMaps.write (mgr.clear m) = m ↔ mgr.Restores m ws := by
  constructor
  · intro h
    have hk (k : MapKey) : (written k (ws.map entry)).or
        (if mgr.Clears k then none else m.lookup k) = m.lookup k :=
      (mgr.lookup_after k).symm.trans (congrArg (·.lookup k) h)
    refine ⟨fun k v hv => ?_, fun k hc hm hw => hm ?_⟩
    · rw [← hk k, hv, Option.some_or]
    · rw [← hk k, hw, Option.none_or, if_pos hc]
  · rintro ⟨hsame, hback⟩
    refine ServiceMaps.ext_lookup fun k => ?_
    rw [lookup_after]
    cases hw : written k (ws.map entry) with
    | some v => rw [Option.some_or, hsame k v hw]
    | none =>
      rw [Option.none_or]
      by_cases hc : mgr.Clears k
      · rw [if_pos hc]
        by_contra hm
        exact hback k hc (Ne.symm hm) hw
      · rw [if_neg hc]

theorem MapManager.covers_written_iff :
    (∀ k, (ws.foldl ServiceMaps.write (mgr.clear m)).lookup k =
      written k (ws.map entry)) ↔ mgr.Covers m ws := by
  constructor
  · intro h k hc hm hw
    have hk := h k
    rw [lookup_after, hw, Option.none_or, if_neg hc] at hk
    exact hm hk
  · intro h k
    rw [lookup_after]
    cases hw : written k (ws.map entry) with
    | some v => rw [Option.some_or]
    | none =>
      rw [Option.none_or]
      by_cases hc : mgr.Clears k
      · rw [if_pos hc]
      · rw [if_neg hc]
        by_contra hm
        exact h k hc hm hw

end Request

section Outcome

variable {mgr : MapManager} {m : ServiceMaps} {req : Proto.SyncServicesRequest}

theorem MapManager.syncServices_accepted
    (hacc : mgr.Accepts (mgr.clear m) (plan req.entries).1) :
    mgr.syncServices req m = (plan req.entries).2.elim
      (.ok ⟨UInt32.ofNat req.services.length, UInt32.ofNat req.backends.length⟩
        ((plan req.entries).1.foldl ServiceMaps.write (mgr.clear m)))
      fun e => .error e ((plan req.entries).1.foldl ServiceMaps.write (mgr.clear m)) := by
  have hloop := (mgr.forM_syncEntry req.entries (mgr.clear m)).1 hacc
  rw [syncServices_eq]
  change EStateM.bind _ _ _ = _
  rw [EStateM.bind, hloop]
  cases (plan req.entries).2 <;> rfl

theorem MapManager.syncServices_refused
    (hacc : ¬ mgr.Accepts (mgr.clear m) (plan req.entries).1) :
    ∃ text m', mgr.syncServices req m = .error ⟨.internal, text⟩ m' := by
  obtain ⟨text, m', hloop⟩ := (mgr.forM_syncEntry req.entries (mgr.clear m)).2 hacc
  refine ⟨text, m', ?_⟩
  rw [syncServices_eq]
  change EStateM.bind _ _ _ = _
  rw [EStateM.bind, hloop]

theorem MapManager.allOrNothing_of_rejected
    (hacc : mgr.Accepts (mgr.clear m) (plan req.entries).1) {e : GrpcError}
    (he : (plan req.entries).2 = some e) :
    mgr.AllOrNothing m req ↔ mgr.Restores m (plan req.entries).1 := by
  have hcode := Proto.SyncServicesRequest.rejection (mem_of_plan he)
  rw [AllOrNothing, syncServices_accepted hacc, he, ← restores_iff]
  refine ⟨fun h => h.1 _ _ rfl hcode, fun h => ⟨?_, ?_⟩⟩
  · intro e' m' heq _
    obtain ⟨-, rfl⟩ := EStateM.Result.error.inj heq
    exact h
  · intro resp m' heq
    cases heq

theorem MapManager.allOrNothing_of_done
    (hacc : mgr.Accepts (mgr.clear m) (plan req.entries).1) (he : (plan req.entries).2 = none) :
    mgr.AllOrNothing m req ↔ req.Fits ∧ mgr.Covers m (plan req.entries).1 := by
  have hcontent : req.content = (plan req.entries).1.map entry := by
    conv_lhs => rw [Proto.SyncServicesRequest.content, plan_map_ok he, filterMap_map]
    exact congrArg _ filterMap_some
  rw [AllOrNothing, syncServices_accepted hacc, he, ← covers_written_iff, ← hcontent]
  refine ⟨fun h => h.2 _ _ rfl, fun h => ⟨?_, ?_⟩⟩
  · intro e m' heq
    cases heq
  · intro resp m' heq
    obtain ⟨-, rfl⟩ := EStateM.Result.ok.inj heq
    exact h

theorem MapManager.allOrNothing_of_refused
    (hacc : ¬ mgr.Accepts (mgr.clear m) (plan req.entries).1) : mgr.AllOrNothing m req := by
  obtain ⟨text, m', hrun⟩ := syncServices_refused hacc
  rw [AllOrNothing, hrun]
  refine ⟨fun e m'' heq hcode => ?_, fun resp m'' heq => ?_⟩
  · obtain ⟨rfl, -⟩ := EStateM.Result.error.inj heq
    cases hcode
  · cases heq

end Outcome

/-- After clearing, a rejected entry is harmless only if the writes before it put everything
back, and a full pass is complete only if it overwrites what clearing does not reach. -/
theorem MapManager.sync_services_all_or_nothing_iff (mgr : MapManager) (m : ServiceMaps)
    (req : Proto.SyncServicesRequest) :
    mgr.AllOrNothing m req ↔
      (mgr.Accepts (mgr.clear m) (plan req.entries).1 →
        ((plan req.entries).2 ≠ none → mgr.Restores m (plan req.entries).1) ∧
          ((plan req.entries).2 = none → req.Fits ∧ mgr.Covers m (plan req.entries).1)) := by
  by_cases hacc : mgr.Accepts (mgr.clear m) (plan req.entries).1
  · cases he : (plan req.entries).2 with
    | some e =>
      rw [allOrNothing_of_rejected hacc he]
      exact ⟨fun h _ => ⟨fun _ => h, nofun⟩, fun h => (h hacc).1 (Option.some_ne_none e)⟩
    | none =>
      rw [allOrNothing_of_done hacc he]
      exact ⟨fun h _ => ⟨fun hne => absurd rfl hne, fun _ => h⟩, fun h => (h hacc).2 rfl⟩
  · exact ⟨fun _ h => absurd h hacc, fun _ => allOrNothing_of_refused hacc⟩

def webService : Proto.ServiceEntry := ⟨"10.96.0.10", 80, 6, 0, 1, 0, 1, 0, 0, 0⟩

def webBackend : Proto.BackendEntry := ⟨0, "10.244.1.5", 8080, "192.168.1.2"⟩

def webKey : ServiceKey := ⟨0x0A60000A, 80, 6, 0⟩

def staleValue : ServiceValue := ⟨2, 4, 1, 0, 0, 0⟩

/-- In memory both IPv4 maps are cleared, so stale entries of theirs do no harm. -/
theorem MapManager.sync_services_all_or_nothing_example :
    MapManager.mock.AllOrNothing
      ⟨(∅ : Finmap _).insert webKey staleValue, ∅, (∅ : Finmap _).insert 7 ⟨1, 2, 3⟩, ∅⟩
      ⟨[webService], [webBackend]⟩ := by
  refine (sync_services_all_or_nothing_iff _ _ _).mpr fun _ => ⟨fun h => ?_, fun _ => ⟨?_, ?_⟩⟩
  · exact absurd (by decide +kernel) h
  · decide
  · intro k hc hm
    cases k with
    | service _ | backend _ => exact absurd trivial hc
    | serviceV6 _ | backendV6 _ => exact absurd rfl hm

/-- A bad address empties the service map, whichever the manager; and the kernel's array
keeps a backend that an empty request does not name. -/
theorem MapManager.sync_services_not_all_or_nothing :
    (∀ mgr : MapManager, ¬ mgr.AllOrNothing ⟨(∅ : Finmap _).insert webKey staleValue, ∅, ∅, ∅⟩
      ⟨[⟨"10.96.0.300", 80, 6, 0, 1, 0, 1, 0, 0, 0⟩], []⟩) ∧
    ¬ (MapManager.real true true fun _ _ => none).AllOrNothing
      ⟨∅, ∅, (∅ : Finmap _).insert 7 ⟨1, 2, 3⟩, ∅⟩ ⟨[], []⟩ := by
  refine ⟨fun mgr h => ?_, fun h => ?_⟩
  · have hparse : Net.parseIp "10.96.0.300" = none := by decide
    have hplan : plan (Proto.SyncServicesRequest.entries
        ⟨[⟨"10.96.0.300", 80, 6, 0, 1, 0, 1, 0, 0, 0⟩], []⟩) =
        ([], some ⟨.invalidArgument, "invalid IP '10.96.0.300': invalid IP address syntax"⟩) := by
      simp only [Proto.SyncServicesRequest.entries, map_cons, map_nil, append_nil,
        Proto.ServiceEntry.write, parseIpField, hparse]
      rfl
    have hrestores := (allOrNothing_of_rejected (by rw [hplan]; trivial) (by rw [hplan])).mp h
    rw [hplan] at hrestores
    exact hrestores.2 (.service webKey) (by cases mgr <;> trivial) (by decide +kernel) rfl
  · have hcovers := ((allOrNothing_of_done (by trivial) rfl).mp h).2
    exact hcovers (.backend 7) (by decide) (by decide +kernel) rfl

end NovaNet
