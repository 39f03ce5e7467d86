import NovaNet.ControlPlaneVip
import NovaNet.ServiceSync

/-! The backends of the control-plane VIP over the rounds of health checks. A round compares
its results with those of the round before and leaves the dataplane alone when it finds no
difference, whatever the dataplane holds. -/

namespace NovaNet

open LastWrite List Option ServiceMaps Net

/-- A call that does not reach the dataplane, or one whose reply does not come back. -/
inductive RpcFault where
  | lost
  | replyLost
  deriving DecidableEq

structure VipFaults where
  backends : Option RpcFault
  service : Option RpcFault

/-- The error is that of the dataplane, or `none` for one of the connection. -/
def rpc (fault : Option RpcFault) (x : EStateM GrpcError ServiceMaps Unit) :
    EStateM (Option GrpcError) ServiceMaps Unit := fun m =>
  match fault, x m with
  | none, .ok _ m' => .ok () m'
  | none, .error e m' => .error (some e) m'
  | some .lost, _ => .error none m
  | some .replyLost, .ok _ m' => .error none m'
  | some .replyLost, .error _ m' => .error none m'

def BackendEntry.toProto (e : BackendEntry) : Proto.BackendEntry :=
  ⟨UInt32.ofNat e.index, e.ip, UInt32.ofNat e.port, e.nodeIp⟩

open BackendEntry

def vipService (vip : String) (backendCount : Nat) : Proto.ServiceEntry where
  ip := vip
  port := UInt32.ofNat apiServerPort
  protocol := UInt32.ofNat (protocolToNumber .tcp)
  scope := UInt32.ofNat Scope.clusterIP.number
  backendCount := UInt32.ofNat backendCount
  backendOffset := UInt32.ofNat backendBaseOffset
  algorithm := UInt32.ofNat Algorithm.roundRobin.number
  flags := 0
  affinityTimeout := 0
  maglevOffset := 0

def pushVipBackends (mgr : MapManager) (fault : Option RpcFault) (backends : List BackendEntry) :
    EStateM (Option GrpcError) ServiceMaps Unit :=
  if 0 < backends.length then rpc fault (mgr.upsertBackends (backends.map toProto))
  else pure ()

def pushUpdate (mgr : MapManager) (faults : VipFaults) (vip : String) (ips : List String) :
    EStateM (Option GrpcError) ServiceMaps Unit := do
  pushVipBackends mgr faults.backends (vipBackends ips)
  rpc faults.service (mgr.upsertService (vipService vip (intToU32 ips.length)))

/-- `results` are those of the last round that had any, and `failed` tells whether the last
round ended with an error of the dataplane. -/
structure VipWorld where
  vip : VipManager
  maps : ServiceMaps
  results : Health
  failed : Bool

namespace VipWorld

def start (maps : ServiceMaps) : VipWorld := ⟨⟨∅⟩, maps, ∅, false⟩

def afterUpdate (healthy : Health) : EStateM.Result (Option GrpcError) ServiceMaps Unit → VipWorld
  | .ok _ maps => ⟨⟨healthy⟩, maps, healthy, false⟩
  | .error _ maps => ⟨⟨healthy⟩, maps, healthy, true⟩

/-- The results are recorded before the update, and whether or not it succeeds. -/
def reconcile (mgr : MapManager) (vip : String) (o : IterOrder String) (faults : VipFaults)
    (s : VipWorld) : Option (List (String × Bool)) → VipWorld
  | none => { s with failed := false }
  | some [] => { s with results := ∅, failed := false }
  | some (p :: ps) =>
    let healthy := checkAll (p :: ps)
    if mapsEqual s.vip.backends healthy then ⟨⟨healthy⟩, s.maps, healthy, false⟩
    else afterUpdate healthy (pushUpdate mgr faults vip (healthyIPs o healthy) s.maps)

end VipWorld

section Range

def vipServiceKey : Net.IP → MapKey
  | .v4 a => .service ⟨a, 6443, 6, 0⟩
  | .v6 a => .serviceV6 ⟨a, 6443, 6, 0⟩

def slotKey : Net.IP → UInt32 → MapKey
  | .v4 _, i => .backend i
  | .v6 _, i => .backendV6 i

def slotValue : Net.IP → MapValue
  | .v4 a => .backend ⟨a, 6443, a⟩
  | .v6 a => .backendV6 ⟨a, 6443, a⟩

def MapValue.slots : MapValue → List UInt32
  | .service v =>
    (List.range v.backendCount.toNat).map fun j => UInt32.ofNat (v.backendOffset.toNat + j)
  | _ => []

def MapValue.address : MapValue → Option Net.IP
  | .service _ => none
  | .backend b => some (.v4 b.ip)
  | .backendV6 b => some (.v6 b.ip)

/-- The addresses in the backend range of the VIP's service entry, `none` for a slot that
was never written. -/
def vipRange (vip : String) (m : ServiceMaps) : List (Option Net.IP) :=
  match parseIp vip with
  | none => []
  | some a => ((m.lookup (vipServiceKey a)).elim [] MapValue.slots).map fun i =>
      (m.lookup (slotKey a i)).bind MapValue.address

def SameFamily : Net.IP → Net.IP → Prop
  | .v4 _, .v4 _ => True
  | .v6 _, .v6 _ => True
  | _, _ => False

instance decidableSameFamily : (a b : Net.IP) → Decidable (SameFamily a b)
  | .v4 _, .v4 _ => inferInstanceAs (Decidable True)
  | .v6 _, .v6 _ => inferInstanceAs (Decidable True)
  | .v4 _, .v6 _ => inferInstanceAs (Decidable False)
  | .v6 _, .v4 _ => inferInstanceAs (Decidable False)

theorem slotKey_eq {a b : Net.IP} (h : SameFamily a b) (i : UInt32) : slotKey b i = slotKey a i := by
  cases a <;> cases b <;> first | rfl | exact h.elim

@[simp] theorem address_slotValue (a : Net.IP) : (slotValue a).address = some a := by
  cases a <;> rfl

variable {m m' : ServiceMaps} {ips : List String} {mgr : MapManager} {vip : String}
  {faults : VipFaults} {w : MapWrite} {u : Unit} {i n j : Nat}

theorem rpc_ok {fault : Option RpcFault} {x : EStateM GrpcError ServiceMaps Unit}
    (h : rpc fault x m = .ok u m') : x m = .ok () m' := by
  unfold rpc at h
  split at h
  · rename_i hx
    rw [hx, (EStateM.Result.ok.inj h).2]
  all_goals cases h

theorem write_vipService (h : (vipService vip n).write = .ok w) :
    ∃ a, parseIp vip = some a ∧ w.entry = (vipServiceKey a, .service (vipService vip n).value) := by
  simp only [Proto.ServiceEntry.write, vipService, parseIpField] at h
  cases ha : parseIp vip with
  | none =>
    rw [ha] at h
    cases h
  | some a =>
    rw [ha] at h
    refine ⟨a, rfl, ?_⟩
    cases a <;> obtain rfl := Except.ok.inj h <;> rfl

theorem write_vipBackend {ip : String}
    (h : (toProto ⟨i, ip, apiServerPort, ip⟩).write = .ok w) :
    ∃ a, parseIp ip = some a ∧ w.entry = (slotKey a (UInt32.ofNat i), slotValue a) := by
  simp only [Proto.BackendEntry.write, toProto, parseIpField] at h
  cases ha : parseIp ip with
  | none =>
    rw [ha] at h
    cases h
  | some a =>
    rw [ha] at h
    refine ⟨a, rfl, ?_⟩
    cases a <;> obtain rfl := Except.ok.inj h <;> rfl

theorem write_vipBackends {f : Nat → Nat} {ws : List MapWrite}
    (h : ((ips.mapIdx fun i ip => ⟨f i, ip, apiServerPort, ip⟩).map fun e => (toProto e).write) =
      ws.map .ok) :
    ∃ as : List Net.IP, ips.map parseIp = as.map some ∧
      ws.map MapWrite.entry = as.mapIdx fun i a => (slotKey a (UInt32.ofNat (f i)), slotValue a) := by
  induction ips generalizing f ws with
  | nil =>
    rw [mapIdx_nil, map_nil, eq_comm, map_eq_nil_iff] at h
    exact ⟨[], rfl, by rw [h]; rfl⟩
  | cons ip ips ih =>
    rw [mapIdx_cons, map_cons] at h
    cases ws with
    | nil => cases h
    | cons w ws =>
      obtain ⟨hw, hws⟩ := List.cons.inj h
      obtain ⟨a, ha, hentry⟩ := write_vipBackend hw
      obtain ⟨as, has, hentries⟩ := ih hws
      refine ⟨a :: as, by rw [map_cons, map_cons, ha, has], ?_⟩
      rw [map_cons, mapIdx_cons, hentry, hentries]

def vipSlot (i : Nat) : UInt32 := UInt32.ofNat ((backendBaseOffset + intToU32 i) % 2 ^ 32)

theorem pushUpdate_ok (h : pushUpdate mgr faults vip ips m = .ok u m') :
    ∃ (v : Net.IP) (as : List Net.IP) (ws : List MapWrite),
      parseIp vip = some v ∧ ips.map parseIp = as.map some ∧
      m' = ws.foldl write m ∧
      ws.map MapWrite.entry = (as.mapIdx fun i a => (slotKey a (vipSlot i), slotValue a)) ++
        [(vipServiceKey v, .service (vipService vip (intToU32 ips.length)).value)] := by
  obtain ⟨u₁, m₁, hbackends, hservice⟩ := ErrorState.bind_eq_ok h
  have hloop : forM ((vipBackends ips).map fun e => (toProto e).write) mgr.syncEntry m = .ok () m₁ := by
    unfold pushVipBackends at hbackends
    split at hbackends
    · have hloop := rpc_ok hbackends
      rwa [MapManager.upsertBackends, ← ErrorState.forM_map Proto.BackendEntry.write,
        List.map_map] at hloop
    · next hips =>
      rw [eq_nil_of_length_eq_zero (Nat.eq_zero_of_not_pos hips)]
      exact congrArg (EStateM.Result.ok ()) (EStateM.Result.ok.inj hbackends).2
  obtain ⟨ws, hws, rfl⟩ := MapManager.forM_syncEntry_ok hloop
  obtain ⟨as, has, hentries⟩ := write_vipBackends hws
  have hone : forM [(vipService vip (intToU32 ips.length)).write] mgr.syncEntry
      (ws.foldl write m) = .ok () m' := by
    rw [forM_cons, forM_nil]
    change EStateM.bind _ _ _ = _
    rw [EStateM.bind, ← MapManager.upsertService, rpc_ok hservice]
    rfl
  obtain ⟨ws', hws', rfl⟩ := MapManager.forM_syncEntry_ok hone
  cases ws' with
  | nil => cases hws'
  | cons w rest =>
    obtain ⟨hw, hrest⟩ := List.cons.inj hws'
    obtain rfl := map_eq_nil_iff.mp hrest.symm
    obtain ⟨v, hv, hentry⟩ := write_vipService hw
    refine ⟨v, as, ws ++ [w], hv, has, ?_, ?_⟩
    · rw [foldl_append]
    · rw [map_append, hentries, map_singleton, hentry]
      rfl

theorem vipSlot_eq (hi : i < 2 ^ 16) : vipSlot i = UInt32.ofNat (backendBaseOffset + i) := by
  have hsmall : intToU32 i = i := intToU32_of_lt (by omega)
  rw [vipSlot, hsmall, Nat.mod_eq_of_lt (by simp only [backendBaseOffset]; omega)]

theorem vipSlot_inj (hi : i < 2 ^ 16) (hj : j < 2 ^ 16) (h : vipSlot i = vipSlot j) : i = j := by
  have hnat := congrArg UInt32.toNat h
  rw [vipSlot_eq hi, vipSlot_eq hj, UInt32.toNat_ofNat', UInt32.toNat_ofNat'] at hnat
  simp only [backendBaseOffset] at hnat
  omega

theorem slots_vipService (vip : String) (hn : n < 2 ^ 16) :
    (MapValue.service (vipService vip (intToU32 n)).value).slots = (List.range n).map vipSlot := by
  have hsmall : intToU32 n = n := intToU32_of_lt (by omega)
  have hcount : (vipService vip (intToU32 n)).value.backendCount.toNat = n := by
    simp only [vipService, Proto.ServiceEntry.value, hsmall, UInt32.toNat_toUInt16, UInt32.toNat_ofNat']
    omega
  rw [MapValue.slots, hcount]
  refine map_congr_left fun j hj => ?_
  rw [vipSlot_eq ((List.mem_range.mp hj).trans hn)]
  rfl

theorem vipServiceKey_ne_slotKey (v a : Net.IP) (i : UInt32) : vipServiceKey v ≠ slotKey a i := by
  cases v <;> cases a <;> exact nofun

theorem written_slots {v : Net.IP} {as : List Net.IP} (hfam : ∀ a ∈ as, SameFamily v a)
    (hn : as.length < 2 ^ 16) (hj : j < as.length) :
    written (slotKey v (vipSlot j))
      (as.mapIdx fun i a => (slotKey a (vipSlot i), slotValue a)) = some (slotValue as[j]) := by
  refine (written_of_forall fun e he hkey => ?_).mpr ⟨(slotKey as[j] (vipSlot j), slotValue as[j]),
    mem_mapIdx.mpr ⟨j, hj, rfl⟩, slotKey_eq (hfam _ (getElem_mem hj)) _⟩
  obtain ⟨i, hi, rfl⟩ := mem_mapIdx.mp he
  have hslot : vipSlot i = vipSlot j := by
    rw [slotKey_eq (hfam _ (getElem_mem hi))] at hkey
    cases v <;> simpa [slotKey] using hkey
  obtain rfl := vipSlot_inj (hi.trans hn) (hj.trans hn) hslot
  rfl

theorem vipRange_pushUpdate (h : pushUpdate mgr faults vip ips m = .ok u m')
    (hn : ips.length < 2 ^ 16)
    (hfam : ∀ ip ∈ ips, ∀ v ∈ parseIp vip, ∀ a ∈ parseIp ip, SameFamily v a) :
    vipRange vip m' = ips.map parseIp ∧ ∀ ip ∈ ips, (parseIp ip).isSome = true := by
  obtain ⟨v, as, ws, hv, has, rfl, hentries⟩ := pushUpdate_ok h
  have hlen : as.length = ips.length := by
    simpa using (congrArg List.length has).symm
  have hsame : ∀ a ∈ as, SameFamily v a := by
    intro a ha
    have hmem : some a ∈ ips.map parseIp := has ▸ List.mem_map_of_mem ha
    obtain ⟨ip, hip, hpa⟩ := List.mem_map.mp hmem
    exact hfam ip hip v hv a hpa
  have hservice : (ws.foldl write m).lookup (vipServiceKey v) =
      some (.service (vipService vip (intToU32 ips.length)).value) := by
    rw [lookup_writeAll, hentries, written_append, written_cons, written_nil]
    simp
  have hslot : ∀ j (hj : j < as.length),
      (ws.foldl write m).lookup (slotKey v (vipSlot j)) = some (slotValue as[j]) := by
    intro j hj
    rw [lookup_writeAll, hentries, written_append, written_cons, written_nil,
      written_slots hsame (by omega) hj, if_neg (vipServiceKey_ne_slotKey v v _)]
    simp
  constructor
  · rw [vipRange, hv, has]
    simp only [hservice, elim_some, slots_vipService vip hn, List.map_map]
    refine ext_getElem (by simp [hlen]) fun j hj hj' => ?_
    rw [getElem_map, getElem_map, getElem_range, Function.comp_apply,
      hslot j (by simpa using hj'), bind_some, address_slotValue]
  · intro ip hip
    have hmem : parseIp ip ∈ as.map some := has ▸ List.mem_map_of_mem hip
    obtain ⟨a, -, ha⟩ := List.mem_map.mp hmem
    rw [← ha]
    rfl

end Range

section Comparison

variable {o : IterOrder String} {old new : Health} {ip : String}

theorem mem_healthyIPs : ip ∈ healthyIPs o new ↔ new.lookup ip = some true := by
  rw [healthyIPs, mem_filter, o.mem_enum, Finmap.mem_keys, decide_eq_true_iff]
  exact ⟨fun h => h.2, fun h => ⟨Finmap.mem_of_lookup_eq_some h, h⟩⟩

theorem mapsEqual_refl (a : Health) : mapsEqual a a = true := by
  simp [mapsEqual]

/-- What the comparison misses is a healthy address in place of one that was not. -/
theorem healthy_of_mapsEqual (h : mapsEqual old new = true)
    (hknown : ∀ ip, new.lookup ip = some true → ip ∈ old) :
    new.lookup ip = some true ↔ old.lookup ip = some true := by
  have hsame : ∀ k ∈ old, (new.lookup k).getD false = (old.lookup k).getD false := by
    have hand := of_decide_eq_true h
    exact fun k hk => hand.2 k (Finmap.mem_keys.mpr hk)
  have hgetD : ∀ v : Option Bool, v = some true ↔ v.getD false = true := by
    rintro (_ | _) <;> simp
  by_cases hmem : ip ∈ old
  · rw [hgetD, hgetD, hsame ip hmem]
  · exact iff_of_false (fun hnew => hmem (hknown ip hnew))
      fun hold => hmem (Finmap.mem_of_lookup_eq_some hold)

end Comparison

namespace VipWorld

def Tracks (vip : String) (s : VipWorld) : Prop :=
  (∀ ip, s.results.lookup ip = some true → ∃ a, parseIp ip = some a ∧ some a ∈ vipRange vip s.maps) ∧
  ∀ x ∈ vipRange vip s.maps, ∃ ip a, s.results.lookup ip = some true ∧ parseIp ip = some a ∧ x = some a

def Retries (vip : String) (s : VipWorld) : Prop :=
  ∀ o probes, checkAll probes = s.results → (s.vip.reconcile vip o (some probes)).2 ≠ []

def Step (mgr : MapManager) (vip : String)
    (guard : VipWorld → IterOrder String → VipFaults → Option (List (String × Bool)) → Prop)
    (s s' : VipWorld) : Prop :=
  ∃ o faults probes, guard s o faults probes ∧ s' = s.reconcile mgr vip o faults probes

abbrev Run (mgr : MapManager) (vip : String)
    (guard : VipWorld → IterOrder String → VipFaults → Option (List (String × Bool)) → Prop) :=
  Relation.ReflTransGen (Step mgr vip guard)

/-- One family, and fewer addresses than the entry can count. -/
def Fitting (vip : String) (ips : List String) : Prop :=
  (∀ ip ∈ ips, ∀ v ∈ parseIp vip, ∀ a ∈ parseIp ip, SameFamily v a) ∧ ips.length < 2 ^ 16

instance (vip : String) (ips : List String) : Decidable (Fitting vip ips) :=
  inferInstanceAs (Decidable (_ ∧ _))

/-- An empty list of nodes comes only when no address was healthy; results that the comparison
takes for the recorded ones bring no new healthy address; and an update sends what the VIP's
range can hold, without an error. -/
def Clean (mgr : MapManager) (vip : String) (s : VipWorld) (o : IterOrder String)
    (faults : VipFaults) : Option (List (String × Bool)) → Prop
  | none => True
  | some [] => healthyIPs o s.results = []
  | some (p :: ps) =>
    if mapsEqual s.vip.backends (checkAll (p :: ps)) then
      ∀ ip ∈ healthyIPs o (checkAll (p :: ps)), ip ∈ s.vip.backends
    else
      Fitting vip (healthyIPs o (checkAll (p :: ps))) ∧
        (s.reconcile mgr vip o faults (some (p :: ps))).failed = false

instance (mgr : MapManager) (vip : String) (s : VipWorld) (o : IterOrder String)
    (faults : VipFaults) :
    (probes : Option (List (String × Bool))) → Decidable (Clean mgr vip s o faults probes)
  | none => inferInstanceAs (Decidable True)
  | some [] => inferInstanceAs (Decidable (_ = _))
  | some (p :: ps) => inferInstanceAs (Decidable
      (if mapsEqual s.vip.backends (checkAll (p :: ps)) then
        ∀ ip ∈ healthyIPs o (checkAll (p :: ps)), ip ∈ s.vip.backends
      else Fitting vip (healthyIPs o (checkAll (p :: ps))) ∧
        (s.reconcile mgr vip o faults (some (p :: ps))).failed = false))

structure Inv (vip : String) (s : VipWorld) : Prop where
  succeeded : s.failed = false
  recorded : ∀ ip, s.vip.backends.lookup ip = some true ↔ s.results.lookup ip = some true
  tracks : s.Tracks vip

variable {mgr : MapManager} {vip : String} {s s' : VipWorld} {o : IterOrder String} {faults : VipFaults}

theorem inv_start {maps : ServiceMaps} (h : vipRange vip maps = []) : (start maps).Inv vip := by
  refine ⟨rfl, fun ip => Iff.rfl, fun ip hip => ?_, fun x hx => ?_⟩
  · cases hip
  · simp [start, h] at hx

theorem Tracks.congr (h : s.Tracks vip) (hmaps : s'.maps = s.maps)
    (hresults : ∀ ip, s'.results.lookup ip = some true ↔ s.results.lookup ip = some true) :
    s'.Tracks vip := by
  obtain ⟨hin, hout⟩ := h
  refine ⟨fun ip hip => ?_, fun x hx => ?_⟩
  · rw [hmaps]
    exact hin ip ((hresults ip).mp hip)
  · rw [hmaps] at hx
    obtain ⟨ip, a, hip, ha, rfl⟩ := hout x hx
    exact ⟨ip, a, (hresults ip).mpr hip, ha, rfl⟩

theorem Inv.reconcile {probes : Option (List (String × Bool))} (h : s.Inv vip)
    (hclean : Clean mgr vip s o faults probes) : (s.reconcile mgr vip o faults probes).Inv vip := by
  match probes with
  | none => exact ⟨rfl, h.recorded, h.tracks.congr rfl fun _ => Iff.rfl⟩
  | some [] =>
    have hnone : ∀ ip, s.results.lookup ip ≠ some true := by
      intro ip hip
      have hmem := (mem_healthyIPs (o := o)).mpr hip
      rw [show healthyIPs o s.results = [] from hclean] at hmem
      cases hmem
    have hsame : ∀ ip, (∅ : Health).lookup ip = some true ↔
        s.results.lookup ip = some true := by simp [hnone]
    exact ⟨rfl, fun ip => (h.recorded ip).trans (hsame ip).symm, h.tracks.congr rfl hsame⟩
  | some (p :: ps) =>
    simp only [Clean] at hclean
    simp only [VipWorld.reconcile] at hclean ⊢
    by_cases he : mapsEqual s.vip.backends (checkAll (p :: ps)) = true
    · rw [if_pos he] at hclean ⊢
      have hsame : ∀ ip, (checkAll (p :: ps)).lookup ip = some true ↔
          s.results.lookup ip = some true := by
        intro ip
        rw [healthy_of_mapsEqual he fun ip hip => hclean ip (mem_healthyIPs.mpr hip)]
        exact h.recorded ip
      exact ⟨rfl, fun ip => Iff.rfl, h.tracks.congr rfl hsame⟩
    · rw [if_neg he, if_neg he] at hclean
      rw [if_neg he]
      obtain ⟨⟨hfam, hn⟩, hok⟩ := hclean
      cases hpush : pushUpdate mgr faults vip (healthyIPs o (checkAll (p :: ps))) s.maps with
      | error e maps =>
        rw [hpush] at hok
        cases hok
      | ok u maps =>
        obtain ⟨hrange, hparse⟩ := vipRange_pushUpdate hpush hn hfam
        refine ⟨rfl, fun ip => Iff.rfl, fun ip hip => ?_, fun x hx => ?_⟩
        · have hmem := (mem_healthyIPs (o := o)).mpr hip
          obtain ⟨a, ha⟩ := isSome_iff_exists.mp (hparse ip hmem)
          refine ⟨a, ha, ?_⟩
          change some a ∈ vipRange vip maps
          rw [hrange, ← ha]
          exact List.mem_map_of_mem hmem
        · replace hx : x ∈ vipRange vip maps := hx
          rw [hrange] at hx
          obtain ⟨ip, hmem, rfl⟩ := List.mem_map.mp hx
          obtain ⟨a, ha⟩ := isSome_iff_exists.mp (hparse ip hmem)
          exact ⟨ip, a, mem_healthyIPs.mp hmem, ha, ha⟩

theorem recorded_of_failed {probes : Option (List (String × Bool))}
    (h : (s.reconcile mgr vip o faults probes).failed = true) :
    (s.reconcile mgr vip o faults probes).vip.backends =
      (s.reconcile mgr vip o faults probes).results := by
  match probes with
  | none => cases h
  | some [] => cases h
  | some (p :: ps) =>
    simp only [VipWorld.reconcile] at h ⊢
    by_cases he : mapsEqual s.vip.backends (checkAll (p :: ps)) = true
    · rw [if_pos he]
    · rw [if_neg he]
      cases pushUpdate mgr faults vip (healthyIPs o (checkAll (p :: ps))) s.maps <;> rfl

theorem requests_eq_nil (m : VipManager) (o : IterOrder String) {probes : List (String × Bool)}
    (h : m.backends = checkAll probes) : (m.reconcile vip o (some probes)).2 = [] := by
  cases probes with
  | nil => rfl
  | cons p ps =>
    simp only [VipManager.reconcile]
    rw [h, if_pos (mapsEqual_refl _)]

end VipWorld

open VipWorld

/-- In a clean run the VIP follows the health checks. A failed update is never tried again
with the same results, so clean runs have none. -/
theorem vip_tracks_health (mgr : MapManager) (vip : String) (maps : ServiceMaps)
    (hmaps : vipRange vip maps = []) :
    (∀ s, Run mgr vip (Clean mgr vip) (.start maps) s →
      (s.failed = false → s.Tracks vip) ∧ (s.failed = true → s.Retries vip)) ∧
    ∀ s, Run mgr vip (fun _ _ _ _ => True) (.start maps) s → s.failed = true →
      ∀ o probes, checkAll probes = s.results → (s.vip.reconcile vip o (some probes)).2 = [] := by
  constructor
  · intro s hrun
    have hinv : s.Inv vip := by
      induction hrun with
      | refl => exact inv_start hmaps
      | tail _ hstep ih =>
        obtain ⟨o, faults, probes, hclean, rfl⟩ := hstep
        exact ih.reconcile hclean
    refine ⟨fun _ => hinv.tracks, fun hfailed => ?_⟩
    simp [hinv.succeeded] at hfailed
  · intro s hrun hfailed o probes hsame
    cases hrun with
    | refl => cases hfailed
    | tail _ hstep =>
      obtain ⟨o', faults, probes', -, rfl⟩ := hstep
      exact requests_eq_nil _ o ((recorded_of_failed hfailed).trans hsame.symm)

section Example

def noMaps : ServiceMaps := ⟨∅, ∅, ∅, ∅⟩

def healthRound (s : VipWorld) (faults : VipFaults) (probes : List (String × Bool)) : VipWorld :=
  s.reconcile .mock "10.96.0.1" .sorted faults (some probes)

theorem step_healthRound
    (guard : VipWorld → IterOrder String → VipFaults → Option (List (String × Bool)) → Prop)
    (s : VipWorld) (faults : VipFaults) (probes : List (String × Bool))
    (h : guard s .sorted faults (some probes)) :
    Step .mock "10.96.0.1" guard s (healthRound s faults probes) :=
  ⟨.sorted, faults, some probes, h, rfl⟩

def firstRound : VipWorld :=
  healthRound (.start noMaps) ⟨none, none⟩ [("10.0.0.1", true), ("10.0.0.2", false)]

def secondRound : VipWorld :=
  healthRound firstRound ⟨none, none⟩ [("10.0.0.1", true), ("10.0.0.2", true)]

def thirdRound : VipWorld := healthRound secondRound ⟨none, none⟩ [("10.0.0.2", true)]

/-- The second node becomes healthy, then the first one leaves. -/
theorem vip_tracks_health_example :
    ∃ s, Run .mock "10.96.0.1" (Clean .mock "10.96.0.1") (.start noMaps) s ∧
      vipRange "10.96.0.1" s.maps = [some (.v4 0x0A000002)] ∧ s.Tracks "10.96.0.1" := by
  have hrun : Run .mock "10.96.0.1" (Clean .mock "10.96.0.1") (.start noMaps) thirdRound :=
    ((Relation.ReflTransGen.single (step_healthRound _ _ _ _ (by decide +kernel))).tail
      (step_healthRound _ _ _ _ (by decide +kernel))).tail
      (step_healthRound _ _ _ _ (by decide +kernel))
  refine ⟨thirdRound, hrun, by decide +kernel, ?_⟩
  exact ((vip_tracks_health .mock "10.96.0.1" noMaps (by decide +kernel)).1 thirdRound hrun).1
    (by decide +kernel)

def replacedNode : VipWorld :=
  healthRound (healthRound (.start noMaps) ⟨none, none⟩ [("10.0.0.1", false)]) ⟨none, none⟩
    [("10.0.0.2", true)]

def lostUpdate : VipWorld :=
  healthRound (.start noMaps) ⟨some .lost, none⟩ [("10.0.0.1", true)]

/-- The only node is down, and a healthy one takes its place: nothing is sent. And when the
first update is lost, the same results are not sent again. -/
theorem vip_misses_health :
    (∃ s, Run .mock "10.96.0.1" (fun _ _ _ _ => True) (.start noMaps) s ∧
      s.failed = false ∧ ¬ s.Tracks "10.96.0.1") ∧
    ∃ s, Run .mock "10.96.0.1" (fun _ _ _ _ => True) (.start noMaps) s ∧
      s.failed = true ∧ ¬ s.Retries "10.96.0.1" := by
  constructor
  · have hhealthy : replacedNode.results.lookup "10.0.0.2" = some true := by decide +kernel
    have hrange : vipRange "10.96.0.1" replacedNode.maps = [] := by decide +kernel
    refine ⟨replacedNode, (Relation.ReflTransGen.single (step_healthRound _ _ _ _ trivial)).tail
      (step_healthRound _ _ _ _ trivial), by decide +kernel, fun htracks => ?_⟩
    obtain ⟨a, -, ha⟩ := htracks.1 "10.0.0.2" hhealthy
    simp [hrange] at ha
  · have hrecorded : lostUpdate.vip.backends = checkAll [("10.0.0.1", true)] := by decide +kernel
    refine ⟨lostUpdate, .single (step_healthRound _ _ _ _ trivial), by decide +kernel,
      fun hretries => ?_⟩
    exact hretries .sorted [("10.0.0.1", true)] (by decide +kernel) (requests_eq_nil _ _ hrecorded)

end Example

end NovaNet
