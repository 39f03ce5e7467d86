import NovaNet.ServiceRuns

/-! Every backend slot and every Maglev slot is free or belongs to one tracked service.
For backend slots this holds in every run. A Maglev table at offset 0 is never given
back. -/

namespace NovaNet

open List FreeList

open FreeList (Block IsFree Shares)

namespace Watcher

def backendOwner (w : Watcher) (key : String) : Option Block :=
  (w.services.lookup key).map ServiceState.backendBlock

def maglevOwner (w : Watcher) (key : String) : Option Block :=
  match w.services.lookup key with
  | none => none
  | some st => if st.algorithm = .maglev then some st.maglevBlock else none

variable {cfg : WatcherConfig} {w : Watcher} {svc : Service} {backends : List BackendInfo}
  {st : ServiceState} {r : Watcher × List DpRequest} {cap : Nat} {key : String}

theorem lookup_release (w : Watcher) (key k : String) :
    (w.release key).services.lookup k = if k = key then none else w.services.lookup k := by
  have hservices : (w.release key).services = w.services.erase key := by
    unfold release
    cases w.services.lookup key <;> rfl
  rw [hservices, LastWrite.lookup_erase_eq]
  exact if_congr eq_comm rfl rfl

theorem Placed.lookup (h : Placed cfg w svc backends st r) (k : String) :
    r.1.services.lookup k = if k = svc.key then some st else w.services.lookup k := by
  rw [h.services, LastWrite.lookup_insert_eq, lookup_release]
  by_cases hk : k = svc.key <;> simp [hk, Ne.symm]

theorem backendOwner_release (w : Watcher) (key : String) :
    (w.release key).backendOwner = Function.update w.backendOwner key none := by
  funext k
  by_cases hk : k = key <;> simp [backendOwner, lookup_release, hk]

theorem maglevOwner_release (w : Watcher) (key : String) :
    (w.release key).maglevOwner = Function.update w.maglevOwner key none := by
  funext k
  by_cases hk : k = key <;> simp [maglevOwner, lookup_release, hk]

theorem Placed.backendOwner (h : Placed cfg w svc backends st r) :
    r.1.backendOwner = Function.update (w.release svc.key).backendOwner svc.key
      (some ⟨st.backendOffset, totalBackends backends svc⟩) := by
  funext k
  by_cases hk : k = svc.key <;>
    simp [Watcher.backendOwner, h.lookup, lookup_release, ServiceState.backendBlock, h.count, hk]

theorem shares_release (h : Shares cap w.allocator w.backendOwner) (key : String) :
    Shares cap (w.release key).allocator (w.release key).backendOwner := by
  rw [backendOwner_release]
  cases hk : w.services.lookup key with
  | none =>
    have halloc : (w.release key).allocator = w.allocator := by simp [release, hk, untrack]
    rw [halloc]
    exact h.drop (by simp [backendOwner, hk])
  | some st =>
    have howner : w.backendOwner key = some st.backendBlock := by simp [backendOwner, hk]
    by_cases hc : 0 < st.backendCount
    · have halloc : (w.release key).allocator = free w.allocator st.backendBlock := by
        simp [release, hk, untrack, freeSlots, hc]
      rw [halloc]
      exact h.free howner hc
    · have halloc : (w.release key).allocator = w.allocator := by
        simp [release, hk, untrack, freeSlots, hc]
      rw [halloc]
      refine h.drop fun b hb => ?_
      obtain rfl := Option.some.inj (howner.symm.trans hb)
      simpa [ServiceState.backendBlock] using hc

theorem shares_placed (h : Shares cap w.allocator w.backendOwner)
    (hp : Placed cfg w svc backends st r) : Shares cap r.1.allocator r.1.backendOwner := by
  rw [hp.backendOwner]
  refine (shares_release h svc.key).alloc ?_ hp.slots
  rw [backendOwner_release, Function.update_self]

end Watcher

open Watcher

/-- Every backend slot is free or owned by exactly one tracked service. -/
def Watcher.SlotsConserved (w : Watcher) : Prop := Shares backendSlots w.allocator w.backendOwner

/-- Below `cap` there are `total` slots in a row that no other service owns. -/
def Watcher.HasRoom (w : Watcher) (key : String) (total cap : Nat) : Prop :=
  ∃ p, p + total ≤ cap ∧ ∀ x, Block.Contains ⟨p, total⟩ x →
    ∀ k b, k ≠ key → w.backendOwner k = some b → ¬ b.Contains x

theorem Watcher.SlotsConserved.isFree_release_iff {w : Watcher} (hw : w.SlotsConserved)
    (key : String) (x : Nat) :
    IsFree (w.release key).allocator x ↔
      x < backendSlots ∧ ∀ k b, k ≠ key → w.backendOwner k = some b → ¬ b.Contains x := by
  have hshares := shares_release hw key
  have howner : ∀ k b, (w.release key).backendOwner k = some b ↔
      k ≠ key ∧ w.backendOwner k = some b := by
    intro k b
    rw [backendOwner_release, update_eq_some]
    simp
  constructor
  · intro hfree
    refine ⟨(hshares.cover x).mpr (.inl hfree), fun k b hne hb hx => ?_⟩
    exact hshares.apart k b x ((howner k b).mpr ⟨hne, hb⟩) hx hfree
  · rintro ⟨hlt, hothers⟩
    rcases (hshares.cover x).mp hlt with hfree | ⟨k, b, hb, hx⟩
    · exact hfree
    · obtain ⟨hne, hb⟩ := (howner k b).mp hb
      exact absurd hx (hothers k b hne hb)

theorem Watcher.SlotsConserved.alloc_isSome {w : Watcher} (hw : w.SlotsConserved) {key : String}
    {total : Nat} (h : w.HasRoom key (max 1 total) backendSlots) :
    (alloc (w.release key).allocator total).isSome = true := by
  obtain ⟨p, hroom, hrun⟩ := h
  have hfree : ∀ x, Block.Contains ⟨p, max 1 total⟩ x → IsFree (w.release key).allocator x := by
    intro x hx
    refine (hw.isFree_release_iff key x).mpr ⟨?_, hrun x hx⟩
    have hhi := hx.2
    simp only at hhi
    omega
  obtain ⟨offset, rest, halloc, -⟩ :=
    exists_alloc_le (shares_release hw key).spaced (by omega) hfree
  exact alloc_isSome_of_le (Nat.le_max_right 1 total) (by rw [halloc]; rfl)

theorem Watcher.SlotsConserved.run {cfg : WatcherConfig} {o : IterOrder String}
    {store : SliceStore} {w : Watcher} {c : WatcherCall} {r : Watcher × List DpRequest}
    (h : w.SlotsConserved) (hr : c.run cfg o store w = some r) : r.1.SlotsConserved := by
  rcases c.run_cases hr with hw | ⟨svc, st, -, hp⟩
  · rw [hw]
    exact shares_release h c.svc.key
  · exact shares_placed h hp

namespace ServiceWorld

variable {cfg : WatcherConfig} {o : IterOrder String} {s s' : ServiceWorld} {ev : ServiceEvent}
  {reqs : List DpRequest} {guard : ServiceWorld → ServiceEvent → Prop}

theorem slotsConserved_handle (h : s.watcher.SlotsConserved)
    (hstep : s.handle cfg o ev = some (s', reqs)) : s'.watcher.SlotsConserved := by
  rcases handle_cases hstep with ⟨-, rfl, -⟩ | ⟨c, r, -, hr, rfl, -⟩
  · rwa [update_watcher]
  · exact h.run hr

theorem slotsConserved_start : start.watcher.SlotsConserved := by
  have hnone : start.watcher.backendOwner = fun _ => none := by
    funext k
    simp [start, newWatcher, backendOwner]
  unfold Watcher.SlotsConserved
  rw [hnone]
  exact shares_new (by unfold backendSlots; omega)

theorem slotsConserved_of_run (h : Run cfg guard start s) : s.watcher.SlotsConserved := by
  induction h with
  | refl => exact slotsConserved_start
  | tail _ hstep ih =>
    obtain ⟨ev, o, reqs, -, hh⟩ := hstep
    exact slotsConserved_handle ih hh

end ServiceWorld

open ServiceWorld

section Layout

def ServiceEntry.block (e : ServiceEntry) : Block := ⟨e.backendOffset, e.backendCount⟩

def ServiceState.entry (st : ServiceState) (cfg : WatcherConfig) (svc : Service)
    (backends : List BackendInfo) (portIdx : Nat) : ServiceEntry :=
  portEntry cfg svc st.backendOffset backends st.algorithm st.maglevOffset portIdx

/-- What is sent for each port of a service fills the range that its entries carry, and
the ranges of the ports lie apart in the slots of the service. -/
structure Layout (cfg : WatcherConfig) (svc : Service) (backends : List BackendInfo)
    (st : ServiceState) (reqs : List DpRequest) : Prop where
  backends_sent : ∀ es, .upsertBackends es ∈ reqs ↔
    es = (svc.ports.mapIdx (portBackends st.backendOffset backends)).flatten ∧ es ≠ []
  entries_sent : ∀ addr e, .upsertService addr e ∈ reqs ↔ ∃ i port, svc.ports[i]? = some port ∧
    addr ∈ portAddrs svc port ∧ e = st.entry cfg svc backends i
  exact : ∀ i port, svc.ports[i]? = some port →
    (portBackends st.backendOffset backends i port).map BackendEntry.index =
      List.range' (st.entry cfg svc backends i).backendOffset (st.entry cfg svc backends i).backendCount
  disjoint : ∀ i j x, i < svc.ports.length → j < svc.ports.length →
    (st.entry cfg svc backends i).block.Contains x →
    (st.entry cfg svc backends j).block.Contains x → i = j
  inside : ∀ i x, i < svc.ports.length → (st.entry cfg svc backends i).block.Contains x →
    st.backendBlock.Contains x

variable {cfg : WatcherConfig} {w : Watcher} {svc : Service} {backends : List BackendInfo}
  {st : ServiceState} {r : Watcher × List DpRequest}

variable {q : DpRequest} {alg : Algorithm} {i j n offset off : Nat}

theorem slot_lt {m : Nat} (hi : i < m) (hj : j < n) : i * n + j < n * m := by
  have hrow : (i + 1) * n ≤ m * n := Nat.mul_le_mul_right n hi
  rw [Nat.add_mul, Nat.one_mul, Nat.mul_comm m n] at hrow
  omega

theorem row_unique {y : Nat} (hi : i * n ≤ y) (hi' : y < i * n + n) (hj : j * n ≤ y)
    (hj' : y < j * n + n) : i = j := by
  rw [← Nat.add_one_mul] at hi' hj'
  exact (Nat.div_eq_of_lt_le hi hi').symm.trans (Nat.div_eq_of_lt_le hj hj')

/-- No sum wraps around while the number of backends fits 32 bits. -/
structure Fits (svc : Service) (backends : List BackendInfo) (st : ServiceState) : Prop where
  total : backends.length * svc.ports.length < 2 ^ 32
  below : ∀ x < backends.length * svc.ports.length, st.backendOffset + x < backendSlots

theorem Fits.index (h : Fits svc backends st) (hi : i < svc.ports.length)
    (hj : j < backends.length) :
    (st.backendOffset + intToU32 (i * backends.length + j : Nat)) % 2 ^ 32 =
      st.backendOffset + (i * backends.length + j) := by
  have hlt := slot_lt hi hj
  have htotal := h.total
  have hbelow := h.below _ hlt
  rw [intToU32_of_lt (by omega), Nat.mod_eq_of_lt]
  unfold backendSlots at hbelow
  omega

variable (cfg) in
theorem Fits.entry (h : Fits svc backends st) (hne : backends ≠ []) (hi : i < svc.ports.length) :
    (st.entry cfg svc backends i).block =
      ⟨st.backendOffset + i * backends.length, backends.length⟩ := by
  have hpos : 0 < backends.length := length_pos_iff.mpr hne
  have hfirst := h.index hi hpos
  have hlast := slot_lt hi (Nat.sub_lt hpos Nat.one_pos)
  have htotal := h.total
  have hlen : backends.length < 2 ^ 32 := by omega
  simp only [ServiceState.entry, portEntry, ServiceEntry.block, Nat.add_zero] at hfirst ⊢
  rw [hfirst, intToU32_of_lt hlen]

theorem Fits.exact (h : Fits svc backends st) (hi : i < svc.ports.length) (port : ServicePort) :
    (portBackends st.backendOffset backends i port).map BackendEntry.index =
      List.range' (st.backendOffset + i * backends.length) backends.length := by
  apply ext_getElem
  · simp [portBackends]
  · intro j hj hj'
    simp only [portBackends, length_map, length_mapIdx] at hj
    simp only [portBackends, getElem_map, getElem_mapIdx, getElem_range', Nat.one_mul]
    rw [h.index hi hj, Nat.add_assoc]

theorem mem_freeTracked (h : q ∈ (w.freeTracked svc).2) : ∃ addr, q = .deleteService addr := by
  unfold freeTracked at h
  cases hk : w.services.lookup svc.key with
  | none => simp [hk] at h
  | some old =>
    simp only [hk, freeOldState, deleteEntries, mem_flatMap, List.mem_map] at h
    obtain ⟨scope, -, port, -, ip, -, rfl⟩ := h
    exact ⟨_, rfl⟩

theorem mem_deleteServiceLocked (h : q ∈ (w.deleteServiceLocked svc).2) :
    ∃ addr, q = .deleteService addr := by
  unfold deleteServiceLocked at h
  cases hk : w.services.lookup svc.key with
  | none => simp [hk] at h
  | some st =>
    simp only [hk, mem_flatMap, mem_append, deleteEntries, deleteSpecific] at h
    obtain ⟨scope, -, (hmem | hmem) | hmem⟩ := h
    · obtain ⟨port, -, hmem⟩ := hmem
      obtain ⟨ip, -, rfl⟩ := List.mem_map.mp hmem
      exact ⟨_, rfl⟩
    all_goals
      split at hmem
      · simp only [mem_flatMap, List.mem_map] at hmem
        obtain ⟨port, -, ip, -, rfl⟩ := hmem
        exact ⟨_, rfl⟩
      · cases hmem

theorem placed_of_request {o : IterOrder String} {store : SliceStore}
    (hr : w.reconcileService cfg o store svc = some r) (hq : q ∈ r.2)
    (hnot : ∀ addr, q ≠ .deleteService addr) :
    ∃ st, Watcher.Placed cfg w svc (collectBackends o store svc) st r := by
  rcases reconcileService_cases hr with ⟨-, rfl⟩ | ⟨-, -, rfl⟩ | ⟨st, hp⟩
  · obtain ⟨addr, he⟩ := mem_deleteServiceLocked hq
    exact absurd he (hnot addr)
  · obtain ⟨addr, he⟩ := mem_freeTracked hq
    exact absurd he (hnot addr)
  · exact ⟨st, hp⟩

theorem mem_pushBackends {ports : List ServicePort} :
    q ∈ pushBackends offset backends ports ↔
      ∃ es, q = .upsertBackends es ∧
        es = (ports.mapIdx (portBackends offset backends)).flatten ∧ es ≠ [] := by
  simp only [pushBackends, length_pos_iff]
  split
  next hne =>
    rw [List.mem_singleton]
    exact ⟨fun h => ⟨_, h, rfl, hne⟩, fun ⟨_, h, hes, _⟩ => hes ▸ h⟩
  next hnil =>
    refine ⟨fun h => absurd h not_mem_nil, ?_⟩
    rintro ⟨es, -, rfl, hne⟩
    exact absurd hne hnil

theorem mem_placeMaglev {m : SlotAllocator} {tableRequests : List DpRequest}
    (hm : w.placeMaglev cfg svc backends = some (m, alg, off, tableRequests))
    (h : q ∈ tableRequests) : ∃ offset entries, q = .upsertMaglevTable offset entries := by
  unfold placeMaglev at hm
  split at hm
  · split at hm
    · obtain ⟨-, -, -, rfl⟩ := by simpa using hm
      cases h
    · split at hm
      · cases hm
      · obtain ⟨-, -, -, rfl⟩ := by simpa using hm
        exact ⟨_, _, List.mem_singleton.mp h⟩
  · obtain ⟨-, -, -, rfl⟩ := by simpa using hm
    cases h

theorem mem_upsertServiceEntries :
    q ∈ upsertServiceEntries cfg svc offset backends alg off ↔
      ∃ i port addr, svc.ports[i]? = some port ∧ addr ∈ portAddrs svc port ∧
        q = .upsertService addr (portEntry cfg svc offset backends alg off i) := by
  simp only [upsertServiceEntries, mem_flatten, mem_mapIdx]
  constructor
  · rintro ⟨l, ⟨i, hi, rfl⟩, hq⟩
    obtain ⟨addr, haddr, rfl⟩ := List.mem_map.mp hq
    exact ⟨i, _, addr, List.getElem?_eq_getElem hi, haddr, rfl⟩
  · rintro ⟨i, port, addr, hport, haddr, rfl⟩
    obtain ⟨hi, rfl⟩ := List.getElem?_eq_some_iff.mp hport
    exact ⟨_, ⟨i, hi, rfl⟩, List.mem_map_of_mem haddr⟩

theorem Watcher.Placed.backends_sent (hp : Watcher.Placed cfg w svc backends st r)
    (es : List BackendEntry) :
    .upsertBackends es ∈ r.2 ↔
      es = (svc.ports.mapIdx (portBackends st.backendOffset backends)).flatten ∧ es ≠ [] := by
  obtain ⟨tableRequests, htable, hreqs⟩ := hp.table
  simp only [hreqs, mem_append]
  constructor
  · rintro (((hes | hes) | hes) | hes)
    · obtain ⟨addr, he⟩ := mem_freeTracked hes
      cases he
    · obtain ⟨es', he, hes⟩ := mem_pushBackends.mp hes
      cases he
      exact hes
    · obtain ⟨offset, entries, he⟩ := mem_placeMaglev htable hes
      cases he
    · obtain ⟨i, port, addr, -, -, he⟩ := mem_upsertServiceEntries.mp hes
      cases he
  · intro hes
    exact .inl (.inl (.inr (mem_pushBackends.mpr ⟨es, rfl, hes⟩)))

theorem Fits.layout (h : Fits svc backends st) (hp : Watcher.Placed cfg w svc backends st r) :
    Layout cfg svc backends st r.2 := by
  have hentry := fun i (hi : i < svc.ports.length) => h.entry cfg hp.ready hi
  obtain ⟨tableRequests, htable, hreqs⟩ := hp.table
  refine ⟨hp.backends_sent, ?_, ?_, ?_, ?_⟩
  · intro addr e
    simp only [hreqs, mem_append]
    constructor
    · rintro (((hes | hes) | hes) | hes)
      · obtain ⟨addr, he⟩ := mem_freeTracked hes
        cases he
      · obtain ⟨es, he, -⟩ := mem_pushBackends.mp hes
        cases he
      · obtain ⟨offset, entries, he⟩ := mem_placeMaglev htable hes
        cases he
      · obtain ⟨i, port, addr, hport, haddr, he⟩ := mem_upsertServiceEntries.mp hes
        obtain ⟨rfl, rfl⟩ := DpRequest.upsertService.inj he
        exact ⟨i, port, hport, haddr, rfl⟩
    · rintro ⟨i, port, hport, haddr, rfl⟩
      exact .inr (mem_upsertServiceEntries.mpr ⟨i, port, addr, hport, haddr, rfl⟩)
  · intro i port hport
    obtain ⟨hi, -⟩ := List.getElem?_eq_some_iff.mp hport
    have he := hentry i hi
    simp only [ServiceEntry.block, Block.mk.injEq] at he
    rw [he.1, he.2]
    exact h.exact hi port
  · intro i j x hi hj hx hx'
    rw [hentry i hi] at hx
    rw [hentry j hj] at hx'
    simp only [Block.Contains] at hx hx'
    exact row_unique (n := backends.length) (y := x - st.backendOffset) (by omega) (by omega)
      (by omega) (by omega)
  · intro i x hi hx
    rw [hentry i hi] at hx
    have hj : x - (st.backendOffset + i * backends.length) < backends.length := by
      simp only [Block.Contains] at hx
      omega
    have hlt := slot_lt hi hj
    simp only [Block.Contains, ServiceState.backendBlock, hp.count, totalBackends] at hx ⊢
    rw [intToU32_of_lt h.total]
    omega

theorem Watcher.Placed.fits (hp : Placed cfg w svc backends st r) (hw : w.SlotsConserved)
    (htotal : backends.length * svc.ports.length < 2 ^ 32) : Fits svc backends st := by
  refine ⟨htotal, fun x hx => ?_⟩
  have hshares := shares_placed hw hp
  have howner : r.1.backendOwner svc.key = some st.backendBlock := by
    rw [hp.backendOwner, Function.update_self, ServiceState.backendBlock, hp.count]
  apply hshares.lt_cap howner
  simp only [Block.Contains, ServiceState.backendBlock, hp.count, totalBackends]
  rw [intToU32_of_lt htotal]
  omega

end Layout

namespace ServiceWorld

variable {cfg : WatcherConfig} {o : IterOrder String} {s s' : ServiceWorld} {ev : ServiceEvent}
  {reqs : List DpRequest} {svc : Service} {st : ServiceState}

theorem placed_of_tracked (h : s.handle cfg o ev = some (s', reqs))
    (hcall : (s.update ev).call ev = some (.reconcileService svc))
    (htracked : s'.watcher.services.lookup svc.key = some st) :
    Watcher.Placed cfg s.watcher svc (collectBackends o (s.update ev).epsStore svc) st
      (s'.watcher, reqs) := by
  obtain ⟨hnone, -, -⟩ | ⟨c, r, hc, hr, rfl, rfl⟩ := handle_cases h
  · simp [hcall] at hnone
  · obtain rfl := Option.some.inj (hc.symm.trans hcall)
    have hgone : ∀ w : Watcher, (w.release svc.key).services.lookup svc.key = none := fun w => by
      simp [lookup_release]
    rcases reconcileService_cases hr with ⟨-, rfl⟩ | ⟨-, -, rfl⟩ | ⟨st', hp⟩
    · simp [finish, deleteServiceLocked_fst, hgone] at htracked
    · simp [finish, hgone] at htracked
    · have hst := hp.lookup svc.key
      rw [if_pos rfl] at hst
      obtain rfl := Option.some.inj (hst.symm.trans htracked)
      exact hp

/-- After every event each backend slot is free or owned by one tracked service. The
backends of a reconcile lie as its entries say, unless their number overflows. -/
theorem backend_slots_and_layout (cfg : WatcherConfig) {s : ServiceWorld}
    (hrun : Run cfg (fun _ _ => True) start s) :
    s.watcher.SlotsConserved ∧
    ∀ ev o s' reqs svc st, s.handle cfg o ev = some (s', reqs) →
      (s.update ev).call ev = some (.reconcileService svc) →
      s'.watcher.services.lookup svc.key = some st →
      (collectBackends o (s.update ev).epsStore svc).length * svc.ports.length < 2 ^ 32 →
      Layout cfg svc (collectBackends o (s.update ev).epsStore svc) st reqs := by
  have hconserved := slotsConserved_of_run hrun
  refine ⟨hconserved, ?_⟩
  intro ev o s' reqs svc st hstep hcall htracked htotal
  have hp := placed_of_tracked hstep hcall htracked
  exact (hp.fits hconserved htotal).layout hp

end ServiceWorld

section Example

def plainConfig : WatcherConfig := ⟨"random", false, fun _ => []⟩

def portNumbered (name : String) (protocol : Protocol) (port : Int32) : ServicePort :=
  ⟨name, protocol, port, 0, 8080⟩

def shop (ports : List ServicePort) : Service where
  namespace_ := "default"
  name := "shop"
  type := .clusterIP
  clusterIP := "10.96.0.10"
  clusterIPs := ["10.96.0.10"]
  ports := ports
  externalIPs := []
  ingressIPs := []
  clientIPAffinity := false
  externalLocal := false
  internalLocal := false
  affinityTimeout := none

def shopSlice (pods : List UInt32) : EndpointSlice :=
  ⟨"default", "shop-1", some "shop", pods.map fun a => ⟨none, [(Net.IP.v4 a).string]⟩, []⟩

def podBackend (a : UInt32) : BackendInfo := ⟨(Net.IP.v4 a).string, "", 0, ""⟩

def shopWorld (pods : List UInt32) : ServiceWorld :=
  start.update (.sliceSet (shopSlice pods))

theorem parseIp_string (a : UInt32) : Net.parseIp (Net.IP.v4 a).string = some (.v4 a) := by
  rw [Net.parseIp, Net.IP.string, String.toList_ofList, Net.parseAddr_chars_v4]

theorem collectBackends_shop (o : IterOrder String) (pods : List UInt32)
    (ports : List ServicePort) :
    collectBackends o (shopWorld pods).epsStore (shop ports) = pods.map podBackend := by
  have hkeys : (shopWorld pods).epsStore.keys = {(shopSlice pods).key} := by
    simp [shopWorld, update, start, LastWrite.keys_insert]
  simp only [collectBackends, hkeys, IterOrder.enum_singleton]
  simp only [shopWorld, update, start, shopSlice, shop,
    filterMap_cons, Finmap.lookup_insert, filterMap_nil, flatMap_cons,
    flatMap_nil, append_nil, and_self, if_true, sliceBackends, flatMap_map]
  simp only [reduceCtorEq, if_false, filter_cons, parseIp_string, Option.isSome_some, if_true,
    filter_nil, map_cons, map_nil, sliceBackend]
  exact map_eq_flatMap.symm

theorem serviceClusterIPs_shop (ports : List ServicePort) :
    serviceClusterIPs (shop ports) = ["10.96.0.10"] := rfl

theorem handle_shopSlice (cfg : WatcherConfig) (o : IterOrder String) (pods : List UInt32) :
    start.handle cfg o (.sliceSet (shopSlice pods)) = some (shopWorld pods, []) := by
  simp [handle, call, update, onEndpointSliceChange, start, shopSlice, shopWorld]

section Shop

variable (cfg : WatcherConfig) (o : IterOrder String) (pods : List UInt32)
  (ports : List ServicePort) (hpods : pods ≠ []) (hports : ports ≠ [])
  (hfit : intToU32 (pods.length * ports.length : Nat) ≤ backendSlots)

include hpods hports hfit

theorem reconcile_shop :
    ∃ st r, newWatcher.reconcileService cfg o (shopWorld pods).epsStore (shop ports) = some r ∧
      Watcher.Placed cfg newWatcher (shop ports) (pods.map podBackend) st r := by
  have hb := collectBackends_shop o pods ports
  have hrelease : (newWatcher.release (shop ports).key).allocator = [⟨0, backendSlots⟩] := by
    simp [release, untrack, newWatcher, newSlotAllocator]
  have htotal : totalBackends (pods.map podBackend) (shop ports) =
      intToU32 (pods.length * ports.length : Nat) := by
    rw [totalBackends, length_map]
    rfl
  have hslots := alloc_cons_of_le (b := ⟨0, backendSlots⟩) (l := []) hfit
  rw [← hrelease, ← htotal, ← hb] at hslots
  rw [← hb]
  exact exists_placed cfg newWatcher (shop ports) (by simp [serviceClusterIPs_shop]) hports
    (by simpa [hb] using hpods) hslots

theorem placed_shop :
    ∃ st s' reqs, (shopWorld pods).handle cfg o (.serviceSet (shop ports)) = some (s', reqs) ∧
      s'.watcher.services.lookup (shop ports).key = some st ∧
      st.backendCount = intToU32 (pods.length * ports.length : Nat) := by
  obtain ⟨st, r, hr, hp⟩ := reconcile_shop cfg o pods ports hpods hports hfit
  refine ⟨st, (((shopWorld pods).update (.serviceSet (shop ports))).finish r), r.2, ?_, ?_, ?_⟩
  · have hrun : (WatcherCall.reconcileService (shop ports)).run cfg o
        (shopWorld pods).epsStore (shopWorld pods).watcher = some r := hr
    simp only [handle, call, onServiceChange]
    rw [show ((shopWorld pods).update (.serviceSet (shop ports))).epsStore =
      (shopWorld pods).epsStore from rfl, hrun]
  · have hst := hp.lookup (shop ports).key
    rwa [if_pos rfl] at hst
  · rw [hp.count, totalBackends, length_map]
    rfl

end Shop

def twoPorts : List ServicePort := [portNumbered "http" .tcp 80, portNumbered "https" .tcp 443]

theorem backend_slots_and_layout_example :
    ∃ st s' reqs, (shopWorld [0x0af40005, 0x0af40006]).handle plainConfig .sorted
        (.serviceSet (shop twoPorts)) = some (s', reqs) ∧
      (shopWorld [0x0af40005, 0x0af40006]).watcher.SlotsConserved ∧
      Layout plainConfig (shop twoPorts)
        (collectBackends .sorted (shopWorld [0x0af40005, 0x0af40006]).epsStore (shop twoPorts))
        st reqs := by
  obtain ⟨st, s', reqs, hstep, htracked, -⟩ := placed_shop plainConfig .sorted
    [0x0af40005, 0x0af40006] twoPorts (by decide) (by decide) (by decide)
  have hrun : Run plainConfig (fun _ _ => True) start (shopWorld [0x0af40005, 0x0af40006]) :=
    .single ⟨_, .sorted, _, trivial, handle_shopSlice plainConfig .sorted _⟩
  have h := backend_slots_and_layout plainConfig hrun
  refine ⟨st, s', reqs, hstep, h.1, h.2 _ .sorted s' reqs _ st hstep rfl htracked ?_⟩
  rw [show ((shopWorld [0x0af40005, 0x0af40006]).update (.serviceSet (shop twoPorts))).epsStore =
    (shopWorld [0x0af40005, 0x0af40006]).epsStore from rfl, collectBackends_shop]
  decide

def podRange (n : Nat) : List UInt32 := (List.range n).map fun i => 0x0af40000 + UInt32.ofNat i

def portPairs (n : Nat) : List ServicePort :=
  (List.range n).flatMap fun i =>
    [portNumbered ("tcp-" ++ Nat.repr i) .tcp (Int32.ofNat (i + 1)),
      portNumbered ("udp-" ++ Nat.repr i) .udp (Int32.ofNat (i + 1))]

@[irreducible] def manyPods : List UInt32 := podRange 65536

@[irreducible] def manyPorts : List ServicePort := portPairs 32768

theorem length_podRange (n : Nat) : (podRange n).length = n := by simp [podRange]

theorem length_portPairs (n : Nat) : (portPairs n).length = n * 2 := by
  simp [portPairs, length_flatMap]

theorem length_manyPods : manyPods.length = 65536 := by
  unfold manyPods
  exact length_podRange 65536

theorem length_manyPorts : manyPorts.length = 65536 := by
  unfold manyPorts
  exact length_portPairs 32768

/-- The product of 65536 backends and 65536 ports is 0 as an unsigned 32-bit number:
the service owns no slot and its entries point at the slots of others. -/
theorem layout_overflows :
    ∃ s o s' reqs st, Run plainConfig (fun _ _ => True) start s ∧
      s.handle plainConfig o (.serviceSet (shop manyPorts)) = some (s', reqs) ∧
      s'.watcher.services.lookup (shop manyPorts).key = some st ∧
      ¬ Layout plainConfig (shop manyPorts)
        (collectBackends o (s.update (.serviceSet (shop manyPorts))).epsStore (shop manyPorts))
        st reqs := by
  have hzero : intToU32 (manyPods.length * manyPorts.length : Nat) = 0 := by
    rw [intToU32_natCast, length_manyPods, length_manyPorts]
    decide
  have hpods : manyPods ≠ [] := ne_nil_of_length_pos (by rw [length_manyPods]; decide)
  have hports : manyPorts ≠ [] := ne_nil_of_length_pos (by rw [length_manyPorts]; decide)
  obtain ⟨st, s', reqs, hstep, htracked, hcount⟩ :=
    placed_shop plainConfig .sorted _ _ hpods hports (by rw [hzero]; exact Nat.zero_le _)
  refine ⟨shopWorld manyPods, .sorted, s', reqs, st,
    .single ⟨_, .sorted, _, trivial, handle_shopSlice plainConfig .sorted _⟩, hstep, htracked, ?_⟩
  intro hlayout
  rw [hzero] at hcount
  have hfirst : 0 < (shop manyPorts).ports.length := by
    rw [show (shop manyPorts).ports = manyPorts from rfl, length_manyPorts]
    decide
  rw [show ((shopWorld manyPods).update (.serviceSet (shop manyPorts))).epsStore =
    (shopWorld manyPods).epsStore from rfl, collectBackends_shop] at hlayout
  have hlen : (st.entry plainConfig (shop manyPorts) (manyPods.map podBackend) 0).backendCount =
      65536 := by
    change intToU32 (manyPods.map podBackend).length = 65536
    rw [length_map, length_manyPods]
    decide
  have hstart : (st.entry plainConfig (shop manyPorts) (manyPods.map podBackend) 0).block.Contains
      (st.entry plainConfig (shop manyPorts) (manyPods.map podBackend) 0).backendOffset := by
    simp only [Block.Contains, ServiceEntry.block, hlen]
    omega
  obtain ⟨hlo, hhi⟩ := hlayout.inside 0 _ hfirst hstart
  simp only [ServiceState.backendBlock, hcount] at hlo hhi
  omega

end Example

end NovaNet
