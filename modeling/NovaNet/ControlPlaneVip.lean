import NovaNet.SlotOwnership

/-! The control-plane VIP manager writes backends from a fixed index on, without asking
the slot allocator of the service watcher. -/

namespace NovaNet

open List Watcher

open FreeList (Block IsFree)

def backendBaseOffset : Nat := 65520

def apiServerPort : Nat := 6443

abbrev Health := Finmap fun _ : String => Bool

structure VipManager where
  backends : Health

/-- A key that `b` lacks reads as `false` there. -/
def mapsEqual (a b : Health) : Bool :=
  a.keys.card = b.keys.card ∧ ∀ k ∈ a.keys, (b.lookup k).getD false = (a.lookup k).getD false

def checkAll (probes : List (String × Bool)) : Health :=
  probes.foldl (fun healthy p => healthy.insert p.1 p.2) ∅

def healthyIPs (o : IterOrder String) (healthy : Health) : List String :=
  (o.enum [] healthy.keys).filter fun ip => healthy.lookup ip = some true

def vipBackends (ips : List String) : List BackendEntry :=
  ips.mapIdx fun i ip => ⟨(backendBaseOffset + intToU32 i) % 2 ^ 32, ip, apiServerPort, ip⟩

def updateDataplane (vip : String) (ips : List String) : List DpRequest :=
  (if 0 < (vipBackends ips).length then [.upsertBackends (vipBackends ips)] else []) ++
  [.upsertService ⟨vip, apiServerPort, protocolToNumber .tcp, .clusterIP⟩
    ⟨intToU32 ips.length, backendBaseOffset, .roundRobin, 0, 0, 0⟩]

/-- `none` when the nodes cannot be listed. -/
def VipManager.reconcile (vip : String) (o : IterOrder String) (m : VipManager) :
    Option (List (String × Bool)) → VipManager × List DpRequest
  | none => (m, [])
  | some [] => (m, [])
  | some probes =>
    let healthy := checkAll probes
    (⟨healthy⟩, if mapsEqual m.backends healthy then [] else
      updateDataplane vip (healthyIPs o healthy))

def DpRequest.backendIndices : DpRequest → List Nat
  | .upsertBackends es => es.map BackendEntry.index
  | _ => []

open DpRequest

/-- The two users of BACKENDS. `vipIndices` collects every index the VIP manager has
written. -/
structure BackendUsers where
  services : ServiceWorld
  vip : VipManager
  vipIndices : List Nat

inductive BackendEvent where
  | service (ev : ServiceEvent)
  | vipReconcile (probes : Option (List (String × Bool)))

namespace BackendUsers

def start : BackendUsers := ⟨.start, ⟨∅⟩, []⟩

def finishVip (s : BackendUsers) (r : VipManager × List DpRequest) : BackendUsers where
  services := { s.services with entries := r.2.foldl applyRequest s.services.entries }
  vip := r.1
  vipIndices := s.vipIndices ++ r.2.flatMap backendIndices

def handle (cfg : WatcherConfig) (vip : String) (o : IterOrder String) (s : BackendUsers) :
    BackendEvent → Option BackendUsers
  | .service ev =>
    match s.services.handle cfg o ev with
    | none => none
    | some r => some { s with services := r.1 }
  | .vipReconcile probes => some (s.finishVip (s.vip.reconcile vip o probes))

def Step (cfg : WatcherConfig) (vip : String) (guard : BackendUsers → BackendEvent → Prop)
    (s s' : BackendUsers) : Prop :=
  ∃ ev o, guard s ev ∧ s.handle cfg vip o ev = some s'

abbrev Run (cfg : WatcherConfig) (vip : String) (guard : BackendUsers → BackendEvent → Prop) :=
  Relation.ReflTransGen (Step cfg vip guard)

def Separate (s : BackendUsers) : Prop :=
  ∀ i ∈ s.vipIndices, i < backendSlots ∧
    ∀ key b, s.services.watcher.backendOwner key = some b → ¬ b.Contains i

end BackendUsers

open BackendUsers

section Indices

variable {o : IterOrder String} {i : Nat}

theorem mem_indices_updateDataplane {vip : String} {ips : List String}
    (h : i ∈ (updateDataplane vip ips).flatMap backendIndices) (hips : ips.length ≤ 16) :
    backendBaseOffset ≤ i ∧ i < backendSlots := by
  have hi : i ∈ (vipBackends ips).map BackendEntry.index := by
    unfold updateDataplane at h
    split at h
    · simpa [backendIndices] using h
    · simp [backendIndices] at h
  obtain ⟨e, he, rfl⟩ := List.mem_map.mp hi
  obtain ⟨j, hj, rfl⟩ := mem_mapIdx.mp he
  have hsmall : intToU32 j = j := intToU32_of_lt (by omega)
  simp only [hsmall, backendBaseOffset, backendSlots]
  omega

theorem healthy_of_checkAll {probes : List (String × Bool)} {ip : String}
    (h : (checkAll probes).lookup ip = some true) : (ip, true) ∈ probes := by
  have hfold : ∀ (probes : List (String × Bool)) (m : Health),
      (probes.foldl (fun healthy p => healthy.insert p.1 p.2) m).lookup ip = some true →
        (ip, true) ∈ probes ∨ m.lookup ip = some true := by
    intro probes
    induction probes with
    | nil => exact fun m hm => .inr hm
    | cons p probes ih =>
      intro m hm
      rcases ih _ hm with hin | hins
      · exact .inl (mem_cons_of_mem p hin)
      · rcases LastWrite.lookup_insert_eq_some hins with ⟨rfl, hp⟩ | ⟨-, hm⟩
        · rw [hp]
          exact .inl mem_cons_self
        · exact .inr hm
  rcases hfold probes ∅ h with hin | hnone
  · exact hin
  · simp at hnone

def answering (probes : List (String × Bool)) : Finset String :=
  ((probes.filter Prod.snd).map Prod.fst).toFinset

theorem length_healthyIPs_le (o : IterOrder String) (probes : List (String × Bool)) :
    (healthyIPs o (checkAll probes)).length ≤ (answering probes).card := by
  have hnd : (healthyIPs o (checkAll probes)).Nodup := (o.nodup_enum _ _).filter _
  rw [← toFinset_card_of_nodup hnd]
  apply Finset.card_le_card
  intro ip hip
  have hip := (mem_filter.mp (List.mem_toFinset.mp hip)).2
  have hin := healthy_of_checkAll (of_decide_eq_true hip)
  simp [answering, hin]

end Indices

namespace BackendUsers

/-- At most 16 control-plane nodes answer, and a service that fits into the array fits
below the reserved slots. -/
def Clean (s : BackendUsers) : BackendEvent → Prop
  | .vipReconcile probes => ∀ l, probes = some l → (answering l).card ≤ 16
  | .service ev => ∀ svc, (s.services.update ev).call ev = some (.reconcileService svc) →
    serviceClusterIPs svc ≠ [] → ∀ o,
      let total := totalBackends (collectBackends o (s.services.update ev).epsStore svc) svc
      s.services.watcher.HasRoom svc.key total backendSlots →
        s.services.watcher.HasRoom svc.key total backendBaseOffset

structure Inv (s : BackendUsers) : Prop where
  slots : s.services.watcher.SlotsConserved
  below : ∀ key b x, s.services.watcher.backendOwner key = some b → b.Contains x → x < backendBaseOffset
  above : ∀ i ∈ s.vipIndices, backendBaseOffset ≤ i ∧ i < backendSlots

variable {cfg : WatcherConfig} {vip : String} {o : IterOrder String} {s s' : BackendUsers}

theorem Inv.separate (h : s.Inv) : s.Separate := by
  intro i hi
  refine ⟨(h.above i hi).2, fun key b hb hx => ?_⟩
  have hlo := (h.above i hi).1
  have hhi := h.below key b i hb hx
  omega

theorem inv_start : start.Inv := by
  refine ⟨ServiceWorld.slotsConserved_start, ?_, by simp [start]⟩
  intro key b x hb
  simp [start, ServiceWorld.start, newWatcher, backendOwner] at hb

theorem placed_below {w : Watcher} {svc : Service} {backends : List BackendInfo}
    {st : ServiceState} {r : Watcher × List DpRequest} (hw : w.SlotsConserved)
    (hp : Watcher.Placed cfg w svc backends st r)
    (hfits : w.HasRoom svc.key (totalBackends backends svc) backendSlots →
      w.HasRoom svc.key (totalBackends backends svc) backendBaseOffset) {x : Nat}
    (hx : Block.Contains ⟨st.backendOffset, totalBackends backends svc⟩ x) :
    x < backendBaseOffset := by
  have htotal : 0 < totalBackends backends svc := by
    have hlo := hx.1
    have hhi := hx.2
    simp only at hlo hhi
    omega
  have hgot : ∀ y, Block.Contains ⟨st.backendOffset, totalBackends backends svc⟩ y →
      IsFree (w.release svc.key).allocator y :=
    fun y hy => (FreeList.isFree_alloc hp.slots).mpr (.inr hy)
  obtain ⟨p, hroom, hrun⟩ := hfits <| by
    refine ⟨st.backendOffset, ?_, fun y hy => ((hw.isFree_release_iff _ y).mp (hgot y hy)).2⟩
    have hlast : Block.Contains ⟨st.backendOffset, totalBackends backends svc⟩
        (st.backendOffset + totalBackends backends svc - 1) := ⟨by simp only; omega, by simp only; omega⟩
    have hlt := ((hw.isFree_release_iff _ _).mp (hgot _ hlast)).1
    omega
  have hfree : ∀ y, Block.Contains ⟨p, totalBackends backends svc⟩ y →
      IsFree (w.release svc.key).allocator y := by
    intro y hy
    refine (hw.isFree_release_iff _ y).mpr ⟨?_, hrun y hy⟩
    have hhi := hy.2
    simp only [backendBaseOffset, backendSlots] at hhi hroom ⊢
    omega
  obtain ⟨offset, rest, halloc, hle⟩ :=
    FreeList.exists_alloc_le (shares_release hw svc.key).spaced htotal hfree
  rw [hp.slots] at halloc
  have hoff : st.backendOffset = offset := (Prod.mk.inj (Option.some.inj halloc)).1
  have hhi := hx.2
  simp only at hhi
  omega

theorem Inv.service {ev : ServiceEvent} {r : ServiceWorld × List DpRequest} (h : s.Inv)
    (hclean : s.Clean (.service ev)) (hr : s.services.handle cfg o ev = some r) :
    Inv { s with services := r.1 } := by
  refine ⟨ServiceWorld.slotsConserved_handle h.slots hr, ?_, h.above⟩
  intro key b x hb hx
  rcases ServiceWorld.watcher_cases hr with hw | ⟨k, hw⟩ | ⟨svc, st, hcall, hp⟩
  · rw [hw] at hb
    exact h.below key b x hb hx
  · rw [hw, backendOwner_release] at hb
    exact h.below key b x (FreeList.update_none_eq_some.mp hb).2 hx
  · rw [hp.backendOwner] at hb
    rcases FreeList.update_eq_some.mp hb with ⟨-, hnew⟩ | ⟨hne, hb⟩
    · obtain rfl := Option.some.inj hnew
      exact placed_below h.slots hp (hclean svc hcall hp.addressed o) hx
    · rw [backendOwner_release] at hb
      exact h.below key b x (FreeList.update_none_eq_some.mp hb).2 hx

theorem indices_reconcile {m : VipManager} {probes : Option (List (String × Bool))}
    (hclean : ∀ l, probes = some l → (answering l).card ≤ 16) {i : Nat}
    (hi : i ∈ (m.reconcile vip o probes).2.flatMap backendIndices) :
    backendBaseOffset ≤ i ∧ i < backendSlots := by
  unfold VipManager.reconcile at hi
  split at hi
  · simp at hi
  · simp at hi
  · rename_i probes' _
    simp only at hi
    split at hi
    · simp at hi
    · exact mem_indices_updateDataplane hi ((length_healthyIPs_le o probes').trans (hclean probes' rfl))

theorem handle_cases {ev : BackendEvent} (h : s.handle cfg vip o ev = some s') :
    (∃ sev r, ev = .service sev ∧ s.services.handle cfg o sev = some r ∧
      s' = { s with services := r.1 }) ∨
    ∃ probes, ev = .vipReconcile probes ∧ s' = s.finishVip (s.vip.reconcile vip o probes) := by
  cases ev with
  | service sev =>
    cases hr : s.services.handle cfg o sev with
    | none => simp [handle, hr] at h
    | some r =>
      simp only [handle, hr, Option.some.injEq] at h
      exact .inl ⟨sev, r, rfl, hr, h.symm⟩
  | vipReconcile probes => exact .inr ⟨probes, rfl, (Option.some.inj h).symm⟩

theorem Inv.handle {ev : BackendEvent} (h : s.Inv) (hclean : s.Clean ev)
    (hstep : s.handle cfg vip o ev = some s') : s'.Inv := by
  rcases handle_cases hstep with ⟨sev, r, rfl, hr, rfl⟩ | ⟨probes, rfl, rfl⟩
  · exact h.service hclean hr
  · refine ⟨h.slots, h.below, ?_⟩
    intro i hi
    rcases mem_append.mp hi with hi | hi
    · exact h.above i hi
    · exact indices_reconcile hclean hi

theorem slotsConserved_of_run {guard : BackendUsers → BackendEvent → Prop}
    (hrun : Run cfg vip guard start s) : s.services.watcher.SlotsConserved := by
  induction hrun with
  | refl => exact ServiceWorld.slotsConserved_start
  | tail _ hstep ih =>
    obtain ⟨ev, o, -, hh⟩ := hstep
    rcases handle_cases hh with ⟨sev, r, -, hr, rfl⟩ | ⟨probes, -, rfl⟩
    · exact ServiceWorld.slotsConserved_handle ih hr
    · exact ih

/-- In a run of clean events the two users of BACKENDS stay apart. -/
theorem vip_backends_separate (cfg : WatcherConfig) (vip : String) {s : BackendUsers}
    (hrun : Run cfg vip Clean start s) : s.Separate := by
  have hinv : s.Inv := by
    induction hrun with
    | refl => exact inv_start
    | tail _ hstep ih =>
      obtain ⟨ev, o, hclean, hh⟩ := hstep
      exact ih.handle hclean hh
  exact hinv.separate

end BackendUsers

section Example

def vipProbes (n : Nat) : List (String × Bool) :=
  (List.range n).map fun i => ("10.0.0." ++ Nat.repr i, true)

theorem indices_vipProbes_three :
    ((⟨∅⟩ : VipManager).reconcile "10.96.0.1" .sorted (some (vipProbes 3))).2.flatMap
      backendIndices = [65520, 65521, 65522] := by
  decide +kernel

theorem indices_vipProbes_seventeen :
    65536 ∈ ((⟨∅⟩ : VipManager).reconcile "10.96.0.1" .sorted (some (vipProbes 17))).2.flatMap
      backendIndices := by
  decide +kernel

theorem exists_run_shop (guard : BackendUsers → BackendEvent → Prop) (pods : List UInt32)
    (ports : List ServicePort) (hpods : pods ≠ []) (hports : ports ≠ [])
    (hfit : intToU32 (pods.length * ports.length : Nat) ≤ backendSlots)
    (hslice : guard .start (.service (.sliceSet (shopSlice pods))))
    (hshop : ∀ s, s.services = shopWorld pods → guard s (.service (.serviceSet (shop ports))))
    (hvip : ∀ s, guard s (.vipReconcile (some (vipProbes 3)))) :
    ∃ s st, BackendUsers.Run plainConfig "10.96.0.1" guard .start s ∧
      s.services.watcher.services.lookup (shop ports).key = some st ∧
      st.backendCount = intToU32 (pods.length * ports.length : Nat) ∧
      s.vipIndices = [65520, 65521, 65522] := by
  obtain ⟨st, w, reqs, hstep, htracked, hcount⟩ := placed_shop plainConfig .sorted _ _ hpods hports hfit
  have hfirst : handle plainConfig "10.96.0.1" .sorted .start
      (.service (.sliceSet (shopSlice pods))) = some ⟨shopWorld pods, ⟨∅⟩, []⟩ := by
    simp only [handle, start, handle_shopSlice plainConfig .sorted pods]
  have hsecond : handle plainConfig "10.96.0.1" .sorted ⟨shopWorld pods, ⟨∅⟩, []⟩
      (.service (.serviceSet (shop ports))) = some ⟨w, ⟨∅⟩, []⟩ := by
    simp only [handle, hstep]
  refine ⟨_, st, .tail (.tail (.single ⟨_, .sorted, hslice, hfirst⟩)
    ⟨_, .sorted, hshop _ rfl, hsecond⟩) ⟨_, .sorted, hvip _, rfl⟩, htracked, hcount, ?_⟩
  exact indices_vipProbes_three

theorem vip_backends_separate_example :
    ∃ s, BackendUsers.Run plainConfig "10.96.0.1" BackendUsers.Clean .start s ∧
      (s.services.watcher.services.lookup (shop twoPorts).key).isSome = true ∧
      s.vipIndices = [65520, 65521, 65522] ∧ s.Separate := by
  have hslice : BackendUsers.Clean .start (.service (.sliceSet (shopSlice [0x0af40005]))) := by
    intro svc hcall
    simp [start, ServiceWorld.start, ServiceWorld.update, ServiceWorld.call,
      onEndpointSliceChange, shopSlice] at hcall
  have hshop : ∀ s, s.services = shopWorld [0x0af40005] →
      BackendUsers.Clean s (.service (.serviceSet (shop twoPorts))) := by
    rintro ⟨_, _, _⟩ rfl svc hcall - o total -
    obtain rfl := WatcherCall.reconcileService.inj (Option.some.inj hcall)
    refine ⟨0, ?_, ?_⟩
    · change 0 + totalBackends (collectBackends o (shopWorld [0x0af40005]).epsStore (shop twoPorts))
        (shop twoPorts) ≤ _
      rw [collectBackends_shop]
      decide
    · intro x _ k b _ hb
      simp [shopWorld, ServiceWorld.start, newWatcher, backendOwner] at hb
  have hvip : ∀ s, BackendUsers.Clean s (.vipReconcile (some (vipProbes 3))) := by
    intro s l hl
    obtain rfl := Option.some.inj hl
    decide +kernel
  obtain ⟨s, st, hrun, htracked, -, hindices⟩ := exists_run_shop BackendUsers.Clean
    [0x0af40005] twoPorts (by decide) (by decide) (by decide) hslice hshop hvip
  refine ⟨s, hrun, ?_, hindices, vip_backends_separate plainConfig "10.96.0.1" hrun⟩
  rw [htracked]
  rfl

theorem vip_backends_collide :
    (∃ s, BackendUsers.Run plainConfig "10.96.0.1" (fun _ _ => True) .start s ∧
      ∃ i ∈ s.vipIndices, backendSlots ≤ i) ∧
    ∃ s, BackendUsers.Run plainConfig "10.96.0.1" (fun _ _ => True) .start s ∧
      ∃ i ∈ s.vipIndices, ∃ key b, s.services.watcher.backendOwner key = some b ∧ b.Contains i := by
  refine ⟨⟨_, .single ⟨.vipReconcile (some (vipProbes 17)), .sorted, trivial, rfl⟩, 65536,
    indices_vipProbes_seventeen, by unfold backendSlots; omega⟩, ?_⟩
  have hpods : manyPods ≠ [] := ne_nil_of_length_pos (by rw [length_manyPods]; decide)
  have hall : intToU32 (manyPods.length * [portNumbered "" .tcp 80].length : Nat) = 65536 := by
    rw [length_manyPods]
    decide
  obtain ⟨s, st, hrun, htracked, hcount, hindices⟩ := exists_run_shop (fun _ _ => True)
    manyPods [portNumbered "" .tcp 80] hpods (by decide) (by rw [hall]; rfl) trivial
    (fun _ _ => trivial) (fun _ => trivial)
  have howner : s.services.watcher.backendOwner (shop [portNumbered "" .tcp 80]).key =
      some st.backendBlock := by
    simp [backendOwner, htracked]
  rw [hall] at hcount
  -- the service owns all 65536 slots, so its block starts at 0
  have hslots := slotsConserved_of_run hrun
  have hlt := hslots.lt_cap howner (i := st.backendOffset + 65535)
    ⟨Nat.le_add_right _ _, by simp only [ServiceState.backendBlock, hcount]; omega⟩
  refine ⟨s, hrun, 65520, by rw [hindices]; decide, _, _, howner, ?_⟩
  unfold backendSlots at hlt
  refine ⟨?_, ?_⟩ <;> simp only [ServiceState.backendBlock, hcount] <;> omega

end Example

end NovaNet
