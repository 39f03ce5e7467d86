import NovaNet.LbIpam

/-! Runs of calls to the LoadBalancer allocator. Pools whose networks share no address never
assign an address twice. -/

namespace NovaNet

open Finmap LastWrite List Option

namespace LbPool

def Has (p : LbPool) (key : String) : Prop :=
  ∃ idx < poolSize p.cidr, (p.cidr.ip.add idx).string = key

def Apart (p p' : LbPool) : Prop := ∀ key, p.Has key → ¬ p'.Has key

instance (p p' : LbPool) : Decidable (p.Apart p') :=
  decidable_of_iff (∀ i < poolSize p.cidr, ∀ j < poolSize p'.cidr,
    (p.cidr.ip.add i).string ≠ (p'.cidr.ip.add j).string)
    ⟨fun h _ ⟨i, hi, hkey⟩ ⟨j, hj, hkey'⟩ => h i hi j hj (hkey.trans hkey'.symm),
      fun h i hi j hj heq => h _ ⟨i, hi, rfl⟩ ⟨j, hj, heq.symm⟩⟩

theorem Apart.symm {p p' : LbPool} (h : p.Apart p') : p'.Apart p :=
  fun key hp' hp => h key hp hp'

structure Synced (p : LbPool) : Prop where
  bits : ∀ idx < poolSize p.cidr, p.bm.get idx = true ↔ (p.cidr.ip.add idx).string ∈ p.used
  keys : ∀ key ∈ p.used, p.Has key

structure Updates (p p' : LbPool) (key : String) (service : Option String) : Prop where
  lookup : ∀ k, p'.used.lookup k = if key = k then service else p.used.lookup k
  name : p'.name = p.name
  cidr : p'.cidr = p.cidr
  synced : p'.Synced

variable {p p' : LbPool} {idx : Nat} {key service : String} {ip : Option Net.IP}

theorem size_of_lt (h : idx < poolSize p.cidr) : idx < p.cidr.size ∧ p.cidr.hostBits < 63 := by
  have hfeasible := p.feasible
  unfold poolSize at h
  split at h
  · omega
  · exact ⟨h, by omega⟩

theorem string_add_inj {j : Nat} (hi : idx < poolSize p.cidr) (hj : j < poolSize p.cidr) :
    (p.cidr.ip.add idx).string = (p.cidr.ip.add j).string ↔ idx = j := by
  constructor
  · intro heq
    exact p.isNetwork.normalize_add_inj (size_of_lt hi).1 (size_of_lt hj).1 (Net.string_eq_iff.mp heq)
  · rintro rfl
    rfl

theorem synced_new (hbm : p.bm = .new (poolSize p.cidr)) (hused : p.used = ∅) : p.Synced := by
  refine ⟨fun idx _ => ?_, fun key hkey => ?_⟩
  · rw [hbm, hused, Bitmap.get_new]
    exact iff_of_false Bool.false_ne_true notMem_empty
  · rw [hused] at hkey
    exact absurd hkey notMem_empty

theorem Synced.mark (h : p.Synced) (hlt : idx < poolSize p.cidr)
    (hkey : (p.cidr.ip.add idx).string = key) :
    Synced { p with bm := p.bm.set idx, used := p.used.insert key service, size_bm := p.size_bm } := by
  constructor
  · intro j hj
    change (p.bm.set idx).get j = true ↔ _ ∈ p.used.insert key service
    rw [Bitmap.get_set _ (p.size_bm ▸ hlt), Bool.or_eq_true, decide_eq_true_iff, h.bits j hj,
      mem_insert, ← hkey, string_add_inj hj hlt]
    exact Or.comm
  · exact forall_mem_insert ⟨idx, hlt, hkey⟩ h.keys

theorem Synced.unmark (h : p.Synced) (hlt : idx < poolSize p.cidr)
    (hkey : (p.cidr.ip.add idx).string = key) :
    Synced { p with used := p.used.erase key, bm := p.bm.clear idx, size_bm := p.size_bm } := by
  constructor
  · intro j hj
    change (p.bm.clear idx).get j = true ↔ _ ∈ p.used.erase key
    rw [Bitmap.get_clear _ (p.size_bm ▸ hlt), Bool.and_eq_true, decide_eq_true_iff, h.bits j hj,
      mem_erase, ← hkey, ne_eq, ne_eq, string_add_inj hj hlt]
    exact And.comm
  · intro k hk
    exact h.keys k (mem_erase.mp hk).2

theorem allocateLocked_spec (h : p.Synced) (hcall : p.allocateLocked service = some (ip, p')) :
    p.Updates p' (ipText ip) (some service) ∧ p.Has (ipText ip) ∧ ipText ip ∉ p.used := by
  have hspec := lbFindFree_spec p.bm
  unfold allocateLocked at hcall
  cases hfree : lbFindFree p.bm with
  | none => simp [hfree] at hcall
  | some idx =>
    rw [hfree] at hcall hspec
    cases hcall
    obtain ⟨-, hsize, hclear, -⟩ := hspec
    have hlt : idx < poolSize p.cidr := lt_of_lt_of_eq hsize p.size_bm
    obtain ⟨hin, hbits⟩ := size_of_lt hlt
    have htext := ipText_addToIP p.isNetwork (by omega) hin
    refine ⟨⟨fun k => LastWrite.lookup_insert_eq _ _ _ _, rfl, rfl, h.mark hlt htext.symm⟩,
      ⟨idx, hlt, htext.symm⟩, fun hmem => ?_⟩
    rw [htext, ← h.bits idx hlt, hclear] at hmem
    cases hmem

theorem releaseLocked_spec (h : p.Synced) (hcall : p.releaseLocked ip = some ((), p')) :
    p.Updates p' (ipText ip) none ∧ ipText ip ∈ p.used := by
  unfold releaseLocked at hcall
  split at hcall
  · next hmem =>
    obtain ⟨idx, hlt, hkey⟩ := h.keys _ hmem
    obtain ⟨hin, hbits⟩ := size_of_lt hlt
    have hoff := ipToOffset_of_text p.isNetwork hbits hin hkey
    have hrange : 0 ≤ (idx : Int) ∧ (idx : Int) < poolSize p.cidr := by omega
    simp only [hoff, if_pos hrange, Int.toNat_natCast] at hcall
    cases hcall
    exact ⟨⟨fun k => LastWrite.lookup_erase_eq _ _ _, rfl, rfl, h.unmark hlt hkey⟩, hmem⟩
  · cases hcall

theorem releaseLocked_eq_none (hcall : p.releaseLocked ip = none) : ipText ip ∉ p.used := by
  unfold releaseLocked at hcall
  split at hcall
  · dsimp only at hcall
    split at hcall <;> cases hcall
  · next hnot => exact hnot

theorem Updates.has_iff {service : Option String} (h : p.Updates p' key service) (k : String) :
    p'.Has k ↔ p.Has k := by
  unfold Has
  rw [h.cidr]

end LbPool

open LbPool

def LbAllocator.Disjoint (a : LbAllocator) : Prop := a.pools.Pairwise LbPool.Apart

open LbAllocator

instance (a : LbAllocator) : Decidable a.Disjoint :=
  inferInstanceAs (Decidable (a.pools.Pairwise LbPool.Apart))

inductive LbCall where
  | addPool (name cidr : String)
  | removePool (name : String)
  | allocate (serviceKey : String)
  | allocateFromPool (poolName serviceKey : String)
  | release (ip : Option Net.IP)

def LbCall.KeepsPools : LbCall → Prop
  | .addPool _ _ | .removePool _ => False
  | _ => True

/-- `held` is the service to which each address was allocated last and not released, with
the pool that it came from. -/
structure LbRun where
  alloc : LbAllocator
  held : String → Option (String × String)

namespace LbRun

def start : LbRun := ⟨.new, fun _ => none⟩

def put (held : String → Option (String × String)) (key : String) (v : Option (String × String)) :
    String → Option (String × String) :=
  fun k => if key = k then v else held k

def granted (s : LbRun) (serviceKey : String) :
    Except LbError ((Option Net.IP × String) × LbAllocator) → LbRun
  | .ok ((ip, name), alloc) => ⟨alloc, put s.held (ipText ip) (some (serviceKey, name))⟩
  | .error _ => s

def call (s : LbRun) : LbCall → LbRun
  | .addPool name cidr =>
    match s.alloc.addPool name cidr with
    | .ok alloc => ⟨alloc, s.held⟩
    | .error _ => s
  | .removePool name =>
    ⟨s.alloc.removePool name, fun k => (s.held k).filter fun h => h.2 ≠ name⟩
  | .allocate serviceKey => s.granted serviceKey (s.alloc.allocate serviceKey)
  | .allocateFromPool poolName serviceKey =>
    s.granted serviceKey (s.alloc.allocateFromPool poolName serviceKey)
  | .release ip => ⟨(s.alloc.release ip).2, put s.held (ipText ip) none⟩

def after (s : LbRun) (calls : List LbCall) : LbRun := calls.foldl call s

/-- A pool is only added if its network shares no address with a registered one. -/
def Allowed (s : LbRun) : LbCall → Prop
  | .addPool name cidr => ∀ alloc, s.alloc.addPool name cidr = .ok alloc → alloc.Disjoint
  | _ => True

def AllowedRun : LbRun → List LbCall → Prop
  | _, [] => True
  | s, q :: calls => s.Allowed q ∧ AllowedRun (s.call q) calls

instance (s : LbRun) (q : LbCall) : Decidable (s.Allowed q) :=
  match q with
  | .addPool name cidr =>
    match h : s.alloc.addPool name cidr with
    | .ok alloc => decidable_of_iff alloc.Disjoint
        ⟨fun hd _ ha => Except.ok.inj (h.symm.trans ha) ▸ hd, fun hd => hd alloc h⟩
    | .error _ => .isTrue fun _ ha => nomatch h.symm.trans ha
  | .removePool _ => .isTrue trivial
  | .allocate _ => .isTrue trivial
  | .allocateFromPool _ _ => .isTrue trivial
  | .release _ => .isTrue trivial

instance AllowedRun.decidable : (s : LbRun) → (calls : List LbCall) → Decidable (s.AllowedRun calls)
  | _, [] => .isTrue trivial
  | s, q :: calls =>
    have := AllowedRun.decidable (s.call q) calls
    inferInstanceAs (Decidable (s.Allowed q ∧ (s.call q).AllowedRun calls))

/-- One service for each address, the one that holds it; a free address is granted and a
release takes away that assignment and no other. -/
structure Exclusive (s : LbRun) : Prop where
  unique : ∀ p ∈ s.alloc.pools, ∀ p' ∈ s.alloc.pools, ∀ key service service',
    p.used.lookup key = some service → p'.used.lookup key = some service' → service = service'
  service : ∀ ip, s.alloc.getServiceForIP ip = (s.held (ipText ip)).map Prod.fst
  bits : ∀ p ∈ s.alloc.pools, ∀ idx < poolSize p.cidr,
    p.bm.get idx = true ↔ (s.held (p.cidr.ip.add idx).string).isSome
  fresh : ∀ serviceKey ip name alloc, s.alloc.allocate serviceKey = .ok ((ip, name), alloc) →
    s.held (ipText ip) = none
  released : ∀ ip, (s.alloc.release ip).1 = (s.held (ipText ip)).isSome
  release : ∀ ip ip', (s.alloc.release ip).2.getServiceForIP ip' =
    if ipText ip = ipText ip' then none else s.alloc.getServiceForIP ip'

structure Inv (s : LbRun) : Prop where
  disjoint : s.alloc.Disjoint
  names : s.alloc.pools.Pairwise fun p p' => p.name ≠ p'.name
  synced : ∀ p ∈ s.alloc.pools, p.Synced
  held : ∀ key service name, s.held key = some (service, name) ↔
    ∃ p ∈ s.alloc.pools, p.name = name ∧ p.used.lookup key = some service

variable {s : LbRun} {p p' : LbPool} {key service name : String} {l₁ l₂ : List LbPool}

theorem inv_start : start.Inv where
  disjoint := List.Pairwise.nil
  names := List.Pairwise.nil
  synced := by simp [start, new]
  held := by simp [start, new]

variable {ip : Option Net.IP} {alloc : LbAllocator} {q : LbPool}

theorem mem_split_iff : q ∈ l₁ ++ p :: l₂ ↔ q = p ∨ q ∈ l₁ ++ l₂ := by
  simp only [mem_append, mem_cons]
  tauto

theorem Inv.not_has (h : s.Inv) (hpools : s.alloc.pools = l₁ ++ p :: l₂) (hp : p.Has key)
    (hq : q ∈ l₁ ++ l₂) : ¬ q.Has key := by
  have hdis : (l₁ ++ p :: l₂).Pairwise LbPool.Apart := hpools ▸ h.disjoint
  rw [pairwise_middle LbPool.Apart.symm, pairwise_cons] at hdis
  exact hdis.1 q hq key hp

theorem Inv.not_mem_used (h : s.Inv) (hpools : s.alloc.pools = l₁ ++ p :: l₂) (hp : p.Has key)
    (hq : q ∈ l₁ ++ l₂) : q.used.lookup key = none := by
  have hmem : q ∈ s.alloc.pools := hpools ▸ mem_split_iff.mpr (.inr hq)
  refine lookup_eq_none.mpr fun hin => ?_
  exact h.not_has hpools hp hq ((h.synced q hmem).keys key hin)

theorem Inv.held_iff (h : s.Inv) (hpools : s.alloc.pools = l₁ ++ p :: l₂) (hp : p.Has key) :
    s.held key = some (service, name) ↔ p.name = name ∧ p.used.lookup key = some service := by
  rw [h.held, hpools]
  constructor
  · rintro ⟨q, hq, hname, hlookup⟩
    rcases mem_split_iff.mp hq with rfl | hother
    · exact ⟨hname, hlookup⟩
    · simp [h.not_mem_used hpools hp hother] at hlookup
  · rintro ⟨hname, hlookup⟩
    exact ⟨p, mem_split_iff.mpr (.inl rfl), hname, hlookup⟩

theorem pairwise_replace {r : LbPool → LbPool → Prop} (hsymm : ∀ {q q'}, r q q' → r q' q)
    (h : (l₁ ++ p :: l₂).Pairwise r) (hr : ∀ q, r p q → r p' q) :
    (l₁ ++ p' :: l₂).Pairwise r := by
  rw [pairwise_middle hsymm, pairwise_cons] at h ⊢
  exact ⟨fun q hq => hr q (h.1 q hq), h.2⟩

theorem Inv.update {service : Option String} (h : s.Inv)
    (hpools : s.alloc.pools = l₁ ++ p :: l₂) (hup : p.Updates p' key service) (hp : p.Has key) :
    Inv ⟨⟨l₁ ++ p' :: l₂⟩, put s.held key (service.map fun v => (v, p.name))⟩ := by
  have hdis := h.disjoint
  have hnames := h.names
  unfold LbAllocator.Disjoint at hdis
  rw [hpools] at hdis hnames
  refine ⟨pairwise_replace LbPool.Apart.symm hdis fun q hq k hk => hq k ((hup.has_iff k).mp hk),
    pairwise_replace Ne.symm hnames fun q => by rw [hup.name]; exact id, ?_, ?_⟩
  · intro q hq
    rcases mem_split_iff.mp hq with rfl | hother
    · exact hup.synced
    · exact h.synced q (hpools ▸ mem_split_iff.mpr (.inr hother))
  · intro k v name
    have hmem : (∃ q ∈ l₁ ++ p' :: l₂, q.name = name ∧ q.used.lookup k = some v) ↔
        (p.name = name ∧ p'.used.lookup k = some v) ∨
          ∃ q ∈ l₁ ++ l₂, q.name = name ∧ q.used.lookup k = some v := by
      simp only [mem_split_iff, or_and_right, exists_or, exists_eq_left, hup.name]
    change (if key = k then service.map fun v => (v, p.name) else s.held k) = _ ↔ _
    rw [hmem, hup.lookup]
    by_cases he : key = k
    · subst he
      have hother : ¬ ∃ q ∈ l₁ ++ l₂, q.name = name ∧ q.used.lookup key = some v := by
        rintro ⟨q, hq, -, hlookup⟩
        simp [h.not_mem_used hpools hp hq] at hlookup
      simp only [if_true, hother, or_false, map_eq_some_iff, Prod.mk.injEq]
      constructor
      · rintro ⟨w, hw, rfl, rfl⟩
        exact ⟨rfl, hw⟩
      · rintro ⟨rfl, hw⟩
        exact ⟨v, hw, rfl, rfl⟩
    · rw [if_neg he, if_neg he, h.held, hpools]
      simp only [mem_split_iff, or_and_right, exists_or, exists_eq_left]

theorem Inv.held_eq_none (h : s.Inv) (hno : ∀ p ∈ s.alloc.pools, p.used.lookup key = none) :
    s.held key = none := by
  refine Option.eq_none_iff_forall_ne_some.mpr fun v hheld => ?_
  obtain ⟨p, hp, -, hlookup⟩ := (h.held key v.1 v.2).mp hheld
  simp [hno p hp] at hlookup

theorem service_eq (h : s.Inv) (ip : Option Net.IP) :
    s.alloc.getServiceForIP ip = (s.held (ipText ip)).map Prod.fst := by
  unfold getServiceForIP
  cases hfind : s.alloc.pools.findSome? fun p => p.used.lookup (ipText ip) with
  | some service =>
    obtain ⟨l₁, p, l₂, hpools, hlookup, -⟩ := List.findSome?_eq_some_iff.mp hfind
    have hheld := (h.held (ipText ip) service p.name).mpr
      ⟨p, hpools ▸ mem_split_iff.mpr (.inl rfl), rfl, hlookup⟩
    rw [hheld]
    rfl
  | none => rw [h.held_eq_none (List.findSome?_eq_none_iff.mp hfind), map_none]

theorem Inv.grant (h : s.Inv) (hpools : s.alloc.pools = l₁ ++ p :: l₂)
    (hlocked : p.allocateLocked service = some (ip, p')) :
    Inv ⟨⟨l₁ ++ p' :: l₂⟩, put s.held (ipText ip) (some (service, p.name))⟩ ∧
      s.held (ipText ip) = none := by
  have hsynced := h.synced p (hpools ▸ mem_split_iff.mpr (.inl rfl))
  obtain ⟨hup, hhas, hnot⟩ := allocateLocked_spec hsynced hlocked
  refine ⟨h.update hpools hup hhas, Option.eq_none_iff_forall_ne_some.mpr fun v hheld => ?_⟩
  have hlookup := ((h.held_iff hpools hhas).mp hheld).2
  exact hnot (mem_of_lookup_eq_some hlookup)

theorem allocate_spec (h : s.Inv) (hcall : s.alloc.allocate service = .ok ((ip, name), alloc)) :
    Inv ⟨alloc, put s.held (ipText ip) (some (service, name))⟩ ∧ s.held (ipText ip) = none := by
  unfold allocate at hcall
  split at hcall
  · next r pools hfirst =>
    cases hcall
    obtain ⟨l₁, p, p', l₂, hpools, rfl, hp⟩ := updateFirst_eq_some hfirst
    obtain ⟨r, hlocked, heq⟩ := map_eq_some_iff.mp hp
    cases heq
    exact h.grant hpools hlocked
  · cases hcall

theorem allocateFromPool_spec {poolName : String} (h : s.Inv)
    (hcall : s.alloc.allocateFromPool poolName service = .ok ((ip, name), alloc)) :
    Inv ⟨alloc, put s.held (ipText ip) (some (service, name))⟩ := by
  unfold allocateFromPool at hcall
  split at hcall
  · next r pools hfirst =>
    cases hcall
    obtain ⟨l₁, p, p', l₂, hpools, rfl, hp⟩ := updateFirst_eq_some hfirst
    split at hp
    · split at hp
      · next hlocked =>
        cases hp
        exact (h.grant hpools hlocked).1
      · cases hp
    · cases hp
  · cases hcall
  · cases hcall

theorem release_spec (h : s.Inv) (ip : Option Net.IP) :
    Inv ⟨(s.alloc.release ip).2, put s.held (ipText ip) none⟩ ∧
      (s.alloc.release ip).1 = (s.held (ipText ip)).isSome := by
  unfold release
  split
  · next u pools hfirst =>
    obtain ⟨l₁, p, p', l₂, hpools, rfl, hp⟩ := updateFirst_eq_some hfirst
    have hsynced := h.synced p (hpools ▸ mem_split_iff.mpr (.inl rfl))
    obtain ⟨hup, hmem⟩ := releaseLocked_spec hsynced hp
    have hhas := hsynced.keys _ hmem
    obtain ⟨service, hlookup⟩ := Finmap.mem_iff.mp hmem
    have hheld := (h.held_iff hpools hhas).mpr ⟨rfl, hlookup⟩
    exact ⟨h.update hpools hup hhas, by rw [hheld]; rfl⟩
  · next hfirst =>
    have hnone : s.held (ipText ip) = none := h.held_eq_none fun p hp =>
      lookup_eq_none.mpr (releaseLocked_eq_none (updateFirst_eq_none hfirst p hp))
    have hput : put s.held (ipText ip) none = s.held := by
      funext k
      unfold put
      split
      · next he => rw [← he, hnone]
      · rfl
    exact ⟨by rw [hput]; exact h, by rw [hnone]; rfl⟩

theorem inv_addPool {cidr : String} (h : s.Inv) (hcall : s.alloc.addPool name cidr = .ok alloc)
    (hdis : alloc.Disjoint) : Inv ⟨alloc, s.held⟩ := by
  unfold addPool at hcall
  split at hcall
  · cases hcall
  · next hname =>
    split at hcall
    · cases hcall
    · next net hparse =>
      split at hcall
      · cases hcall
      · next hsize =>
        cases hcall
        have hnew : ∀ p ∈ s.alloc.pools, p.name ≠ name := by simpa using hname
        refine ⟨hdis, ?_, ?_, ?_⟩
        · refine pairwise_append.mpr ⟨h.names, pairwise_singleton _ _, fun p hp q hq => ?_⟩
          rw [List.mem_singleton.mp hq]
          exact hnew p hp
        · intro p hp
          rcases mem_append.mp hp with hold | hlast
          · exact h.synced p hold
          · rw [List.mem_singleton.mp hlast]
            exact synced_new rfl rfl
        · intro key service n
          rw [h.held]
          simp [mem_append, or_and_right, exists_or]

theorem inv_removePool (h : s.Inv) (name : String) :
    Inv ⟨s.alloc.removePool name, fun k => (s.held k).filter fun v => v.2 ≠ name⟩ := by
  have hkept : ∀ q, q ∈ (s.alloc.removePool name).pools ↔ q ∈ s.alloc.pools ∧ q.name ≠ name := by
    intro q
    by_cases hname : q.name = name
    · refine ⟨fun hq => ?_, fun hq => absurd hname hq.2⟩
      obtain ⟨p, l₁, l₂, -, hp, hpools, herase⟩ := exists_of_eraseP
        (p := fun p : LbPool => decide (p.name = name)) (mem_of_mem_eraseP hq) (by simpa using hname)
      have hnames := h.names
      rw [hpools, pairwise_middle Ne.symm, pairwise_cons] at hnames
      rw [removePool, herase] at hq
      exact absurd ((of_decide_eq_true hp).trans hname.symm) (hnames.1 q hq)
    · rw [and_iff_left hname]
      exact mem_eraseP_of_neg (by simpa using hname)
  have hsub : (s.alloc.removePool name).pools.Sublist s.alloc.pools := eraseP_sublist
  refine ⟨h.disjoint.sublist hsub, h.names.sublist hsub, fun p hp => h.synced p (hsub.subset hp), ?_⟩
  intro key service n
  change (s.held key).filter _ = _ ↔ _
  rw [filter_eq_some_iff, h.held]
  simp only [hkept, decide_eq_true_eq]
  constructor
  · rintro ⟨⟨p, hp, rfl, hlookup⟩, hne⟩
    exact ⟨p, ⟨hp, hne⟩, rfl, hlookup⟩
  · rintro ⟨p, ⟨hp, hne⟩, rfl, hlookup⟩
    exact ⟨⟨p, hp, rfl, hlookup⟩, hne⟩

theorem Inv.granted (h : s.Inv) {r : Except LbError ((Option Net.IP × String) × LbAllocator)}
    (hok : ∀ ip name alloc, r = .ok ((ip, name), alloc) →
      Inv ⟨alloc, put s.held (ipText ip) (some (service, name))⟩) : (s.granted service r).Inv := by
  cases r with
  | ok r => exact hok _ _ _ rfl
  | error e => exact h

theorem Inv.call (h : s.Inv) {q : LbCall} (hq : s.Allowed q) : (s.call q).Inv := by
  cases q with
  | addPool name cidr =>
    cases hcall : s.alloc.addPool name cidr with
    | ok alloc =>
      simp only [LbRun.call, hcall]
      exact inv_addPool h hcall (hq alloc hcall)
    | error e => simpa only [LbRun.call, hcall] using h
  | removePool name => exact inv_removePool h name
  | allocate service => exact h.granted fun ip name alloc hcall => (allocate_spec h hcall).1
  | allocateFromPool poolName service =>
    exact h.granted fun ip name alloc hcall => allocateFromPool_spec h hcall
  | release ip => exact (release_spec h ip).1

theorem Inv.after (h : s.Inv) {calls : List LbCall} (hcalls : s.AllowedRun calls) :
    (s.after calls).Inv := by
  induction calls generalizing s with
  | nil => exact h
  | cons q calls ih => exact ih (h.call hcalls.1) hcalls.2

theorem Inv.exclusive (h : s.Inv) : s.Exclusive where
  unique := by
    intro p hp p' hp' key service service' hlookup hlookup'
    have hheld := (h.held key service p.name).mpr ⟨p, hp, rfl, hlookup⟩
    have hheld' := (h.held key service' p'.name).mpr ⟨p', hp', rfl, hlookup'⟩
    rw [hheld, Option.some.injEq, Prod.mk.injEq] at hheld'
    exact hheld'.1
  service := service_eq h
  bits := by
    intro p hp idx hidx
    obtain ⟨l₁, l₂, hpools⟩ := append_of_mem hp
    rw [(h.synced p hp).bits idx hidx, Finmap.mem_iff, isSome_iff_exists]
    constructor
    · rintro ⟨service, hlookup⟩
      exact ⟨_, (h.held_iff hpools ⟨idx, hidx, rfl⟩).mpr ⟨rfl, hlookup⟩⟩
    · rintro ⟨v, hv⟩
      exact ⟨v.1, ((h.held_iff hpools ⟨idx, hidx, rfl⟩).mp hv).2⟩
  fresh := fun _ _ _ _ hcall => (allocate_spec h hcall).2
  released := fun ip => (release_spec h ip).2
  release := by
    intro ip ip'
    have hafter := service_eq (release_spec h ip).1 ip'
    rw [service_eq h]
    refine hafter.trans ?_
    change (if ipText ip = ipText ip' then none else s.held (ipText ip')).map Prod.fst = _
    by_cases he : ipText ip = ipText ip'
    · rw [if_pos he, if_pos he, map_none]
    · rw [if_neg he, if_neg he]

theorem lb_exclusive (calls : List LbCall) (h : start.AllowedRun calls) :
    (start.after calls).Exclusive := (inv_start.after h).exclusive

def apartCalls : List LbCall :=
  [.addPool "blue" "10.0.0.0/32", .addPool "green" "10.0.0.2/31", .allocate "default/web",
    .allocate "default/api", .release (some (.v4 0x0a000000))]

theorem lb_exclusive_example : start.AllowedRun apartCalls ∧ (start.after apartCalls).Exclusive := by
  have hallowed : start.AllowedRun apartCalls := by decide +kernel
  exact ⟨hallowed, lb_exclusive apartCalls hallowed⟩

def sharedCalls : List LbCall :=
  [.addPool "blue" "10.0.0.0/32", .addPool "green" "10.0.0.0/32", .allocate "default/web",
    .allocate "default/api"]

theorem lb_assigns_twice :
    (start.after sharedCalls).alloc.pools.map (fun p => (p.name, p.used.lookup "10.0.0.0")) =
      [("blue", some "default/web"), ("green", some "default/api")] ∧
    (start.after sharedCalls).held "10.0.0.0" = some ("default/api", "green") ∧
    (start.after sharedCalls).alloc.getServiceForIP (some (.v4 0x0a000000)) = some "default/web" := by
  decide +kernel

section OnlyPool

variable {net : Net.IPNet}

/-- What a pool whose addresses fit into 62 bits owes while it is the only one. -/
structure Coherent (s : LbRun) (p : LbPool) : Prop where
  used : ∀ key, p.used.lookup key = (s.held key).map Prod.fst
  bits : ∀ i < 2 ^ p.cidr.hostBits, p.bm.get i = true ↔ (p.cidr.ip.add i).string ∈ p.used
  offset : ∀ i < 2 ^ p.cidr.hostBits,
    ipText (addToIP p.cidr.ip (UInt64.ofNat i)) = (p.cidr.ip.add i).string ∧
    ∀ ip, ipText ip = (p.cidr.ip.add i).string → ipToOffset p.cidr.ip ip = i
  allocate : ∀ service,
    match allocate ⟨[p]⟩ service with
    | .ok ((ip, _), _) => ∃ i < 2 ^ p.cidr.hostBits, ipText ip = (p.cidr.ip.add i).string ∧
        (p.cidr.ip.add i).string ∉ p.used ∧ ∀ j < i, (p.cidr.ip.add j).string ∈ p.used
    | .error _ => ∀ i < 2 ^ p.cidr.hostBits, (p.cidr.ip.add i).string ∈ p.used
  release : ∀ ip, (release ⟨[p]⟩ ip).1 = true ↔ ipText ip ∈ p.used

def Only (net : Net.IPNet) (s : LbRun) : Prop :=
  s.Inv ∧ ∃ p, s.alloc = ⟨[p]⟩ ∧ p.cidr = net

theorem allocate_only (p : LbPool) (service : String) :
    allocate ⟨[p]⟩ service =
      match p.allocateLocked service with
      | some (ip, p') => .ok ((ip, p.name), ⟨[p']⟩)
      | none => .error .noPoolSpace := by
  unfold allocate updateFirst updateFirst
  cases p.allocateLocked service <;> rfl

theorem release_only (p : LbPool) (ip : Option Net.IP) :
    release ⟨[p]⟩ ip =
      match p.releaseLocked ip with
      | some (_, p') => (true, ⟨[p']⟩)
      | none => (false, ⟨[p]⟩) := by
  unfold release updateFirst updateFirst
  cases p.releaseLocked ip <;> rfl

theorem Inv.used_eq (h : s.Inv) (halloc : s.alloc = ⟨[p]⟩) (key : String) :
    p.used.lookup key = (s.held key).map Prod.fst := by
  ext service
  simp [h.held, halloc]

theorem Inv.coherent (h : s.Inv) (halloc : s.alloc = ⟨[p]⟩) (hbits : p.cidr.hostBits ≤ 62) :
    s.Coherent p := by
  have hsynced := h.synced p (by simp [halloc])
  have hsize : poolSize p.cidr = 2 ^ p.cidr.hostBits := if_neg (by omega)
  have hbit := hsize ▸ hsynced.bits
  refine ⟨h.used_eq halloc, hbit, fun i hi => ⟨ipText_addToIP p.isNetwork (by omega) hi, fun ip hip =>
    ipToOffset_of_text p.isNetwork (by omega) hi hip.symm⟩, fun service => ?_, fun ip => ?_⟩
  · have hfree := lbFindFree_spec p.bm
    rw [p.size_bm, hsize] at hfree
    rw [allocate_only, allocateLocked]
    cases hidx : lbFindFree p.bm with
    | none =>
      rw [hidx] at hfree
      exact fun i hi => (hbit i hi).mp (hfree i (Nat.zero_le i) hi)
    | some idx =>
      rw [hidx] at hfree
      obtain ⟨-, hlt, hclear, hbelow⟩ := hfree
      refine ⟨idx, hlt, ipText_addToIP p.isNetwork (by omega) hlt, fun hmem => ?_, fun j hj =>
        (hbit j (by omega)).mp (hbelow j (Nat.zero_le j) hj)⟩
      simp [(hbit idx hlt).mpr hmem] at hclear
  · rw [release_only]
    cases hcall : p.releaseLocked ip with
    | none => exact iff_of_false Bool.false_ne_true (releaseLocked_eq_none hcall)
    | some r => exact iff_of_true rfl (releaseLocked_spec hsynced hcall).2

theorem Only.call (h : s.Only net) {q : LbCall} (hq : q.KeepsPools) : (s.call q).Only net := by
  obtain ⟨hinv, p, halloc, rfl⟩ := h
  have hsynced := hinv.synced p (by simp [halloc])
  have hsame : ∃ p', s.alloc = ⟨[p']⟩ ∧ p'.cidr = p.cidr := ⟨p, halloc, rfl⟩
  have hgrant {service : String} {ip : Option Net.IP} {p' : LbPool}
      (hlocked : p.allocateLocked service = some (ip, p')) :
      ∃ p₁, (s.granted service (.ok ((ip, p.name), ⟨[p']⟩))).alloc = ⟨[p₁]⟩ ∧ p₁.cidr = p.cidr :=
    ⟨p', rfl, (allocateLocked_spec hsynced hlocked).1.cidr⟩
  cases q with
  | addPool name cidr | removePool name => exact hq.elim
  | allocate service =>
    refine ⟨hinv.call trivial, ?_⟩
    rw [LbRun.call, halloc, allocate_only]
    cases hlocked : p.allocateLocked service with
    | none => exact hsame
    | some r => exact hgrant hlocked
  | allocateFromPool poolName service =>
    refine ⟨hinv.call trivial, ?_⟩
    rw [LbRun.call, halloc, allocateFromPool, updateFirst, updateFirst]
    by_cases hname : p.name = poolName
    · cases hlocked : p.allocateLocked service with
      | none => simpa only [if_pos hname, hlocked, granted] using hsame
      | some r => simpa only [if_pos hname, hlocked] using hgrant hlocked
    · rwa [if_neg hname]
  | release ip =>
    refine ⟨hinv.call trivial, ?_⟩
    rw [LbRun.call, halloc, release_only]
    cases hcall : p.releaseLocked ip with
    | none => exact ⟨p, rfl, rfl⟩
    | some r => exact ⟨r.2, rfl, (releaseLocked_spec hsynced hcall).1.cidr⟩

/-- A pool of at most 62 host bits is coherent after any calls that neither add nor remove one. -/
theorem lb_pool_coherent (name : String) {cidr : String} (hparse : Net.parseCIDR cidr = some net)
    (hbits : net.hostBits ≤ 62) (calls : List LbCall) (hcalls : ∀ q ∈ calls, q.KeepsPools) :
    ∃ p, (start.after (.addPool name cidr :: calls)).alloc = ⟨[p]⟩ ∧ p.cidr = net ∧
      (start.after (.addPool name cidr :: calls)).Coherent p := by
  have hstart : (start.call (.addPool name cidr)).Only net := by
    have hadd : ∃ p, new.addPool name cidr = .ok ⟨[p]⟩ ∧ p.cidr = net := by
      unfold addPool
      rw [if_neg (by simp [new])]
      split
      · next hnone => rw [hparse] at hnone; cases hnone
      · next net' hnet =>
        obtain rfl := Option.some.inj (hparse.symm.trans hnet)
        rw [dif_neg (by omega)]
        exact ⟨_, rfl, rfl⟩
    obtain ⟨p, hp, hnet⟩ := hadd
    rw [LbRun.call, show start.alloc = .new from rfl, hp]
    exact ⟨inv_addPool inv_start hp (pairwise_singleton _ _), p, rfl, hnet⟩
  obtain ⟨hinv, p, halloc, rfl⟩ := foldlRecOn calls LbRun.call hstart
    fun s hs q hq => Only.call hs (hcalls q hq)
  exact ⟨p, halloc, rfl, hinv.coherent halloc hbits⟩

def blueCalls : List LbCall := [.allocate "default/web", .release (some (.v4 0x0a000002))]

theorem lb_pool_coherent_example :
    ∃ p, (start.after (.addPool "blue" "10.0.0.2/31" :: blueCalls)).alloc = ⟨[p]⟩ ∧
      p.cidr = ⟨.v4 0x0a000002, 31⟩ ∧
      (start.after (.addPool "blue" "10.0.0.2/31" :: blueCalls)).Coherent p :=
  lb_pool_coherent "blue" (by decide +kernel) (by decide) blueCalls
    (by simp [blueCalls, LbCall.KeepsPools])

end OnlyPool

end LbRun

end NovaNet
