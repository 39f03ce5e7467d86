import NovaNet.PoolManager

/-! Runs of the operator: edits of the objects, reconciles of both controllers and calls to
the manager, one after the other. The manager is exclusive as long as what it holds covers
the bound allocations. -/

namespace NovaNet

open Finmap LastWrite Option

theorem Pool.slot_of_already_allocated {p : Pool} {x : IPSlice} {owner resource detail : String}
    (h : p.allocateSpecific x owner resource = .error (.sentinel .ipAlreadyAlloc detail)) :
    p.slot (normalizeIP x) = some true := by
  unfold Pool.allocateSpecific at h
  dsimp only at h
  split at h
  · next htaken => rw [slot, htaken, some_or]
  · cases h
  · next hnot =>
    have hspec := claim_spec (normalizeIP x) p.ranges
    split at h
    · next e hclaim =>
      rw [hclaim] at hspec
      rw [slot, hnot, none_or]
      exact hspec.2
    · cases h
    · cases h

inductive ManagerCall where
  | allocate (site : List Nat) (poolName owner resource : String)
  | allocateByType (site : List Nat) (poolType : PoolType) (owner resource : String)
  | allocateSpecific (poolName : String) (ip : IPSlice) (owner resource : String)
  | release (poolName : String) (ip : IPSlice)

inductive ManagerAnswer where
  | granted (addr : String)
  | released
  | failed (err : ManagerError)
  deriving DecidableEq

namespace Manager

def call (o : IterOrder String) (m : Manager) : ManagerCall → ManagerAnswer × Manager
  | .allocate site poolName owner resource =>
    match m.allocate o site poolName owner resource with
    | .ok (ip, m') => (.granted (ipText ip), m')
    | .error err => (.failed err, m)
  | .allocateByType site poolType owner resource =>
    match m.allocateByType o site poolType owner resource with
    | .ok (ip, _, m') => (.granted (ipText ip), m')
    | .error err => (.failed err, m)
  | .allocateSpecific poolName ip owner resource =>
    match m.allocateSpecific poolName ip owner resource with
    | .ok m' => (.granted (ipText (normalizeIP ip)), m')
    | .error err => (.failed err, m)
  | .release poolName ip =>
    match m.release poolName ip with
    | .ok m' => (.released, m')
    | .error err => (.failed err, m)

structure Sound (m : Manager) : Prop where
  consistent : ∀ name p, m.pools.lookup name = some p → p.Consistent
  noOverlap : ∀ name p, m.pools.lookup name = some p → p.layout.NoOverlap
  disjoint : ∀ name name' p p', m.pools.lookup name = some p → m.pools.lookup name' = some p' →
    name ≠ name' → Disjoint p.layout.addresses p'.layout.addresses

def Held (m : Manager) (name addr : String) : Prop :=
  ∃ p, m.pools.lookup name = some p ∧ addr ∈ p.allocations

def Grants (m m' : Manager) (name addr : String) : Prop :=
  ∃ p p' ip owner, m.pools.lookup name = some p ∧ p.Grants p' ip owner ∧ ipText ip = addr ∧
    m' = m.put name p'

def Frees (m m' : Manager) (name addr : String) : Prop :=
  ∃ p p' ip, m.pools.lookup name = some p ∧ p.Frees p' ip ∧ ipText ip = addr ∧ m' = m.put name p'

section Spec

variable {o : IterOrder String} {site : List Nat} {m m' : Manager} {p p' : Pool}
  {name name' addr addr' owner resource : String} {ip : Option Net.IP} {x : IPSlice}

theorem getPool_bind {α : Type} (f : Pool → Except ManagerError α) : m.getPool name >>= f =
    match m.pools.lookup name with | some p => f p | none => .error (.poolNotFound name) := by
  unfold getPool
  cases m.pools.lookup name <;> rfl

theorem allocate_spec (hs : m.Sound) (h : m.allocate o site name owner resource = .ok (ip, m')) :
    m.Grants m' name (ipText ip) := by
  rw [allocate, getPool_bind] at h
  split at h
  · next p hp =>
    split at h
    · cases h
    · next y p' halloc =>
      cases h
      exact ⟨p, p', ip, owner, hp, Pool.allocate_spec (hs.noOverlap name p hp) halloc, rfl, rfl⟩
  · cases h

theorem tryPool_spec {poolType : PoolType} {poolName : String} (hs : m.Sound)
    (h : m.tryPool o site poolType owner resource name = some (ip, poolName, m')) :
    m.Grants m' name (ipText ip) := by
  unfold tryPool at h
  split at h
  · cases h
  · next p hp =>
    split at h
    · cases h
    · split at h
      · cases h
      · next y p' halloc =>
        cases h
        exact ⟨p, p', ip, owner, hp, Pool.allocate_spec (hs.noOverlap name p hp) halloc, rfl, rfl⟩

theorem allocateByType_spec {poolType : PoolType} {poolName : String} (hs : m.Sound)
    (h : m.allocateByType o site poolType owner resource = .ok (ip, poolName, m')) :
    ∃ name, m.Grants m' name (ipText ip) := by
  unfold allocateByType at h
  split at h
  · next r hfind =>
    cases h
    obtain ⟨name, -, htry⟩ := List.exists_of_findSome?_eq_some hfind
    exact ⟨name, tryPool_spec hs htry⟩
  · cases h

theorem allocateSpecific_spec (h : m.allocateSpecific name x owner resource = .ok m') :
    m.Grants m' name (ipText (normalizeIP x)) := by
  rw [allocateSpecific, getPool_bind] at h
  split at h
  · next p hp =>
    split at h
    · cases h
    · next p' halloc =>
      cases h
      exact ⟨p, p', _, owner, hp, Pool.allocateSpecific_spec halloc, rfl, rfl⟩
  · cases h

theorem held_of_already_allocated {err : ManagerError} (hs : m.Sound)
    (h : m.allocateSpecific name x owner resource = .error err)
    (halready : err.isAlreadyAllocatedError = true) : m.Held name (ipText (normalizeIP x)) := by
  rw [allocateSpecific, getPool_bind] at h
  split at h
  · next p hp =>
    split at h
    · next halloc =>
      cases h
      unfold ManagerError.isAlreadyAllocatedError at halready
      split at halready
      · next heq =>
        cases heq
        exact ⟨p, hp, (hs.consistent name p hp _).mp (Pool.slot_of_already_allocated halloc)⟩
      · cases halready
    · cases h
  · cases h
    cases halready

theorem release_spec (hs : m.Sound) (h : m.release name x = .ok m') :
    m.Frees m' name (ipText (normalizeIP x)) := by
  rw [release, getPool_bind] at h
  split at h
  · next p hp =>
    split at h
    · cases h
    · next p' hrel =>
      cases h
      exact ⟨p, p', _, hp, Pool.release_spec (hs.consistent name p hp) hrel, rfl, rfl⟩
  · cases h

theorem lookup_put (m : Manager) (name name' : String) (p : Pool) :
    (m.put name p).pools.lookup name' = if name = name' then some p else m.pools.lookup name' :=
  lookup_insert_eq m.pools name name' p

theorem Sound.put (hs : m.Sound) (hc : p.Consistent) (hno : p.layout.NoOverlap)
    (hdis : ∀ name' p', m.pools.lookup name' = some p' → name' ≠ name →
      Disjoint p.layout.addresses p'.layout.addresses) : (m.put name p).Sound := by
  refine ⟨forall_lookup_insert hc hs.consistent, forall_lookup_insert hno hs.noOverlap, ?_⟩
  exact pairwise_lookup_insert (fun hr hne => (hr hne.symm).symm) (fun hne => absurd rfl hne)
    (fun n q hold hn _ => (hdis n q hold hn).symm) hs.disjoint

theorem Sound.replace (hs : m.Sound) (hp : m.pools.lookup name = some p)
    (hlayout : p'.layout = p.layout) (hc : p'.Consistent) : (m.put name p').Sound := by
  refine hs.put hc (hlayout ▸ hs.noOverlap name p hp) fun n q hq hne => ?_
  rw [hlayout]
  exact hs.disjoint name n p q hp hq hne.symm

theorem Sound.erase (hs : m.Sound) (name : String) : (m.unregisterPool name).Sound where
  consistent := fun n q hq => hs.consistent n q (lookup_erase_eq_some hq).2
  noOverlap := fun n q hq => hs.noOverlap n q (lookup_erase_eq_some hq).2
  disjoint := fun n n' q q' hq hq' => hs.disjoint n n' q q' (lookup_erase_eq_some hq).2
    (lookup_erase_eq_some hq').2

theorem Grants.sound (h : m.Grants m' name addr) (hs : m.Sound) : m'.Sound := by
  obtain ⟨p, p', ip, owner, hp, hg, -, rfl⟩ := h
  exact hs.replace hp hg.layout (hg.consistent (hs.consistent name p hp))

theorem Grants.mem_allocations {owner : String} (h : p.Grants p' ip owner) :
    addr ∈ p'.allocations ↔ addr = ipText ip ∨ addr ∈ p.allocations := by
  obtain ⟨info, -, halloc⟩ := h.allocations
  rw [halloc, mem_insert]

theorem Grants.held (h : m.Grants m' name addr) : m'.Held name addr := by
  obtain ⟨p, p', ip, owner, hp, hg, rfl, rfl⟩ := h
  exact ⟨p', by rw [lookup_put, if_pos rfl], (Grants.mem_allocations hg).mpr (.inl rfl)⟩

theorem Grants.keeps (h : m.Grants m' name addr) (hheld : m.Held name' addr') :
    m'.Held name' addr' := by
  obtain ⟨p, p', ip, owner, hp, hg, rfl, rfl⟩ := h
  obtain ⟨q, hq, hmem⟩ := hheld
  by_cases hname : name = name'
  · subst hname
    obtain rfl : p = q := Option.some.inj (hp.symm.trans hq)
    exact ⟨p', by rw [lookup_put, if_pos rfl], (Grants.mem_allocations hg).mpr (.inr hmem)⟩
  · exact ⟨q, by rw [lookup_put, if_neg hname, hq], hmem⟩

theorem Grants.fresh (h : m.Grants m' name addr) (hs : m.Sound) (hheld : m.Held name' addr') :
    addr ≠ addr' := by
  obtain ⟨p, p', ip, owner, hp, hg, rfl, -⟩ := h
  obtain ⟨q, hq, hmem⟩ := hheld
  rintro rfl
  have htaken := (hs.consistent name' q hq ip).mpr hmem
  by_cases hname : name = name'
  · subst hname
    obtain rfl : p = q := Option.some.inj (hp.symm.trans hq)
    simp [hg.free] at htaken
  · have hin : ipText ip ∈ p.layout.addresses := Pool.slot_isSome_iff.mp (by rw [hg.free]; rfl)
    have hin' : ipText ip ∈ q.layout.addresses := Pool.slot_isSome_iff.mp (by rw [htaken]; rfl)
    exact Finset.disjoint_left.mp (hs.disjoint name name' p q hp hq hname) hin hin'

theorem Frees.sound (h : m.Frees m' name addr) (hs : m.Sound) : m'.Sound := by
  obtain ⟨p, p', ip, hp, hf, -, rfl⟩ := h
  exact hs.replace hp hf.layout hf.consistent

theorem Frees.keeps (h : m.Frees m' name addr) (hheld : m.Held name' addr')
    (hne : ¬ (name' = name ∧ addr' = addr)) : m'.Held name' addr' := by
  obtain ⟨p, p', ip, hp, hf, rfl, rfl⟩ := h
  obtain ⟨q, hq, hmem⟩ := hheld
  by_cases hname : name = name'
  · subst hname
    obtain rfl : p = q := Option.some.inj (hp.symm.trans hq)
    refine ⟨p', by rw [lookup_put, if_pos rfl], ?_⟩
    rw [hf.allocations, mem_erase]
    exact ⟨fun he => hne ⟨rfl, he⟩, hmem⟩
  · exact ⟨q, by rw [lookup_put, if_neg hname, hq], hmem⟩

/-- A call grants an address of one pool, frees the one it names, or changes nothing. -/
theorem call_cases (o : IterOrder String) (hs : m.Sound) (q : ManagerCall) :
    (∃ name addr, (m.call o q).1 = .granted addr ∧ m.Grants (m.call o q).2 name addr) ∨
    (∃ name x, q = .release name x ∧ (m.call o q).1 = .released ∧
      m.Frees (m.call o q).2 name (ipText (normalizeIP x))) ∨
    ∃ err, m.call o q = (.failed err, m) := by
  cases q with
  | allocate site poolName owner resource =>
    cases h : m.allocate o site poolName owner resource with
    | error err => exact .inr (.inr ⟨err, by simp only [call, h]⟩)
    | ok r =>
      obtain ⟨ip, m'⟩ := r
      simp only [call, h]
      exact .inl ⟨poolName, _, rfl, allocate_spec hs h⟩
  | allocateByType site poolType owner resource =>
    cases h : m.allocateByType o site poolType owner resource with
    | error err => exact .inr (.inr ⟨err, by simp only [call, h]⟩)
    | ok r =>
      obtain ⟨ip, poolName, m'⟩ := r
      obtain ⟨name, hg⟩ := allocateByType_spec hs h
      simp only [call, h]
      exact .inl ⟨name, _, rfl, hg⟩
  | allocateSpecific poolName ip owner resource =>
    cases h : m.allocateSpecific poolName ip owner resource with
    | error err => exact .inr (.inr ⟨err, by simp only [call, h]⟩)
    | ok m' =>
      simp only [call, h]
      exact .inl ⟨poolName, _, rfl, allocateSpecific_spec h⟩
  | release poolName ip =>
    cases h : m.release poolName ip with
    | error err => exact .inr (.inr ⟨err, by simp only [call, h]⟩)
    | ok m' =>
      have hcall : m.call o (.release poolName ip) = (.released, m') := by simp only [call, h]
      rw [hcall]
      exact .inr (.inl ⟨poolName, ip, rfl, rfl, release_spec hs h⟩)

end Spec

end Manager

open Manager

inductive OperatorEvent where
  | applyPool (name : String) (spec : IPPoolSpec)
  | deletePool (name : String)
  | applyAllocation (name : String) (spec : IPAllocationSpec) (finalizers : List String)
  | deleteAllocation (name : String)
  | reconcilePool (site : List Nat) (name : String)
  | reconcileAllocation (name : String)
  | call (q : ManagerCall)

namespace OperatorWorld

variable (o : IterOrder String)

def event (w : OperatorWorld) : OperatorEvent → OperatorWorld
  | .applyPool name spec => w.applyPool name spec
  | .deletePool name => w.deletePool name
  | .applyAllocation name spec finalizers => w.applyAllocation name spec finalizers
  | .deleteAllocation name => w.deleteAllocation name
  | .reconcilePool site name => w.reconcilePool o site name
  | .reconcileAllocation name => w.reconcileAllocation name
  | .call q => { w with manager := (w.manager.call o q).2 }

def after (w : OperatorWorld) (events : List OperatorEvent) : OperatorWorld :=
  events.foldl (event o) w

def BoundTo (w : OperatorWorld) (n pool addr : String) : Prop :=
  ∃ a ∈ w.allocations.lookup n, a.state = .bound ∧ a.spec.pool = pool ∧ a.spec.address = some addr

/-- No address is bound twice, and none that is bound is granted. -/
structure Exclusive (w : OperatorWorld) : Prop where
  unique : ∀ n n' pool addr, w.BoundTo n pool addr → w.BoundTo n' pool addr → n = n'
  granted : ∀ n pool addr, w.BoundTo n pool addr → ∀ q, (w.manager.call o q).1 ≠ .granted addr

def Sole (w : OperatorWorld) (name : String) (spec : IPAllocationSpec) : Prop :=
  ∀ n ∈ w.allocations.keys, ∀ a ∈ w.allocations.lookup n, n ≠ name →
    a.spec.pool = spec.pool → a.spec.address = spec.address → spec.address = none

def NoneBound (w : OperatorWorld) (pool : String) : Prop :=
  ∀ n ∈ w.allocations.keys, ∀ a ∈ w.allocations.lookup n, a.state = .bound → a.spec.pool ≠ pool

/-- The pool counts no address twice and shares none with the other pools. -/
def Fits (m : Manager) (name : String) (p : Pool) : Prop :=
  p.layout.NoOverlap ∧ ∀ name' ∈ m.pools.keys, ∀ p' ∈ m.pools.lookup name', name' ≠ name →
    Disjoint p.layout.addresses p'.layout.addresses

def OwnFinalizers (finalizers : List String) : Prop := ∀ f ∈ finalizers, f = ipAllocationFinalizer

/-- A pool is registered, rebuilt or removed when none of its addresses is bound. -/
def PoolAllowed (w : OperatorWorld) (name : String) : Prop :=
  match w.pools.lookup name with
  | none => w.NoneBound name
  | some pool => ∀ p ∈ (Pool.newPool (pool.spec.config name)).toOption,
      w.NoneBound name ∧ Fits w.manager name p

/-- Objects name different addresses, a bound one keeps its pool and address, and no
other finalizer holds one back; a client does not release what is bound. -/
def Allowed (w : OperatorWorld) : OperatorEvent → Prop
  | .applyAllocation name spec finalizers => w.Sole name spec ∧
      OwnFinalizers finalizers ∧
      ∀ a ∈ w.allocations.lookup name, a.state = .bound →
        spec.pool = a.spec.pool ∧ spec.address = a.spec.address
  | .reconcilePool _ name => w.PoolAllowed name
  | .call (.release pool ip) => ∀ n ∈ w.allocations.keys, ¬ w.BoundTo n pool (ipText (normalizeIP ip))
  | _ => True

def AllowedRun : OperatorWorld → List OperatorEvent → Prop
  | _, [] => True
  | w, ev :: events => w.Allowed ev ∧ AllowedRun (w.event o ev) events

section Decidable

variable (w : OperatorWorld) (n name pool addr : String)

instance (finalizers : List String) : Decidable (OwnFinalizers finalizers) :=
  inferInstanceAs (Decidable (∀ f ∈ finalizers, _))

instance : Decidable (w.BoundTo n pool addr) := inferInstanceAs (Decidable (∃ a ∈ _, _))

instance (spec : IPAllocationSpec) : Decidable (w.Sole name spec) :=
  inferInstanceAs (Decidable (∀ n ∈ w.allocations.keys, ∀ a ∈ w.allocations.lookup n, _))

instance : Decidable (w.NoneBound pool) :=
  inferInstanceAs (Decidable (∀ n ∈ w.allocations.keys, ∀ a ∈ w.allocations.lookup n, _))

instance (m : Manager) (p : Pool) : Decidable (Fits m name p) :=
  inferInstanceAs (Decidable (_ ∧ ∀ n ∈ m.pools.keys, ∀ p ∈ m.pools.lookup n, _))

instance : Decidable (w.PoolAllowed name) :=
  match h : w.pools.lookup name with
  | none => decidable_of_iff (w.NoneBound name) (by simp only [PoolAllowed, h])
  | some pool => decidable_of_iff (∀ p ∈ (Pool.newPool (pool.spec.config name)).toOption,
      w.NoneBound name ∧ Fits w.manager name p) (by simp only [PoolAllowed, h])

instance : (ev : OperatorEvent) → Decidable (w.Allowed ev)
  | .applyAllocation name spec finalizers => inferInstanceAs (Decidable (w.Sole name spec ∧
      OwnFinalizers finalizers ∧ ∀ a ∈ w.allocations.lookup name, _))
  | .reconcilePool _ name => inferInstanceAs (Decidable (w.PoolAllowed name))
  | .call (.release _ _) => inferInstanceAs (Decidable (∀ n ∈ w.allocations.keys, _))
  | .applyPool _ _ | .deletePool _ | .deleteAllocation _ | .reconcileAllocation _
  | .call (.allocate _ _ _ _) | .call (.allocateByType _ _ _ _)
  | .call (.allocateSpecific _ _ _ _) => .isTrue trivial

instance decidableAllowedRun (o : IterOrder String) :
    (w : OperatorWorld) → (events : List OperatorEvent) → Decidable (w.AllowedRun o events)
  | _, [] => .isTrue trivial
  | w, ev :: events =>
    have := decidableAllowedRun o (w.event o ev) events
    inferInstanceAs (Decidable (_ ∧ _))

end Decidable

structure Fresh (w : OperatorWorld) : Prop where
  manager : w.manager = ⟨∅⟩
  sole : ∀ n ∈ w.allocations.keys, ∀ a ∈ w.allocations.lookup n, w.Sole n a.spec
  unbound : ∀ n ∈ w.allocations.keys, ∀ a ∈ w.allocations.lookup n, a.state ≠ .bound
  finalizers : ∀ n ∈ w.allocations.keys, ∀ a ∈ w.allocations.lookup n, OwnFinalizers a.finalizers

structure Inv (w : OperatorWorld) : Prop where
  sound : w.manager.Sound
  unique : ∀ n n' a a' addr, w.allocations.lookup n = some a → w.allocations.lookup n' = some a' →
    a.spec.pool = a'.spec.pool → a.spec.address = some addr → a'.spec.address = some addr → n = n'
  finalizers : ∀ n a, w.allocations.lookup n = some a → OwnFinalizers a.finalizers
  held : ∀ n pool addr, w.BoundTo n pool addr → w.manager.Held pool addr

variable {o} {w : OperatorWorld} {name : String} {a : IPAllocation}

variable {spec : IPAllocationSpec} {n addr pool : String} {m : Manager}

theorem mem_keys_of_lookup (h : w.allocations.lookup n = some a) :
    n ∈ w.allocations.keys := Finmap.mem_keys.mpr (mem_of_lookup_eq_some h)

theorem Sole.eq (h : w.Sole name spec) (ha : w.allocations.lookup n = some a)
    (hpool : a.spec.pool = spec.pool) (haddr : a.spec.address = some addr)
    (haddr' : spec.address = some addr) : n = name := by
  by_contra hne
  have hnone := h n (mem_keys_of_lookup ha) a ha hne hpool (haddr.trans haddr'.symm)
  simp [haddr'] at hnone

theorem Fresh.inv (h : w.Fresh) : w.Inv := by
  refine ⟨?_, ?_, ?_, ?_⟩
  · rw [h.manager]
    exact ⟨fun _ _ hp => (nomatch hp), fun _ _ hp => (nomatch hp), fun _ _ _ _ hp => (nomatch hp)⟩
  · intro n n' a a' addr ha ha' hpool haddr haddr'
    exact (h.sole n' (mem_keys_of_lookup ha') a' ha').eq ha hpool haddr haddr'
  · exact fun n a ha => h.finalizers n (mem_keys_of_lookup ha) a ha
  · rintro n pool addr ⟨a, ha, hbound, -⟩
    exact absurd hbound (h.unbound n (mem_keys_of_lookup ha) a ha)

theorem Inv.exclusive (h : w.Inv) (o : IterOrder String) : w.Exclusive o := by
  refine ⟨?_, ?_⟩
  · rintro n n' pool addr ⟨a, ha, -, rfl, haddr⟩ ⟨a', ha', -, hpool, haddr'⟩
    exact h.unique n n' a a' addr ha ha' hpool.symm haddr haddr'
  · intro n pool addr hbound q hgranted
    have hheld := h.held n pool addr hbound
    rcases call_cases o h.sound q with ⟨name, addr', hanswer, hg⟩ | ⟨name, x, -, hanswer, -⟩ |
      ⟨err, hfail⟩
    · rw [hanswer, ManagerAnswer.granted.injEq] at hgranted
      exact hg.fresh h.sound hheld hgranted
    · simp [hanswer] at hgranted
    · simp [hfail] at hgranted

theorem Inv.manager (h : w.Inv) (hs : m.Sound)
    (hkeeps : ∀ n pool addr, w.BoundTo n pool addr → m.Held pool addr) :
    Inv { w with manager := m } :=
  ⟨hs, h.unique, h.finalizers, hkeeps⟩

theorem boundTo_insert
    (h : BoundTo { w with allocations := w.allocations.insert name a } n pool addr) :
    (n = name ∧ a.state = .bound ∧ a.spec.pool = pool ∧ a.spec.address = some addr) ∨
      n ≠ name ∧ w.BoundTo n pool addr := by
  obtain ⟨b, hb, hrest⟩ := h
  rcases lookup_insert_eq_some hb with ⟨rfl, rfl⟩ | ⟨hne, hold⟩
  · exact .inl ⟨rfl, hrest⟩
  · exact .inr ⟨hne, b, hold, hrest⟩

theorem Inv.insert (h : w.Inv) (hsole : w.Sole name a.spec) (hfin : OwnFinalizers a.finalizers)
    (hheld : a.state = .bound → ∀ addr, a.spec.address = some addr → w.manager.Held a.spec.pool addr) :
    Inv { w with allocations := w.allocations.insert name a } := by
  refine ⟨h.sound, ?_, forall_lookup_insert hfin h.finalizers, ?_⟩
  · intro n n' b b' addr hb hb'
    refine pairwise_lookup_insert (r := fun n b n' b' => b.spec.pool = b'.spec.pool →
      b.spec.address = some addr → b'.spec.address = some addr → n = n')
      (fun hr hpool haddr haddr' => (hr hpool.symm haddr' haddr).symm) (fun _ _ _ => rfl)
      (fun n b hold _ => hsole.eq hold) (fun n n' b b' => h.unique n n' b b' addr) n n' b b' hb hb'
  · intro n pool addr hbound
    rcases boundTo_insert hbound with ⟨-, hstate, rfl, haddr⟩ | ⟨-, hold⟩
    · exact hheld hstate addr haddr
    · exact h.held n pool addr hold

theorem boundTo_erase (h : BoundTo { w with allocations := w.allocations.erase name } n pool addr) :
    n ≠ name ∧ w.BoundTo n pool addr := by
  obtain ⟨b, hb, hrest⟩ := h
  obtain ⟨hne, hold⟩ := lookup_erase_eq_some hb
  exact ⟨hne, b, hold, hrest⟩

theorem Inv.erase (h : w.Inv) (name : String) :
    Inv { w with allocations := w.allocations.erase name } where
  sound := h.sound
  unique := fun n n' b b' addr hb hb' => h.unique n n' b b' addr
    (lookup_erase_eq_some hb).2 (lookup_erase_eq_some hb').2
  finalizers := fun n b hb => h.finalizers n b (lookup_erase_eq_some hb).2
  held := fun n pool addr hbound => h.held n pool addr (boundTo_erase hbound).2

theorem Inv.putAllocation (h : w.Inv) (hsole : w.Sole name a.spec)
    (hfin : OwnFinalizers a.finalizers)
    (hheld : a.state = .bound → ∀ addr, a.spec.address = some addr →
      w.manager.Held a.spec.pool addr) : (w.putAllocation name a).Inv := by
  unfold OperatorWorld.putAllocation
  split
  · exact h.erase name
  · exact h.insert hsole hfin hheld

theorem Inv.sole (h : w.Inv) (ha : w.allocations.lookup name = some a) : w.Sole name a.spec := by
  intro n _ b hb hne hpool haddr
  cases haddr' : a.spec.address with
  | none => rfl
  | some addr => exact absurd (h.unique n name b a addr hb ha hpool (haddr.trans haddr') haddr') hne

theorem Inv.held_of_bound (h : w.Inv) (ha : w.allocations.lookup name = some a)
    (hbound : a.state = .bound) (haddr : a.spec.address = some addr) :
    w.manager.Held a.spec.pool addr :=
  h.held name a.spec.pool addr ⟨a, ha, hbound, rfl, haddr⟩

theorem Inv.applyAllocation {finalizers : List String} (h : w.Inv)
    (ha : w.Allowed (.applyAllocation name spec finalizers)) :
    (w.applyAllocation name spec finalizers).Inv := by
  obtain ⟨hsole, hfin, hkeeps⟩ := ha
  unfold OperatorWorld.applyAllocation
  split
  · exact h.putAllocation hsole hfin fun hbound => (nomatch hbound)
  · next a hlookup =>
    refine h.putAllocation hsole ?_ fun hbound addr haddr => ?_
    · dsimp only
      split
      · exact fun f hf => hfin f (List.mem_filter.mp hf).1
      · exact hfin
    · obtain ⟨hpool, hsame⟩ := hkeeps a hlookup hbound
      have hheld := h.held_of_bound hlookup hbound (hsame.symm.trans haddr)
      rwa [← hpool] at hheld

theorem Inv.deleteAllocation (h : w.Inv) (name : String) : (w.deleteAllocation name).Inv := by
  unfold OperatorWorld.deleteAllocation
  split
  · exact h
  · next a hlookup =>
    have hsole := h.sole hlookup
    exact h.putAllocation hsole (h.finalizers name a hlookup)
      fun hbound addr haddr => h.held_of_bound (a := a) hlookup hbound haddr

theorem releaseOf_keeps (h : w.Inv) (ha : w.allocations.lookup name = some a) :
    (releaseOf w.manager a.spec).Sound ∧ ∀ n pool addr, n ≠ name → w.BoundTo n pool addr →
      (releaseOf w.manager a.spec).Held pool addr := by
  have hold : w.manager.Sound ∧ ∀ n pool addr, n ≠ name → w.BoundTo n pool addr →
      w.manager.Held pool addr := ⟨h.sound, fun n pool addr _ hb => h.held n pool addr hb⟩
  unfold releaseOf
  split
  · exact hold
  · next ip hparse =>
    split
    · exact hold
    · next m' hrel =>
      have hf := release_spec h.sound hrel
      refine ⟨hf.sound h.sound, fun n pool addr hne hbound => ?_⟩
      refine hf.keeps (h.held n pool addr hbound) ?_
      rintro ⟨rfl, rfl⟩
      obtain ⟨b, hb, -, hpool, haddr⟩ := hbound
      have htext : a.spec.address = some (ipText (normalizeIP (.ok ip))) := by
        rw [IPAllocationSpec.address, hparse, map_some]
        exact congrArg some (Net.string_normalize ip).symm
      exact hne (h.unique n name b a _ hb ha hpool haddr htext)

theorem bind_spec {m' : Manager} {state : IPAllocationState} {condition : Condition} (hs : m.Sound)
    (h : bind m spec = (m', state, condition)) :
    m'.Sound ∧ (∀ pool addr, m.Held pool addr → m'.Held pool addr) ∧
      (state = .bound → ∀ addr, spec.address = some addr → m'.Held spec.pool addr) := by
  unfold bind at h
  split at h
  · cases h
    exact ⟨hs, fun _ _ hh => hh, fun hb => (nomatch hb)⟩
  · next ip hparse =>
    have htext : ∀ addr, spec.address = some addr → ipText (normalizeIP (.ok ip)) = addr := by
      intro addr haddr
      rw [IPAllocationSpec.address, hparse, map_some, Option.some.injEq] at haddr
      exact (Net.string_normalize ip).trans haddr
    dsimp only at h
    split at h
    · next m₁ halloc =>
      cases h
      have hg := allocateSpecific_spec halloc
      exact ⟨hg.sound hs, fun _ _ hh => hg.keeps hh, fun _ addr haddr => htext addr haddr ▸ hg.held⟩
    · next err halloc =>
      split at h
      · next halready =>
        cases h
        have hheld := held_of_already_allocated hs halloc halready
        exact ⟨hs, fun _ _ hh => hh, fun _ addr haddr => htext addr haddr ▸ hheld⟩
      · cases h
        exact ⟨hs, fun _ _ hh => hh, fun hb => (nomatch hb)⟩

theorem Inv.reconcileAllocation (h : w.Inv) (name : String) : (w.reconcileAllocation name).Inv := by
  unfold OperatorWorld.reconcileAllocation
  split
  · exact h
  · next a hlookup =>
    split
    · next hdel =>
      split
      · -- nothing else holds the object back, so it goes with its address
        have hlast : a.finalizers.filter (· ≠ ipAllocationFinalizer) = [] := by
          refine List.filter_eq_nil_iff.mpr fun f hf => ?_
          have hsame := h.finalizers name a hlookup f hf
          simp [hsame]
        obtain ⟨hs, hkeeps⟩ := releaseOf_keeps h hlookup
        unfold OperatorWorld.putAllocation
        rw [if_pos ⟨hdel, hlast⟩]
        refine (h.erase name).manager hs fun n pool addr hbound => ?_
        obtain ⟨hne, hold⟩ := boundTo_erase hbound
        exact hkeeps n pool addr hne hold
      · exact h
    · rcases hbind : bind w.manager a.spec with ⟨m', state, condition⟩
      obtain ⟨hs, hkeeps, hheld⟩ := bind_spec h.sound hbind
      have hw : Inv { w with manager := m' } :=
        h.manager hs fun n pool addr hbound => hkeeps pool addr (h.held n pool addr hbound)
      have hsole := h.sole hlookup
      have hfin := h.finalizers name a hlookup
      refine hw.insert hsole ?_ hheld
      dsimp only
      split
      · exact hfin
      · exact List.forall_mem_append.mpr ⟨hfin, by simp⟩

theorem NoneBound.ne (h : w.NoneBound pool) {name : String} (hbound : w.BoundTo n name addr) :
    name ≠ pool := by
  obtain ⟨a, ha, hstate, rfl, -⟩ := hbound
  exact h n (mem_keys_of_lookup ha) a ha hstate

theorem Inv.reconcilePool {site : List Nat} (h : w.Inv) (ha : w.PoolAllowed name) :
    (w.reconcilePool o site name).Inv := by
  unfold OperatorWorld.reconcilePool
  unfold PoolAllowed at ha
  split
  · next hnone =>
    rw [hnone] at ha
    refine h.manager (h.sound.erase name) fun n pool addr hbound => ?_
    obtain ⟨p, hp, hmem⟩ := h.held n pool addr hbound
    refine ⟨p, ?_, hmem⟩
    change (w.manager.pools.erase name).lookup pool = some p
    rw [lookup_erase_eq, if_neg (NoneBound.ne ha hbound).symm, hp]
  · next obj hobj =>
    rw [hobj] at ha
    cases hnew : Pool.newPool (obj.spec.config name) with
    | error err =>
      simp only [updatePool, hnew]
      exact ⟨h.sound, h.unique, h.finalizers, h.held⟩
    | ok p =>
      obtain ⟨hnone, hno, hdis⟩ := ha p (by rw [hnew]; rfl)
      obtain ⟨-, hc⟩ := Pool.newPool_spec hnew
      have hs : (w.manager.put name p).Sound := h.sound.put hc hno fun n q hq hne =>
        hdis n (Finmap.mem_keys.mpr (mem_of_lookup_eq_some hq)) q hq hne
      have hw : Inv { w with manager := w.manager.put name p } := by
        refine h.manager hs fun n pool addr hbound => ?_
        obtain ⟨q, hq, hmem⟩ := h.held n pool addr hbound
        refine ⟨q, ?_, hmem⟩
        rw [lookup_put, if_neg (hnone.ne hbound).symm, hq]
      have hupdate : w.manager.updatePool (obj.spec.config name) = .ok (w.manager.put name p) := by
        simp only [updatePool, hnew]
        rfl
      simp only [hupdate]
      split
      · exact hw
      · exact ⟨hw.sound, hw.unique, hw.finalizers, hw.held⟩

theorem Inv.call (h : w.Inv) {q : ManagerCall} (ha : w.Allowed (.call q)) :
    Inv { w with manager := (w.manager.call o q).2 } := by
  rcases call_cases o h.sound q with ⟨name, addr, -, hg⟩ | ⟨name, x, rfl, -, hf⟩ | ⟨err, hfail⟩
  · exact h.manager (hg.sound h.sound) fun n pool addr' hb => hg.keeps (h.held n pool addr' hb)
  · refine h.manager (hf.sound h.sound) fun n pool addr' hb => hf.keeps (h.held n pool addr' hb) ?_
    rintro ⟨rfl, rfl⟩
    obtain ⟨a, hlookup, -⟩ := id hb
    exact ha n (mem_keys_of_lookup hlookup) hb
  · rwa [hfail]

theorem Inv.event (h : w.Inv) {ev : OperatorEvent} (ha : w.Allowed ev) : (w.event o ev).Inv := by
  cases ev with
  | applyPool name spec | deletePool name => exact ⟨h.sound, h.unique, h.finalizers, h.held⟩
  | applyAllocation name spec finalizers => exact h.applyAllocation ha
  | deleteAllocation name => exact h.deleteAllocation name
  | reconcilePool site name => exact h.reconcilePool ha
  | reconcileAllocation name => exact h.reconcileAllocation name
  | call q => exact h.call ha

theorem Inv.after (h : w.Inv) {events : List OperatorEvent} (ha : w.AllowedRun o events) :
    (w.after o events).Inv := by
  induction events generalizing w with
  | nil => exact h
  | cons ev events ih => exact ih (h.event ha.1) ha.2

theorem operator_exclusive (o : IterOrder String) (w : OperatorWorld)
    (events : List OperatorEvent) (h : w.Fresh) (ha : w.AllowedRun o events) :
    (w.after o events).Exclusive o :=
  (h.inv.after ha).exclusive o

section Example

def emptyWorld : OperatorWorld := ⟨⟨∅⟩, ∅, ∅⟩

theorem emptyWorld_fresh : emptyWorld.Fresh := by
  refine ⟨rfl, ?_, ?_, ?_⟩ <;> decide

def claimVip (name : String) : List OperatorEvent :=
  [.applyAllocation name ⟨"vips", "10.0.0.0", name, "default/" ++ name⟩ [], .reconcileAllocation name]

def bindWeb : List OperatorEvent :=
  [.applyPool "vips" ⟨.loadBalancerVIP, ["10.0.0.0/31"], [], true, "novaedge"⟩,
    .reconcilePool [] "vips"] ++ claimVip "web"

theorem operator_exclusive_example :
    (emptyWorld.after .sorted bindWeb).BoundTo "web" "vips" "10.0.0.0" ∧
    (emptyWorld.after .sorted bindWeb).Exclusive .sorted := by
  have hallowed : emptyWorld.AllowedRun .sorted bindWeb := by decide +kernel
  exact ⟨by decide +kernel, operator_exclusive .sorted emptyWorld bindWeb emptyWorld_fresh hallowed⟩

/-- A second object for the same address is bound too, and after another reconcile of the
pool the address is granted while it is bound. -/
theorem operator_binds_twice :
    ((emptyWorld.after .sorted (bindWeb ++ claimVip "api")).BoundTo "web" "vips" "10.0.0.0" ∧
      (emptyWorld.after .sorted (bindWeb ++ claimVip "api")).BoundTo "api" "vips" "10.0.0.0") ∧
    (emptyWorld.after .sorted (bindWeb ++ [.reconcilePool [] "vips"])).BoundTo "web" "vips" "10.0.0.0" ∧
    ((emptyWorld.after .sorted (bindWeb ++ [.reconcilePool [] "vips"])).manager.call .sorted
      (.allocate [] "vips" "api" "default/api")).1 = .granted "10.0.0.0" := by
  refine ⟨⟨?_, ?_⟩, ?_, ?_⟩ <;> decide +kernel

end Example

end OperatorWorld

end NovaNet
