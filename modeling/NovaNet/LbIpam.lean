import NovaNet.AddressPool

/-! The addresses of LoadBalancer services: named pools, each with a bitmap over its network
and a table from the address to the service that has it. -/

namespace NovaNet

open Net

section Bits

def trailingZeros64 (w : UInt64) : Nat := w.toBitVec.ctz.toNat

def lbFindFrom (size : Nat) : Nat → List UInt64 → Option Nat
  | _, [] => none
  | i, w :: words =>
    let inv := ~~~ w
    if inv = 0 then lbFindFrom size (i + 1) words
    else
      let idx := i * 64 + trailingZeros64 inv
      if size ≤ idx then none else some idx

def lbFindFree (b : Bitmap) : Option Nat := lbFindFrom b.size 0 b.words

theorem trailingZeros64_not {w : UInt64} (h : ~~~ w ≠ 0) :
    trailingZeros64 (~~~ w) < 64 ∧ testWord w (trailingZeros64 (~~~ w)) = false ∧
      ∀ bit < trailingZeros64 (~~~ w), testWord w bit = true := by
  have hne : (~~~ w).toBitVec ≠ 0#64 := fun hzero => h (UInt64.toBitVec_inj.mp hzero)
  have hset := BitVec.getLsbD_true_ctz_of_ne_zero hne
  have hlt : trailingZeros64 (~~~ w) < 64 := BitVec.lt_of_getLsbD hset
  refine ⟨hlt, ?_, fun bit hbit => ?_⟩
  · rw [UInt64.toBitVec_not, BitVec.getLsbD_not, Bool.and_eq_true, Bool.not_eq_true'] at hset
    rw [Bitmap.testWord_eq _ hlt, trailingZeros64, UInt64.toBitVec_not]
    exact hset.2
  · have hclear := BitVec.getLsbD_false_of_lt_ctz hbit
    have hbit64 : bit < 64 := by omega
    rw [UInt64.toBitVec_not, BitVec.getLsbD_not] at hclear
    rw [Bitmap.testWord_eq _ hbit64]
    simpa [hbit64] using hclear

theorem lbFindFree_spec (b : Bitmap) : FirstFree b.get 0 b.size (lbFindFree b) := by
  refine b.firstFree_of_search (f := lbFindFrom b.size) (fun _ => rfl)
    fun get i w words hget htail => ?_
  rw [lbFindFrom]
  by_cases hfull : ~~~ w = 0
  · rw [if_pos hfull]
    have hw : w = ~~~ 0 := by rw [← hfull, UInt64.not_not]
    have hset := Bitmap.get_of_bits (Nat.le_refl 64) hget fun bit hbit => hw ▸ Bitmap.testWord_full hbit
    exact htail.skip (fun j hlo hj => hset j hlo (by omega)) (by omega)
  · rw [if_neg hfull]
    obtain ⟨hlt, hclear, hset⟩ := trailingZeros64_not hfull
    have hbelow := Bitmap.get_of_bits hlt.le hget hset
    dsimp only
    by_cases hout : b.size ≤ i * 64 + trailingZeros64 (~~~ w)
    · rw [if_pos hout]
      exact fun j hlo hj => hbelow j hlo (by omega)
    · rw [if_neg hout]
      exact ⟨by omega, by omega, (hget _ hlt).trans hclear, hbelow⟩

inductive BitOp (n : Nat) where
  | set (idx : Fin n)
  | clear (idx : Fin n)

/-- The two bitmaps are set and cleared by the same code. -/
def Bitmap.apply {n : Nat} (b : Bitmap) : BitOp n → Bitmap
  | .set idx => b.set idx
  | .clear idx => b.clear idx

def BitOp.mark {n : Nat} (s : Finset Nat) : BitOp n → Finset Nat
  | .set idx => insert idx.val s
  | .clear idx => s.erase idx

theorem Bitmap.get_foldl_apply {n : Nat} {b : Bitmap} {s : Finset Nat} (hsize : b.size = n)
    (hget : ∀ i, b.get i = decide (i ∈ s)) (ops : List (BitOp n)) :
    (ops.foldl apply b).size = n ∧
      ∀ i, (ops.foldl apply b).get i = decide (i ∈ ops.foldl BitOp.mark s) := by
  induction ops generalizing b s with
  | nil => exact ⟨hsize, hget⟩
  | cons op ops ih =>
    cases op with
    | set idx =>
      refine ih (b := b.set idx) (s := insert idx.val s) hsize fun i => ?_
      rw [b.get_set (hsize ▸ idx.isLt), hget, Bool.or_comm, ← Bool.decide_or]
      simp only [Finset.mem_insert]
    | clear idx =>
      refine ih (b := b.clear idx) (s := s.erase idx) hsize fun i => ?_
      rw [b.get_clear (hsize ▸ idx.isLt), hget, Bool.and_comm, ← Bool.decide_and]
      simp only [Finset.mem_erase]

/-- The two searches agree on every bitmap that set and clear can make, whatever its size. -/
theorem bitmaps_find_same_bit (n : Nat) (ops : List (BitOp n)) :
    (ops.foldl Bitmap.apply (.new n)).findFree = lbFindFree (ops.foldl Bitmap.apply (.new n)) ∧
      FirstFree (· ∈ ops.foldl BitOp.mark ∅) 0 n (ops.foldl Bitmap.apply (.new n)).findFree := by
  obtain ⟨hsize, hget⟩ := Bitmap.get_foldl_apply (n := n) (b := .new n) (s := ∅) rfl
    (fun i => by simp [Bitmap.get_new]) ops
  have hfree := (ops.foldl Bitmap.apply (.new n)).findFree_spec
  refine ⟨hfree.unique (lbFindFree_spec _), ?_⟩
  rwa [hsize, funext hget] at hfree

end Bits

section Addresses

def poolSize (cidr : Net.IPNet) : Nat := if cidr.hostBits > 63 then 0 else 2 ^ cidr.hostBits

/-- The last 8 bytes are a number of 64 bits to which the offset is added. -/
def addToIP (base : Net.IP) (offset : UInt64) : Option Net.IP :=
  let ip := base.to16.toNat
  let val := (ip % 2 ^ 64 + offset.toNat) % 2 ^ 64
  let result := Net.IP.v6 (BitVec.ofNat 128 (ip / 2 ^ 64 * 2 ^ 64 + val))
  match base.to4 with
  | some _ => result.to4.map .v4
  | none => some result

def ipToOffset (base : Net.IP) : Option Net.IP → Int
  | none => -1
  | some ip =>
    let baseVal := base.to16.toNat % 2 ^ 64
    let ipVal := ip.to16.toNat % 2 ^ 64
    if ipVal < baseVal then -1 else int64 ((ipVal - baseVal : Nat) : Int)

variable {net : Net.IPNet} {i : Nat}

theorem low_add_lt (hnet : net.IsNetwork) (hbits : net.hostBits ≤ 64) (hi : i < net.size) :
    net.ip.to16.toNat % 2 ^ 64 + i < 2 ^ 64 := by
  have hsize : net.size ∣ 2 ^ 64 := Nat.pow_dvd_pow 2 hbits
  exact add_lt_of_dvd ((Nat.dvd_mod_iff hsize).mpr hnet.dvd_to16) hsize (Nat.mod_lt _ (by decide)) hi

theorem ipText_addToIP (hnet : net.IsNetwork) (hbits : net.hostBits ≤ 64) (hi : i < net.size) :
    ipText (addToIP net.ip (UInt64.ofNat i)) = (net.ip.add i).string := by
  have hlow := low_add_lt hnet hbits hi
  have hoff : (UInt64.ofNat i).toNat = i := UInt64.toNat_ofNat_of_lt' (by
    show i < 2 ^ 64
    omega)
  have hsum : net.ip.to16.toNat / 2 ^ 64 * 2 ^ 64 + (net.ip.to16.toNat % 2 ^ 64 + i) =
      (net.ip.add i).to16.toNat := by
    rw [hnet.toNat_to16_add hi]
    omega
  simp only [addToIP, hoff, Nat.mod_eq_of_lt hlow, hsum, BitVec.ofNat_toNat, BitVec.setWidth_eq]
  cases ha : net.ip.to4 with
  | none => exact string_eq_iff.mpr (normalize_to16 _)
  | some n =>
    obtain ⟨a, ha⟩ := Option.ne_none_iff_exists'.mp (hnet.to4_add_ne_none ha hi)
    have hto4 : (Net.IP.v6 (net.ip.add i).to16).to4 = some a := by
      rw [← to4_normalize, normalize_to16, to4_normalize, ha]
    change ipText ((Net.IP.v6 (net.ip.add i).to16).to4.map .v4) = _
    rw [hto4, ← string_normalize, normalize_of_to4 ha]
    rfl

theorem ipToOffset_of_text {ip : Option Net.IP} (hnet : net.IsNetwork) (hbits : net.hostBits < 63)
    (hi : i < net.size) (htext : (net.ip.add i).string = ipText ip) : ipToOffset net.ip ip = i := by
  cases ip with
  | none => exact absurd htext.symm (ipText_ne_string _)
  | some ip =>
    have hsame := normalize_eq_iff.mp (string_eq_iff.mp htext)
    rw [hnet.toNat_to16_add hi] at hsame
    have hlow := low_add_lt hnet (by omega) hi
    have hsmall : i < 2 ^ 63 := lt_of_lt_of_le hi (Nat.pow_le_pow_right (by decide) (by omega))
    have hmod : ip.to16.toNat % 2 ^ 64 = net.ip.to16.toNat % 2 ^ 64 + i := by omega
    have hdiff : net.ip.to16.toNat % 2 ^ 64 + i - net.ip.to16.toNat % 2 ^ 64 = i := by omega
    rw [ipToOffset]
    simp only [hmod, hdiff]
    rw [if_neg (by omega), int64_of_lt (abs_lt.mpr ⟨by omega, by omega⟩)]

end Addresses

inductive LbError where
  | noPoolSpace
  | poolNotFound (name : String)
  | poolExists (name : String)
  | invalidCIDR (cidr : String)
  | poolExhausted
  | makeslice
  deriving DecidableEq

structure LbPool where
  name : String
  cidr : Net.IPNet
  used : Finmap fun _ : String => String
  bm : Bitmap
  isNetwork : cidr.IsNetwork
  feasible : cidr.hostBits ≠ 63
  size_bm : bm.size = poolSize cidr

def updateFirst {α β : Type} (f : α → Option (β × α)) : List α → Option (β × List α)
  | [] => none
  | a :: l =>
    match f a with
    | some (b, a') => some (b, a' :: l)
    | none => (updateFirst f l).map fun r => (r.1, a :: r.2)

section UpdateFirst

variable {α β : Type} {f : α → Option (β × α)} {l l' : List α} {b : β}

theorem updateFirst_eq_some (h : updateFirst f l = some (b, l')) :
    ∃ l₁ a a' l₂, l = l₁ ++ a :: l₂ ∧ l' = l₁ ++ a' :: l₂ ∧ f a = some (b, a') := by
  induction l generalizing l' with
  | nil => cases h
  | cons a l ih =>
    rw [updateFirst] at h
    cases hf : f a with
    | some r =>
      obtain ⟨c, a'⟩ := r
      rw [hf] at h
      cases h
      exact ⟨[], a, a', l, rfl, rfl, hf⟩
    | none =>
      rw [hf] at h
      obtain ⟨⟨c, rest⟩, hrest, heq⟩ := Option.map_eq_some_iff.mp h
      obtain ⟨rfl, rfl⟩ : c = b ∧ a :: rest = l' := Prod.mk.inj heq
      obtain ⟨l₁, x, x', l₂, rfl, rfl, hx⟩ := ih hrest
      exact ⟨a :: l₁, x, x', l₂, rfl, rfl, hx⟩

theorem updateFirst_eq_none (h : updateFirst f l = none) : ∀ a ∈ l, f a = none := by
  induction l with
  | nil => simp
  | cons a l ih =>
    rw [updateFirst] at h
    cases hf : f a with
    | some r => simp [hf] at h
    | none =>
      rw [hf] at h
      intro x hx
      rcases List.mem_cons.mp hx with rfl | hx
      · exact hf
      · exact ih (Option.map_eq_none_iff.mp h) x hx

end UpdateFirst

namespace LbPool

/-- `none` when the pool is exhausted, which is its only error. -/
def allocateLocked (p : LbPool) (serviceKey : String) : Option (Option Net.IP × LbPool) :=
  match lbFindFree p.bm with
  | none => none
  | some idx =>
    let candidate := addToIP p.cidr.ip (UInt64.ofNat idx)
    some (candidate, { p with
      bm := p.bm.set idx
      used := p.used.insert (ipText candidate) serviceKey
      size_bm := p.size_bm })

def releaseLocked (p : LbPool) (ip : Option Net.IP) : Option (Unit × LbPool) :=
  if ipText ip ∈ p.used then
    let offset := ipToOffset p.cidr.ip ip
    if 0 ≤ offset ∧ offset < poolSize p.cidr then
      some ((), { p with
        used := p.used.erase (ipText ip)
        bm := p.bm.clear offset.toNat
        size_bm := p.size_bm })
    else some ((), { p with used := p.used.erase (ipText ip) })
  else none

end LbPool

structure LbAllocator where
  pools : List LbPool

namespace LbAllocator

def new : LbAllocator := ⟨[]⟩

def addPool (a : LbAllocator) (name cidr : String) : Except LbError LbAllocator :=
  if a.pools.any fun p => p.name = name then .error (.poolExists name)
  else
    match h : parseCIDR cidr with
    | none => .error (.invalidCIDR cidr)
    | some net =>
      if hsize : net.hostBits = 63 then .error .makeslice
      else .ok ⟨a.pools ++ [⟨name, net, ∅, .new (poolSize net), isNetwork_of_parseCIDR h, hsize, rfl⟩]⟩

def removePool (a : LbAllocator) (name : String) : LbAllocator :=
  ⟨a.pools.eraseP fun p => p.name = name⟩

/-- The name of the pool is what the source logs with the address. -/
def allocate (a : LbAllocator) (serviceKey : String) :
    Except LbError ((Option Net.IP × String) × LbAllocator) :=
  match updateFirst (fun p => (p.allocateLocked serviceKey).map fun r => ((r.1, p.name), r.2))
      a.pools with
  | some (r, pools) => .ok (r, ⟨pools⟩)
  | none => .error .noPoolSpace

def allocateFromPool (a : LbAllocator) (poolName serviceKey : String) :
    Except LbError ((Option Net.IP × String) × LbAllocator) :=
  -- the first pool of that name is the only one tried
  match updateFirst (fun p =>
      if p.name = poolName then
        match p.allocateLocked serviceKey with
        | some (ip, p') => some (some (ip, p.name), p')
        | none => some (none, p)
      else none) a.pools with
  | some (some r, pools) => .ok (r, ⟨pools⟩)
  | some (none, _) => .error .poolExhausted
  | none => .error (.poolNotFound poolName)

def release (a : LbAllocator) (ip : Option Net.IP) : Bool × LbAllocator :=
  match updateFirst (·.releaseLocked ip) a.pools with
  | some (_, pools) => (true, ⟨pools⟩)
  | none => (false, a)

def getServiceForIP (a : LbAllocator) (ip : Option Net.IP) : Option String :=
  a.pools.findSome? fun p => p.used.lookup (ipText ip)

end LbAllocator

end NovaNet
