import Mathlib.Data.List.MinMax
import Mathlib.Data.String.Basic
import NovaNet.IterOrder
import NovaNet.LastWrite

/-! The DNS cache of the policy engine. Each critical section of `Resolve` and `Refresh` is one
function on the entries; calls interleave between them. An address is known by its text. -/

namespace NovaNet

open Finmap Function LastWrite List

variable {α : Type*}

/-- Five minutes, in nanoseconds. -/
def defaultDNSTTL : Nat := 5 * 60 * 10 ^ 9

def defaultMaxEntries : Nat := 10000

structure DnsCacheEntry (α : Type*) where
  ips : List α
  expiry : Nat
  lastAccess : Nat
deriving DecidableEq

abbrev DnsEntries (α : Type*) := Finmap fun _ : String => DnsCacheEntry α

def newDNSCache (maxEntries : Int) : Nat :=
  if maxEntries ≤ 0 then defaultMaxEntries else maxEntries.toNat

def lastAccessOf (entries : DnsEntries α) (key : String) : Nat :=
  ((entries.lookup key).map DnsCacheEntry.lastAccess).getD 0

/-- The loop removes an entry each time, so as many rounds as there are entries suffice. The
scan keeps the first key with the smallest access time. -/
def evictLocked (o : IterOrder String) (maxEntries : Nat) : Nat → DnsEntries α → DnsEntries α
  | 0, entries => entries
  | rounds + 1, entries =>
    if maxEntries < entries.keys.card then
      match (o.enum [rounds] entries.keys).argmin (lastAccessOf entries) with
      | none => entries
      | some oldestKey => evictLocked o maxEntries rounds (entries.erase oldestKey)
    else entries

def storeEntry (entries : DnsEntries α) (fqdn : String) (resolved : List α) (now : Nat) :
    DnsEntries α :=
  entries.insert fqdn ⟨resolved, now + defaultDNSTTL, now⟩

/-- The first section of `Resolve`: the addresses of an unexpired entry, or else the stale ones.
The clock is read for the comparison and again for the access. -/
def readEntry (entries : DnsEntries α) (fqdn : String) (now access : Nat) :
    Except (List α) (List α) × DnsEntries α :=
  match entries.lookup fqdn with
  | none => (.error [], entries)
  | some entry =>
    if now < entry.expiry then
      (.ok entry.ips, entries.insert fqdn { entry with lastAccess := access })
    else (.error entry.ips, entries)

/-- The second section, which a failed lookup does not reach. -/
def finishResolve (o : IterOrder String) (maxEntries : Nat) (entries : DnsEntries α)
    (fqdn : String) (now : Nat) : Option (List α) → DnsEntries α
  | none => entries
  | some resolved =>
    let stored := storeEntry entries fqdn resolved now
    evictLocked o maxEntries stored.keys.card stored

def ipsEqual [DecidableEq α] (a b : List α) : Bool := a.length == b.length && b.all (· ∈ a)

/-- One round of `Refresh`, with the count of the entries that changed. -/
def refreshEntry [DecidableEq α] (entries : DnsEntries α) (changed : Nat) (fqdn : String)
    (now : Nat) : Option (List α) → DnsEntries α × Nat
  | none => (entries, changed)
  | some resolved =>
    let old := ((entries.lookup fqdn).map DnsCacheEntry.ips).getD []
    (storeEntry entries fqdn resolved now,
      if ipsEqual old resolved then changed else changed + 1)

/-- A call between two of its critical sections. -/
inductive DnsTask (α : Type*) where
  | lookup (fqdn : String) (stale : List α)
  | refresh (fqdns : List String) (changed : Nat)
deriving DecidableEq

structure DnsWorld (α : Type*) where
  entries : DnsEntries α
  calls : Nat → Option (DnsTask α)

namespace DnsWorld

def start : DnsWorld α := ⟨∅, fun _ => none⟩

def beginResolve (w : DnsWorld α) (i : Nat) (fqdn : String) (now access : Nat) : DnsWorld α :=
  match readEntry w.entries fqdn now access with
  | (.ok _, entries) => ⟨entries, w.calls⟩
  | (.error stale, entries) => ⟨entries, update w.calls i (some (.lookup fqdn stale))⟩

variable [DecidableEq α]

/-- One critical section of some call; `guard` restricts what `Refresh` stores. -/
inductive Step (maxEntries : Nat) (guard : DnsEntries α → String → Prop) :
    DnsWorld α → DnsWorld α → Prop
  | resolve (w : DnsWorld α) (i : Nat) (fqdn : String) (now access : Nat)
    (hidle : w.calls i = none) : Step maxEntries guard w (w.beginResolve i fqdn now access)
  | resolved (w : DnsWorld α) (i : Nat) {fqdn : String} {stale : List α}
    (o : IterOrder String) (now : Nat) (result : Option (List α))
    (hcall : w.calls i = some (.lookup fqdn stale)) :
    Step maxEntries guard w
      ⟨finishResolve o maxEntries w.entries fqdn now result, update w.calls i none⟩
  | refresh (w : DnsWorld α) (i : Nat) (o : IterOrder String) (hidle : w.calls i = none) :
    Step maxEntries guard w ⟨w.entries, update w.calls i (some (.refresh (o.enum [] w.entries.keys) 0))⟩
  | refreshed (w : DnsWorld α) (i : Nat) {fqdn : String} {fqdns : List String} {changed : Nat}
    (now : Nat) (result : Option (List α))
    (hcall : w.calls i = some (.refresh (fqdn :: fqdns) changed))
    (hguard : result ≠ none → guard w.entries fqdn) :
    Step maxEntries guard w ⟨(refreshEntry w.entries changed fqdn now result).1, update w.calls i
      (some (.refresh fqdns (refreshEntry w.entries changed fqdn now result).2))⟩

abbrev Run (maxEntries : Nat) (guard : DnsEntries α → String → Prop) :=
  Relation.ReflTransGen (Step maxEntries guard)

end DnsWorld

/-- The name is still cached, or there is a place for it. -/
def HasRoom (maxEntries : Nat) (entries : DnsEntries α) (fqdn : String) : Prop :=
  fqdn ∈ entries ∨ entries.keys.card < maxEntries

section Bound

variable {entries : DnsEntries α} {maxEntries : Nat} {fqdn : String}

theorem card_storeEntry_le_iff (h : entries.keys.card ≤ maxEntries) (resolved : List α)
    (now : Nat) :
    (storeEntry entries fqdn resolved now).keys.card ≤ maxEntries ↔
      HasRoom maxEntries entries fqdn := by
  rw [storeEntry, keys_insert, HasRoom, ← Finmap.mem_keys]
  by_cases hmem : fqdn ∈ entries.keys
  · simp [hmem, h]
  · rw [Finset.card_insert_of_notMem hmem, or_iff_right hmem]
    exact Nat.succ_le_iff

variable (entries fqdn) in
theorem keys_readEntry (now access : Nat) :
    (readEntry entries fqdn now access).2.keys = entries.keys := by
  unfold readEntry
  cases hlook : entries.lookup fqdn with
  | none => rfl
  | some entry =>
    have hmem : fqdn ∈ entries.keys := Finmap.mem_keys.mpr (mem_of_lookup_eq_some hlook)
    by_cases hnow : now < entry.expiry <;> simp [hnow, keys_insert, hmem]

theorem card_evictLocked (o : IterOrder String) {rounds : Nat}
    (h : entries.keys.card ≤ rounds + maxEntries) :
    (evictLocked o maxEntries rounds entries).keys.card ≤ maxEntries := by
  induction rounds generalizing entries with
  | zero => simpa [evictLocked] using h
  | succ rounds ih =>
    unfold evictLocked
    by_cases hcard : maxEntries < entries.keys.card
    · rw [if_pos hcard]
      cases hmin : (o.enum [rounds] entries.keys).argmin (lastAccessOf entries) with
      | none =>
        have hempty := (o.enum_eq_nil_iff _ _).mp (argmin_eq_none.mp hmin)
        simp [hempty] at hcard
      | some oldestKey =>
        have hmem := (o.mem_enum _ _ _).mp (argmin_mem hmin)
        have herase := Finset.card_erase_add_one hmem
        exact ih (by rw [keys_erase]; omega)
    · rw [if_neg hcard]
      omega

end Bound

namespace DnsWorld

variable {w w' : DnsWorld α} {maxEntries : Nat}

theorem keys_beginResolve (i : Nat) (fqdn : String) (now access : Nat) :
    (w.beginResolve i fqdn now access).entries.keys = w.entries.keys := by
  rw [← keys_readEntry w.entries fqdn now access, beginResolve]
  split <;> simp [*]

theorem Step.bounded [DecidableEq α] (h : w.entries.keys.card ≤ maxEntries)
    (hstep : Step maxEntries (HasRoom maxEntries) w w') : w'.entries.keys.card ≤ maxEntries := by
  cases hstep with
  | resolve i fqdn now access hidle => rwa [keys_beginResolve]
  | resolved i o now result hcall =>
    cases result with
    | none => exact h
    | some resolved => exact card_evictLocked o (Nat.le_add_right _ _)
  | refresh i o hidle => exact h
  | refreshed i now result hcall hguard =>
    cases result with
    | none => exact h
    | some resolved => exact (card_storeEntry_le_iff h resolved now).mpr (hguard nofun)

end DnsWorld

/-- While `Refresh` stores only names that are still cached or find a place, the cache keeps
its bound; a name without a place breaks it, since `Refresh` evicts nothing. -/
theorem dns_cache_bounded [DecidableEq α] {maxEntries : Int} {w : DnsWorld α}
    (hrun : DnsWorld.Run (newDNSCache maxEntries) (HasRoom (newDNSCache maxEntries)) .start w) :
    w.entries.keys.card ≤ newDNSCache maxEntries ∧
      ∀ changed fqdn now resolved,
        (refreshEntry w.entries changed fqdn now (some resolved)).1.keys.card ≤ newDNSCache maxEntries ↔
          HasRoom (newDNSCache maxEntries) w.entries fqdn := by
  have hbound : w.entries.keys.card ≤ newDNSCache maxEntries := by
    induction hrun with
    | refl => simp [DnsWorld.start]
    | tail _ hstep ih => exact hstep.bounded ih
  exact ⟨hbound, fun changed fqdn now resolved => card_storeEntry_le_iff hbound resolved now⟩

section Example

theorem dns_cache_bounded_example :
    ∃ w : DnsWorld Nat, DnsWorld.Run (newDNSCache 1) (HasRoom (newDNSCache 1)) .start w ∧
      w.entries.keys = {"a"} ∧ w.entries.keys.card ≤ newDNSCache 1 := by
  have hrun : DnsWorld.Run (newDNSCache 1) (HasRoom (newDNSCache 1)) .start _ :=
    (((Relation.ReflTransGen.single (.resolve (.start : DnsWorld Nat) 0 "a" 0 0 rfl)).tail
      (.resolved _ 0 .sorted 1 (some [1]) rfl)).tail (.refresh _ 1 .sorted rfl)).tail
        (.refreshed _ 1 2 (some [2]) rfl fun _ => .inl (by decide +kernel))
  exact ⟨_, hrun, by decide +kernel, (dns_cache_bounded hrun).1⟩

/-- With one place, a name that `Refresh` has in its list is evicted for another before
`Refresh` stores it again. -/
theorem dns_cache_exceeds_bound :
    ∃ w : DnsWorld Nat, DnsWorld.Run (newDNSCache 1) (fun _ _ => True) .start w ∧
      w.entries.keys.card = 2 := by
  have hrun : DnsWorld.Run 1 (fun _ _ => True) .start _ :=
    (((((Relation.ReflTransGen.single (.resolve (.start : DnsWorld Nat) 0 "a" 0 0 rfl)).tail
      (.resolved _ 0 .sorted 1 (some [1]) rfl)).tail (.refresh _ 1 .sorted rfl)).tail
        (.resolve _ 0 "b" 2 2 rfl)).tail (.resolved _ 0 .sorted 3 (some [2]) rfl)).tail
          (.refreshed _ 1 4 (some [1]) rfl fun _ => trivial)
  exact ⟨_, hrun, by decide +kernel⟩

end Example

section Refresh

def cachedIps (entries : DnsEntries α) (fqdn : String) : List α :=
  ((entries.lookup fqdn).map DnsCacheEntry.ips).getD []

def answered (resolver : String → Option (List α)) (entries : DnsEntries α) (fqdn : String) :
    List α := (resolver fqdn).getD (cachedIps entries fqdn)

/-- The cached names whose addresses and new addresses are in the relation. -/
def namesWhere (p : List α → List α → Prop) [DecidableRel p] (entries : DnsEntries α)
    (new : String → List α) : Finset String :=
  {f ∈ entries.keys | p (cachedIps entries f) (new f)}

variable [DecidableEq α]

/-- `Refresh` with no other call between its sections. Each name is visited once, so that the
resolver's answer and the time of the store are functions of the name. -/
def refresh (o : IterOrder String) (resolver : String → Option (List α)) (clock : String → Nat)
    (entries : DnsEntries α) : DnsEntries α × Nat :=
  (o.enum [] entries.keys).foldl
    (fun s fqdn => refreshEntry s.1 s.2 fqdn (clock fqdn) (resolver fqdn)) (entries, 0)

theorem ipsEqual_iff {a b : List α} :
    ipsEqual a b = true ↔ a.length = b.length ∧ b.toFinset ⊆ a.toFinset := by
  simp [ipsEqual, Finset.subset_iff]

theorem refreshEntry_spec (entries : DnsEntries α) (changed : Nat) (fqdn : String) (now : Nat)
    (result : Option (List α)) :
    (∀ f, cachedIps (refreshEntry entries changed fqdn now result).1 f =
      if f = fqdn then result.getD (cachedIps entries f) else cachedIps entries f) ∧
    (refreshEntry entries changed fqdn now result).2 = changed +
      if ipsEqual (cachedIps entries fqdn) (result.getD (cachedIps entries fqdn)) then 0
      else 1 := by
  cases result with
  | none => simp [refreshEntry, ipsEqual]
  | some resolved =>
    rw [Option.getD_some, refreshEntry, ← cachedIps]
    refine ⟨fun f => ?_, by cases ipsEqual (cachedIps entries fqdn) resolved <;> rfl⟩
    by_cases hf : f = fqdn
    · subst hf
      simp [storeEntry, cachedIps]
    · simp [storeEntry, cachedIps, hf, lookup_insert_of_ne]

variable (resolver : String → Option (List α)) (clock : String → Nat)

theorem foldl_refreshEntry (s : DnsEntries α × Nat) {fqdns : List String} (hnd : fqdns.Nodup)
    {s' : DnsEntries α × Nat} (hs' : s' = fqdns.foldl
      (fun s fqdn => refreshEntry s.1 s.2 fqdn (clock fqdn) (resolver fqdn)) s) :
    (∀ f, cachedIps s'.1 f = if f ∈ fqdns then answered resolver s.1 f else cachedIps s.1 f) ∧
    s'.2 = s.2 + fqdns.countP fun f => !ipsEqual (cachedIps s.1 f) (answered resolver s.1 f) := by
  induction fqdns generalizing s with
  | nil => simp [hs']
  | cons fqdn fqdns ih =>
    obtain ⟨hnew, hnd⟩ := nodup_cons.mp hnd
    obtain ⟨hips, hcount⟩ := refreshEntry_spec s.1 s.2 fqdn (clock fqdn) (resolver fqdn)
    obtain ⟨hafter, htotal⟩ := ih _ hnd hs'
    -- the rounds before a name's own leave its entry as it was
    have hkeep : ∀ f ∈ fqdns, cachedIps (refreshEntry s.1 s.2 fqdn (clock fqdn)
        (resolver fqdn)).1 f = cachedIps s.1 f := by
      intro f hf
      rw [hips, if_neg (ne_of_mem_of_not_mem hf hnew)]
    constructor
    · intro f
      rw [hafter]
      by_cases hf : f = fqdn
      · simp [hf, hnew, hips, answered]
      · simp [hf, hips, answered]
    · rw [htotal, hcount, countP_cons,
        countP_congr fun f hf => by rw [answered, hkeep f hf, ← answered], ← answered]
      cases ipsEqual (cachedIps s.1 fqdn) (answered resolver s.1 fqdn)
      · simp only [Bool.not_false, Bool.false_eq_true, if_true, if_false]
        omega
      · simp

theorem refresh_spec {o : IterOrder String} {entries after : DnsEntries α} {changed : Nat}
    (h : refresh o resolver clock entries = (after, changed)) :
    (∀ f ∈ entries.keys, cachedIps after f = answered resolver entries f) ∧
    changed = (namesWhere (fun old new => ¬ (old.length = new.length ∧
      new.toFinset ⊆ old.toFinset)) entries (answered resolver entries)).card := by
  have hnd := o.nodup_enum [] entries.keys
  obtain ⟨hafter, hcount⟩ := foldl_refreshEntry resolver clock (entries, 0) hnd h.symm
  constructor
  · intro f hf
    rw [hafter, if_pos ((o.mem_enum _ _ _).mpr hf)]
  · rw [show changed = _ from hcount, Nat.zero_add, countP_eq_length_filter, ← toFinset_card_of_nodup (hnd.filter _)]
    refine congrArg Finset.card (Finset.ext fun f => ?_)
    simp [namesWhere, ← ipsEqual_iff]

end Refresh

/-- Equal lengths make `ipsEqual` set equality unless one list has fewer addresses and repeats
some. `Refresh` then misses a name that lost an address, and it counts a name whose addresses
are repeated more or less often. -/
theorem refresh_count_eq_changed_iff [DecidableEq α] :
    (∀ a b : List α, a.length = b.length →
      ((ipsEqual a b = ipsEqual b a ∧ (ipsEqual a b = true ↔ a.toFinset = b.toFinset)) ↔
        (a.toFinset ⊆ b.toFinset ↔ b.toFinset ⊆ a.toFinset))) ∧
    ∀ (o : IterOrder String) (resolver : String → Option (List α)) (clock : String → Nat)
      (entries after : DnsEntries α) (changed : Nat),
      refresh o resolver clock entries = (after, changed) →
      (changed = (namesWhere (fun old new => old.toFinset ≠ new.toFinset) entries
          (cachedIps after)).card ↔
        (namesWhere (fun old new => old.toFinset = new.toFinset ∧ old.length ≠ new.length)
            entries (answered resolver entries)).card =
          (namesWhere (fun old new => old.length = new.length ∧ new.toFinset ⊂ old.toFinset)
            entries (answered resolver entries)).card) := by
  constructor
  · intro a b hlen
    rw [Bool.eq_iff_iff, ipsEqual_iff, ipsEqual_iff, Finset.Subset.antisymm_iff]
    simp only [hlen, true_and]
    tauto
  · intro o resolver clock entries after changed hrefresh
    obtain ⟨hafter, hcount⟩ := refresh_spec resolver clock hrefresh
    have hnames : namesWhere (fun old new => old.toFinset ≠ new.toFinset) entries
        (cachedIps after) = namesWhere (fun old new => old.toFinset ≠ new.toFinset) entries
          (answered resolver entries) :=
      Finset.filter_congr fun f hf => by rw [hafter f hf]
    rw [hnames, hcount, ← Finset.card_sdiff_eq_card_sdiff_iff]
    refine Eq.congr (congrArg Finset.card ?_) (congrArg Finset.card ?_)
    · ext f
      simp only [namesWhere, Finset.mem_sdiff, Finset.mem_filter]
      have hsub : (cachedIps entries f).toFinset = (answered resolver entries f).toFinset →
          (answered resolver entries f).toFinset ⊆ (cachedIps entries f).toFinset := Eq.ge
      tauto
    · ext f
      simp only [namesWhere, Finset.mem_sdiff, Finset.mem_filter, Finset.ssubset_iff_subset_ne]
      tauto

section Example

theorem refresh_count_eq_changed_example :
    ∃ after, refresh .sorted (fun _ => some [3, 1]) (fun _ => 5) (storeEntry ∅ "a" [1, 2] 0) =
        (after, 1) ∧
      1 = (namesWhere (fun old new => old.toFinset ≠ new.toFinset) (storeEntry ∅ "a" [1, 2] 0)
        (cachedIps after)).card ∧ ipsEqual [1, 2] [2, 1] = ipsEqual [2, 1] [1, 2] :=
  ⟨storeEntry ∅ "a" [3, 1] 5, by decide +kernel,
    (refresh_count_eq_changed_iff.2 .sorted (fun _ => some [3, 1]) (fun _ => 5) _ _ 1
      (by decide +kernel)).mpr (by decide +kernel),
    ((refresh_count_eq_changed_iff.1 [1, 2] [2, 1] rfl).mpr (by decide)).1⟩

/-- A name resolves to two addresses, and later twice to the first of them. -/
theorem refresh_misses_lost_address :
    ipsEqual [1, 2] [1, 1] = true ∧ ipsEqual [1, 1] [1, 2] = false ∧
      ∃ after, refresh .sorted (fun _ => some [1, 1]) (fun _ => 5)
          (storeEntry ∅ "a" [1, 2] 0) = (after, 0) ∧
        namesWhere (fun old new => old.toFinset ≠ new.toFinset) (storeEntry ∅ "a" [1, 2] 0)
          (cachedIps after) = {"a"} :=
  ⟨by decide, by decide, storeEntry ∅ "a" [1, 1] 5, by decide +kernel, by decide +kernel⟩

end Example

end NovaNet
