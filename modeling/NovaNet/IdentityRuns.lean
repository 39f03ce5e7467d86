import NovaNet.IdentitySpec

/-! Runs of calls to the identity allocator, with the calls for each identity counted since
it became live, and the identities as the dataplane sees them: their low 32 bits. -/

namespace NovaNet

open Function Option Allocator

inductive IdentityCall where
  | allocate (lbls : Labels)
  | remove (id : UInt64)

structure IdentityRun where
  alloc : Allocator
  allocations : UInt64 → Nat
  removals : UInt64 → Nat

namespace IdentityRun

def start : IdentityRun := ⟨.new, fun _ => 0, fun _ => 0⟩

def Live (s : IdentityRun) (id : UInt64) : Prop := s.removals id < s.allocations id

instance (s : IdentityRun) (id : UInt64) : Decidable (s.Live id) :=
  inferInstanceAs (Decidable (s.removals id < s.allocations id))

def call (hash : String → UInt64) (s : IdentityRun) : IdentityCall → Option IdentityRun
  | .allocate lbls =>
    match s.alloc.allocateIdentity hash lbls with
    | none => none
    | some (id, alloc) => some {
        alloc := alloc
        allocations := update s.allocations id (if s.Live id then s.allocations id + 1 else 1)
        removals := update s.removals id (if s.Live id then s.removals id else 0) }
  | .remove id => some { s with
      alloc := s.alloc.removeIdentity id
      removals := update s.removals id (if s.Live id then s.removals id + 1 else s.removals id) }

def after (hash : String → UInt64) : IdentityRun → List IdentityCall → Option IdentityRun
  | s, [] => some s
  | s, q :: calls => (s.call hash q).bind fun s' => after hash s' calls

def Fits (hash : String → UInt64) : IdentityRun → List IdentityCall → Prop
  | _, [] => True
  | s, q :: calls => s.alloc.idToLabels.keys.card < 2 ^ 64 - 1 ∧
      ∀ s', s.call hash q = some s' → Fits hash s' calls

structure Correct (hash : String → UInt64) (s : IdentityRun) : Prop where
  answer : ∀ lbls id alloc, s.alloc.allocateIdentity hash lbls = some (id, alloc) →
    alloc.labelsToID.lookup (canonicalLabels lbls) = some id
  inverse : ∀ c id, s.alloc.labelsToID.lookup c = some id ↔
    ∃ l, s.alloc.idToLabels.lookup id = some l ∧ canonicalLabels l = c
  distinct : ∀ c c' id, s.alloc.labelsToID.lookup c = some id →
    s.alloc.labelsToID.lookup c' = some id → c = c'
  live_iff : ∀ id, s.Live id ↔ id ∈ s.alloc.idToLabels
  refCount : ∀ id, s.Live id → s.alloc.refCount.lookup id = some (s.allocations id - s.removals id)
  kept : ∀ q s' c id, s.call hash q = some s' → s.alloc.labelsToID.lookup c = some id →
    (q = .remove id → s.allocations id ≠ s.removals id + 1) → s'.alloc.labelsToID.lookup c = some id
  removed : ∀ s' c id, s.call hash (.remove id) = some s' →
    s.alloc.labelsToID.lookup c = some id → s.allocations id = s.removals id + 1 →
      s'.alloc.labelsToID.lookup c = none

structure Counted (s : IdentityRun) : Prop where
  inv : s.alloc.Inv
  refs : ∀ id, s.alloc.refs id = s.allocations id - s.removals id

variable {hash : String → UInt64} {s s' : IdentityRun} {q : IdentityCall} {id : UInt64}

theorem exists_of_allocate {lbls : Labels} (h : s.call hash (.allocate lbls) = some s') :
    ∃ id, s.alloc.allocateIdentity hash lbls = some (id, s'.alloc) ∧
      s'.allocations = update s.allocations id (if s.Live id then s.allocations id + 1 else 1) ∧
      s'.removals = update s.removals id (if s.Live id then s.removals id else 0) := by
  cases ha : s.alloc.allocateIdentity hash lbls with
  | none =>
    simp only [call, ha] at h
    cases h
  | some r =>
    simp only [call, ha] at h
    cases h
    exact ⟨r.1, rfl, rfl, rfl⟩

theorem counted_start : start.Counted := ⟨inv_new, fun _ => rfl⟩

theorem Counted.live_iff (h : s.Counted) (id : UInt64) : s.Live id ↔ id ∈ s.alloc.idToLabels := by
  have hrefs := h.inv.referenced_iff id
  rw [h.refs, ne_eq, Finmap.lookup_eq_none, not_not] at hrefs
  rw [← hrefs, Live]
  omega

theorem Counted.call (h : s.Counted) (hcall : s.call hash q = some s') : s'.Counted := by
  cases q with
  | allocate lbls =>
    obtain ⟨id, ha, hallocs, hrems⟩ := exists_of_allocate hcall
    refine ⟨inv_allocateIdentity h.inv ha, fun id' => ?_⟩
    have hrefs := h.refs id'
    rw [refs_allocateIdentity h.inv ha, hallocs, hrems]
    by_cases he : id = id'
    · subst he
      rw [if_pos rfl, update_self, update_self]
      by_cases hlive : s.Live id
      · rw [if_pos hlive, if_pos hlive]
        unfold Live at hlive
        omega
      · rw [if_neg hlive, if_neg hlive]
        unfold Live at hlive
        omega
    · rw [if_neg he, update_of_ne (Ne.symm he), update_of_ne (Ne.symm he), hrefs, Nat.add_zero]
  | remove id =>
    obtain rfl := some.inj hcall
    refine ⟨inv_removeIdentity h.inv id, fun id' => ?_⟩
    have hrefs := h.refs id'
    change (s.alloc.removeIdentity id).refs id' = s.allocations id' - update s.removals id _ id'
    rw [refs_removeIdentity]
    by_cases he : id = id'
    · subst he
      rw [if_pos rfl, update_self]
      by_cases hlive : s.Live id
      · rw [if_pos hlive, hrefs]
        omega
      · rw [if_neg hlive]
        unfold Live at hlive
        omega
    · rw [if_neg he, update_of_ne (Ne.symm he), hrefs, Nat.sub_zero]

theorem Counted.correct (h : s.Counted) : s.Correct hash where
  answer := by
    intro lbls id alloc ha
    obtain ⟨l, hl, hcan⟩ := labels_allocateIdentity h.inv ha
    rw [← hcan]
    exact (inv_allocateIdentity h.inv ha).canonical_of_labels id l hl
  inverse := by
    intro c id
    constructor
    · exact h.inv.labels_of_canonical c id
    · rintro ⟨l, hl, rfl⟩
      exact h.inv.canonical_of_labels id l hl
  distinct := by
    intro c c' id hc hc'
    obtain ⟨l, hl, rfl⟩ := h.inv.labels_of_canonical c id hc
    obtain ⟨l', hl', rfl⟩ := h.inv.labels_of_canonical c' id hc'
    rw [hl, some.injEq] at hl'
    rw [hl']
  live_iff := h.live_iff
  refCount := by
    intro id hlive
    have hrefs := h.refs id
    unfold Live at hlive
    unfold Allocator.refs at hrefs
    cases hc : s.alloc.refCount.lookup id with
    | none =>
      rw [hc, getD_none] at hrefs
      omega
    | some count =>
      rw [hc, getD_some] at hrefs
      rw [hrefs]
  kept := by
    intro q s' c id hcall hc hlast
    cases q with
    | allocate lbls =>
      obtain ⟨id', ha, -⟩ := exists_of_allocate hcall
      exact labelsToID_allocateIdentity h.inv ha hc
    | remove id' =>
      obtain rfl := some.inj hcall
      refine (labelsToID_removeIdentity h.inv).mpr ⟨hc, ?_⟩
      rintro rfl
      obtain ⟨l, hl, -⟩ := h.inv.labels_of_canonical c id' hc
      have hlive := (h.live_iff id').mpr (Finmap.mem_of_lookup_eq_some hl)
      have hne := hlast rfl
      unfold Live at hlive
      rw [h.refs]
      omega
  removed := by
    intro s' c id hcall hc hlast
    obtain rfl := some.inj hcall
    cases hnew : (s.alloc.removeIdentity id).labelsToID.lookup c with
    | none => rfl
    | some id' =>
      obtain ⟨hold, htwo⟩ := (labelsToID_removeIdentity h.inv).mp hnew
      rw [hc, some.injEq] at hold
      have hrefs := htwo hold
      rw [h.refs] at hrefs
      omega

/-- The probing ends and the tables are correct after any calls. -/
theorem identity_allocator_correct (hash : String → UInt64) (calls : List IdentityCall)
    (hfits : start.Fits hash calls) :
    ∃ s, after hash start calls = some s ∧ s.Correct hash := by
  suffices hrun : ∀ s : IdentityRun, s.Counted → s.Fits hash calls →
      ∃ s', after hash s calls = some s' ∧ s'.Counted by
    obtain ⟨s, hafter, hcounted⟩ := hrun start counted_start hfits
    exact ⟨s, hafter, hcounted.correct⟩
  intro s hs hs'
  clear hfits
  induction calls generalizing s with
  | nil => exact ⟨s, rfl, hs⟩
  | cons q calls ih =>
    obtain ⟨hcard, hrest⟩ := hs'
    have hsome : ∃ t, s.call hash q = some t := by
      cases q with
      | allocate lbls =>
        have hends := allocateIdentity_isSome hash lbls (lt_of_lt_of_le hcard (Nat.sub_le _ _))
        obtain ⟨r, hr⟩ := isSome_iff_exists.mp hends
        exact ⟨_, by simp only [IdentityRun.call, hr]; rfl⟩
      | remove id => exact ⟨_, rfl⟩
    obtain ⟨t, ht⟩ := hsome
    obtain ⟨s', hafter, hcounted⟩ := ih t (hs.call ht) (hrest t ht)
    exact ⟨s', by rw [after, ht, bind_some, hafter], hcounted⟩

theorem card_call_le (h : s.Counted) (hcall : s.call hash q = some s') :
    s'.alloc.idToLabels.keys.card ≤ s.alloc.idToLabels.keys.card + 1 := by
  cases q with
  | allocate lbls =>
    obtain ⟨id, ha, -⟩ := exists_of_allocate hcall
    exact card_allocateIdentity_le h.inv ha
  | remove id =>
    obtain rfl := some.inj hcall
    exact Nat.le_succ_of_le (card_removeIdentity_le s.alloc id)

theorem Counted.fits (h : s.Counted) {calls : List IdentityCall}
    (hlen : s.alloc.idToLabels.keys.card + calls.length < 2 ^ 64) : s.Fits hash calls := by
  induction calls generalizing s with
  | nil => trivial
  | cons q calls ih =>
    rw [List.length_cons] at hlen
    refine ⟨by omega, fun s' hcall => ih (h.call hcall) ?_⟩
    have hcard := card_call_le h hcall
    omega

def appLabels (app : String) : Labels :=
  ((∅ : Labels).insert "app" app).insert namespaceLabel "default"

def collidingCalls : List IdentityCall :=
  [.allocate (appLabels "web"), .allocate (appLabels "api"), .remove 7]

theorem identity_allocator_correct_example :
    start.Fits (fun _ => 7) collidingCalls ∧
      ∃ s, after (fun _ => 7) start collidingCalls = some s ∧ s.Correct (fun _ => 7) := by
  have hfits : start.Fits (fun _ => 7) collidingCalls := counted_start.fits (by decide)
  exact ⟨hfits, identity_allocator_correct _ _ hfits⟩

section Truncation

/-- A label set that is allocated does not hash to zero in the low 32 bits, nor to those of
another label set that is live then. -/
def Spread (hash : String → UInt64) (s : IdentityRun) : IdentityCall → Prop
  | .allocate lbls => (hashLabels hash lbls).toUInt32 ≠ 0 ∧
      ∀ c ∈ s.alloc.labelsToID.keys, c ≠ canonicalLabels lbls →
        (hash c).toUInt32 ≠ (hashLabels hash lbls).toUInt32
  | .remove _ => True

def SpreadRun (hash : String → UInt64) : IdentityRun → List IdentityCall → Prop
  | _, [] => True
  | s, q :: calls => s.Spread hash q ∧ ∀ s' ∈ s.call hash q, SpreadRun hash s' calls

instance decidableSpread (hash : String → UInt64) (s : IdentityRun) : ∀ q, Decidable (s.Spread hash q)
  | .allocate _ => inferInstanceAs (Decidable (_ ∧ ∀ c ∈ s.alloc.labelsToID.keys, _))
  | .remove _ => inferInstanceAs (Decidable True)

instance decidableSpreadRun (hash : String → UInt64) : ∀ s calls, Decidable (SpreadRun hash s calls)
  | _, [] => inferInstanceAs (Decidable True)
  | s, q :: calls =>
    have := fun s' => decidableSpreadRun hash s' calls
    inferInstanceAs (Decidable (_ ∧ ∀ s' ∈ s.call hash q, _))

structure Drawn (hash : String → UInt64) (s : IdentityRun) : Prop where
  inv : s.alloc.Inv
  hashed : s.alloc.Hashed hash
  ne_zero : ∀ id l, s.alloc.idToLabels.lookup id = some l → (hashLabels hash l).toUInt32 ≠ 0
  apart : ∀ id l, s.alloc.idToLabels.lookup id = some l → ∀ id' l',
    s.alloc.idToLabels.lookup id' = some l' → canonicalLabels l ≠ canonicalLabels l' →
      (hashLabels hash l).toUInt32 ≠ (hashLabels hash l').toUInt32

theorem Drawn.call (h : s.Drawn hash) (hspread : s.Spread hash q)
    (hcall : s.call hash q = some s') : s'.Drawn hash := by
  cases q with
  | allocate lbls =>
    obtain ⟨id, ha, -⟩ := exists_of_allocate hcall
    have hnew : ∀ id l, s.alloc.idToLabels.lookup id = some l →
        canonicalLabels l ≠ canonicalLabels lbls →
        (hashLabels hash l).toUInt32 ≠ (hashLabels hash lbls).toUInt32 := by
      intro id l hl
      have hknown := h.inv.canonical_of_labels id l hl
      exact hspread.2 _ (Finmap.mem_keys.mpr (Finmap.mem_of_lookup_eq_some hknown))
    have hhash := allocateIdentity_hash h.inv h.hashed
      (fun id l hl hne heq => hnew id l hl hne (congrArg UInt64.toUInt32 heq)) ha
    refine ⟨inv_allocateIdentity h.inv ha, hhash.2, fun id l hl => ?_, fun id l hl id' l' hl' hne => ?_⟩
    · rcases lookup_allocateIdentity_cases h.inv ha hl with hold | ⟨-, rfl⟩
      · exact h.ne_zero id l hold
      · exact hspread.1
    · rcases lookup_allocateIdentity_cases h.inv ha hl with hold | ⟨-, rfl⟩ <;>
        rcases lookup_allocateIdentity_cases h.inv ha hl' with hold' | ⟨-, rfl⟩
      · exact h.apart id l hold id' l' hold' hne
      · exact hnew id l hold hne
      · exact (hnew id' l' hold' hne.symm).symm
      · exact absurd rfl hne
  | remove id =>
    obtain rfl := some.inj hcall
    exact ⟨inv_removeIdentity h.inv id, hashed_removeIdentity h.hashed id,
      fun id' l hl => h.ne_zero id' l (lookup_removeIdentity_of_mem hl),
      fun _ _ hl _ _ hl' => h.apart _ _ (lookup_removeIdentity_of_mem hl) _ _
        (lookup_removeIdentity_of_mem hl')⟩

theorem Drawn.after {calls : List IdentityCall} (h : s.Drawn hash) (hspread : s.SpreadRun hash calls)
    (hafter : after hash s calls = some s') : s'.Drawn hash := by
  induction calls generalizing s with
  | nil =>
    cases hafter
    exact h
  | cons q calls ih =>
    obtain ⟨t, ht, hrest⟩ := bind_eq_some_iff.mp hafter
    exact ih (h.call hspread.1 ht) (hspread.2 t ht) hrest

theorem Drawn.truncated_ne {id' : UInt64} (h : s.Drawn hash) (hid : id ∈ s.alloc.idToLabels)
    (hid' : id' ∈ s.alloc.idToLabels) (hne : id ≠ id') : id.toUInt32 ≠ id'.toUInt32 := by
  obtain ⟨l, hl⟩ := Finmap.mem_iff.mp hid
  obtain ⟨l', hl'⟩ := Finmap.mem_iff.mp hid'
  have hcan : canonicalLabels l ≠ canonicalLabels l' := by
    intro hcan
    have hback := h.inv.canonical_of_labels id l hl
    rw [hcan, h.inv.canonical_of_labels id' l' hl', some.injEq] at hback
    exact hne hback.symm
  have hapart := h.apart id l hl id' l' hl' hcan
  rwa [← h.hashed id l hl, ← h.hashed id' l' hl'] at hapart

theorem truncation_keeps_apart (hash : String → UInt64) (calls : List IdentityCall)
    (s : IdentityRun) (hspread : start.SpreadRun hash calls)
    (hafter : after hash start calls = some s) :
    (∀ id ∈ s.alloc.idToLabels, ∀ id' ∈ s.alloc.idToLabels, id ≠ id' → id.toUInt32 ≠ id'.toUInt32) ∧
    ∀ id ∈ s.alloc.idToLabels, id.toUInt32 ≠ 0 := by
  have hstart : start.Drawn hash := by
    refine ⟨inv_new, ?_, ?_, ?_⟩ <;> simp [start, new, Hashed]
  have hs := hstart.after hspread hafter
  refine ⟨fun id hid id' hid' hne => hs.truncated_ne hid hid' hne, fun id hid => ?_⟩
  obtain ⟨l, hl⟩ := Finmap.mem_iff.mp hid
  rw [hs.hashed id l hl]
  exact hs.ne_zero id l hl

/-- The two label sets hash to the same low bits, but the first is gone before the second
comes. -/
def takesTurns : List IdentityCall :=
  [.allocate (appLabels "web"), .allocate (appLabels "web-198958"), .remove 0x3430a634f5d9127b,
    .allocate (appLabels "web-255206")]

theorem truncation_keeps_apart_example :
    start.SpreadRun hashCanonical takesTurns ∧
    ∃ s, after hashCanonical start takesTurns = some s ∧
      (∀ id ∈ s.alloc.idToLabels, ∀ id' ∈ s.alloc.idToLabels, id ≠ id' → id.toUInt32 ≠ id'.toUInt32) ∧
      ∀ id ∈ s.alloc.idToLabels, id.toUInt32 ≠ 0 := by
  have hspread : start.SpreadRun hashCanonical takesTurns := by decide +kernel
  have hsome : (after hashCanonical start takesTurns).isSome := by decide +kernel
  obtain ⟨s, hs⟩ := isSome_iff_exists.mp hsome
  exact ⟨hspread, s, hs, truncation_keeps_apart _ _ s hspread hs⟩

theorem exists_of_any {r : Option IdentityRun} {p : IdentityRun → Prop} [DecidablePred p]
    (h : r.any (fun s => p s) = true) : ∃ s, r = some s ∧ p s := by
  cases r with
  | none => cases h
  | some s => exact ⟨s, rfl, of_decide_eq_true h⟩

/-- Two live identities that the dataplane cannot tell apart, and one that it takes for the
wildcard. -/
theorem truncation_collides :
    (∃ s, after hashCanonical start
        [.allocate (appLabels "web-198958"), .allocate (appLabels "web-255206")] = some s ∧
      (0x3430a634f5d9127b ∈ s.alloc.idToLabels ∧ 0x91ef57cdf5d9127b ∈ s.alloc.idToLabels) ∧
      (0x3430a634f5d9127b : UInt64).toUInt32 = (0x91ef57cdf5d9127b : UInt64).toUInt32) ∧
    ∃ s, after (fun _ => 0x100000000) start [.allocate (appLabels "web")] = some s ∧
      0x100000000 ∈ s.alloc.idToLabels ∧ (0x100000000 : UInt64).toUInt32 = 0 := by
  exact ⟨exists_of_any (by decide +kernel), exists_of_any (by decide +kernel)⟩

end Truncation

end IdentityRun

end NovaNet
