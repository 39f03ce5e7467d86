import Mathlib.Algebra.Group.Nat.Defs
import NovaNet.FreeList

/-! The allocator of backend slots (internal/service/allocator.go) with its 32-bit numbers, and
its runs. No sum of an offset and a count exceeds the capacity, so the numbers can be read as
natural numbers and the allocator as first fit over a free list. -/

namespace NovaNet.Slots

open List Option

open FreeList (Block IsFree Spaced Ordered Shares)

structure SlotRange where
  offset : UInt32
  count : UInt32
  deriving DecidableEq

structure SlotAllocator where
  maxSlots : UInt32
  free : List SlotRange
  deriving DecidableEq

def newSlotAllocator (maxSlots : UInt32) : SlotAllocator := ⟨maxSlots, [⟨0, maxSlots⟩]⟩

def allocFrom : List SlotRange → UInt32 → Option (UInt32 × List SlotRange)
  | [], _ => none
  | r :: l, count =>
    if r.count ≥ count then
      some (r.offset, if r.count = count then l else ⟨r.offset + count, r.count - count⟩ :: l)
    else (allocFrom l count).map fun t => (t.1, r :: t.2)

def SlotAllocator.alloc (a : SlotAllocator) (count : UInt32) : Option (UInt32 × SlotAllocator) :=
  (allocFrom a.free count).map fun t => (t.1, { a with free := t.2 })

def mergeRange (merged : List SlotRange) (r : SlotRange) : List SlotRange :=
  match merged.getLast? with
  | some last =>
    if last.offset + last.count = r.offset
    then merged.dropLast ++ [⟨last.offset, last.count + r.count⟩] else merged ++ [r]
  | none => merged ++ [r]

def mergeRanges (l : List SlotRange) : List SlotRange := l.foldl mergeRange []

/-- The offsets that are sorted differ, so this order is the only one. -/
def sortRanges (l : List SlotRange) : List SlotRange :=
  l.insertionSort fun r s => r.offset ≤ s.offset

def SlotAllocator.freeBlock (a : SlotAllocator) (offset count : UInt32) : SlotAllocator :=
  { a with free := mergeRanges (sortRanges (a.free ++ [⟨offset, count⟩])) }

section Reading

def SlotRange.block (r : SlotRange) : Block := ⟨r.offset.toNat, r.count.toNat⟩

def SlotRange.Contains (r : SlotRange) (i : Nat) : Prop :=
  r.offset.toNat ≤ i ∧ i < r.offset.toNat + r.count.toNat

def SlotRange.Fits (r : SlotRange) : Prop := r.offset.toNat + r.count.toNat < 2 ^ 32

variable {l : List SlotRange} {r : SlotRange} {n : UInt32}

theorem allocFrom_blocks (hfits : ∀ r ∈ l, r.Fits) :
    (allocFrom l n).map (fun t => (t.1.toNat, t.2.map SlotRange.block)) =
      FreeList.alloc (l.map SlotRange.block) n.toNat := by
  induction l with
  | nil => rfl
  | cons r l ih =>
    have hr := hfits r mem_cons_self
    rw [SlotRange.Fits] at hr
    rw [allocFrom, map_cons]
    by_cases hle : r.count ≥ n
    · have hnat := UInt32.le_iff_toNat_le.mp hle
      rw [if_pos hle, FreeList.alloc_cons_of_le hnat, map_some]
      by_cases heq : r.count = n
      · have hcount : r.block.count = n.toNat := congrArg UInt32.toNat heq
        simp only [if_pos heq, if_pos hcount]
        rfl
      · have hcount : r.block.count ≠ n.toNat := fun h => heq (UInt32.toNat_inj.mp h)
        have hoff : (r.offset + n).toNat = r.offset.toNat + n.toNat := by
          rw [UInt32.toNat_add]
          omega
        rw [if_neg heq, if_neg hcount]
        simp only [map_cons, SlotRange.block, hoff, UInt32.toNat_sub_of_le _ _ hle]
    · have hnat : r.block.count < n.toNat := by
        rw [ge_iff_le, UInt32.le_iff_toNat_le] at hle
        exact Nat.lt_of_not_le hle
      rw [if_neg hle, FreeList.alloc_cons_of_lt hnat, ← ih fun s hs => hfits s
        (mem_cons_of_mem r hs), Option.map_map, Option.map_map]
      rfl

theorem mergeRange_concat (done : List SlotRange) (last r : SlotRange) :
    mergeRange (done ++ [last]) r = done ++
      if last.offset + last.count = r.offset then [⟨last.offset, last.count + r.count⟩]
      else [last, r] := by
  rw [mergeRange, List.getLast?_concat, dropLast_concat]
  simp only
  split
  · rfl
  · rw [append_assoc]
    rfl

theorem foldl_mergeRange (done : List SlotRange) (last : SlotRange) (l : List SlotRange)
    (hord : Ordered ((last :: l).map SlotRange.block)) (hfits : ∀ r ∈ last :: l, r.Fits) :
    (l.foldl mergeRange (done ++ [last])).map SlotRange.block =
      done.map SlotRange.block ++ FreeList.mergeFrom last.block (l.map SlotRange.block) := by
  induction l generalizing done last with
  | nil => rw [foldl_nil, map_append]; rfl
  | cons r l ih =>
    have hlast := hfits last mem_cons_self
    have hr := hfits r (mem_cons_of_mem _ mem_cons_self)
    rw [SlotRange.Fits] at hlast hr
    have hsum : (last.offset + last.count).toNat = last.offset.toNat + last.count.toNat := by
      rw [UInt32.toNat_add]
      omega
    rw [foldl_cons, mergeRange_concat, map_cons, FreeList.mergeFrom]
    by_cases heq : last.offset + last.count = r.offset
    · have hnat : last.block.offset + last.block.count = r.block.offset := by
        rw [SlotRange.block, SlotRange.block, ← hsum, heq]
      have hcount : (last.count + r.count).toNat = last.count.toNat + r.count.toNat := by
        rw [← UInt32.toNat_inj, hsum] at heq
        rw [UInt32.toNat_add]
        omega
      have hblock : SlotRange.block ⟨last.offset, last.count + r.count⟩ =
          ⟨last.block.offset, last.block.count + r.block.count⟩ := by
        simp only [SlotRange.block, hcount]
      rw [if_pos heq, if_pos hnat, ← hblock]
      obtain ⟨hfirst, htail⟩ := pairwise_cons.mp hord.ordered
      obtain ⟨hsecond, hrest⟩ := pairwise_cons.mp htail
      apply ih
      · rw [map_cons, hblock]
        refine ⟨?_, pairwise_cons.mpr ⟨?_, hrest⟩⟩
        · intro b hb
          rcases mem_cons.mp hb with rfl | hb
          · have hpos := hord.nonempty last.block mem_cons_self
            exact Nat.lt_of_lt_of_le hpos (Nat.le_add_right _ _)
          · exact hord.nonempty b (mem_cons_of_mem _ (mem_cons_of_mem _ hb))
        · intro b hb
          have hgap := hsecond b hb
          simp only
          omega
      · intro s hs
        rcases mem_cons.mp hs with rfl | hs
        · change last.offset.toNat + (last.count + r.count).toNat < 2 ^ 32
          rw [← UInt32.toNat_inj, hsum] at heq
          omega
        · exact hfits s (mem_cons_of_mem _ (mem_cons_of_mem _ hs))
    · have hnat : last.block.offset + last.block.count ≠ r.block.offset := by
        intro h
        rw [SlotRange.block, SlotRange.block, ← hsum] at h
        exact heq (UInt32.toNat_inj.mp h)
      have htail : Ordered ((r :: l).map SlotRange.block) :=
        ⟨fun b hb => hord.nonempty b (mem_cons_of_mem _ hb), (pairwise_cons.mp hord.ordered).2⟩
      have hlist : done ++ [last, r] = (done ++ [last]) ++ [r] := by simp
      rw [if_neg heq, if_neg hnat, hlist, ih (done ++ [last]) r htail fun s hs => hfits s
        (mem_cons_of_mem _ hs)]
      simp

theorem mergeRanges_blocks (hord : Ordered (l.map SlotRange.block)) (hfits : ∀ r ∈ l, r.Fits) :
    (mergeRanges l).map SlotRange.block = FreeList.merge (l.map SlotRange.block) := by
  cases l with
  | nil => rfl
  | cons r l => exact foldl_mergeRange [] r l hord hfits

theorem sortRanges_blocks (l : List SlotRange) : (sortRanges l).map SlotRange.block =
    (l.map SlotRange.block).insertionSort fun a b => a.offset ≤ b.offset :=
  map_insertionSort _ _ _ l fun _ _ _ _ => UInt32.le_iff_toNat_le

theorem freeBlock_blocks {a : SlotAllocator} (hspaced : Spaced (a.free.map SlotRange.block))
    (hfits : ∀ s ∈ a.free, s.Fits) (hr : r.Fits) (hpos : 0 < r.block.count)
    (hdisj : ∀ i, r.block.Contains i → ¬ IsFree (a.free.map SlotRange.block) i) :
    (a.freeBlock r.offset r.count).free.map SlotRange.block =
      FreeList.free (a.free.map SlotRange.block) r.block := by
  have hsorted : (sortRanges (a.free ++ [r])).map SlotRange.block =
      (a.free.map SlotRange.block ++ [r.block]).insertionSort fun a b => a.offset ≤ b.offset := by
    rw [sortRanges_blocks, map_append]
    rfl
  rw [FreeList.free, ← hsorted]
  change (mergeRanges (sortRanges (a.free ++ [r]))).map SlotRange.block = _
  apply mergeRanges_blocks
  · rw [hsorted]
    exact FreeList.ordered_insertionSort hspaced hpos hdisj
  · intro s hs
    rw [sortRanges, mem_insertionSort] at hs
    rcases mem_append.mp hs with hs | hs
    · exact hfits s hs
    · rwa [List.mem_singleton.mp hs]

end Reading

structure SlotRun where
  allocator : SlotAllocator
  outstanding : List SlotRange

def SlotRun.start (m : UInt32) : SlotRun := ⟨newSlotAllocator m, []⟩

inductive SlotStep : SlotRun → SlotRun → Prop where
  | alloc {s : SlotRun} {n o : UInt32} {a : SlotAllocator} (hn : 1 ≤ n)
      (h : s.allocator.alloc n = some (o, a)) : SlotStep s ⟨a, ⟨o, n⟩ :: s.outstanding⟩
  | full {s : SlotRun} {n : UInt32} (hn : 1 ≤ n) (h : s.allocator.alloc n = none) : SlotStep s s
  | free {s : SlotRun} {b : SlotRange} (hb : b ∈ s.outstanding) :
      SlotStep s ⟨s.allocator.freeBlock b.offset b.count, s.outstanding.erase b⟩

namespace SlotRun

def owner (s : SlotRun) (b : SlotRange) : Option Block :=
  if b ∈ s.outstanding then some b.block else none

structure Inv (m : UInt32) (s : SlotRun) : Prop where
  shares : Shares m.toNat (s.allocator.free.map SlotRange.block) s.owner
  nodup : s.outstanding.Nodup
  nonempty : ∀ b ∈ s.outstanding, 0 < b.block.count

variable {m : UInt32} {s s' : SlotRun} {b : SlotRange}

theorem owner_eq_some {x : Block} : s.owner b = some x ↔ b ∈ s.outstanding ∧ b.block = x := by
  rw [owner]
  split <;> simp [*]

theorem Inv.fits_free (h : s.Inv m) : ∀ r ∈ s.allocator.free, r.Fits := by
  intro r hr
  have hend := h.shares.end_le (List.mem_map_of_mem hr)
  exact Nat.lt_of_le_of_lt hend m.toNat_lt

theorem Inv.fits_outstanding (h : s.Inv m) (hb : b ∈ s.outstanding) : b.Fits := by
  have hpos := h.nonempty b hb
  have hlast := h.shares.lt_cap (owner_eq_some.mpr ⟨hb, rfl⟩)
    (i := b.block.offset + b.block.count - 1) ⟨by omega, by omega⟩
  have hm := m.toNat_lt
  change b.block.offset + b.block.count < 2 ^ 32
  omega

theorem Inv.start (hm : 1 ≤ m) : (start m).Inv m := by
  refine ⟨?_, nodup_nil, fun b hb => absurd hb not_mem_nil⟩
  have howner : (SlotRun.start m).owner = fun _ => none := rfl
  rw [howner]
  exact FreeList.shares_new (UInt32.le_iff_toNat_le.mp hm)

theorem Inv.alloc (h : s.Inv m) {n o : UInt32} {a : SlotAllocator} (hn : 1 ≤ n)
    (ha : s.allocator.alloc n = some (o, a)) : Inv m ⟨a, ⟨o, n⟩ :: s.outstanding⟩ := by
  obtain ⟨⟨o', l⟩, hl, heq⟩ := map_eq_some_iff.mp ha
  obtain ⟨rfl, rfl⟩ := Prod.mk.inj heq
  have hfirst : FreeList.alloc (s.allocator.free.map SlotRange.block) n.toNat =
      some (o'.toNat, l.map SlotRange.block) := by
    rw [← allocFrom_blocks h.fits_free, hl]
    rfl
  have hpos : 0 < n.toNat := UInt32.le_iff_toNat_le.mp hn
  have hnew : (⟨o', n⟩ : SlotRange) ∉ s.outstanding := by
    intro hmem
    have hfree : IsFree (s.allocator.free.map SlotRange.block) o'.toNat :=
      (FreeList.isFree_alloc hfirst).mpr (.inr ⟨Nat.le_refl _, Nat.lt_add_of_pos_right hpos⟩)
    exact h.shares.apart _ _ _ (owner_eq_some.mpr ⟨hmem, rfl⟩)
      ⟨Nat.le_refl _, Nat.lt_add_of_pos_right hpos⟩ hfree
  refine ⟨?_, nodup_cons.mpr ⟨hnew, h.nodup⟩, ?_⟩
  · have hnone : s.owner ⟨o', n⟩ = none := if_neg hnew
    have hshares := h.shares.alloc hnone hfirst
    have howner : (⟨{ s.allocator with free := l }, ⟨o', n⟩ :: s.outstanding⟩ : SlotRun).owner =
        Function.update s.owner ⟨o', n⟩ (some ⟨o'.toNat, n.toNat⟩) := by
      funext b
      by_cases hb : b = ⟨o', n⟩
      · subst hb
        simp [owner, SlotRange.block]
      · simp [owner, hb]
    rw [howner]
    exact hshares
  · intro b hb
    rcases mem_cons.mp hb with rfl | hb
    · exact hpos
    · exact h.nonempty b hb

theorem Inv.free (h : s.Inv m) (hb : b ∈ s.outstanding) :
    Inv m ⟨s.allocator.freeBlock b.offset b.count, s.outstanding.erase b⟩ := by
  have hown := owner_eq_some.mpr ⟨hb, rfl⟩
  have hpos := h.nonempty b hb
  refine ⟨?_, h.nodup.erase b, fun c hc => h.nonempty c (mem_of_mem_erase hc)⟩
  have hshares := h.shares.free hown hpos
  have howner : (⟨s.allocator.freeBlock b.offset b.count, s.outstanding.erase b⟩ : SlotRun).owner =
      Function.update s.owner b none := by
    funext c
    by_cases hc : c = b
    · subst hc
      simp [owner, h.nodup.mem_erase_iff]
    · simp [owner, h.nodup.mem_erase_iff, hc]
  rwa [howner, freeBlock_blocks h.shares.spaced h.fits_free (h.fits_outstanding hb) hpos
    (h.shares.apart b _ · hown)]

theorem Inv.step (h : s.Inv m) (hstep : SlotStep s s') : s'.Inv m := by
  cases hstep with
  | alloc hn ha => exact h.alloc hn ha
  | full => exact h
  | free hb => exact h.free hb

theorem Inv.run (hm : 1 ≤ m) (hrun : Relation.ReflTransGen SlotStep (SlotRun.start m) s) : s.Inv m := by
  induction hrun with
  | refl => exact Inv.start hm
  | tail _ hstep ih => exact ih.step hstep

end SlotRun

def SlotAllocator.IsFree (a : SlotAllocator) (i : Nat) : Prop := ∃ r ∈ a.free, r.Contains i

def SlotAllocator.FreeRun (a : SlotAllocator) (o : Nat) (n : UInt32) : Prop :=
  ∀ i, o ≤ i → i < o + n.toNat → a.IsFree i

structure SlotRun.Divided (m : UInt32) (s : SlotRun) : Prop where
  sorted : s.allocator.free.Pairwise fun r t => r.offset < t.offset
  nonempty : ∀ r ∈ s.allocator.free, 0 < r.count
  apart : s.allocator.free.Pairwise fun r t => r.offset.toNat + r.count.toNat < t.offset.toNat
  cover : ∀ i, i < m.toNat ↔ s.allocator.IsFree i ∨ ∃ b ∈ s.outstanding, b.Contains i
  taken : ∀ b ∈ s.outstanding, ∀ i, b.Contains i → ¬ s.allocator.IsFree i
  distinct : s.outstanding.Pairwise fun b c => ∀ i, b.Contains i → ¬ c.Contains i

structure SlotAllocator.FirstFit (a : SlotAllocator) (n : UInt32) : Prop where
  fails : a.alloc n = none ↔ ∀ o, ¬ a.FreeRun o n
  lowest : ∀ o a', a.alloc n = some (o, a') → a.FreeRun o.toNat n ∧ ∀ o', a.FreeRun o' n → o.toNat ≤ o'

namespace SlotRun

variable {m : UInt32} {s : SlotRun}

theorem isFree_iff {a : SlotAllocator} {i : Nat} :
    IsFree (a.free.map SlotRange.block) i ↔ a.IsFree i := by
  constructor
  · rintro ⟨_, hb, hi⟩
    obtain ⟨r, hr, rfl⟩ := List.mem_map.mp hb
    exact ⟨r, hr, hi⟩
  · rintro ⟨r, hr, hi⟩
    exact ⟨r.block, List.mem_map_of_mem hr, hi⟩

theorem Inv.divided (h : s.Inv m) : s.Divided m where
  sorted := by
    refine (pairwise_map.mp h.shares.spaced.gaps).imp fun hgap => ?_
    rw [UInt32.lt_iff_toNat_lt]
    exact Nat.lt_of_le_of_lt (Nat.le_add_right _ _) hgap
  nonempty r hr := by
    rw [UInt32.lt_iff_toNat_lt]
    exact h.shares.spaced.nonempty _ (List.mem_map_of_mem hr)
  apart := pairwise_map.mp h.shares.spaced.gaps
  cover i := by
    rw [h.shares.cover i, isFree_iff]
    refine or_congr_right ⟨?_, ?_⟩
    · rintro ⟨b, x, hx, hi⟩
      obtain ⟨hb, rfl⟩ := owner_eq_some.mp hx
      exact ⟨b, hb, hi⟩
    · rintro ⟨b, hb, hi⟩
      exact ⟨b, b.block, owner_eq_some.mpr ⟨hb, rfl⟩, hi⟩
  taken b hb i hi hfree :=
    h.shares.apart b _ i (owner_eq_some.mpr ⟨hb, rfl⟩) hi (isFree_iff.mpr hfree)
  distinct := by
    refine List.Pairwise.imp_of_mem ?_ h.nodup
    intro b c hb hc hne i hi hi'
    exact hne (h.shares.single b c _ _ i (owner_eq_some.mpr ⟨hb, rfl⟩)
      (owner_eq_some.mpr ⟨hc, rfl⟩) hi hi')

theorem Inv.firstFit (h : s.Inv m) {n : UInt32} (hn : 1 ≤ n) : s.allocator.FirstFit n := by
  have hpos : 0 < n.toNat := UInt32.le_iff_toNat_le.mp hn
  have hblocks := allocFrom_blocks (n := n) h.fits_free
  -- first fit finds a run that starts no later than any other
  have hfound : ∀ o, s.allocator.FreeRun o n → ∃ t, allocFrom s.allocator.free n = some t ∧
      t.1.toNat ≤ o := by
    intro o hrun
    obtain ⟨o', l, hl, hle⟩ := FreeList.exists_alloc_le h.shares.spaced hpos
      fun i hi => isFree_iff.mpr (hrun i hi.1 hi.2)
    rw [← hblocks, map_eq_some_iff] at hl
    obtain ⟨t, ht, heq⟩ := hl
    refine ⟨t, ht, ?_⟩
    rwa [← (Prod.mk.inj heq).1] at hle
  constructor
  · constructor
    · intro hnone o hrun
      obtain ⟨t, ht, -⟩ := hfound o hrun
      simp [SlotAllocator.alloc, ht] at hnone
    · intro hno
      cases ht : allocFrom s.allocator.free n with
      | none => rw [SlotAllocator.alloc, ht, map_none]
      | some t =>
        rw [ht, map_some] at hblocks
        refine absurd ?_ (hno t.1.toNat)
        exact fun i hlo hhi =>
          isFree_iff.mp ((FreeList.isFree_alloc hblocks.symm).mpr (.inr ⟨hlo, hhi⟩))
  · intro o a' ha
    obtain ⟨t, ht, heq⟩ := map_eq_some_iff.mp ha
    rw [ht, map_some] at hblocks
    rw [← (Prod.mk.inj heq).1]
    constructor
    · exact fun i hlo hhi =>
        isFree_iff.mp ((FreeList.isFree_alloc hblocks.symm).mpr (.inr ⟨hlo, hhi⟩))
    · intro o' hrun
      obtain ⟨t', ht', hle⟩ := hfound o' hrun
      rw [ht, Option.some.injEq] at ht'
      rwa [ht']

end SlotRun

/-- In every run, the slots stay divided, and each request is served first fit. -/
theorem slot_allocator_correct {m : UInt32} (hm : 1 ≤ m) {s : SlotRun}
    (hrun : Relation.ReflTransGen SlotStep (SlotRun.start m) s) :
    s.Divided m ∧ ∀ n, 1 ≤ n → s.allocator.FirstFit n := by
  have hinv := SlotRun.Inv.run hm hrun
  exact ⟨hinv.divided, fun n hn => hinv.firstFit hn⟩

/-- Two blocks are taken and the first is returned. -/
theorem slot_allocator_correct_example :
    SlotRun.Divided 10 ⟨⟨10, [⟨0, 3⟩, ⟨7, 3⟩]⟩, [⟨3, 4⟩]⟩ ∧
      ∀ n, 1 ≤ n → SlotAllocator.FirstFit ⟨10, [⟨0, 3⟩, ⟨7, 3⟩]⟩ n := by
  have hfirst : SlotStep (SlotRun.start 10) ⟨⟨10, [⟨3, 7⟩]⟩, [⟨0, 3⟩]⟩ :=
    .alloc (n := 3) (by decide) (by decide)
  have hsecond : SlotStep ⟨⟨10, [⟨3, 7⟩]⟩, [⟨0, 3⟩]⟩ ⟨⟨10, [⟨7, 3⟩]⟩, [⟨3, 4⟩, ⟨0, 3⟩]⟩ :=
    .alloc (n := 4) (by decide) (by decide)
  have hthird : SlotStep ⟨⟨10, [⟨7, 3⟩]⟩, [⟨3, 4⟩, ⟨0, 3⟩]⟩ ⟨⟨10, [⟨0, 3⟩, ⟨7, 3⟩]⟩, [⟨3, 4⟩]⟩ :=
    SlotStep.free (s := ⟨⟨10, [⟨7, 3⟩]⟩, [⟨3, 4⟩, ⟨0, 3⟩]⟩) (b := ⟨0, 3⟩) (by decide)
  exact slot_allocator_correct (by decide)
    (((Relation.ReflTransGen.single hfirst).tail hsecond).tail hthird)

/-- The free list does not depend on the order in which blocks were taken and returned, only on
the slots that are taken now. -/
theorem slots_forget_history {m : UInt32} (hm : 1 ≤ m) {s s' : SlotRun}
    (hrun : Relation.ReflTransGen SlotStep (SlotRun.start m) s)
    (hrun' : Relation.ReflTransGen SlotStep (SlotRun.start m) s')
    (hsame : ∀ i, (∃ b ∈ s.outstanding, b.Contains i) ↔ ∃ b ∈ s'.outstanding, b.Contains i) :
    s.allocator.free = s'.allocator.free := by
  have hfree : ∀ {s : SlotRun}, s.Inv m → ∀ i, IsFree (s.allocator.free.map SlotRange.block) i ↔
      i < m.toNat ∧ ¬ ∃ b ∈ s.outstanding, b.Contains i := by
    intro s h i
    rw [SlotRun.isFree_iff, h.divided.cover]
    constructor
    · exact fun hi => ⟨.inl hi, fun ⟨b, hb, hbi⟩ => h.divided.taken b hb i hbi hi⟩
    · exact fun hi => hi.1.resolve_right hi.2
  have hinv := SlotRun.Inv.run hm hrun
  have hinv' := SlotRun.Inv.run hm hrun'
  have hblock : Function.Injective SlotRange.block := by
    rintro ⟨o, c⟩ ⟨o', c'⟩ h
    simpa [SlotRange.block, UInt32.toNat_inj] using h
  apply map_injective_iff.mpr hblock
  apply hinv.shares.spaced.eq_of_isFree hinv'.shares.spaced
  intro i
  rw [hfree hinv, hfree hinv', hsame]

/-- A block is taken and returned. -/
theorem slots_forget_history_example :
    (SlotAllocator.freeBlock ⟨10, [⟨3, 7⟩]⟩ 0 3).free = (newSlotAllocator 10).free := by
  have hfirst : SlotStep (SlotRun.start 10) ⟨⟨10, [⟨3, 7⟩]⟩, [⟨0, 3⟩]⟩ :=
    .alloc (n := 3) (by decide) (by decide)
  exact slots_forget_history (by decide) ((Relation.ReflTransGen.single hfirst).tail
    (.free mem_cons_self)) .refl (by simp [SlotRun.start])

end NovaNet.Slots
