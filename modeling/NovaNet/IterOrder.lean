import Mathlib.Data.List.Sort
import Mathlib.Data.Finset.Basic

/-! Iteration over a hash map visits every key once in an order the language
leaves open, and two iterations need not agree. A call site names one iteration. -/

/-- A choice of iteration order for every call site and every key set. -/
structure IterOrder (α : Type*) where
  enum : List Nat → Finset α → List α
  nodup_enum : ∀ site s, (enum site s).Nodup
  mem_enum : ∀ site s a, a ∈ enum site s ↔ a ∈ s

namespace IterOrder

open List

variable {α : Type*}

attribute [simp] mem_enum

theorem enum_eq_nil_iff (o : IterOrder α) (site : List Nat) (s : Finset α) :
    o.enum site s = [] ↔ s = ∅ := by
  rw [eq_nil_iff_forall_not_mem, Finset.eq_empty_iff_forall_notMem]
  simp

theorem enum_singleton (o : IterOrder α) (site : List Nat) (a : α) : o.enum site {a} = [a] := by
  have hp : (o.enum site {a}).Perm [a] :=
    (perm_ext_iff_of_nodup (o.nodup_enum site {a}) (nodup_singleton a)).mpr (by simp)
  exact perm_singleton.mp hp

noncomputable def arbitrary : IterOrder α where
  enum _ s := s.toList
  nodup_enum _ s := s.nodup_toList
  mem_enum _ _ _ := Finset.mem_toList

section Sorted

variable {β : Type*} [LinearOrder β] (f : α → β) (hf : Function.Injective f)

theorem insertionSort_eq_of_perm {l l' : List α} (h : l.Perm l') (hf : Function.Injective f) :
    l.insertionSort (fun a b => f a ≤ f b) = l'.insertionSort (fun a b => f a ≤ f b) := by
  have htotal : Std.Total (fun a b => f a ≤ f b) := ⟨fun a b => le_total (f a) (f b)⟩
  have htrans : IsTrans α (fun a b => f a ≤ f b) := ⟨fun _ _ _ => le_trans⟩
  have hp := ((perm_insertionSort (fun a b => f a ≤ f b) l).trans
    (h.trans (perm_insertionSort (fun a b => f a ≤ f b) l').symm))
  exact hp.eq_of_pairwise (fun a b _ _ hab hba => hf (le_antisymm hab hba))
    (pairwise_insertionSort _ l) (pairwise_insertionSort _ l')

def sortedBy : IterOrder α where
  enum _ s := Quot.liftOn s.val (fun l => l.insertionSort fun a b => f a ≤ f b)
    fun _ _ h => insertionSort_eq_of_perm f h hf
  nodup_enum _ s := by
    obtain ⟨v, hv⟩ := s
    induction v using Quot.inductionOn with
    | h l => exact (perm_insertionSort _ l).nodup_iff.mpr hv
  mem_enum _ s a := by
    obtain ⟨v, hv⟩ := s
    induction v using Quot.inductionOn with
    | h l => exact (perm_insertionSort _ l).mem_iff

def sorted : IterOrder β := sortedBy id Function.injective_id

theorem insertionSort_enum (o : IterOrder β) (site site' : List Nat) (s : Finset β) :
    (o.enum site s).insertionSort (· ≤ ·) = sorted.enum site' s := by
  obtain ⟨v, hv⟩ := s
  induction v using Quot.inductionOn with
  | h l =>
    refine insertionSort_eq_of_perm id ?_ Function.injective_id
    exact (perm_ext_iff_of_nodup (o.nodup_enum site _) hv).mpr (o.mem_enum site _)

end Sorted

def visitLast [DecidableEq α] (o : IterOrder α) (site : List Nat) (a : α) : IterOrder α where
  enum t s := if t = site ∧ a ∈ s then (o.enum t s).erase a ++ [a] else o.enum t s
  nodup_enum t s := by
    have hnd := o.nodup_enum t s
    split
    · refine nodup_append.mpr ⟨hnd.erase a, nodup_singleton a, ?_⟩
      intro x hx y hy hxy
      rw [List.mem_singleton] at hy
      exact (hnd.mem_erase_iff.mp hx).1 (hxy.trans hy)
    · exact hnd
  mem_enum t s b := by
    split
    · rename_i h
      rw [mem_append, (o.nodup_enum t s).mem_erase_iff, mem_enum, List.mem_singleton]
      by_cases hb : b = a
      · simp [hb, h.2]
      · simp [hb]
    · exact o.mem_enum t s b

theorem visitLast_enum [DecidableEq α] (o : IterOrder α) (site : List Nat) {a : α} {s : Finset α}
    (ha : a ∈ s) : ((o.visitLast site a).enum site s) = (o.enum site s).erase a ++ [a] := by
  simp [visitLast, ha]

theorem exists_mem_flatten_mapIdx {β : Type*} {f : Nat → α → List β} {p : α → Prop}
    {q : β → Prop} (hf : ∀ i a, (∃ x ∈ f i a, q x) ↔ p a) (l : List α) :
    (∃ x ∈ (l.mapIdx f).flatten, q x) ↔ ∃ a ∈ l, p a := by
  simp only [mem_flatten]
  constructor
  · rintro ⟨x, ⟨_, hm, hx⟩, hq⟩
    obtain ⟨i, hi, rfl⟩ := mem_mapIdx.mp hm
    exact ⟨l[i], getElem_mem hi, (hf i l[i]).mp ⟨x, hx, hq⟩⟩
  · rintro ⟨a, ha, hp⟩
    obtain ⟨i, hi, rfl⟩ := mem_iff_getElem.mp ha
    obtain ⟨x, hx, hq⟩ := (hf i l[i]).mpr hp
    exact ⟨x, ⟨f i l[i], mem_mapIdx.mpr ⟨i, hi, rfl⟩, hx⟩, hq⟩

theorem mem_flatten_mapIdx {β : Type*} {f : Nat → α → List β} {p : α → Prop} {x : β}
    (hf : ∀ i a, x ∈ f i a ↔ p a) (l : List α) : x ∈ (l.mapIdx f).flatten ↔ ∃ a ∈ l, p a := by
  have hex := exists_mem_flatten_mapIdx (f := f) (p := p) (q := (· = x))
    (fun i a => by simpa using hf i a) l
  simpa using hex

end IterOrder
