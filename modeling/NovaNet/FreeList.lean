import Mathlib.Data.List.Sort

/-! First-fit allocation from an ordered list of free blocks, in which a returned block
is merged with its neighbours, and the sharing of the slots between the list and the
owners of allocated blocks. -/

namespace FreeList

open List

structure Block where
  offset : Nat
  count : Nat
  deriving DecidableEq

def Block.Contains (b : Block) (i : Nat) : Prop := b.offset ≤ i ∧ i < b.offset + b.count

def IsFree (l : List Block) (i : Nat) : Prop := ∃ b ∈ l, b.Contains i

def alloc : List Block → Nat → Option (Nat × List Block)
  | [], _ => none
  | b :: l, n =>
    if n ≤ b.count then
      some (b.offset, if b.count = n then l else ⟨b.offset + n, b.count - n⟩ :: l)
    else (alloc l n).map fun r => (r.1, b :: r.2)

def mergeFrom (last : Block) : List Block → List Block
  | [] => [last]
  | b :: l =>
    if last.offset + last.count = b.offset then mergeFrom ⟨last.offset, last.count + b.count⟩ l
    else last :: mergeFrom b l

def merge : List Block → List Block
  | [] => []
  | b :: l => mergeFrom b l

def free (l : List Block) (b : Block) : List Block :=
  merge ((l ++ [b]).insertionSort fun a b => a.offset ≤ b.offset)

structure Spaced (l : List Block) : Prop where
  nonempty : ∀ b ∈ l, 0 < b.count
  gaps : l.Pairwise fun a b => a.offset + a.count < b.offset

variable {l l' : List Block} {b : Block} {n o i : Nat}

theorem not_isFree_nil : ¬ IsFree [] i := by
  rintro ⟨b, hb, -⟩
  cases hb

theorem isFree_cons : IsFree (b :: l) i ↔ b.Contains i ∨ IsFree l i := by
  simp [IsFree]

theorem isFree_append : IsFree (l ++ l') i ↔ IsFree l i ∨ IsFree l' i := by
  simp only [IsFree, mem_append, or_and_right, exists_or]

theorem isFree_of_perm (h : l.Perm l') : IsFree l i ↔ IsFree l' i := by
  simp only [IsFree, h.mem_iff]

theorem spaced_singleton (hb : 0 < b.count) : Spaced [b] :=
  ⟨by simpa using hb, pairwise_singleton _ _⟩

theorem Spaced.tail (h : Spaced (b :: l)) : Spaced l :=
  ⟨fun x hx => h.nonempty x (mem_cons_of_mem _ hx), (pairwise_cons.mp h.gaps).2⟩

theorem Spaced.head_lt (h : Spaced (b :: l)) (hi : IsFree l i) : b.offset + b.count < i := by
  obtain ⟨x, hx, hlo, -⟩ := hi
  have hgap := (pairwise_cons.mp h.gaps).1 x hx
  omega

theorem Spaced.cons (hl : Spaced l) (hb : 0 < b.count)
    (hgap : ∀ x ∈ l, b.offset + b.count < x.offset) : Spaced (b :: l) := by
  refine ⟨?_, pairwise_cons.mpr ⟨hgap, hl.gaps⟩⟩
  intro x hx
  rcases mem_cons.mp hx with rfl | hx
  · exact hb
  · exact hl.nonempty x hx

theorem Spaced.isFree_tail (h : Spaced (b :: l)) :
    IsFree l i ↔ IsFree (b :: l) i ∧ b.offset + b.count < i := by
  rw [isFree_cons]
  refine ⟨fun hi => ⟨.inr hi, h.head_lt hi⟩, ?_⟩
  rintro ⟨⟨-, hlt⟩ | hi, hafter⟩
  · omega
  · exact hi

theorem Spaced.head_le {b' : Block} (h : Spaced (b :: l)) (h' : Spaced (b' :: l'))
    (hsub : ∀ i, IsFree (b :: l) i → IsFree (b' :: l') i) :
    b'.offset ≤ b.offset ∧ (b'.offset = b.offset → b.count ≤ b'.count) := by
  have hpos := h.nonempty b mem_cons_self
  have hin : ∀ i, b.Contains i → b'.Contains i ∨ b'.offset + b'.count < i := fun i hi =>
    (isFree_cons.mp (hsub i (isFree_cons.mpr (.inl hi)))).imp_right h'.head_lt
  unfold Block.Contains at hin
  have hfirst := hin b.offset
  have hend := hin (b'.offset + b'.count)
  omega

/-- The slots that are free determine the blocks. -/
theorem Spaced.eq_of_isFree (h : Spaced l) (h' : Spaced l') (hsame : ∀ i, IsFree l i ↔ IsFree l' i) :
    l = l' := by
  have hhead : ∀ {b l}, Spaced (b :: l) → IsFree (b :: l) b.offset := fun {b _} h =>
    ⟨b, mem_cons_self, Nat.le_refl _, Nat.lt_add_of_pos_right (h.nonempty b mem_cons_self)⟩
  induction l generalizing l' with
  | nil =>
    cases l' with
    | nil => rfl
    | cons b' l' => exact absurd ((hsame _).mpr (hhead h')) not_isFree_nil
  | cons b l ih =>
    cases l' with
    | nil => exact absurd ((hsame _).mp (hhead h)) not_isFree_nil
    | cons b' l' =>
      have hle := h.head_le h' fun i => (hsame i).mp
      have hge := h'.head_le h fun i => (hsame i).mpr
      obtain rfl : b = b' := Block.mk.injEq .. ▸ ⟨by omega, by omega⟩
      rw [ih h.tail h'.tail fun i => by rw [h.isFree_tail, h'.isFree_tail, hsame]]

section Alloc

theorem alloc_cons_of_le (h : n ≤ b.count) : alloc (b :: l) n =
    some (b.offset, if b.count = n then l else ⟨b.offset + n, b.count - n⟩ :: l) := by
  simp [alloc, h]

theorem alloc_cons_of_lt (h : b.count < n) :
    alloc (b :: l) n = (alloc l n).map fun r => (r.1, b :: r.2) := by
  have hn : ¬ n ≤ b.count := by omega
  simp [alloc, hn]

theorem isFree_alloc (h : alloc l n = some (o, l')) :
    IsFree l i ↔ IsFree l' i ∨ Block.Contains ⟨o, n⟩ i := by
  induction l generalizing l' with
  | nil => simp [alloc] at h
  | cons b l ih =>
    by_cases hn : n ≤ b.count
    · rw [alloc_cons_of_le hn] at h
      cases h
      by_cases he : b.count = n
      · simp only [if_pos he, isFree_cons, Block.Contains]
        subst he
        tauto
      · simp only [if_neg he, isFree_cons, Block.Contains]
        have hsplit : b.offset ≤ i ∧ i < b.offset + b.count ↔
            (b.offset + n ≤ i ∧ i < b.offset + n + (b.count - n)) ∨
              (b.offset ≤ i ∧ i < b.offset + n) := by
          omega
        rw [hsplit]
        tauto
    · rw [alloc_cons_of_lt (by omega), Option.map_eq_some_iff] at h
      obtain ⟨⟨o', r⟩, hr, he⟩ := h
      obtain ⟨rfl, rfl⟩ := Prod.mk.inj he
      rw [isFree_cons, isFree_cons, ih hr]
      tauto

theorem offset_le_of_alloc (hl : Spaced (b :: l)) (h : alloc l n = some (o, l')) :
    b.offset + b.count < o ∨ n = 0 := by
  rcases Nat.eq_zero_or_pos n with hn | hn
  · exact .inr hn
  · have hfree : IsFree l o := (isFree_alloc h).mpr (.inr ⟨Nat.le_refl o, by simp; omega⟩)
    exact .inl (hl.head_lt hfree)

theorem Spaced.alloc (hl : Spaced l) (h : alloc l n = some (o, l')) : Spaced l' := by
  induction l generalizing l' with
  | nil => simp [FreeList.alloc] at h
  | cons b l ih =>
    have hb := hl.nonempty b (by simp)
    have hgap := (pairwise_cons.mp hl.gaps).1
    by_cases hn : n ≤ b.count
    · rw [alloc_cons_of_le hn, Option.some.injEq, Prod.mk.injEq] at h
      obtain ⟨-, rfl⟩ := h
      by_cases he : b.count = n
      · rw [if_pos he]
        exact hl.tail
      · rw [if_neg he]
        refine hl.tail.cons (by simp only; omega) ?_
        intro x hx
        have := hgap x hx
        simp only
        omega
    · rw [alloc_cons_of_lt (by omega), Option.map_eq_some_iff] at h
      obtain ⟨⟨o', r⟩, hr, he⟩ := h
      obtain ⟨rfl, rfl⟩ := Prod.mk.inj he
      refine (ih hl.tail hr).cons hb ?_
      -- what is left of the tail was free in the tail
      intro x hx
      have hx0 := (ih hl.tail hr).nonempty x hx
      have hfree : IsFree l x.offset := by
        rw [isFree_alloc hr]
        exact .inl ⟨x, hx, Nat.le_refl _, by omega⟩
      exact hl.head_lt hfree

theorem not_isFree_of_alloc (hl : Spaced l) (h : alloc l n = some (o, l'))
    (hi : Block.Contains ⟨o, n⟩ i) : ¬ IsFree l' i := by
  obtain ⟨hlo, hhi⟩ := hi
  simp only at hlo hhi
  induction l generalizing l' with
  | nil => simp [alloc] at h
  | cons b l ih =>
    by_cases hn : n ≤ b.count
    · rw [alloc_cons_of_le hn] at h
      cases h
      have htail : ¬ IsFree l i := fun hf => by
        have := hl.head_lt hf
        omega
      by_cases he : b.count = n
      · rwa [if_pos he]
      · rw [if_neg he, isFree_cons, not_or]
        refine ⟨?_, htail⟩
        rintro ⟨hlo', -⟩
        simp only at hlo'
        omega
    · rw [alloc_cons_of_lt (by omega), Option.map_eq_some_iff] at h
      obtain ⟨⟨o', r⟩, hr, he⟩ := h
      obtain ⟨rfl, rfl⟩ := Prod.mk.inj he
      rw [isFree_cons, not_or]
      refine ⟨?_, ih hl.tail hr⟩
      rintro ⟨-, hb⟩
      have := offset_le_of_alloc hl hr
      omega

/-- A run of free slots lies inside one block, since blocks do not touch. -/
theorem run_in_block (hl : Spaced (b :: l)) (hn : 0 < n)
    (hrun : ∀ j, Block.Contains ⟨o, n⟩ j → IsFree (b :: l) j) :
    (b.offset ≤ o ∧ o + n ≤ b.offset + b.count) ∨ ∀ j, Block.Contains ⟨o, n⟩ j → IsFree l j := by
  rcases isFree_cons.mp (hrun o ⟨Nat.le_refl o, by simp; omega⟩) with ⟨hlo, hhi⟩ | hfree
  · refine .inl ⟨hlo, ?_⟩
    by_contra hend
    have hj : Block.Contains ⟨o, n⟩ (b.offset + b.count) := ⟨by simp; omega, by simp; omega⟩
    rcases isFree_cons.mp (hrun _ hj) with ⟨-, hlt⟩ | hfree
    · omega
    · have := hl.head_lt hfree
      omega
  · refine .inr fun j hj => ?_
    have hafter := hl.head_lt hfree
    rcases isFree_cons.mp (hrun j hj) with ⟨-, hlt⟩ | hfree
    · have := hj.1
      simp only at this
      omega
    · exact hfree

/-- First fit finds the lowest run of free slots that is long enough. -/
theorem exists_alloc_le (hl : Spaced l) (hn : 0 < n)
    (hrun : ∀ j, Block.Contains ⟨o, n⟩ j → IsFree l j) :
    ∃ o' l', alloc l n = some (o', l') ∧ o' ≤ o := by
  induction l with
  | nil => exact absurd (hrun o ⟨Nat.le_refl o, by simp; omega⟩) not_isFree_nil
  | cons b l ih =>
    by_cases hb : n ≤ b.count
    · refine ⟨_, _, alloc_cons_of_le hb, ?_⟩
      rcases isFree_cons.mp (hrun o ⟨Nat.le_refl o, by simp; omega⟩) with ⟨hlo, -⟩ | hfree
      · exact hlo
      · have := hl.head_lt hfree
        omega
    · rcases run_in_block hl hn hrun with ⟨hlo, hhi⟩ | hrun'
      · omega
      · obtain ⟨o', l', ha, hle⟩ := ih hl.tail hrun'
        exact ⟨o', b :: l', by rw [alloc_cons_of_lt (by omega), ha]; rfl, hle⟩

theorem alloc_isSome_of_le {m : Nat} (hm : m ≤ n) (h : (alloc l n).isSome = true) :
    (alloc l m).isSome = true := by
  induction l with
  | nil => exact absurd h (by simp [FreeList.alloc])
  | cons b l ih =>
    by_cases hb : m ≤ b.count
    · rw [alloc_cons_of_le hb]
      rfl
    · rw [alloc_cons_of_lt (by omega), Option.isSome_map] at h ⊢
      exact ih h

end Alloc

section Free

theorem isFree_mergeFrom (last : Block) (l : List Block) :
    IsFree (mergeFrom last l) i ↔ last.Contains i ∨ IsFree l i := by
  induction l generalizing last with
  | nil => simp [mergeFrom, isFree_cons]
  | cons b l ih =>
    by_cases he : last.offset + last.count = b.offset
    · rw [mergeFrom, if_pos he, ih, isFree_cons, ← or_assoc]
      refine or_congr_left ?_
      simp only [Block.Contains]
      omega
    · rw [mergeFrom, if_neg he, isFree_cons, ih, isFree_cons]

theorem isFree_merge (l : List Block) : IsFree (merge l) i ↔ IsFree l i := by
  cases l with
  | nil => exact Iff.rfl
  | cons b l => rw [merge, isFree_mergeFrom, isFree_cons]

theorem isFree_free (l : List Block) (b : Block) : IsFree (free l b) i ↔ IsFree l i ∨ b.Contains i := by
  rw [free, isFree_merge, isFree_of_perm (perm_insertionSort _ _), isFree_append]
  simp [isFree_cons, not_isFree_nil]

structure Ordered (l : List Block) : Prop where
  nonempty : ∀ b ∈ l, 0 < b.count
  ordered : l.Pairwise fun a b => a.offset + a.count ≤ b.offset

theorem spaced_mergeFrom {last : Block} (h : Ordered (last :: l)) :
    Spaced (mergeFrom last l) ∧ ∀ x ∈ mergeFrom last l, last.offset ≤ x.offset := by
  induction l generalizing last with
  | nil =>
    have hlast := h.nonempty last (by simp)
    exact ⟨spaced_singleton hlast, by simp [mergeFrom]⟩
  | cons b l ih =>
    have hlast := h.nonempty last (by simp)
    have hb := h.nonempty b (by simp)
    have hne : ∀ x ∈ l, 0 < x.count := fun x hx => h.nonempty x (by simp [hx])
    obtain ⟨hfirst, htail⟩ := pairwise_cons.mp h.ordered
    obtain ⟨hsecond, hrest⟩ := pairwise_cons.mp htail
    have hlb := hfirst b (by simp)
    by_cases he : last.offset + last.count = b.offset
    · rw [mergeFrom, if_pos he]
      apply ih
      refine ⟨?_, pairwise_cons.mpr ⟨?_, hrest⟩⟩
      · intro x hx
        rcases mem_cons.mp hx with rfl | hx
        · simp only
          omega
        · exact hne x hx
      · intro x hx
        have := hsecond x hx
        simp only
        omega
    · rw [mergeFrom, if_neg he]
      obtain ⟨hspaced, hafter⟩ := ih ⟨fun x hx => h.nonempty x (by simp [mem_cons.mp hx]), htail⟩
      constructor
      · refine hspaced.cons hlast fun x hx => ?_
        have := hafter x hx
        omega
      · intro x hx
        rcases mem_cons.mp hx with rfl | hx
        · exact Nat.le_refl _
        · have := hafter x hx
          omega

theorem spaced_merge (h : Ordered l) : Spaced (merge l) := by
  cases l with
  | nil => exact ⟨by simp [merge], List.Pairwise.nil⟩
  | cons b l => exact (spaced_mergeFrom h).1

theorem ordered_insertionSort (hl : Spaced l) (hb : 0 < b.count)
    (hdisj : ∀ i, b.Contains i → ¬ IsFree l i) :
    Ordered ((l ++ [b]).insertionSort fun a b => a.offset ≤ b.offset) := by
  have hperm := perm_insertionSort (fun a b : Block => a.offset ≤ b.offset) (l ++ [b])
  have hne : ∀ x ∈ l ++ [b], 0 < x.count := by
    intro x hx
    rcases mem_append.mp hx with hx | hx
    · exact hl.nonempty x hx
    · rwa [List.mem_singleton.mp hx]
  have hapart : (l ++ [b]).Pairwise
      fun x y => x.offset + x.count ≤ y.offset ∨ y.offset + y.count ≤ x.offset := by
    refine pairwise_append.mpr ⟨hl.gaps.imp fun h => .inl (Nat.le_of_lt h), pairwise_singleton _ _, ?_⟩
    intro x hx y hy
    rw [List.mem_singleton.mp hy]
    have hx0 := hl.nonempty x hx
    by_contra hcross
    -- two blocks that overlap share the larger of their offsets
    have hi : b.Contains (max x.offset b.offset) ∧ x.Contains (max x.offset b.offset) := by
      simp only [Block.Contains]
      omega
    exact hdisj _ hi.1 ⟨x, hx, hi.2⟩
  have htotal : Std.Total fun a b : Block => a.offset ≤ b.offset := ⟨fun a b => by omega⟩
  have htrans : IsTrans Block fun a b => a.offset ≤ b.offset := ⟨fun _ _ _ => Nat.le_trans⟩
  have hsorted := pairwise_insertionSort (fun a b : Block => a.offset ≤ b.offset) (l ++ [b])
  have hapart' := hapart.perm hperm.symm fun h => h.symm
  refine ⟨fun x hx => hne x (hperm.mem_iff.mp hx), ?_⟩
  refine (hsorted.and hapart').imp_of_mem ?_
  rintro x y hx hy ⟨hle, h | h⟩
  · exact h
  · have := hne y (hperm.mem_iff.mp hy)
    omega

theorem Spaced.free (hl : Spaced l) (hb : 0 < b.count) (hdisj : ∀ i, b.Contains i → ¬ IsFree l i) :
    Spaced (free l b) :=
  spaced_merge (ordered_insertionSort hl hb hdisj)

end Free

section Shares

variable {κ : Type*} {cap : Nat} {owner : κ → Option Block} {k k' : κ}

structure Shares (cap : Nat) (l : List Block) (owner : κ → Option Block) : Prop where
  spaced : Spaced l
  cover : ∀ i, i < cap ↔ IsFree l i ∨ ∃ k b, owner k = some b ∧ b.Contains i
  apart : ∀ k b i, owner k = some b → b.Contains i → ¬ IsFree l i
  single : ∀ k k' b b' i, owner k = some b → owner k' = some b' → b.Contains i → b'.Contains i → k = k'

theorem shares_new (hcap : 0 < cap) : Shares cap [⟨0, cap⟩] fun _ : κ => none := by
  refine ⟨spaced_singleton hcap, ?_, by simp, by simp⟩
  intro i
  simp [isFree_cons, not_isFree_nil, Block.Contains]

theorem Shares.end_le (h : Shares cap l owner) (hb : b ∈ l) : b.offset + b.count ≤ cap := by
  have hpos := h.spaced.nonempty b hb
  have hlast := (h.cover (b.offset + b.count - 1)).mpr (.inl ⟨b, hb, by omega, by omega⟩)
  omega

theorem Shares.lt_cap (h : Shares cap l owner) (hk : owner k = some b) (hi : b.Contains i) :
    i < cap := (h.cover i).mpr (.inr ⟨k, b, hk, hi⟩)

variable [DecidableEq κ]

theorem update_eq_some {v : Option Block} :
    Function.update owner k v k' = some b ↔ k' = k ∧ v = some b ∨ k' ≠ k ∧ owner k' = some b := by
  by_cases hk : k' = k
  · subst hk
    simp
  · simp [hk]

theorem update_none_eq_some :
    Function.update owner k none k' = some b ↔ k' ≠ k ∧ owner k' = some b := by
  simp [update_eq_some]

theorem Shares.alloc (h : Shares cap l owner) (hk : owner k = none)
    (ha : alloc l n = some (o, l')) : Shares cap l' (Function.update owner k (some ⟨o, n⟩)) := by
  have hmono : ∀ {i}, IsFree l' i → IsFree l i := fun hi => (isFree_alloc ha).mpr (.inl hi)
  have hblock : ∀ {i}, Block.Contains ⟨o, n⟩ i → IsFree l i :=
    fun hi => (isFree_alloc ha).mpr (.inr hi)
  refine ⟨h.spaced.alloc ha, ?_, ?_, ?_⟩
  · intro i
    rw [h.cover, isFree_alloc ha]
    constructor
    · rintro ((hi | hi) | ⟨k', b, hb, hi⟩)
      · exact .inl hi
      · exact .inr ⟨k, _, update_eq_some.mpr (.inl ⟨rfl, rfl⟩), hi⟩
      · have hne : k' ≠ k := by
          rintro rfl
          simp [hk] at hb
        exact .inr ⟨k', b, update_eq_some.mpr (.inr ⟨hne, hb⟩), hi⟩
    · rintro (hi | ⟨k', b, hb, hi⟩)
      · exact .inl (.inl hi)
      · rcases update_eq_some.mp hb with ⟨-, hb⟩ | ⟨-, hb⟩
        · obtain rfl := Option.some.inj hb
          exact .inl (.inr hi)
        · exact .inr ⟨k', b, hb, hi⟩
  · intro k' b i hb hi hfree
    rcases update_eq_some.mp hb with ⟨-, hb⟩ | ⟨-, hb⟩
    · obtain rfl := Option.some.inj hb
      exact not_isFree_of_alloc h.spaced ha hi hfree
    · exact h.apart k' b i hb hi (hmono hfree)
  · intro k₁ k₂ b₁ b₂ i h₁ h₂ hi₁ hi₂
    rcases update_eq_some.mp h₁ with ⟨rfl, hb₁⟩ | ⟨-, hb₁⟩ <;>
      rcases update_eq_some.mp h₂ with ⟨rfl, hb₂⟩ | ⟨-, hb₂⟩
    · rfl
    · obtain rfl := Option.some.inj hb₁
      exact absurd (hblock hi₁) (h.apart _ _ _ hb₂ hi₂)
    · obtain rfl := Option.some.inj hb₂
      exact absurd (hblock hi₂) (h.apart _ _ _ hb₁ hi₁)
    · exact h.single _ _ _ _ _ hb₁ hb₂ hi₁ hi₂

theorem Shares.free (h : Shares cap l owner) (hk : owner k = some b) (hb : 0 < b.count) :
    Shares cap (free l b) (Function.update owner k none) := by
  refine ⟨h.spaced.free hb fun i hi => h.apart k b i hk hi, ?_, ?_, ?_⟩
  · intro i
    rw [h.cover, isFree_free]
    constructor
    · rintro (hi | ⟨k', b', hb', hi⟩)
      · exact .inl (.inl hi)
      · by_cases hkk : k' = k
        · subst hkk
          obtain rfl := Option.some.inj (hk.symm.trans hb')
          exact .inl (.inr hi)
        · exact .inr ⟨k', b', update_none_eq_some.mpr ⟨hkk, hb'⟩, hi⟩
    · rintro ((hi | hi) | ⟨k', b', hb', hi⟩)
      · exact .inl hi
      · exact .inr ⟨k, b, hk, hi⟩
      · exact .inr ⟨k', b', (update_none_eq_some.mp hb').2, hi⟩
  · intro k' b' i hb' hi hfree
    obtain ⟨hkk, hb'⟩ := update_none_eq_some.mp hb'
    rcases (isFree_free l b).mp hfree with hfree | hfree
    · exact h.apart k' b' i hb' hi hfree
    · exact hkk (h.single _ _ _ _ _ hb' hk hi hfree)
  · intro k₁ k₂ b₁ b₂ i h₁ h₂ hi₁ hi₂
    have hb₁ := (update_none_eq_some.mp h₁).2
    have hb₂ := (update_none_eq_some.mp h₂).2
    exact h.single _ _ _ _ _ hb₁ hb₂ hi₁ hi₂

theorem Shares.drop (h : Shares cap l owner) (hk : ∀ b, owner k = some b → b.count = 0) :
    Shares cap l (Function.update owner k none) := by
  refine ⟨h.spaced, ?_, ?_, ?_⟩
  · intro i
    rw [h.cover]
    refine or_congr_right ⟨?_, ?_⟩
    · rintro ⟨k', b', hb', hi⟩
      refine ⟨k', b', update_none_eq_some.mpr ⟨?_, hb'⟩, hi⟩
      rintro rfl
      have hzero := hk b' hb'
      obtain ⟨hlo, hhi⟩ := hi
      omega
    · rintro ⟨k', b', hb', hi⟩
      exact ⟨k', b', (update_none_eq_some.mp hb').2, hi⟩
  · intro k' b' i hb' hi
    exact h.apart k' b' i (update_none_eq_some.mp hb').2 hi
  · intro k₁ k₂ b₁ b₂ i h₁ h₂ hi₁ hi₂
    have hb₁ := (update_none_eq_some.mp h₁).2
    have hb₂ := (update_none_eq_some.mp h₂).2
    exact h.single _ _ _ _ _ hb₁ hb₂ hi₁ hi₂

end Shares

end FreeList
