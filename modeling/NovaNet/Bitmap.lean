import Mathlib.Data.List.Basic

/-! The bitmap of the address pools: bits in words of 64, and the search for the first
clear one. -/

namespace NovaNet

open List

def bitMask (bit : Nat) : UInt64 := 1 <<< UInt64.ofNat bit

def testWord (word : UInt64) (bit : Nat) : Bool := word &&& bitMask bit ≠ 0

/-- The index of a bit has to be below the size; the source panics beyond the last word. -/
structure Bitmap where
  words : List UInt64
  size : Nat
  length_words : words.length = (size + 63) / 64

namespace Bitmap

def new (size : Nat) : Bitmap := ⟨replicate ((size + 63) / 64) 0, size, by simp⟩

def set (b : Bitmap) (idx : Nat) : Bitmap where
  words := b.words.modify (idx / 64) (· ||| bitMask (idx % 64))
  size := b.size
  length_words := by rw [length_modify, b.length_words]

def clear (b : Bitmap) (idx : Nat) : Bitmap where
  words := b.words.modify (idx / 64) (· &&& ~~~ bitMask (idx % 64))
  size := b.size
  length_words := by rw [length_modify, b.length_words]

def get (b : Bitmap) (idx : Nat) : Bool := testWord (b.words.getD (idx / 64) 0) (idx % 64)

def scanWord (size base : Nat) (word : UInt64) : Nat → Option (Option Nat)
  | 0 => none
  | n + 1 =>
    let bit := 64 - (n + 1)
    if size ≤ base + bit then some none
    else if testWord word bit = false then some (some (base + bit))
    else scanWord size base word n

def findFrom (size : Nat) : Nat → List UInt64 → Option Nat
  | _, [] => none
  | i, word :: words =>
    if word = ~~~ 0 then findFrom size (i + 1) words
    else
      match scanWord size (i * 64) word 64 with
      | some r => r
      | none => findFrom size (i + 1) words

/-- The first clear bit; `none` is the -1 of the source. -/
def findFree (b : Bitmap) : Option Nat := findFrom b.size 0 b.words

section Bits

theorem bitMask_toBitVec {bit : Nat} (h : bit < 64) :
    (bitMask bit).toBitVec = BitVec.twoPow 64 bit := by
  have hmod : (UInt64.ofNat bit).toBitVec % 64 = BitVec.ofNat 64 bit := by
    rw [← BitVec.toNat_inj, BitVec.toNat_umod]
    show bit % 2 ^ 64 % 64 = bit % 2 ^ 64
    omega
  rw [bitMask, UInt64.toBitVec_shiftLeft, hmod, BitVec.twoPow, BitVec.shiftLeft_eq',
    BitVec.toNat_ofNat, Nat.mod_eq_of_lt (by omega)]
  rfl

theorem testWord_eq (word : UInt64) {bit : Nat} (h : bit < 64) :
    testWord word bit = word.toBitVec.getLsbD bit := by
  have hand : (word &&& bitMask bit).toBitVec =
      if word.toBitVec.getLsbD bit then BitVec.twoPow 64 bit else 0#64 := by
    rw [UInt64.toBitVec_and, bitMask_toBitVec h, BitVec.and_twoPow]
  have hpow : BitVec.twoPow 64 bit ≠ 0#64 := by
    intro hzero
    have hbit := congrArg (fun x => x.getLsbD bit) hzero
    simp [h] at hbit
  cases hb : word.toBitVec.getLsbD bit with
  | true =>
    rw [hb, if_pos rfl] at hand
    refine decide_eq_true fun hzero => hpow ?_
    rw [← hand, hzero]
    rfl
  | false =>
    rw [hb, if_neg (by decide)] at hand
    exact decide_eq_false (not_not.mpr (UInt64.toBitVec_inj.mp hand))

theorem testWord_set (word : UInt64) {i bit : Nat} (hi : i < 64) (h : bit < 64) :
    testWord (word ||| bitMask i) bit = (testWord word bit || decide (bit = i)) := by
  rw [testWord_eq _ h, testWord_eq _ h, UInt64.toBitVec_or, bitMask_toBitVec hi,
    BitVec.getLsbD_or, BitVec.getLsbD_twoPow]
  simp [h, hi, eq_comm]

theorem testWord_clear (word : UInt64) {i bit : Nat} (hi : i < 64) (h : bit < 64) :
    testWord (word &&& ~~~ bitMask i) bit = (testWord word bit && decide (bit ≠ i)) := by
  rw [testWord_eq _ h, testWord_eq _ h, UInt64.toBitVec_and, UInt64.toBitVec_not,
    bitMask_toBitVec hi, BitVec.getLsbD_and, BitVec.getLsbD_not, BitVec.getLsbD_twoPow]
  simp [h, hi, eq_comm]

theorem clear_set_word {word : UInt64} {bit : Nat} (h : bit < 64)
    (hfree : testWord word bit = false) : (word ||| bitMask bit) &&& ~~~ bitMask bit = word := by
  rw [testWord_eq _ h] at hfree
  apply UInt64.toBitVec_inj.mp
  apply BitVec.eq_of_getLsbD_eq
  intro j hj
  rw [UInt64.toBitVec_and, UInt64.toBitVec_or, UInt64.toBitVec_not, bitMask_toBitVec h,
    BitVec.getLsbD_and, BitVec.getLsbD_or, BitVec.getLsbD_not, BitVec.getLsbD_twoPow]
  by_cases he : bit = j
  · subst he
    simp [hfree]
  · simp [he, hj]

theorem testWord_full {bit : Nat} (h : bit < 64) : testWord (~~~ 0) bit = true := by
  rw [testWord_eq _ h, UInt64.toBitVec_not, BitVec.getLsbD_not]
  simp [h]

end Bits

variable (b : Bitmap) {idx : Nat}

theorem word_lt (h : idx < b.size) : idx / 64 < b.words.length := by
  rw [b.length_words]
  omega

theorem getD_modify {f : UInt64 → UInt64} {words : List UInt64} {i : Nat} (hi : i < words.length)
    (j : Nat) :
    (words.modify i f).getD j 0 = if j = i then f (words.getD j 0) else words.getD j 0 := by
  by_cases h : j = i
  · subst h
    simp [getD_eq_getElem?_getD, hi]
  · have hne : i ≠ j := fun he => h he.symm
    simp [getD_eq_getElem?_getD, hne, h]

theorem get_new (size idx : Nat) : (new size).get idx = false := by
  have hword : (new size).words.getD (idx / 64) 0 = 0 := by
    simp only [new, getD_eq_getElem?_getD, getElem?_replicate]
    split <;> rfl
  rw [get, hword, testWord_eq _ (Nat.mod_lt _ (by decide))]
  simp

theorem testWord_modify (h : idx < b.size) (f : UInt64 → UInt64) (j : Nat) :
    testWord ((b.words.modify (idx / 64) f).getD (j / 64) 0) (j % 64) =
      if j / 64 = idx / 64 then testWord (f (b.words.getD (j / 64) 0)) (j % 64) else b.get j := by
  rw [getD_modify (b.word_lt h), get]
  split <;> rfl

theorem get_set (h : idx < b.size) (j : Nat) : (b.set idx).get j = (b.get j || decide (j = idx)) := by
  rw [get, set, b.testWord_modify h, testWord_set _ (Nat.mod_lt _ (by decide))
    (Nat.mod_lt _ (by decide)), get]
  have hiff : j = idx ↔ j / 64 = idx / 64 ∧ j % 64 = idx % 64 := by omega
  by_cases hw : j / 64 = idx / 64 <;> simp [hiff, hw]

theorem get_clear (h : idx < b.size) (j : Nat) :
    (b.clear idx).get j = (b.get j && decide (j ≠ idx)) := by
  rw [get, clear, b.testWord_modify h, testWord_clear _ (Nat.mod_lt _ (by decide))
    (Nat.mod_lt _ (by decide)), get]
  have hiff : j = idx ↔ j / 64 = idx / 64 ∧ j % 64 = idx % 64 := by omega
  by_cases hw : j / 64 = idx / 64 <;> simp [hiff, hw]

theorem clear_set (h : idx < b.size) (hfree : b.get idx = false) : (b.set idx).clear idx = b := by
  have hword : (b.words.modify (idx / 64) (· ||| bitMask (idx % 64))).modify (idx / 64)
      (· &&& ~~~ bitMask (idx % 64)) = b.words := by
    apply ext_getElem?
    intro j
    rw [getElem?_modify, getElem?_modify]
    by_cases hj : idx / 64 = j
    · subst hj
      have hlt := b.word_lt h
      rw [get, getD_eq_getElem?_getD, getElem?_eq_getElem hlt] at hfree
      simp only [getElem?_eq_getElem hlt, if_true]
      exact congrArg some (clear_set_word (Nat.mod_lt _ (by decide)) hfree)
    · simp [hj]
  cases b
  simp only [set, clear, mk.injEq] at hword ⊢
  exact ⟨hword, trivial⟩

theorem size_foldl_set (idxs : List Nat) (b : Bitmap) : (idxs.foldl set b).size = b.size := by
  induction idxs generalizing b with
  | nil => rfl
  | cons i idxs ih => exact ih (b.set i)

theorem get_foldl_set (idxs : List Nat) (b : Bitmap) (h : ∀ i ∈ idxs, i < b.size) (j : Nat) :
    (idxs.foldl set b).get j = (b.get j || decide (j ∈ idxs)) := by
  induction idxs generalizing b with
  | nil => simp
  | cons i idxs ih =>
    have hhead : i < b.size := h i mem_cons_self
    have htail : ∀ i' ∈ idxs, i' < (b.set i).size := fun i' hi' => h i' (mem_cons_of_mem i hi')
    rw [foldl_cons, ih (b.set i) htail, get_set b hhead]
    simp [Bool.or_assoc]

end Bitmap

def FirstFree (get : Nat → Bool) (lo size : Nat) : Option Nat → Prop
  | none => ∀ j, lo ≤ j → j < size → get j = true
  | some idx => lo ≤ idx ∧ idx < size ∧ get idx = false ∧ ∀ j, lo ≤ j → j < idx → get j = true

namespace FirstFree

variable {get : Nat → Bool} {lo mid size : Nat} {r : Option Nat}

theorem skip (hset : ∀ j, lo ≤ j → j < mid → get j = true) (hle : lo ≤ mid)
    (h : FirstFree get mid size r) : FirstFree get lo size r := by
  have hbelow : ∀ j, lo ≤ j → (mid ≤ j → get j = true) → get j = true := by
    intro j hlo hj
    by_cases hmid : j < mid
    · exact hset j hlo hmid
    · exact hj (by omega)
  cases r with
  | none => exact fun j hlo hj => hbelow j hlo fun hmid => h j hmid hj
  | some idx =>
    obtain ⟨hidx, hlt, hfree, hprev⟩ := h
    exact ⟨by omega, hlt, hfree, fun j hlo hj => hbelow j hlo fun hmid => hprev j hmid hj⟩

theorem step (hset : get lo = true) (h : FirstFree get (lo + 1) size r) :
    FirstFree get lo size r := by
  refine h.skip (fun j hlo hj => ?_) (by omega)
  have hj : j = lo := by omega
  rw [hj, hset]

theorem unique {r' : Option Nat} (h : FirstFree get lo size r) (h' : FirstFree get lo size r') :
    r = r' := by
  cases r with
  | none =>
    cases r' with
    | none => rfl
    | some j => exact absurd (h j h'.1 h'.2.1) (by simp [h'.2.2.1])
  | some i =>
    cases r' with
    | none => exact absurd (h' i h.1 h.2.1) (by simp [h.2.2.1])
    | some j =>
      obtain ⟨hi, -, hfree, hbelow⟩ := h
      obtain ⟨hj, -, hfree', hbelow'⟩ := h'
      rcases Nat.lt_trichotomy i j with hlt | rfl | hlt
      · simp [hbelow' i hi hlt] at hfree
      · rfl
      · simp [hbelow j hj hlt] at hfree'

end FirstFree

namespace Bitmap

theorem scanWord_spec {get : Nat → Bool} (size : Nat) {base : Nat} {word : UInt64}
    (hget : ∀ bit, bit < 64 → get (base + bit) = testWord word bit) {n : Nat} (hn : n ≤ 64) :
    match scanWord size base word n with
    | some r => FirstFree get (base + (64 - n)) size r
    | none => ∀ j, base + (64 - n) ≤ j → j < base + 64 → get j = true := by
  induction n with
  | zero =>
    simp only [scanWord]
    intro j hlo hj
    omega
  | succ n ih =>
    have hnext : base + (64 - n) = base + (64 - (n + 1)) + 1 := by omega
    have ih := ih (by omega)
    have hbit := hget (64 - (n + 1)) (by omega)
    rw [scanWord]
    by_cases hsize : size ≤ base + (64 - (n + 1))
    · simp only [if_pos hsize]
      intro j hlo hj
      omega
    · simp only [if_neg hsize]
      cases ht : testWord word (64 - (n + 1)) with
      | false =>
        simp only [if_true]
        exact ⟨Nat.le_refl _, by omega, hbit.trans ht, fun j hlo hj => by omega⟩
      | true =>
        simp only [Bool.true_eq_false, if_false]
        rw [hnext] at ih
        have hset : get (base + (64 - (n + 1))) = true := hbit.trans ht
        cases hscan : scanWord size base word n with
        | some r =>
          simp only [hscan] at ih ⊢
          exact FirstFree.step hset ih
        | none =>
          simp only [hscan] at ih ⊢
          intro j hlo hj
          by_cases he : j = base + (64 - (n + 1))
          · rw [he, hset]
          · exact ih j (by omega) hj

/-- A search from word to word finds the first clear bit, if it does so in the word it is at or
passes it when all bits are set. -/
theorem firstFree_of_search (b : Bitmap) {f : Nat → List UInt64 → Option Nat}
    (hnil : ∀ i, f i [] = none)
    (hcons : ∀ (get : Nat → Bool) i word words,
      (∀ bit, bit < 64 → get (i * 64 + bit) = testWord word bit) →
      FirstFree get ((i + 1) * 64) b.size (f (i + 1) words) →
      FirstFree get (i * 64) b.size (f i (word :: words))) :
    FirstFree b.get 0 b.size (f 0 b.words) := by
  have hsearch : ∀ (words : List UInt64) (i : Nat),
      (∀ k bit, k < words.length → bit < 64 →
        b.get ((i + k) * 64 + bit) = testWord (words.getD k 0) bit) →
      b.size ≤ (i + words.length) * 64 → FirstFree b.get (i * 64) b.size (f i words) := by
    intro words
    induction words with
    | nil =>
      intro i _ hsize
      rw [hnil]
      intro j hlo hj
      simp at hsize
      omega
    | cons word words ih =>
      intro i hget hsize
      refine hcons b.get i word words (fun bit hbit => hget 0 bit (by simp) hbit) ?_
      refine ih (i + 1) (fun k bit hk hbit => ?_) (by simp at hsize; omega)
      have hstep := hget (k + 1) bit (by simpa using hk) hbit
      have hidx : i + (k + 1) = i + 1 + k := by omega
      rwa [hidx] at hstep
  have hspec := hsearch b.words 0 (fun k bit hk hbit => ?_) (by rw [b.length_words]; omega)
  · rwa [Nat.zero_mul] at hspec
  · have hdiv : ((0 + k) * 64 + bit) / 64 = k := by omega
    have hmod : ((0 + k) * 64 + bit) % 64 = bit := by omega
    rw [get, hdiv, hmod]

theorem get_of_bits {get : Nat → Bool} {i n : Nat} {word : UInt64} (hn : n ≤ 64)
    (hget : ∀ bit, bit < 64 → get (i * 64 + bit) = testWord word bit)
    (hset : ∀ bit < n, testWord word bit = true) :
    ∀ j, i * 64 ≤ j → j < i * 64 + n → get j = true := by
  intro j hlo hj
  have hbit := hget (j - i * 64) (by omega)
  rw [hset (j - i * 64) (by omega)] at hbit
  have hj' : i * 64 + (j - i * 64) = j := by omega
  rwa [hj'] at hbit

theorem findFree_spec (b : Bitmap) : FirstFree b.get 0 b.size b.findFree := by
  refine b.firstFree_of_search (f := findFrom b.size) (fun _ => rfl)
    fun get i word words hget htail => ?_
  have hnext : (∀ j, i * 64 ≤ j → j < i * 64 + 64 → get j = true) →
      FirstFree get (i * 64) b.size (findFrom b.size (i + 1) words) := by
    intro hset
    exact htail.skip (fun j hlo hj => hset j hlo (by omega)) (by omega)
  rw [findFrom]
  by_cases hfull : word = ~~~ 0
  · rw [if_pos hfull]
    exact hnext (get_of_bits (Nat.le_refl 64) hget fun bit hbit => hfull ▸ testWord_full hbit)
  · rw [if_neg hfull]
    have hscan := scanWord_spec b.size hget (Nat.le_refl 64)
    cases hr : scanWord b.size (i * 64) word 64 with
    | some r =>
      simp only [hr] at hscan ⊢
      exact hscan
    | none =>
      simp only [hr] at hscan ⊢
      exact hnext hscan

end Bitmap

end NovaNet
