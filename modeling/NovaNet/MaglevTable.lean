import NovaNet.Rotation

/-! The generation of a Maglev table (internal/service/maglev.go): the backends take turns, and
each takes the next place of its own probe sequence that is still empty. `fuel` bounds the turns
of the two loops that have no bound in the source. -/

namespace NovaNet

open List Option

/-- The sentinel for a place that nobody has taken. -/
def emptyPlace : UInt32 := 0xffffffff

structure MaglevFill where
  table : List UInt32
  next : List UInt32
  filled : Nat
  deriving DecidableEq

/-- The loop `for table[pos] != ^uint32(0)`; an index outside the table is a panic. -/
def probeEmpty (table : List UInt32) (skip ts32 : UInt32) : Nat → UInt32 → Option UInt32
  | 0, _ => none
  | fuel + 1, pos =>
    match table[pos.toNat]? with
    | none => none
    | some v =>
      if v ≠ emptyPlace then probeEmpty table skip ts32 fuel ((pos + skip) % ts32) else some pos

def MaglevFill.take (skips : List UInt32) (ts32 : UInt32) (fuel : Nat) (st : MaglevFill) (i : Nat) :
    Option MaglevFill :=
  match st.next[i]?, skips[i]? with
  | some start, some skip =>
    (probeEmpty st.table skip ts32 fuel start).map fun pos =>
      { table := st.table.set pos.toNat (UInt32.ofNat i)
        next := st.next.set i ((pos + skip) % ts32)
        filled := st.filled + 1 }
  | _, _ => none

def MaglevFill.pass (skips : List UInt32) (ts32 : UInt32) (tableSize fuel : Nat) :
    List Nat → MaglevFill → Option MaglevFill
  | [], st => some st
  | i :: is, st =>
    (st.take skips ts32 fuel i).bind fun st' =>
      if st'.filled ≥ tableSize then some st' else pass skips ts32 tableSize fuel is st'

def MaglevFill.fill (skips : List UInt32) (ts32 : UInt32) (tableSize n fuel : Nat) :
    Nat → MaglevFill → Option MaglevFill
  | 0, _ => none
  | rounds + 1, st =>
    if st.filled < tableSize then
      (st.pass skips ts32 tableSize fuel (List.range n)).bind (fill skips ts32 tableSize n fuel rounds)
    else some st

def maglevOffset (hash ts64 : UInt64) : UInt32 := (hash % ts64).toUInt32

def maglevSkip (hash ts64 : UInt64) : UInt32 := ((hash >>> 32) % (ts64 - 1)).toUInt32 + 1

/-- `none` is a panic (a negative size, or the remainder by zero for a table of one place) or a
loop that goes on; the nil slice is an empty table. -/
def generateMaglevTable (hash : String → UInt64) (fuel : Nat) (backends : List String)
    (tableSize : Int) : Option (List UInt32) :=
  if backends.length = 0 then
    if tableSize < 0 then none else some (List.replicate tableSize.toNat 0)
  else if tableSize ≤ 0 ∨ tableSize > 4294967295 then some []
  else if tableSize = 1 then none
  else
    let ts64 := UInt64.ofNat tableSize.toNat
    let ts32 := UInt32.ofNat tableSize.toNat
    let start : MaglevFill :=
      { table := List.replicate tableSize.toNat emptyPlace
        next := backends.map fun b => maglevOffset (hash b) ts64
        filled := 0 }
    (start.fill (backends.map fun b => maglevSkip (hash b) ts64) ts32 tableSize.toNat
      backends.length fuel fuel).map MaglevFill.table

section Numbers

variable {p : Nat}

theorem toNat_maglevOffset (hpos : 0 < p) (hlt : p < 2 ^ 31) (hash : UInt64) :
    (maglevOffset hash (UInt64.ofNat p)).toNat < p := by
  have hsize : UInt64.size = 2 ^ 64 := rfl
  have hp64 : (UInt64.ofNat p).toNat = p := UInt64.toNat_ofNat_of_lt' (by omega)
  have hmod := Nat.mod_lt hash.toNat hpos
  rw [maglevOffset, UInt64.toNat_toUInt32, UInt64.toNat_mod, hp64]
  omega

theorem toNat_maglevSkip (htwo : 2 ≤ p) (hlt : p < 2 ^ 31) (hash : UInt64) :
    0 < (maglevSkip hash (UInt64.ofNat p)).toNat ∧ (maglevSkip hash (UInt64.ofNat p)).toNat < p := by
  have hsize : UInt64.size = 2 ^ 64 := rfl
  have hp64 : (UInt64.ofNat p).toNat = p := UInt64.toNat_ofNat_of_lt' (by omega)
  have hone : (1 : UInt64).toNat = 1 := rfl
  have hsub : (UInt64.ofNat p - 1).toNat = p - 1 := by
    rw [UInt64.toNat_sub_of_le _ _ (by rw [UInt64.le_iff_toNat_le, hp64, hone]; omega), hp64, hone]
  have hmod := Nat.mod_lt (hash >>> 32).toNat (show 0 < p - 1 by omega)
  have hskip : (maglevSkip hash (UInt64.ofNat p)).toNat = (hash >>> 32).toNat % (p - 1) + 1 := by
    rw [maglevSkip, UInt32.toNat_add, UInt64.toNat_toUInt32, UInt64.toNat_mod, hsub, UInt32.toNat_one]
    omega
  omega

theorem toNat_step (hlt : p < 2 ^ 31) {pos skip : UInt32} (hpos : pos.toNat < p)
    (hskip : skip.toNat < p) :
    ((pos + skip) % UInt32.ofNat p).toNat = (pos.toNat + skip.toNat) % p := by
  have hsize : UInt32.size = 2 ^ 32 := rfl
  have hp32 : (UInt32.ofNat p).toNat = p := UInt32.toNat_ofNat_of_lt' (by omega)
  rw [UInt32.toNat_mod, UInt32.toNat_add, hp32,
    Nat.mod_eq_of_lt (show pos.toNat + skip.toNat < 2 ^ 32 by omega)]

end Numbers

section Probing

variable {p : Nat} {table : List UInt32} {skip : UInt32}

theorem probeEmpty_of_step (hlt : p < 2 ^ 31) (hlen : table.length = p) (hskip : skip.toNat < p)
    {k : Nat} {pos : UInt32} (hpos : pos.toNat < p)
    (hempty : table[(pos.toNat + k * skip.toNat) % p]? = some emptyPlace) :
    ∃ pos', (∀ fuel > k, probeEmpty table skip (UInt32.ofNat p) fuel pos = some pos') ∧
      table[pos'.toNat]? = some emptyPlace := by
  -- the sequence meets an empty place after `k` steps, if not earlier
  induction k generalizing pos with
  | zero =>
    rw [Nat.zero_mul, Nat.add_zero, Nat.mod_eq_of_lt hpos] at hempty
    refine ⟨pos, fun fuel hfuel => ?_, hempty⟩
    obtain ⟨fuel, rfl⟩ := Nat.exists_eq_add_of_lt hfuel
    simp [probeEmpty, hempty]
  | succ k ih =>
    have hat := List.getElem?_eq_getElem (hlen.symm ▸ hpos : pos.toNat < table.length)
    by_cases hv : table[pos.toNat] = emptyPlace
    · rw [hv] at hat
      refine ⟨pos, fun fuel hfuel => ?_, hat⟩
      obtain ⟨fuel, rfl⟩ := Nat.exists_eq_add_of_lt hfuel
      simp [probeEmpty, hat]
    · have hstep := toNat_step hlt hpos hskip
      have hnext : ((pos + skip) % UInt32.ofNat p).toNat < p := by
        rw [hstep]
        exact Nat.mod_lt _ (by omega)
      rw [Nat.add_mul, Nat.one_mul, Nat.add_comm (k * skip.toNat), ← Nat.add_assoc,
        ← Nat.mod_add_mod, ← hstep] at hempty
      obtain ⟨pos', hprobe, hget⟩ := ih hnext hempty
      refine ⟨pos', fun fuel hfuel => ?_, hget⟩
      obtain ⟨fuel, rfl⟩ : ∃ f, fuel = f + 1 := ⟨fuel - 1, by omega⟩
      rw [probeEmpty, hat]
      simp only [ne_eq, hv, not_false_iff, if_true]
      exact hprobe fuel (by omega)

theorem probeEmpty_spec (hp : p.Prime) (hlt : p < 2 ^ 31) (hlen : table.length = p)
    (hpos : 0 < skip.toNat) (hskip : skip.toNat < p) (hempty : emptyPlace ∈ table)
    {start : UInt32} (hstart : start.toNat < p) :
    ∃ pos, (∀ fuel ≥ p, probeEmpty table skip (UInt32.ofNat p) fuel start = some pos) ∧
      table[pos.toNat]? = some emptyPlace := by
  obtain ⟨t, ht, hget⟩ := mem_iff_getElem.mp hempty
  obtain ⟨k, hk, hmeet⟩ := Rotation.exists_step hp hpos hskip start.toNat (hlen ▸ ht)
  obtain ⟨pos, hprobe, hat⟩ := probeEmpty_of_step hlt hlen hskip hstart
    (show table[(start.toNat + k * skip.toNat) % p]? = some emptyPlace by
      rw [hmeet, List.getElem?_eq_getElem ht, hget])
  exact ⟨pos, fun fuel hfuel => hprobe fuel (by omega), hat⟩

theorem count_set_emptyPlace {i : Nat} (hat : table[i]? = some emptyPlace) {v : UInt32}
    (hv : v ≠ emptyPlace) (w : UInt32) :
    (table.set i v).count w + (if emptyPlace = w then 1 else 0) =
      table.count w + if v = w then 1 else 0 := by
  obtain ⟨hi, hget⟩ := List.getElem?_eq_some_iff.mp hat
  have hmem : 0 < table.count emptyPlace := count_pos_iff.mpr (List.mem_of_getElem? hat)
  rw [count_set hi, hget]
  by_cases hw : emptyPlace = w
  · subst hw
    simp only [beq_self_eq_true, if_true, beq_iff_eq, if_neg hv]
    omega
  · simp [hw]

end Probing

section Filling

variable {p n t : Nat} {skips : List UInt32} {st : MaglevFill}

structure MaglevFill.At (p n t : Nat) (st : MaglevFill) : Prop where
  length_table : st.table.length = p
  length_next : st.next.length = n
  next_lt : ∀ pos ∈ st.next, pos.toNat < p
  filled : st.filled = t
  empty : st.table.count emptyPlace + t = p
  shared : ∀ i < n, st.table.count (UInt32.ofNat i) = Rotation.share n t i
  backend : ∀ v ∈ st.table, v = emptyPlace ∨ v.toNat < n

structure ProbeSteps (p n : Nat) (skips : List UInt32) : Prop where
  prime : p.Prime
  size : p < 2 ^ 31
  few : n < 2 ^ 32 - 1
  length : skips.length = n
  pos : ∀ skip ∈ skips, 0 < skip.toNat
  lt : ∀ skip ∈ skips, skip.toNat < p

theorem toNat_backend (hn : n < 2 ^ 32 - 1) {i : Nat} (hi : i < n) : (UInt32.ofNat i).toNat = i :=
  UInt32.toNat_ofNat_of_lt' (Nat.lt_of_lt_of_le hi (Nat.le_of_lt (Nat.lt_of_lt_of_le hn (by decide))))

theorem backend_ne_emptyPlace (hn : n < 2 ^ 32 - 1) {i : Nat} (hi : i < n) :
    UInt32.ofNat i ≠ emptyPlace := by
  intro h
  have hnat := congrArg UInt32.toNat h
  rw [toNat_backend hn hi] at hnat
  have hlast : emptyPlace.toNat = 2 ^ 32 - 1 := rfl
  omega

theorem MaglevFill.At.take (h : st.At p n t) (hs : ProbeSteps p n skips) (ht : t < p) {i : Nat}
    (hi : i < n) (hturn : t % n = i) :
    ∃ st' : MaglevFill, (∀ fuel ≥ p, st.take skips (UInt32.ofNat p) fuel i = some st') ∧
      st'.At p n (t + 1) := by
  obtain ⟨start, hnext⟩ : ∃ x, st.next[i]? = some x :=
    ⟨_, List.getElem?_eq_getElem (h.length_next.symm ▸ hi)⟩
  obtain ⟨skip, hskip⟩ : ∃ x, skips[i]? = some x :=
    ⟨_, List.getElem?_eq_getElem (hs.length.symm ▸ hi)⟩
  have hempty : emptyPlace ∈ st.table := count_pos_iff.mp (by have := h.empty; omega)
  obtain ⟨pos, hprobe, hat⟩ := probeEmpty_spec hs.prime hs.size h.length_table
    (hs.pos _ (List.mem_of_getElem? hskip)) (hs.lt _ (List.mem_of_getElem? hskip)) hempty
    (h.next_lt _ (List.mem_of_getElem? hnext))
  have hpos : pos.toNat < p := h.length_table ▸ (List.getElem?_eq_some_iff.mp hat).1
  have hne := backend_ne_emptyPlace hs.few hi
  refine ⟨⟨st.table.set pos.toNat (UInt32.ofNat i),
    st.next.set i ((pos + skip) % UInt32.ofNat p), st.filled + 1⟩, fun fuel hfuel => ?_, ?_⟩
  · simp only [MaglevFill.take, hnext, hskip, hprobe fuel hfuel, map_some]
  · refine ⟨?_, ?_, fun q hq => ?_, by rw [h.filled], ?_, fun j hj => ?_, fun v hv => ?_⟩
    · rw [length_set, h.length_table]
    · rw [length_set, h.length_next]
    · rcases mem_or_eq_of_mem_set hq with hq | rfl
      · exact h.next_lt q hq
      · rw [toNat_step hs.size hpos (hs.lt _ (List.mem_of_getElem? hskip))]
        exact Nat.mod_lt _ (by omega)
    · have hcount := count_set_emptyPlace hat hne emptyPlace
      rw [if_pos rfl, if_neg hne] at hcount
      have hold := h.empty
      dsimp only
      omega
    · have hcount := count_set_emptyPlace hat hne (UInt32.ofNat j)
      rw [if_neg (Ne.symm (backend_ne_emptyPlace hs.few hj)), Nat.add_zero, h.shared j hj] at hcount
      rw [hcount, Rotation.share_succ hj, hturn]
      by_cases hij : i = j
      · rw [if_pos (congrArg UInt32.ofNat hij), if_pos hij]
      · rw [if_neg fun heq => hij ?_, if_neg hij]
        rw [← toNat_backend hs.few hi, heq, toNat_backend hs.few hj]
    · rcases mem_or_eq_of_mem_set hv with hv | rfl
      · exact h.backend v hv
      · exact .inr (by rwa [toNat_backend hs.few hi])

/-- A pass from backend `i` on ends with a full table, or with the turn of the first backend. -/
theorem MaglevFill.At.pass (hs : ProbeSteps p n skips) {k i : Nat} (hk : i + k = n)
    (h : st.At p n t) (ht : t < p) (hturn : t % n = i % n) :
    ∃ (st' : MaglevFill) (t' : Nat),
      (∀ fuel ≥ p, st.pass skips (UInt32.ofNat p) p fuel (List.range' i k) = some st') ∧
      st'.At p n t' ∧ t' ≤ p ∧ (t' = p ∨ t' % n = 0 ∧ t' = t + k) := by
  induction k generalizing i t st with
  | zero =>
    rw [Nat.add_zero] at hk
    rw [hk, Nat.mod_self] at hturn
    exact ⟨st, t, fun _ _ => rfl, h, Nat.le_of_lt ht, .inr ⟨hturn, rfl⟩⟩
  | succ k ih =>
    have hi : i < n := by omega
    rw [Nat.mod_eq_of_lt hi] at hturn
    obtain ⟨st₁, htake, h₁⟩ := h.take hs ht hi hturn
    by_cases hfull : t + 1 < p
    · obtain ⟨st', t', hpass, h', hle, hend⟩ := ih (show i + 1 + k = n by omega) h₁ hfull
        (by rw [← Nat.mod_add_mod, hturn])
      refine ⟨st', t', fun fuel hfuel => ?_, h', hle, hend.imp_right fun hz => ⟨hz.1, by omega⟩⟩
      rw [range'_succ, MaglevFill.pass, htake fuel hfuel, bind_some,
        if_neg (by rw [h₁.filled]; omega), hpass fuel hfuel]
    · have hp : t + 1 = p := by omega
      refine ⟨st₁, p, fun fuel hfuel => ?_, hp ▸ h₁, Nat.le_refl p, .inl rfl⟩
      rw [range'_succ, MaglevFill.pass, htake fuel hfuel, bind_some, if_pos (by rw [h₁.filled]; omega)]

theorem MaglevFill.At.fill (hs : ProbeSteps p n skips) (hn : 0 < n) {d : Nat} (hd : p - t = d)
    (h : st.At p n t) (ht : t ≤ p) (hturn : t = p ∨ t % n = 0) :
    ∃ st' : MaglevFill, (∀ fuel ≥ p, ∀ rounds > d,
      st.fill skips (UInt32.ofNat p) p n fuel rounds = some st') ∧ st'.At p n p := by
  -- every pass fills at least one place
  induction d using Nat.strong_induction_on generalizing t st with
  | _ d ih =>
    by_cases hfull : t = p
    · subst hfull
      refine ⟨st, fun fuel _ rounds hrounds => ?_, h⟩
      obtain ⟨rounds, rfl⟩ : ∃ r, rounds = r + 1 := ⟨rounds - 1, by omega⟩
      rw [MaglevFill.fill, if_neg (by rw [h.filled]; omega)]
    · have hlt : t < p := by omega
      obtain ⟨st₁, t₁, hpass, h₁, hle, hend⟩ := h.pass hs (Nat.zero_add n) hlt
        (by rw [hturn.resolve_left hfull, Nat.zero_mod])
      have hless : p - t₁ < d := by omega
      obtain ⟨st', hfill, h'⟩ := ih (p - t₁) hless rfl h₁ hle (hend.imp_right And.left)
      refine ⟨st', fun fuel hfuel rounds hrounds => ?_, h'⟩
      obtain ⟨rounds, rfl⟩ : ∃ r, rounds = r + 1 := ⟨rounds - 1, by omega⟩
      rw [MaglevFill.fill, if_pos (by rw [h.filled]; exact hlt), range_eq_range',
        hpass fuel hfuel, bind_some, hfill fuel hfuel rounds (by omega)]

end Filling

/-- The table is generated, names backends only, and each of them as often as it had a turn. -/
theorem generateMaglevTable_correct (hash : String → UInt64) {p : Nat} (hp : p.Prime)
    (hlt : p < 2 ^ 31) {backends : List String} (hne : backends ≠ [])
    (hfew : backends.length < 2 ^ 32 - 1) :
    ∃ table : List UInt32,
      (∃ enough, ∀ fuel ≥ enough, generateMaglevTable hash fuel backends p = some table) ∧
      table.length = p ∧ (∀ v ∈ table, v.toNat < backends.length) ∧
      ∀ i < backends.length, table.count (UInt32.ofNat i) =
        p / backends.length + if i < p % backends.length then 1 else 0 := by
  have htwo := hp.two_le
  have hpos : 0 < backends.length := length_pos_iff.mpr hne
  have hsteps : ProbeSteps p backends.length
      (backends.map fun b => maglevSkip (hash b) (UInt64.ofNat p)) := by
    refine ⟨hp, hlt, hfew, length_map _, ?_, ?_⟩
    · simpa using fun b _ => (toNat_maglevSkip htwo hlt (hash b)).1
    · simpa using fun b _ => (toNat_maglevSkip htwo hlt (hash b)).2
  have hstart : MaglevFill.At p backends.length 0 ⟨List.replicate p emptyPlace,
      backends.map fun b => maglevOffset (hash b) (UInt64.ofNat p), 0⟩ := by
    refine ⟨length_replicate, length_map _, ?_, rfl, ?_, fun i hi => ?_, fun v hv => ?_⟩
    · simpa using fun b _ => toNat_maglevOffset (by omega) hlt (hash b)
    · exact count_replicate_self
    · rw [Rotation.share_zero, count_replicate]
      simp [Ne.symm (backend_ne_emptyPlace hfew hi)]
    · exact .inl (eq_of_mem_replicate hv)
  obtain ⟨st, hfill, hst⟩ := hstart.fill hsteps hpos (Nat.sub_zero p) (Nat.zero_le p)
    (.inr (Nat.zero_mod _))
  refine ⟨st.table, ⟨p + 1, fun fuel hfuel => ?_⟩, hst.length_table, fun v hv => ?_, hst.shared⟩
  · have hzero : ¬ ((p : Int) ≤ 0 ∨ (p : Int) > 4294967295) := by omega
    have hone : (p : Int) ≠ 1 := by omega
    rw [generateMaglevTable, if_neg (by omega), if_neg hzero, if_neg hone]
    simp only [Int.toNat_natCast, hfill fuel (by omega) fuel (by omega), map_some]
  · refine (hst.backend v hv).resolve_left fun hempty => ?_
    have hnone : st.table.count emptyPlace = 0 := by have := hst.empty; omega
    exact count_eq_zero.mp hnone (hempty ▸ hv)

/-- Three backends, two of them equal, in a table of seven places. -/
theorem generateMaglevTable_seven :
    ∃ table, (∃ enough, ∀ fuel ≥ enough, generateMaglevTable
        (fun b => UInt64.ofNat b.length) fuel ["a", "bb", "bb"] 7 = some table) ∧
      table.length = 7 ∧ (∀ v ∈ table, v.toNat < 3) ∧
      ∀ i < 3, table.count (UInt32.ofNat i) = 7 / 3 + if i < 7 % 3 then 1 else 0 :=
  generateMaglevTable_correct (fun b => UInt64.ofNat b.length) (by decide) (by decide)
    (cons_ne_nil _ _) (by decide)

end NovaNet
