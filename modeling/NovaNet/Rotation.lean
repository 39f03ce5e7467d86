import Mathlib.Algebra.Field.ZMod

/-! Going round a number of places: a step that is prime to their number reaches each of them,
and turns that are taken in order are shared out evenly. -/

namespace Rotation

open List

/-- Steps of one length around a prime number of places visit every place. -/
theorem exists_step {p s : Nat} (hp : p.Prime) (hpos : 0 < s) (hlt : s < p) (o : Nat) {t : Nat}
    (ht : t < p) : ∃ k < p, (o + k * s) % p = t := by
  have hfact : Fact p.Prime := ⟨hp⟩
  have hne : (s : ZMod p) ≠ 0 := by
    intro h
    rw [ZMod.natCast_eq_zero_iff] at h
    exact absurd (Nat.le_of_dvd hpos h) (Nat.not_le_of_lt hlt)
  refine ⟨(((t : ZMod p) - o) / s).val, ZMod.val_lt _, ?_⟩
  have hcast : ((o + (((t : ZMod p) - o) / s).val * s : Nat) : ZMod p) = (t : ZMod p) := by
    rw [Nat.cast_add, Nat.cast_mul, ZMod.natCast_val, ZMod.cast_id, div_mul_cancel₀ _ hne,
      add_sub_cancel]
  rwa [ZMod.natCast_eq_natCast_iff', Nat.mod_eq_of_lt ht] at hcast

def share (n t i : Nat) : Nat := t / n + if i < t % n then 1 else 0

theorem share_zero (n i : Nat) : share n 0 i = 0 := by simp [share]

theorem share_succ {n i : Nat} (hi : i < n) (t : Nat) :
    share n (t + 1) i = share n t i + if t % n = i then 1 else 0 := by
  have hmod := Nat.mod_lt t (Nat.lt_of_le_of_lt (Nat.zero_le i) hi)
  have hdiv := Nat.div_add_mod t n
  by_cases hwrap : t % n + 1 = n
  · have hturn : t + 1 = n * (t / n + 1) := by
      rw [Nat.mul_add, Nat.mul_one]
      omega
    have hnext : (t + 1) / n = t / n + 1 := by
      rw [hturn, Nat.mul_div_cancel_left _ (by omega)]
    have hzero : (t + 1) % n = 0 := by rw [hturn, Nat.mul_mod_right]
    rw [share, share, hnext, hzero]
    split_ifs <;> omega
  · have hturn : t + 1 = (t % n + 1) + n * (t / n) := by omega
    have hnext : (t + 1) / n = t / n := by
      rw [hturn, Nat.add_mul_div_left _ _ (by omega), Nat.div_eq_of_lt (by omega), Nat.zero_add]
    have hone : (t + 1) % n = t % n + 1 := by
      rw [hturn, Nat.add_mul_mod_self_left, Nat.mod_eq_of_lt (by omega)]
    rw [share, share, hnext, hone]
    split_ifs <;> omega

/-- A counter of `w` values is read modulo `n`. As many readings in a row meet each remainder
once exactly if the counter does not start anew on the way, or starts anew on a full round. -/
theorem perm_readings_iff {n w v : Nat} (hn : 0 < n) (hnw : n ≤ w) (hv : v < w) :
    ((List.range n).map fun j => (v + j) % w % n).Perm (List.range n) ↔ n ∣ w ∨ v + n ≤ w := by
  constructor
  · intro hperm
    by_contra hnot
    push Not at hnot
    obtain ⟨hndvd, hwrap⟩ := hnot
    have hinj := inj_on_of_nodup_map (hperm.nodup_iff.mpr nodup_range)
    have hr := Nat.mod_lt w hn
    have hdiv := Nat.div_add_mod w n
    -- after the start the remainders count from 0, before it they end at `w % n - 1`
    have hlate : ∀ x < n - (w - v), (v + (w - v + x)) % w % n = x := fun x hx => by
      rw [show v + (w - v + x) = x + w by omega, Nat.add_mod_right,
        Nat.mod_eq_of_lt (show x < w by omega), Nat.mod_eq_of_lt (by omega)]
    have hearly : ∀ k, k < w % n → k < w - v → (v + (w - v - 1 - k)) % w % n = w % n - 1 - k :=
      fun k hk hkv => by
        rw [show v + (w - v - 1 - k) = n * (w / n) + (w % n - 1 - k) by omega,
          Nat.mod_eq_of_lt (show n * (w / n) + (w % n - 1 - k) < w by omega), Nat.mul_add_mod,
          Nat.mod_eq_of_lt (by omega)]
    have hcollide : ∀ k, k < w % n → k < w - v → w % n - 1 - k < n - (w - v) → False := by
      intro k hk hkv hx
      have heq := hinj (List.mem_range.mpr (show w - v - 1 - k < n by omega))
        (List.mem_range.mpr (show w - v + (w % n - 1 - k) < n by omega))
        ((hearly k hk hkv).trans (hlate _ hx).symm)
      omega
    by_cases hlow : w % n - 1 < n - (w - v)
    · exact hcollide 0 (by omega) (by omega) (by omega)
    · exact hcollide (w % n - (n - (w - v))) (by omega) (by omega) (by omega)
  · intro h
    have hread : ∀ j < n, (v + j) % w % n = (v + j) % n := by
      intro j hj
      rcases h with hdvd | hle
      · exact Nat.mod_mod_of_dvd _ hdvd
      · rw [Nat.mod_eq_of_lt (show v + j < w by omega)]
    refine (subperm_of_subset ?_ ?_).perm_of_length_le (by simp)
    · refine List.Nodup.map_on (fun i hi j hj hij => ?_) nodup_range
      rw [List.mem_range] at hi hj
      rw [hread i hi, hread j hj] at hij
      exact Nat.ModEq.eq_of_lt_of_lt (Nat.ModEq.add_left_cancel' v hij) hi hj
    · intro x hx
      obtain ⟨j, -, rfl⟩ := List.mem_map.mp hx
      exact List.mem_range.mpr (Nat.mod_lt _ hn)

end Rotation
