import NovaNet.SlotOwnership

/-! The Maglev tables of the tracked services. They share out their allocator as long
as the table at offset 0 stays where it is. -/

namespace NovaNet

open FreeList

open FreeList (Block Shares IsFree)

namespace Watcher

variable {cfg : WatcherConfig} {w : Watcher} {svc : Service} {backends : List BackendInfo}
  {st : ServiceState} {r : Watcher × List DpRequest} {cap : Nat} {key : String}

theorem placeMaglev_cases {m : SlotAllocator} {alg : Algorithm} {off : Nat}
    {tableRequests : List DpRequest}
    (h : w.placeMaglev cfg svc backends = some (m, alg, off, tableRequests)) :
    (alg ≠ .maglev ∧ m = w.maglevAllocator ∧ (resolveAlgorithm cfg.defaultAlg = .maglev →
      alloc w.maglevAllocator maglevTableSize = none)) ∨
    (alg = .maglev ∧ alloc w.maglevAllocator maglevTableSize = some (off, m)) := by
  unfold placeMaglev at h
  by_cases hcfg : resolveAlgorithm cfg.defaultAlg = .maglev
  · rw [if_pos hcfg] at h
    cases ha : alloc w.maglevAllocator maglevTableSize with
    | none =>
      simp only [ha, Option.some.injEq, Prod.mk.injEq] at h
      obtain ⟨rfl, rfl, -⟩ := h
      exact .inl ⟨by decide, rfl, fun _ => rfl⟩
    | some p =>
      simp only [ha] at h
      cases hports : svc.ports with
      | nil => simp [hports] at h
      | cons port ports =>
        simp only [hports, Option.some.injEq, Prod.mk.injEq] at h
        obtain ⟨rfl, rfl, rfl, -⟩ := h
        exact .inr ⟨rfl, rfl⟩
  · rw [if_neg hcfg, Option.some.injEq, Prod.mk.injEq, Prod.mk.injEq] at h
    obtain ⟨rfl, rfl, -⟩ := h
    exact .inl ⟨hcfg, rfl, fun hm => absurd hm hcfg⟩

theorem Placed.maglevOwner (h : Placed cfg w svc backends st r) :
    r.1.maglevOwner = Function.update (w.release svc.key).maglevOwner svc.key
      (if st.algorithm = .maglev then some st.maglevBlock else none) := by
  funext k
  by_cases hk : k = svc.key <;> simp [Watcher.maglevOwner, h.lookup, lookup_release, hk]

def TableFreeable (w : Watcher) (key : String) : Prop :=
  ∀ st, w.services.lookup key = some st → st.algorithm = .maglev → st.maglevOffset ≠ 0

theorem maglev_release (h : Shares cap w.maglevAllocator w.maglevOwner)
    (hfree : w.TableFreeable key) :
    Shares cap (w.release key).maglevAllocator (w.release key).maglevOwner := by
  rw [maglevOwner_release]
  cases hk : w.services.lookup key with
  | none =>
    have halloc : (w.release key).maglevAllocator = w.maglevAllocator := by
      simp [release, hk, untrack]
    rw [halloc]
    exact h.drop (by simp [maglevOwner, hk])
  | some st =>
    by_cases halg : st.algorithm = .maglev
    · have hoff : 0 < st.maglevOffset := Nat.pos_of_ne_zero (hfree st hk halg)
      have halloc : (w.release key).maglevAllocator = free w.maglevAllocator st.maglevBlock := by
        simp [release, hk, untrack, freeSlots, halg, hoff]
      have howner : w.maglevOwner key = some st.maglevBlock := by simp [maglevOwner, hk, halg]
      rw [halloc]
      exact h.free howner (by simp [ServiceState.maglevBlock, maglevTableSize])
    · have halloc : (w.release key).maglevAllocator = w.maglevAllocator := by
        simp [release, hk, untrack, freeSlots, halg]
      rw [halloc]
      exact h.drop (by simp [maglevOwner, hk, halg])

theorem maglev_placed (h : Shares cap w.maglevAllocator w.maglevOwner)
    (hfree : w.TableFreeable svc.key) (hp : Placed cfg w svc backends st r) :
    Shares cap r.1.maglevAllocator r.1.maglevOwner := by
  have hreleased := maglev_release h hfree
  have hnone : (w.release svc.key).maglevOwner svc.key = none := by
    rw [maglevOwner_release, Function.update_self]
  obtain ⟨tableRequests, htable, -⟩ := hp.table
  rw [hp.maglevOwner]
  rcases placeMaglev_cases htable with ⟨halg, hm, -⟩ | ⟨halg, ha⟩
  · rw [if_neg halg, hm]
    exact hreleased.drop (by simp [hnone])
  · rw [if_pos halg]
    exact hreleased.alloc hnone ha

theorem Placed.no_room (hp : Placed cfg w svc backends st r)
    (h : Shares cap w.maglevAllocator w.maglevOwner) (hfree : w.TableFreeable svc.key)
    (hcfg : resolveAlgorithm cfg.defaultAlg = .maglev) (halg : st.algorithm ≠ .maglev) (off : Nat)
    (hoff : off + maglevTableSize ≤ cap) :
    ∃ k b i, r.1.maglevOwner k = some b ∧ b.Contains i ∧ Block.Contains ⟨off, maglevTableSize⟩ i := by
  have hreleased := maglev_release h hfree
  obtain ⟨tableRequests, htable, -⟩ := hp.table
  rcases placeMaglev_cases htable with ⟨-, -, hfull⟩ | ⟨halg', -⟩
  · by_contra hno
    push Not at hno
    -- then the whole run would be free, and first fit would have found it
    have hrun : ∀ i, Block.Contains ⟨off, maglevTableSize⟩ i →
        IsFree (w.release svc.key).maglevAllocator i := by
      intro i hi
      have hlt : i < cap := by
        have := hi.2
        simp only at this
        omega
      rcases (hreleased.cover i).mp hlt with hfree | ⟨k, b, hb, hc⟩
      · exact hfree
      · refine absurd hi (hno k b i ?_ hc)
        rw [hp.maglevOwner, if_neg halg]
        rw [maglevOwner_release] at hb ⊢
        rwa [Function.update_idem]
    obtain ⟨o', l', ha, -⟩ := exists_alloc_le hreleased.spaced (show 0 < maglevTableSize by decide) hrun
    simp [hfull hcfg] at ha
  · exact absurd halg' halg

end Watcher

open Watcher

def Watcher.MaglevConserved (w : Watcher) : Prop := Shares maglevSlots w.maglevAllocator w.maglevOwner

namespace ServiceWorld

variable {cfg : WatcherConfig} {o : IterOrder String} {s s' : ServiceWorld} {ev : ServiceEvent}
  {reqs : List DpRequest}

def KeepsFirstTable (s : ServiceWorld) (ev : ServiceEvent) : Prop :=
  ∀ c, (s.update ev).call ev = some c → s.watcher.TableFreeable c.svc.key

theorem maglevConserved_start : start.watcher.MaglevConserved := by
  have hnone : start.watcher.maglevOwner = fun _ => none := by
    funext k
    simp [start, newWatcher, maglevOwner]
  unfold Watcher.MaglevConserved
  rw [hnone]
  exact shares_new (by unfold maglevSlots; omega)

theorem maglevConserved_handle (h : s.watcher.MaglevConserved) (hkeeps : KeepsFirstTable s ev)
    (hstep : s.handle cfg o ev = some (s', reqs)) : s'.watcher.MaglevConserved := by
  rcases handle_cases hstep with ⟨-, rfl, -⟩ | ⟨c, r, hc, hr, rfl, rfl⟩
  · rwa [update_watcher]
  · rcases c.run_cases hr with hw | ⟨svc, st, rfl, hp⟩
    · change r.1.MaglevConserved
      rw [hw]
      exact maglev_release h (hkeeps c hc)
    · exact maglev_placed h (hkeeps _ hc) hp

theorem maglevConserved_of_run (h : Run cfg KeepsFirstTable start s) : s.watcher.MaglevConserved := by
  induction h with
  | refl => exact maglevConserved_start
  | tail _ hstep ih =>
    obtain ⟨ev, o, reqs, hkeeps, hh⟩ := hstep
    exact maglevConserved_handle ih hkeeps hh

end ServiceWorld

open ServiceWorld

theorem Watcher.MaglevConserved.all_free {w : Watcher} (h : w.MaglevConserved)
    (hnone : w.services = ∅) {i : Nat} (hi : i < maglevSlots) : IsFree w.maglevAllocator i := by
  rcases (h.cover i).mp hi with hfree | ⟨k, b, hb, -⟩
  · exact hfree
  · simp [maglevOwner, hnone] at hb

namespace ServiceWorld

/-- As long as no event gives up the table at offset 0, every slot is free or in one
tracked table, all slots come back with the last service, and a service goes without a
table only when there is no room for one. -/
theorem maglev_slots_conserved (cfg : WatcherConfig) {s : ServiceWorld}
    (hrun : Run cfg KeepsFirstTable start s) :
    s.watcher.MaglevConserved ∧
    (s.watcher.services = ∅ → ∀ i < maglevSlots, IsFree s.watcher.maglevAllocator i) ∧
    ∀ ev o s' reqs svc st, KeepsFirstTable s ev → s.handle cfg o ev = some (s', reqs) →
      (s.update ev).call ev = some (.reconcileService svc) →
      s'.watcher.services.lookup svc.key = some st →
      resolveAlgorithm cfg.defaultAlg = .maglev → st.algorithm ≠ .maglev →
      ∀ off, off + maglevTableSize ≤ maglevSlots →
        ∃ k b i, s'.watcher.maglevOwner k = some b ∧ b.Contains i ∧
          Block.Contains ⟨off, maglevTableSize⟩ i := by
  have hconserved := maglevConserved_of_run hrun
  refine ⟨hconserved, fun hnone i hi => hconserved.all_free hnone hi, ?_⟩
  intro ev o s' reqs svc st hkeeps hstep hcall htracked hcfg halg off hoff
  have hp := placed_of_tracked hstep hcall htracked
  exact hp.no_room hconserved (hkeeps (.reconcileService svc) hcall) hcfg halg off hoff

end ServiceWorld

section Example

def maglevConfig : WatcherConfig := ⟨"maglev", false, fun _ => []⟩

def comeAndGo : List ServiceEvent :=
  [.sliceSet (shopSlice [0x0af40005]), .serviceSet (shop twoPorts), .serviceDeleted (shop twoPorts)]

theorem comeAndGo_isSome : (start.handleAll maglevConfig .sorted comeAndGo).isSome = true := by
  decide +kernel

/-- The first service gets the table at offset 0, which stays lost when it goes. -/
theorem maglev_first_table_leaks :
    ∃ s, Run maglevConfig (fun _ _ => True) start s ∧
      s.watcher.services = ∅ ∧ ¬ IsFree s.watcher.maglevAllocator 0 := by
  obtain ⟨s, hs⟩ := Option.isSome_iff_exists.mp comeAndGo_isSome
  have hs' : s = Option.get _ comeAndGo_isSome := by simp [hs]
  refine ⟨s, run_handleAll hs, ?_, ?_⟩
  · rw [hs']
    decide +kernel
  · have halloc : s.watcher.maglevAllocator = [⟨65537, 983039⟩] := by
      rw [hs']
      decide +kernel
    rw [halloc]
    simp [isFree_cons, not_isFree_nil, Block.Contains]

theorem maglev_slots_conserved_example :
    ∃ s', Run maglevConfig KeepsFirstTable start s' ∧
      (s'.watcher.services.lookup (shop twoPorts).key).isSome = true ∧
      s'.watcher.MaglevConserved := by
  obtain ⟨st, s', reqs, hstep, htracked, -⟩ := placed_shop maglevConfig .sorted [0x0af40005]
    twoPorts (by decide) (by decide) (by decide)
  have huntracked : ∀ s : ServiceWorld, s.watcher = newWatcher → ∀ ev, KeepsFirstTable s ev := by
    intro s hs ev c _ st hst
    simp [hs, newWatcher] at hst
  have hrun : Run maglevConfig KeepsFirstTable start s' :=
    .tail (.single ⟨_, .sorted, _, huntracked _ rfl _, handle_shopSlice maglevConfig .sorted _⟩)
      ⟨_, .sorted, _, huntracked _ rfl _, hstep⟩
  refine ⟨s', hrun, ?_, (maglev_slots_conserved maglevConfig hrun).1⟩
  rw [htracked]
  rfl

end Example

end NovaNet
