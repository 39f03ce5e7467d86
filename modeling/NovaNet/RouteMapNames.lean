import NovaNet.Labels
import NovaNet.RoutingRendering

/-! The names of the route-maps. Two prefixes get two names, so that the commands for one do not
reach the route-map of another. -/

namespace NovaNet

open ErrorState FrrClient KeyedConfig List

def dashed (r : Char) : Char := if r = '/' ∨ r = ':' then '-' else r

theorem map_dashed_inj {xs ys : List Char} (hx : '-' ∉ xs ∧ '/' ∉ xs) (hy : '-' ∉ ys ∧ '/' ∉ ys)
    (h : xs.map dashed = ys.map dashed) : xs = ys := by
  have hundo : ∀ {l : List Char}, '-' ∉ l ∧ '/' ∉ l →
      (l.map dashed).map (fun r => if r = '-' then ':' else r) = l := by
    intro l hl
    rw [map_map]
    refine (map_congr_left fun r hr => ?_).trans (map_id l)
    have hdash : r ≠ '-' := fun heq => hl.1 (heq ▸ hr)
    have hslash : r ≠ '/' := fun heq => hl.2 (heq ▸ hr)
    by_cases hcolon : r = ':' <;> simp [dashed, hcolon, hdash, hslash]
  rw [← hundo hx, h, hundo hy]

/-- The length has digits only, so the last dash was the slash and the others were colons. -/
theorem routeMapName_inj {net net' : Net.IPNet}
    (h : routeMapName net.string = routeMapName net'.string) : net.string = net'.string := by
  have hchars : ∀ ip : Net.IP, '-' ∉ ip.chars ∧ '/' ∉ ip.chars := fun ip =>
    ⟨ip.not_mem_chars (by decide) (by decide) fun _ => Nat.digitChar_ne '-' (by decide),
      ip.chars_no_slash⟩
  have hdigits : ∀ n, '-' ∉ Nat.toDigits 10 n ∧ '/' ∉ Nat.toDigits 10 n := fun n =>
    ⟨Net.not_mem_toDigits (fun _ => Nat.digitChar_ne '-' (by decide)) (by decide) n,
      Net.not_mem_toDigits (fun _ => Nat.digitChar_ne '/' (by decide)) (by decide) n⟩
  have hlast : ∀ n, '-' ∉ ((Nat.toDigits 10 n).map dashed).reverse := by
    intro n hmem
    obtain ⟨r, hr, hdash⟩ := mem_map.mp (mem_reverse.mp hmem)
    have hcolon := Net.not_mem_toDigits (fun _ => Nat.digitChar_ne ':' (by decide))
      (by decide : 1 < 10) n
    have hslash := (hdigits n).2
    unfold dashed at hdash
    split_ifs at hdash with hsep
    · rcases hsep with rfl | rfl <;> contradiction
    · exact (hdigits n).1 (hdash ▸ hr)
  have hmap : net.string.toList.map dashed = net'.string.toList.map dashed := by
    have hlist := congrArg String.toList h
    simp only [routeMapName, String.toList_append, String.toList_ofList] at hlist
    exact append_cancel_left hlist
  dsimp only [Net.IPNet.string] at hmap ⊢
  have hrev := congrArg reverse hmap
  simp only [String.toList_ofList, map_append, map_cons, reverse_append, reverse_cons,
    append_assoc, singleton_append] at hrev
  obtain ⟨hlen, haddr⟩ := append_cons_inj (hlast _) (hlast _) hrev
  rw [map_dashed_inj (hchars _) (hchars _) (reverse_injective haddr),
    map_dashed_inj (hdigits _) (hdigits _) (reverse_injective hlen)]

/-- The commands for one route-map leave the lines of another as they are, in every state of FRR
and after a success as after an error. -/
theorem route_maps_apart {net net' : Net.IPNet} (hne : net.string ≠ net'.string) :
    routeMapName net.string ≠ routeMapName net'.string ∧
      ∀ (names : FrrNames) (f : FrrClient) (setCmds : List String) (i : FrrLine),
        i.object = .routeMap (routeMapName net'.string) →
        ∀ q ∈ [configureRouteMap (routeMapName net.string) setCmds,
            removeRouteMap (routeMapName net.string)],
          Outcome (send names q) f (fun f' => f'.running i = f.running i)
            fun f' => f'.running i = f.running i := by
  have hname : routeMapName net.string ≠ routeMapName net'.string :=
    fun h => hne (routeMapName_inj h)
  refine ⟨hname, fun names f setCmds i hi q hq => ?_⟩
  have hclear (c : FrrConfig) :
      clear (·.object = .routeMap (routeMapName net.string)) c i = c i :=
    if_neg fun h => hname (FrrObject.routeMap.inj (h.symm.trans hi))
  refine checked_outcome (fun _ => (runConfig_outcome names _ _ f).imp ?_ ?_) fun _ => rfl
  · rintro _ ⟨c, s, hrun, rfl⟩
    rcases List.mem_pair.mp hq with rfl | rfl
    · rw [configureRouteMap_runs] at hrun
      cases hrun
      refine (writeAll_of_unwritten (fun e he heq => ?_) _).trans (hclear _)
      have hobj := routeMapLines_object _ _ e he
      rw [heq, hi] at hobj
      exact hname (FrrObject.routeMap.inj hobj).symm
    · cases hrun
      exact hclear _
  · rintro _ ⟨-, s, rfl⟩
    rfl

theorem route_maps_apart_example :
    (⟨.v4 0x0a000000, 8⟩ : Net.IPNet).string ≠ (⟨.v6 0x0a, 128⟩ : Net.IPNet).string ∧
      routeMapName (⟨.v4 0x0a000000, 8⟩ : Net.IPNet).string ≠
        routeMapName (⟨.v6 0x0a, 128⟩ : Net.IPNet).string := by
  have hne : (⟨.v4 0x0a000000, 8⟩ : Net.IPNet).string ≠ (⟨.v6 0x0a, 128⟩ : Net.IPNet).string := by
    decide +kernel
  exact ⟨hne, (route_maps_apart hne).1⟩

end NovaNet
