import NovaNet.PodIpam

/-! Runs of calls to the allocator for pod addresses. The state of a run also records which
addresses callers hold, so that the bitmap can be compared with what was handed out. After a stop
of the agent only the files are left, and the allocator is built again from them. -/

namespace NovaNet

open IpAllocator Finset

def PodCidr.gateway (c : PodCidr) : Net.IP := indexToIP c.baseIP 1

/-- An address argument: a slice of 4 or 16 bytes, or the text that stands for a slice of
another length. -/
abbrev IPSlice := Except String Net.IP

/-- `write` and `removed` are the outcomes of the file operations. -/
inductive IpamCall where
  | allocate (write : Option String)
  | allocateSpecific (ip : IPSlice) (write : Option String)
  | release (ip : IPSlice) (removed : Bool)

/-- `held` are the addresses that were handed out and not released, in their 4-byte form if
they have one. -/
structure IpamNode where
  alloc : IpAllocator
  files : IpAllocator.Files
  held : Finset Net.IP

namespace IpamNode

def start (c : PodCidr) (stateDir : Bool) (files : IpAllocator.Files) : IpamNode where
  alloc := .newAllocatorWithStateDir c stateDir files
  files := files
  held := (newAllocatorWithStateDir c stateDir files).allocated.image Net.IP.normalize

def startText (podCIDR : String) (stateDir : Bool) (files : IpAllocator.Files) :
    Except IpamError IpamNode :=
  (PodCidr.parse podCIDR).map fun c => start c stateDir files

def outside (s : IpamNode) (text : String) : IpamError :=
  .sentinel .ipOutsideCIDR (text ++ " in " ++ s.alloc.cidr.net.string)

def call (s : IpamNode) : IpamCall → Except IpamError (Option Net.IP) × IpamNode
  | .allocate write =>
    match s.alloc.allocate write s.files with
    | (.ok ip, alloc, files) => (.ok (some ip), ⟨alloc, files, insert ip.normalize s.held⟩)
    | (.error e, alloc, files) => (.error e, ⟨alloc, files, s.held⟩)
  | .allocateSpecific (.error text) _ => (.error (s.outside text), s)
  | .allocateSpecific (.ok ip) write =>
    match s.alloc.allocateSpecific write ip s.files with
    | (.ok _, alloc, files) => (.ok none, ⟨alloc, files, insert ip.normalize s.held⟩)
    | (.error e, alloc, files) => (.error e, ⟨alloc, files, s.held⟩)
  | .release (.error text) _ => (.error (s.outside text), s)
  | .release (.ok ip) removed =>
    match s.alloc.release removed ip s.files with
    | (.ok _, alloc, files) => (.ok none, ⟨alloc, files, s.held.erase ip.normalize⟩)
    | (.error e, alloc, files) => (.error e, ⟨alloc, files, s.held⟩)

def after (s : IpamNode) (calls : List IpamCall) : IpamNode :=
  calls.foldl (fun s q => (s.call q).2) s

def addr (s : IpamNode) (idx : Nat) : Net.IP := indexToIP s.alloc.cidr.baseIP idx

def At (s : IpamNode) (ip : IPSlice) (idx : Nat) : Prop :=
  ∃ x, ip = .ok x ∧ (s.addr idx).normalize = x.normalize

/-- What a call has to answer in a state, as far as file writes succeed. -/
def Answers (s : IpamNode) : IpamCall → Except IpamError (Option Net.IP) → Prop
  | .allocate _, .ok ip => ∃ idx, idx < s.alloc.cidr.size ∧ s.alloc.bitmap.get idx = false ∧
      (∀ j, j < idx → s.alloc.bitmap.get j = true) ∧ ip = some (s.addr idx) ∧
      s.alloc.cidr.net.contains (s.addr idx) = true ∧ (s.addr idx).normalize ∉ s.held
  | .allocate _, .error _ => ∀ idx, idx < s.alloc.cidr.size → s.alloc.bitmap.get idx = true
  | .allocateSpecific ip _, .ok _ =>
      ∃ idx, idx < s.alloc.cidr.size ∧ s.At ip idx ∧ s.alloc.bitmap.get idx = false
  | .allocateSpecific ip _, .error _ =>
      ∀ idx, idx < s.alloc.cidr.size → s.At ip idx → s.alloc.bitmap.get idx = true
  | .release ip _, .ok _ => ∃ idx, idx < s.alloc.cidr.size ∧ s.At ip idx ∧
      s.alloc.bitmap.get idx = true ∧ idx ∉ s.alloc.cidr.reserved
  | .release ip _, .error _ => ∀ idx, idx < s.alloc.cidr.size → s.At ip idx →
      s.alloc.bitmap.get idx = true → idx ∈ s.alloc.cidr.reserved

/-- The address that a call hands out, in its 4-byte form if it has one. -/
def granted (s : IpamNode) : IpamCall → Option Net.IP
  | .allocate write =>
    match (s.call (.allocate write)).1 with
    | .ok (some ip) => some ip.normalize
    | _ => none
  | .allocateSpecific (.ok ip) write =>
    match (s.call (.allocateSpecific (.ok ip) write)).1 with
    | .ok _ => some ip.normalize
    | .error _ => none
  | _ => none

structure Tracks (s : IpamNode) : Prop where
  counted : s.alloc.Counted
  bits : ∀ idx, idx < s.alloc.cidr.size → (s.alloc.bitmap.get idx = true ↔
    idx ∈ s.alloc.cidr.reserved ∨ (s.addr idx).normalize ∈ s.held)
  held : ∀ ip ∈ s.held, ∃ idx, idx < s.alloc.cidr.size ∧ idx ∉ s.alloc.cidr.reserved ∧
    (s.addr idx).normalize = ip

end IpamNode

def IpamCall.Saved : IpamCall → Prop
  | .allocate write => write = none
  | .allocateSpecific _ write => write = none
  | .release _ _ => True

namespace IpamNode

variable {s s' : IpamNode} {q : IpamCall} {r : Except IpamError (Option Net.IP)} {idx : Nat}

structure Grants (s s' : IpamNode) (idx : Nat) : Prop where
  marks : IpAllocator.Marks s.alloc idx s.files s'.alloc s'.files
  held : s'.held = insert (s.addr idx).normalize s.held

structure Frees (s s' : IpamNode) (idx : Nat) (removed : Bool) : Prop where
  clears : IpAllocator.Clears s.alloc idx removed s.files s'.alloc s'.files
  held : s'.held = s.held.erase (s.addr idx).normalize

theorem Grants.eq (h : s.Grants s' idx) :
    s' = ⟨s.alloc.mark idx h.marks.lt, s'.files, insert (s.addr idx).normalize s.held⟩ := by
  rw [← h.marks.marked, ← h.held]

theorem Frees.eq {removed : Bool} (h : s.Frees s' idx removed) :
    s' = ⟨s.alloc.unmark idx h.clears.lt h.clears.not_reserved, s'.files,
      s.held.erase (s.addr idx).normalize⟩ := by
  rw [← h.clears.cleared, ← h.held]

theorem addr_eq_iff {j : Nat} (hj : j < s.alloc.cidr.size) (hlt : idx < s.alloc.cidr.size) :
    (s.addr j).normalize = (s.addr idx).normalize ↔ j = idx :=
  ⟨indexToIP_normalize_injective hj hlt, fun he => by rw [he]⟩

theorem Tracks.not_held (h : s.Tracks) (hlt : idx < s.alloc.cidr.size)
    (hclear : s.alloc.bitmap.get idx = false) : (s.addr idx).normalize ∉ s.held := by
  intro hmem
  have hset := (h.bits idx hlt).mpr (.inr hmem)
  simp [hclear] at hset

/-- A call changes nothing, sets one bit or clears one, and answers as it has to. -/
theorem call_cases (hs : s.Tracks) (h : s.call q = (r, s')) :
    (∃ e, r = .error e ∧ s' = s ∧ (q.Saved → s.Answers q r)) ∨
    (∃ idx ip, r = .ok ip ∧ s.Grants s' idx ∧ s.Answers q r) ∨
    ∃ idx ip removed, q = .release ip removed ∧ r = .ok none ∧ s.Frees s' idx removed ∧
      s.Answers q r := by
  cases q with
  | allocate write =>
    rcases ha : s.alloc.allocate write s.files with ⟨ra, alloc, files⟩
    simp only [call, ha] at h
    rcases allocate_cases ha with ⟨e, rfl, rfl, rfl, hfull⟩ | ⟨idx, hmarks, rfl, hleast⟩
    · cases h
      exact .inl ⟨e, rfl, rfl, hfull⟩
    · cases h
      have hin := (contains_iff_index s.alloc.cidr.isNetwork s.alloc.cidr.hostBits_le).mpr
        ⟨idx, hmarks.lt, rfl⟩
      exact .inr (.inl ⟨idx, _, rfl, ⟨hmarks, rfl⟩, idx, hmarks.lt, hmarks.clear, hleast, rfl, hin,
        hs.not_held hmarks.lt hmarks.clear⟩)
  | allocateSpecific ip write =>
    cases ip with
    | error text =>
      cases h
      refine .inl ⟨_, rfl, rfl, fun _ idx _ hat => ?_⟩
      obtain ⟨x, hx, -⟩ := hat
      cases hx
    | ok ip =>
      rcases ha : s.alloc.allocateSpecific write ip s.files with ⟨ra, alloc, files⟩
      simp only [call, ha] at h
      rcases allocateSpecific_cases ha with
        ⟨e, rfl, rfl, rfl, hset⟩ | ⟨idx, hmarks, rfl, hsame⟩
      · cases h
        refine .inl ⟨e, rfl, rfl, fun hsaved idx hlt hat => ?_⟩
        obtain ⟨x, ⟨⟩, hx⟩ := hat
        exact hset hsaved idx hlt hx
      · cases h
        refine .inr (.inl ⟨idx, _, rfl, ⟨hmarks, ?_⟩, idx, hmarks.lt, ⟨ip, rfl, hsame⟩, hmarks.clear⟩)
        show insert ip.normalize s.held = _
        rw [← hsame]
        rfl
  | release ip removed =>
    cases ip with
    | error text =>
      cases h
      refine .inl ⟨_, rfl, rfl, fun _ idx _ hat => ?_⟩
      obtain ⟨x, hx, -⟩ := hat
      cases hx
    | ok ip =>
      rcases ha : s.alloc.release removed ip s.files with ⟨ra, alloc, files⟩
      simp only [call, ha] at h
      rcases release_cases ha with ⟨e, rfl, rfl, rfl, hres⟩ | ⟨idx, hclears, rfl, hsame⟩
      · cases h
        refine .inl ⟨e, rfl, rfl, fun _ idx hlt hat hset => ?_⟩
        obtain ⟨x, ⟨⟩, hx⟩ := hat
        exact hres idx hlt hx hset
      · cases h
        refine .inr (.inr ⟨idx, _, removed, rfl, rfl, ⟨hclears, ?_⟩, idx, hclears.lt,
          ⟨ip, rfl, hsame⟩, hclears.set, hclears.not_reserved⟩)
        show s.held.erase ip.normalize = _
        rw [← hsame]
        rfl

theorem tracks_start (c : PodCidr) (stateDir : Bool) (files : IpAllocator.Files) :
    (start c stateDir files).Tracks where
  counted := counted_new c stateDir files
  bits := by
    intro idx hlt
    constructor
    · intro hset
      by_cases hres : idx ∈ (start c stateDir files).alloc.cidr.reserved
      · exact .inl hres
      · refine .inr (mem_image_of_mem _ ?_)
        exact mem_allocated.mpr ⟨idx, hlt, hset, hres, rfl⟩
    · rintro (hres | hmem)
      · exact (start c stateDir files).alloc.reserved_set idx hres
      · obtain ⟨ip, hip, hsame⟩ := mem_image.mp hmem
        obtain ⟨idx', hlt', hset, -, rfl⟩ := mem_allocated.mp hip
        rwa [← indexToIP_normalize_injective hlt' hlt hsame]
  held := by
    intro ip hip
    obtain ⟨x, hx, rfl⟩ := mem_image.mp hip
    obtain ⟨idx, hlt, -, hres, rfl⟩ := mem_allocated.mp hx
    exact ⟨idx, hlt, hres, rfl⟩

theorem Tracks.grants (h : s.Tracks) (hg : s.Grants s' idx) : s'.Tracks := by
  have hlt := hg.marks.lt
  have hclear := hg.marks.clear
  have hres := hg.marks.not_reserved
  rw [hg.eq]
  refine ⟨h.counted.mark hlt hclear, fun j hj => ?_, fun ip hip => ?_⟩
  · have hold := h.bits j hj
    have hsame := addr_eq_iff (s := s) hj hlt
    show (s.alloc.mark idx hlt).bitmap.get j = true ↔ j ∈ s.alloc.cidr.reserved ∨
      (s.addr j).normalize ∈ insert (s.addr idx).normalize s.held
    rw [get_mark, Bool.or_eq_true, decide_eq_true_iff, hold, mem_insert, hsame, or_assoc]
    exact or_congr Iff.rfl Or.comm
  · rcases mem_insert.mp hip with rfl | hold
    · exact ⟨idx, hlt, hres, rfl⟩
    · exact h.held ip hold

theorem Tracks.frees {removed : Bool} (h : s.Tracks) (hf : s.Frees s' idx removed) : s'.Tracks := by
  have hlt := hf.clears.lt
  have hres := hf.clears.not_reserved
  have hset := hf.clears.set
  rw [hf.eq]
  refine ⟨h.counted.unmark hlt hres hset, fun j hj => ?_, fun ip hip => ?_⟩
  · have hold := h.bits j hj
    have hsame : (s.addr j).normalize ≠ (s.addr idx).normalize ↔ j ≠ idx := (addr_eq_iff hj hlt).not
    show (s.alloc.unmark idx hlt hres).bitmap.get j = true ↔ j ∈ s.alloc.cidr.reserved ∨
      (s.addr j).normalize ∈ s.held.erase (s.addr idx).normalize
    rw [get_unmark, Bool.and_eq_true, decide_eq_true_iff, hold, mem_erase, hsame]
    constructor
    · rintro ⟨hr | hmem, hne⟩
      · exact .inl hr
      · exact .inr ⟨hne, hmem⟩
    · rintro (hr | ⟨hne, hmem⟩)
      · exact ⟨.inl hr, fun he => hres (he ▸ hr)⟩
      · exact ⟨.inr hmem, hne⟩
  · exact h.held ip (mem_of_mem_erase hip)

theorem Tracks.call_keeps {P : IpamNode → Prop} (h : s.Tracks) (q : IpamCall) (hsame : P s)
    (hgrants : ∀ {idx s'}, s.Grants s' idx → P s')
    (hfrees : ∀ {idx ip removed s'}, q = .release ip removed → s.Frees s' idx removed → P s') :
    P (s.call q).2 := by
  rcases call_cases h (show s.call q = ((s.call q).1, (s.call q).2) from rfl) with
    ⟨e, -, hs, -⟩ | ⟨idx, ip, -, hg, -⟩ | ⟨idx, ip, removed, hq, -, hf, -⟩
  · rwa [hs]
  · exact hgrants hg
  · exact hfrees hq hf

theorem Tracks.call (h : s.Tracks) (q : IpamCall) : (s.call q).2.Tracks :=
  h.call_keeps q h (fun hg => h.grants hg) fun _ hf => h.frees hf

theorem cidr_call (h : s.Tracks) (q : IpamCall) : (s.call q).2.alloc.cidr = s.alloc.cidr :=
  h.call_keeps (P := fun s' => s'.alloc.cidr = s.alloc.cidr) q rfl (fun hg => by rw [hg.eq]; rfl)
    fun _ hf => by rw [hf.eq]; rfl

theorem cidr_after (h : s.Tracks) (calls : List IpamCall) :
    (s.after calls).alloc.cidr = s.alloc.cidr := by
  induction calls generalizing s with
  | nil => rfl
  | cons q calls ih => exact (ih (h.call q)).trans (cidr_call h q)

theorem Tracks.after (h : s.Tracks) (calls : List IpamCall) : (s.after calls).Tracks := by
  induction calls generalizing s with
  | nil => exact h
  | cons q calls ih => exact ih (h.call q)

structure CallCorrect (s : IpamNode) (q : IpamCall) : Prop where
  used : (s.call q).2.alloc.used = (s.call q).2.alloc.setBits.card
  reserved : ∀ i ∈ s.alloc.cidr.reserved, (s.call q).2.alloc.bitmap.get i = true
  bits : ∀ idx, idx < s.alloc.cidr.size → ((s.call q).2.alloc.bitmap.get idx = true ↔
    idx ∈ s.alloc.cidr.reserved ∨ (s.addr idx).normalize ∈ (s.call q).2.held)
  answer : s.Answers q (s.call q).1
  error : ∀ e, (s.call q).1 = .error e → (s.call q).2.alloc.bitmap = s.alloc.bitmap ∧
    (s.call q).2.alloc.used = s.alloc.used

/-- After any calls, the next one is correct. -/
theorem pod_ipam_correct {podCIDR : String} {stateDir : Bool} {files : IpAllocator.Files}
    {s₀ : IpamNode} (hstart : startText podCIDR stateDir files = .ok s₀) (calls : List IpamCall)
    (q : IpamCall) (hsaved : ∀ x ∈ q :: calls, x.Saved) : (s₀.after calls).CallCorrect q := by
  obtain ⟨c, rfl⟩ : ∃ c, start c stateDir files = s₀ := by
    unfold startText at hstart
    cases hc : PodCidr.parse podCIDR with
    | error err => simp [hc, Except.map] at hstart
    | ok c => exact ⟨c, by simpa [hc, Except.map] using hstart⟩
  have htracks := (tracks_start c stateDir files).after calls
  have hq : q.Saved := hsaved q List.mem_cons_self
  generalize (start c stateDir files).after calls = s at htracks
  have hcases := call_cases htracks (show s.call q = ((s.call q).1, (s.call q).2) from rfl)
  have hbits := (htracks.call q).bits
  simp only [addr, cidr_call htracks q] at hbits
  refine ⟨(htracks.call q).counted, ?_, hbits, ?_, ?_⟩
  · intro i hi
    rcases hcases with ⟨e, -, hs, -⟩ | ⟨idx, ip, -, hg, -⟩ | ⟨idx, ip, removed, -, -, hf, -⟩
    · rw [hs]
      exact s.alloc.reserved_set i hi
    · rw [hg.marks.marked, get_mark, s.alloc.reserved_set i hi, Bool.true_or]
    · rw [hf.clears.cleared]
      exact (s.alloc.unmark idx hf.clears.lt hf.clears.not_reserved).reserved_set i hi
  · rcases hcases with ⟨e, -, -, hanswer⟩ | ⟨idx, ip, -, -, hanswer⟩ |
      ⟨idx, ip, removed, -, -, -, hanswer⟩
    · exact hanswer hq
    · exact hanswer
    · exact hanswer
  · intro e he
    rcases hcases with ⟨e', -, hs, -⟩ | ⟨idx, ip, hr, -, -⟩ | ⟨idx, ip, removed, -, hr, -, -⟩
    · rw [hs]
      exact ⟨rfl, rfl⟩
    · simp [he] at hr
    · simp [he] at hr

def smallCidr : PodCidr := ⟨⟨.v4 0x0a000000, 30⟩, ⟨by decide, by decide⟩, by decide, by decide⟩

theorem pod_ipam_correct_example : ∃ s, startText "10.0.0.0/30" false [] = .ok s ∧
    (s.after [.allocate none]).CallCorrect (.release (.ok (.v4 0x0a000002)) true) :=
  have hstart : startText "10.0.0.0/30" false [] = .ok (start smallCidr false []) := rfl
  ⟨_, hstart, pod_ipam_correct hstart [.allocate none] _ (by simp [IpamCall.Saved])⟩

theorem exists_free_of_granted (h : s.Tracks) {ip : Net.IP} (hg : s.granted q = some ip) :
    ∃ idx, idx < s.alloc.cidr.size ∧ s.alloc.bitmap.get idx = false ∧ (s.addr idx).normalize = ip := by
  cases q with
  | allocate write =>
    rcases hq : s.call (.allocate write) with ⟨r, s'⟩
    simp only [granted, hq] at hg
    rcases call_cases h hq with ⟨e, rfl, -⟩ | ⟨_, x, rfl, -, idx, hlt, hfree, -, rfl, -⟩ |
      ⟨_, _, _, ⟨⟩, -⟩
    · cases hg
    · exact ⟨idx, hlt, hfree, Option.some.inj hg⟩
  | allocateSpecific x write =>
    cases x with
    | error text => cases hg
    | ok x =>
      rcases hq : s.call (.allocateSpecific (.ok x) write) with ⟨r, s'⟩
      simp only [granted, hq] at hg
      rcases call_cases h hq with ⟨e, rfl, -⟩ | ⟨_, y, rfl, -, idx, hlt, hat, hfree⟩ | ⟨_, _, _, ⟨⟩, -⟩
      · cases hg
      · obtain ⟨_, ⟨⟩, hsame⟩ := hat
        exact ⟨idx, hlt, hfree, hsame.trans (Option.some.inj hg)⟩
  | release x removed => cases hg

theorem granted_of_free (h : s.Tracks) (hlt : idx < s.alloc.cidr.size)
    (hfree : s.alloc.bitmap.get idx = false) :
    s.granted (.allocateSpecific (.ok (s.addr idx)) none) = some (s.addr idx).normalize := by
  rcases hq : s.call (.allocateSpecific (.ok (s.addr idx)) none) with ⟨r, s'⟩
  rcases call_cases h hq with ⟨e, rfl, -, hfull⟩ | ⟨_, y, rfl, -⟩ | ⟨_, _, _, ⟨⟩, -⟩
  · have hset := hfull rfl idx hlt ⟨_, rfl, rfl⟩
    simp [hfree] at hset
  · simp only [granted, hq]

/-- The gateway of an IPv4 network is reserved, that of an IPv6 network is handed out like any
other address. -/
theorem gateway_never_granted_iff (c : PodCidr) :
    (∀ (calls : List IpamCall) (q : IpamCall),
      ((start c false []).after calls).granted q ≠ some c.gateway.normalize) ↔
    c.isIPv4 = true := by
  have hsize : 1 < c.size := by
    have hmin := c.minSize_le
    unfold minSize at hmin
    split at hmin <;> exact Nat.lt_of_lt_of_le (by decide) hmin
  have hstart := tracks_start c false []
  constructor
  · intro hnever
    by_contra h6
    have hfree : (start c false []).alloc.bitmap.get 1 = false := by
      show (reserve c false).bitmap.get 1 = false
      rw [get_reserve, PodCidr.reserved, if_neg h6]
      rfl
    exact hnever [] _ (granted_of_free hstart hsize hfree)
  · intro h4 calls q hg
    have hcidr : ((start c false []).after calls).alloc.cidr = c := cidr_after hstart calls
    obtain ⟨idx, hlt, hfree, hsame⟩ := exists_free_of_granted (hstart.after calls) hg
    generalize (start c false []).after calls = s at *
    subst hcidr
    obtain rfl := (addr_eq_iff hlt hsize).mp hsame
    have hgateway : 1 ∈ s.alloc.cidr.reserved := by
      rw [PodCidr.reserved, if_pos h4]
      simp
    simp [s.alloc.reserved_set 1 hgateway] at hfree

def smallCidr6 : PodCidr := ⟨⟨.v6 0x20010db8000000000000000000000000, 120⟩,
  ⟨by decide, by decide⟩, by decide, by decide⟩

theorem gateway_granted :
    (start smallCidr6 false []).granted (.allocate none) = some smallCidr6.gateway.normalize := by
  decide +kernel

end IpamNode

def IpamCall.Removed : IpamCall → Prop
  | .release _ removed => removed = true
  | _ => True

namespace IpamNode

def rebuilt (s : IpamNode) : IpAllocator :=
  .newAllocatorWithStateDir s.alloc.cidr true s.files

structure Kept (s : IpamNode) : Prop where
  dir : s.alloc.stateDir = true
  files : ∀ idx, idx < s.alloc.cidr.size → (s.addr idx).normalize ∈ s.held →
    (s.addr idx).string ∈ s.files

def NoStale (s : IpamNode) : Prop :=
  ∀ name ∈ s.files, ∃ idx, idx < s.alloc.cidr.size ∧ (s.addr idx).normalize ∈ s.held ∧
    (s.addr idx).string = name

variable {s s' : IpamNode} {idx : Nat} {removed : Bool}

theorem fileIndex_addr (hlt : idx < s.alloc.cidr.size) :
    fileIndex s.alloc.cidr (s.addr idx).string = some ⟨idx, hlt⟩ := by
  unfold fileIndex
  rw [Net.parseIp_string]
  dsimp only
  rcases s.alloc.cidr.indexOf_cases (s.addr idx).normalize with
    ⟨idx', hlt', hplace, hsame⟩ | ⟨e, -, hnone⟩
  · rw [Net.normalize_normalize] at hsame
    obtain rfl : idx' = idx := (addr_eq_iff hlt' hlt).mp hsame
    rw [hplace]
    rfl
  · exact absurd (Net.normalize_normalize _).symm (hnone idx hlt)

theorem get_rebuilt (s : IpamNode) (idx : Nat) : s.rebuilt.bitmap.get idx = true ↔
    idx ∈ s.alloc.cidr.reserved ∨ ∃ name ∈ s.files,
      (fileIndex s.alloc.cidr name).map Subtype.val = some idx := by
  have hload := get_loadState s.files (.reserve s.alloc.cidr true) idx
  rwa [get_reserve, decide_eq_true_iff] at hload

theorem kept_start (c : PodCidr) : (start c true []).Kept := by
  have hnone : (start c true []).held = ∅ := by
    show (newAllocatorWithStateDir c true []).allocated.image _ = ∅
    rw [allocated_new c true [] (by simp), image_empty]
  refine ⟨rfl, fun idx _ hmem => ?_⟩
  rw [hnone] at hmem
  simp at hmem

theorem noStale_start (c : PodCidr) : (start c true []).NoStale := by
  intro name hname
  cases hname

theorem Kept.grants (h : s.Kept) (hg : s.Grants s' idx) : s'.Kept := by
  have hlt := hg.marks.lt
  have hfiles := hg.marks.files
  rw [hg.eq]
  refine ⟨h.dir, fun j hj hmem => (hfiles _).mpr ?_⟩
  rcases mem_insert.mp hmem with hsame | hold
  · exact .inr ⟨h.dir, by rw [(addr_eq_iff (s := s) hj hlt).mp hsame]; rfl⟩
  · exact .inl (h.files j hj hold)

theorem Kept.frees (h : s.Kept) (hf : s.Frees s' idx removed) : s'.Kept := by
  have hfiles := hf.clears.files
  rw [hf.eq]
  refine ⟨h.dir, fun j hj hmem => (hfiles _).mpr ?_⟩
  obtain ⟨hne, hold⟩ := mem_erase.mp hmem
  exact ⟨h.files j hj hold, fun _ _ hname => hne (Net.string_eq_iff.mp hname)⟩

theorem NoStale.grants (h : s.NoStale) (hg : s.Grants s' idx) : s'.NoStale := by
  have hlt := hg.marks.lt
  have hfiles := hg.marks.files
  rw [hg.eq]
  intro name hname
  rcases (hfiles name).mp hname with hold | ⟨-, hnew⟩
  · obtain ⟨j, hj, hmem, hname⟩ := h name hold
    exact ⟨j, hj, mem_insert_of_mem hmem, hname⟩
  · exact ⟨idx, hlt, mem_insert_self _ _, hnew.symm⟩

theorem NoStale.frees (h : s.NoStale) (hdir : s.alloc.stateDir = true)
    (hf : s.Frees s' idx true) : s'.NoStale := by
  have hfiles := hf.clears.files
  rw [hf.eq]
  intro name hname
  obtain ⟨hold, hkeep⟩ := (hfiles name).mp hname
  obtain ⟨j, hj, hmem, rfl⟩ := h name hold
  refine ⟨j, hj, mem_erase.mpr ⟨fun hsame => hkeep hdir rfl ?_, hmem⟩, rfl⟩
  exact Net.string_eq_iff.mpr hsame

theorem Kept.call (h : s.Kept) (ht : s.Tracks) (q : IpamCall) : (s.call q).2.Kept :=
  ht.call_keeps q h (fun hg => h.grants hg) fun _ hf => h.frees hf

theorem NoStale.call {q : IpamCall} (h : s.NoStale) (hk : s.Kept) (ht : s.Tracks)
    (hq : q.Removed) : (s.call q).2.NoStale := by
  refine ht.call_keeps q h (fun hg => h.grants hg) fun hrel hf => ?_
  subst hrel
  exact h.frees hk.dir (hq ▸ hf)

theorem Kept.after (h : s.Kept) (ht : s.Tracks) (calls : List IpamCall) : (s.after calls).Kept := by
  induction calls generalizing s with
  | nil => exact h
  | cons q calls ih => exact ih (h.call ht q) (ht.call q)

theorem NoStale.after {calls : List IpamCall} (h : s.NoStale) (hk : s.Kept) (ht : s.Tracks)
    (hcalls : ∀ q ∈ calls, q.Removed) : (s.after calls).NoStale := by
  induction calls generalizing s with
  | nil => exact h
  | cons q calls ih =>
    have hq := hcalls q List.mem_cons_self
    exact ih (h.call hk ht hq) (hk.call ht q) (ht.call q)
      fun q' hq' => hcalls q' (List.mem_cons_of_mem q hq')

theorem Kept.get_rebuilt (h : s.Kept) (hlt : idx < s.alloc.cidr.size)
    (hmem : (s.addr idx).normalize ∈ s.held) : s.rebuilt.bitmap.get idx = true := by
  rw [IpamNode.get_rebuilt]
  exact .inr ⟨_, h.files idx hlt hmem, by rw [fileIndex_addr hlt]; rfl⟩

theorem NoStale.mem_held (h : s.NoStale) (hres : idx ∉ s.alloc.cidr.reserved)
    (hset : s.rebuilt.bitmap.get idx = true) : (s.addr idx).normalize ∈ s.held := by
  rcases (IpamNode.get_rebuilt s idx).mp hset with hin | ⟨name, hname, hidx⟩
  · exact absurd hin hres
  · obtain ⟨j, hj, hmem, rfl⟩ := h name hname
    rw [fileIndex_addr hj, Option.map_some, Option.some.injEq] at hidx
    rwa [← hidx]

/-- Wherever the agent stops, the next start finds every held address allocated, and no
other one when every file that had to go could be removed. -/
theorem ipam_crash_safe (c : PodCidr) (calls : List IpamCall) :
    (∀ ip ∈ ((start c true []).after calls).held,
      ∃ idx, idx < c.size ∧ (indexToIP c.baseIP idx).normalize = ip ∧
        ((start c true []).after calls).rebuilt.bitmap.get idx = true) ∧
    ((∀ q ∈ calls, q.Removed) →
      ((start c true []).after calls).rebuilt.allocated.image Net.IP.normalize =
        ((start c true []).after calls).held) := by
  have htracks := (tracks_start c true []).after calls
  have hkept := (kept_start c).after (tracks_start c true []) calls
  have hstale : (∀ q ∈ calls, q.Removed) → ((start c true []).after calls).NoStale :=
    (noStale_start c).after (kept_start c) (tracks_start c true [])
  have hcidr : ((start c true []).after calls).alloc.cidr = c :=
    (cidr_after (tracks_start c true []) calls).trans (cidr_new c true [])
  generalize (start c true []).after calls = s at htracks hkept hstale hcidr
  subst hcidr
  refine ⟨fun ip hip => ?_, fun hremoved => ?_⟩
  · obtain ⟨idx, hlt, -, rfl⟩ := htracks.held ip hip
    exact ⟨idx, hlt, rfl, hkept.get_rebuilt hlt hip⟩
  · have hsame : s.rebuilt.cidr = s.alloc.cidr := cidr_new s.alloc.cidr true s.files
    ext ip
    rw [mem_image]
    constructor
    · rintro ⟨x, hx, rfl⟩
      obtain ⟨idx, -, hset, hres, rfl⟩ := mem_allocated.mp hx
      rw [hsame] at hres ⊢
      exact (hstale hremoved).mem_held hres hset
    · intro hip
      obtain ⟨idx, hlt, hres, rfl⟩ := htracks.held ip hip
      refine ⟨s.addr idx, mem_allocated.mpr ⟨idx, ?_⟩, rfl⟩
      rw [hsame]
      exact ⟨hlt, hkept.get_rebuilt hlt hip, hres, rfl⟩

def smallCalls : List IpamCall :=
  [.allocate (some "no space left on device"), .allocate none, .release (.ok (.v4 0x0a000002)) true]

theorem ipam_crash_safe_example : (∀ q ∈ smallCalls, q.Removed) ∧
    ((start smallCidr true []).after smallCalls).rebuilt.allocated.image Net.IP.normalize =
      ((start smallCidr true []).after smallCalls).held := by
  have hremoved : ∀ q ∈ smallCalls, q.Removed := by simp [smallCalls, IpamCall.Removed]
  exact ⟨hremoved, (ipam_crash_safe smallCidr smallCalls).2 hremoved⟩

end IpamNode

end NovaNet
