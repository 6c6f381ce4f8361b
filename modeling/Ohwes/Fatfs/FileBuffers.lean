import Ohwes.Fatfs.WriteFile

/-! # The buffers of files and directories

Callers of `ReadFile` and `WriteFile` allocate `GetFileAllocSize` bytes. Here every access to such a
buffer is checked against its size, and one behind its end is a `fault`. -/

namespace Ohwes.Fatfs
open Library
set_option autoImplicit false

/-- `count` bytes of a buffer of `size` bytes are touched, from `start` on. -/
def access (size start count : Nat) : Call Unit :=
  if count = 0 ∨ start + count ≤ size then .ok () else .error .fault

theorem access_ok {size start count : Nat} (h : start + count ≤ size) :
    access size start count = .ok () := if_pos (Or.inr h)

theorem access_fault {size start count : Nat} (hpos : 0 < count) (h : size < start + count) :
    access size start count = .error .fault := if_neg (by omega)

namespace FatDisk
variable (d : FatDisk)

/-! ## The functions with a buffer of `size` bytes -/

def readFileInto (size steps : Nat) (e : DirEntry) : Call (Option (List Byte)) :=
  d.readFileWith (access size) steps e

def writeFileFrom (size steps : Nat) (e : DirEntry) (buf : Buffer) : Call (Bool × FatDisk) :=
  d.writeFileWith (access size) steps e buf

/-- The end of `Extract`, with what `ReadFile` left in the fresh buffer. -/
def extractOutput (junk : Buffer) (allocSize fileSize : Nat) (f : DirEntry) :
    Option (List Byte) → Call (Option (List Byte))
  | none => .ok none
  | some bytes =>
    if f.isDirectory then .ok none
    else do
      access allocSize 0 fileSize
      return some (slice (overlay junk 0 bytes) 0 fileSize)

/-- `Extract` once the entry has been found: the bytes of the output file, if it comes to that. -/
def extractFile (junk : Buffer) (steps : Nat) (f : DirEntry) : Call (Option (List Byte)) :=
  if f.isDeviceFile then .ok none
  else do
    let allocSize ← d.getFileAllocSize steps f
    let fileSize ← d.getFileSize steps f
    extractOutput junk allocSize fileSize f (← d.readFileInto allocSize steps f)

/-! ## They are the functions of the disk -/

theorem readLoopWith_ok {touch : Nat → Nat → Call Unit} {steps i c : Nat} {r : Option (List Byte)}
    (h : d.readLoopWith touch steps i c = .ok r) : d.readLoop steps c = .ok r := by
  induction steps generalizing i c r with
  | zero => exact h
  | succ steps ih =>
    rw [readLoopWith] at h
    rw [readLoop_succ]
    by_cases heoc : d.isClusterNumberEOC c = true
    · rwa [if_pos heoc] at h ⊢
    · rw [if_neg heoc] at h ⊢
      obtain ⟨bs, hread, h⟩ := bind_ok.mp h
      rw [hread, ok_bind]
      cases bs with
      | none => exact h
      | some bs =>
        obtain ⟨-, -, h⟩ := bind_ok.mp h
        obtain ⟨rest, hrest, h⟩ := bind_ok.mp h
        rw [ih hrest]
        exact h

/-- Where the buffer holds out, `ReadFile` reads what it reads. -/
theorem readFileInto_ok {size steps : Nat} {e : DirEntry} {r : Option (List Byte)}
    (h : d.readFileInto size steps e = .ok r) : d.readFile steps e = .ok r := by
  rw [readFileInto, readFileWith] at h
  rw [readFile_def]
  split at h
  · obtain ⟨-, -, h⟩ := bind_ok.mp h
    rw [if_pos ‹_›]
    exact h
  · rw [if_neg ‹_›]
    split at h
    · rwa [if_pos ‹_›]
    · rw [if_neg ‹_›]
      exact d.readLoopWith_ok h

end FatDisk

/-! ## Calls inside their buffers -/

def Contained {α : Type} (x : Call α) : Prop := x ≠ .error .fault

theorem contained_ok {α : Type} (r : α) : Contained (.ok r : Call α) := nofun

theorem contained_assert (c : Bool) : Contained (assert c) := by
  cases c
  · nofun
  · nofun

theorem Contained.bind {α β : Type} {x : Call α} {f : α → Call β} (hx : Contained x)
    (hf : ∀ r, x = .ok r → Contained (f r)) : Contained (x >>= f) := by
  cases x with
  | error e => exact fun h => hx (congrArg Except.error (Except.error.inj h))
  | ok r => exact hf r rfl

theorem call_bind_congr {α β : Type} {x : Call α} {f g : α → Call β}
    (h : ∀ r, x = .ok r → f r = g r) : x >>= f = x >>= g := by
  cases x with
  | error e => rfl
  | ok r => exact h r rfl

namespace FatDisk

theorem clusterInside_contained (d : FatDisk) (index : Nat) : Contained (d.clusterInside index) := by
  rw [clusterInside]
  split
  · exact contained_ok _
  · exact (contained_assert _).bind fun _ _ => contained_ok _

theorem readCluster_contained (d : FatDisk) (index : Nat) : Contained (d.readCluster index) :=
  (d.clusterInside_contained index).bind fun _ _ => contained_ok _

theorem writeCluster_contained (d : FatDisk) (index : Nat) (bs : List Byte) :
    Contained (d.writeCluster index bs) :=
  (d.clusterInside_contained index).bind fun _ _ => contained_ok _

end FatDisk

/-! ## Writing a directory -/

section Pass
variable {size fileSize newCount : Nat} {buf : Buffer} {i oldValue : Nat} {w : Writing}
  (hfile : fileSize < 4294967296) (hw : w.bytesWritten ≤ fileSize)
include hfile hw

/-- What a pass copies ends where the file does. -/
theorem copied_le (count : Nat) :
    w.bytesWritten + min (u32Sub fileSize w.bytesWritten) count ≤ fileSize := by
  rw [u32Sub_of_le hfile hw]
  omega

theorem writePassWith_access (hsize : fileSize ≤ size) :
    writePassWith (access size) fileSize newCount buf i oldValue w =
      writePass fileSize newCount buf i oldValue w := by
  have haccess := access_ok ((copied_le hfile hw w.disk.bpb.getClusterSize).trans hsize)
  rw [writePassWith, writePass_def]
  refine bind_congr fun _ => bind_congr fun old => ?_
  cases old with
  | none => rfl
  | some old =>
    dsimp only
    rewrite [haccess, ok_bind]
    refine bind_congr fun d' => ?_
    cases d' with
    | none => rfl
    | some d' => rfl

omit hfile hw in
theorem writePass_contained : Contained (writePass fileSize newCount buf i oldValue w) := by
  rw [writePass_def]
  refine (contained_assert _).bind fun _ _ => ?_
  refine (FatDisk.readCluster_contained _ _).bind fun old _ => ?_
  cases old with
  | none => exact contained_ok _
  | some old =>
    refine (FatDisk.writeCluster_contained _ _ _).bind fun d' _ => ?_
    cases d' with
    | none => exact contained_ok _
    | some d' => exact contained_ok _

theorem writePass_bytesWritten {ok : Bool} {w' : Writing}
    (h : writePass fileSize newCount buf i oldValue w = .ok (ok, w')) :
    w'.bytesWritten ≤ fileSize := by
  have hle := copied_le hfile hw w.disk.bpb.getClusterSize
  rw [writePass_def] at h
  obtain ⟨-, h⟩ := assert_bind_ok.mp h
  obtain ⟨old, -, h⟩ := bind_ok.mp h
  cases old with
  | none =>
    cases h
    exact hw
  | some old =>
    obtain ⟨d', -, h⟩ := bind_ok.mp h
    cases d' with
    | none =>
      cases h
      exact hw
    | some d' =>
      cases h
      exact (Nat.mod_le _ _).trans hle

end Pass

theorem writeLoop_contained (fileSize newCount : Nat) (buf : Buffer) (passes i : Nat) (w : Writing) :
    Contained (writeLoop fileSize newCount buf passes i w) := by
  induction passes generalizing i w with
  | zero => exact contained_ok _
  | succ passes ih =>
    rw [writeLoop_succ]
    split
    · exact ih _ _
    · refine writePass_contained.bind fun r _ => ?_
      obtain ⟨ok, w'⟩ := r
      cases ok
      · exact contained_ok _
      · exact ih _ _

theorem writeLoopWith_access {size fileSize : Nat} (newCount : Nat) (buf : Buffer)
    (hfile : fileSize < 4294967296) (hsize : fileSize ≤ size) (passes i : Nat) {w : Writing}
    (hw : w.bytesWritten ≤ fileSize) :
    writeLoopWith (access size) fileSize newCount buf passes i w =
      writeLoop fileSize newCount buf passes i w := by
  induction passes generalizing i w with
  | zero => rfl
  | succ passes ih =>
    rw [writeLoopWith, writeLoop_succ]
    by_cases hi : i ≥ newCount
    · rw [if_pos hi, if_pos hi]
      exact ih (i + 1) hw
    · rw [if_neg hi, if_neg hi, writePassWith_access hfile hw hsize]
      refine call_bind_congr fun r hpass => ?_
      obtain ⟨ok, w'⟩ := r
      cases ok with
      | false => rfl
      | true => exact ih (i + 1) (writePass_bytesWritten hfile hw hpass)

namespace FatDisk
variable {d : FatDisk}

theorem countLoop_contained (steps count c : Nat) : Contained (d.countLoop steps count c) := by
  induction steps generalizing count c with
  | zero => nofun
  | succ steps ih =>
    rw [countLoop]
    split
    · exact contained_ok _
    · exact ih _ _

theorem countClusters_contained (steps : Nat) (e : DirEntry) : Contained (d.countClusters steps e) := by
  rw [countClusters]
  split
  · exact contained_ok _
  · split
    · exact contained_ok _
    · exact countLoop_contained _ _ _

/-- A directory is written from a buffer of its size: nothing behind the end of it is read. -/
theorem writeFileFrom_directory {e : DirEntry} {n size steps : Nat} (hroot : e.isRoot = false)
    (hdir : e.isDirectory = true) (halloc : d.getFileAllocSize steps e = .ok n)
    (hn : n < 4294967296) (hsize : n ≤ size) (buf : Buffer) :
    d.writeFileFrom size steps e buf = d.writeFile steps e buf ∧
      Contained (d.writeFile steps e buf) := by
  have hget : d.getFileSize steps e = .ok n := by
    rw [getFileSize, if_pos hdir, halloc]
  rw [writeFileFrom, writeFileWith, writeFile_def, hroot, if_neg Bool.false_ne_true,
    if_neg Bool.false_ne_true]
  by_cases hok : refusesFile e = true
  · rw [if_pos hok, if_pos hok]
    exact ⟨rfl, contained_ok _⟩
  rw [if_neg hok, if_neg hok, hget, ok_bind, ok_bind]
  dsimp only
  constructor
  · refine bind_congr fun count => ?_
    split
    · rfl
    · rewrite [writeLoopWith_access _ buf hn hsize _ _ (Nat.zero_le _)]
      refine bind_congr fun r => ?_
      obtain ⟨ok, w⟩ := r
      cases ok
      · rfl
      · rfl
  · refine (countClusters_contained _ _).bind fun count _ => ?_
    split
    · exact contained_ok _
    · refine (writeLoop_contained _ _ _ _ _ _).bind fun r _ => ?_
      obtain ⟨ok, w⟩ := r
      cases ok
      · exact contained_ok _
      · exact contained_ok _

/-- Where the buffer holds out, `WriteFile` of a directory writes what it writes. -/
theorem writeFileFrom_ok {e : DirEntry} {n size steps : Nat} {buf : Buffer} {r : Bool × FatDisk}
    (hdir : e.isDirectory = true) (halloc : d.getFileAllocSize steps e = .ok n)
    (hn : n < 4294967296) (hsize : n ≤ size) (h : d.writeFileFrom size steps e buf = .ok r) :
    d.writeFile steps e buf = .ok r := by
  by_cases hroot : e.isRoot = true
  · rw [writeFileFrom, writeFileWith, if_pos hroot] at h
    obtain ⟨-, -, h⟩ := bind_ok.mp h
    rw [writeFile_def, if_pos hroot]
    exact h
  · rwa [← (writeFileFrom_directory (Bool.eq_false_iff.mpr hroot) hdir halloc hn hsize buf).1]

end FatDisk

/-! ## Reading along a chain -/

namespace FatDisk
variable (d : FatDisk)

/-- The bounds check and the assertion let the cluster through. -/
def Readable (c : Nat) : Prop := d.clusterInside c = .ok true

instance : DecidablePred d.Readable := fun _ => inferInstanceAs (Decidable (_ = _))

/-- Of the clusters to be read from the `i`-th on, one is reached that does not fit the buffer. -/
def Overruns (size : Nat) : Nat → List Nat → Prop
  | _, [] => False
  | i, c :: l => d.Readable c ∧
      (size < u32 (i * d.bpb.getClusterSize) + d.bpb.getClusterSize ∨ Overruns size (i + 1) l)

variable {d}

theorem readCluster_readable {c : Nat} (h : d.Readable c) :
    d.readCluster c = .ok (some (slice d.file (d.clusterAddr c) d.bpb.getClusterSize)) := by
  have h : d.clusterInside c = .ok true := h
  rw [readCluster, h]
  rfl

/-- A cluster that is not let through ends the call without data. -/
theorem readCluster_unreadable {c : Nat} (h : ¬ d.Readable c) {bs : List Byte} :
    d.readCluster c ≠ .ok (some bs) := by
  intro hread
  obtain ⟨b, hb, hr⟩ := bind_ok.mp hread
  cases b
  · cases hr
  · exact h hb

/-- What the loop of `ReadFile` comes to along a chain. -/
structure LoopResult (size i : Nat) (l : List Nat) (r : Call (Option (List Byte))) : Prop where
  fault : r = .error .fault ↔ d.Overruns size i l
  data : (∃ bs, r = .ok (some bs)) ↔ ¬ d.Overruns size i l ∧ ∀ c ∈ l, d.Readable c

theorem readLoopWith_eoc {touch : Nat → Nat → Call Unit} {steps i c : Nat} (h : d.Eoc c) :
    d.readLoopWith touch steps i c = .ok (some []) := by
  have h : d.isClusterNumberEOC c = true := h
  cases steps with
  | zero => rw [readLoopWith, if_pos h]
  | succ steps => rw [readLoopWith, if_pos h]

theorem not_data_error (e : Halt) : ¬ ∃ bs, (.error e : Call (Option (List Byte))) = .ok (some bs) := by
  rintro ⟨bs, h⟩
  cases h

theorem not_data_none : ¬ ∃ bs, (.ok none : Call (Option (List Byte))) = .ok (some bs) := by
  rintro ⟨bs, h⟩
  cases h

/-- A pass of the loop, and what is left of it. -/
theorem loopResult_cons {size steps i c : Nat} {l : List Nat} (hc : ¬ d.Eoc c)
    (h : LoopResult (d := d) size (i + 1) l (d.readLoopWith (access size) steps (i + 1) (d.getCluster c))) :
    LoopResult (d := d) size i (c :: l) (d.readLoopWith (access size) (steps + 1) i c) := by
  have hc : ¬ d.isClusterNumberEOC c = true := hc
  rw [readLoopWith, if_neg hc]
  by_cases hread : d.Readable c
  · rw [readCluster_readable hread, ok_bind]
    dsimp only
    by_cases hfits : size < u32 (i * d.bpb.getClusterSize) + d.bpb.getClusterSize
    · have hpos : 0 < d.bpb.getClusterSize := by
        by_contra hzero
        rw [Nat.eq_zero_of_not_pos hzero] at hfits
        exact absurd hfits (Nat.not_lt_zero _)
      rw [access_fault hpos hfits]
      exact ⟨iff_of_true rfl ⟨hread, .inl hfits⟩,
        iff_of_false (not_data_error _) fun h' => h'.1 ⟨hread, .inl hfits⟩⟩
    · rw [access_ok (Nat.le_of_not_lt hfits), ok_bind]
      have hover : d.Overruns size i (c :: l) ↔ d.Overruns size (i + 1) l :=
        ⟨fun h' => h'.2.resolve_left hfits, fun h' => ⟨hread, .inr h'⟩⟩
      obtain ⟨hfault, hdata⟩ := h
      cases hrest : d.readLoopWith (access size) steps (i + 1) (d.getCluster c) with
      | error e =>
        rw [hrest] at hfault hdata
        refine ⟨hfault.trans hover.symm, iff_of_false (not_data_error _) fun h' => ?_⟩
        obtain ⟨bs, hbs⟩ := hdata.mpr ⟨fun ho => h'.1 (hover.mpr ho), fun c' hc' => h'.2 c' (.tail c hc')⟩
        cases hbs
      | ok r =>
        rw [hrest] at hfault hdata
        have hno : ¬ d.Overruns size (i + 1) l := fun ho => contained_ok r (hfault.mpr ho)
        refine ⟨iff_of_false (contained_ok _) fun ho => hno (hover.mp ho), ?_⟩
        cases r with
        | none =>
          refine iff_of_false not_data_none fun h' => ?_
          obtain ⟨bs, hbs⟩ := hdata.mpr ⟨hno, fun c' hc' => h'.2 c' (.tail c hc')⟩
          cases hbs
        | some bs =>
          obtain ⟨-, hall⟩ := hdata.mp ⟨bs, rfl⟩
          exact iff_of_true ⟨_, rfl⟩
            ⟨fun ho => hno (hover.mp ho), List.forall_mem_cons.mpr ⟨hread, hall⟩⟩
  · have hskip : ∀ r, d.readCluster c ≠ .ok (some r) := fun r => readCluster_unreadable hread
    refine ⟨iff_of_false ?_ fun h' => hread h'.1, iff_of_false ?_ fun h' => hread (h'.2 c (.head l))⟩
    · refine ((d.readCluster_contained c).bind fun r hr => ?_)
      cases r with
      | none => exact contained_ok _
      | some bs => exact absurd hr (hskip bs)
    · rintro ⟨bs, hbs⟩
      obtain ⟨r, hr, hbs⟩ := bind_ok.mp hbs
      cases r with
      | none => cases hbs
      | some r => exact hskip r hr

theorem readLoopWith_chain {size c : Nat} {l : List Nat} (h : d.Chain c l) (hc : ¬ d.Eoc c)
    {steps : Nat} (hsteps : l.length ≤ steps) (i : Nat) :
    LoopResult (d := d) size i l (d.readLoopWith (access size) steps i c) := by
  induction h generalizing steps i with
  | @last c hs =>
    rw [List.length_singleton] at hsteps
    obtain ⟨steps, rfl⟩ : ∃ n, steps = n + 1 := ⟨steps - 1, by omega⟩
    refine loopResult_cons hc ?_
    rw [readLoopWith_eoc hs]
    exact ⟨iff_of_false nofun id, iff_of_true ⟨_, rfl⟩ ⟨id, nofun⟩⟩
  | @link c l hn ht ih =>
    rw [List.length_cons] at hsteps
    obtain ⟨steps, rfl⟩ : ∃ n, steps = n + 1 := ⟨steps - 1, by omega⟩
    exact loopResult_cons hc (ih hn (by omega) (i + 1))

/-- In a buffer of `size` bytes the first `size / getClusterSize` clusters fit. -/
theorem overruns_iff {size i : Nat} {l : List Nat} (hsize : size < 4294967296)
    (hi : i ≤ size / d.bpb.getClusterSize) :
    d.Overruns size i l ↔ size / d.bpb.getClusterSize - i < l.length ∧
      ∀ c ∈ l.take (size / d.bpb.getClusterSize - i + 1), d.Readable c := by
  have hpos := d.clusterSize_pos
  induction l generalizing i with
  | nil => exact iff_of_false id fun h => Nat.not_lt_zero _ h.1
  | cons c l ih =>
    have hstart : i * d.bpb.getClusterSize ≤ size := (Nat.le_div_iff_mul_le hpos).mp hi
    have hhere : size < u32 (i * d.bpb.getClusterSize) + d.bpb.getClusterSize ↔
        size / d.bpb.getClusterSize < i + 1 := by
      rw [u32_of_lt (Nat.lt_of_le_of_lt hstart hsize), Nat.div_lt_iff_lt_mul hpos, Nat.succ_mul]
    rw [Overruns, hhere, List.take_succ_cons, List.forall_mem_cons, List.length_cons]
    rcases Nat.lt_or_ge i (size / d.bpb.getClusterSize) with hlt | hge
    · have hrest := ih (i := i + 1) hlt
      have hleft : size / d.bpb.getClusterSize - i = size / d.bpb.getClusterSize - (i + 1) + 1 := by
        omega
      refine (and_congr_right fun _ => or_congr_right hrest).trans ?_
      rw [hleft]
      constructor
      · rintro ⟨hc, h | ⟨hlen, hall⟩⟩
        · omega
        · exact ⟨by omega, hc, hall⟩
      · rintro ⟨hlen, hc, hall⟩
        exact ⟨hc, .inr ⟨by omega, hall⟩⟩
    · have hlast : size / d.bpb.getClusterSize - i = 0 := by omega
      rw [hlast, List.take_zero]
      exact ⟨fun h => ⟨Nat.succ_pos _, h.1, nofun⟩, fun h => ⟨h.2.1, .inl (by omega)⟩⟩

/-- A buffer of the allocated size is overrun if that size does not fit 32 bits. -/
theorem overruns_allocated {l : List Nat} :
    d.Overruns (u32 (l.length * d.bpb.getClusterSize)) 0 l ↔
      4294967296 ≤ l.length * d.bpb.getClusterSize ∧
      ∀ c ∈ l.take (u32 (l.length * d.bpb.getClusterSize) / d.bpb.getClusterSize + 1),
        d.Readable c := by
  rw [overruns_iff (u32_lt _) (Nat.zero_le _), Nat.sub_zero, Nat.div_lt_iff_lt_mul d.clusterSize_pos]
  refine and_congr_left fun _ => ?_
  unfold u32
  generalize l.length * d.bpb.getClusterSize = n
  omega

/-! ## The root directory -/

section Root
variable {size : Nat} {buf : Buffer}

theorem forM_access {size sectorSize : Nat} (hpos : 0 < sectorSize) (is : List Nat) :
    (is.forM fun i => access size (i * sectorSize) sectorSize) =
      if ∀ i ∈ is, (i + 1) * sectorSize ≤ size then .ok () else .error .fault := by
  induction is with
  | nil => exact (if_pos fun i hi => absurd hi List.not_mem_nil).symm
  | cons i is ih =>
    refine Eq.trans ?_ (if_congr List.forall_mem_cons.symm rfl rfl)
    change access size (i * sectorSize) sectorSize >>= (fun _ => is.forM _) = _
    rw [ih, Nat.succ_mul]
    by_cases hi : i * sectorSize + sectorSize ≤ size
    · rw [access_ok hi, ok_bind]
      exact if_congr (and_iff_right hi).symm rfl rfl
    · rw [access_fault hpos (Nat.lt_of_not_le hi)]
      exact (if_neg fun h => hi h.1).symm

theorem touchRoot_access (d : FatDisk) (size : Nat) :
    d.touchRoot (access size) =
      if ∀ i ∈ (List.range d.bpb.rootSectorCount).takeWhile fun i => d.sectorInside (d.rootBase + i),
        (i + 1) * d.bpb.sectorSize.toNat ≤ size then .ok () else .error .fault := by
  have hpos := d.mountable.sectorSize_ge
  rw [MIN_SECTOR_SIZE] at hpos
  exact forM_access (by omega) _

theorem touchRoot_contained_iff {d : FatDisk} {size : Nat} :
    Contained (d.touchRoot (access size)) ↔ d.touchRoot (access size) = .ok () := by
  rw [touchRoot_access, Contained]
  split
  · exact iff_of_true nofun rfl
  · exact iff_of_false (fun h => h rfl) nofun

/-- Where a sector is refused, the last one is not reached. -/
theorem lt_of_mem_takeWhile {p : Nat → Bool} {m : Nat} (h : ∃ j ∈ List.range (m + 1), p j = false)
    {i : Nat} (hi : i ∈ (List.range (m + 1)).takeWhile p) : i < m := by
  rw [List.range_succ, List.takeWhile_append] at hi
  split at hi
  · next hall =>
    have hself := (List.takeWhile_prefix p).eq_of_length hall
    obtain ⟨j, hj, hout⟩ := h
    have hlast : p m = false := by
      rcases Nat.lt_succ_iff_lt_or_eq.mp (List.mem_range.mp hj) with hlt | rfl
      · have hin := List.takeWhile_eq_self_iff.mp hself j (List.mem_range.mpr hlt)
        rw [hin] at hout
        cases hout
      · exact hout
    rw [List.takeWhile_cons_of_neg (by rw [hlast]; exact Bool.false_ne_true), List.append_nil] at hi
    exact List.mem_range.mp hi
  · exact List.mem_range.mp (List.takeWhile_subset p hi)

/-- The entries fill the last sector, or a sector is not let through. -/
def RootFits (d : FatDisk) : Prop :=
  d.bpb.rootDirCapacity.toNat * DIR_ENTRY_SIZE % d.bpb.sectorSize.toNat = 0 ∨
    ∃ i ∈ List.range d.bpb.rootSectorCount, d.sectorInside (d.rootBase + i) = false

instance (d : FatDisk) : Decidable d.RootFits := inferInstanceAs (Decidable (_ ∨ _))

/-- The sectors of the root directory hold its entries, and one less does not. -/
theorem rootSectors_bounds (d : FatDisk) : ∃ m, d.bpb.rootSectorCount = m + 1 ∧
    m * d.bpb.sectorSize.toNat < d.bpb.rootDirCapacity.toNat * DIR_ENTRY_SIZE ∧
      d.bpb.rootDirCapacity.toNat * DIR_ENTRY_SIZE ≤ (m + 1) * d.bpb.sectorSize.toNat := by
  have hsector := d.mountable.sectorSize_ge
  rw [MIN_SECTOR_SIZE] at hsector
  have hcapacity : d.bpb.rootDirCapacity.toNat ≠ 0 := fun h =>
    d.mountable.rootDirCapacity_pos (BitVec.eq_of_toNat_eq h)
  exact ceilDiv_bounds (Nat.mul_pos (by omega) (by decide)) (by omega)

theorem mod_eq_zero_iff_fills {x y m : Nat} (hlow : m * y < x) (hhigh : x ≤ (m + 1) * y) :
    x % y = 0 ↔ ¬ x < (m + 1) * y := by
  constructor
  · intro h hlt
    obtain ⟨q, rfl⟩ := Nat.dvd_of_mod_eq_zero h
    rw [Nat.mul_comm y q] at hlow hlt
    have := Nat.lt_of_mul_lt_mul_right hlow
    have := Nat.lt_of_mul_lt_mul_right hlt
    omega
  · intro h
    rw [show x = (m + 1) * y by omega]
    exact Nat.mul_mod_left _ _

/-- A buffer for the entries holds the sectors up to the one that is refused, or up to the last one. -/
theorem touchRoot_iff : d.touchRoot (access (d.bpb.getRootCapacity * DIR_ENTRY_SIZE)) = .ok () ↔
    d.RootFits := by
  obtain ⟨m, hm, hlow, hhigh⟩ := d.rootSectors_bounds
  rw [touchRoot_access, RootFits, mod_eq_zero_iff_fills hlow hhigh, hm]
  constructor
  · intro h
    by_contra hnot
    obtain ⟨hlast, hin⟩ := not_or.mp hnot
    have hall : ∀ j ∈ List.range (m + 1), d.sectorInside (d.rootBase + j) = true := fun j hj =>
      Bool.eq_true_of_not_eq_false fun hout => hin ⟨j, hj, hout⟩
    rw [List.takeWhile_eq_self_iff.mpr hall] at h
    split at h
    · next hfit => exact hlast (Nat.not_lt_of_le (hfit m (List.mem_range.mpr (Nat.lt_succ_self m))))
    · cases h
  · intro h
    refine if_pos fun i hi => ?_
    rcases h with h | h
    · have hlt := List.mem_range.mp (List.takeWhile_subset _ hi)
      exact (Nat.mul_le_mul_right _ hlt).trans (Nat.le_of_not_lt h)
    · exact (Nat.mul_le_mul_right _ (lt_of_mem_takeWhile h hi)).trans hlow.le

theorem touchRoot_mono {size : Nat} (h : d.touchRoot (access size) = .ok ()) {size' : Nat}
    (hsize : size ≤ size') : d.touchRoot (access size') = .ok () := by
  rw [touchRoot_access] at h ⊢
  split at h
  · next hfit => exact if_pos fun i hi => (hfit i hi).trans hsize
  · cases h

theorem readFileInto_root {size steps : Nat} {e : DirEntry} (h : e.isRoot = true) :
    d.readFileInto size steps e = (do
      d.touchRoot (access size)
      return d.readRoot) := by
  rw [readFileInto, readFileWith, if_pos h]

theorem writeFileFrom_root {size steps : Nat} {e : DirEntry} (h : e.isRoot = true) :
    d.writeFileFrom size steps e buf = (do
      d.touchRoot (access size)
      return d.writeRoot buf) := by
  rw [writeFileFrom, writeFileWith, if_pos h]

end Root

/-! ## Buffers of the allocated size -/

/-- The clusters of an entry, up to where its chain ends; cluster zero stands for none. -/
def EndedChain (d : FatDisk) (e : DirEntry) (l : List Nat) : Prop :=
  if e.firstCluster = 0 then l = [] else d.Chain e.firstCluster.toNat l

/-- `ReadFile` into, `WriteFile` of a directory from, and the output of `extract` from a buffer of
`GetFileAllocSize` bytes. -/
structure InBounds (d : FatDisk) (e : DirEntry) (l : List Nat) : Prop where
  read : ∀ steps size, l.length ≤ steps → d.getFileAllocSize steps e = .ok size →
    Contained (d.readFileInto size steps e)
  write : e.isDirectory = true → ∀ buf steps size, l.length ≤ steps →
    d.getFileAllocSize steps e = .ok size → Contained (d.writeFileFrom size steps e buf)
  extract : ∀ junk steps, l.length ≤ steps → Contained (d.extractFile junk steps e)

/-- The clusters of a file fit 32 bits, and its size is not larger than they are, unless the call
ends before it gets there. -/
def FileFits (d : FatDisk) (e : DirEntry) (l : List Nat) : Prop :=
  let allocated := u32 (l.length * d.bpb.getClusterSize)
  refusesFile e = true ∨
    (l.length * d.bpb.getClusterSize < 4294967296 ∨ d.Eoc e.firstCluster.toNat ∨
      ∃ c ∈ l.take (allocated / d.bpb.getClusterSize + 1), ¬ d.Readable c) ∧
    (e.isDirectory = true ∨ e.fileSize.toNat ≤ allocated ∨
      ¬ d.Eoc e.firstCluster.toNat ∧ ∃ c ∈ l, ¬ d.Readable c)

section Files
variable {d : FatDisk} {e : DirEntry} {l : List Nat}

theorem EndedChain.allocSize (h : d.EndedChain e l) (hroot : e.isRoot = false)
    (hok : refusesFile e = false) {steps : Nat} (hsteps : l.length ≤ steps) :
    d.getFileAllocSize steps e = .ok (u32 (l.length * d.bpb.getClusterSize)) := by
  have hvalid : e.isValidFile = true := by
    rw [refusesFile, Bool.or_eq_false_iff] at hok
    simpa using hok.1
  rw [getFileAllocSize, hroot, if_neg Bool.false_ne_true, hvalid]
  by_cases hz : e.firstCluster = 0
  · rw [EndedChain, if_pos hz] at h
    subst h
    rw [hz, List.length_nil, Nat.zero_mul]
    rfl
  · rw [EndedChain, if_neg hz] at h
    rw [if_neg (by simpa using hz), countClusters_eq hroot hz h hsteps]
    rfl

/-- What `ReadFile` comes to in a buffer of any size. -/
theorem EndedChain.readFileInto (h : d.EndedChain e l) (hroot : e.isRoot = false)
    (hok : refusesFile e = false) (size : Nat) {steps : Nat} (hsteps : l.length ≤ steps) :
    d.Eoc e.firstCluster.toNat ∧ d.readFileInto size steps e = .ok (some []) ∨
    ¬ d.Eoc e.firstCluster.toNat ∧ LoopResult (d := d) size 0 l (d.readFileInto size steps e) := by
  rw [FatDisk.readFileInto, readFileWith, hroot, hok, if_neg Bool.false_ne_true,
    if_neg Bool.false_ne_true]
  by_cases heoc : d.Eoc e.firstCluster.toNat
  · exact .inl ⟨heoc, readLoopWith_eoc heoc⟩
  · refine .inr ⟨heoc, ?_⟩
    by_cases hz : e.firstCluster = 0
    · rw [hz] at heoc
      exact absurd (show d.isClusterNumberEOC 0 = true by rfl) heoc
    · rw [EndedChain, if_neg hz] at h
      exact readLoopWith_chain h heoc hsteps 0

theorem not_overruns_allocated :
    ¬ d.Overruns (u32 (l.length * d.bpb.getClusterSize)) 0 l ↔
      l.length * d.bpb.getClusterSize < 4294967296 ∨
      ∃ c ∈ l.take (u32 (l.length * d.bpb.getClusterSize) / d.bpb.getClusterSize + 1),
        ¬ d.Readable c := by
  rw [overruns_allocated, not_and_or, Nat.not_le]
  refine or_congr_right ?_
  rw [not_forall]
  exact exists_congr fun c => Classical.not_imp

theorem extractOutput_contained {junk : Buffer} {allocSize fileSize : Nat}
    {r : Option (List Byte)} :
    Contained (extractOutput junk allocSize fileSize e r) ↔
      (∃ bs, r = some bs) → e.isDirectory = true ∨ fileSize ≤ allocSize := by
  cases r with
  | none => exact iff_of_true (contained_ok _) nofun
  | some bs =>
    rw [extractOutput]
    by_cases hdir : e.isDirectory = true
    · rw [if_pos hdir]
      exact iff_of_true (contained_ok _) fun _ => .inl hdir
    · rw [if_neg hdir]
      by_cases hfit : fileSize ≤ allocSize
      · rw [access_ok (by omega)]
        exact iff_of_true (contained_ok _) fun _ => .inr hfit
      · rw [access_fault (by omega) (by omega)]
        exact iff_of_false (fun h => h rfl) fun h => (h ⟨bs, rfl⟩).elim hdir hfit

/-- Of an entry that is refused no byte is touched. -/
theorem InBounds.of_refused (hroot : e.isRoot = false) (hok : refusesFile e = true) :
    d.InBounds e l := by
  have hread : ∀ size steps, d.readFileInto size steps e = .ok none := fun size steps => by
    rw [FatDisk.readFileInto, readFileWith, hroot, if_neg Bool.false_ne_true, if_pos hok]
  have halloc : ∀ steps, d.getFileAllocSize steps e = .ok 0 := fun steps => by
    rw [refusesFile, Bool.or_eq_true, Bool.and_eq_true] at hok
    rw [getFileAllocSize, hroot, if_neg Bool.false_ne_true, if_pos]
    rw [Bool.or_eq_true]
    exact hok.imp_right And.left
  refine ⟨fun steps size _ _ => ?_, fun _ buf steps size _ _ => ?_, fun junk steps _ => ?_⟩
  · rw [hread]
    exact contained_ok _
  · rw [writeFileFrom, writeFileWith, hroot, if_neg Bool.false_ne_true, if_pos hok]
    exact contained_ok _
  · rw [extractFile, halloc, getFileSize, halloc, ok_bind, hread]
    split
    · exact contained_ok _
    · split
      · exact contained_ok _
      · exact contained_ok _

/-- `Extract` of a file that `ReadFile` takes: both of its steps stay inside. -/
theorem EndedChain.extractFile_contained (h : d.EndedChain e l) (hroot : e.isRoot = false)
    (hok : refusesFile e = false) (junk : Buffer) {steps : Nat} (hsteps : l.length ≤ steps) :
    Contained (d.extractFile junk steps e) ↔
      Contained (d.readFileInto (u32 (l.length * d.bpb.getClusterSize)) steps e) ∧
      ((∃ bs, d.readFileInto (u32 (l.length * d.bpb.getClusterSize)) steps e = .ok (some bs)) →
        e.isDirectory = true ∨ e.fileSize.toNat ≤ u32 (l.length * d.bpb.getClusterSize)) := by
  have hdevice : e.isDeviceFile = false := by
    rw [refusesFile, Bool.or_eq_false_iff] at hok
    have hvalid : e.isValidFile = true := by simpa using hok.1
    rw [DirEntry.isValidFile, Bool.and_eq_true, Bool.and_eq_true] at hvalid
    simpa using hvalid.1.2
  rw [extractFile, hdevice, if_neg Bool.false_ne_true, getFileSize, h.allocSize hroot hok hsteps,
    ok_bind]
  generalize u32 (l.length * d.bpb.getClusterSize) = size
  have hsize : (if e.isDirectory = true then .ok size else .ok e.fileSize.toNat : Call Nat) =
      .ok (if e.isDirectory = true then size else e.fileSize.toNat) := by
    split
    · rfl
    · rfl
  rw [hsize, ok_bind]
  cases d.readFileInto size steps e with
  | error err => exact ⟨fun hc => ⟨hc, fun hr => by cases hr.choose_spec⟩, fun hc => hc.1⟩
  | ok r =>
    rw [ok_bind, extractOutput_contained]
    constructor
    · intro hc
      refine ⟨contained_ok _, ?_⟩
      rintro ⟨bs, hr⟩
      have hfit := hc ⟨bs, Except.ok.inj hr⟩
      by_cases hdir : e.isDirectory = true
      · exact .inl hdir
      · rwa [if_neg hdir] at hfit
    · rintro hc ⟨bs, hr⟩
      have hfit := hc.2 ⟨bs, congrArg Except.ok hr⟩
      by_cases hdir : e.isDirectory = true
      · exact .inl hdir
      · rwa [if_neg hdir]

/-- Where the call for data along the chain ends. -/
theorem EndedChain.readFileInto_contained (h : d.EndedChain e l) (hroot : e.isRoot = false)
    (hok : refusesFile e = false) (size : Nat) {steps : Nat} (hsteps : l.length ≤ steps) :
    Contained (d.readFileInto size steps e) ↔ d.Eoc e.firstCluster.toNat ∨ ¬ d.Overruns size 0 l := by
  rcases h.readFileInto hroot hok size hsteps with ⟨heoc, hr⟩ | ⟨heoc, hr⟩
  · rw [hr]
    exact iff_of_true (contained_ok _) (.inl heoc)
  · rw [Contained, Ne, hr.fault]
    exact (or_iff_right heoc).symm

theorem EndedChain.readFileInto_data (h : d.EndedChain e l) (hroot : e.isRoot = false)
    (hok : refusesFile e = false) (size : Nat) {steps : Nat} (hsteps : l.length ≤ steps) :
    (∃ bs, d.readFileInto size steps e = .ok (some bs)) ↔
      d.Eoc e.firstCluster.toNat ∨ ¬ d.Overruns size 0 l ∧ ∀ c ∈ l, d.Readable c := by
  rcases h.readFileInto hroot hok size hsteps with ⟨heoc, hr⟩ | ⟨heoc, hr⟩
  · exact iff_of_true ⟨_, hr⟩ (.inl heoc)
  · rw [hr.data]
    exact (or_iff_right heoc).symm

/-- A file that is read stays inside its buffers exactly if it fits. -/
theorem EndedChain.inBounds_iff (h : d.EndedChain e l) (hroot : e.isRoot = false)
    (hok : refusesFile e = false) : d.InBounds e l ↔ d.FileFits e l := by
  have halloc := fun steps (hsteps : l.length ≤ steps) => h.allocSize hroot hok hsteps
  have hbound := u32_lt (l.length * d.bpb.getClusterSize)
  have hextract := fun junk steps (hsteps : l.length ≤ steps) =>
    h.extractFile_contained hroot hok junk hsteps
  have hread := fun steps (hsteps : l.length ≤ steps) =>
    h.readFileInto_contained hroot hok (u32 (l.length * d.bpb.getClusterSize)) hsteps
  have hdata := fun steps (hsteps : l.length ≤ steps) =>
    h.readFileInto_data hroot hok (u32 (l.length * d.bpb.getClusterSize)) hsteps
  rw [FileFits, hok, or_iff_right Bool.false_ne_true, or_left_comm, ← not_overruns_allocated]
  generalize u32 (l.length * d.bpb.getClusterSize) = size at halloc hbound hextract hread hdata ⊢
  constructor
  · intro hin
    have hle := Nat.le_refl l.length
    have hfirst := (hread _ hle).mp (hin.read _ _ hle (halloc _ hle))
    refine ⟨hfirst, ?_⟩
    obtain ⟨-, hout⟩ := (hextract (fun _ => 0) _ hle).mp (hin.extract _ _ hle)
    rw [hdata _ hle] at hout
    by_cases heoc : d.Eoc e.firstCluster.toNat
    · exact (hout (.inl heoc)).imp_right .inl
    · by_cases hall : ∀ c ∈ l, d.Readable c
      · exact (hout (.inr ⟨hfirst.resolve_left heoc, hall⟩)).imp_right .inl
      · obtain ⟨c, hc⟩ := not_forall.mp hall
        exact .inr (.inr ⟨heoc, c, Classical.not_imp.mp hc⟩)
  · rintro ⟨hfirst, hsecond⟩
    refine ⟨fun steps size' hsteps hsize => ?_, fun hdir buf steps size' hsteps hsize => ?_,
      fun junk steps hsteps => (hextract junk steps hsteps).mpr
        ⟨(hread _ hsteps).mpr hfirst, fun hbytes => ?_⟩⟩
    · cases (halloc _ hsteps).symm.trans hsize
      exact (hread _ hsteps).mpr hfirst
    · cases (halloc _ hsteps).symm.trans hsize
      obtain ⟨heq, hcontained⟩ := writeFileFrom_directory hroot hdir hsize hbound (Nat.le_refl _) buf
      rwa [heq]
    · rcases hsecond with hdir | hfit | ⟨heoc, c, hc, hunreadable⟩
      · exact .inl hdir
      · exact .inr hfit
      · have hall := ((hdata _ hsteps).mp hbytes).resolve_left heoc
        exact absurd (hall.2 c hc) hunreadable

end Files

/-- The root directory is read and written in whole sectors. -/
theorem inBounds_root_iff {d : FatDisk} {e : DirEntry} {l : List Nat} (hroot : e.isRoot = true) :
    d.InBounds e l ↔ d.RootFits := by
  have halloc : ∀ steps, d.getFileAllocSize steps e = .ok (d.bpb.getRootCapacity * DIR_ENTRY_SIZE) :=
    fun steps => by rw [getFileAllocSize, if_pos hroot]
  have hdir : e.isDirectory = true := by
    rw [DirEntry.isRoot, Bool.and_eq_true] at hroot
    exact hroot.1
  rw [← touchRoot_iff]
  constructor
  · intro h
    have hread := h.read _ _ (Nat.le_refl _) (halloc _)
    rw [readFileInto_root hroot] at hread
    exact touchRoot_contained_iff.mp fun hfault => hread (by rw [hfault]; rfl)
  · intro h
    refine ⟨fun steps size _ hsize => ?_, fun _ buf steps size _ hsize => ?_, fun junk steps _ => ?_⟩
    · cases (halloc _).symm.trans hsize
      rw [readFileInto_root hroot, h]
      exact contained_ok _
    · cases (halloc _).symm.trans hsize
      rw [writeFileFrom_root hroot, h]
      exact contained_ok _
    · rw [extractFile]
      split
      · exact contained_ok _
      · rw [getFileSize, if_pos hdir, halloc, ok_bind, ok_bind, readFileInto_root hroot, h]
        exact extractOutput_contained.mpr fun _ => .inl hdir

/-- **Buffers.** The accesses stay inside the allocated size exactly if the entries of the root
directory fill its last sector, or the clusters of the file fit 32 bits and its size fits them, or
the call ends before that matters. -/
theorem buffers_hold_iff (d : FatDisk) (e : DirEntry) (l : List Nat) (h : d.EndedChain e l) :
    d.InBounds e l ↔ if e.isRoot then d.RootFits else d.FileFits e l := by
  by_cases hroot : e.isRoot = true
  · rw [if_pos hroot]
    exact inBounds_root_iff hroot
  · rw [if_neg hroot]
    have hroot := Bool.eq_false_iff.mpr hroot
    by_cases hok : refusesFile e = true
    · exact iff_of_true (.of_refused hroot hok) (.inl hok)
    · exact h.inBounds_iff hroot (Bool.eq_false_iff.mpr hok)

end FatDisk

/-- A root directory of one entry, and a file of one cluster. -/
def oneEntryDisk : FatDisk where
  bpb := { tinyBpb with rootDirCapacity := 1 }
  mountable := by constructor <;> decide
  base := 0
  fat := fun i => [0xF0, 0xFF, 0xFF, 0xFF, 0x0F].getD i 0
  file := fun _ => 0
  dirty := false

theorem oneEntryDisk_chain (size : BitVec 32) :
    oneEntryDisk.EndedChain { loopedFile with fileSize := size } [2] :=
  show oneEntryDisk.Chain 2 [2] from .last (by decide)

theorem buffers_hold_one_cluster :
    oneEntryDisk.InBounds { loopedFile with fileSize := 512 } [2] :=
  (FatDisk.buffers_hold_iff oneEntryDisk { loopedFile with fileSize := 512 } [2]
    (oneEntryDisk_chain 512)).mpr (.inr ⟨.inl (by decide), .inr (.inl (by decide))⟩)

/-- The root directory is read as a whole sector into 32 bytes, and of the file a byte more is
written out than its cluster has. -/
theorem buffers_overrun :
    oneEntryDisk.EndedChain rootDirEntry [] ∧
      oneEntryDisk.EndedChain { loopedFile with fileSize := 513 } [2] ∧
      ¬ oneEntryDisk.InBounds rootDirEntry [] ∧
      ¬ oneEntryDisk.InBounds { loopedFile with fileSize := 513 } [2] := by
  refine ⟨rfl, oneEntryDisk_chain 513, fun h => h.read 0 32 (Nat.le_refl _) rfl ?_,
    fun h => h.extract (fun _ => 0) 1 (Nat.le_refl _) ?_⟩
  · rfl
  · rfl

end Ohwes.Fatfs
