import Ohwes.Fatfs.LongName

/-! # Chains of links that nobody vouches for

`GetLongName` follows the links of a table as the disk has them. `readLinks_ok_iff` says over which
chains its loop comes to an end, and what it has gathered then. Of the short name's checksum it tests
no more than that the last link has it, and that the differences of the others cancel out. -/

namespace Ohwes.Fatfs
open Library
set_option autoImplicit false

/-! ## The links -/

/-- The link's characters have their place in the buffer. -/
structure DirEntry.Stores (e : DirEntry) : Prop where
  pos : 1 ≤ e.sequenceNumber
  max : e.sequenceNumber ≤ MaxChainLength
  inside : e.bucket + e.storedChars.length ≤ MAX_LONGNAME

/-- From entry `i` on stand `n` links, the last of which is the first one with number 1. -/
structure LinkChain (table : Buffer) (i n : Nat) : Prop where
  pos : 1 ≤ n
  stores : ∀ k < n, (entryAt table (i + k)).Stores
  last : ∀ k < n, ((entryAt table (i + k)).sequenceNumber = 1 ↔ k + 1 = n)

def links (table : Buffer) (i n : Nat) : List DirEntry := (List.range' i n).map (entryAt table)

section Links
variable {table : Buffer} {i n : Nat}

theorem links_succ (table : Buffer) (i n : Nat) :
    links table i (n + 1) = entryAt table i :: links table (i + 1) n := by
  rw [links, List.range'_succ, List.map_cons, links]

theorem links_concat (table : Buffer) (i n : Nat) :
    links table i (n + 1) = links table i n ++ [entryAt table (i + n)] := by
  rw [links, List.range'_concat, List.map_append, Nat.one_mul, links]
  rfl

theorem mem_links {e : DirEntry} : e ∈ links table i n ↔ ∃ k < n, entryAt table (i + k) = e := by
  simp only [links, List.mem_map, List.mem_range'_1]
  constructor
  · rintro ⟨a, ⟨hlow, hhigh⟩, rfl⟩
    exact ⟨a - i, by omega, by rw [Nat.add_sub_cancel' hlow]⟩
  · rintro ⟨k, hk, rfl⟩
    exact ⟨i + k, ⟨by omega, by omega⟩, rfl⟩

theorem linkChain_last (hstores : (entryAt table i).Stores)
    (hone : (entryAt table i).sequenceNumber = 1) : LinkChain table i n ↔ n = 1 := by
  constructor
  · intro h
    exact ((h.last 0 h.pos).mp hone).symm
  · rintro rfl
    refine ⟨Nat.le_refl 1, fun k hk => ?_, fun k hk => ?_⟩
    · obtain rfl := Nat.lt_one_iff.mp hk
      exact hstores
    · obtain rfl := Nat.lt_one_iff.mp hk
      exact iff_of_true hone rfl

theorem linkChain_more (hstores : (entryAt table i).Stores)
    (hmore : 1 < (entryAt table i).sequenceNumber) :
    LinkChain table i n ↔ ∃ m, n = m + 1 ∧ LinkChain table (i + 1) m := by
  constructor
  · intro h
    obtain ⟨m, rfl⟩ : ∃ m, n = m + 1 := ⟨n - 1, by have := h.pos; omega⟩
    have hm : m ≠ 0 := by
      rintro rfl
      exact absurd ((h.last 0 Nat.one_pos).mpr rfl) (Nat.ne_of_gt hmore)
    refine ⟨m, rfl, Nat.pos_of_ne_zero hm, fun k hk => ?_, fun k hk => ?_⟩
    · have := h.stores (k + 1) (Nat.succ_lt_succ hk)
      rwa [show i + (k + 1) = i + 1 + k by omega] at this
    · have := h.last (k + 1) (Nat.succ_lt_succ hk)
      rw [show i + (k + 1) = i + 1 + k by omega] at this
      exact this.trans Nat.succ_inj
  · rintro ⟨m, rfl, h⟩
    refine ⟨Nat.succ_pos m, fun k hk => ?_, fun k hk => ?_⟩
    · cases k with
      | zero => exact hstores
      | succ k =>
        rw [show i + (k + 1) = i + 1 + k by omega]
        exact h.stores k (Nat.lt_of_succ_lt_succ hk)
    · cases k with
      | zero =>
        have := h.pos
        exact iff_of_false (Nat.ne_of_gt hmore) (by omega)
      | succ k =>
        rw [show i + (k + 1) = i + 1 + k by omega]
        exact (h.last k (Nat.lt_of_succ_lt_succ hk)).trans Nat.succ_inj.symm

/-- The loop ends behind a chain, with the links of the chain gathered, and nowhere else. -/
theorem readLinks_ok_iff {slots j : Nat} {s s' : LinkScan} :
    readLinks table slots i s = .ok (s', j) ↔
      ∃ n ≤ slots, LinkChain table i n ∧ (links table i n).foldl LinkScan.yank s = s' ∧
        i + n = j := by
  induction slots generalizing i s with
  | zero =>
    refine iff_of_false (fun h => by cases h) ?_
    rintro ⟨n, hn, h, -⟩
    exact absurd h.pos (by omega)
  | succ slots ih =>
    rw [readLinks]
    by_cases hstores : (entryAt table i).Stores
    · have hmax := hstores.max
      have hpos := hstores.pos
      have hinside := hstores.inside
      rw [if_neg (by omega), if_neg (by omega)]
      by_cases hmore : (entryAt table i).sequenceNumber > 1
      · rw [if_pos hmore, ih]
        constructor
        · rintro ⟨m, hm, h, hs, hj⟩
          refine ⟨m + 1, by omega, (linkChain_more hstores hmore).mpr ⟨m, rfl, h⟩, ?_, by omega⟩
          rw [links_succ]
          exact hs
        · rintro ⟨n, hn, h, hs, hj⟩
          obtain ⟨m, rfl, hm⟩ := (linkChain_more hstores hmore).mp h
          rw [links_succ] at hs
          exact ⟨m, by omega, hm, hs, by omega⟩
      · have hone : (entryAt table i).sequenceNumber = 1 := by omega
        rw [if_neg hmore]
        constructor
        · intro h
          obtain ⟨hs, hj⟩ := Prod.mk.inj (Except.ok.inj h)
          exact ⟨1, by omega, (linkChain_last hstores hone).mpr rfl, hs, hj⟩
        · rintro ⟨n, -, h, hs, hj⟩
          obtain rfl := (linkChain_last hstores hone).mp h
          exact congrArg Except.ok (Prod.ext hs hj)
    · refine iff_of_false (fun h => hstores ?_) ?_
      · split at h
        · cases h
        · split at h
          · cases h
          · exact ⟨by omega, by omega, by omega⟩
      · rintro ⟨n, -, h, -⟩
        exact hstores (h.stores 0 h.pos)

end Links

/-! ## What the loop has gathered -/

/-- The rolling exclusive or. -/
def xorAll : List Byte → Byte
  | [] => 0
  | b :: bytes => b ^^^ xorAll bytes

theorem xorAll_map (bytes : List Byte) (sum : Byte) :
    xorAll (bytes.map (· ^^^ sum)) =
      if bytes.length % 2 = 1 then xorAll bytes ^^^ sum else xorAll bytes := by
  induction bytes with
  | nil => rfl
  | cons b bytes ih =>
    rw [List.map_cons, List.length_cons, xorAll, ih, xorAll]
    by_cases hodd : bytes.length % 2 = 1
    · rw [if_pos hodd, if_neg (by omega), BitVec.xor_comm (xorAll bytes) sum, ← BitVec.xor_assoc,
        BitVec.xor_assoc b sum sum, BitVec.xor_self, BitVec.xor_zero]
    · rw [if_neg hodd, if_pos (by omega), BitVec.xor_assoc, BitVec.xor_comm sum,
        ← BitVec.xor_assoc]

theorem yankAll_len (l : List DirEntry) (s : LinkScan) :
    (l.foldl LinkScan.yank s).len = s.len + (l.map fun e => e.yankedChars.length).sum := by
  induction l generalizing s with
  | nil => rfl
  | cons e l ih =>
    rw [List.foldl_cons, ih, List.map_cons, List.sum_cons, ← Nat.add_assoc]
    rfl

theorem yankAll_count (l : List DirEntry) (s : LinkScan) :
    (l.foldl LinkScan.yank s).count = s.count + l.length := by
  induction l generalizing s with
  | nil => rfl
  | cons e l ih =>
    rw [List.foldl_cons, ih, List.length_cons, Nat.add_comm l.length, ← Nat.add_assoc]
    rfl

theorem yankAll_cksum (l : List DirEntry) (s : LinkScan) :
    (l.foldl LinkScan.yank s).cksum = s.cksum ^^^ xorAll (l.map DirEntry.checksum) := by
  induction l generalizing s with
  | nil => exact BitVec.xor_zero.symm
  | cons e l ih =>
    rw [List.foldl_cons, ih, List.map_cons]
    exact BitVec.xor_assoc ..

/-- The end of the checksum test, for `n` links from entry `i` on. -/
def checksumTest (table : Buffer) (i n : Nat) : Bool :=
  let cksum := xorAll ((links table i n).map DirEntry.checksum)
  let lastsum := (entryAt table (i + (n - 1))).checksum
  (if n % 2 = 1 then cksum ^^^ lastsum else cksum) == 0 &&
    lastsum == (entryAt table (i + n)).getShortNameChecksum

/-- The characters of `n` links. -/
def linkLength (table : Buffer) (i n : Nat) : Nat :=
  ((links table i n).map fun e => e.yankedChars.length).sum

def DirEntry.StartsChain (e : DirEntry) : Prop :=
  e.isDeleted = false ∧ e.isLongFileName = true ∧ e.firstInChain = true

instance (e : DirEntry) : Decidable e.StartsChain :=
  inferInstanceAs (Decidable (_ ∧ _ ∧ _))

section Scan
variable (host : Host) (table : Buffer) (i : Nat)

/-- The variables of the loop behind `n` links. -/
def gathered (n : Nat) : LinkScan :=
  (links table i n).foldl LinkScan.yank ⟨host.wideJunk, 0, 0, 0, 0⟩

theorem gathered_len (n : Nat) : (gathered host table i n).len = linkLength table i n := by
  rw [gathered, yankAll_len]
  exact Nat.zero_add _

theorem gathered_test {n : Nat} (hn : 1 ≤ n) :
    ((if (gathered host table i n).count % 2 = 1 then
          (gathered host table i n).cksum ^^^ (gathered host table i n).lastsum
        else (gathered host table i n).cksum) == 0 &&
      (gathered host table i n).lastsum == (entryAt table (i + n)).getShortNameChecksum) =
      checksumTest table i n := by
  obtain ⟨m, rfl⟩ : ∃ m, n = m + 1 := ⟨n - 1, by omega⟩
  have hcount : (gathered host table i (m + 1)).count = m + 1 := by
    rw [gathered, yankAll_count, links]
    simp
  have hcksum : (gathered host table i (m + 1)).cksum =
      xorAll ((links table i (m + 1)).map DirEntry.checksum) := by
    rw [gathered, yankAll_cksum]
    exact BitVec.zero_xor
  have hlast : (gathered host table i (m + 1)).lastsum = (entryAt table (i + m)).checksum := by
    rw [gathered, links_concat, List.foldl_concat]
    rfl
  rw [hcount, hcksum, hlast]
  rfl

theorem getLongName_plain {count : Nat} {host : Host} {table : Buffer} {i : Nat}
    (h : ¬ (entryAt table i).StartsChain) : getLongName host table count i = .ok ([], i) := by
  rw [getLongName, if_pos]
  rw [DirEntry.StartsChain] at h
  revert h
  cases (entryAt table i).isDeleted <;> cases (entryAt table i).isLongFileName <;>
    cases (entryAt table i).firstInChain <;> simp

theorem getLongName_chain_iff {count : Nat} (h : (entryAt table i).StartsChain)
    (name : List (BitVec 32)) (j : Nat) :
    getLongName host table count i = .ok (name, j) ↔
      ∃ n, i + n < count ∧ LinkChain table i n ∧ i + n = j ∧
        (checksumTest table i n = true → linkLength table i n < MAX_LONGNAME) ∧
        (slice (gathered host table i n).dst 0
          (if checksumTest table i n = true then linkLength table i n else 0)).takeWhile (· != 0) =
            name := by
  obtain ⟨hdeleted, hlong, hfirst⟩ := h
  rw [getLongName, hdeleted, hlong, hfirst, if_neg (by decide), bind_ok]
  constructor
  · rintro ⟨⟨s, j'⟩, hread, hrest⟩
    obtain ⟨n, -, hchain, hs, rfl⟩ := readLinks_ok_iff.mp hread
    obtain rfl : gathered host table i n = s := hs
    dsimp only at hrest
    rw [gathered_test host table i hchain.pos, gathered_len] at hrest
    have hroom : i + n < count := by
      by_contra hge
      rw [if_pos (Nat.not_lt.mp hge)] at hrest
      cases hrest
    rw [if_neg (Nat.not_le.mpr hroom)] at hrest
    have hfits : (if checksumTest table i n = true then linkLength table i n else 0) <
        MAX_LONGNAME := by
      by_contra hge
      rw [if_pos (Nat.not_lt.mp hge)] at hrest
      cases hrest
    rw [if_neg (Nat.not_le.mpr hfits)] at hrest
    obtain ⟨hname, hj⟩ := Prod.mk.inj (Except.ok.inj hrest)
    refine ⟨n, hroom, hchain, hj, fun htest => ?_, hname⟩
    rwa [if_pos htest] at hfits
  · rintro ⟨n, hroom, hchain, rfl, hlen, hname⟩
    refine ⟨(gathered host table i n, i + n),
      readLinks_ok_iff.mpr ⟨n, by omega, hchain, rfl, rfl⟩, ?_⟩
    have hfits : ¬ (if checksumTest table i n = true then linkLength table i n else 0) ≥
        MAX_LONGNAME := by
      split
      · exact Nat.not_le.mpr (hlen ‹_›)
      · decide
    dsimp only
    rw [gathered_test host table i hchain.pos, gathered_len, if_neg (Nat.not_le.mpr hroom),
      if_neg hfits, hname]
    rfl

end Scan

/-! ## What a table must be like -/

/-- The loop goes over at most 20 links inside the table, and the name that they make fits. -/
structure SafeChain (table : Buffer) (count i n : Nat) : Prop where
  chain : LinkChain table i n
  max : n ≤ 20
  room : i + n < count
  fits : checksumTest table i n = true → linkLength table i n ≤ 255

/-- The call returns, with no access outside the table and the buffer and no failed assertion, and
has gone over 20 links at most, if and only if no chain starts at the entry, or a safe one does. -/
theorem long_name_safe_iff (host : Host) (table : Buffer) (count i : Nat) (hi : i < count) :
    (∃ name j, getLongName host table count i = .ok (name, j) ∧ j < count ∧
        j ≤ i + MaxChainLength) ↔
      (¬ (entryAt table i).StartsChain ∨ ∃ n, SafeChain table count i n) := by
  by_cases hstart : (entryAt table i).StartsChain
  · rw [or_iff_right (not_not.mpr hstart)]
    constructor
    · rintro ⟨name, j, hget, -, hmax⟩
      obtain ⟨n, hroom, hchain, rfl, hlen, -⟩ :=
        (getLongName_chain_iff host table i hstart name j).mp hget
      exact ⟨n, hchain, Nat.add_le_add_iff_left.mp hmax, hroom,
        fun htest => Nat.le_of_lt_succ (hlen htest)⟩
    · rintro ⟨n, h⟩
      refine ⟨_, i + n, (getLongName_chain_iff host table i hstart _ _).mpr
        ⟨n, h.room, h.chain, rfl, fun htest => Nat.lt_succ_of_le (h.fits htest), rfl⟩, h.room, ?_⟩
      exact Nat.add_le_add_left h.max i
  · exact iff_of_true ⟨[], i, getLongName_plain hstart, hi, Nat.le_add_right ..⟩ (Or.inl hstart)

def emptyHost : Host := ⟨fun _ => [], fun _ => 0, fun _ => 0, false, ⟨0, 0, 0, 0, 0, 0⟩⟩

/-- The link of number `seq` that starts a chain, with one character. -/
def topLink (seq : Byte) (cksum : Byte) : DirEntry :=
  { DirEntry.zero with
    label := #v[seq ||| 0x40, 0x61, 0, 0, 0, 0, 0, 0, 0, 0, 0]
    attributes := ATTR_LFN
    reserved2 := cksum }

/-- A link behind the top one, with one character. -/
def lowerLink (seq : Byte) (cksum : Byte) : DirEntry :=
  { topLink seq cksum with label := #v[seq, 0x61, 0, 0, 0, 0, 0, 0, 0, 0, 0] }

/-- Three links, the first two with the checksum `cksum` and the last with 0, and the short name's
entry. -/
def wrongChain (cksum : Byte) : Buffer :=
  storeEntry (storeEntry (storeEntry (fun _ => 0) 0 (topLink 3 cksum)) 1 (lowerLink 2 cksum)) 2
    (lowerLink 1 0)

theorem wrongChain_entries (cksum : Byte) : entryAt (wrongChain cksum) 0 = topLink 3 cksum ∧
    entryAt (wrongChain cksum) 1 = lowerLink 2 cksum ∧
    entryAt (wrongChain cksum) 2 = lowerLink 1 0 ∧
    entryAt (wrongChain cksum) 3 = entryAt (fun _ => 0) 3 := by
  simp only [wrongChain, entryAt_storeEntry]
  exact ⟨rfl, rfl, rfl, rfl⟩

/-- A name of three links. -/
theorem long_name_safe_three :
    ∃ name j, getLongName emptyHost (wrongChain 0) 4 0 = .ok (name, j) ∧ j < 4 ∧
      j ≤ 0 + MaxChainLength := by
  obtain ⟨h0, h1, h2, -⟩ := wrongChain_entries 0
  refine (long_name_safe_iff emptyHost _ 4 0 (by decide)).mpr
    (Or.inr ⟨3, ?_, by decide, by decide, fun _ => ?_⟩)
  · have htop : (topLink 3 0).Stores := by constructor <;> decide
    have hmiddle : (lowerLink 2 0).Stores := by constructor <;> decide
    have hlast : (lowerLink 1 0).Stores := by constructor <;> decide
    refine (linkChain_more (by rwa [h0]) (by rw [h0]; decide)).mpr ⟨2, rfl, ?_⟩
    refine (linkChain_more (by rwa [h1]) (by rw [h1]; decide)).mpr ⟨1, rfl, ?_⟩
    exact (linkChain_last (by rwa [h2]) (by rw [h2]; decide)).mpr rfl
  · rw [linkLength, links_succ, links_succ, links_succ, h0, h1, h2]
    decide

/-- A number above the last one that is allowed. -/
theorem long_name_stray :
    ¬ ∃ name j,
      getLongName emptyHost (storeEntry (fun _ => 0) 0 (topLink 21 0)) 2 0 = .ok (name, j) ∧
        j < 2 ∧ j ≤ 0 + MaxChainLength := by
  have hentry : entryAt (storeEntry (fun _ => 0) 0 (topLink 21 0)) 0 = topLink 21 0 := by
    rw [entryAt_storeEntry, if_pos rfl]
  rintro ⟨name, j, hget, -⟩
  obtain ⟨n, -, hchain, -⟩ :=
    (getLongName_chain_iff emptyHost _ 0 (by rw [hentry]; decide) name j).mp hget
  have hmax := (hchain.stores 0 hchain.pos).max
  rw [Nat.zero_add, hentry] at hmax
  exact absurd hmax (by decide)

/-! ## The checksums of a numbered chain -/

/-- `GetLongName` with the key that it takes from the clock. -/
def getLongNameKeyed (host : Host) (key : Byte) (table : Buffer) (count i : Nat) :
    Call (List (BitVec 32) × Nat) :=
  let e := entryAt table i
  if e.isDeleted || !e.isLongFileName || !e.firstInChain then .ok ([], i)
  else do
    let (s, j) ← readLinks table (count - i) i ⟨host.wideJunk, 0, 0, key, 0⟩
    if j ≥ count then .error .fault
    else
      let cksum := if s.count % 2 = 1 then s.cksum ^^^ s.lastsum else s.cksum
      let matched := cksum == key && s.lastsum == (entryAt table j).getShortNameChecksum
      let len := if matched then s.len else 0
      if len ≥ MAX_LONGNAME then .error .fault
      else return ((slice s.dst 0 len).takeWhile (· != 0), j)

def LinkScan.withKey (key : Byte) (s : LinkScan) : LinkScan := { s with cksum := key ^^^ s.cksum }

theorem readLinks_withKey (key : Byte) (table : Buffer) (slots i : Nat) (s : LinkScan) :
    readLinks table slots i (s.withKey key) =
      (readLinks table slots i s).map fun r => (r.1.withKey key, r.2) := by
  have hyank (s : LinkScan) (e : DirEntry) :
      (s.withKey key).yank e = (s.yank e).withKey key := by
    rw [LinkScan.withKey, LinkScan.withKey, LinkScan.yank, LinkScan.yank]
    dsimp only
    rw [BitVec.xor_assoc]
  induction slots generalizing i s with
  | zero => rfl
  | succ slots ih =>
    rw [readLinks, readLinks]
    split
    · rfl
    · split
      · rfl
      · split
        · rw [hyank, ih]
        · rw [hyank]
          rfl

theorem xor_key_beq (key a : Byte) : (key ^^^ a == key) = (a == 0) := by
  rw [Bool.eq_iff_iff, beq_iff_eq, beq_iff_eq]
  constructor
  · intro h
    have := congrArg (key ^^^ ·) h
    simpa [← BitVec.xor_assoc] using this
  · rintro rfl
    exact BitVec.xor_zero

theorem withKey_test (key : Byte) (s : LinkScan) :
    ((if (s.withKey key).count % 2 = 1 then (s.withKey key).cksum ^^^ (s.withKey key).lastsum
        else (s.withKey key).cksum) == key) =
      ((if s.count % 2 = 1 then s.cksum ^^^ s.lastsum else s.cksum) == 0) := by
  rw [← xor_key_beq key, LinkScan.withKey]
  dsimp only
  split
  · rw [BitVec.xor_assoc]
  · rfl

/-- The key cancels out. -/
theorem getLongNameKeyed_eq (host : Host) (key : Byte) (table : Buffer) (count i : Nat) :
    getLongNameKeyed host key table count i = getLongName host table count i := by
  have hstart : (⟨host.wideJunk, 0, 0, key, 0⟩ : LinkScan) =
      (⟨host.wideJunk, 0, 0, 0, 0⟩ : LinkScan).withKey key :=
    congrArg (LinkScan.mk host.wideJunk 0 0 · 0) BitVec.xor_zero.symm
  rw [getLongNameKeyed, getLongName, hstart, readLinks_withKey]
  split
  · rfl
  · cases readLinks table (count - i) i ⟨host.wideJunk, 0, 0, 0, 0⟩ with
    | error h => rfl
    | ok r =>
      obtain ⟨s, j⟩ := r
      rw [Except.map, ok_bind, ok_bind]
      dsimp only
      rw [withKey_test]
      rfl

/-- `n` links, numbered down to 1 and with characters in each, stand before the entry of a short
name. -/
structure NumberedChain (table : Buffer) (count i n : Nat) : Prop where
  start : (entryAt table i).StartsChain
  pos : 1 ≤ n
  max : n ≤ 20
  room : i + n < count
  numbers : ∀ k < n, (entryAt table (i + k)).sequenceNumber = n - k
  contents : ∀ k < n, (entryAt table (i + k)).yankedChars ≠ []

/-- The checksums of the links as they differ from the one of the short name. -/
def differences (table : Buffer) (i n : Nat) : List Byte :=
  (links table i n).map fun e => e.checksum ^^^ (entryAt table (i + n)).getShortNameChecksum

section Numbered
variable {table : Buffer} {count i n : Nat}

theorem differences_zero_iff : (∀ d ∈ differences table i n, d = 0) ↔
    ∀ k < n, (entryAt table (i + k)).checksum =
      (entryAt table (i + n)).getShortNameChecksum := by
  rw [differences, List.forall_mem_map]
  constructor
  · exact fun h k hk => BitVec.xor_eq_zero_iff.mp (h _ (mem_links.mpr ⟨k, hk, rfl⟩))
  · intro h e he
    obtain ⟨k, hk, rfl⟩ := mem_links.mp he
    exact BitVec.xor_eq_zero_iff.mpr (h k hk)

theorem xorAll_of_zero {bytes : List Byte} (h : ∀ b ∈ bytes, b = 0) : xorAll bytes = 0 := by
  induction bytes with
  | nil => rfl
  | cons b bytes ih =>
    rw [xorAll, h b (List.mem_cons_self ..), ih fun c hc => h c (List.mem_cons_of_mem b hc)]
    rfl

/-- The test does not ask for more than the last difference and the sum of all. -/
theorem checksumTest_iff (hn : 1 ≤ n) : checksumTest table i n = true ↔
    (differences table i n).getLast? = some 0 ∧ xorAll (differences table i n) = 0 := by
  obtain ⟨m, rfl⟩ : ∃ m, n = m + 1 := ⟨n - 1, by omega⟩
  have hlast : (differences table i (m + 1)).getLast? = some 0 ↔ (entryAt table (i + m)).checksum =
      (entryAt table (i + (m + 1))).getShortNameChecksum := by
    rw [differences, links_concat, List.map_append, List.map_singleton, List.getLast?_concat,
      Option.some_inj]
    exact BitVec.xor_eq_zero_iff
  have hsum : xorAll (differences table i (m + 1)) =
      if (m + 1) % 2 = 1 then
        xorAll ((links table i (m + 1)).map DirEntry.checksum) ^^^
          (entryAt table (i + (m + 1))).getShortNameChecksum
      else xorAll ((links table i (m + 1)).map DirEntry.checksum) := by
    have hmap : differences table i (m + 1) = ((links table i (m + 1)).map DirEntry.checksum).map
        (· ^^^ (entryAt table (i + (m + 1))).getShortNameChecksum) := by
      rw [List.map_map]
      rfl
    rw [hmap, xorAll_map, List.length_map, links, List.length_map, List.length_range']
  rw [checksumTest, hlast, hsum, Bool.and_eq_true, beq_iff_eq, beq_iff_eq, and_comm]
  refine and_congr_right fun h => ?_
  rw [Nat.add_sub_cancel] at h ⊢
  rw [h]

theorem linkLength_succ (table : Buffer) (i n : Nat) : linkLength table i (n + 1) =
    (entryAt table i).yankedChars.length + linkLength table (i + 1) n := by
  rw [linkLength, links_succ, List.map_cons, List.sum_cons, ← linkLength]

theorem linkLength_le (table : Buffer) (i n : Nat) : linkLength table i n ≤ ChunkLength * n := by
  induction n generalizing i with
  | zero => exact Nat.zero_le _
  | succ n ih =>
    have hlen := (List.takeWhile_prefix (l := (entryAt table i).linkChars) (· != 0)).length_le
    have hrest := ih (i + 1)
    rw [linkLength_succ, Nat.mul_succ]
    exact (Nat.add_le_add hlen hrest).trans_eq (Nat.add_comm ..)

theorem storedChars_length (e : DirEntry) :
    e.storedChars.length = min (e.yankedChars.length + 1) ChunkLength :=
  List.length_take

namespace NumberedChain
variable (h : NumberedChain table count i n)
include h

/-- The one place that is too small is that of the link of number 20. -/
theorem linkChain_iff :
    LinkChain table i n ↔ (n = 20 → (entryAt table i).yankedChars.length ≤ 8) := by
  have hmax := h.max
  constructor
  · rintro hchain rfl
    have hinside : (entryAt table i).bucket + (entryAt table i).storedChars.length ≤ MAX_LONGNAME :=
      (hchain.stores 0 (by decide)).inside
    have hnumber : (entryAt table i).sequenceNumber = 20 := h.numbers 0 (by decide)
    rw [DirEntry.bucket, hnumber, storedChars_length, MAX_LONGNAME, LONGNAME_LENGTH,
      ChunkLength] at hinside
    omega
  · intro hfits
    refine ⟨h.pos, fun k hk => ⟨?_, ?_, ?_⟩, fun k hk => ?_⟩
    · rw [h.numbers k hk]
      omega
    · rw [h.numbers k hk, MaxChainLength]
      omega
    · rw [DirEntry.bucket, h.numbers k hk, storedChars_length, MAX_LONGNAME, LONGNAME_LENGTH,
        ChunkLength]
      by_cases htop : n = 20 ∧ k = 0
      · have htail : (entryAt table (i + k)).yankedChars.length ≤ 8 := by
          rw [htop.2]
          exact hfits htop.1
        omega
      · omega
    · rw [h.numbers k hk]
      omega

theorem length_unique {m : Nat} (hm : LinkChain table i m) : m = n := by
  have hpos := hm.pos
  rcases Nat.lt_or_ge n m with hlt | hge
  · have hlast := hm.last (n - 1) (by omega)
    rw [h.numbers (n - 1) (by have := h.pos; omega)] at hlast
    have := h.pos
    omega
  · have hlast := hm.last (m - 1) (by omega)
    rw [h.numbers (m - 1) (by omega)] at hlast
    omega

theorem linkLength_bounds (hchain : LinkChain table i n) :
    1 ≤ linkLength table i n ∧ linkLength table i n < MAX_LONGNAME := by
  obtain ⟨m, rfl⟩ : ∃ m, n = m + 1 := ⟨n - 1, by have := h.pos; omega⟩
  have hfits := h.linkChain_iff.mp hchain
  have hmax := h.max
  have hfirst : 1 ≤ (entryAt table i).yankedChars.length :=
    List.length_pos_of_ne_nil (h.contents 0 (Nat.succ_pos m))
  have hlen : (entryAt table i).yankedChars.length ≤ 13 :=
    (List.takeWhile_prefix (l := (entryAt table i).linkChars) (· != 0)).length_le
  have hrest := linkLength_le table (i + 1) m
  rw [ChunkLength] at hrest
  rw [linkLength_succ, MAX_LONGNAME, LONGNAME_LENGTH]
  refine ⟨by omega, ?_⟩
  by_cases htop : m = 19
  · have := hfits (by omega)
    omega
  · omega

/-- The link of number 1 is read last, and its first character is the first one of the name. -/
theorem first_char (host : Host) : (gathered host table i n).dst 0 ≠ 0 := by
  obtain ⟨m, rfl⟩ : ∃ m, n = m + 1 := ⟨n - 1, by have := h.pos; omega⟩
  have hnumber := h.numbers m (Nat.lt_succ_self m)
  have hcontents := h.contents m (Nat.lt_succ_self m)
  rw [gathered, links_concat, List.foldl_concat, LinkScan.yank]
  generalize entryAt table (i + m) = e at hnumber hcontents ⊢
  obtain ⟨c, rest, hyank⟩ := List.exists_cons_of_ne_nil hcontents
  have hc : c ≠ 0 := by
    have hmem : c ∈ e.yankedChars := by rw [hyank]; exact List.mem_cons_self ..
    simpa using List.mem_takeWhile_imp hmem
  have hbucket : e.bucket = 0 := by
    rw [DirEntry.bucket, hnumber]
    simp
  rw [hbucket, DirEntry.storedChars_eq, hyank, List.cons_append, List.map_cons]
  change (c.zeroExtend 32 : BitVec 32) ≠ 0
  intro hzero
  refine hc (BitVec.eq_of_toNat_eq ?_)
  have hnat := congrArg BitVec.toNat hzero
  rw [BitVec.toNat_setWidth_of_le (by decide)] at hnat
  exact hnat

/-- A chain that fits has a name if and only if it passes the test. -/
theorem getLongName_eq (host : Host) (hchain : LinkChain table i n) :
    ∃ name, getLongName host table count i = .ok (name, i + n) ∧
      (name ≠ [] ↔ checksumTest table i n = true) := by
  obtain ⟨hpos, hmax⟩ := h.linkLength_bounds hchain
  refine ⟨_, (getLongName_chain_iff host table i h.start _ _).mpr
    ⟨n, h.room, hchain, rfl, fun _ => hmax, rfl⟩, ?_⟩
  by_cases htest : checksumTest table i n = true
  · refine iff_of_true (fun hnil => ?_) htest
    obtain ⟨len, hlen⟩ : ∃ len, linkLength table i n = len + 1 :=
      ⟨_, (Nat.sub_add_cancel hpos).symm⟩
    have hhead : ((gathered host table i n).dst (0 + 0) != 0) = true :=
      bne_iff_ne.mpr (h.first_char host)
    rw [if_pos htest, hlen, slice, List.range_succ_eq_map, List.map_cons,
      List.takeWhile_cons, if_pos hhead] at hnil
    cases hnil
  · rw [if_neg htest]
    exact iff_of_false (fun hne => hne rfl) htest

end NumberedChain

/-- Whatever the key, a call returns a name exactly where every link has the short name's checksum,
if and only if the top link's characters have their place, and either no link differs, or the last
one does, or the differences do not cancel out. -/
theorem long_name_checksum_iff (host : Host) (key : Byte) (table : Buffer) (count i n : Nat)
    (h : NumberedChain table count i n) :
    (∃ name j, getLongNameKeyed host key table count i = .ok (name, j) ∧
        (name ≠ [] ↔ ∀ k < n, (entryAt table (i + k)).checksum =
          (entryAt table (i + n)).getShortNameChecksum)) ↔
      (n = 20 → (entryAt table i).yankedChars.length ≤ 8) ∧
        ((∀ d ∈ differences table i n, d = 0) ∨ (differences table i n).getLast? ≠ some 0 ∨
          xorAll (differences table i n) ≠ 0) := by
  rw [getLongNameKeyed_eq, ← h.linkChain_iff, ← differences_zero_iff]
  by_cases hchain : LinkChain table i n
  · obtain ⟨name, hget, hname⟩ := h.getLongName_eq host hchain
    have htest := hname.trans (checksumTest_iff h.pos)
    rw [and_iff_right hchain]
    constructor
    · rintro ⟨name', j, hget', hkept⟩
      obtain ⟨rfl, -⟩ := Prod.mk.inj (Except.ok.inj (hget.symm.trans hget'))
      by_contra hnone
      simp only [not_or, not_not] at hnone
      exact hnone.1 (hkept.mp (htest.mpr hnone.2))
    · intro hor
      refine ⟨name, i + n, hget, htest.trans ⟨fun hpass => ?_, fun hzero => ⟨?_, ?_⟩⟩⟩
      · exact hor.resolve_right (not_or.mpr ⟨not_not.mpr hpass.1, not_not.mpr hpass.2⟩)
      · have hne : differences table i n ≠ [] := by
          rw [differences, links]
          simpa using Nat.ne_of_gt h.pos
        rw [List.getLast?_eq_some_getLast hne, hzero _ (List.getLast_mem hne)]
      · exact xorAll_of_zero hzero
  · refine iff_of_false ?_ fun hc => hchain hc.1
    rintro ⟨name, j, hget, -⟩
    obtain ⟨m, -, hm, -⟩ := (getLongName_chain_iff host table i h.start name j).mp hget
    exact hchain (h.length_unique hm ▸ hm)

end Numbered

theorem wrongChain_numbered {cksum : Byte} (hc : cksum = 0 ∨ cksum = 1) :
    NumberedChain (wrongChain cksum) 4 0 3 := by
  obtain ⟨h0, h1, h2, -⟩ := wrongChain_entries cksum
  have hstart : (topLink 3 cksum).StartsChain := by rcases hc with rfl | rfl <;> decide
  have hthree : (topLink 3 cksum).sequenceNumber = 3 ∧ (topLink 3 cksum).yankedChars = [0x61] := by
    rcases hc with rfl | rfl <;> decide
  have htwo : (lowerLink 2 cksum).sequenceNumber = 2 ∧
      (lowerLink 2 cksum).yankedChars = [0x61] := by
    rcases hc with rfl | rfl <;> decide
  have hone : (lowerLink 1 0).sequenceNumber = 1 ∧ (lowerLink 1 0).yankedChars = [0x61] := by decide
  refine ⟨by rwa [h0], by decide, by decide, by decide, fun k hk => ?_, fun k hk => ?_⟩
  · match k, hk with
    | 0, _ => rw [h0, hthree.1]
    | 1, _ => rw [h1, htwo.1]
    | 2, _ => rw [h2, hone.1]
  · match k, hk with
    | 0, _ => rw [h0, hthree.2]; exact List.cons_ne_nil _ _
    | 1, _ => rw [h1, htwo.2]; exact List.cons_ne_nil _ _
    | 2, _ => rw [h2, hone.2]; exact List.cons_ne_nil _ _

theorem wrongChain_differences {cksum : Byte} (hc : cksum = 0 ∨ cksum = 1) :
    differences (wrongChain cksum) 0 3 = [cksum, cksum, 0] := by
  obtain ⟨h0, h1, h2, h3⟩ := wrongChain_entries cksum
  have hshort : (entryAt (fun _ => 0) 3).getShortNameChecksum = 0 := by decide +kernel
  rw [differences, links_succ, links_succ, links_succ, h0, h1, h2, h3, hshort]
  rcases hc with rfl | rfl <;> decide

theorem long_name_checksum_right :
    ∃ name j, getLongNameKeyed emptyHost 0x5A (wrongChain 0) 4 0 = .ok (name, j) ∧
      (name ≠ [] ↔ ∀ k < 3, (entryAt (wrongChain 0) (0 + k)).checksum =
        (entryAt (wrongChain 0) (0 + 3)).getShortNameChecksum) := by
  refine (long_name_checksum_iff emptyHost 0x5A (wrongChain 0) 4 0 3
    (wrongChain_numbered (Or.inl rfl))).mpr ⟨by decide, Or.inl ?_⟩
  rw [wrongChain_differences (Or.inl rfl)]
  decide

/-- Two wrong checksums cancel out. -/
theorem long_name_checksum_wrong :
    ¬ ∃ name j, getLongNameKeyed emptyHost 0x5A (wrongChain 1) 4 0 = .ok (name, j) ∧
      (name ≠ [] ↔ ∀ k < 3, (entryAt (wrongChain 1) (0 + k)).checksum =
        (entryAt (wrongChain 1) (0 + 3)).getShortNameChecksum) := by
  rintro ⟨name', j, hget', hkept⟩
  have h : NumberedChain (wrongChain 1) 4 0 3 := wrongChain_numbered (Or.inr rfl)
  obtain ⟨name, hget, hname⟩ := h.getLongName_eq emptyHost (h.linkChain_iff.mpr nofun)
  rw [getLongNameKeyed_eq] at hget'
  obtain ⟨rfl, -⟩ := Prod.mk.inj (Except.ok.inj (hget.symm.trans hget'))
  have htest : checksumTest (wrongChain 1) 0 3 = true := by
    rw [checksumTest_iff (by decide), wrongChain_differences (Or.inr rfl)]
    decide
  have hzero := differences_zero_iff.mpr (hkept.mp (hname.mpr htest))
  rw [wrongChain_differences (Or.inr rfl)] at hzero
  exact absurd (hzero 1 (by decide)) (by decide)

end Ohwes.Fatfs
