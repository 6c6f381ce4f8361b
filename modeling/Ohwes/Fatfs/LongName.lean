import Ohwes.Fatfs.FindFile

/-! # Long names

`SetLongName` cuts a name into links of 13 characters, which stand in the table in reverse order before
the entry of the short name; `GetLongName` puts them together again. What the one stores the other
reads back (`longName_round_trip`). -/

namespace Ohwes.Fatfs
open Library
set_option autoImplicit false

/-! ## `SetLongName` -/

/-- The character classes of the host's locale. -/
structure WideClass where
  iswspace : BitVec 32 → Bool
  isalnum : BitVec 32 → Bool

/-- A link; the names are of 5, 6 and 2 characters. -/
structure LongFileName where
  sequenceNumber : Nat
  firstInChain : Bool
  name1 : List (BitVec 16)
  attributes : Byte
  reserved2 : Byte
  checksum : Byte
  name2 : List (BitVec 16)
  firstCluster : BitVec 16
  name3 : List (BitVec 16)
  deriving DecidableEq

/-- All three of the fills start at the first name; they reach over the attributes. -/
def initLongFileNameLink (seq : Nat) : LongFileName where
  sequenceNumber := seq
  firstInChain := false
  name1 := List.replicate 5 0xFFFF
  attributes := ATTR_LFN
  reserved2 := 0xFF
  checksum := 0
  name2 := List.replicate 6 0
  firstCluster := 0
  name3 := List.replicate 2 0

def lowByte (c : BitVec 16) : Byte := c.extractLsb' 0 8

def highByte (c : BitVec 16) : Byte := c.extractLsb' 8 8

def linkByte (seq : Nat) (first : Bool) : Byte :=
  BitVec.ofNat 8 (seq % 64) ||| if first then 0x40 else 0

/-- The link as an entry of the table. -/
def LongFileName.toEntry (l : LongFileName) : DirEntry where
  label :=
    #v[linkByte l.sequenceNumber l.firstInChain,
      lowByte (l.name1.getD 0 0), highByte (l.name1.getD 0 0),
      lowByte (l.name1.getD 1 0), highByte (l.name1.getD 1 0),
      lowByte (l.name1.getD 2 0), highByte (l.name1.getD 2 0),
      lowByte (l.name1.getD 3 0), highByte (l.name1.getD 3 0),
      lowByte (l.name1.getD 4 0), highByte (l.name1.getD 4 0)]
  attributes := l.attributes
  reserved1 := l.reserved2
  reserved2 := l.checksum
  creationTime := l.name2.getD 0 0
  creationDate := l.name2.getD 1 0
  accessedDate := l.name2.getD 2 0
  reserved3 := l.name2.getD 3 0
  modifiedTime := l.name2.getD 4 0
  modifiedDate := l.name2.getD 5 0
  firstCluster := l.firstCluster
  fileSize := l.name3.getD 1 0 ++ l.name3.getD 0 0

/-- `PutChars`: the field with the characters from `p` on, and where the next field goes on. At the
NUL the source does not move on, so that each field behind it begins with a NUL. -/
def putChars (srcCopy : List (BitVec 32)) : List (BitVec 16) → Nat → Call (List (BitVec 16) × Nat)
  | [], p => .ok ([], p)
  | _ :: buf, p =>
    match srcCopy[p]? with
    | none => .error .fault
    | some c =>
      if c = 0 then .ok (0 :: buf, p)
      else (putChars srcCopy buf (p + 1)).map fun r => (c.truncate 16 :: r.1, r.2)

section Set
variable (cls : WideClass)

/-- The name without the spaces around it and the dots behind it; one character always stays. -/
def trimLongName (src : List (BitVec 32)) : List (BitVec 32) :=
  match src.dropWhile cls.iswspace with
  | [] => []
  | c :: rest => c :: rest.rdropWhile fun c => cls.iswspace c || c == 0x2E

/-- `wchar_t` is signed. A backslash is let through, for the source has a grave accent in its place. -/
def validLongChar (c : BitVec 32) : Bool :=
  cls.isalnum c || c == 0x20 || 0x7F < c.toInt ||
    !([0x22, 0x2A, 0x2F, 0x3A, 0x3C, 0x3E, 0x3F, 0x60, 0x7C].contains c)

/-- The link of number `seq`. -/
def putLink (srcCopy : List (BitVec 32)) (cksum : Byte) (linkCount seq : Nat) :
    Call LongFileName := do
  let lfn := initLongFileNameLink seq
  let (name1, p) ← putChars srcCopy lfn.name1 ((seq - 1) * ChunkLength)
  let (name2, p) ← putChars srcCopy lfn.name2 p
  let (name3, _) ← putChars srcCopy lfn.name3 p
  .ok { lfn with
    firstInChain := seq == linkCount
    checksum := cksum
    name1 := name1
    name2 := name2
    name3 := name3 }

/-- The links from `seq` down to the first one, and the entry of the short name behind them. -/
def putLinks (srcCopy : List (BitVec 32)) (sfn : DirEntry) (linkCount count : Nat) :
    Nat → Buffer → Nat → Call (Buffer × Nat)
  | 0, table, i => if i < count then .ok (storeEntry table i sfn, i) else .error .fault
  | seq + 1, table, i =>
    if i < count then do
      let lfn ← putLink srcCopy sfn.getShortNameChecksum linkCount (seq + 1)
      putLinks srcCopy sfn linkCount count seq (storeEntry table i lfn.toEntry) (i + 1)
    else .error .fault

/-- The table of `count` entries and the pointer after a success, which is at entry `i` before. -/
def setLongName (table : Buffer) (count i : Nat) (src : List (BitVec 32)) (sfn : DirEntry) :
    Call (Option (Buffer × Nat)) :=
  let name := trimLongName cls src
  if name.length = 0 ∨ name.length > LONGNAME_LENGTH then .ok none
  else if !name.all (validLongChar cls) then .ok none
  else do
    let srcCopy := name ++ List.replicate (MAX_LONGNAME - name.length) 0
    let linkCount := (name.length + ChunkLength - 1) / ChunkLength
    assert (linkCount ≤ MaxChainLength)
    let r ← putLinks srcCopy sfn linkCount count linkCount table i
    .ok (some r)

end Set

/-! ## The characters of a link -/

/-- A field that is filled with the characters of a name, and with the NUL behind the last one. -/
def nameField : List (BitVec 32) → List (BitVec 16) → List (BitVec 16)
  | _, [] => []
  | [], _ :: buf => 0 :: buf
  | c :: u, _ :: buf => c.truncate 16 :: nameField u buf

section Field
variable {t u : List (BitVec 32)}

theorem nameField_length (u : List (BitVec 32)) (buf : List (BitVec 16)) :
    (nameField u buf).length = buf.length := by
  induction buf generalizing u with
  | nil => cases u <;> rfl
  | cons b buf ih =>
    cases u with
    | nil => rfl
    | cons c u => exact congrArg Nat.succ (ih u)

/-- The characters that `SetLongName` has to do with. -/
def LinkChar (c : BitVec 32) : Prop := c ≠ 0 ∧ c.toNat ≤ 0xFFFF

theorem LinkChar.truncate_ne {c : BitVec 32} (h : LinkChar c) : c.truncate 16 ≠ 0#16 := by
  intro h0
  refine h.1 (BitVec.eq_of_toNat_eq ?_)
  have hzero := congrArg BitVec.toNat h0
  rw [BitVec.truncate_eq_setWidth, BitVec.toNat_setWidth, Nat.mod_eq_of_lt (by have := h.2; omega)]
    at hzero
  exact hzero

theorem LinkChar.extend {c : BitVec 32} (h : LinkChar c) :
    (c.truncate 16 : BitVec 16).zeroExtend 32 = c := by
  refine BitVec.eq_of_toNat_eq ?_
  have := h.2
  simp only [BitVec.truncate_eq_setWidth, BitVec.toNat_setWidth]
  omega

theorem putChars_eq (ht : ∀ c ∈ t, c ≠ 0) (z : List (BitVec 32)) (buf : List (BitVec 16))
    {p : Nat} (hp : p ≤ t.length) :
    putChars (t ++ 0 :: z) buf p =
      .ok (nameField (t.drop p) buf, min (p + buf.length) t.length) := by
  induction buf generalizing p with
  | nil => cases h : t.drop p <;> simp [putChars, nameField, Nat.min_eq_left hp]
  | cons b buf ih =>
    rw [putChars]
    rcases Nat.lt_or_eq_of_le hp with hlt | rfl
    · have hget : (t ++ 0 :: z)[p]? = some t[p] := by
        rw [List.getElem?_append_left hlt, List.getElem?_eq_getElem hlt]
      have hne : t[p] ≠ 0 := ht _ (List.getElem_mem hlt)
      have hlen : p + 1 + buf.length = p + (b :: buf).length := by
        rw [List.length_cons]
        omega
      rw [hget, List.drop_eq_getElem_cons hlt]
      dsimp only
      rw [if_neg hne, ih hlt, hlen]
      rfl
    · have hget : (t ++ 0 :: z)[t.length]? = some 0 := by simp
      have hmin : min (t.length + (b :: buf).length) t.length = t.length := by omega
      rw [hget, List.drop_length, hmin]
      rfl

/-- A field and the fields that go on with the name behind it. -/
theorem takeWhile_nameField (hu : ∀ c ∈ u, LinkChar c) {buf rest : List (BitVec 16)} {k : Nat}
    (hrest : rest.takeWhile (· != 0) = ((u.drop buf.length).take k).map (·.truncate 16)) :
    (nameField u buf ++ rest).takeWhile (· != 0) =
      (u.take (buf.length + k)).map (·.truncate 16) := by
  induction buf generalizing u with
  | nil => cases u <;> simpa [nameField] using hrest
  | cons b buf ih =>
    cases u with
    | nil => simp [nameField]
    | cons c u =>
      have hc := (hu c (List.mem_cons_self ..)).truncate_ne
      have hlen : (b :: buf).length + k = buf.length + k + 1 := by
        rw [List.length_cons]
        omega
      rw [nameField, List.cons_append, List.takeWhile_cons_of_pos (by simpa using hc),
        ih (fun d hd => hu d (List.mem_cons_of_mem c hd)) hrest, hlen]
      rfl

theorem takeWhile_nameField_last (hu : ∀ c ∈ u, LinkChar c) (buf : List (BitVec 16)) :
    (nameField u buf).takeWhile (· != 0) = (u.take buf.length).map (·.truncate 16) := by
  have hnil : ([] : List (BitVec 16)).takeWhile (· != 0) =
      ((u.drop buf.length).take 0).map (·.truncate 16) := by simp
  simpa using takeWhile_nameField hu hnil

theorem takeWhile_fields (hu : ∀ c ∈ u, LinkChar c) {b1 b2 b3 : List (BitVec 16)}
    (h1 : b1.length = 5) (h2 : b2.length = 6) (h3 : b3.length = 2) :
    (nameField u b1 ++ (nameField (u.drop 5) b2 ++ nameField (u.drop 11) b3)).takeWhile (· != 0) =
      (u.take ChunkLength).map (·.truncate 16) := by
  have hdrop (n : Nat) : ∀ c ∈ u.drop n, LinkChar c := fun c hc => hu c (List.mem_of_mem_drop hc)
  have hlast := takeWhile_nameField_last (hdrop 11) b3
  rw [h3, show 11 = 5 + 6 from rfl, ← List.drop_drop, ← h2] at hlast
  have hrest := takeWhile_nameField (hdrop 5) hlast
  rw [List.drop_drop, h2, ← h1] at hrest
  have hall := takeWhile_nameField hu hrest
  rwa [h1] at hall

end Field

/-! ## A link as an entry -/

section Link
variable {l : LongFileName}

theorem LongFileName.linkChars_toEntry (h1 : l.name1.length = 5) (h2 : l.name2.length = 6)
    (h3 : l.name3.length = 2) : l.toEntry.linkChars = l.name1 ++ l.name2 ++ l.name3 := by
  have hpair (c : BitVec 16) : (highByte c ++ lowByte c : BitVec 16) = c :=
    BitVec.extractLsb'_append_extractLsb'
  obtain ⟨seq, first, n1, attr, r2, sum, n2, cl, n3⟩ := l
  match n1, n2, n3, h1, h2, h3 with
  | [a, b, c, d, e], [f, g, h, i, j, k], [m, n], _, _, _ =>
    rw [DirEntry.linkChars]
    have hlow : (n ++ m : BitVec 32).extractLsb' 0 16 = m := BitVec.extractLsb'_append_eq_right
    have hhigh : (n ++ m : BitVec 32).extractLsb' 16 16 = n := BitVec.extractLsb'_append_eq_left
    simp [LongFileName.toEntry, hpair, hlow, hhigh]

theorem linkByte_parts : ∀ seq < 64, ∀ first : Bool,
    (linkByte seq first &&& 0x3F).toNat = seq ∧ (linkByte seq first &&& 0x40 != 0) = first ∧
      (linkByte seq first == 0xE5) = false := by
  decide

theorem LongFileName.sequenceNumber_toEntry (h : l.sequenceNumber < 64) :
    l.toEntry.sequenceNumber = l.sequenceNumber :=
  (linkByte_parts l.sequenceNumber h l.firstInChain).1

theorem LongFileName.firstInChain_toEntry (h : l.sequenceNumber < 64) :
    l.toEntry.firstInChain = l.firstInChain :=
  (linkByte_parts l.sequenceNumber h l.firstInChain).2.1

theorem LongFileName.isDeleted_toEntry (h : l.sequenceNumber < 64) :
    l.toEntry.isDeleted = false :=
  (linkByte_parts l.sequenceNumber h l.firstInChain).2.2

end Link

/-! ## What `SetLongName` stores -/

section Stored
variable (t : List (BitVec 32)) (cksum : Byte) (linkCount : Nat)

/-- The characters that link `seq` is for. -/
def chunk (seq : Nat) : List (BitVec 32) := (t.drop ((seq - 1) * ChunkLength)).take ChunkLength

def linkOf (seq : Nat) : LongFileName :=
  let lfn := initLongFileNameLink seq
  let u := t.drop ((seq - 1) * ChunkLength)
  { lfn with
    firstInChain := seq == linkCount
    checksum := cksum
    name1 := nameField u lfn.name1
    name2 := nameField (u.drop 5) lfn.name2
    name3 := nameField (u.drop 11) lfn.name3 }

variable {t}

theorem putLink_eq (ht : ∀ c ∈ t, c ≠ 0) (z : List (BitVec 32)) {seq : Nat}
    (hseq : (seq - 1) * ChunkLength ≤ t.length) :
    putLink (t ++ 0 :: z) cksum linkCount seq = .ok (linkOf t cksum linkCount seq) := by
  have hmin (n : Nat) : t.drop (min n t.length) = t.drop n := by
    rcases Nat.le_total n t.length with h | h
    · rw [Nat.min_eq_left h]
    · rw [Nat.min_eq_right h, List.drop_length, List.drop_eq_nil_of_le h]
  rw [putLink, putChars_eq ht z _ hseq, ok_bind]
  dsimp only
  rw [putChars_eq ht z _ (Nat.min_le_right ..), ok_bind]
  dsimp only
  rw [putChars_eq ht z _ (Nat.min_le_right ..), ok_bind, linkOf]
  have hmin_add (n : Nat) : t.drop (min n t.length + 6) = t.drop (n + 6) := by
    rw [← List.drop_drop, hmin, List.drop_drop]
  simp only [hmin, hmin_add, initLongFileNameLink, List.length_replicate, List.drop_drop,
    Nat.add_assoc]

theorem yankedChars_linkOf (ht : ∀ c ∈ t, LinkChar c) (seq : Nat) :
    (linkOf t cksum linkCount seq).toEntry.yankedChars = (chunk t seq).map (·.truncate 16) := by
  have hu : ∀ c ∈ t.drop ((seq - 1) * ChunkLength), LinkChar c :=
    fun c hc => ht c (List.mem_of_mem_drop hc)
  rw [DirEntry.yankedChars, LongFileName.linkChars_toEntry, List.append_assoc]
  · exact takeWhile_fields hu rfl rfl rfl
  all_goals simp [linkOf, nameField_length, initLongFileNameLink]

end Stored

section Chain
variable (t : List (BitVec 32)) (linkCount : Nat) (sfn : DirEntry)

/-- From entry `j` on stand the links from `m` down to the first one, and the short name. -/
def LinksAt (table : Buffer) : Nat → Nat → Prop
  | 0, j => entryAt table j = sfn
  | m + 1, j =>
    entryAt table j = (linkOf t sfn.getShortNameChecksum linkCount (m + 1)).toEntry ∧
      LinksAt table m (j + 1)

variable {t} (ht : ∀ c ∈ t, c ≠ 0) (z : List (BitVec 32)) (count : Nat)
include ht

/-- The links are stored behind the entries that stood there before. -/
theorem putLinks_spec {seq i : Nat} (hseq : (seq - 1) * ChunkLength ≤ t.length)
    (hroom : i + seq < count) (table : Buffer) :
    ∃ table', putLinks (t ++ 0 :: z) sfn linkCount count seq table i = .ok (table', i + seq) ∧
      LinksAt t linkCount sfn table' seq i ∧ ∀ a < i, entryAt table' a = entryAt table a := by
  induction seq generalizing i table with
  | zero =>
    refine ⟨storeEntry table i sfn, ?_, ?_, fun a ha => ?_⟩
    · rw [putLinks, if_pos (by omega), Nat.add_zero]
    · rw [LinksAt, entryAt_storeEntry, if_pos rfl]
    · rw [entryAt_storeEntry, if_neg (by omega)]
  | succ seq ih =>
    have hprev : (seq - 1) * ChunkLength ≤ t.length :=
      (Nat.mul_le_mul_right ChunkLength (by omega : seq - 1 ≤ seq + 1 - 1)).trans hseq
    let link := (linkOf t sfn.getShortNameChecksum linkCount (seq + 1)).toEntry
    obtain ⟨table', hput, hlinks, hframe⟩ := ih hprev (by omega : i + 1 + seq < count)
      (storeEntry table i link)
    refine ⟨table', ?_, ⟨?_, hlinks⟩, fun a ha => ?_⟩
    · rw [putLinks, if_pos (by omega), putLink_eq _ _ ht z hseq, ok_bind]
      rw [hput, show i + 1 + seq = i + (seq + 1) by omega]
    · rw [hframe i (by omega), entryAt_storeEntry, if_pos rfl]
    · rw [hframe a (by omega), entryAt_storeEntry, if_neg (by omega)]

end Chain

/-! ## What `GetLongName` reads -/

theorem DirEntry.storedChars_eq (e : DirEntry) :
    e.storedChars = e.yankedChars ++ (e.linkChars.drop e.yankedChars.length).take 1 := by
  have htake : e.linkChars.take e.yankedChars.length = e.yankedChars :=
    (List.prefix_iff_eq_take.mp (List.takeWhile_prefix _)).symm
  rw [DirEntry.storedChars, List.take_add, htake]

theorem DirEntry.storedChars_length_le (e : DirEntry) :
    e.storedChars.length ≤ ChunkLength ∧ e.storedChars.length ≤ e.yankedChars.length + 1 := by
  have hlen : e.linkChars.length = ChunkLength := rfl
  rw [DirEntry.storedChars, List.length_take, hlen]
  omega

section Read
variable (t : List (BitVec 32)) (linkCount : Nat) (sum : Byte)

/-- The links above `m` have been read. -/
structure ScanAt (s : LinkScan) (m : Nat) : Prop where
  len : s.len = t.length - ChunkLength * m
  count : s.count = linkCount - m
  cksum : s.cksum = if (linkCount - m) % 2 = 1 then sum else 0
  lastsum : m < linkCount → s.lastsum = sum
  dst : ∀ a, ChunkLength * m ≤ a → ∀ ha : a < t.length, s.dst a = t[a]

variable {t linkCount sum}

theorem scanAt_start (junk : Nat → BitVec 32) (h : t.length ≤ ChunkLength * linkCount) :
    ScanAt t linkCount sum ⟨junk, 0, 0, 0, 0⟩ linkCount where
  len := (Nat.sub_eq_zero_of_le h).symm
  count := (Nat.sub_self linkCount).symm
  cksum := by simp
  lastsum := fun hlt => absurd hlt (Nat.lt_irrefl _)
  dst := fun a ha hlt => absurd hlt (by omega)

theorem bucket_linkOf {m : Nat} (hm : m + 1 < 64) :
    (linkOf t sum linkCount (m + 1)).toEntry.bucket = ChunkLength * m := by
  rw [DirEntry.bucket, LongFileName.sequenceNumber_toEntry hm, Nat.mul_comm]
  rfl

theorem rolled_checksum {n : Nat} {c : Byte} (h : c = if n % 2 = 1 then sum else 0) :
    c ^^^ sum = if (n + 1) % 2 = 1 then sum else 0 := by
  rcases Nat.mod_two_eq_zero_or_one n with hn | hn
  · rw [h, if_neg (by omega), if_pos (by omega)]
    exact BitVec.zero_xor
  · rw [h, if_pos hn, if_neg (by omega)]
    exact BitVec.xor_self

variable (ht : ∀ c ∈ t, LinkChar c)
include ht

theorem yankedChars_length (m : Nat) :
    (linkOf t sum linkCount (m + 1)).toEntry.yankedChars.length =
      min ChunkLength (t.length - ChunkLength * m) := by
  rw [yankedChars_linkOf _ _ ht, List.length_map, chunk, List.length_take, List.length_drop,
    Nat.add_sub_cancel, Nat.mul_comm]

theorem yankedChars_getElem {m k : Nat}
    (hk : k < (linkOf t sum linkCount (m + 1)).toEntry.yankedChars.length)
    (ha : ChunkLength * m + k < t.length) :
    ((linkOf t sum linkCount (m + 1)).toEntry.yankedChars[k]).zeroExtend 32 =
      t[ChunkLength * m + k] := by
  have hchar := (ht _ (List.getElem_mem ha)).extend
  simp only [yankedChars_linkOf _ _ ht, chunk, List.getElem_map, List.getElem_take,
    List.getElem_drop, Nat.add_sub_cancel, Nat.mul_comm m]
  exact hchar

/-- The characters of link `m + 1` have found their place; nothing behind them was touched. -/
theorem yank_dst {s : LinkScan} {m : Nat} (h : ScanAt t linkCount sum s (m + 1))
    (hsmall : m + 1 < 64) {a : Nat} (hlow : ChunkLength * m ≤ a) (ha : a < t.length) :
    (s.yank (linkOf t sum linkCount (m + 1)).toEntry).dst a = t[a] := by
  have hlen : (linkOf t sum linkCount (m + 1)).toEntry.yankedChars.length =
    min ChunkLength (t.length - ChunkLength * m) := yankedChars_length ht m
  obtain ⟨k, rfl⟩ := Nat.exists_eq_add_of_le hlow
  by_cases hk : k < (linkOf t sum linkCount (m + 1)).toEntry.yankedChars.length
  · rw [LinkScan.yank, DirEntry.storedChars_eq, List.map_append, ← overlay_append,
      bucket_linkOf hsmall]
    dsimp only
    rw [overlay_before _ _ (by rw [List.length_map]; omega),
      overlay_inside _ _ (by rwa [List.length_map]), List.getElem_map]
    exact yankedChars_getElem ht hk ha
  · have hstored := (linkOf t sum linkCount (m + 1)).toEntry.storedChars_length_le.1
    have hbehind : ChunkLength * (m + 1) ≤ ChunkLength * m + k := by
      rw [Nat.mul_succ]
      omega
    rw [LinkScan.yank, bucket_linkOf hsmall]
    dsimp only
    rw [overlay_after _ _ (by rw [List.length_map]; omega)]
    exact h.dst _ hbehind ha

theorem ScanAt.yank {s : LinkScan} {m : Nat} (h : ScanAt t linkCount sum s (m + 1))
    (hm : m < linkCount) (hsmall : m + 1 < 64) (hlen : ChunkLength * m < t.length) :
    ScanAt t linkCount sum (s.yank (linkOf t sum linkCount (m + 1)).toEntry) m := by
  have hsub : linkCount - m = linkCount - (m + 1) + 1 := by omega
  constructor
  case len =>
    rw [LinkScan.yank]
    dsimp only
    rw [h.len, yankedChars_length ht, Nat.mul_succ]
    omega
  case count =>
    rw [LinkScan.yank, h.count, hsub]
  case cksum =>
    rw [hsub]
    exact rolled_checksum h.cksum
  case lastsum => exact fun _ => rfl
  case dst => exact fun a hlow ha => yank_dst ht h hsmall hlow ha

theorem stored_inside {m : Nat} (hsmall : m + 1 < 64) (hlen : ChunkLength * m < t.length)
    (hmax : t.length ≤ LONGNAME_LENGTH) :
    (linkOf t sum linkCount (m + 1)).toEntry.bucket +
      (linkOf t sum linkCount (m + 1)).toEntry.storedChars.length ≤ MAX_LONGNAME := by
  have hstored := (linkOf t sum linkCount (m + 1)).toEntry.storedChars_length_le
  rw [yankedChars_length ht] at hstored
  rw [bucket_linkOf hsmall, MAX_LONGNAME]
  omega

theorem readLinks_link {table : Buffer} {m slots j : Nat} {s : LinkScan}
    (hentry : entryAt table j = (linkOf t sum linkCount (m + 1)).toEntry)
    (hsmall : m + 1 ≤ MaxChainLength) (hlen : ChunkLength * m < t.length)
    (hmax : t.length ≤ LONGNAME_LENGTH) :
    readLinks table (slots + 1) j s =
      if 0 < m then readLinks table slots (j + 1) (s.yank (linkOf t sum linkCount (m + 1)).toEntry)
      else .ok (s.yank (linkOf t sum linkCount (m + 1)).toEntry, j + 1) := by
  have h64 : m + 1 < 64 := Nat.lt_of_le_of_lt hsmall (by decide)
  have hseq : (linkOf t sum linkCount (m + 1)).toEntry.sequenceNumber = m + 1 :=
    LongFileName.sequenceNumber_toEntry h64
  have hinside : (linkOf t sum linkCount (m + 1)).toEntry.bucket +
      (linkOf t sum linkCount (m + 1)).toEntry.storedChars.length ≤ MAX_LONGNAME :=
    stored_inside ht h64 hlen hmax
  rw [readLinks, hentry, hseq, if_neg (Nat.not_lt.mpr hsmall),
    if_neg (not_or.mpr ⟨Nat.succ_ne_zero m, Nat.not_lt.mpr hinside⟩)]
  exact if_congr (by omega) rfl rfl

theorem readLinks_spec {sfn : DirEntry} {table : Buffer} {m slots j : Nat} {s : LinkScan}
    (h : ScanAt t linkCount sfn.getShortNameChecksum s (m + 1))
    (hlinks : LinksAt t linkCount sfn table (m + 1) j) (hm : m < linkCount)
    (hcount : linkCount ≤ MaxChainLength) (hlen : ChunkLength * m < t.length)
    (hmax : t.length ≤ LONGNAME_LENGTH) (hslots : m < slots) :
    ∃ s', readLinks table slots j s = .ok (s', j + (m + 1)) ∧
      ScanAt t linkCount sfn.getShortNameChecksum s' 0 ∧ entryAt table (j + (m + 1)) = sfn := by
  induction m generalizing slots j s with
  | zero =>
    obtain ⟨hentry, hrest⟩ := hlinks
    obtain ⟨slots, rfl⟩ : ∃ k, slots = k + 1 := ⟨slots - 1, by omega⟩
    rw [readLinks_link ht hentry (hm.trans_le hcount) hlen hmax, if_neg (Nat.lt_irrefl 0)]
    exact ⟨_, rfl, h.yank ht hm (by decide) hlen, hrest⟩
  | succ m ih =>
    obtain ⟨hentry, hrest⟩ := hlinks
    obtain ⟨slots, rfl⟩ : ∃ k, slots = k + 1 := ⟨slots - 1, by omega⟩
    have h64 : m + 1 + 1 < 64 := Nat.lt_of_le_of_lt (hm.trans_le hcount) (by decide)
    have hlen' : ChunkLength * m < t.length :=
      (Nat.mul_le_mul_left ChunkLength (Nat.le_succ m)).trans_lt hlen
    have hrec := ih (h.yank ht hm h64 hlen) hrest (by omega) hlen' (Nat.lt_of_succ_lt_succ hslots)
    rw [readLinks_link ht hentry (hm.trans_le hcount) hlen hmax, if_pos (Nat.succ_pos m)]
    rwa [show j + 1 + (m + 1) = j + (m + 1 + 1) by omega] at hrec

theorem taken_back {s : LinkScan} (h : ScanAt t linkCount sum s 0) :
    (slice s.dst 0 s.len).takeWhile (· != 0) = t := by
  have hslice : slice s.dst 0 s.len = t := by
    refine List.ext_getElem? fun i => ?_
    rw [slice_getElem?, h.len, Nat.mul_zero, Nat.sub_zero, Nat.zero_add]
    split
    · rename_i hi
      rw [h.dst i (Nat.zero_le i) hi, List.getElem?_eq_getElem hi]
    · rename_i hi
      rw [List.getElem?_eq_none (by omega)]
  rw [hslice, List.takeWhile_eq_self_iff]
  exact fun c hc => bne_iff_ne.mpr (ht c hc).1

end Read

/-! ## The round trip -/

section RoundTrip
variable (cls : WideClass) (host : Host) (table : Buffer) (count i : Nat)

theorem getLongName_links {t : List (BitVec 32)} {sfn : DirEntry} {linkCount : Nat}
    (ht : ∀ c ∈ t, LinkChar c) (hmax : t.length ≤ LONGNAME_LENGTH) (hpos : 0 < linkCount)
    (hcount : linkCount ≤ MaxChainLength) (hlast : ChunkLength * (linkCount - 1) < t.length)
    (hall : t.length ≤ ChunkLength * linkCount) (hroom : i + linkCount < count)
    (hlinks : LinksAt t linkCount sfn table linkCount i) :
    getLongName host table count i = .ok (t, i + linkCount) ∧ entryAt table (i + linkCount) = sfn := by
  obtain ⟨m, rfl⟩ : ∃ m, linkCount = m + 1 := ⟨linkCount - 1, by omega⟩
  obtain ⟨s, hread, hscan, hsfn⟩ := readLinks_spec ht (scanAt_start host.wideJunk hall) hlinks
    (Nat.lt_succ_self m) hcount hlast hmax (by omega : m < count - i)
  refine ⟨?_, hsfn⟩
  have h64 : m + 1 < 64 := Nat.lt_of_le_of_lt hcount (by decide)
  have hentry := hlinks.1
  generalize hl : linkOf t sfn.getShortNameChecksum (m + 1) (m + 1) = l at hentry
  have hdeleted : l.toEntry.isDeleted = false := by
    rw [← hl]
    exact LongFileName.isDeleted_toEntry h64
  have hfirst : l.toEntry.firstInChain = true := by
    rw [← hl]
    exact (LongFileName.firstInChain_toEntry h64).trans (beq_self_eq_true (m + 1))
  have hlong : l.toEntry.isLongFileName = true := by
    have hattr : l.toEntry.attributes = ATTR_LFN := by rw [← hl]; rfl
    have hcluster : l.toEntry.firstCluster = 0 := by rw [← hl]; rfl
    rw [DirEntry.isLongFileName, DirEntry.hasAttribute, hattr, hcluster]
    decide
  have hlen : s.len = t.length := by rw [hscan.len, Nat.mul_zero, Nat.sub_zero]
  have hsum : (if s.count % 2 = 1 then s.cksum ^^^ s.lastsum else s.cksum) = 0 := by
    rw [hscan.count, hscan.cksum, hscan.lastsum hpos]
    split
    · exact BitVec.xor_self
    · rfl
  have hmatched : ((0 : Byte) == 0 &&
      sfn.getShortNameChecksum == sfn.getShortNameChecksum) = true := by simp
  have hfits : ¬ s.len ≥ MAX_LONGNAME := by
    rw [hlen, MAX_LONGNAME]
    omega
  rw [getLongName, hentry, hdeleted, hfirst, hlong, hread]
  dsimp only
  rw [if_neg (by simp), ok_bind]
  dsimp only
  rw [if_neg (by omega), hsum, hsfn, hscan.lastsum hpos, if_pos hmatched, if_neg hfits,
    taken_back ht hscan]
  rfl

/-- The links that a name takes. -/
theorem linkCount_bounds {len n : Nat} (hpos : 1 ≤ len) (hmax : len ≤ 255)
    (hn : (len + 12) / 13 = n) :
    0 < n ∧ n ≤ MaxChainLength ∧ (n - 1) * ChunkLength < len ∧ len ≤ ChunkLength * n := by
  rw [MaxChainLength, ChunkLength]
  omega

theorem setLongName_links (sfn : DirEntry) {name t : List (BitVec 32)} {n : Nat}
    (htrim : trimLongName cls name = t) (hpos : 1 ≤ t.length) (hmax : t.length ≤ 255)
    (hvalid : ∀ c ∈ t, validLongChar cls c = true) (ht : ∀ c ∈ t, c ≠ 0)
    (hn : (t.length + 12) / 13 = n) (hroom : i + n < count) :
    ∃ table', setLongName cls table count i name sfn = .ok (some (table', i + n)) ∧
      LinksAt t n sfn table' n i := by
  obtain ⟨-, hcount, hlast, -⟩ := linkCount_bounds hpos hmax hn
  have hpad : t ++ List.replicate (MAX_LONGNAME - t.length) 0 =
      t ++ 0 :: List.replicate (LONGNAME_LENGTH - t.length) 0 := by
    have hsub : MAX_LONGNAME - t.length = LONGNAME_LENGTH - t.length + 1 := Nat.sub_add_comm hmax
    rw [hsub, List.replicate_succ]
  obtain ⟨table', hput, hlinks, -⟩ := putLinks_spec n sfn ht
    (List.replicate (LONGNAME_LENGTH - t.length) 0) count (Nat.le_of_lt hlast) hroom table
  refine ⟨table', ?_, hlinks⟩
  have hlen : ¬ (t.length = 0 ∨ t.length > LONGNAME_LENGTH) := by
    rw [LONGNAME_LENGTH]
    omega
  have hall : t.all (validLongChar cls) = true := List.all_eq_true.mpr hvalid
  have hchunks : (t.length + ChunkLength - 1) / ChunkLength = n := hn
  rw [setLongName]
  dsimp only
  rw [htrim, if_neg hlen, hall, if_neg (by simp), hpad, hchunks,
    decide_eq_true hcount, assert_true, ok_bind, hput, ok_bind]

/-- What `SetLongName` stores for a name that it takes, `GetLongName` reads back, and both go on to
the copy of the short name's entry. -/
theorem longName_round_trip (name : List (BitVec 32)) (sfn : DirEntry)
    (hpos : 1 ≤ (trimLongName cls name).length) (hmax : (trimLongName cls name).length ≤ 255)
    (hvalid : ∀ c ∈ trimLongName cls name, validLongChar cls c = true)
    (hchars : ∀ c ∈ trimLongName cls name, 1 ≤ c.toNat ∧ c.toNat ≤ 0xFFFF)
    (hroom : i + ((trimLongName cls name).length + 12) / 13 < count) :
    ∃ table' j, setLongName cls table count i name sfn = .ok (some (table', j)) ∧
      getLongName host table' count i = .ok (trimLongName cls name, j) ∧
      entryAt table' j = sfn := by
  generalize htrim : trimLongName cls name = t at *
  have ht : ∀ c ∈ t, LinkChar c := fun c hc =>
    ⟨fun h => absurd (hchars c hc).1 (by rw [h]; decide), (hchars c hc).2⟩
  generalize hn : (t.length + 12) / 13 = n at hroom
  obtain ⟨hn0, hcount, hlast, hall⟩ := linkCount_bounds hpos hmax hn
  obtain ⟨table', hset, hlinks⟩ := setLongName_links cls table count i sfn htrim hpos hmax
    hvalid (fun c hc => (ht c hc).1) hn hroom
  obtain ⟨hget, hsfn⟩ := getLongName_links host table' count i ht hmax hn0 hcount
    (by rwa [Nat.mul_comm]) hall hroom hlinks
  exact ⟨table', i + n, hset, hget, hsfn⟩

end RoundTrip

/-- The C locale. -/
def cLocale : WideClass where
  iswspace c := c == 0x20 || (0x09 ≤ c && c ≤ 0x0D)
  isalnum c := c.toNat < 0x80 && Ohwes.isalnum (c.truncate 8)

def wideText (chars : List Char) : List (BitVec 32) := chars.map fun c => BitVec.ofNat 32 c.toNat

/-- ` Kernel_Config.h..`, in two links. -/
def spacedName : List (BitVec 32) :=
  wideText [' ', 'K', 'e', 'r', 'n', 'e', 'l', '_', 'C', 'o', 'n', 'f', 'i', 'g', '.', 'h', '.', '.']

theorem trim_spacedName : trimLongName cLocale spacedName = spacedName.tail.take 15 := by decide

theorem spacedName_chars {c : BitVec 32} (h : c ∈ trimLongName cLocale spacedName) :
    1 ≤ c.toNat ∧ c.toNat ≤ 0xFFFF := by
  have hall : (spacedName.tail.take 15).all
      (fun c => decide (1 ≤ c.toNat ∧ c.toNat ≤ 0xFFFF)) = true := by decide
  rw [trim_spacedName] at h
  exact of_decide_eq_true (List.all_eq_true.mp hall c h)

theorem longName_round_trip_spaced :
    ∃ table' j, setLongName cLocale (fun _ => 0) 3 0 spacedName .zero = .ok (some (table', j)) ∧
      getLongName ⟨fun _ => [], fun _ => 0, fun _ => 0, false, ⟨0, 0, 0, 0, 0, 0⟩⟩ table' 3 0 =
        .ok (trimLongName cLocale spacedName, j) ∧
      entryAt table' j = .zero :=
  longName_round_trip cLocale _ (fun _ => 0) 3 0 spacedName .zero (by decide) (by decide)
    (List.all_eq_true.mp (by decide)) (fun _ hc => spacedName_chars hc) (by decide)

end Ohwes.Fatfs
