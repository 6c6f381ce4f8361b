import Ohwes.Fatfs.LongName

/-! # Which long names are taken

`SetLongName` is to refuse a name that is too long, one of nothing but spaces and dots, and one with
a character of the list in its comment. The check has a grave accent where the list has the
backslash, and the trimming never takes the last character away. -/

namespace Ohwes.Fatfs
open Library
set_option autoImplicit false

/-- The comment's list. -/
def notAllowed : List (BitVec 32) := [0x22, 0x2A, 0x2F, 0x3A, 0x3C, 0x3E, 0x3F, 0x5C, 0x7C]

/-- The list of the check. -/
def refusedChars : List (BitVec 32) := [0x22, 0x2A, 0x2F, 0x3A, 0x3C, 0x3E, 0x3F, 0x60, 0x7C]

theorem refusedChars_ascii (c : BitVec 32) (hc : c ∈ refusedChars) :
    (c == 0x20) = false ∧ decide (0x7F < c.toInt) = false := by
  have hall : refusedChars.all (fun c => (c == 0x20) == false && decide (0x7F < c.toInt) == false) =
    true := rfl
  simpa using List.all_eq_true.mp hall c hc

/-- The one list has the backslash, the other the grave accent. -/
theorem mem_refusedChars_iff (c : BitVec 32) :
    c ∈ refusedChars ↔ (c ∈ notAllowed ∧ c ≠ 0x5C) ∨ c = 0x60 := by
  have hother : ∀ c ∈ refusedChars, (c ∈ notAllowed ∧ c ≠ 0x5C) ∨ c = 0x60 := by
    simp [refusedChars, notAllowed]
  have hcommon : ∀ c ∈ notAllowed, c ≠ 0x5C → c ∈ refusedChars := by
    simp [refusedChars, notAllowed]
  constructor
  · exact hother c
  · rintro (⟨hc, hne⟩ | rfl)
    · exact hcommon c hc hne
    · simp [refusedChars]

theorem mem_notAllowed_iff (c : BitVec 32) :
    c ∈ notAllowed ↔ (c ∈ notAllowed ∧ c ≠ 0x5C) ∨ c = 0x5C := by
  by_cases hc : c = 0x5C
  · subst hc
    exact iff_of_true (by simp [notAllowed]) (Or.inr rfl)
  · rw [or_iff_left hc, and_iff_left hc]

/-- No character of `t` is of a list that has the rest of the comment's list, and `d`. -/
theorem clean_iff {l t : List (BitVec 32)} {d : BitVec 32}
    (hl : ∀ c, c ∈ l ↔ (c ∈ notAllowed ∧ c ≠ 0x5C) ∨ c = d) :
    (∀ c ∈ t, c ∉ l) ↔ ¬ (∃ c ∈ t, c ∈ notAllowed ∧ c ≠ 0x5C) ∧ d ∉ t := by
  constructor
  · intro h
    refine ⟨fun ⟨c, hc, hrest⟩ => h c hc ((hl c).mpr (Or.inl hrest)), fun hd => ?_⟩
    exact h d hd ((hl d).mpr (Or.inr rfl))
  · rintro ⟨hrest, hd⟩ c hc hmem
    rcases (hl c).mp hmem with hother | rfl
    · exact hrest ⟨c, hc, hother⟩
    · exact hd hc

theorem same_refusal_iff (fits other listed checked : Prop) :
    ((fits ∧ ¬ other ∧ ¬ checked) ↔ (fits ∧ ¬ other ∧ ¬ listed)) ↔
      ¬ fits ∨ other ∨ (listed ↔ checked) := by
  by_cases fits <;> by_cases other <;> by_cases listed <;> by_cases checked <;> simp [*]

section Taken
variable (cls : WideClass)

/-- The answer of `SetLongName`, with the table and the pointer into it after the call. -/
def setLongNameAt (table : Buffer) (count i : Nat) (src : List (BitVec 32)) (sfn : DirEntry) :
    Call (Bool × Buffer × Nat) := do
  match ← setLongName cls table count i src sfn with
  | none => .ok (false, table, i)
  | some (table, i) => .ok (true, table, i)

/-! ## The documented names -/

/-- The name without the spaces around it and the dots behind it. -/
def bareName (name : List (BitVec 32)) : List (BitVec 32) :=
  (name.dropWhile cls.iswspace).rdropWhile fun c => cls.iswspace c || c == 0x2E

structure Allowed (name : List (BitVec 32)) : Prop where
  nonempty : 1 ≤ (bareName cls name).length
  short : (bareName cls name).length ≤ 255
  chars : ∀ c ∈ bareName cls name, c ∉ notAllowed

/-- Behind the leading spaces stands a dot, and behind that nothing but spaces and dots. -/
def DotsOnly (name : List (BitVec 32)) : Prop :=
  ∃ rest, name.dropWhile cls.iswspace = 0x2E :: rest ∧
    ∀ c ∈ rest, cls.iswspace c = true ∨ c = 0x2E

/-- The name is no row of dots, and the list and the check come to the same for it. -/
def CheckedAsListed (name : List (BitVec 32)) : Prop :=
  ¬ DotsOnly cls name ∧
    (¬ (1 ≤ (bareName cls name).length ∧ (bareName cls name).length ≤ 255) ∨
      (∃ c ∈ bareName cls name, c ∈ notAllowed ∧ c ≠ 0x5C) ∨
      (0x5C ∈ bareName cls name ↔ 0x60 ∈ bareName cls name))

/-! ## The trimmed name -/

theorem rdropWhile_cons {α : Type} (p : α → Bool) (c : α) (l : List α) :
    (c :: l).rdropWhile p =
      if l.rdropWhile p = [] then [c].rdropWhile p else c :: l.rdropWhile p := by
  rw [List.rdropWhile, List.reverse_cons, List.dropWhile_append]
  by_cases h : l.reverse.dropWhile p = []
  · simp [List.rdropWhile, h]
  · simp [List.rdropWhile, h]

variable {name : List (BitVec 32)}

theorem bareName_of_dotsOnly (h : DotsOnly cls name) : bareName cls name = [] := by
  obtain ⟨rest, hdrop, hrest⟩ := h
  rw [bareName, hdrop, List.rdropWhile_eq_nil_iff]
  intro c hc
  rcases List.mem_cons.mp hc with rfl | hc
  · simp
  · simpa using hrest c hc

theorem trimLongName_of_dotsOnly (h : DotsOnly cls name) : trimLongName cls name = [0x2E] := by
  obtain ⟨rest, hdrop, hrest⟩ := h
  have hnil : rest.rdropWhile (fun c => cls.iswspace c || c == 0x2E) = [] := by
    rw [List.rdropWhile_eq_nil_iff]
    intro c hc
    simpa using hrest c hc
  rw [trimLongName, hdrop]
  dsimp only
  rw [hnil]

theorem trimLongName_of_not_dotsOnly (h : ¬ DotsOnly cls name) :
    trimLongName cls name = bareName cls name := by
  have hhead := List.head?_dropWhile_not cls.iswspace name
  rw [trimLongName, bareName]
  cases hdrop : name.dropWhile cls.iswspace with
  | nil => rfl
  | cons c rest =>
    have hc : cls.iswspace c = false := by simpa [hdrop] using hhead
    dsimp only
    rw [rdropWhile_cons]
    split
    · rename_i hnil
      have hdot : c ≠ 0x2E := by
        rintro rfl
        rw [List.rdropWhile_eq_nil_iff] at hnil
        exact h ⟨rest, hdrop, fun d hd => by simpa using hnil d hd⟩
      have hstays : ¬ (cls.iswspace c || c == 0x2E) = true := by
        rw [hc, Bool.false_or, beq_iff_eq]
        exact hdot
      rw [hnil]
      exact (List.rdropWhile_concat_neg _ [] c hstays).symm
    · rfl

theorem mem_of_mem_trimLongName {c : BitVec 32} (h : c ∈ trimLongName cls name) : c ∈ name := by
  refine (List.dropWhile_sublist cls.iswspace).mem ?_
  rw [trimLongName] at h
  cases hdrop : name.dropWhile cls.iswspace with
  | nil => simp [hdrop] at h
  | cons d rest =>
    rw [hdrop] at h
    rcases List.mem_cons.mp h with rfl | h
    · exact List.mem_cons_self ..
    · exact List.mem_cons_of_mem d ((List.rdropWhile_prefix _ rest).subset h)

/-! ## The answer -/

variable (hpunct : ∀ c ∈ refusedChars, cls.isalnum c = false)
include hpunct

theorem validLongChar_iff (c : BitVec 32) : validLongChar cls c = true ↔ c ∉ refusedChars := by
  by_cases hc : c ∈ refusedChars
  · refine iff_of_false ?_ (fun h => h hc)
    obtain ⟨hspace, hhigh⟩ := refusedChars_ascii c hc
    have hcontains : refusedChars.contains c = true := List.contains_iff_mem.mpr hc
    rw [refusedChars] at hcontains
    rw [validLongChar, hpunct c hc, hspace, hhigh, hcontains]
    exact nofun
  · refine iff_of_true ?_ hc
    have hcontains : refusedChars.contains c = false := by simpa using hc
    rw [refusedChars] at hcontains
    rw [validLongChar, hcontains, Bool.not_false, Bool.or_true]

theorem setLongNameAt_spec (table : Buffer) (count i : Nat) (sfn : DirEntry)
    (hname : 0 ∉ name) (hroom : i + MaxChainLength < count) :
    ∃ taken table' j, setLongNameAt cls table count i name sfn = .ok (taken, table', j) ∧
      (taken = true ↔ (1 ≤ (trimLongName cls name).length ∧
        (trimLongName cls name).length ≤ 255) ∧ ∀ c ∈ trimLongName cls name, c ∉ refusedChars) ∧
      (taken = false → table' = table ∧ j = i) := by
  have hzero : ∀ c ∈ trimLongName cls name, c ≠ 0 := fun c hc h =>
    hname (h ▸ mem_of_mem_trimLongName cls hc)
  generalize htrim : trimLongName cls name = t at hzero ⊢
  by_cases htaken : (1 ≤ t.length ∧ t.length ≤ 255) ∧ ∀ c ∈ t, c ∉ refusedChars
  · obtain ⟨⟨hpos, hmax⟩, hchars⟩ := htaken
    obtain ⟨-, hcount, -⟩ := linkCount_bounds hpos hmax rfl
    obtain ⟨table', hset, -⟩ := setLongName_links cls table count i sfn htrim hpos hmax
      (fun c hc => (validLongChar_iff cls hpunct c).mpr (hchars c hc)) hzero rfl (by omega)
    refine ⟨true, table', i + (t.length + 12) / 13, ?_,
      iff_of_true rfl ⟨⟨hpos, hmax⟩, hchars⟩, nofun⟩
    rw [setLongNameAt, hset]
    rfl
  · refine ⟨false, table, i, ?_, iff_of_false nofun htaken, fun _ => ⟨rfl, rfl⟩⟩
    suffices hset : setLongName cls table count i name sfn = .ok none by
      rw [setLongNameAt, hset]
      rfl
    rw [setLongName]
    dsimp only
    rw [htrim, LONGNAME_LENGTH]
    by_cases hlen : t.length = 0 ∨ t.length > 255
    · rw [if_pos hlen]
    · have hinvalid : t.all (validLongChar cls) = false := by
        refine Bool.eq_false_iff.mpr fun hall => htaken ⟨by omega, fun c hc => ?_⟩
        exact (validLongChar_iff cls hpunct c).mp (List.all_eq_true.mp hall c hc)
      rw [if_neg hlen, hinvalid, if_pos Bool.not_false]

/-- A call returns, and it answers as the documentation has it, with table and pointer left alone
where it refuses the name, if and only if the list and the check come to the same for the name. -/
theorem long_name_taken_iff (table : Buffer) (count i : Nat) (name : List (BitVec 32))
    (sfn : DirEntry) (hname : 0 ∉ name) (hroom : i + MaxChainLength < count) :
    ∃ taken table' j, setLongNameAt cls table count i name sfn = .ok (taken, table', j) ∧
      (((taken = true ↔ Allowed cls name) ∧ (taken = false → table' = table ∧ j = i)) ↔
        CheckedAsListed cls name) := by
  obtain ⟨taken, table', j, hset, htaken, hkept⟩ :=
    setLongNameAt_spec cls hpunct table count i sfn hname hroom
  refine ⟨taken, table', j, hset, (and_iff_left hkept).trans ?_⟩
  rw [htaken]
  by_cases hdots : DotsOnly cls name
  · refine iff_of_false (fun h => ?_) fun h => h.1 hdots
    have hdot : ∀ c ∈ [0x2E], c ∉ refusedChars := by simp [refusedChars]
    rw [trimLongName_of_dotsOnly cls hdots] at h
    have hallowed := h.mp ⟨⟨by decide, by decide⟩, hdot⟩
    have hpos := hallowed.nonempty
    rw [bareName_of_dotsOnly cls hdots] at hpos
    exact absurd hpos (by decide)
  · rw [trimLongName_of_not_dotsOnly cls hdots, CheckedAsListed, and_iff_right hdots]
    have hallowed : Allowed cls name ↔ (1 ≤ (bareName cls name).length ∧
        (bareName cls name).length ≤ 255) ∧ ∀ c ∈ bareName cls name, c ∉ notAllowed :=
      ⟨fun h => ⟨⟨h.nonempty, h.short⟩, h.chars⟩, fun h => ⟨h.1.1, h.1.2, h.2⟩⟩
    rw [hallowed, clean_iff mem_refusedChars_iff, clean_iff mem_notAllowed_iff]
    exact same_refusal_iff ..

end Taken

/-! ## Names -/

theorem cLocale_punct : ∀ c ∈ refusedChars, cLocale.isalnum c = false := by
  have hall : refusedChars.all (fun c => cLocale.isalnum c == false) = true := by decide +kernel
  exact fun c hc => beq_iff_eq.mp (List.all_eq_true.mp hall c hc)

theorem spacedName_checked : CheckedAsListed cLocale spacedName := by
  have hdots : ¬ DotsOnly cLocale spacedName := by
    rintro ⟨rest, hdrop, -⟩
    have hhead : (spacedName.dropWhile cLocale.iswspace).head? = some 0x4B := by decide
    rw [hdrop] at hhead
    exact absurd (Option.some.inj hhead) (by decide)
  have hbare : bareName cLocale spacedName = spacedName.tail.take 15 := by
    rw [← trimLongName_of_not_dotsOnly cLocale hdots, trim_spacedName]
  refine ⟨hdots, Or.inr (Or.inr ?_)⟩
  rw [hbare]
  decide

theorem long_name_taken_spaced :
    ∃ taken table' j,
      setLongNameAt cLocale (fun _ => 0) 32 0 spacedName .zero = .ok (taken, table', j) ∧
        (taken = true ↔ Allowed cLocale spacedName) ∧
        (taken = false → table' = (fun _ => 0) ∧ j = 0) := by
  obtain ⟨taken, table', j, hset, hiff⟩ := long_name_taken_iff cLocale cLocale_punct
    (fun _ => 0) 32 0 spacedName .zero (by decide) (by decide)
  exact ⟨taken, table', j, hset, hiff.mpr spacedName_checked⟩

def backslashName : List (BitVec 32) := wideText ['d', 'i', 'r', '\\', 'f']

/-- The name with a backslash is stored. -/
theorem long_name_backslash :
    (∃ table' j, setLongNameAt cLocale (fun _ => 0) 32 0 backslashName .zero = .ok (true, table', j)) ∧
      ¬ Allowed cLocale backslashName := by
  obtain ⟨taken, table', j, hset, htaken, -⟩ := setLongNameAt_spec cLocale cLocale_punct
    (fun _ => 0) 32 0 .zero (by decide : 0 ∉ backslashName) (by decide)
  have htrim : trimLongName cLocale backslashName = backslashName := by decide
  have hbare : bareName cLocale backslashName = backslashName := by decide
  have hchars : ∀ c ∈ backslashName, c ∉ refusedChars := by
    have hall : backslashName.all (fun c => !refusedChars.contains c) = true := by decide
    exact fun c hc => by simpa using List.all_eq_true.mp hall c hc
  rw [htrim] at htaken
  have hstored : taken = true := htaken.mpr ⟨⟨by decide, by decide⟩, hchars⟩
  refine ⟨⟨table', j, by rw [hset, hstored]⟩, fun hallowed => ?_⟩
  have hlisted := hallowed.chars 0x5C
  rw [hbare] at hlisted
  exact hlisted (by decide) (by decide)

end Ohwes.Fatfs
