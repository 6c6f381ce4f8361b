import Ohwes.Fatfs.PathLookup

/-! # Which names lead to an entry

`FindFileInDir` compares without regard to case, and `SetShortName` stores upper case. A name finds
the entry that was stored under it as long as it comes back from its label; white space around the
name, a space beside the dot or a dot at the end make an entry that the name does not find. -/

namespace Ohwes.Fatfs
open Library
set_option autoImplicit false

namespace ShortName

/-! ## Case -/

/-- The names are the same but for case. -/
def SameName (a b : CString) : Prop := a.map tolower = b.map tolower

instance (a b : CString) : Decidable (SameName a b) := inferInstanceAs (Decidable (_ = _))

section Case
variable {a b c : CString}

theorem SameName.symm (h : SameName a b) : SameName b a := Eq.symm h

theorem SameName.trans (h : SameName a b) (h' : SameName b c) : SameName a c := Eq.trans h h'

theorem SameName.length_eq (h : SameName a b) : a.length = b.length := by
  have hlen := congrArg List.length h
  rwa [List.length_map, List.length_map] at hlen

theorem tolower_eq_zero {x : Byte} : tolower x = 0 ↔ x = 0 := by
  revert x
  decide

theorem isspace_tolower (x : Byte) : isspace (tolower x) = isspace x := by
  revert x
  decide

theorem toupper_tolower (x : Byte) : toupper (tolower x) = toupper x := by
  revert x
  decide

theorem tolower_toupper (x : Byte) : tolower (toupper x) = tolower x := by
  revert x
  decide

theorem tolower_eq_dot {x : Byte} : tolower x = 0x2E ↔ x = 0x2E := by
  revert x
  decide

theorem tolower_eq_space {x : Byte} : tolower x = 0x20 ↔ x = 0x20 := by
  revert x
  decide

theorem listed_tolower (x : Byte) : listed (tolower x) = listed x := by
  revert x
  decide

theorem sameName_upper (a : CString) : SameName (a.map toupper) a := by
  rw [SameName, List.map_map]
  exact List.map_congr_left fun x _ => tolower_toupper x

/-- The comparison of the lookup, for strings that end in their first NUL. -/
theorem strncasecmp_eq_zero (ha : 0 ∉ a) (hb : 0 ∉ b) {n : Nat} (hn : a.length < n) :
    strncasecmp a b n = 0 ↔ SameName a b := by
  induction a generalizing b n with
  | nil =>
    obtain ⟨n, rfl⟩ : ∃ m, n = m + 1 := ⟨n - 1, by omega⟩
    have hzero : tolower 0 = 0 := by decide
    cases b with
    | nil => exact iff_of_true rfl rfl
    | cons y b =>
      have hy : tolower y ≠ 0 := fun h => hb (tolower_eq_zero.mp h ▸ List.mem_cons_self)
      have hpos : (tolower y).toNat ≠ 0 := fun h => hy (BitVec.eq_of_toNat_eq h)
      refine iff_of_false ?_ (fun h => nomatch h)
      rw [strncasecmp, List.headD_nil, List.headD_cons, hzero]
      rw [if_pos (Or.inr rfl)]
      change ((0 : Nat) : Int) - _ ≠ 0
      omega
  | cons x a ih =>
    obtain ⟨n, rfl⟩ : ∃ m, n = m + 1 := ⟨n - 1, by omega⟩
    rw [List.length_cons] at hn
    have hx : x ≠ 0 := fun h => ha (h ▸ List.mem_cons_self)
    have hbyte : ∀ y : Byte, ((tolower x).toNat : Int) - (tolower y).toNat = 0 ↔
        tolower x = tolower y := by
      intro y
      rw [Int.sub_eq_zero, Int.ofNat_inj]
      exact ⟨BitVec.eq_of_toNat_eq, congrArg BitVec.toNat⟩
    rw [strncasecmp, List.headD_cons, List.tail_cons]
    by_cases hhead : tolower x = tolower (b.headD 0)
    · rw [if_neg (not_or.mpr ⟨not_not.mpr ((hbyte _).mpr hhead), hx⟩)]
      cases b with
      | nil =>
        have hzero : tolower 0 = 0 := by decide
        rw [List.headD_nil, hzero] at hhead
        exact absurd (tolower_eq_zero.mp hhead) hx
      | cons y b =>
        rw [List.headD_cons] at hhead
        rw [List.tail_cons, ih (fun h => ha (List.mem_cons_of_mem x h))
          (fun h => hb (List.mem_cons_of_mem y h)) (by omega), SameName, SameName, List.map_cons,
          List.map_cons, hhead]
        exact ⟨fun h => congrArg _ h, fun h => (List.cons.inj h).2⟩
    · have hne : ((tolower x).toNat : Int) - (tolower (b.headD 0)).toNat ≠ 0 :=
        fun h => hhead ((hbyte _).mp h)
      rw [if_pos (Or.inl hne)]
      refine iff_of_false hne fun h => hhead ?_
      cases b with
      | nil => exact nomatch h
      | cons y b => exact (List.cons.inj h).1

end Case

/-! ## The label of a name -/

section Label

theorem shortNameChar_tolower (dotSeen : Bool) (index : Nat) (x : Byte) :
    shortNameChar dotSeen index (tolower x) = shortNameChar dotSeen index x := by
  have hl := listed_tolower x
  rw [listed, listed] at hl
  have hdot : (tolower x == 0x2E) = (x == 0x2E) := by
    rw [Bool.eq_iff_iff, beq_iff_eq, beq_iff_eq, tolower_eq_dot]
  have hspace : (tolower x == 0x20) = (x == 0x20) := by
    rw [Bool.eq_iff_iff, beq_iff_eq, beq_iff_eq, tolower_eq_space]
  rw [shortNameChar, shortNameChar, hl, hdot, hspace]

theorem splitShortName_tolower (src name ext : CString) (dotSeen : Bool) (index : Nat) :
    splitShortName name ext dotSeen index (src.map tolower) =
      splitShortName name ext dotSeen index src := by
  induction src generalizing name ext dotSeen index with
  | nil => rfl
  | cons x src ih =>
    rw [List.map_cons, splitShortName, splitShortName, shortNameChar_tolower, toupper_tolower,
      ih, ih, ih]
    simp only [tolower_eq_dot]

theorem trimSpace_tolower (src : CString) : trimSpace (src.map tolower) = (trimSpace src).map tolower := by
  have hpred : isspace ∘ tolower = isspace := funext fun x => isspace_tolower x
  rw [trimSpace, trimSpace, List.dropWhile_map, hpred, List.rdropWhile, List.rdropWhile,
    ← List.map_reverse, List.dropWhile_map, hpred, List.map_reverse]

theorem shortLabel_tolower (src : CString) : shortLabel (src.map tolower) = shortLabel src := by
  rw [shortLabel, shortLabel, trimSpace_tolower]
  rw [List.length_map, splitShortName_tolower]

/-- The label of a name does not depend on its case. -/
theorem shortLabel_congr {a b : CString} (h : SameName a b) : shortLabel a = shortLabel b := by
  rw [← shortLabel_tolower a, ← shortLabel_tolower b, show a.map tolower = b.map tolower from h]

theorem readFatString_length_le (src : List Byte) : (readFatString src).length ≤ src.length :=
  ((List.takeWhile_sublist _).trans
    ((List.rdropWhile_prefix _ _).sublist.trans (List.dropWhile_sublist _))).length_le

theorem zero_notMem_readFatString (src : List Byte) : 0 ∉ readFatString src := fun h =>
  absurd (List.mem_takeWhile_imp h) (by simp)

theorem restoreLead_length (name : CString) : (restoreLead name).length = name.length := by
  cases name with
  | nil => rfl
  | cons x name =>
    rw [restoreLead]
    split
    · rfl
    · rfl

theorem zero_notMem_restoreLead {name : CString} (h : 0 ∉ name) : 0 ∉ restoreLead name := by
  rw [restoreLead]
  split
  · intro hmem
    rcases List.mem_cons.mp hmem with h0 | hmem
    · exact absurd h0 (by decide)
    · exact h (List.mem_of_mem_tail hmem)
  · exact h

theorem labelName_length_lt (label : Vector Byte 11) : (labelName label).length < MAX_SHORTNAME := by
  have hname := readFatString_length_le (label.toList.take NAME_LENGTH)
  have hext := readFatString_length_le (label.toList.drop NAME_LENGTH)
  rw [List.length_take, Vector.length_toList, NAME_LENGTH] at hname
  rw [List.length_drop, Vector.length_toList, NAME_LENGTH] at hext
  rw [labelName, MAX_SHORTNAME, SHORTNAME_LENGTH, NAME_LENGTH, EXTENSION_LENGTH]
  split
  · rw [restoreLead_length]
    omega
  · rw [List.length_append, List.length_append, restoreLead_length, List.length_singleton]
    omega

theorem zero_notMem_labelName (label : Vector Byte 11) : 0 ∉ labelName label := by
  have hname := zero_notMem_restoreLead (zero_notMem_readFatString (label.toList.take NAME_LENGTH))
  have hext := zero_notMem_readFatString (label.toList.drop NAME_LENGTH)
  rw [labelName]
  split
  · exact hname
  · simp only [List.mem_append, List.mem_singleton, not_or]
    exact ⟨⟨hname, by decide⟩, hext⟩

theorem valid_of_shortLabel {src : CString} {label : Vector Byte 11} (h : shortLabel src = some label) :
    Valid (trimSpace src) ∧ label = fields (trimSpace src) := by
  have hvalid : Valid (trimSpace src) := by
    by_contra hn
    rw [shortLabel_of_not_valid hn] at h
    exact nomatch h
  rw [shortLabel_of_valid hvalid] at h
  exact ⟨hvalid, (Option.some.inj h).symm⟩

theorem zero_notMem_of_shortLabel {src : CString} {label : Vector Byte 11}
    (h : shortLabel src = some label) : 0 ∉ src := by
  obtain ⟨hvalid, -⟩ := valid_of_shortLabel h
  intro hmem
  rcases mem_trimSpace hmem with hmem | hspace
  · rcases mem_parts hmem with hmem | hdot
    · exact absurd (inName_iff.mpr (hvalid.chars 0 hmem)) (by decide)
    · exact absurd hdot (by decide)
  · exact absurd hspace (by decide)

end Label

/-! ## Names that come back -/

/-- The name is stored as the label and finds it. -/
structure Canonical (name : CString) (label : Vector Byte 11) : Prop where
  label_eq : shortLabel name = some label
  back : SameName (labelName label) name

section Canonical
variable {name name' : CString} {label label' : Vector Byte 11}

/-- A look-up compares the name with that of an entry. -/
def matchesName (name : CString) (e : DirEntry) : Bool :=
  strncasecmp e.getShortName name MAX_SHORTNAME == 0

/-- Of the entries that were stored under such names, the name finds its own. -/
theorem Canonical.matches_iff (h : Canonical name label) (h' : Canonical name' label') {e : DirEntry}
    (he : e.label = label') : matchesName name e = true ↔ label' = label := by
  rw [matchesName, beq_iff_eq, DirEntry.getShortName, he, strncasecmp_eq_zero
    (zero_notMem_labelName label') (zero_notMem_of_shortLabel h.label_eq) (labelName_length_lt label')]
  constructor
  · intro hsame
    have heq := shortLabel_congr (h'.back.symm.trans hsame)
    rw [h'.label_eq, h.label_eq] at heq
    exact Option.some.inj heq
  · rintro rfl
    exact h.back

/-- What is lost on the way to the label and back. -/
theorem rejoined_length_le (t : CString) : (rejoined t).length ≤ t.length := by
  have hstem : (unpad 0x20 ((stem t).map toupper)).length ≤ ((stem t).map toupper).length :=
    (unpad_part _).length_le
  have hext : (unpad 0x20 ((extension t).map toupper)).length ≤ ((extension t).map toupper).length :=
    (unpad_part _).length_le
  rw [List.length_map] at hstem hext
  rw [rejoined]
  by_cases hdot : 0x2E ∈ t
  · have hlen := congrArg List.length (eq_parts_of_mem hdot)
    rw [List.length_append, List.length_cons] at hlen
    rw [List.length_append]
    split
    · rw [List.length_nil]
      omega
    · rw [List.length_cons]
      omega
  · obtain ⟨hs, he⟩ := parts_of_notMem hdot
    rw [hs] at hstem
    rw [hs, he, List.map_nil, if_pos (by simp [unpad]), List.append_nil]
    exact hstem

theorem trimSpace_sublist (src : CString) : (trimSpace src).Sublist src :=
  (List.rdropWhile_prefix _ _).sublist.trans (List.dropWhile_sublist _)

theorem sameName_rejoined_iff {t : CString} (h : Valid t) :
    SameName (rejoined t) t ↔ ¬ SpaceAtDot t ∧ t.getLast? ≠ some 0x2E := by
  have hplain := rejoined_eq_plain_iff h
  constructor
  · intro hsame
    have hlen := hsame.length_eq
    by_cases hdot : 0x2E ∈ t
    · have hparts := congrArg List.length (eq_parts_of_mem hdot)
      rw [List.length_append, List.length_cons] at hparts
      have hstem : (unpad 0x20 ((stem t).map toupper)).length ≤ ((stem t).map toupper).length :=
        (unpad_part _).length_le
      rw [List.length_map] at hstem
      by_cases hnil : unpad 0x20 ((extension t).map toupper) = []
      · rw [rejoined] at hlen
        rw [if_pos hnil, List.append_nil] at hlen
        omega
      · have hext : extension t ≠ [] := by
          intro h0
          rw [h0] at hnil
          exact hnil (by simp [unpad])
        have hlast : t.getLast? ≠ some 0x2E := by
          obtain ⟨front, x, hx⟩ := (List.eq_nil_or_concat (extension t)).resolve_left hext
          have hget : t.getLast? = some x := by
            rw [eq_parts_of_mem hdot, hx, List.concat_eq_append, ← List.cons_append,
              ← List.append_assoc, List.getLast?_concat]
          intro h0
          have hmem : x ∈ stem t ++ extension t := by
            rw [hx]
            simp
          rw [hget] at h0
          exact inName_ne (by decide) (inName_iff.mpr (h.chars x hmem)) (Option.some.inj h0)
        refine ⟨hplain.mp ?_, hlast⟩
        have hdotted := (rejoined_dotted_iff ((stem t).map toupper) ((extension t).map toupper)).mpr
        have hextle : (unpad 0x20 ((extension t).map toupper)).length ≤
            ((extension t).map toupper).length := (unpad_part _).length_le
        rw [List.length_map] at hextle
        have hsum := hlen
        rw [rejoined] at hsum
        rw [if_neg hnil, List.length_append, List.length_cons] at hsum
        have hs : unpad 0x20 ((stem t).map toupper) = (stem t).map toupper :=
          (unpad_part _).eq_of_length (by rw [List.length_map]; omega)
        have he : unpad 0x20 ((extension t).map toupper) = (extension t).map toupper :=
          (unpad_part _).eq_of_length (by rw [List.length_map]; omega)
        have hboth := hdotted ⟨hs, he⟩
        rw [rejoined]
        rw [if_neg hnil, hboth, plain, if_neg hlast]
        conv_rhs => rw [eq_parts_of_mem hdot]
        rw [List.map_append, List.map_cons]
        rfl
    · refine ⟨hplain.mp (rejoined_of_notMem h hdot), fun h0 => hdot (List.mem_of_getLast? h0)⟩
  · rintro ⟨hspace, hlast⟩
    rw [hplain.mpr hspace, plain, if_neg hlast]
    exact sameName_upper t

/-- **A name finds the entry that was stored under it** exactly if it has no white space around it,
no space beside its dot, and no dot at its end. -/
theorem canonical_iff (h : shortLabel name = some label) :
    Canonical name label ↔
      trimSpace name = name ∧ ¬ SpaceAtDot name ∧ name.getLast? ≠ some 0x2E := by
  obtain ⟨hvalid, rfl⟩ := valid_of_shortLabel h
  have hback := labelName_fields hvalid
  constructor
  · rintro ⟨-, hsame⟩
    rw [hback] at hsame
    have hlen := hsame.length_eq
    have hle := rejoined_length_le (trimSpace name)
    have htrim : trimSpace name = name := (trimSpace_sublist name).eq_of_length_le (by omega)
    rw [htrim] at hvalid hsame
    exact ⟨htrim, (sameName_rejoined_iff hvalid).mp hsame⟩
  · rintro ⟨htrim, hrest⟩
    refine ⟨h, ?_⟩
    rw [hback]
    rw [htrim] at hvalid ⊢
    exact (sameName_rejoined_iff hvalid).mpr hrest

end Canonical

/-- **Stored and looked up**: the entry that `SetShortName` gives a name is one that the look-up takes for
it exactly if the name has no white space around it, no space beside its dot, and no dot at its
end. -/
theorem found_again_iff {e e' : DirEntry} {name : CString} (h : e.setShortName name = some e') :
    strncasecmp e'.getShortName name MAX_SHORTNAME = 0 ↔
      trimSpace name = name ∧ ¬ SpaceAtDot name ∧ name.getLast? ≠ some 0x2E := by
  rw [DirEntry.setShortName, Option.map_eq_some_iff] at h
  obtain ⟨label, hlabel, rfl⟩ := h
  rw [← canonical_iff hlabel, DirEntry.getShortName, strncasecmp_eq_zero (zero_notMem_labelName label)
    (zero_notMem_of_shortLabel hlabel) (labelName_length_lt label)]
  constructor
  · intro hsame
    exact ⟨hlabel, hsame⟩
  · intro hcanonical
    exact hcanonical.back

/-- A name with a space before its dot. -/
theorem spaced_not_found : ∃ e', DirEntry.zero.setShortName (text ['a', ' ', '.', 'b']) = some e' ∧
    (strncasecmp e'.getShortName (text ['a', ' ', '.', 'b']) MAX_SHORTNAME = 0 ↔
      trimSpace (text ['a', ' ', '.', 'b']) = text ['a', ' ', '.', 'b'] ∧
        ¬ SpaceAtDot (text ['a', ' ', '.', 'b']) ∧
        (text ['a', ' ', '.', 'b']).getLast? ≠ some 0x2E) := by
  have hstored : (DirEntry.zero.setShortName (text ['a', ' ', '.', 'b'])).isSome = true := by rfl
  obtain ⟨e', he'⟩ := Option.isSome_iff_exists.mp hstored
  exact ⟨e', he', found_again_iff he'⟩

end ShortName

end Ohwes.Fatfs
