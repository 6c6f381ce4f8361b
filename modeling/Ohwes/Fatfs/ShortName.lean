import Ohwes.Library.PaddedField
import Ohwes.Fatfs.RootFiles

/-! # Which short names are taken, and what comes back

`SetShortName` cuts a name at its dot into two fields of the label; `GetShortName` takes the spaces
off both fields and puts them together. The check looks for a space at the beginning of the whole
name alone, so that a space beside the dot is taken and does not come back. -/

namespace Ohwes.Fatfs
open Library
set_option autoImplicit false

/-- The answer of `SetShortName`, and the entry after it. -/
def DirEntry.setShortNameIn (e : DirEntry) (src : CString) : Bool × DirEntry :=
  match e.setShortName src with
  | none => (false, e)
  | some e => (true, e)

namespace ShortName

/-! ## The parts of a name -/

/-- The characters before the dot. -/
def stem (t : CString) : CString := t.takeWhile (· != 0x2E)

/-- The characters behind the dot. -/
def extension (t : CString) : CString := (t.dropWhile (· != 0x2E)).tail

/-- The characters that the documentation lists. -/
def listed (c : Byte) : Bool := isalnum c || c > 0x7F || shortNameSymbols.contains c

/-- A trimmed name that is to be taken. -/
structure Valid (t : CString) : Prop where
  stem_pos : 1 ≤ (stem t).length
  stem_le : (stem t).length ≤ 8
  ext_le : (extension t).length ≤ 3
  chars : ∀ c ∈ stem t ++ extension t, listed c = true ∨ c = 0x20
  inner : t.head? ≠ some 0x20 ∧ t.getLast? ≠ some 0x20

/-- The name in upper case, without a dot at its end. -/
def plain (t : CString) : CString :=
  if t.getLast? = some 0x2E then (t.map toupper).dropLast else t.map toupper

/-- A space stands before the dot, or behind it. -/
def SpaceAtDot (t : CString) : Prop := [0x20, 0x2E] <:+: t ∨ [0x2E, 0x20] <:+: t

section Parts
variable {t : CString}

@[simp] theorem stem_dot (t : CString) : stem (0x2E :: t) = [] := rfl

@[simp] theorem extension_dot (t : CString) : extension (0x2E :: t) = t := rfl

theorem stem_cons {c : Byte} (hc : c ≠ 0x2E) (t : CString) : stem (c :: t) = c :: stem t :=
  List.takeWhile_cons_of_pos (bne_iff_ne.mpr hc)

theorem extension_cons {c : Byte} (hc : c ≠ 0x2E) (t : CString) :
    extension (c :: t) = extension t :=
  congrArg List.tail (List.dropWhile_cons_of_pos (bne_iff_ne.mpr hc))

theorem parts_of_notMem (h : 0x2E ∉ t) : stem t = t ∧ extension t = [] := by
  induction t with
  | nil => exact ⟨rfl, rfl⟩
  | cons c t ih =>
    have hc : c ≠ 0x2E := fun he => h (he ▸ List.mem_cons_self ..)
    obtain ⟨hstem, hext⟩ := ih fun hmem => h (List.mem_cons_of_mem c hmem)
    rw [stem_cons hc, extension_cons hc, hstem]
    exact ⟨rfl, hext⟩

theorem eq_parts_of_mem (h : 0x2E ∈ t) : t = stem t ++ 0x2E :: extension t := by
  induction t with
  | nil => exact absurd h List.not_mem_nil
  | cons c t ih =>
    by_cases hc : c = 0x2E
    · subst hc
      rw [stem_dot, extension_dot]
      rfl
    · have hrest := ih ((List.mem_cons.mp h).resolve_left (Ne.symm hc))
      rw [stem_cons hc, extension_cons hc]
      exact congrArg (c :: ·) hrest

theorem dot_notMem_stem : 0x2E ∉ stem t := fun h =>
  absurd (List.mem_takeWhile_imp h) (by simp)

theorem length_parts : (stem t).length ≤ t.length ∧
    t.length ≤ (stem t).length + (extension t).length + 1 := by
  by_cases h : 0x2E ∈ t
  · have hlen := congrArg List.length (eq_parts_of_mem h)
    rw [List.length_append, List.length_cons] at hlen
    omega
  · rw [(parts_of_notMem h).1]
    omega

end Parts

/-! ## Characters -/

theorem toupper_eq_iff {c d : Byte} (hd : isalpha d = false) : toupper c = d ↔ c = d := by
  rw [toupper]
  by_cases hc : islower c = true
  · have hupper : isupper (c - 0x20) = true := by
      simp only [islower, isupper, Bool.and_eq_true, decide_eq_true_eq] at hc ⊢
      bv_omega
    rw [if_pos hc]
    constructor
    · rintro rfl
      rw [isalpha, hupper, Bool.true_or] at hd
      cases hd
    · rintro rfl
      rw [isalpha, hc, Bool.or_true] at hd
      cases hd
  · rw [if_neg hc]

/-- The characters that the loop takes behind the first one. -/
def inName (c : Byte) : Bool := listed c || c == 0x20

theorem inName_iff {c : Byte} : inName c = true ↔ listed c = true ∨ c = 0x20 := by
  rw [inName, Bool.or_eq_true, beq_iff_eq]

theorem inName_ne {c d : Byte} (hd : inName d = false) (h : inName c = true) : c ≠ d := by
  rintro rfl
  exact absurd (h.symm.trans hd) nofun

theorem shortNameChar_eq {dotSeen : Bool} {index : Nat} {c : Byte}
    (h : index ≠ 0 ∨ c ≠ 0x20) :
    shortNameChar dotSeen index c = (inName c || c == 0x2E && !dotSeen) := by
  have hspace : (c == 0x20 && index != 0) = (c == 0x20) := by
    rcases h with hi | hc
    · rw [bne_iff_ne.mpr hi, Bool.and_true]
    · rw [beq_eq_false_iff_ne.mpr hc, Bool.false_and]
  rw [shortNameChar, hspace, inName, listed, Bool.or_right_comm]

/-! ## The split -/

theorem splitShortName_extension (name ext t : CString) {index : Nat} (hi : index ≠ 0) :
    splitShortName name ext true index t =
      if t.all inName = true then some (name, ext ++ t.map toupper) else none := by
  induction t generalizing ext index with
  | nil => simp [splitShortName]
  | cons c t ih =>
    rw [splitShortName, shortNameChar_eq (Or.inl hi), Bool.not_true, Bool.and_false, Bool.or_false,
      List.all_cons]
    cases hc : inName c with
    | false => rfl
    | true =>
      have hdot : c ≠ 0x2E := inName_ne (by decide) hc
      rw [Bool.not_true, if_neg Bool.false_ne_true, if_neg hdot, if_pos rfl, Bool.true_and,
        ih _ (Nat.succ_ne_zero index), List.append_assoc]
      rfl

theorem splitShortName_eq (name ext t : CString) {index : Nat}
    (h : index ≠ 0 ∨ t.head? ≠ some 0x20) :
    splitShortName name ext false index t =
      if ((stem t).all inName && (extension t).all inName) = true then
        some (name ++ (stem t).map toupper, ext ++ (extension t).map toupper)
      else none := by
  induction t generalizing name index with
  | nil => simp [splitShortName, stem, extension]
  | cons c t ih =>
    have hc : index ≠ 0 ∨ c ≠ 0x20 := h.imp_right fun hne he => hne (congrArg some he)
    rw [splitShortName, shortNameChar_eq hc, Bool.not_false, Bool.and_true]
    by_cases hdot : c = 0x2E
    · subst hdot
      rw [beq_self_eq_true, Bool.or_true, Bool.not_true, if_neg Bool.false_ne_true, if_pos rfl,
        splitShortName_extension _ _ _ (Nat.succ_ne_zero index), stem_dot, extension_dot]
      simp
    · rw [beq_eq_false_iff_ne.mpr hdot, Bool.or_false, stem_cons hdot, extension_cons hdot,
        List.all_cons, Bool.and_assoc]
      cases hin : inName c with
      | false => rfl
      | true =>
        rw [Bool.not_true, if_neg Bool.false_ne_true, if_neg hdot, if_neg Bool.false_ne_true,
          Bool.true_and, ih _ (Or.inl (Nat.succ_ne_zero index)), List.append_assoc]
        rfl

theorem trimSpace_inner (src : CString) :
    (trimSpace src).head? ≠ some 0x20 ∧ (trimSpace src).getLast? ≠ some 0x20 := by
  constructor
  · intro h
    obtain ⟨rest, hrest⟩ := List.rdropWhile_prefix isspace (src.dropWhile isspace)
    have hhead := List.head?_dropWhile_not isspace src
    rw [← hrest, List.head?_append, show ((src.dropWhile isspace).rdropWhile isspace).head? =
      some 0x20 from h] at hhead
    exact nomatch hhead
  · intro h
    rw [trimSpace] at h
    generalize src.dropWhile isspace = rest at h
    have hne : rest.rdropWhile isspace ≠ [] := fun he => by simp [he] at h
    have hlast := List.rdropWhile_last_not isspace rest hne
    rw [List.getLast?_eq_some_getLast hne] at h
    rw [Option.some.inj h] at hlast
    exact hlast rfl

theorem valid_iff {t : CString} (hinner : t.head? ≠ some 0x20 ∧ t.getLast? ≠ some 0x20) :
    Valid t ↔ ((stem t).all inName && (extension t).all inName) = true ∧
      ¬ ((stem t).length = 0 ∨ (stem t).length > NAME_LENGTH ∨
        (extension t).length > EXTENSION_LENGTH) := by
  rw [Bool.and_eq_true, List.all_eq_true, List.all_eq_true, NAME_LENGTH, EXTENSION_LENGTH]
  constructor
  · intro h
    refine ⟨⟨fun c hc => ?_, fun c hc => ?_⟩, ?_⟩
    · exact inName_iff.mpr (h.chars c (List.mem_append_left _ hc))
    · exact inName_iff.mpr (h.chars c (List.mem_append_right _ hc))
    · have := h.stem_pos
      have := h.stem_le
      have := h.ext_le
      omega
  · rintro ⟨⟨hstem, hext⟩, hlen⟩
    refine ⟨by omega, by omega, by omega, fun c hc => inName_iff.mp ?_, hinner⟩
    exact (List.mem_append.mp hc).elim (hstem c) (hext c)

/-- The fields that a trimmed name is stored in. -/
def fields (t : CString) : Vector Byte 11 :=
  writeFatString (guardLead ((stem t).map toupper)) NAME_LENGTH ++
    writeFatString ((extension t).map toupper) EXTENSION_LENGTH

theorem shortLabel_of_valid {src : CString} (h : Valid (trimSpace src)) :
    shortLabel src = some (fields (trimSpace src)) := by
  obtain ⟨hchars, hlen⟩ := (valid_iff h.inner).mp h
  have hparts := length_parts (t := trimSpace src)
  have hall : ¬ ((trimSpace src).length = 0 ∨
      (trimSpace src).length > NAME_LENGTH + 1 + EXTENSION_LENGTH) := by omega
  rw [shortLabel, if_neg hall, splitShortName_eq [] [] _ (Or.inr h.inner.1), if_pos hchars,
    List.nil_append, List.nil_append]
  dsimp only
  rw [List.length_map, List.length_map, if_neg hlen]
  rfl

theorem shortLabel_of_not_valid {src : CString} (h : ¬ Valid (trimSpace src)) :
    shortLabel src = none := by
  have hinner := trimSpace_inner src
  rw [shortLabel, splitShortName_eq [] [] _ (Or.inr hinner.1), List.nil_append, List.nil_append]
  split
  · rfl
  · by_cases hchars : ((stem (trimSpace src)).all inName &&
        (extension (trimSpace src)).all inName) = true
    · have hlen := not_not.mp fun hn => h ((valid_iff hinner).mpr ⟨hchars, hn⟩)
      rw [if_pos hchars]
      dsimp only
      rw [List.length_map, List.length_map, if_pos hlen]
    · rw [if_neg hchars]

/-! ## The way back -/

theorem strnlen_of_notMem {str : CString} (h0 : 0 ∉ str) (n : Nat) :
    strnlen str n = min n str.length := by
  induction str generalizing n with
  | nil => cases n <;> simp [strnlen]
  | cons c str ih =>
    have hc : c ≠ 0 := fun he => h0 (he ▸ List.mem_cons_self ..)
    cases n with
    | zero => simp [strnlen]
    | succ n =>
      rw [strnlen, if_neg hc, ih (fun hmem => h0 (List.mem_cons_of_mem c hmem)), List.length_cons,
        Nat.succ_min_succ]

theorem writeFatString_toList {str : CString} (h0 : 0 ∉ str) (n : Nat) :
    (writeFatString str n).toList = str.take n ++ List.replicate (n - str.length) 0x20 := by
  refine List.ext_getElem (by simp; omega) fun i h1 h2 => ?_
  have hn : i < n := by simpa using h1
  simp only [writeFatString, Vector.getElem_toList, Vector.getElem_ofFn, strnlen_of_notMem h0]
  by_cases hi : i < str.length
  · have htake : i < (str.take n).length := by
      rw [List.length_take]
      omega
    rw [if_pos (by omega), List.getElem_append_left htake, List.getElem_take,
      List.getD_eq_getElem?_getD, List.getElem?_eq_getElem hi, Option.getD_some]
  · have htake : (str.take n).length ≤ i := by
      rw [List.length_take]
      omega
    rw [if_neg (by omega), List.getElem_append_right htake, List.getElem_replicate]

theorem readFatString_write {str : CString} {n : Nat} (h0 : 0 ∉ str) (hn : str.length ≤ n) :
    readFatString (writeFatString str n).toList = unpad 0x20 str := by
  rw [writeFatString_toList h0, List.take_of_length_le hn]
  change (unpad 0x20 (str ++ List.replicate (n - str.length) 0x20)).takeWhile (· != 0) = _
  rw [unpad_append_replicate, List.takeWhile_eq_self_iff]
  intro c hc
  exact bne_iff_ne.mpr fun he => h0 (he ▸ (unpad_part str).subset hc)

theorem restoreLead_unpad {c : Byte} (hspace : c ≠ 0x20) (hlead : c ≠ 0x05) (name : CString) :
    restoreLead (unpad 0x20 (guardLead (c :: name))) = unpad 0x20 (c :: name) := by
  rw [guardLead, List.head?_cons]
  by_cases hc : c = 0xE5
  · subst hc
    rw [if_pos rfl, List.tail_cons, unpad_cons_of_ne (by decide), unpad_cons_of_ne (by decide)]
    rfl
  · rw [if_neg fun he => hc (Option.some.inj he), unpad_cons_of_ne hspace, restoreLead,
      List.head?_cons, if_neg fun he => hlead (Option.some.inj he)]

/-- What the two fields of a name give back. -/
def rejoined (t : CString) : CString :=
  let ext := unpad 0x20 ((extension t).map toupper)
  unpad 0x20 ((stem t).map toupper) ++ if ext = [] then [] else 0x2E :: ext

theorem notMem_upper {u : CString} {d : Byte} (hd : inName d = false) (halpha : isalpha d = false)
    (hu : ∀ c ∈ u, inName c = true) : d ∉ u.map toupper := by
  intro hmem
  obtain ⟨c, hc, hcd⟩ := List.mem_map.mp hmem
  exact inName_ne hd (hu c hc) ((toupper_eq_iff halpha).mp hcd)

theorem guardLead_notMem {name : CString} (h0 : 0 ∉ name) :
    0 ∉ guardLead name ∧ (guardLead name).length = name.length := by
  cases name with
  | nil => exact ⟨h0, rfl⟩
  | cons c name =>
    rw [guardLead]
    split
    · refine ⟨fun hmem => ?_, rfl⟩
      exact h0 (List.mem_cons_of_mem c ((List.mem_cons.mp hmem).resolve_left (by decide)))
    · exact ⟨h0, rfl⟩

section Fields
variable {t : CString} (h : Valid t)
include h

theorem stem_inner : (stem t).head? ≠ some 0x20 := by
  obtain ⟨c, rest, hc⟩ := List.exists_cons_of_length_pos h.stem_pos
  obtain ⟨z, hz⟩ := List.takeWhile_prefix (l := t) (· != 0x2E)
  have hhead := h.inner.1
  rw [← hz, show t.takeWhile (· != 0x2E) = c :: rest from hc, List.cons_append] at hhead
  rwa [hc]

theorem stem_upper {d : Byte} (hd : inName d = false) (halpha : isalpha d = false) :
    d ∉ (stem t).map toupper :=
  notMem_upper hd halpha fun c hc => inName_iff.mpr (h.chars c (List.mem_append_left _ hc))

theorem extension_upper {d : Byte} (hd : inName d = false) (halpha : isalpha d = false) :
    d ∉ (extension t).map toupper :=
  notMem_upper hd halpha fun c hc => inName_iff.mpr (h.chars c (List.mem_append_right _ hc))

/-- The lead byte of a stem is neither a space nor the guard. -/
theorem restoreLead_stem : restoreLead (unpad 0x20 (guardLead ((stem t).map toupper))) =
    unpad 0x20 ((stem t).map toupper) := by
  obtain ⟨c, rest, hc⟩ := List.exists_cons_of_length_pos h.stem_pos
  have hspace := stem_inner h
  have hlead := stem_upper h (d := 0x05) (by decide) (by decide)
  rw [hc, List.map_cons] at hlead
  rw [hc, List.head?_cons] at hspace
  rw [hc, List.map_cons]
  refine restoreLead_unpad (fun he => hspace ?_) (fun he => hlead ?_) (rest.map toupper)
  · rw [(toupper_eq_iff (by decide)).mp he]
  · rw [he]
    exact List.mem_cons_self ..

theorem labelName_fields : labelName (fields t) = rejoined t := by
  have hguard := guardLead_notMem (stem_upper h (d := 0) (by decide) (by decide))
  have hlist : (fields t).toList =
      (writeFatString (guardLead ((stem t).map toupper)) NAME_LENGTH).toList ++
        (writeFatString ((extension t).map toupper) EXTENSION_LENGTH).toList :=
    Vector.toList_append
  rw [labelName, hlist, List.take_left' (by simp), List.drop_left' (by simp),
    readFatString_write hguard.1 (by rw [hguard.2, List.length_map]; exact h.stem_le),
    readFatString_write (extension_upper h (by decide) (by decide))
      (by rw [List.length_map]; exact h.ext_le), restoreLead_stem h, rejoined]
  split
  · rw [List.append_nil]
  · rw [List.append_assoc]
    rfl

end Fields

/-! ## Spaces beside the dot -/

theorem split_unique {s e x y : CString} (hs : 0x2E ∉ s) (he : 0x2E ∉ e)
    (h : x ++ 0x2E :: y = s ++ 0x2E :: e) : x = s ∧ y = e := by
  rcases List.append_eq_append_iff.mp h with ⟨z, rfl, hz⟩ | ⟨z, rfl, hz⟩
  · cases z with
    | nil => exact ⟨(List.append_nil x).symm, (List.cons.inj hz).2⟩
    | cons d z =>
      obtain ⟨rfl, -⟩ := List.cons.inj hz
      exact absurd (List.mem_append_right x (List.mem_cons_self ..)) hs
  · cases z with
    | nil => exact ⟨List.append_nil s, (List.cons.inj hz).2.symm⟩
    | cons d z =>
      obtain ⟨-, rfl⟩ := List.cons.inj hz
      exact absurd (List.mem_append_right z (List.mem_cons_self ..)) he

theorem spaceAtDot_iff {s e : CString} (hs : 0x2E ∉ s) (he : 0x2E ∉ e) :
    SpaceAtDot (s ++ 0x2E :: e) ↔ s.getLast? = some 0x20 ∨ e.head? = some 0x20 := by
  constructor
  · rintro (⟨x, y, h⟩ | ⟨x, y, h⟩)
    · have hsplit : (x ++ [0x20]) ++ 0x2E :: y = s ++ 0x2E :: e := by simpa using h
      obtain ⟨rfl, -⟩ := split_unique hs he hsplit
      exact Or.inl (by simp)
    · have hsplit : x ++ 0x2E :: (0x20 :: y) = s ++ 0x2E :: e := by simpa using h
      obtain ⟨-, rfl⟩ := split_unique hs he hsplit
      exact Or.inr rfl
  · rintro (h | h)
    · obtain ⟨x, rfl⟩ := List.getLast?_eq_some_iff.mp h
      exact Or.inl ⟨x, e, by simp⟩
    · obtain ⟨y, rfl⟩ := List.head?_eq_some_iff.mp h
      exact Or.inr ⟨s, y, by simp⟩

theorem head_upper_iff (u : CString) :
    (u.map toupper).head? ≠ some 0x20 ↔ u.head? ≠ some 0x20 := by
  cases u with
  | nil => simp
  | cons c u =>
    rw [List.map_cons, List.head?_cons, List.head?_cons]
    exact not_congr (Option.some_inj.trans
      ((toupper_eq_iff (by decide)).trans Option.some_inj.symm))

theorem last_upper_iff (u : CString) :
    (u.map toupper).getLast? ≠ some 0x20 ↔ u.getLast? ≠ some 0x20 := by
  have h := head_upper_iff u.reverse
  rwa [List.map_reverse, List.head?_reverse, List.head?_reverse] at h

theorem unpad_upper_iff (u : CString) :
    unpad 0x20 (u.map toupper) = u.map toupper ↔
      u.head? ≠ some 0x20 ∧ u.getLast? ≠ some 0x20 := by
  rw [unpad_eq_self_iff, head_upper_iff, last_upper_iff]

/-- Two words put together are as long as before only if nothing was taken off either. -/
theorem rejoined_dotted_iff (u v : CString) :
    unpad 0x20 u ++ 0x2E :: unpad 0x20 v = u ++ 0x2E :: v ↔
      unpad 0x20 u = u ∧ unpad 0x20 v = v := by
  constructor
  · intro h
    have hlen := congrArg List.length h
    have hu : (unpad 0x20 u).length ≤ u.length := (unpad_part u).length_le
    have hv : (unpad 0x20 v).length ≤ v.length := (unpad_part v).length_le
    simp only [List.length_append, List.length_cons] at hlen
    exact ⟨(unpad_part u).eq_of_length (by omega), (unpad_part v).eq_of_length (by omega)⟩
  · rintro ⟨hu, hv⟩
    rw [hu, hv]

section Rejoined
variable {t : CString}

theorem rejoined_of_notMem (h : Valid t) (hdot : 0x2E ∉ t) : rejoined t = plain t := by
  obtain ⟨hstem, hext⟩ := parts_of_notMem hdot
  have hlast : t.getLast? ≠ some 0x2E := fun he => hdot (List.mem_of_getLast? he)
  rw [rejoined, plain, hstem, hext, if_neg hlast, (unpad_upper_iff t).mpr h.inner]
  simp [unpad]

theorem rejoined_of_nil (h : Valid t) (hdot : 0x2E ∈ t) (hext : extension t = []) :
    rejoined t = plain t ↔ (stem t).getLast? ≠ some 0x20 := by
  have hparts := eq_parts_of_mem hdot
  rw [hext] at hparts
  have hplain : plain t = (stem t).map toupper := by
    rw [plain, hparts, if_pos (by simp), List.map_append, ← hparts]
    exact List.dropLast_concat
  have hrejoined : rejoined t = unpad 0x20 ((stem t).map toupper) := by
    rw [rejoined, hext]
    simp [unpad]
  rw [hplain, hrejoined, unpad_upper_iff]
  exact and_iff_right (stem_inner h)

theorem rejoined_of_ne_nil (h : Valid t) (hdot : 0x2E ∈ t) (hext : extension t ≠ []) :
    rejoined t = plain t ↔
      (stem t).getLast? ≠ some 0x20 ∧ (extension t).head? ≠ some 0x20 := by
  have hparts := eq_parts_of_mem hdot
  obtain ⟨front, d, hd⟩ := (List.eq_nil_or_concat (extension t)).resolve_left hext
  have hlast : t.getLast? = some d := by
    rw [hparts, hd, List.concat_eq_append, ← List.cons_append, ← List.append_assoc,
      List.getLast?_concat]
  have hdspace : d ≠ 0x20 := fun he => h.inner.2 (hlast.trans (congrArg some he))
  have hddot : d ≠ 0x2E := by
    have hmem : d ∈ stem t ++ extension t := by
      rw [hd]
      simp
    exact inName_ne (by decide) (inName_iff.mpr (h.chars d hmem))
  have hplain : plain t = (stem t).map toupper ++ 0x2E :: (extension t).map toupper := by
    rw [plain, hlast, if_neg fun he => hddot (Option.some.inj he)]
    conv_lhs => rw [hparts]
    rw [List.map_append, List.map_cons]
    rfl
  have hne : unpad 0x20 ((extension t).map toupper) ≠ [] := by
    intro hnil
    have hall := (unpad_eq_nil_iff _).mp hnil (toupper d) (by rw [hd]; simp)
    exact hdspace ((toupper_eq_iff (by decide)).mp hall)
  have hextlast : (extension t).getLast? ≠ some 0x20 := by
    rw [hd]
    simpa using hdspace
  rw [rejoined, if_neg hne, hplain, rejoined_dotted_iff, unpad_upper_iff, unpad_upper_iff,
    and_iff_right (stem_inner h), and_iff_left hextlast]

theorem rejoined_eq_plain_iff (h : Valid t) : rejoined t = plain t ↔ ¬ SpaceAtDot t := by
  by_cases hdot : 0x2E ∈ t
  · have hext : 0x2E ∉ extension t := fun hmem =>
      absurd (h.chars _ (List.mem_append_right _ hmem)) (by decide)
    have hspace : SpaceAtDot (stem t ++ 0x2E :: extension t) ↔ _ :=
      spaceAtDot_iff dot_notMem_stem hext
    rw [← eq_parts_of_mem hdot] at hspace
    rw [hspace, not_or]
    by_cases hnil : extension t = []
    · rw [rejoined_of_nil h hdot hnil, hnil]
      simp
    · exact rejoined_of_ne_nil h hdot hnil
  · refine iff_of_true (rejoined_of_notMem h hdot) ?_
    rintro (hinf | hinf)
    · exact hdot (hinf.subset (by decide))
    · exact hdot (hinf.subset (by decide))

end Rejoined

end ShortName

/-! ## The round trip -/

open ShortName

/-- The call keeps the documented contract exactly for the names that are not to be taken, or that
have no space beside the dot. -/
theorem short_name_kept_iff (e : DirEntry) (src : CString) :
    (((e.setShortNameIn src).1 = true →
        (e.setShortNameIn src).2.getShortName = plain (trimSpace src) ∧ Valid (trimSpace src)) ∧
      ((e.setShortNameIn src).1 = false → (e.setShortNameIn src).2 = e)) ↔
      (Valid (trimSpace src) → ¬ SpaceAtDot (trimSpace src)) := by
  by_cases h : Valid (trimSpace src)
  · have hset : e.setShortNameIn src = (true, { e with label := fields (trimSpace src) }) := by
      rw [DirEntry.setShortNameIn, DirEntry.setShortName, shortLabel_of_valid h]
      rfl
    have hget : ({ e with label := fields (trimSpace src) } : DirEntry).getShortName =
        rejoined (trimSpace src) := labelName_fields h
    rw [hset, hget, rejoined_eq_plain_iff h]
    exact ⟨fun hkept _ => (hkept.1 rfl).1, fun hspace => ⟨fun _ => ⟨hspace h, h⟩, fun hset => by cases hset⟩⟩
  · have hset : e.setShortNameIn src = (false, e) := by
      rw [DirEntry.setShortNameIn, DirEntry.setShortName, shortLabel_of_not_valid h]
      rfl
    rw [hset]
    exact iff_of_true ⟨fun hset => (by cases hset), fun _ => rfl⟩ fun hv => absurd hv h

/-- `a .b` and `a.b` are both taken, and are one name from there on. -/
theorem short_name_lost :
    (DirEntry.zero.setShortNameIn (text ['a', ' ', '.', 'b'])).1 = true ∧
      (DirEntry.zero.setShortNameIn (text ['a', ' ', '.', 'b'])).2.getShortName ≠
        plain (trimSpace (text ['a', ' ', '.', 'b'])) ∧
      DirEntry.zero.setShortNameIn (text ['a', ' ', '.', 'b']) =
        DirEntry.zero.setShortNameIn (text ['a', '.', 'b']) := by
  decide

end Ohwes.Fatfs
