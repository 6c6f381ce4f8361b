import Mathlib.Data.List.DropRight
import Ohwes.I386.CrashText

/-! # `i386/kernel/crash.c`: how `wrap_text` sets its lines

The lines of a text, one character after the other and without anything printed: how long the line
is, how long the word, and whether the character is in a word or in the white space behind one. The
loops of `wrap_text` follow this, and what they print is read off it. -/

namespace Ohwes
set_option autoImplicit false

/-- The characters that are no white space. -/
def solids (str : CString) : CString := str.filter fun c => !isspace c

/-- Where a text has got to. `solid`: the last word has a character that is no white space. -/
structure Line where
  length : Nat
  word : Nat
  esc : CrashEsc
  inWord : Bool
  solid : Bool
deriving DecidableEq, Repr

namespace Line

/-- A word ends at a line feed, and at a space outside of escape sequences. -/
def breaks (l : Line) (c : Byte) : Bool := c == 0x0A || (l.esc == .none && isspace c)

/-- A character of a word; those of escape sequences have no width. -/
def take (l : Line) (c : Byte) : Line :=
  let l := { l with solid := l.solid || !isspace c }
  if c = 0x1B then { l with esc := .esc }
  else match l.esc with
    | .esc => { l with esc := if c = 0x5B then .csi else .none }
    | .csi => { l with esc := if isdigit c || c == 0x3B then .csi else .none }
    | .none => { l with word := l.word + 1, length := l.length + 1 }

/-- A space of the white space behind a word; at the very start of a line it takes no room. -/
def eat (l : Line) : Line := { l with length := if l.length > 0 then l.length + 1 else 0 }

def newWord (l : Line) : Line := { l with word := 0, inWord := true, solid := false }

section Steps
variable (margin cols : Nat)

/-- The word goes on the next line. -/
def carry (l : Line) : Line := { l with length := 2 * margin + l.word }

/-- A line that has become too long is broken before the word. -/
def wrap (l : Line) : Line := if l.length > cols then l.carry margin else l

def breakAt (l : Line) (c : Byte) : Line :=
  { l with inWord := false, length := if c = 0x0A then 2 * margin else l.length }

/-- A character of a word, or the first space behind it where there is room for that. -/
def settle (l : Line) (c : Byte) : Line :=
  let l := l.wrap margin cols
  if l.breaks c then (l.breakAt margin c).eat else l.take c

/-- The same, and where there is no room for the space it begins a word. -/
def wordChar (l : Line) (c : Byte) : Line :=
  let behind := (l.wrap margin cols).breakAt margin c
  if (l.wrap margin cols).breaks c ∧ behind.length > cols then
    (behind.carry margin).newWord.settle margin cols c
  else l.settle margin cols c

def step (l : Line) (c : Byte) : Line :=
  if l.inWord then l.wordChar margin cols c
  else if isspace c then
    if l.length > cols then (l.carry margin).newWord.wordChar margin cols c else l.eat
  else l.newWord.wordChar margin cols c

def start : Line where
  length := 2 * margin
  word := 0
  esc := .none
  inWord := true
  solid := false

end Steps

end Line

/-- The lines of a text. -/
def layout (margin cols : Nat) (text : CString) : Line :=
  text.foldl (Line.step margin cols) (Line.start margin)

/-! ## One character -/

theorem solids_append (s t : CString) : solids (s ++ t) = solids s ++ solids t :=
  List.filter_append ..

theorem solids_spaces {str : CString} (h : ∀ c ∈ str, isspace c = true) : solids str = [] := by
  apply List.filter_eq_nil_iff.mpr
  intro c hc
  simp [h c hc]

theorem solids_eq_nil_iff (str : CString) : solids str = [] ↔ ∀ c ∈ str, isspace c = true := by
  simp [solids, List.filter_eq_nil_iff]

namespace Line
variable {margin cols : Nat} {l : Line} {c : Byte}

theorem isspace_of_breaks (h : l.breaks c = true) : isspace c = true := by
  rw [breaks, Bool.or_eq_true, Bool.and_eq_true] at h
  rcases h with h | h
  · rw [eq_of_beq h]
    rfl
  · exact h.2

@[simp] theorem wrap_word (l : Line) : (l.wrap margin cols).word = l.word := by
  rw [wrap]
  split <;> rfl

@[simp] theorem wrap_esc (l : Line) : (l.wrap margin cols).esc = l.esc := by
  rw [wrap]
  split <;> rfl

@[simp] theorem wrap_inWord (l : Line) : (l.wrap margin cols).inWord = l.inWord := by
  rw [wrap]
  split <;> rfl

@[simp] theorem wrap_solid (l : Line) : (l.wrap margin cols).solid = l.solid := by
  rw [wrap]
  split <;> rfl

@[simp] theorem take_solid (l : Line) (c : Byte) :
    (l.take c).solid = (l.solid || !isspace c) := by
  rw [take]
  split
  · rfl
  · cases l.esc <;> rfl

@[simp] theorem take_inWord (l : Line) (c : Byte) : (l.take c).inWord = l.inWord := by
  rw [take]
  split
  · rfl
  · cases l.esc <;> rfl

theorem wrap_breaks (margin cols : Nat) (l : Line) (c : Byte) :
    (l.wrap margin cols).breaks c = l.breaks c := by
  rw [breaks, breaks, wrap_esc]

/-- Before a word has begun there is room on the line. -/
theorem breakAt_room (hm : 2 * margin ≤ cols) (hw : l.word = 0) (c : Byte) :
    ((l.wrap margin cols).breakAt margin c).length ≤ cols := by
  have hwrap : (l.wrap margin cols).length ≤ cols := by
    rw [wrap]
    split
    · rw [carry, hw]
      exact hm
    · omega
  rw [breakAt]
  split
  · exact hm
  · exact hwrap

theorem wordChar_fresh (hm : 2 * margin ≤ cols) (hw : l.word = 0) (c : Byte) :
    l.wordChar margin cols c = l.settle margin cols c := by
  have hroom := breakAt_room hm hw c
  rw [wordChar, if_neg]
  omega

/-- Behind a word anything but white space begins the next word. -/
theorem step_newWord (hin : l.inWord = false) (hc : isspace c = false) :
    l.step margin cols c = l.newWord.step margin cols c := by
  have hgap : ¬ l.inWord = true := by simp [hin]
  rw [step, if_neg hgap, hc, if_neg Bool.false_ne_true, step]
  rfl

/-- White space that does not fit on the line begins a word on the next one. -/
theorem step_carry (hin : l.inWord = false) (hc : isspace c = true) (hlong : l.length > cols) :
    l.step margin cols c = (l.carry margin).newWord.step margin cols c := by
  have hgap : ¬ l.inWord = true := by simp [hin]
  rw [step, if_neg hgap, if_pos hc, if_pos hlong, step]
  rfl

theorem step_eat (margin : Nat) (hin : l.inWord = false) (hc : isspace c = true)
    (hroom : ¬ l.length > cols) : l.step margin cols c = l.eat := by
  have hgap : ¬ l.inWord = true := by simp [hin]
  rw [step, if_neg hgap, if_pos hc, if_neg hroom]

theorem step_take (margin cols : Nat) (hin : l.inWord = true) (hb : l.breaks c = false) :
    l.step margin cols c = (l.wrap margin cols).take c := by
  have hnot : ¬ (l.wrap margin cols).breaks c = true := by simp [wrap_breaks, hb]
  rw [step, if_pos hin, wordChar, if_neg fun h => hnot h.1, settle, if_neg hnot]

/-- A space behind a word is the first of the white space there. -/
theorem step_break (hm : 2 * margin ≤ cols) (hin : l.inWord = true) (hb : l.breaks c = true) :
    l.step margin cols c = ((l.wrap margin cols).breakAt margin c).step margin cols c := by
  have hbw : (l.wrap margin cols).breaks c = true := by rwa [wrap_breaks]
  have hc := isspace_of_breaks hb
  have hgap : ((l.wrap margin cols).breakAt margin c).inWord = false := rfl
  rw [step, if_pos hin, wordChar]
  by_cases hlong : ((l.wrap margin cols).breakAt margin c).length > cols
  · rw [if_pos ⟨hbw, hlong⟩, step_carry hgap hc hlong, ← wordChar_fresh hm rfl, step]
    rfl
  · rw [if_neg fun h => hlong h.2, step_eat margin hgap hc hlong, settle, if_pos hbw]

end Line

/-! ## The loops follow the lines -/

section Loops
variable {b : CrashBuffer} {margin cols : Nat}

/-- The variables of `wrap_text` are those of the line; the word has given `done` so far and `rest`
is ahead. -/
structure Follows (b : CrashBuffer) (s : Wrap) (l : Line) (done rest : CString) : Prop where
  length : s.linelen = l.length
  wordlen : s.wordlen = l.word
  esc : s.esc = l.esc
  taken : s.wordlen + s.esclen = done.length
  word : s.word = done ++ rest
  inside : s.word <:+ b.text
  solid : l.solid = true ↔ solids done ≠ []

variable {s : Wrap} {l : Line} {done rest : CString} {c : Byte}

theorem solid_concat (h : l.solid = true ↔ solids done ≠ []) (c : Byte) :
    (l.solid || !isspace c) = true ↔ solids (done ++ [c]) ≠ [] := by
  rw [solids_append, Bool.or_eq_true, h]
  cases hc : isspace c <;> simp [solids, hc]

/-- A character goes into the word, with the line as it is then. -/
theorem Follows.take {t : Wrap} (hf : Follows b s l done (c :: rest)) (hword : t.word = s.word)
    (htaken : t.wordlen + t.esclen = s.wordlen + s.esclen + 1)
    (hlength : t.linelen = (l.take c).length) (hwordlen : t.wordlen = (l.take c).word)
    (hesc : t.esc = (l.take c).esc) :
    Follows b t (l.take c) (done ++ [c]) rest where
  length := hlength
  wordlen := hwordlen
  esc := hesc
  taken := by rw [htaken, hf.taken, List.length_append, List.length_singleton]
  word := by rw [hword, hf.word, List.append_assoc, List.singleton_append]
  inside := hword ▸ hf.inside
  solid := by rw [Line.take_solid, solid_concat hf.solid]

/-- A character of an escape sequence; the line gets no longer. -/
theorem Follows.takeEsc (hf : Follows b s l done (c :: rest)) (e : CrashEsc)
    (htake : l.take c = { l with solid := l.solid || !isspace c, esc := e }) :
    Follows b { s with esclen := s.esclen + 1, esc := e } (l.take c) (done ++ [c]) rest := by
  refine hf.take rfl (Nat.add_assoc ..).symm ?_ ?_ ?_
  · rw [htake, hf.length]
  · rw [htake, hf.wordlen]
  · rw [htake]

theorem newLine_follows (margin : Nat) (hf : Follows b s l done rest) :
    ∃ t, s.newLine b margin = .ok t ∧ Follows b t (l.carry margin) done rest ∧
      solids t.out = solids s.out := by
  refine ⟨_, s.newLine_eq b margin, ?_, ?_⟩
  · have hlen : 2 * margin + s.wordlen = 2 * margin + l.word := by rw [hf.wordlen]
    exact ⟨hlen, hf.wordlen, hf.esc, hf.taken, hf.word, hf.inside, hf.solid⟩
  · rw [solids_append]
    exact List.append_nil _

theorem wrap_follows (margin cols : Nat) (hf : Follows b s l done rest) :
    ∃ t, s.checkLine b margin cols = .ok t ∧
      Follows b t (l.wrap margin cols) done rest ∧ solids t.out = solids s.out := by
  rw [Wrap.checkLine, hf.length, Line.wrap]
  by_cases hlong : l.length > cols
  · rw [if_pos hlong, if_pos hlong]
    exact newLine_follows margin hf
  · rw [if_neg hlong, if_neg hlong]
    exact ⟨s, rfl, hf, rfl⟩

theorem margin_follows (margin : Nat) (hf : Follows b s l done rest) :
    ∃ t, s.putMargin b margin = .ok t ∧ Follows b t l done rest ∧ solids t.out = solids s.out := by
  rw [Wrap.putMargin]
  by_cases hprint : s.printMargin
  · rw [if_pos hprint, s.printSpaces_eq b margin, ok_bind]
    refine ⟨_, rfl, ⟨hf.length, hf.wordlen, hf.esc, hf.taken, hf.word, hf.inside, hf.solid⟩, ?_⟩
    have hspaces : solids (List.replicate margin 0x20) = [] := by
      apply solids_spaces
      intro c hc
      rw [List.eq_of_mem_replicate hc]
      rfl
    rw [solids_append, hspaces, List.append_nil]
  · rw [if_neg hprint]
    exact ⟨s, rfl, hf, rfl⟩

/-- A step of the inner loop: the character is taken into the word, or the word is printed. -/
theorem scanWord_char (margin cols : Nat) (hf : Follows b s l done (c :: rest)) :
    (l.breaks c = false ∧ ∃ t,
      scanWord b margin cols (c :: rest) s = scanWord b margin cols rest t ∧
      Follows b t ((l.wrap margin cols).take c) (done ++ [c]) rest ∧ solids t.out = solids s.out) ∨
    (l.breaks c = true ∧ ∃ t, scanWord b margin cols (c :: rest) s = .ok (c :: rest, t) ∧
      Follows b t ((l.wrap margin cols).breakAt margin c) done (c :: rest) ∧
      solids t.out = solids s.out ++ solids done) := by
  have hoffset : b.offset (c :: rest) < CRASH_BUFSIZ := Nat.lt_of_le_of_lt (Nat.sub_le ..) b.fits
  obtain ⟨t, ht, hft, hout⟩ := wrap_follows margin cols hf
  have hbreaks := Line.wrap_breaks margin cols l c
  rw [scanWord, if_pos hoffset, ht, ok_bind]
  generalize l.wrap margin cols = m at *
  by_cases hlf : c = 0x0A
  · refine .inr ⟨by rw [← hbreaks, Line.breaks, hlf]; rfl, ?_⟩
    rw [if_pos hlf, t.printWord_eq b hft.word hft.taken hft.inside, ok_bind]
    refine ⟨_, rfl, ⟨?_, hft.wordlen, hft.esc, hft.taken, hft.word, hft.inside, hft.solid⟩, ?_⟩
    · simp [Line.breakAt, hlf]
    · rw [solids_append, hout]
  have hnot : (c == 0x0A) = false := beq_eq_false_iff_ne.mpr hlf
  rw [if_neg hlf]
  by_cases hesc : c = 0x1B
  · subst hesc
    have htake : m.take 0x1B = { m with solid := m.solid || !isspace 0x1B, esc := .esc } := rfl
    refine .inl ⟨?_, ⟨_, if_pos rfl, hft.takeEsc .esc htake, hout⟩⟩
    rw [← hbreaks, Line.breaks, hnot, Bool.false_or]
    exact Bool.and_false _
  rw [if_neg hesc]
  cases hstate : t.esc with
  | esc =>
    have hm : m.esc = .esc := hft.esc.symm.trans hstate
    have htake : m.take c = { m with
        solid := m.solid || !isspace c, esc := if c = 0x5B then .csi else .none } := by
      rw [Line.take, if_neg hesc, hm]
    refine .inl ⟨by rw [← hbreaks, Line.breaks, hnot, hm]; rfl, ?_⟩
    by_cases hcsi : c = 0x5B
    · rw [if_pos hcsi] at htake
      exact ⟨_, if_pos hcsi, hft.takeEsc .csi htake, hout⟩
    · rw [if_neg hcsi] at htake
      exact ⟨_, if_neg hcsi, hft.takeEsc .none htake, hout⟩
  | csi =>
    have hm : m.esc = .csi := hft.esc.symm.trans hstate
    have htake : m.take c = { m with
        solid := m.solid || !isspace c,
        esc := if isdigit c || c == 0x3B then .csi else .none } := by
      rw [Line.take, if_neg hesc, hm]
    refine .inl ⟨by rw [← hbreaks, Line.breaks, hnot, hm]; rfl, ?_⟩
    by_cases hparam : (isdigit c || c == 0x3B) = true
    · rw [if_pos hparam] at htake
      have hsame : { t with esclen := t.esclen + 1, esc := .csi } =
          { t with esclen := t.esclen + 1 } := by rw [← hstate]
      exact ⟨_, if_pos hparam, hsame ▸ hft.takeEsc .csi htake, hout⟩
    · rw [if_neg hparam] at htake
      exact ⟨_, if_neg hparam, hft.takeEsc .none htake, hout⟩
  | none =>
    have hm : m.esc = .none := hft.esc.symm.trans hstate
    obtain ⟨u, hu, hfu, hout'⟩ := margin_follows margin hft
    have hspace : l.breaks c = isspace c := by
      rw [← hbreaks, Line.breaks, hnot, hm]
      rfl
    simp only [hu, ok_bind]
    cases hc : isspace c with
    | true =>
      rw [if_pos rfl, u.printWord_eq b hfu.word hfu.taken hfu.inside, ok_bind]
      refine .inr ⟨hspace.trans hc, _, rfl,
        ⟨?_, hfu.wordlen, hfu.esc, hfu.taken, hfu.word, hfu.inside, hfu.solid⟩, ?_⟩
      · exact hfu.length.trans (if_neg hlf).symm
      · rw [solids_append, hout', hout]
    | false =>
      have htake : m.take c = { m with
          solid := m.solid || !isspace c, word := m.word + 1, length := m.length + 1 } := by
        rw [Line.take, if_neg hesc, hm]
      refine .inl ⟨hspace.trans hc, _, rfl, hfu.take rfl ?_ ?_ ?_ ?_, hout'.trans hout⟩
      · exact Nat.add_right_comm ..
      · rw [htake, hfu.length]
      · rw [htake, hfu.wordlen]
      · rw [htake, hfu.esc]

/-- The inner loop: it comes to the end of the text in a word, or breaks off behind one, which is
then printed. -/
theorem scanWord_follows (hm : 2 * margin ≤ cols) (p : CString) {s : Wrap} {l : Line}
    {done : CString} (hf : Follows b s l done p) (hin : l.inWord = true) :
    (∃ t, scanWord b margin cols p s = .ok ([], t) ∧
      Follows b t (p.foldl (Line.step margin cols) l) (done ++ p) [] ∧
      (p.foldl (Line.step margin cols) l).inWord = true ∧ solids t.out = solids s.out) ∨
    ∃ more q t g, p = more ++ q ∧ scanWord b margin cols p s = .ok (q, t) ∧
      Follows b t g (done ++ more) q ∧ g.inWord = false ∧ (∃ c r, q = c :: r ∧ isspace c = true) ∧
      (more = [] → l.word = 0 → g.length ≤ cols) ∧
      p.foldl (Line.step margin cols) l = q.foldl (Line.step margin cols) g ∧
      solids t.out = solids s.out ++ solids (done ++ more) := by
  induction p generalizing s l done with
  | nil =>
    refine .inl ⟨s, rfl, ?_, hin, rfl⟩
    rw [List.append_nil]
    exact hf
  | cons c p ih =>
    rcases scanWord_char margin cols hf with ⟨hb, t, ht, hft, hout⟩ |
      ⟨hb, t, ht, hft, hout⟩
    · have hstep := Line.step_take margin cols hin hb
      have hin' : ((l.wrap margin cols).take c).inWord = true := by
        rw [Line.take_inWord, Line.wrap_inWord, hin]
      rw [List.foldl_cons, hstep, ht]
      rcases ih hft hin' with ⟨u, hu, hfu, hend, hout'⟩ |
        ⟨more, q, u, g, rfl, hu, hfu, hg, hq, -, hfold, hout'⟩
      · refine .inl ⟨u, hu, ?_, hend, hout'.trans hout⟩
        rwa [List.append_assoc, List.singleton_append] at hfu
      · refine .inr ⟨c :: more, q, u, g, rfl, hu, ?_, hg, hq, ?_, hfold, ?_⟩
        · rwa [List.append_assoc, List.singleton_append] at hfu
        · intro hnil
          exact absurd hnil (List.cons_ne_nil _ _)
        · rw [hout', hout, List.append_assoc, List.singleton_append]
    · have hstep := Line.step_break hm hin hb
      have hspace := Line.isspace_of_breaks hb
      refine .inr ⟨[], c :: p, t, (l.wrap margin cols).breakAt margin c, rfl, ht, ?_, rfl,
        ⟨c, p, rfl, hspace⟩, ?_, ?_, ?_⟩
      · rw [List.append_nil]
        exact hft
      · intro _ hw
        exact Line.breakAt_room hm hw c
      · rw [List.foldl_cons, hstep, List.foldl_cons]
      · rw [List.append_nil]
        exact hout

theorem eatSpaces_char {g : Line} (hf : Follows b s g done rest) (hc : isspace c = true)
    (hroom : ¬ g.length > cols) (p : CString) :
    ∃ t, eatSpaces b margin cols (c :: p) s = eatSpaces b margin cols p t ∧
      Follows b t g.eat done rest ∧ solids t.out = solids s.out := by
  rw [eatSpaces, if_pos hc, hf.length, if_neg hroom]
  by_cases hpos : g.length > 0
  · have hlength : g.length + 1 = g.eat.length := (if_pos hpos).symm
    rw [if_pos hpos, s.print_ok b (b.fbprint_char c), ok_bind]
    refine ⟨_, rfl, ⟨?_, hf.wordlen, hf.esc, hf.taken, hf.word, hf.inside, hf.solid⟩, ?_⟩
    · simp only [hf.length, hlength]
    · have hspace : solids [c] = [] := solids_spaces (by simpa using hc)
      rw [solids_append, hspace, List.append_nil]
  · have hlength : g.length = g.eat.length := by
      rw [Line.eat]
      exact (Nat.eq_zero_of_not_pos hpos).trans (if_neg hpos).symm
    rw [if_neg hpos]
    exact ⟨s, rfl, ⟨hf.length.trans hlength, hf.wordlen, hf.esc, hf.taken, hf.word, hf.inside,
      hf.solid⟩, rfl⟩

/-- The white space behind a word: it is gone over up to the next word, or up to where the line is
full. -/
theorem eatSpaces_follows (margin cols : Nat) (p : CString) {s : Wrap} {g : Line}
    {done rest : CString} (hf : Follows b s g done rest) (hg : g.inWord = false) :
    ∃ sp q t g', p = sp ++ q ∧ (∀ c ∈ sp, isspace c = true) ∧
      eatSpaces b margin cols p s = .ok (q, t) ∧ solids t.out = solids s.out ∧
      sp.foldl (Line.step margin cols) g = g' ∧ g'.inWord = false ∧
      (sp = [] → ∀ c r, p = c :: r → isspace c = true → g.length > cols) ∧
      ((Follows b t g' done rest ∧ ∀ c r, q = c :: r → isspace c = false) ∨
        (Follows b t (g'.carry margin) done rest ∧ g'.length > cols ∧
          ∃ c r, q = c :: r ∧ isspace c = true)) := by
  induction p generalizing s g with
  | nil =>
    refine ⟨[], [], s, g, rfl, by simp, rfl, rfl, rfl, hg, by simp, .inl ⟨hf, by simp⟩⟩
  | cons c p ih =>
    cases hc : isspace c with
    | false =>
      have hstop : eatSpaces b margin cols (c :: p) s = .ok (c :: p, s) := by
        rw [eatSpaces, hc]
        rfl
      refine ⟨[], c :: p, s, g, rfl, by simp, hstop, rfl, rfl, hg, ?_, .inl ⟨hf, ?_⟩⟩
      · rintro - d r heq hd
        cases heq
        rw [hc] at hd
        cases hd
      · rintro d r heq
        cases heq
        exact hc
    | true =>
      by_cases hlong : g.length > cols
      · obtain ⟨t, ht, hft, hout⟩ := newLine_follows margin hf
        have hstop : eatSpaces b margin cols (c :: p) s = .ok (c :: p, t) := by
          rw [eatSpaces, if_pos hc, hf.length, if_pos hlong, ht, ok_bind]
        exact ⟨[], c :: p, t, g, rfl, by simp, hstop, hout, rfl, hg, fun _ _ _ _ _ => hlong,
          .inr ⟨hft, hlong, c, p, rfl, hc⟩⟩
      · have hstep := Line.step_eat margin hg hc hlong
        obtain ⟨t, ht, hft, hout⟩ := eatSpaces_char hf hc hlong p
        obtain ⟨sp, q, u, g', rfl, hsp, hu, hout', hfold, hg', -, hcases⟩ := ih hft hg
        refine ⟨c :: sp, q, u, g', rfl, ?_, ht.trans hu, hout'.trans hout, ?_, hg', ?_, hcases⟩
        · intro d hd
          rcases List.mem_cons.mp hd with rfl | hd
          · exact hc
          · exact hsp d hd
        · rw [List.foldl_cons, hstep, hfold]
        · intro hnil
          exact absurd hnil (List.cons_ne_nil _ _)

/-- The variables as the outer loop sets them for a word at `p`. -/
def atWord (p : CString) (s : Wrap) : Wrap := { s with word := p, wordlen := 0, esclen := 0 }

theorem Follows.newWord {g : Line} {p : CString} (hf : Follows b s g done rest)
    (hp : p <:+ b.text) :
    Follows b (atWord p s) g.newWord [] p where
  length := hf.length
  wordlen := rfl
  esc := hf.esc
  taken := rfl
  word := rfl
  inside := hp
  solid := by simp [Line.newWord, solids]

/-- After the outer loop: if the last word ended with the text it is still to be printed. -/
def WrapEnd (b : CrashBuffer) (t : Wrap) (e : Line) (shown : CString) : Prop :=
  ∃ done rest, Follows b t e done rest ∧
    solids t.out ++ (if e.inWord then solids done else []) = shown

/-- A word and the white space behind it. -/
theorem word_follows (hm : 2 * margin ≤ cols) {p : CString} {s : Wrap} {l : Line} (hp : p ≠ [])
    (hin : p <:+ b.text) (hf : Follows b (atWord p s) l [] p) (hl : l.inWord = true) :
    ∃ q t r u, scanWord b margin cols p (atWord p s) = .ok (q, t) ∧
      eatSpaces b margin cols q t = .ok (r, u) ∧ r.length < p.length ∧ r <:+ b.text ∧
      ((r = [] ∧ WrapEnd b u (p.foldl (Line.step margin cols) l) (solids s.out ++ solids p)) ∨
        ∃ l', r ≠ [] ∧ Follows b (atWord r u) l' [] r ∧ l'.inWord = true ∧
          p.foldl (Line.step margin cols) l = r.foldl (Line.step margin cols) l' ∧
          solids u.out ++ solids r = solids s.out ++ solids p) := by
  have hword : l.word = 0 := hf.wordlen.symm
  rcases scanWord_follows hm p hf hl with ⟨t, ht, hft, hend, hout⟩ |
    ⟨more, q, t, g, rfl, ht, hft, hg, ⟨c, r, rfl, hc⟩, hroom, hfold, hout⟩
  · refine ⟨[], t, [], t, ht, rfl, List.length_pos_iff.mpr hp, List.nil_suffix, .inl ⟨rfl, ?_⟩⟩
    refine ⟨p, [], hft, ?_⟩
    rw [if_pos hend, hout]
    rfl
  · obtain ⟨sp, q, u, g', hsplit, hsp, hu, hout', hgfold, hg', hprogress, hcases⟩ :=
      eatSpaces_follows margin cols (c :: r) hft hg
    have hshown : solids u.out ++ solids q = solids s.out ++ solids (more ++ c :: r) := by
      rw [hout', hout, List.nil_append, hsplit, solids_append more, solids_append sp,
        solids_spaces hsp, List.nil_append, List.append_assoc]
      rfl
    have hshort : q.length < (more ++ c :: r).length := by
      have hlen := congrArg List.length hsplit
      rw [List.length_append] at hlen
      rw [List.length_append]
      by_cases hsp0 : sp = []
      · have hlong := hprogress hsp0 c r rfl hc
        have hmore : more ≠ [] := fun h0 => by
          have := hroom h0 hword
          omega
        have := List.length_pos_iff.mpr hmore
        omega
      · have := List.length_pos_iff.mpr hsp0
        omega
    have hinside : q <:+ b.text := by
      have hq : q <:+ more ++ c :: r := ⟨more ++ sp, by rw [hsplit, List.append_assoc]⟩
      exact hq.trans hin
    have hrest : (more ++ c :: r).foldl (Line.step margin cols) l =
        q.foldl (Line.step margin cols) g' := by
      rw [hfold, hsplit, List.foldl_append, hgfold]
    refine ⟨c :: r, t, q, u, ht, hu, hshort, hinside, ?_⟩
    rw [hrest, ← hshown]
    rcases hcases with ⟨hfu, hnext⟩ | ⟨hfu, hlong, d, q, rfl, hd⟩
    · cases q with
      | nil =>
        refine .inl ⟨rfl, ⟨_, _, hfu, ?_⟩⟩
        rw [List.foldl_nil, hg']
        rfl
      | cons d q =>
        refine .inr ⟨g'.newWord, List.cons_ne_nil _ _, hfu.newWord hinside, rfl, ?_, rfl⟩
        rw [List.foldl_cons, Line.step_newWord hg' (hnext d q rfl), List.foldl_cons]
    · refine .inr ⟨(g'.carry margin).newWord, List.cons_ne_nil _ _, hfu.newWord hinside, rfl,
        ?_, rfl⟩
      rw [List.foldl_cons, Line.step_carry hg' hd hlong, List.foldl_cons]

/-- The outer loop comes to an end: every pass uses up a character of the text. -/
theorem wrapLoop_follows (hm : 2 * margin ≤ cols) {p : CString} {s : Wrap} {l : Line} (hp : p ≠ [])
    (hin : p <:+ b.text) (hf : Follows b (atWord p s) l [] p) (hl : l.inWord = true) :
    ∃ t, (∀ fuel > p.length, wrapLoop b margin cols fuel p s = .ok t) ∧
      WrapEnd b t (p.foldl (Line.step margin cols) l) (solids s.out ++ solids p) := by
  induction hn : p.length using Nat.strongRecOn generalizing p s l with
  | ind n ih =>
    subst hn
    have hoffset : b.offset p < CRASH_BUFSIZ := Nat.lt_of_le_of_lt (Nat.sub_le ..) b.fits
    obtain ⟨q, t, r, u, ht, hu, hshort, hinside, hcases⟩ := word_follows hm hp hin hf hl
    have hloop : ∀ fuel,
        wrapLoop b margin cols (fuel + 1) p s = wrapLoop b margin cols fuel r u := by
      intro fuel
      rw [wrapLoop, if_pos ⟨hoffset, hp⟩]
      change (scanWord b margin cols p (atWord p s) >>= _) = _
      rw [ht, ok_bind]
      simp only [hu, ok_bind]
    rcases hcases with ⟨rfl, hend⟩ | ⟨l', hr, hfr, hl', hfold, hshown⟩
    · refine ⟨u, fun fuel hfuel => ?_, hend⟩
      have hpos := List.length_pos_iff.mpr hp
      obtain ⟨k, rfl⟩ : ∃ k, fuel = k + 2 := ⟨fuel - 2, by omega⟩
      rw [hloop, wrapLoop, if_neg fun h => h.2 rfl]
    · obtain ⟨v, hv, hend⟩ := ih r.length hshort hr hinside hfr hl' rfl
      rw [hfold, ← hshown]
      refine ⟨v, fun fuel hfuel => ?_, hend⟩
      obtain ⟨k, rfl⟩ : ∃ k, fuel = k + 1 := ⟨fuel - 1, by omega⟩
      rw [hloop]
      exact hv k (by omega)

/-- On the whole text. -/
theorem wrapLoop_layout (b : CrashBuffer) (hm : 2 * margin ≤ cols) :
    ∃ t, (∀ fuel > b.text.length,
        wrapLoop b margin cols fuel b.text (Wrap.start b.text margin) = .ok t) ∧
      WrapEnd b t (layout margin cols b.text) (solids b.text) := by
  have hstart : Follows b (Wrap.start b.text margin) (Line.start margin) [] b.text :=
    ⟨rfl, rfl, rfl, rfl, rfl, List.suffix_refl _, by simp [Line.start, solids]⟩
  by_cases hnil : b.text = []
  · refine ⟨Wrap.start b.text margin, fun fuel hfuel => ?_, [], b.text, ?_, ?_⟩
    · obtain ⟨k, rfl⟩ : ∃ k, fuel = k + 1 := ⟨fuel - 1, by omega⟩
      rw [wrapLoop, if_neg fun h => h.2 hnil]
    · rw [hnil] at hstart ⊢
      exact hstart
    · rw [hnil]
      rfl
  · exact wrapLoop_follows hm hnil (List.suffix_refl _) hstart rfl

end Loops

/-! ## What `wrap_text` prints -/

/-- The call comes back, and of the characters that are no white space it has printed those of the
text, each once and in their order. -/
def PrintsOnce (b : CrashBuffer) (margin : Int) (cols : BitVec 8) : Prop :=
  ∃ out, (∃ n, ∀ fuel ≥ n, wrapText b margin cols fuel = .ok out) ∧ solids out = solids b.text

/-- `wrap_text` comes back. It has printed the text, and where the text does not end in a word, its
last word, a part of the text, once more. -/
theorem wrapText_follows {b : CrashBuffer} {margin : Int} {cols : BitVec 8} (hpos : 0 ≤ margin)
    (hm : 2 * margin ≤ cols.toNat) :
    ∃ out done, (∀ fuel > b.text.length, wrapText b margin cols fuel = .ok out) ∧ done <:+: b.text ∧
      ((layout margin.toNat cols.toNat b.text).solid = true ↔ solids done ≠ []) ∧
      solids out = solids b.text ++
        if (layout margin.toNat cols.toNat b.text).inWord then [] else solids done := by
  have hm' : 2 * margin.toNat ≤ cols.toNat := by omega
  obtain ⟨t, ht, done, rest, hf, hshown⟩ := wrapLoop_layout b hm'
  refine ⟨t.out ++ done, done, fun fuel hfuel => ?_, ?_, hf.solid, ?_⟩
  · rw [wrapText, if_neg (by omega), ht fuel hfuel, ok_bind,
      t.printWord_eq b hf.word hf.taken hf.inside, ok_bind]
  · exact (hf.word ▸ List.prefix_append done rest).isInfix.trans hf.inside.isInfix
  · rw [solids_append, ← hshown]
    cases (layout margin.toNat cols.toNat b.text).inWord <;> simp

/-- In terms of the lines: the text ends in a word, or its last word is white space. -/
theorem printsOnce_iff_layout {b : CrashBuffer} {margin : Int} {cols : BitVec 8} (hpos : 0 ≤ margin)
    (hm : 2 * margin ≤ cols.toNat) :
    PrintsOnce b margin cols ↔
      (layout margin.toNat cols.toNat b.text).inWord = true ∨
        (layout margin.toNat cols.toNat b.text).solid = false := by
  obtain ⟨out, done, hout, -, hsolid, hshown⟩ := wrapText_follows hpos hm
  have honce : PrintsOnce b margin cols ↔ solids out = solids b.text := by
    constructor
    · rintro ⟨out', ⟨n, hn⟩, hsame⟩
      have heq := (hout (max n (b.text.length + 1)) (by omega)).symm.trans (hn _ (by omega))
      rw [Except.ok.inj heq]
      exact hsame
    · intro hsame
      exact ⟨out, ⟨b.text.length + 1, fun fuel hfuel => hout fuel (by omega)⟩, hsame⟩
  rw [honce, hshown, ← Bool.not_eq_true, hsolid, not_not]
  cases (layout margin.toNat cols.toNat b.text).inWord <;> simp

/-! ## White space at the end of a text -/

/-- The white space at the end does no harm: there is none, nor anything but white space; or the
last escape sequence swallows all of it; or it does not fit on the line. There the line is as long as the
text before has left it, or a line feed has begun a new one. -/
def TailHarmless (margin cols : Nat) (text : CString) : Prop :=
  let body := text.rdropWhile isspace
  let tail := text.rtakeWhile isspace
  let line := layout margin cols body
  let gap := if line.esc ≠ .none ∧ tail.head? ≠ some 0x0A then tail.tail else tail
  let length := if gap.head? = some 0x0A then 2 * margin else (line.wrap margin cols).length
  body = [] ∨ gap = [] ∨ 0 < length ∧ cols + 1 < length + gap.length

namespace Line
variable {margin cols : Nat} {l : Line} {c : Byte}

theorem wrap_length (l : Line) : (l.wrap margin cols).length =
    if l.length > cols then 2 * margin + l.word else l.length := by
  rw [wrap]
  split <;> rfl

theorem wrap_wrap (l : Line) : ((l.wrap margin cols).wrap margin cols).length =
    (l.wrap margin cols).length := by
  rw [wrap_length, wrap_word, wrap_length]
  split <;> simp

theorem settle_solid_space (hc : isspace c = true) :
    (l.settle margin cols c).solid = l.solid := by
  rw [settle]
  split
  · exact wrap_solid l
  · rw [take_solid, wrap_solid, hc]
    exact Bool.or_false _

/-- White space alone makes no word. -/
theorem step_solid_space (hc : isspace c = true) (hs : l.solid = false) :
    (l.step margin cols c).solid = false := by
  have hword : ∀ m : Line, m.solid = false → (m.wordChar margin cols c).solid = false := by
    intro m hm
    rw [wordChar]
    split
    · rw [settle_solid_space hc]
      rfl
    · rw [settle_solid_space hc, hm]
  rw [step, if_pos hc]
  split
  · exact hword l hs
  · split
    · exact hword _ rfl
    · exact hs

theorem foldl_solid_space {cs : CString} (hcs : ∀ c ∈ cs, isspace c = true) (hs : l.solid = false) :
    (cs.foldl (step margin cols) l).solid = false := by
  induction cs generalizing l with
  | nil => exact hs
  | cons c cs ih =>
    rw [List.foldl_cons]
    exact ih (fun d hd => hcs d (List.mem_cons_of_mem _ hd))
      (step_solid_space (hcs c (List.mem_cons_self ..)) hs)

/-- Any other character is in a word. -/
theorem step_solid (hc : isspace c = false) :
    (l.step margin cols c).inWord = true ∧ (l.step margin cols c).solid = true := by
  have hbreaks : ∀ m : Line, m.breaks c = false := by
    intro m
    by_contra hb
    rw [isspace_of_breaks ((Bool.not_eq_false _).mp hb)] at hc
    cases hc
  have hword : ∀ m : Line, m.inWord = true →
      (m.step margin cols c).inWord = true ∧ (m.step margin cols c).solid = true := by
    intro m hm
    rw [step_take margin cols hm (hbreaks m), take_inWord, take_solid, wrap_inWord, hc, hm]
    exact ⟨rfl, Bool.or_true _⟩
  by_cases hin : l.inWord = true
  · exact hword l hin
  · rw [step_newWord (eq_false_of_ne_true hin) hc]
    exact hword l.newWord rfl

theorem space_plain (hc : isspace c = true) :
    c ≠ 0x1B ∧ c ≠ 0x5B ∧ (isdigit c || c == 0x3B) = false := by
  have hcases : c = 0x09 ∨ c = 0x0C ∨ c = 0x0B ∨ c = 0x0A ∨ c = 0x0D ∨ c = 0x20 := by
    simpa [isspace, or_assoc] using hc
  rcases hcases with rfl | rfl | rfl | rfl | rfl | rfl <;> decide

/-- White space ends an escape sequence and is part of it. -/
theorem take_space (hc : isspace c = true) (he : l.esc ≠ .none) :
    l.take c = { l with esc := .none } := by
  obtain ⟨hesc, hcsi, hparam⟩ := space_plain hc
  rw [take, if_neg hesc, hc]
  cases hl : l.esc with
  | none => exact absurd hl he
  | esc => simp only [hcsi, if_false, Bool.not_true, Bool.or_false]
  | csi => simp only [hparam, Bool.false_eq_true, if_false, Bool.not_true, Bool.or_false]

/-- White space behind a word is gone over to its end unless it does not fit on the line. -/
theorem gap_end {g : Line} (hg : g.inWord = false) (hs : g.solid = true) {gap : CString}
    (hspaces : ∀ c ∈ gap, isspace c = true) (hne : gap ≠ []) :
    ((gap.foldl (step margin cols) g).inWord = true ∨
        (gap.foldl (step margin cols) g).solid = false) ↔
      0 < g.length ∧ cols + 1 < g.length + gap.length := by
  induction gap generalizing g with
  | nil => exact absurd rfl hne
  | cons c gap ih =>
    have hc := hspaces c (List.mem_cons_self ..)
    have hrest : ∀ d ∈ gap, isspace d = true := fun d hd => hspaces d (List.mem_cons_of_mem _ hd)
    rw [List.foldl_cons, List.length_cons]
    by_cases hlong : g.length > cols
    · have hnot : ((g.carry margin).newWord.step margin cols c).solid = false :=
        step_solid_space hc rfl
      rw [step_carry hg hc hlong, foldl_solid_space hrest hnot]
      simp only [or_true, true_iff]
      omega
    · rw [step_eat margin hg hc hlong]
      have heat : g.eat.length = if g.length > 0 then g.length + 1 else 0 := rfl
      cases gap with
      | nil =>
        have hin : g.eat.inWord = false := hg
        have hsolid : g.eat.solid = true := hs
        rw [List.foldl_nil, hin, hsolid, List.length_nil]
        simp only [Bool.false_eq_true, Bool.true_eq_false, or_self, false_iff]
        omega
      | cons d gap =>
        have hg' : g.eat.inWord = false := hg
        have hs' : g.eat.solid = true := hs
        rw [ih hg' hs' hrest (List.cons_ne_nil _ _), heat, List.length_cons]
        split <;> omega

/-- Behind a word the white space begins where the word is broken off. -/
theorem break_end {e : Line} (hm : 2 * margin ≤ cols) (hin : e.inWord = true) (hs : e.solid = true)
    {gap : CString} (hspaces : ∀ c ∈ gap, isspace c = true) (hne : gap ≠ [])
    (hb : e.esc = .none ∨ gap.head? = some 0x0A) :
    ((gap.foldl (step margin cols) e).inWord = true ∨
        (gap.foldl (step margin cols) e).solid = false) ↔
      let length := if gap.head? = some 0x0A then 2 * margin else (e.wrap margin cols).length
      0 < length ∧ cols + 1 < length + gap.length := by
  cases gap with
  | nil => exact absurd rfl hne
  | cons c gap =>
    have hbreaks : e.breaks c = true := by
      have hc := hspaces c (List.mem_cons_self ..)
      rw [breaks, hc, Bool.and_true]
      rcases hb with hb | hb
      · simp [hb]
      · rw [List.head?_cons, Option.some_inj] at hb
        simp [hb]
    have hfold : (c :: gap).foldl (step margin cols) e =
        (c :: gap).foldl (step margin cols) ((e.wrap margin cols).breakAt margin c) := by
      rw [List.foldl_cons, step_break hm hin hbreaks, List.foldl_cons]
    have hsolid : ((e.wrap margin cols).breakAt margin c).solid = true := (wrap_solid e).trans hs
    rw [hfold, gap_end rfl hsolid hspaces hne, breakAt, List.head?_cons]
    simp only [Option.some_inj]

theorem step_swallow (hin : l.inWord = true) (he : l.esc ≠ .none) (hc : isspace c = true)
    (hlf : c ≠ 0x0A) : l.step margin cols c = { l.wrap margin cols with esc := .none } := by
  have hbreaks : l.breaks c = false := by
    have hlf' : (c == 0x0A) = false := beq_eq_false_iff_ne.mpr hlf
    have he' : (l.esc == .none) = false := beq_eq_false_iff_ne.mpr he
    rw [breaks, hlf', he', Bool.false_or, Bool.false_and]
  rw [step_take margin cols hin hbreaks, take_space hc (by rwa [wrap_esc])]

/-- Behind an open escape sequence the white space begins one character later. -/
theorem swallow_end {e : Line} (hm : 2 * margin ≤ cols) (hin : e.inWord = true)
    (hs : e.solid = true) (he : e.esc ≠ .none) (hc : isspace c = true) (hlf : c ≠ 0x0A)
    {gap : CString} (hspaces : ∀ d ∈ gap, isspace d = true) :
    (((c :: gap).foldl (step margin cols) e).inWord = true ∨
        ((c :: gap).foldl (step margin cols) e).solid = false) ↔
      gap = [] ∨
        let length := if gap.head? = some 0x0A then 2 * margin else (e.wrap margin cols).length
        0 < length ∧ cols + 1 < length + gap.length := by
  have hstep : e.step margin cols c = { e.wrap margin cols with esc := .none } :=
    step_swallow hin he hc hlf
  have hin' : (e.step margin cols c).inWord = true := by
    rw [hstep]
    exact (wrap_inWord e).trans hin
  have hs' : (e.step margin cols c).solid = true := by
    rw [hstep]
    exact (wrap_solid e).trans hs
  have hnone : (e.step margin cols c).esc = .none := by rw [hstep]
  have hlength : ((e.step margin cols c).wrap margin cols).length =
      (e.wrap margin cols).length := by
    rw [hstep, ← wrap_wrap e, wrap_length, wrap_length (e.wrap margin cols)]
  rw [List.foldl_cons]
  by_cases hnil : gap = []
  · rw [hnil, List.foldl_nil, hin']
    simp
  · rw [break_end hm hin' hs' hspaces hnil (.inl hnone), hlength]
    simp [hnil]

end Line

/-- The state after the text is left to the white space at its end. -/
theorem layout_end_iff {margin cols : Nat} (hm : 2 * margin ≤ cols) (text : CString) :
    ((layout margin cols text).inWord = true ∨ (layout margin cols text).solid = false) ↔
      TailHarmless margin cols text := by
  have hsplit : layout margin cols text =
      (text.rtakeWhile isspace).foldl (Line.step margin cols)
        (layout margin cols (text.rdropWhile isspace)) := by
    rw [layout, layout, ← List.foldl_append, List.rdropWhile_append_rtakeWhile]
  have hspaces : ∀ c ∈ text.rtakeWhile isspace, isspace c = true :=
    fun c hc => List.mem_rtakeWhile_imp hc
  by_cases hbody : text.rdropWhile isspace = []
  · have hnot : (layout margin cols text).solid = false := by
      rw [hsplit, hbody]
      exact Line.foldl_solid_space hspaces rfl
    exact iff_of_true (.inr hnot) (.inl hbody)
  have hlast : (layout margin cols (text.rdropWhile isspace)).inWord = true ∧
      (layout margin cols (text.rdropWhile isspace)).solid = true := by
    have hend := List.rdropWhile_last_not isspace text hbody
    rw [Bool.not_eq_true] at hend
    rw [layout, ← List.dropLast_append_getLast hbody, List.foldl_append]
    exact Line.step_solid hend
  rw [TailHarmless, hsplit]
  simp only [hbody, false_or]
  generalize layout margin cols (text.rdropWhile isspace) = e at hlast
  generalize text.rtakeWhile isspace = tail at hspaces
  cases tail with
  | nil =>
    simp [hlast.1]
  | cons t tail =>
    rw [List.head?_cons, List.tail_cons]
    have ht := hspaces t (List.mem_cons_self ..)
    have hrest : ∀ c ∈ tail, isspace c = true := fun c hc => hspaces c (List.mem_cons_of_mem _ hc)
    by_cases hswallowed : e.esc ≠ .none ∧ some t ≠ some (0x0A : Byte)
    · have hlf : t ≠ 0x0A := fun heq => hswallowed.2 (congrArg some heq)
      rw [if_pos hswallowed, Line.swallow_end hm hlast.1 hlast.2 hswallowed.1 ht hlf hrest]
    · rw [if_neg hswallowed]
      have hb : e.esc = .none ∨ (t :: tail).head? = some 0x0A := by
        by_contra hnot
        push Not at hnot
        exact hswallowed hnot
      rw [Line.break_end hm hlast.1 hlast.2 hspaces (List.cons_ne_nil _ _) hb]
      simp

/-! ## The exact condition -/

theorem solids_eq_nil_iff_body (text : CString) :
    solids text = [] ↔ text.rdropWhile isspace = [] := by
  rw [solids_eq_nil_iff, List.rdropWhile_eq_nil_iff]

/-- With a margin of at most half the columns `wrap_text` prints its text once exactly where the
white space at the end does no harm; with a negative margin it prints nothing. -/
theorem wrapText_once_iff (b : CrashBuffer) (margin : Int) (cols : BitVec 8)
    (hm : 2 * margin ≤ cols.toNat) :
    PrintsOnce b margin cols ↔
      if margin < 0 then b.text.rdropWhile isspace = []
      else TailHarmless margin.toNat cols.toNat b.text := by
  by_cases hneg : margin < 0
  · rw [if_pos hneg, ← solids_eq_nil_iff_body]
    have hout : ∀ fuel, wrapText b margin cols fuel = .ok [] := fun fuel => if_pos hneg
    constructor
    · rintro ⟨out, ⟨n, hn⟩, hsame⟩
      have heq := (hout n).symm.trans (hn n (Nat.le_refl n))
      rw [← hsame, ← Except.ok.inj heq]
      rfl
    · intro hnil
      exact ⟨[], ⟨0, fun fuel _ => hout fuel⟩, hnil.symm⟩
  · have hpos : 0 ≤ margin := by omega
    have hm' : 2 * margin.toNat ≤ cols.toNat := by omega
    rw [if_neg hneg, printsOnce_iff_layout hpos hm, layout_end_iff hm']

/-- A word and an escape sequence behind it, and no white space at the end. -/
def wordBuffer : CrashBuffer where
  base := 0x1000
  text := [0x61, 0x20, 0x62, 0x1B, 0x5B, 0x30, 0x6D]
  nonNull := by decide
  inside := by decide
  fits := by decide
  notNul := by decide

/-- With the margin of the crash screen and 80 columns. -/
theorem wrapText_once_word : PrintsOnce wordBuffer 5 80 := by
  have hm : 2 * (5 : Int) ≤ (80 : BitVec 8).toNat := by decide
  rw [wrapText_once_iff wordBuffer 5 80 hm, if_neg (by decide)]
  exact .inr (.inl rfl)

/-- A word and a space. -/
def spaceBuffer : CrashBuffer where
  base := 0x1000
  text := [0x61, 0x20]
  nonNull := by decide
  inside := by decide
  fits := by decide
  notNul := by decide

/-- There is room for the space on the line, and the word is printed a second time. -/
theorem wrapText_repeats :
    (∃ out, (∀ fuel > 2, wrapText spaceBuffer 0 80 fuel = .ok out) ∧ solids out = [0x61, 0x61]) ∧
      solids spaceBuffer.text = [0x61] ∧ ¬ PrintsOnce spaceBuffer 0 80 := by
  have htext : solids spaceBuffer.text = [0x61] := by decide
  have hcols : 2 * (0 : Int) ≤ (80 : BitVec 8).toNat := by decide
  obtain ⟨out, done, hout, hpart, hsolid, hshown⟩ := @wrapText_follows spaceBuffer 0 80 (by decide) hcols
  have hdone : solids done = [0x61] := by
    have hsome : solids done ≠ [] := hsolid.mp (by decide)
    have hsub : (solids done).Sublist [0x61] := htext ▸ hpart.sublist.filter _
    exact (List.sublist_singleton.mp hsub).resolve_left hsome
  rw [htext, hdone, if_neg (by decide)] at hshown
  refine ⟨⟨out, hout, hshown⟩, htext, fun honce => ?_⟩
  rw [printsOnce_iff_layout (by decide) (by decide)] at honce
  revert honce
  decide

end Ohwes
