import Mathlib.Logic.Function.Iterate
import Ohwes.Char.OutputProcessing

/-! # Output with and without processing

With `OPOST` clear `n_tty_write` offers the driver the whole buffer, and what is left of it again until
nothing is. With `OPOST` set it writes character by character and stops where there is no room.
`raw_processed_iff` says when the two come to the same if there is nothing to process. -/

namespace Ohwes
set_option autoImplicit false

/-! ## `n_tty_write`, pass by pass -/

section Passes
variable {D : Type} (drv : TtyDriver D)

/-- The loop of `n_tty_write`, in which a write that takes nothing is repeated. -/
def writePasses : Nat → List Byte → Nat → Attached D → Call (Int × Attached D)
  | _, [], done, s => .ok (done, s)
  | 0, _ :: _, _, _ => .error .diverges
  | passes + 1, c :: buf, done, s =>
    match writePass drv c buf s with
    | .took n s => writePasses passes ((c :: buf).drop n) (done + n) s
    | .noRoom s => .ok (done, s)
    | .failed ret s => .ok (ret, s)
    | .beyond => .error .fault

/-- `n_tty_write` returns `ret` after some number of passes. -/
def NTtyWriteReturns (buf : List Byte) (s : Attached D) (ret : Int) (t : Attached D) : Prop :=
  ∃ passes u, writePasses drv passes buf 0 s = .ok (ret, u) ∧ t = u.callDev drv.flush

/-- What `n_tty_write` returns at this end of its loop. -/
def WriteEnd.ret : WriteEnd → Option Int
  | .stopped done => some done
  | .failed ret => some ret
  | .spinning => none

variable {drv}

/-- A loop that never comes to a write that takes nothing is the same pass by pass. -/
theorem writeLoop_passes {passes : Nat} {buf : List Byte} {done : Nat} {s : Attached D}
    {stop : WriteEnd} {u : Attached D} {ret : Int}
    (h : writeLoop drv passes buf done s = .ok (stop, u)) (hret : stop.ret = some ret) :
    writePasses drv passes buf done s = .ok (ret, u) := by
  induction passes generalizing buf done s with
  | zero =>
    cases buf with
    | nil =>
      obtain ⟨rfl, rfl⟩ := Prod.mk.inj (Except.ok.inj h)
      obtain rfl := Option.some.inj hret
      rfl
    | cons c buf => cases h
  | succ passes ih =>
    cases buf with
    | nil =>
      obtain ⟨rfl, rfl⟩ := Prod.mk.inj (Except.ok.inj h)
      obtain rfl := Option.some.inj hret
      rfl
    | cons c buf =>
      rw [writeLoop] at h
      rw [writePasses]
      cases hp : writePass drv c buf s with
      | took n s' =>
        rw [hp] at h
        cases n with
        | zero =>
          obtain ⟨rfl, rfl⟩ := Prod.mk.inj (Except.ok.inj h)
          cases hret
        | succ n => exact ih h
      | noRoom s' =>
        rw [hp] at h
        obtain ⟨rfl, rfl⟩ := Prod.mk.inj (Except.ok.inj h)
        obtain rfl := Option.some.inj hret
        rfl
      | failed r s' =>
        rw [hp] at h
        obtain ⟨rfl, rfl⟩ := Prod.mk.inj (Except.ok.inj h)
        obtain rfl := Option.some.inj hret
        rfl
      | beyond =>
        rw [hp] at h
        cases h

/-- What `nTtyWrite` returns is returned. -/
theorem nTtyWrite_returns {buf : List Byte} {s t : Attached D} {ret : Int}
    (h : nTtyWrite drv false buf s = .ok (some ret, t)) : NTtyWriteReturns drv buf s ret t := by
  unfold nTtyWrite at h
  rw [if_neg Bool.false_ne_true] at h
  obtain ⟨⟨stop, u⟩, hloop, h⟩ := bind_ok.mp h
  cases stop with
  | stopped n =>
    obtain ⟨hret, rfl⟩ := Prod.mk.inj (Except.ok.inj h)
    exact ⟨buf.length, u, writeLoop_passes hloop hret, rfl⟩
  | failed r =>
    obtain ⟨hret, rfl⟩ := Prod.mk.inj (Except.ok.inj h)
    exact ⟨buf.length, u, writeLoop_passes hloop hret, rfl⟩
  | spinning => cases (Prod.mk.inj (Except.ok.inj h)).1

end Passes

/-! ## Drivers that count -/

def Tty.withOflag (tty : Tty) (oflag : BitVec 32) : Tty :=
  { tty with termios := { tty.termios with oflag } }

/-- A driver whose write returns how many characters it has taken from the front, as many as there is
room for at least, and which leaves output processing to the line discipline. Between two calls its
room may become any other. -/
structure CountingDriver {D : Type} (drv : TtyDriver D) (tty : Tty) where
  received : D → List Byte
  write : ∀ buf d, ∃ n : Nat, (drv.write tty buf d).1 = n ∧
    min buf.length (drv.writeRoom tty d) ≤ n ∧ n ≤ buf.length ∧
    received (drv.write tty buf d).2 = received d ++ buf.take n
  flush : ∀ f, drv.flush = some f → ∀ w d, received (f (tty.withOflag w) d) = received d
  write_oflag : ∀ w, drv.write (tty.withOflag w) = drv.write tty
  room_oflag : ∀ w, drv.writeRoom (tty.withOflag w) = drv.writeRoom tty

section Driver
variable {D : Type} (drv : TtyDriver D) (tty : Tty)

/-- The driver after it has been given characters one by one. -/
def oneByOne (chars : List Byte) (d : D) : D := chars.foldl (fun d c => (drv.write tty [c] d).2) d

/-- One more offer of what is left of a buffer. -/
def offer (x : List Byte × D) : List Byte × D :=
  (x.1.drop (drv.write tty x.1 x.2).1.toNat, (drv.write tty x.1 x.2).2)

/-- Before each character of the buffer there is room. -/
def RoomForEach (buf : List Byte) (d : D) : Prop :=
  ∀ i < buf.length, 1 ≤ drv.writeRoom tty (oneByOne drv tty (buf.take i) d)

/-- What is left of a buffer is offered again and again: as long as something is, the driver takes some
of it then or later. -/
def NeverStaysFull (buf : List Byte) (d : D) : Prop :=
  ∀ i, ((offer drv tty)^[i] (buf, d)).1 ≠ [] → ∃ j, i ≤ j ∧
    0 < (drv.write tty ((offer drv tty)^[j] (buf, d)).1 ((offer drv tty)^[j] (buf, d)).2).1

end Driver

section Agree
variable {D : Type} {drv : TtyDriver D} {tty : Tty} (k : CountingDriver drv tty)

/-- Both calls return the same count, and the driver has received the same. -/
def WritesAlike (raw processed : BitVec 32) (buf : List Byte) (d : D) : Prop :=
  ∃ ret t u, NTtyWriteReturns drv buf ⟨tty.withOflag raw, d⟩ ret t ∧
    NTtyWriteReturns drv buf ⟨tty.withOflag processed, d⟩ ret u ∧
    k.received t.dev = k.received u.dev

include k

theorem offer_length (x : List Byte × D) :
    ∃ n : Nat, (drv.write tty x.1 x.2).1 = n ∧ n ≤ x.1.length ∧
      (offer drv tty x).1.length + n = x.1.length := by
  obtain ⟨n, hn, -, hle, -⟩ := k.write x.1 x.2
  refine ⟨n, hn, hle, ?_⟩
  show (x.1.drop (drv.write tty x.1 x.2).1.toNat).length + n = _
  rw [hn, Int.toNat_natCast, List.length_drop]
  omega

theorem offers_length_le (x : List Byte × D) (i m : Nat) :
    ((offer drv tty)^[i + m] x).1.length ≤ ((offer drv tty)^[i] x).1.length := by
  induction m with
  | zero => exact Nat.le_refl _
  | succ m ih =>
    obtain ⟨n, -, -, hlen⟩ := offer_length k ((offer drv tty)^[i + m] x)
    rw [← Nat.add_assoc, Function.iterate_succ_apply']
    omega

/-- While the driver takes nothing, nothing changes. -/
theorem offers_full {x : List Byte × D} {i : Nat}
    (hfull : ∀ j, i ≤ j →
      ¬ 0 < (drv.write tty ((offer drv tty)^[j] x).1 ((offer drv tty)^[j] x).2).1) (m : Nat) :
    ((offer drv tty)^[i + m] x).1.length = ((offer drv tty)^[i] x).1.length := by
  induction m with
  | zero => rfl
  | succ m ih =>
    obtain ⟨n, hn, -, hlen⟩ := offer_length k ((offer drv tty)^[i + m] x)
    have hzero := hfull (i + m) (Nat.le_add_right i m)
    rw [← Nat.add_assoc, Function.iterate_succ_apply']
    omega

/-- The driver takes everything at some time exactly if it never stays full. -/
theorem takes_all_iff (buf : List Byte) (d : D) :
    (∃ i, ((offer drv tty)^[i] (buf, d)).1 = []) ↔ NeverStaysFull drv tty buf d := by
  unfold NeverStaysFull
  generalize (buf, d) = x
  constructor
  · rintro ⟨last, hlast⟩ i hi
    by_contra hnone
    have hfull : ∀ j, i ≤ j →
        ¬ 0 < (drv.write tty ((offer drv tty)^[j] x).1 ((offer drv tty)^[j] x).2).1 :=
      fun j hj htakes => hnone ⟨j, hj, htakes⟩
    have hpos : 0 < ((offer drv tty)^[i] x).1.length := List.length_pos_iff.mpr hi
    have hzero : ((offer drv tty)^[last] x).1.length = 0 := by rw [hlast]; rfl
    rcases Nat.le_total i last with hle | hle
    · have hsame := offers_full k hfull (last - i)
      rw [Nat.add_sub_cancel' hle] at hsame
      omega
    · have hless := offers_length_le k x last (i - last)
      rw [Nat.add_sub_cancel' hle] at hless
      omega
  · intro h
    induction hlen : x.1.length using Nat.strong_induction_on generalizing x with
    | h len ih =>
      by_cases hnil : x.1 = []
      · exact ⟨0, hnil⟩
      · obtain ⟨j, -, htakes⟩ := h 0 hnil
        have hle := offers_length_le k x 0 j
        obtain ⟨n, hn, -, hnext⟩ := offer_length k ((offer drv tty)^[j] x)
        rw [Nat.zero_add] at hle
        have hlt : ((offer drv tty)^[j + 1] x).1.length < len := by
          have hstart : ((offer drv tty)^[0] x).1.length = len := hlen
          rw [Function.iterate_succ_apply']
          omega
        have hlater : ∀ i, ((offer drv tty)^[i] ((offer drv tty)^[j + 1] x)).1 ≠ [] → ∃ m, i ≤ m ∧
            0 < (drv.write tty ((offer drv tty)^[m] ((offer drv tty)^[j + 1] x)).1
              ((offer drv tty)^[m] ((offer drv tty)^[j + 1] x)).2).1 := by
          intro i hi
          rw [← Function.iterate_add_apply] at hi
          obtain ⟨m, hm, hmore⟩ := h (i + (j + 1)) hi
          have hsplit : m = m - (j + 1) + (j + 1) := by omega
          rw [hsplit, Function.iterate_add_apply] at hmore
          exact ⟨m - (j + 1), by omega, hmore⟩
        obtain ⟨i, hi⟩ := ih _ hlt _ hlater rfl
        rw [← Function.iterate_add_apply] at hi
        exact ⟨i + (j + 1), hi⟩

/-! ## The raw path -/

/-- Each pass of the raw path is an offer, and the path ends when everything is taken. -/
theorem raw_passes {raw : BitVec 32} (hraw : raw &&& OPOST = 0) (passes : Nat) (buf : List Byte)
    (done : Nat) (d : D) :
    (∀ ret u, writePasses drv passes buf done ⟨tty.withOflag raw, d⟩ = .ok (ret, u) →
        ret = (done + buf.length : Nat) ∧ u.tty = tty.withOflag raw ∧
          k.received u.dev = k.received d ++ buf ∧ ∃ i, ((offer drv tty)^[i] (buf, d)).1 = []) ∧
      (((offer drv tty)^[passes] (buf, d)).1 = [] →
        ∃ u, writePasses drv passes buf done ⟨tty.withOflag raw, d⟩ =
          .ok (((done + buf.length : Nat) : Int), u)) := by
  induction passes generalizing buf done d with
  | zero =>
    cases buf with
    | nil =>
      refine ⟨fun ret u h => ?_, fun _ => ⟨_, rfl⟩⟩
      obtain ⟨rfl, rfl⟩ := Prod.mk.inj (Except.ok.inj h)
      exact ⟨rfl, rfl, (List.append_nil _).symm, 0, rfl⟩
    | cons c buf => exact ⟨fun ret u h => (nomatch h), fun h => (nomatch h)⟩
  | succ passes ih =>
    cases buf with
    | nil =>
      refine ⟨fun ret u h => ?_, fun _ => ⟨_, rfl⟩⟩
      obtain ⟨rfl, rfl⟩ := Prod.mk.inj (Except.ok.inj h)
      exact ⟨rfl, rfl, (List.append_nil _).symm, 0, rfl⟩
    | cons c buf =>
      obtain ⟨n, hn, -, hle, hrec⟩ := k.write (c :: buf) d
      have hflag : (tty.withOflag raw).termios.oFlag OPOST = false := by
        show (raw &&& OPOST != 0) = false
        rw [hraw]
        rfl
      have hpass : writePasses drv (passes + 1) (c :: buf) done ⟨tty.withOflag raw, d⟩ =
          writePasses drv passes ((c :: buf).drop n) (done + n)
            ⟨tty.withOflag raw, (drv.write tty (c :: buf) d).2⟩ := by
        have hfits : ¬ n > buf.length + 1 := Nat.not_lt.mpr hle
        rw [writePasses, writePass]
        dsimp only
        rw [hflag, if_neg Bool.false_ne_true, k.write_oflag, hn, if_neg (by omega), Int.toNat_natCast,
          if_neg hfits]
      have hoffer : offer drv tty (c :: buf, d) =
          ((c :: buf).drop n, (drv.write tty (c :: buf) d).2) := by
        unfold offer
        rw [hn, Int.toNat_natCast]
      have hcount : done + n + ((c :: buf).drop n).length = done + (c :: buf).length := by
        rw [List.length_drop]
        omega
      obtain ⟨hend, hreach⟩ := ih ((c :: buf).drop n) (done + n) (drv.write tty (c :: buf) d).2
      rw [hcount] at hend hreach
      rw [hpass]
      refine ⟨fun ret u h => ?_, fun h => ?_⟩
      · obtain ⟨hret, htty, hreceived, i, hi⟩ := hend ret u h
        refine ⟨hret, htty, ?_, i + 1, ?_⟩
        · rw [hreceived, hrec, List.append_assoc, List.take_append_drop]
        · rw [Function.iterate_succ_apply, hoffer]
          exact hi
      · rw [Function.iterate_succ_apply, hoffer] at h
        exact hreach h

/-! ## The processed path -/

/-- A character that needs no processing. -/
theorem opost_plain {processed : BitVec 32} (honlcr : processed &&& ONLCR = 0)
    (hocrnl : processed &&& OCRNL = 0) (d : D) (c : Byte) :
    opost drv ⟨tty.withOflag processed, d⟩ c =
      if drv.writeRoom tty d < 1 then (-1, ⟨tty.withOflag processed, d⟩)
      else (0, ⟨tty.withOflag processed, (drv.write tty [c] d).2⟩) := by
  have hcr : ¬ (c = ASCII_CR ∧ (tty.withOflag processed).termios.oFlag OCRNL = true) := by
    rintro ⟨-, h⟩
    have hflag : (processed &&& OCRNL != 0) = true := h
    rw [hocrnl] at hflag
    cases hflag
  have hlf : ¬ (c = ASCII_LF ∧ (tty.withOflag processed).termios.oFlag ONLCR = true) := by
    rintro ⟨-, h⟩
    have hflag : (processed &&& ONLCR != 0) = true := h
    rw [honlcr] at hflag
    cases hflag
  unfold opost writeChar
  dsimp only
  rw [k.room_oflag, k.write_oflag, if_neg hcr, if_neg hlf, ite_self]

omit k in
theorem roomForEach_cons (c : Byte) (buf : List Byte) (d : D) :
    RoomForEach drv tty (c :: buf) d ↔
      1 ≤ drv.writeRoom tty d ∧ RoomForEach drv tty buf (drv.write tty [c] d).2 := by
  constructor
  · intro h
    exact ⟨h 0 (Nat.succ_pos _), fun i hi => h (i + 1) (Nat.succ_lt_succ hi)⟩
  · rintro ⟨hfirst, hrest⟩ i hi
    cases i with
    | zero => exact hfirst
    | succ i => exact hrest i (Nat.lt_of_succ_lt_succ hi)

/-- The processed path takes characters until there is no room. -/
theorem processed_passes {processed : BitVec 32} (hpost : processed &&& OPOST ≠ 0)
    (honlcr : processed &&& ONLCR = 0) (hocrnl : processed &&& OCRNL = 0) (buf : List Byte)
    (passes done : Nat) (d : D) :
    (∀ ret u, writePasses drv passes buf done ⟨tty.withOflag processed, d⟩ = .ok (ret, u) →
        ∃ n, n ≤ buf.length ∧ ret = (done + n : Nat) ∧ u.tty = tty.withOflag processed ∧
          k.received u.dev = k.received d ++ buf.take n ∧
          (n = buf.length ↔ RoomForEach drv tty buf d)) ∧
      (buf.length ≤ passes →
        ∃ x, writePasses drv passes buf done ⟨tty.withOflag processed, d⟩ = .ok x) := by
  induction buf generalizing passes done d with
  | nil =>
    have hdone : writePasses drv passes [] done ⟨tty.withOflag processed, d⟩ =
        .ok ((done : Int), ⟨tty.withOflag processed, d⟩) := by
      cases passes <;> rfl
    refine ⟨fun ret u h => ?_, fun _ => ⟨_, hdone⟩⟩
    rw [hdone] at h
    obtain ⟨rfl, rfl⟩ := Prod.mk.inj (Except.ok.inj h)
    exact ⟨0, Nat.le_refl 0, rfl, rfl, (List.append_nil _).symm,
      iff_of_true rfl fun i hi => absurd hi (Nat.not_lt_zero i)⟩
  | cons c buf ih =>
    cases passes with
    | zero => exact ⟨fun ret u h => (nomatch h), fun h => absurd h (Nat.not_succ_le_zero _)⟩
    | succ passes =>
      have hflag : (tty.withOflag processed).termios.oFlag OPOST = true := bne_iff_ne.mpr hpost
      rw [writePasses, writePass]
      dsimp only
      rw [hflag, if_pos rfl, opost_plain k honlcr hocrnl]
      by_cases hroom : drv.writeRoom tty d < 1
      · have hstop : (-1 : Int) < 0 := by decide
        rw [if_pos hroom, if_pos hstop]
        refine ⟨fun ret u h => ?_, fun _ => ⟨_, rfl⟩⟩
        obtain ⟨rfl, rfl⟩ := Prod.mk.inj (Except.ok.inj h)
        refine ⟨0, Nat.zero_le _, rfl, rfl, (List.append_nil _).symm, iff_of_false ?_ ?_⟩
        · exact (Nat.succ_ne_zero _).symm
        · rw [roomForEach_cons]
          exact fun h => Nat.not_lt.mpr h.1 hroom
      · rw [if_neg hroom, if_neg (lt_irrefl (0 : Int))]
        obtain ⟨hend, hreach⟩ := ih passes (done + 1) (drv.write tty [c] d).2
        obtain ⟨m, -, hm, hle, hrec⟩ := k.write [c] d
        have hone : m = 1 := by
          rw [List.length_singleton] at hm hle
          omega
        refine ⟨fun ret u h => ?_, fun h => hreach (Nat.le_of_succ_le_succ h)⟩
        obtain ⟨n, hn, hret, htty, hreceived, hall⟩ := hend ret u h
        refine ⟨n + 1, Nat.succ_le_succ hn, ?_, htty, ?_, ?_⟩
        · rw [hret]
          congr 1
          omega
        · rw [hreceived, hrec, hone, List.append_assoc]
          rfl
        · rw [List.length_cons, Nat.succ_inj, roomForEach_cons, hall]
          exact ⟨fun h => ⟨Nat.not_lt.mp hroom, h⟩, fun h => h.2⟩

/-- Flushing the driver afterwards makes no difference. -/
theorem flush_received {w : BitVec 32} {u : Attached D} (hu : u.tty = tty.withOflag w) :
    k.received (u.callDev drv.flush).dev = k.received u.dev := by
  cases hf : drv.flush with
  | none => rfl
  | some f =>
    show k.received (f u.tty u.dev) = _
    rw [hu]
    exact k.flush f hf w u.dev

theorem WritesAlike.room_and_taken {raw processed : BitVec 32} (hraw : raw &&& OPOST = 0)
    (hpost : processed &&& OPOST ≠ 0) (honlcr : processed &&& ONLCR = 0)
    (hocrnl : processed &&& OCRNL = 0) {buf : List Byte} {d : D}
    (h : WritesAlike k raw processed buf d) :
    RoomForEach drv tty buf d ∧ ∃ i, ((offer drv tty)^[i] (buf, d)).1 = [] := by
  obtain ⟨ret, t, u, ⟨passes, t', ht, -⟩, ⟨passes', u', hu, -⟩, -⟩ := h
  obtain ⟨hret, -, -, htakes⟩ := (raw_passes k hraw passes buf 0 d).1 ret t' ht
  obtain ⟨n, -, hret', -, -, hall⟩ :=
    (processed_passes k hpost honlcr hocrnl buf passes' 0 d).1 ret u' hu
  refine ⟨hall.mp ?_, htakes⟩
  rw [hret] at hret'
  omega

theorem writesAlike_of_taken {raw processed : BitVec 32} (hraw : raw &&& OPOST = 0)
    (hpost : processed &&& OPOST ≠ 0) (honlcr : processed &&& ONLCR = 0)
    (hocrnl : processed &&& OCRNL = 0) {buf : List Byte} {d : D} (hroom : RoomForEach drv tty buf d)
    {passes : Nat} (hpasses : ((offer drv tty)^[passes] (buf, d)).1 = []) :
    WritesAlike k raw processed buf d := by
  obtain ⟨t, ht⟩ := (raw_passes k hraw passes buf 0 d).2 hpasses
  obtain ⟨⟨ret, u⟩, hu⟩ :=
    (processed_passes k hpost honlcr hocrnl buf buf.length 0 d).2 (Nat.le_refl _)
  obtain ⟨-, htty, hreceived, -⟩ := (raw_passes k hraw passes buf 0 d).1 _ t ht
  obtain ⟨n, -, hret, htty', hreceived', hall⟩ :=
    (processed_passes k hpost honlcr hocrnl buf buf.length 0 d).1 ret u hu
  obtain rfl := hall.mpr hroom
  subst hret
  refine ⟨_, _, _, ⟨passes, t, ht, rfl⟩, ⟨buf.length, u, hu, rfl⟩, ?_⟩
  rw [flush_received k htty, flush_received k htty', hreceived, hreceived', List.take_length]

end Agree

/-! ## The serial port -/

section Serial
variable {tty : Tty} {i : Fin NR_SERIAL} {ports : Ports}

theorem serialDriver_room (hi : ttyGetCom tty = .ok i) (ports : Ports) :
    serialDriver.writeRoom tty ports = serialWriteRoom (ports i) := by
  show (onCom tty ports (fun _ => 0) fun p => (serialWriteRoom p, p)).1 = _
  unfold onCom
  rw [hi]

theorem serialDriver_write (hi : ttyGetCom tty = .ok i) (buf : List Byte) (ports : Ports) :
    serialDriver.write tty buf ports =
      ((serialWrite tty buf (ports i)).1, ports.set i (serialWrite tty buf (ports i)).2) := by
  show onCom tty ports id (serialWrite tty buf) = _
  unfold onCom
  rw [hi]

/-- The port of an open tty. -/
def countingSerial (hi : ttyGetCom tty = .ok i) : CountingDriver serialDriver tty where
  received ports := sentBytes (ports i) ++ (ports i).com.txRing.chars
  write buf ports := by
    obtain ⟨hsent, hchars⟩ := serialWrite_moves tty buf (ports i)
    refine ⟨min buf.length (serialWriteRoom (ports i)), ?_, ?_, min_le_left _ _, ?_⟩
    · rw [serialDriver_write hi]
      rfl
    · rw [serialDriver_room hi]
    · rw [serialDriver_write hi]
      dsimp only
      rw [Ports.set_self, hsent, hchars, List.append_assoc]
      rfl
  flush f hf w ports := by
    obtain rfl : comOp serialFlush = f := Option.some.inj hf
    have hdev : comOp serialFlush (tty.withOflag w) ports i = kickTx (tty.withOflag w) (ports i) := by
      have hcom : ttyGetCom (tty.withOflag w) = .ok i := hi
      show (onCom (tty.withOflag w) ports (fun _ => ())
        fun p => ((), serialFlush (tty.withOflag w) p)).2 i = _
      unfold onCom
      rw [hcom]
      exact Ports.set_self ..
    have hkick := kickTx_silent (tty.withOflag w) (ports i)
    rw [hdev, hkick.sent, hkick.ring]
  write_oflag _ := rfl
  room_oflag _ := rfl

theorem serialWriteRoom_write (tty : Tty) (buf : List Byte) (p : Port) :
    serialWriteRoom (serialWrite tty buf p).2 = serialWriteRoom p - buf.length := by
  have hchars := congrArg List.length (serialWrite_moves tty buf p).2
  have hcount : (serialWrite tty buf p).1.toNat = min buf.length (serialWriteRoom p) := rfl
  rw [List.length_append, Ring.chars_length, Ring.chars_length, List.length_take, hcount] at hchars
  have hlen : ringLength (serialWrite tty buf p).2.com.txRing = ringLength p.com.txRing := by
    rw [serialWrite_txRing]
    exact putAll_length _ _
  unfold serialWriteRoom ringCount at hchars ⊢
  rw [hlen]
  omega

theorem oneByOne_room (hi : ttyGetCom tty = .ok i) (chars : List Byte) (ports : Ports) :
    serialWriteRoom (oneByOne serialDriver tty chars ports i) =
      serialWriteRoom (ports i) - chars.length := by
  induction chars generalizing ports with
  | nil => rfl
  | cons c chars ih =>
    have hnext := ih (serialDriver.write tty [c] ports).2
    rw [serialDriver_write hi] at hnext
    dsimp only at hnext
    rw [Ports.set_self, serialWriteRoom_write] at hnext
    have hfirst : oneByOne serialDriver tty (c :: chars) ports =
        oneByOne serialDriver tty chars (ports.set i (serialWrite tty [c] (ports i)).2) := by
      show oneByOne serialDriver tty chars (serialDriver.write tty [c] ports).2 = _
      rw [serialDriver_write hi]
    rw [hfirst, hnext, List.length_singleton, List.length_cons]
    omega

/-- A port that sends nothing meanwhile has room for each character of a buffer that fits. -/
theorem serial_roomForEach_iff (hi : ttyGetCom tty = .ok i) (buf : List Byte) (ports : Ports) :
    RoomForEach serialDriver tty buf ports ↔ buf.length ≤ serialWriteRoom (ports i) := by
  have hroom : ∀ n < buf.length,
      serialDriver.writeRoom tty (oneByOne serialDriver tty (buf.take n) ports) =
        serialWriteRoom (ports i) - n := by
    intro n hn
    rw [serialDriver_room hi, oneByOne_room hi, List.length_take, Nat.min_eq_left hn.le]
  constructor
  · intro h
    by_contra hshort
    have hlast := h (serialWriteRoom (ports i)) (by omega)
    rw [hroom _ (by omega)] at hlast
    omega
  · intro h n hn
    rw [hroom n hn]
    omega

theorem serial_offer (hi : ttyGetCom tty = .ok i) (buf : List Byte) (ports : Ports) :
    offer serialDriver tty (buf, ports) =
      (buf.drop (serialWriteRoom (ports i)), ports.set i (serialWrite tty buf (ports i)).2) := by
  have hdrop : buf.drop (min buf.length (serialWriteRoom (ports i))) =
      buf.drop (serialWriteRoom (ports i)) := by
    rw [List.drop_eq_drop_iff]
    omega
  unfold offer
  dsimp only
  rw [serialDriver_write hi, ← hdrop]
  rfl

/-- What does not fit the first time is left after any number of offers. -/
theorem serial_offers (hi : ttyGetCom tty = .ok i) (buf : List Byte) (ports : Ports) (n : Nat) :
    ((offer serialDriver tty)^[n + 1] (buf, ports)).1 = buf.drop (serialWriteRoom (ports i)) ∧
      serialWriteRoom (((offer serialDriver tty)^[n + 1] (buf, ports)).2 i) =
        serialWriteRoom (ports i) - buf.length := by
  induction n with
  | zero =>
    show (offer serialDriver tty (buf, ports)).1 = _ ∧
      serialWriteRoom ((offer serialDriver tty (buf, ports)).2 i) = _
    rw [serial_offer hi]
    dsimp only
    rw [Ports.set_self, serialWriteRoom_write]
    exact ⟨rfl, rfl⟩
  | succ n ih =>
    rw [Function.iterate_succ_apply']
    generalize (offer serialDriver tty)^[n + 1] (buf, ports) = x at ih
    obtain ⟨left, p⟩ := x
    dsimp only at ih
    obtain ⟨rfl, hroom⟩ := ih
    rw [serial_offer hi, hroom]
    dsimp only
    rw [Ports.set_self, serialWriteRoom_write, hroom, List.length_drop, List.drop_drop,
      List.drop_eq_drop_iff]
    exact ⟨by omega, by omega⟩

theorem serial_neverStaysFull_iff (hi : ttyGetCom tty = .ok i) (buf : List Byte) (ports : Ports) :
    NeverStaysFull serialDriver tty buf ports ↔ buf.length ≤ serialWriteRoom (ports i) := by
  constructor
  · intro h
    by_contra hlong
    have hleft : ((offer serialDriver tty)^[1] (buf, ports)).1 ≠ [] := by
      rw [(serial_offers hi buf ports 0).1, Ne, List.drop_eq_nil_iff]
      exact hlong
    obtain ⟨j, hj, htakes⟩ := h 1 hleft
    obtain ⟨n, rfl⟩ := Nat.exists_eq_add_of_le' hj
    have hroom := (serial_offers hi buf ports n).2
    generalize (offer serialDriver tty)^[n + 1] (buf, ports) = x at htakes hroom
    rw [serialDriver_write hi] at htakes
    have hcount : 0 < ((min x.1.length (serialWriteRoom (x.2 i)) : Nat) : Int) := htakes
    omega
  · intro hfits
    rw [← takes_all_iff (countingSerial hi)]
    refine ⟨1, ?_⟩
    rw [(serial_offers hi buf ports 0).1, List.drop_eq_nil_iff]
    exact hfits

/-- **On a serial port** that sends nothing meanwhile raw and processed output agree exactly on a
buffer that fits into the transmit ring. -/
theorem serial_writesAlike_iff (hi : ttyGetCom tty = .ok i) {raw processed : BitVec 32}
    (hraw : raw &&& OPOST = 0) (hpost : processed &&& OPOST ≠ 0) (honlcr : processed &&& ONLCR = 0)
    (hocrnl : processed &&& OCRNL = 0) (buf : List Byte) (ports : Ports) :
    WritesAlike (countingSerial hi) raw processed buf ports ↔
      buf.length ≤ serialWriteRoom (ports i) := by
  constructor
  · intro h
    have hroom := (h.room_and_taken (countingSerial hi) hraw hpost honlcr hocrnl).1
    exact (serial_roomForEach_iff hi buf ports).mp hroom
  · intro hfits
    obtain ⟨passes, hpasses⟩ := (takes_all_iff (countingSerial hi) buf ports).mpr
      ((serial_neverStaysFull_iff hi buf ports).mpr hfits)
    exact writesAlike_of_taken (countingSerial hi) hraw hpost honlcr hocrnl
      ((serial_roomForEach_iff hi buf ports).mpr hfits) hpasses

end Serial

/-! ## The terminal -/

/-- A terminal takes everything it is given. -/
theorem terminalDriver_count {tty : Tty} {n : Nat} (hn : ttyGetTerminal tty = .ok n)
    (buf : List Byte) (d : Devices) : (terminalDriver.write tty buf d).1 = buf.length := by
  unfold terminalDriver
  dsimp only
  rw [hn]
  rfl

def countingTerminal {tty : Tty} {n : Nat} (hn : ttyGetTerminal tty = .ok n) :
    CountingDriver (recording terminalDriver) tty where
  received d := d.2
  write buf d := by
    refine ⟨buf.length, terminalDriver_count hn buf d.1, min_le_left _ _, Nat.le_refl _, ?_⟩
    rw [List.take_length]
    rfl
  flush _ h := nomatch h
  write_oflag _ := rfl
  room_oflag _ := rfl

/-- On a terminal raw and processed output always agree. -/
theorem terminal_writesAlike {tty : Tty} {n : Nat} (hn : ttyGetTerminal tty = .ok n)
    {raw processed : BitVec 32} (hraw : raw &&& OPOST = 0) (hpost : processed &&& OPOST ≠ 0)
    (honlcr : processed &&& ONLCR = 0) (hocrnl : processed &&& OCRNL = 0) (buf : List Byte)
    (d : Devices × List Byte) : WritesAlike (countingTerminal hn) raw processed buf d := by
  refine @writesAlike_of_taken _ _ _ (countingTerminal hn) _ _ hraw hpost honlcr hocrnl buf d
    (fun i _ => ?_) 1 ?_
  · show 1 ≤ TERMINAL_WRITE_ROOM
    decide
  · show buf.drop (terminalDriver.write tty buf d.1).1.toNat = []
    rw [terminalDriver_count hn, Int.toNat_natCast, List.drop_length]

/-! ## Every driver -/

/-- **Raw and processed output** agree, if there is nothing to process, exactly for a driver that has
room before each character when they come one by one, and that never stays full when it is offered
all that is left. -/
theorem raw_processed_iff {D : Type} {drv : TtyDriver D} {tty : Tty} (k : CountingDriver drv tty)
    {raw processed : BitVec 32} (hraw : raw &&& OPOST = 0) (hpost : processed &&& OPOST ≠ 0)
    (honlcr : processed &&& ONLCR = 0) (hocrnl : processed &&& OCRNL = 0) (buf : List Byte) (d : D) :
    WritesAlike k raw processed buf d ↔ RoomForEach drv tty buf d ∧ NeverStaysFull drv tty buf d := by
  rw [← takes_all_iff k]
  constructor
  · intro h
    exact h.room_and_taken k hraw hpost honlcr hocrnl
  · rintro ⟨hroom, passes, hpasses⟩
    exact writesAlike_of_taken k hraw hpost honlcr hocrnl hroom hpasses

/-- Two characters for a serial port with an empty transmit ring. -/
theorem raw_processed_fits :
    WritesAlike (countingSerial openedLine_com) 0 OPOST [0x61, 0x62] openedLine.dev :=
  (raw_processed_iff (countingSerial openedLine_com) (by decide) (by decide) (by decide) (by decide)
    [0x61, 0x62] openedLine.dev).mpr
      ⟨(serial_roomForEach_iff openedLine_com _ _).mpr (by decide),
        (serial_neverStaysFull_iff openedLine_com _ _).mpr (by decide)⟩

/-- The serial port when its transmit ring is full. -/
def fullPorts : Ports :=
  (serialDriver.write openedLine.tty (List.replicate TTY_BUFFER_SIZE 0x61) openedLine.dev).2

/-- On a full transmit ring raw output never returns, and processed output returns 0. -/
theorem raw_processed_full :
    ¬ WritesAlike (countingSerial openedLine_com) 0 OPOST [0x62] fullPorts ∧
      (∀ ret t, ¬ NTtyWriteReturns serialDriver [0x62] ⟨openedLine.tty.withOflag 0, fullPorts⟩ ret t) ∧
        NTtyWriteReturns serialDriver [0x62] ⟨openedLine.tty.withOflag OPOST, fullPorts⟩ 0
          ⟨openedLine.tty.withOflag OPOST,
            comOp serialFlush (openedLine.tty.withOflag OPOST) fullPorts⟩ := by
  have hroom : serialWriteRoom (fullPorts 0) = 0 := by
    have hport : fullPorts 0 =
        (serialWrite openedLine.tty (List.replicate TTY_BUFFER_SIZE 0x61) (openedLine.dev 0)).2 :=
      serialWrite_dev openedLine_com _
    have hempty : serialWriteRoom (openedLine.dev 0) = TTY_BUFFER_SIZE := by
      decide +kernel
    rw [hport, serialWriteRoom_write, List.length_replicate, hempty, Nat.sub_self]
  refine ⟨?_, ?_, 1, ⟨openedLine.tty.withOflag OPOST, fullPorts⟩, ?_, rfl⟩
  · rw [serial_writesAlike_iff openedLine_com (by decide) (by decide) (by decide) (by decide), hroom]
    decide
  · rintro ret t ⟨passes, u, hpasses, -⟩
    obtain ⟨-, -, -, htakes⟩ :=
      (raw_passes (countingSerial openedLine_com) (by decide) passes [0x62] 0 fullPorts).1 ret u hpasses
    rw [takes_all_iff (countingSerial openedLine_com), serial_neverStaysFull_iff openedLine_com,
      hroom] at htakes
    exact absurd htakes (by decide)
  · have hpost : opost serialDriver ⟨openedLine.tty.withOflag OPOST, fullPorts⟩ 0x62 =
        (-1, ⟨openedLine.tty.withOflag OPOST, fullPorts⟩) := by
      rw [opost_plain (countingSerial openedLine_com) (by decide) (by decide),
        serialDriver_room openedLine_com, hroom]
      rfl
    have hflag : (openedLine.tty.withOflag OPOST).termios.oFlag OPOST = true := by decide
    have hstop : (-1 : Int) < 0 := by decide
    have hpass : writePass serialDriver 0x62 [] ⟨openedLine.tty.withOflag OPOST, fullPorts⟩ =
        .noRoom ⟨openedLine.tty.withOflag OPOST, fullPorts⟩ := by
      rw [writePass]
      dsimp only
      rw [if_pos hflag, hpost, if_pos hstop]
    rw [writePasses, hpass]
    rfl

end Ohwes
