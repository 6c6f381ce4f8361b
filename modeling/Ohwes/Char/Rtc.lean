import Ohwes.Kernel.Basic

/-! # `kernel/char/rtc.c`: the real-time clock

The registers of the clock keep what is written to them; it does not tick while the kernel reads or
sets it. An `int` is a word, so that the fields an alarm has no use for may hold anything. -/

namespace Ohwes
set_option autoImplicit false

/-- The registers by their index. -/
abbrev Cmos := Byte → Byte

def PORT_REG_A : Byte := 0xA
def PORT_REG_B : Byte := 0xB
def REG_A_UIP : Byte := 0x80
def REG_B_24H : Byte := 0x02
def REG_B_DM : Byte := 0x04
def REG_B_SET : Byte := 0x80
def REG_SECONDS : Byte := 0x00
def REG_SECONDS_ALARM : Byte := 0x01
def REG_MINUTES : Byte := 0x02
def REG_MINUTES_ALARM : Byte := 0x03
def REG_HOURS : Byte := 0x04
def REG_HOURS_ALARM : Byte := 0x05
def REG_DATEOFMONTH : Byte := 0x07
def REG_MONTH : Byte := 0x08
def REG_YEAR : Byte := 0x09

/-- The PM bit in the hours register. -/
def PM_FLAG : BitVec 32 := 0x80

def cmosWrite (c : Cmos) (addr data : Byte) : Cmos := Function.update c addr data

/-- The low byte of an `int` goes to the register. -/
def cmosWriteInt (c : Cmos) (addr : Byte) (data : BitVec 32) : Cmos :=
  cmosWrite c addr (data.truncate 8)

def cmosReadInt (c : Cmos) (addr : Byte) : BitVec 32 := (c addr).zeroExtend 32

/-- The fields of `struct rtc_time` that are used. -/
structure RtcTime where
  sec : BitVec 32
  min : BitVec 32
  hour : BitVec 32
  mday : BitVec 32
  mon : BitVec 32
  year : BitVec 32
  deriving DecidableEq

def bcd2bin (n : BitVec 32) : BitVec 32 := n.sshiftRight 4 * 10 + (n &&& 0x0F)

def bin2bcd (n : BitVec 32) : BitVec 32 := n.sdiv 10 <<< (4 : Nat) + n.srem 10

/-- The conversions from BCD and to BCD are made in all fields. -/
def RtcTime.map (f : BitVec 32 → BitVec 32) (t : RtcTime) : RtcTime :=
  ⟨f t.sec, f t.min, f t.hour, f t.mday, f t.mon, f t.year⟩

/-- "RTC using 12h time?" -/
def halfDay (regb : Byte) : Bool := regb &&& REG_B_24H == 0

/-- "RTC time formatted in BCD?" -/
def inBcd (regb : Byte) : Bool := regb &&& REG_B_DM == 0

def fromBcd (bcd : Bool) (n : BitVec 32) : BitVec 32 := if bcd then bcd2bin n else n

def toBcd (bcd : Bool) (n : BitVec 32) : BitVec 32 := if bcd then bin2bcd n else n

/-! ## `get_time` -/

def readTime (c : Cmos) (alarm : Bool) : RtcTime :=
  if alarm then
    { sec := cmosReadInt c REG_SECONDS_ALARM
      min := cmosReadInt c REG_MINUTES_ALARM
      hour := cmosReadInt c REG_HOURS_ALARM
      mday := 0
      mon := 0
      year := 0 }
  else
    { sec := cmosReadInt c REG_SECONDS
      min := cmosReadInt c REG_MINUTES
      hour := cmosReadInt c REG_HOURS
      mday := cmosReadInt c REG_DATEOFMONTH
      mon := cmosReadInt c REG_MONTH
      year := cmosReadInt c REG_YEAR }

/-- What `get_time` makes of the registers; the PM bit goes before the conversion from BCD. -/
def fromClock (regb : Byte) (t : RtcTime) : RtcTime :=
  let pm := halfDay regb && t.hour &&& PM_FLAG != 0
  let t := { t with hour := if pm then t.hour &&& ~~~PM_FLAG else t.hour }
  let t := t.map (fromBcd (inBcd regb))
  let t := { t with
    hour :=
      if halfDay regb then
        if pm ∧ t.hour.toInt < 12 then t.hour + 12
        else if !pm ∧ t.hour = 12 then 0
        else t.hour
      else t.hour }
  let t := { t with year := if t.year.toInt < 90 then t.year + 100 else t.year }
  { t with mon := t.mon - 1 }

/-- `spin` waits for the end of an update, which does not come where the clock stands still. -/
def getTime (c : Cmos) (alarm : Bool) : Call (RtcTime × Cmos) :=
  if c PORT_REG_A &&& REG_A_UIP ≠ 0 then .error .diverges
  else
    let regb := c PORT_REG_B ||| REG_B_SET
    let c := cmosWrite c PORT_REG_B regb
    let time := readTime c alarm
    let regb := regb &&& ~~~REG_B_SET
    let c := cmosWrite c PORT_REG_B regb
    .ok (fromClock regb time, c)

/-! ## `set_time` -/

def invalidTime (t : RtcTime) (alarm : Bool) : Bool :=
  t.sec.toInt < 0 || t.sec.toInt > 59 || t.min.toInt < 0 || t.min.toInt > 59 ||
  t.hour.toInt < 0 || t.hour.toInt > 23 ||
  (!alarm && (t.mday.toInt < 1 || t.mday.toInt > 31)) ||
  (!alarm && (t.mon.toInt < 0 || t.mon.toInt > 11)) ||
  (!alarm && (t.year.toInt < 90 || t.year.toInt > 189))

/-- What `set_time` makes of the time before it writes the registers. -/
def toClock (regb : Byte) (t : RtcTime) : RtcTime :=
  let t := { t with mon := t.mon + 1 }
  let t := { t with year := if t.year.toInt ≥ 100 then t.year - 100 else t.year }
  let pm := halfDay regb && t.hour.toInt ≥ 12
  let t := { t with
    hour :=
      if halfDay regb then
        if t.hour.toInt > 12 then t.hour - 12 else if t.hour = 0 then 12 else t.hour
      else t.hour }
  let t := t.map (toBcd (inBcd regb))
  { t with hour := if pm then t.hour ||| PM_FLAG else t.hour }

def writeTime (c : Cmos) (t : RtcTime) (alarm : Bool) : Cmos :=
  if alarm then
    let c := cmosWriteInt c REG_HOURS_ALARM t.hour
    let c := cmosWriteInt c REG_MINUTES_ALARM t.min
    cmosWriteInt c REG_SECONDS_ALARM t.sec
  else
    let c := cmosWriteInt c REG_YEAR t.year
    let c := cmosWriteInt c REG_MONTH t.mon
    let c := cmosWriteInt c REG_DATEOFMONTH t.mday
    let c := cmosWriteInt c REG_HOURS t.hour
    let c := cmosWriteInt c REG_MINUTES t.min
    cmosWriteInt c REG_SECONDS t.sec

/-- `set_time`, with what it leaves in the caller's `struct rtc_time`. -/
def setTime (c : Cmos) (t : RtcTime) (alarm : Bool) : Call (Int × RtcTime × Cmos) :=
  if invalidTime t alarm then .ok (-EINVAL, t, c)
  else
    let t := toClock (c PORT_REG_B) t
    if c PORT_REG_A &&& REG_A_UIP ≠ 0 then .error .diverges
    else
      let regb := c PORT_REG_B ||| REG_B_SET
      let c := cmosWrite c PORT_REG_B regb
      let c := writeTime c t alarm
      let regb := regb &&& ~~~REG_B_SET
      let c := cmosWrite c PORT_REG_B regb
      .ok (0, t, c)

/-! ## The fields -/

/-- A field that is checked is a natural number. -/
theorem exists_nat {x : BitVec 32} (h : 0 ≤ x.toInt) :
    ∃ n : Nat, x = BitVec.ofNat 32 n ∧ x.toInt = n := by
  refine ⟨x.toNat, BitVec.eq_of_toNat_eq (by simp), ?_⟩
  have hcond := BitVec.toInt_eq_toNat_cond x
  split at hcond
  · exact hcond
  · have := x.isLt
    omega

/-- What a register makes of an `int`. -/
def kept (n : BitVec 32) : BitVec 32 := ((n.truncate 8 : Byte)).zeroExtend 32

/-- A small number goes through a register and back, in BCD or not. -/
theorem field_round_trip : ∀ n < 100, ∀ bcd : Bool,
    fromBcd bcd (kept (toBcd bcd (BitVec.ofNat 32 n))) = BitVec.ofNat 32 n := by
  decide +kernel

/-- The hour, where `half` is the mode of 12 hours. -/
def fromHour (half bcd : Bool) (hour : BitVec 32) : BitVec 32 :=
  let pm := half && hour &&& PM_FLAG != 0
  let hour := fromBcd bcd (if pm then hour &&& ~~~PM_FLAG else hour)
  if half then
    if pm ∧ hour.toInt < 12 then hour + 12 else if !pm ∧ hour = 12 then 0 else hour
  else hour

def toHour (half bcd : Bool) (hour : BitVec 32) : BitVec 32 :=
  let pm := half && hour.toInt ≥ 12
  let hour := toBcd bcd
    (if half then if hour.toInt > 12 then hour - 12 else if hour = 0 then 12 else hour else hour)
  if pm then hour ||| PM_FLAG else hour

theorem hour_round_trip : ∀ n < 24, ∀ half bcd : Bool,
    fromHour half bcd (kept (toHour half bcd (BitVec.ofNat 32 n))) = BitVec.ofNat 32 n := by
  decide +kernel

theorem month_round_trip : ∀ n < 12, ∀ bcd : Bool,
    fromBcd bcd (kept (toBcd bcd (BitVec.ofNat 32 n + 1))) - 1 = BitVec.ofNat 32 n := by
  decide +kernel

def fromYear (bcd : Bool) (year : BitVec 32) : BitVec 32 :=
  if (fromBcd bcd year).toInt < 90 then fromBcd bcd year + 100 else fromBcd bcd year

def toYear (bcd : Bool) (year : BitVec 32) : BitVec 32 :=
  toBcd bcd (if year.toInt ≥ 100 then year - 100 else year)

theorem year_round_trip : ∀ n < 190, 90 ≤ n → ∀ bcd : Bool,
    fromYear bcd (kept (toYear bcd (BitVec.ofNat 32 n))) = BitVec.ofNat 32 n := by
  decide +kernel

/-- `get_time` and `set_time` convert each field on its own. -/
theorem fromClock_eq (regb : Byte) (t : RtcTime) :
    fromClock regb t =
      { sec := fromBcd (inBcd regb) t.sec
        min := fromBcd (inBcd regb) t.min
        hour := fromHour (halfDay regb) (inBcd regb) t.hour
        mday := fromBcd (inBcd regb) t.mday
        mon := fromBcd (inBcd regb) t.mon - 1
        year := fromYear (inBcd regb) t.year } := rfl

theorem toClock_eq (regb : Byte) (t : RtcTime) :
    toClock regb t =
      { sec := toBcd (inBcd regb) t.sec
        min := toBcd (inBcd regb) t.min
        hour := toHour (halfDay regb) (inBcd regb) t.hour
        mday := toBcd (inBcd regb) t.mday
        mon := toBcd (inBcd regb) (t.mon + 1)
        year := toYear (inBcd regb) t.year } := rfl

/-! ## The registers -/

/-- The registers that `set_time` is for. -/
def timeRegisters (alarm : Bool) : List Byte :=
  if alarm then [REG_HOURS_ALARM, REG_MINUTES_ALARM, REG_SECONDS_ALARM]
  else [REG_YEAR, REG_MONTH, REG_DATEOFMONTH, REG_HOURS, REG_MINUTES, REG_SECONDS]

theorem writeTime_other (c : Cmos) (t : RtcTime) {alarm : Bool} {r : Byte}
    (h : r ∉ timeRegisters alarm) : writeTime c t alarm r = c r := by
  cases alarm with
  | false =>
    simp only [timeRegisters, Bool.false_eq_true, if_false, List.mem_cons, List.not_mem_nil, or_false,
      not_or] at h
    obtain ⟨h1, h2, h3, h4, h5, h6⟩ := h
    simp only [writeTime, cmosWriteInt, cmosWrite, Bool.false_eq_true, if_false,
      Function.update_of_ne h1, Function.update_of_ne h2, Function.update_of_ne h3,
      Function.update_of_ne h4, Function.update_of_ne h5, Function.update_of_ne h6]
  | true =>
    simp only [timeRegisters, if_true, List.mem_cons, List.not_mem_nil, or_false, not_or] at h
    obtain ⟨h1, h2, h3⟩ := h
    simp only [writeTime, cmosWriteInt, cmosWrite, if_true, Function.update_of_ne h1,
      Function.update_of_ne h2, Function.update_of_ne h3]

/-- What was written is read, as far as the registers hold it. -/
theorem readTime_writeTime (c : Cmos) (t : RtcTime) (alarm : Bool) :
    readTime (writeTime c t alarm) alarm =
      if alarm then ⟨kept t.sec, kept t.min, kept t.hour, 0, 0, 0⟩ else t.map kept := by
  cases alarm <;> rfl

theorem readTime_congr {c c' : Cmos} {alarm : Bool} (h : ∀ r ∈ timeRegisters alarm, c' r = c r) :
    readTime c' alarm = readTime c alarm := by
  cases alarm with
  | false =>
    simp only [timeRegisters, Bool.false_eq_true, if_false, List.forall_mem_cons] at h
    obtain ⟨h1, h2, h3, h4, h5, h6, -⟩ := h
    simp only [readTime, cmosReadInt, Bool.false_eq_true, if_false, h1, h2, h3, h4, h5, h6]
  | true =>
    simp only [timeRegisters, if_true, List.forall_mem_cons] at h
    obtain ⟨h1, h2, h3, -⟩ := h
    simp only [readTime, cmosReadInt, if_true, h1, h2, h3]

theorem set_cleared : ∀ b : Byte, b &&& REG_B_SET = 0 → (b ||| REG_B_SET) &&& ~~~REG_B_SET = b := by
  decide +kernel

/-- Between two writes to register B, of which the second has the old value, only what is written
there changes. -/
theorem restored_eq {c d : Cmos} {x : Byte} {regs : List Byte}
    (hd : ∀ r, r ∉ regs → d r = cmosWrite c PORT_REG_B x r) {r : Byte} (hr : r ∉ regs) :
    cmosWrite d PORT_REG_B (c PORT_REG_B) r = c r := by
  by_cases hrb : r = PORT_REG_B
  · rw [hrb, cmosWrite, Function.update_self]
  · rw [cmosWrite, Function.update_of_ne hrb, hd r hr, cmosWrite, Function.update_of_ne hrb]

theorem getTime_eq {c : Cmos} (hidle : c PORT_REG_A &&& REG_A_UIP = 0)
    (hset : c PORT_REG_B &&& REG_B_SET = 0) (alarm : Bool) :
    getTime c alarm = .ok (fromClock (c PORT_REG_B) (readTime c alarm), c) := by
  have hb : PORT_REG_B ∉ timeRegisters alarm := by cases alarm <;> decide
  have hread : readTime (cmosWrite c PORT_REG_B (c PORT_REG_B ||| REG_B_SET)) alarm =
      readTime c alarm := readTime_congr fun r hr => by
    have hrb : r ≠ PORT_REG_B := fun heq => hb (heq ▸ hr)
    rw [cmosWrite, Function.update_of_ne hrb]
  have hback : cmosWrite (cmosWrite c PORT_REG_B (c PORT_REG_B ||| REG_B_SET)) PORT_REG_B
      (c PORT_REG_B) = c := by
    funext r
    exact restored_eq (fun _ (_ : _ ∉ []) => rfl) List.not_mem_nil
  rw [getTime, if_neg (not_not.mpr hidle)]
  dsimp only
  rw [set_cleared _ hset, hread, hback]

/-! ## Setting and getting -/

/-- The time that `set_time` takes: the date does not matter for an alarm. -/
structure InRange (alarm : Bool) (t : RtcTime) : Prop where
  sec : 0 ≤ t.sec.toInt ∧ t.sec.toInt ≤ 59
  min : 0 ≤ t.min.toInt ∧ t.min.toInt ≤ 59
  hour : 0 ≤ t.hour.toInt ∧ t.hour.toInt ≤ 23
  mday : alarm = false → 1 ≤ t.mday.toInt ∧ t.mday.toInt ≤ 31
  mon : alarm = false → 0 ≤ t.mon.toInt ∧ t.mon.toInt ≤ 11
  year : alarm = false → 90 ≤ t.year.toInt ∧ t.year.toInt ≤ 189

theorem invalidTime_iff (t : RtcTime) (alarm : Bool) :
    invalidTime t alarm = false ↔ InRange alarm t := by
  cases alarm with
  | false =>
    simp only [invalidTime, Bool.not_false, Bool.true_and, Bool.or_eq_false_iff,
      decide_eq_false_iff_not]
    constructor
    · intro h
      constructor <;> omega
    · intro h
      have := h.sec
      have := h.min
      have := h.hour
      have := h.mday rfl
      have := h.mon rfl
      have := h.year rfl
      omega
  | true =>
    simp only [invalidTime, Bool.not_true, Bool.false_and, Bool.or_eq_false_iff,
      decide_eq_false_iff_not, and_true]
    constructor
    · intro h
      exact ⟨by omega, by omega, by omega, nofun, nofun, nofun⟩
    · intro h
      have := h.sec
      have := h.min
      have := h.hour
      omega

/-- The parts of a time that are kept. -/
def SameTime (alarm : Bool) (u t : RtcTime) : Prop :=
  if alarm then u.hour = t.hour ∧ u.min = t.min ∧ u.sec = t.sec else u = t

/-- The conversions are inverse to each other in all four modes of the clock. -/
theorem InRange.converted {alarm : Bool} {t : RtcTime} (h : InRange alarm t) (regb : Byte) :
    SameTime alarm (fromClock regb (if alarm then
      ⟨kept (toClock regb t).sec, kept (toClock regb t).min, kept (toClock regb t).hour, 0, 0, 0⟩
      else (toClock regb t).map kept)) t := by
  obtain ⟨sec, hs, hsec⟩ := exists_nat h.sec.1
  obtain ⟨min, hm, hmin⟩ := exists_nat h.min.1
  obtain ⟨hour, hh, hhour⟩ := exists_nat h.hour.1
  have hlimits := And.intro h.sec.2 (And.intro h.min.2 h.hour.2)
  have hsec' := field_round_trip sec (by omega) (inBcd regb)
  have hmin' := field_round_trip min (by omega) (inBcd regb)
  have hhour' := hour_round_trip hour (by omega) (halfDay regb) (inBcd regb)
  rw [← hs] at hsec'
  rw [← hm] at hmin'
  rw [← hh] at hhour'
  cases alarm with
  | true => exact ⟨hhour', hmin', hsec'⟩
  | false =>
    obtain ⟨hmday0, hmday31⟩ := h.mday rfl
    obtain ⟨hmon0, hmon11⟩ := h.mon rfl
    obtain ⟨hyear90, hyear189⟩ := h.year rfl
    obtain ⟨mday, hd, hmday⟩ := exists_nat (Int.le_trans (by decide) hmday0)
    obtain ⟨mon, hmo, hmon⟩ := exists_nat hmon0
    obtain ⟨year, hy, hyear⟩ := exists_nat (Int.le_trans (by decide) hyear90)
    have hmday' := field_round_trip mday (by omega) (inBcd regb)
    have hmon' := month_round_trip mon (by omega) (inBcd regb)
    have hyear' := year_round_trip year (by omega) (by omega) (inBcd regb)
    rw [← hd] at hmday'
    rw [← hmo] at hmon'
    rw [← hy] at hyear'
    change fromClock regb ((toClock regb t).map kept) = t
    rw [toClock_eq, fromClock_eq]
    simp only [RtcTime.map, hsec', hmin', hhour', hmday', hmon', hyear']

/-- **Setting and getting the time.** A time in range comes back, and only its registers change; any
other is refused. -/
theorem rtc_round_trip (c : Cmos) (hidle : c PORT_REG_A &&& REG_A_UIP = 0)
    (hset : c PORT_REG_B &&& REG_B_SET = 0) (alarm : Bool) (t : RtcTime) :
    (InRange alarm t → ∃ t' c', setTime c t alarm = .ok (0, t', c') ∧
      (∀ r, r ∉ timeRegisters alarm → c' r = c r) ∧ c' PORT_REG_B = c PORT_REG_B ∧
      ∃ u c'', getTime c' alarm = .ok (u, c'') ∧ SameTime alarm u t) ∧
    (¬ InRange alarm t → setTime c t alarm = .ok (-EINVAL, t, c)) := by
  have hb : PORT_REG_B ∉ timeRegisters alarm := by cases alarm <;> decide
  have ha : PORT_REG_A ∉ timeRegisters alarm := by cases alarm <;> decide
  rw [← invalidTime_iff]
  constructor
  · intro hvalid
    generalize hstored : toClock (c PORT_REG_B) t = t'
    generalize hc' : cmosWrite (writeTime (cmosWrite c PORT_REG_B (c PORT_REG_B ||| REG_B_SET)) t'
      alarm) PORT_REG_B (c PORT_REG_B) = c'
    have hother : ∀ r, r ∉ timeRegisters alarm → c' r = c r := fun r hr => by
      rw [← hc']
      exact restored_eq (fun r hr => writeTime_other _ t' hr) hr
    have hread : readTime c' alarm =
        if alarm then ⟨kept t'.sec, kept t'.min, kept t'.hour, 0, 0, 0⟩ else t'.map kept := by
      rw [← readTime_writeTime (cmosWrite c PORT_REG_B (c PORT_REG_B ||| REG_B_SET)) t' alarm, ← hc']
      refine readTime_congr fun r hr => ?_
      have hrb : r ≠ PORT_REG_B := fun heq => hb (heq ▸ hr)
      rw [cmosWrite, Function.update_of_ne hrb]
    refine ⟨t', c', ?_, hother, hother _ hb, _, c', getTime_eq ?_ ?_ alarm, ?_⟩
    · rw [setTime, hvalid, if_neg Bool.false_ne_true]
      dsimp only
      rw [if_neg (not_not.mpr hidle), set_cleared _ hset, hstored, hc']
    · rw [hother _ ha]
      exact hidle
    · rw [hother _ hb]
      exact hset
    · rw [hother _ hb, hread, ← hstored]
      exact ((invalidTime_iff t alarm).mp hvalid).converted _
  · intro hinvalid
    rw [setTime, if_pos (by simpa using hinvalid)]

/-- The last second of 1999, for a clock of 12 hours in BCD. -/
def lastSecond : RtcTime := ⟨59, 59, 23, 31, 11, 99⟩

theorem rtc_round_trip_lastSecond :
    ∃ t' c', setTime (fun _ => 0) lastSecond false = .ok (0, t', c') ∧
      (∀ r, r ∉ timeRegisters false → c' r = 0) ∧ c' PORT_REG_B = 0 ∧
      ∃ u c'', getTime c' false = .ok (u, c'') ∧ SameTime false u lastSecond :=
  (rtc_round_trip (fun _ => 0) (by decide) (by decide) false lastSecond).1
    ⟨by decide, by decide, by decide, fun _ => by decide, fun _ => by decide, fun _ => by decide⟩

end Ohwes
