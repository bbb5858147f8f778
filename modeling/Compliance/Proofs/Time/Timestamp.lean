import Compliance.Proofs.Number.Digits
import Compliance.Proofs.Time.Calendar
import Compliance.Time.Timestamp

/-!
# Times read back

Every part of a written time is a run of digits in front of a sign that is none,
and is read back as the number it was written for.
-/

namespace Compliance.Time

open Compliance.Number (isDigit ofDigits padded)

namespace Timestamp

/-- Digits are read up to something else, or up to the width. -/
theorem readUpTo_append {width : Nat} {ds rest : List Char} (hne : ds ≠ [])
    (hds : ∀ c ∈ ds, isDigit c = true) (hlen : ds.length ≤ width)
    (hrest : ds.length = width ∨ ∀ c, rest.head? = some c → isDigit c = false) :
    readUpTo width (ds ++ rest) = some (ofDigits ds, rest) := by
  have htake : ((ds ++ rest).take width).takeWhile isDigit = ds := by
    rw [List.take_append, List.take_of_length_le hlen, List.takeWhile_append_of_pos hds]
    rcases hrest with hfull | hstop
    · simp [hfull]
    · have hnone : (rest.take (width - ds.length)).takeWhile isDigit = [] := by
        cases rest with
        | nil => simp
        | cons c cs =>
            have hc := hstop c rfl
            cases width - ds.length with
            | zero => simp
            | succ n => simp [hc]
      rw [hnone, List.append_nil]
  unfold readUpTo
  simp only [htake]
  simp [hne]

theorem skipBlank_of_not {c : Char} (h : Text.isBlank c = false) (cs : List Char) :
    Text.skipBlank (c :: cs) = c :: cs := by
  simp [Text.skipBlank, h]

theorem isBlank_of_isDigit {c : Char} (h : isDigit c = true) : Text.isBlank c = false := by
  simp only [isDigit, Bool.and_eq_true, decide_eq_true_eq, Char.le_def] at h
  have hlow := UInt32.le_iff_toNat_le.1 h.1
  have hhigh := UInt32.le_iff_toNat_le.1 h.2
  have hc : c.val.toNat = c.toNat := rfl
  have h0 : '0'.val.toNat = 48 := rfl
  have h9 : '9'.val.toNat = 57 := rfl
  simp only [Text.isBlank, Bool.or_eq_false_iff, Bool.and_eq_false_imp, beq_eq_false_iff_ne,
    decide_eq_true_eq, decide_eq_false_iff_not]
  omega

section Pair

variable {n low high : Nat} (hlow : low ≤ n) (hhigh : n ≤ high) (h100 : high < 100)

include hlow hhigh h100

theorem readPair_padded (rest : List Char) :
    readPair low high ((padded 2 n).toList ++ rest) = some (n, rest) := by
  have hlen := Number.length_padded (w := 2) (n := n) (by omega) (by omega)
  have hdigits : ∀ c ∈ (padded 2 n).toList, isDigit c = true :=
    fun _ => Number.isDigit_of_mem_padded
  have hne : (padded 2 n).toList ≠ [] := by
    intro h
    rw [h] at hlen
    cases hlen
  have hskip : Text.skipBlank ((padded 2 n).toList ++ rest) =
      (padded 2 n).toList ++ rest := by
    obtain ⟨c, cs, hcons⟩ := List.exists_cons_of_ne_nil hne
    rw [hcons, List.cons_append]
    exact skipBlank_of_not (isBlank_of_isDigit (hdigits c (by simp [hcons]))) _
  rw [readPair, hskip, readUpTo_append hne hdigits (by omega) (Or.inl hlen),
    Number.ofDigits_padded]
  simp [hlow, hhigh]

theorem readNext_padded {separator : Char} (hs : Text.isBlank separator = false)
    (rest : List Char) :
    readNext separator low high (separator :: ((padded 2 n).toList ++ rest)) =
      some (n, rest) := by
  rw [readNext, skipBlank_of_not hs]
  simp [expect, readPair_padded hlow hhigh h100]

end Pair

theorem head_padded {ds rest tail : List Char} {c : Char} {n : Nat}
    (hds : ∀ c ∈ ds, isDigit c = true) (hlen : ds.length = n + 1)
    (h : ds ++ rest = c :: tail) : isDigit c = true := by
  cases ds with
  | nil => cases hlen
  | cons d ds =>
      have hd := hds d List.mem_cons_self
      rwa [(List.cons.inj h).1] at hd

theorem padded_ne_nil (width n : Nat) : (padded width n).toList ≠ [] := by
  rw [Number.toList_padded]
  simp [Number.digits_ne_nil]

/-- Years of four digits stand alone, all others behind their sign. -/
theorem readSigned_renderYear (year : Int) {rest : List Char}
    (hrest : ∀ c, rest.head? = some c → isDigit c = false) :
    readSigned ((renderYear year).toList ++ rest) = some (year, rest) := by
  have hdigits : ∀ n, ∀ c ∈ (padded 4 n).toList, isDigit c = true :=
    fun _ _ => Number.isDigit_of_mem_padded
  have hlong : readAll ((padded 4 year.natAbs).toList ++ rest) =
      some (year.natAbs, rest) := by
    rw [readAll, readUpTo_append (padded_ne_nil _ _) (hdigits _) (by simp) (Or.inr hrest),
      Number.ofDigits_padded]
  unfold renderYear
  split
  · rename_i hshort
    obtain ⟨n, rfl⟩ := Int.eq_ofNat_of_zero_le hshort.1
    have hlen := Number.length_padded (w := 4) (n := n) (by omega) (by omega)
    have hread : readUpTo 4 ((padded 4 n).toList ++ rest) =
        some (ofDigits (padded 4 n).toList, rest) :=
      readUpTo_append (padded_ne_nil _ _) (hdigits n) (by omega) (Or.inl hlen)
    rw [Number.ofDigits_padded] at hread
    have hnat : Int.toNat (n : Int) = n := by omega
    rw [hnat]
    unfold readSigned
    split
    · rename_i tail heq
      have hc := head_padded (hdigits n) hlen heq
      simp [isDigit] at hc
    · rename_i tail heq
      have hc := head_padded (hdigits n) hlen heq
      simp [isDigit] at hc
    · rw [hread]
      rfl
  · by_cases hneg : year < 0
    · have htext : ("-" ++ padded 4 year.natAbs).toList ++ rest =
          '-' :: ((padded 4 year.natAbs).toList ++ rest) := by
        simp
      have hyear : -(year.natAbs : Int) = year := by omega
      rw [if_pos hneg, htext, readSigned, hlong]
      exact congrArg (fun y => some (y, rest)) hyear
    · have htext : ("+" ++ padded 4 year.natAbs).toList ++ rest =
          '+' :: ((padded 4 year.natAbs).toList ++ rest) := by
        simp
      have hyear : (year.natAbs : Int) = year := by omega
      rw [if_neg hneg, htext, readSigned, hlong]
      exact congrArg (fun y => some (y, rest)) hyear

theorem skipBlank_renderYear (year : Int) (rest : List Char) :
    Text.skipBlank ((renderYear year).toList ++ rest) =
      (renderYear year).toList ++ rest := by
  have hdigits : ∀ c ∈ (padded 4 year.toNat).toList, isDigit c = true :=
    fun _ => Number.isDigit_of_mem_padded
  unfold renderYear
  split
  · obtain ⟨c, cs, hcs⟩ := List.exists_cons_of_ne_nil (padded_ne_nil 4 year.toNat)
    rw [hcs, List.cons_append]
    exact skipBlank_of_not (isBlank_of_isDigit (hdigits c (by simp [hcs]))) _
  · have hminus : Text.isBlank '-' = false := by decide
    have hplus : Text.isBlank '+' = false := by decide
    split
    · rw [String.toList_append, List.append_assoc]
      exact skipBlank_of_not hminus _
    · rw [String.toList_append, List.append_assoc]
      exact skipBlank_of_not hplus _

/-- A fraction is read in nanoseconds, however many digits it has. -/
theorem readFraction_padded {width k : Nat} (hw : 0 < width) (h9 : width ≤ 9)
    (hk : k < 10 ^ width) :
    readFraction (("." ++ padded width k).toList ++ ['Z']) =
      some (k * 10 ^ (9 - width), ['Z']) := by
  have hlen := Number.length_padded hw hk
  have hdigits : ∀ c ∈ (padded width k).toList, isDigit c = true :=
    fun _ => Number.isDigit_of_mem_padded
  have hne := padded_ne_nil width k
  have hvalue := Number.ofDigits_padded width k
  have hZ : isDigit 'Z' = false := by decide
  have htext : ("." ++ padded width k).toList ++ ['Z'] =
      '.' :: ((padded width k).toList ++ ['Z']) := by
    simp
  rw [htext]
  generalize (padded width k).toList = ds at hlen hdigits hne hvalue
  have htake : ((ds ++ ['Z']).take 9).takeWhile isDigit = ds := by
    rw [List.take_append, List.take_of_length_le (by omega),
      List.takeWhile_append_of_pos hdigits]
    cases 9 - ds.length with
    | zero => simp
    | succ n => simp [hZ]
  have hrest : ((ds ++ ['Z']).drop ds.length).dropWhile isDigit = ['Z'] := by
    rw [List.drop_left]
    simp [hZ]
  simp only [readFraction, htake, List.isEmpty_eq_false_iff.2 hne, Bool.false_eq_true,
    ↓reduceIte, hvalue, hrest, Number.tenTo_eq]
  rw [hlen]

theorem readFraction_renderFraction {nanos : Nat} (h : nanos < 1000000000) :
    readFraction ((renderFraction nanos).toList ++ ['Z']) = some (nanos, ['Z']) := by
  unfold renderFraction
  split
  · rename_i hzero
    rw [hzero]
    rfl
  · split
    · rw [readFraction_padded (by omega) (by omega) (by omega)]
      have hmillis : nanos / 1000000 * 10 ^ (9 - 3) = nanos := by omega
      rw [hmillis]
    · split
      · rw [readFraction_padded (by omega) (by omega) (by omega)]
        have hmicros : nanos / 1000 * 10 ^ (9 - 6) = nanos := by omega
        rw [hmicros]
      · rw [readFraction_padded (by omega) (by omega) (by omega)]
        simp

/-- A time of day on a date, as it is written down: the second 60 is a leap second. -/
structure Moment where
  year : Int
  month : Nat
  day : Nat
  hour : Nat
  minute : Nat
  second : Nat
  nanos : Nat

namespace Moment

def text (m : Moment) : List Char :=
  (renderYear m.year).toList ++ '-' :: ((padded 2 m.month).toList ++
    '-' :: ((padded 2 m.day).toList ++ 'T' :: ((padded 2 m.hour).toList ++
    ':' :: ((padded 2 m.minute).toList ++ ':' :: ((padded 2 m.second).toList ++
    ((renderFraction m.nanos).toList ++ ['Z']))))))

def date (m : Moment) : Date :=
  ⟨m.year, m.month, m.day⟩

def timestamp (m : Moment) : Timestamp :=
  ⟨m.date.toDays * 86400 + m.hour * 3600 + m.minute * 60 +
      (if m.second = 60 then 59 else m.second : Nat),
    m.nanos + if m.second = 60 then 1000000000 else 0⟩

/-- The moment is one the reader takes. -/
structure Sound (m : Moment) : Prop where
  year : yearInRange m.year = true
  month : 1 ≤ m.month ∧ m.month ≤ 12
  day : 1 ≤ m.day ∧ m.day ≤ 31
  hour : m.hour ≤ 23
  minute : m.minute ≤ 59
  second : m.second ≤ 60
  nanos : m.nanos < 1000000000
  valid : m.date.isValid = true

end Moment

/-- What is read when every part of a text is. -/
theorem read?_of_parts {text : String} {m : Moment} {a b c d e f g : List Char}
    (hyear : readSigned (Text.skipBlank text.toList) = some (m.year, a))
    (hmonth : readNext '-' 1 12 a = some (m.month, b))
    (hday : readNext '-' 1 31 b = some (m.day, 'T' :: c))
    (hhour : readPair 0 23 c = some (m.hour, d))
    (hminute : readNext ':' 0 59 d = some (m.minute, e))
    (hsecond : readNext ':' 0 60 e = some (m.second, f))
    (hfraction : readFraction f = some (m.nanos, g))
    (hoffset : readOffset (Text.skipBlank g) = some (0, []))
    (hrange : yearInRange m.year = true) (hvalid : m.date.isValid = true) :
    read? text = some m.timestamp := by
  have hT : ('T' == 't' || 'T' == 'T' || 'T' == ' ') = true := by decide
  have hblank : (Text.skipBlank []).isEmpty = true := rfl
  have hsmall : decide ((0 : Int).natAbs < 86400) = true := by decide
  rw [Moment.date] at hvalid
  unfold read?
  simp only [hyear, hmonth, hday, hhour, hminute, hsecond, hfraction, hoffset, hT, hblank,
    hrange, hvalid, hsmall, Option.bind_eq_bind, Option.bind_some, Bool.and_self,
    ↓reduceIte, Int.sub_zero, beq_iff_eq]
  rfl

theorem Moment.Sound.read? {m : Moment} (h : m.Sound) {text : String}
    (htext : text.toList = m.text) : Timestamp.read? text = some m.timestamp := by
  have hminus : ∀ (cs : List Char) c, ('-' :: cs).head? = some c → isDigit c = false := by
    rintro cs c ⟨⟩
    decide
  have hdash : Text.isBlank '-' = false := by decide
  have hcolon : Text.isBlank ':' = false := by decide
  have hmonth := readNext_padded h.month.1 h.month.2 (by omega) hdash
  have hday := readNext_padded h.day.1 h.day.2 (by omega) hdash
  have hhour := readPair_padded (Nat.zero_le m.hour) h.hour (by omega)
  have hminute := readNext_padded (Nat.zero_le m.minute) h.minute (by omega) hcolon
  have hsecond := readNext_padded (Nat.zero_le m.second) h.second (by omega) hcolon
  refine read?_of_parts ?_ (hmonth _) (hday _) (hhour _) (hminute _) (hsecond _)
    (readFraction_renderFraction h.nanos) ?_ h.year h.valid
  · rw [htext, Moment.text, skipBlank_renderYear, readSigned_renderYear _ (hminus _)]
  · simp [Text.skipBlank, Text.isBlank, readOffset]

/-! ## The times a clock can show -/

/-- The date is one of the calendar, and a leap second ends a minute. -/
structure Valid (t : Timestamp) : Prop where
  year : yearInRange (Date.ofDays (t.seconds / 86400)).year = true
  nanos : t.nanos < 2000000000
  leap : 1000000000 ≤ t.nanos → t.seconds % 60 = 59

/-- The moment a time is written as. -/
def moment (t : Timestamp) : Moment :=
  let date := Date.ofDays (t.seconds / 86400)
  let ofDay := (t.seconds % 86400).toNat
  let leap := 1000000000 ≤ t.nanos
  ⟨date.year, date.month.toNat, date.day.toNat, ofDay / 3600, ofDay / 60 % 60,
    ofDay % 60 + if leap then 1 else 0, if leap then t.nanos - 1000000000 else t.nanos⟩

theorem render_eq_text (t : Timestamp) : t.render.toList = t.moment.text := by
  simp [render, Moment.text, moment]

theorem date_moment (t : Timestamp) : t.moment.date = Date.ofDays (t.seconds / 86400) := by
  obtain ⟨hmonth, -, hday, -⟩ := Date.bounds_ofDays (t.seconds / 86400)
  simp only [moment, Moment.date]
  generalize Date.ofDays (t.seconds / 86400) = d at hmonth hday
  obtain ⟨year, month, day⟩ := d
  simp only [Date.mk.injEq, true_and]
  simp only at hmonth hday
  omega

namespace Valid

variable {t : Timestamp} (h : t.Valid)

include h

theorem sound_moment : t.moment.Sound := by
  have hbounds := Date.bounds_ofDays (t.seconds / 86400)
  have hvalid := Date.isValid_ofDays (t.seconds / 86400)
  have hnanos := h.nanos
  have hleap := h.leap
  rw [← date_moment] at hvalid
  constructor
  case year => exact h.year
  case valid => exact hvalid
  case second =>
    simp only [moment]
    split <;> omega
  case nanos =>
    simp only [moment]
    split <;> omega
  all_goals
    simp only [moment]
    omega

theorem timestamp_moment : t.moment.timestamp = t := by
  have hdays : t.moment.date.toDays = t.seconds / 86400 := by
    rw [date_moment, Date.toDays_ofDays]
  have hnanos := h.nanos
  have hleap := h.leap
  rw [Moment.timestamp, hdays]
  obtain ⟨seconds, nanos⟩ := t
  simp only [moment, Timestamp.mk.injEq] at hnanos hleap ⊢
  by_cases hlate : 1000000000 ≤ nanos
  · have hlast := hleap hlate
    have hsixty : (seconds % 86400).toNat % 60 + 1 = 60 := by omega
    rw [if_pos hlate, if_pos hlate, hsixty]
    simp only [↓reduceIte]
    omega
  · have hsixty : ¬ (seconds % 86400).toNat % 60 + 0 = 60 := by omega
    rw [if_neg hlate, if_neg hlate, if_neg hsixty, if_neg hsixty]
    omega

theorem read?_render : read? t.render = some t := by
  rw [h.sound_moment.read? (render_eq_text t), h.timestamp_moment]

end Valid

/-- The last millisecond that has a date. -/
def lastMillis : Nat := 8210266876799999

theorem valid_ofMillis {ms : Nat} (h : ms ≤ lastMillis) : (ofMillis ms).Valid := by
  simp only [lastMillis] at h
  have hfirst : 0 ≤ (ofMillis ms).seconds / 86400 := by
    simp only [ofMillis]
    omega
  have hlast : (ofMillis ms).seconds / 86400 ≤ lastDay := by
    simp only [ofMillis, lastDay]
    omega
  have hyear := Date.year_ofDays hfirst hlast
  constructor
  case year =>
    simp only [yearInRange, Bool.and_eq_true, decide_eq_true_eq]
    omega
  all_goals
    simp only [ofMillis]
    omega

end Timestamp

end Compliance.Time
