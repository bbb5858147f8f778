import Compliance.Json.Decode
import Compliance.Json.Printer
import Compliance.Json.Reader
import Compliance.Proofs.Number.ReadingBack

/-!
# Numbers in JSON texts

A number is written in one of three shapes: digits alone, digits around a
point, digits with an exponent.  The reader takes each of them apart again, and
only digits alone make a whole number.  In every layout the number that is read
is the one that was written, but for the sign of zero where it is left out.
-/

namespace Compliance.Number.Layout

/-- The sign a number is written with. -/
def sign (l : Layout) (x : Binary64) : Bool :=
  x.isNegative && (l.signedZero || !x.isZero)

/-- What is left of a number when it is written down. -/
def kept (l : Layout) (x : Binary64) : Binary64 :=
  if l.signedZero then x else x.unsigned

theorem isFinite_kept (l : Layout) {x : Binary64} (hx : x.isFinite = true) :
    (l.kept x).isFinite = true := by
  unfold kept
  split
  · exact hx
  · exact Binary64.isFinite_unsigned hx

end Compliance.Number.Layout

namespace Compliance.Json

open Compliance.Number

/-- The text behind a number does not go on with it. -/
def Stops (rest : List Char) : Prop :=
  ∀ c, rest.head? = some c → isDigit c = false ∧ c ≠ '.' ∧ c ≠ 'e' ∧ c ≠ 'E'

theorem Stops.no_digit {rest : List Char} (h : Stops rest) :
    ∀ c, rest.head? = some c → isDigit c = false :=
  fun c hc => (h c hc).1

theorem readDigits_append {ds rest : List Char} (hne : ds ≠ [])
    (hds : ∀ c ∈ ds, isDigit c = true)
    (hrest : ∀ c, rest.head? = some c → isDigit c = false) :
    readDigits (ds ++ rest) = some (ds, rest) := by
  unfold readDigits
  rw [span_digits hds hrest]
  simp [hne]

/-- A zero stands alone in front, or other digits than zero do. -/
def WholeDigits (ds : List Char) : Prop :=
  ds = ['0'] ∨ ds ≠ [] ∧ ds.head? ≠ some '0' ∧ ∀ c ∈ ds, isDigit c = true

theorem readWhole_append {ds rest : List Char} (h : WholeDigits ds)
    (hrest : ∀ c, rest.head? = some c → isDigit c = false) :
    readWhole (ds ++ rest) = some (ds, rest) := by
  rcases h with rfl | ⟨hne, hhead, hds⟩
  · rfl
  · unfold readWhole
    split
    · rename_i tail htail
      cases ds with
      | nil => exact absurd rfl hne
      | cons c cs =>
          simp only [List.cons_append, List.cons.injEq] at htail
          exact absurd (congrArg some htail.1) hhead
    · exact readDigits_append hne hds hrest

theorem wholeDigits_digits (n : Nat) : WholeDigits (digits n) := by
  rcases Nat.eq_zero_or_pos n with rfl | hn
  · exact Or.inl digits_zero
  · exact Or.inr ⟨digits_ne_nil n, head_digits_ne_zero hn, fun _ => isDigit_of_mem_digits⟩

/-- A text that has no exponent at its front. -/
theorem readExponent_of_stops {rest : List Char} (h : Stops rest) :
    readExponent rest = some (none, rest) := by
  unfold readExponent
  cases rest with
  | nil => rfl
  | cons c cs =>
      obtain ⟨-, -, he, hE⟩ := h c rfl
      simp [he, hE]

theorem readFraction_of_ne {rest : List Char} (h : rest.head? ≠ some '.') :
    readFraction rest = some (none, rest) := by
  unfold readFraction
  split
  · rename_i tail
    exact absurd rfl h
  · rfl

theorem readFraction_point {ds rest : List Char} (hne : ds ≠ [])
    (hds : ∀ c ∈ ds, isDigit c = true)
    (hrest : ∀ c, rest.head? = some c → isDigit c = false) :
    readFraction ('.' :: (ds ++ rest)) = some (some ds, rest) := by
  simp [readFraction, readDigits_append hne hds hrest]

theorem isDigit_minus : isDigit '-' = false := by decide

theorem readExponent_e (negative : Bool) {ds rest : List Char} (hne : ds ≠ [])
    (hds : ∀ c ∈ ds, isDigit c = true)
    (hrest : ∀ c, rest.head? = some c → isDigit c = false) :
    readExponent ('e' :: (if negative then '-' else '+') :: (ds ++ rest)) =
      some (some (negative, ds), rest) := by
  cases negative <;> simp [readExponent, readDigits_append hne hds hrest]

/-- The sign in front of a number. -/
def signed (negative : Bool) (cs : List Char) : List Char :=
  if negative then '-' :: cs else cs

theorem readNumber_signed (negative : Bool) {ds cs : List Char} (h : WholeDigits ds)
    (hcs : ∀ c, cs.head? = some c → isDigit c = false) :
    readNumber (signed negative (ds ++ cs)) = (do
      let (fraction, cs) ← readFraction cs
      let (exponent, cs) ← readExponent cs
      return (⟨negative, ds, fraction, exponent⟩, cs)) := by
  have hwhole := readWhole_append h hcs
  cases negative with
  | true => simp [signed, readNumber, hwhole]
  | false =>
      have hsign : ∀ tail, ds ++ cs ≠ '-' :: tail := by
        intro tail heq
        rcases h with rfl | ⟨hne, hhead, hds⟩
        · simp at heq
        · cases ds with
          | nil => exact hne rfl
          | cons c rest =>
              simp only [List.cons_append, List.cons.injEq] at heq
              have hc := hds c List.mem_cons_self
              rw [heq.1, isDigit_minus] at hc
              cases hc
      unfold readNumber
      simp [signed, hwhole]

/-! ## What is read has the value that was written -/

/-- The power of ten a number text names. -/
def NumberText.power (t : NumberText) : Int :=
  match t.exponent with
  | none => 0
  | some (negative, ds) => if negative then -(ofDigits ds : Int) else ofDigits ds

/-- The number a text stands for. -/
def NumberText.real (t : NumberText) : Binary64 :=
  .ofDecimal t.negative (ofDigits (t.whole ++ t.fraction.getD []))
    (t.power - (t.fraction.getD []).length)

theorem NumberText.value_real {t : NumberText}
    (h : (t.fraction.isSome || t.exponent.isSome) = true) :
    t.value = if t.real.isFinite then number (.real t.real) else unreadable := by
  unfold NumberText.value
  simp only [h, ↓reduceIte]
  rfl

/-- Whole or not, the value of a text is the number it stands for. -/
theorem NumberText.binary64?_value {t : NumberText} (h : t.real.isFinite = true) :
    binary64? t.value = some t.real := by
  cases hmarked : t.fraction.isSome || t.exponent.isSome with
  | true =>
      rw [value_real hmarked, if_pos h]
      rfl
  | false =>
      obtain ⟨negative, whole, fraction, exponent⟩ := t
      simp only [Bool.or_eq_false_iff, Option.isSome_eq_false_iff, Option.isNone_iff_eq_none]
        at hmarked
      obtain ⟨rfl, rfl⟩ := hmarked
      have hreal : real ⟨negative, whole, none, none⟩ =
          .ofDecimal negative (ofDigits whole) 0 := by
        simp [real, power]
      rw [hreal] at h ⊢
      simp only [value, Option.getD_none, List.append_nil, Option.isSome_none, Bool.or_self,
        Bool.false_eq_true, ↓reduceIte, List.length_nil, Nat.cast_zero, Int.sub_zero]
      cases negative with
      | true =>
          simp only [↓reduceIte, h]
          split
          · rename_i hsmall
            exact congrArg some (Binary64.ofInt_neg hsmall.1)
          · rfl
      | false =>
          simp only [Bool.false_eq_true, ↓reduceIte, h]
          split
          · exact congrArg some (Binary64.ofInt_natCast _)
          · rfl

/-- The text is taken apart in this way, whatever stops it. -/
def Scans (text : List Char) (t : NumberText) : Prop :=
  ∀ rest, Stops rest → readNumber (text ++ rest) = some (t, rest)

theorem signed_append (negative : Bool) (cs rest : List Char) :
    signed negative cs ++ rest = signed negative (cs ++ rest) := by
  cases negative <;> rfl

section Scan

variable (negative : Bool) {ds : List Char} (hds : WholeDigits ds)

include hds

theorem scans_fraction {fs : List Char} (hne : fs ≠ []) (hfs : ∀ c ∈ fs, isDigit c = true) :
    Scans (signed negative (ds ++ '.' :: fs)) ⟨negative, ds, some fs, none⟩ := by
  intro rest hrest
  have hpoint : ∀ c, ('.' :: (fs ++ rest)).head? = some c → isDigit c = false := by
    rintro c ⟨⟩
    decide
  rw [signed_append, List.append_assoc, List.cons_append,
    readNumber_signed negative hds hpoint, readFraction_point hne hfs hrest.no_digit]
  simp [readExponent_of_stops hrest]

theorem scans_exponent {fs es : List Char} (hfs : ∀ c ∈ fs, isDigit c = true) (hne : es ≠ [])
    (hes : ∀ c ∈ es, isDigit c = true) (down : Bool) :
    Scans (signed negative (ds ++ ((if fs = [] then [] else '.' :: fs) ++
        'e' :: (if down then '-' else '+') :: es)))
      ⟨negative, ds, if fs = [] then none else some fs, some (down, es)⟩ := by
  intro rest hrest
  have hexponent := readExponent_e down hne hes hrest.no_digit
  have he : ∀ (cs : List Char) c, ('e' :: cs).head? = some c → isDigit c = false := by
    rintro cs c ⟨⟩
    decide
  rw [signed_append]
  by_cases h : fs = []
  · simp only [h, ↓reduceIte, List.nil_append, List.append_assoc, List.cons_append]
    rw [readNumber_signed negative hds (he _), readFraction_of_ne (by simp)]
    simp [hexponent]
  · have hpoint : ∀ (cs : List Char) c, ('.' :: cs).head? = some c → isDigit c = false := by
      rintro cs c ⟨⟩
      decide
    simp only [h, ↓reduceIte, List.cons_append, List.append_assoc]
    rw [readNumber_signed negative hds (hpoint _), readFraction_point h hfs (he _)]
    simp [hexponent]

theorem scans_whole : Scans (signed negative ds) ⟨negative, ds, none, none⟩ := by
  intro rest hrest
  have hpoint : rest.head? ≠ some '.' := by
    intro h
    exact (hrest '.' h).2.1 rfl
  rw [signed_append, readNumber_signed negative hds hrest.no_digit, readFraction_of_ne hpoint]
  simp [readExponent_of_stops hrest]

end Scan

/-- Zero as it is written, or a number with a digit in front that is not zero. -/
def Plain (d : Scientific) : Prop :=
  d = ⟨0, 0⟩ ∨ 0 < d.significand

theorem wholeDigits_take {n k : Nat} (hn : 0 < n) (hk : 0 < k) :
    WholeDigits ((digits n).take k) := by
  refine Or.inr ⟨?_, ?_, fun c hc => isDigit_of_mem_digits (List.mem_of_mem_take hc)⟩
  · intro h
    rcases List.take_eq_nil_iff.1 h with h | h
    · omega
    · exact digits_ne_nil n h
  · rw [List.head?_take, if_neg (by omega)]
    exact head_digits_ne_zero hn

theorem wholeDigits_append_zeros {n : Nat} (hn : 0 < n) (k : Nat) :
    WholeDigits (digits n ++ List.replicate k '0') := by
  rw [← digits_mul_pow hn]
  exact wholeDigits_digits _

theorem Plain.wholeDigits {s k : Nat} (h : Plain ⟨s, k⟩) :
    WholeDigits (digits s ++ List.replicate k '0') := by
  rcases h with h | hs
  · simp only [Scientific.mk.injEq] at h
    obtain ⟨rfl, hk⟩ := h
    obtain rfl : k = 0 := by omega
    exact Or.inl (by simp)
  · exact wholeDigits_append_zeros hs k

/-- The text stands for the decimal it was written for, and where the layout asks for
a point it does not pass for a whole number. -/
structure NumberText.Writes (t : NumberText) (l : Layout) (negative : Bool)
    (d : Scientific) : Prop where
  real : t.real = .ofDecimal negative d.significand d.exponent
  marked : l.pointZero = true → (t.fraction.isSome || t.exponent.isSome) = true

section Place

variable (l : Layout) (negative : Bool)

/-- Zeros and digits behind a point in front. -/
theorem scans_point_first (s : Nat) {e : Int} {k : Nat} (hk : e + (digits s).length + k = 0) :
    ∃ t, Scans (signed negative ('0' :: '.' :: (List.replicate k '0' ++ digits s))) t ∧
      t.Writes l negative ⟨s, e⟩ := by
  have hwhole : WholeDigits ['0'] := Or.inl rfl
  have hne : List.replicate k '0' ++ digits s ≠ [] := by simp [digits_ne_nil]
  have hzeros : ∀ c ∈ List.replicate k '0' ++ digits s, isDigit c = true := by
    intro c hc
    rcases List.mem_append.1 hc with hc | hc
    · rw [List.eq_of_mem_replicate hc]
      rfl
    · exact isDigit_of_mem_digits hc
  refine ⟨_, scans_fraction negative hwhole hne hzeros, ?_, fun _ => rfl⟩
  have hvalue : ofDigits (['0'] ++ (List.replicate k '0' ++ digits s)) = s := by
    simp [ofDigits_append, ofDigits_digits, ofDigits_cons, digitValue]
  have hpower : (0 : Int) - (List.replicate k '0' ++ digits s).length = e := by
    rw [List.length_append, List.length_replicate]
    push_cast
    omega
  simp only [NumberText.real, NumberText.power, Option.getD_some, hvalue, hpower]

/-- Digits and zeros up to the point, or to the end. -/
theorem scans_point_last {s k : Nat} (hd : Plain ⟨s, k⟩) :
    ∃ t, Scans (signed negative (digits s ++ List.replicate k '0' ++
        (if l.pointZero then ['.', '0'] else []))) t ∧ t.Writes l negative ⟨s, k⟩ := by
  have hwhole := hd.wholeDigits
  have hscaled (n : Nat) : ofDigits (digits s ++ List.replicate n '0') = s * 10 ^ n := by
    rw [ofDigits_append, ofDigits_digits, ofDigits_replicate_zero, List.length_replicate,
      Nat.add_zero]
  cases hpoint : l.pointZero with
  | true =>
      have hzero : ∀ c ∈ ['0'], isDigit c = true := by simp [isDigit]
      refine ⟨_, scans_fraction negative hwhole (by simp) hzero, ?_, fun _ => rfl⟩
      have hvalue : ofDigits (digits s ++ List.replicate k '0' ++ ['0']) =
          s * 10 ^ (k + 1) := by
        rw [List.append_assoc, ← List.replicate_succ', hscaled]
      have hpower : (0 : Int) - (1 : Nat) + ((k + 1 : Nat) : Int) = k := by
        push_cast
        omega
      simp only [NumberText.real, NumberText.power, Option.getD_some, hvalue,
        List.length_singleton]
      rw [Binary64.ofDecimal_mul_pow, hpower]
  | false =>
      simp only [Bool.false_eq_true, ↓reduceIte, List.append_nil]
      refine ⟨_, scans_whole negative hwhole, ?_, by simp [hpoint]⟩
      simp only [NumberText.real, NumberText.power, Option.getD_none, List.append_nil,
        hscaled, List.length_nil, Nat.cast_zero, Int.sub_zero]
      rw [Binary64.ofDecimal_mul_pow, Int.zero_add]

/-- Digits on both sides of the point. -/
theorem scans_point_within {s k : Nat} {e : Int} (hk : 0 < k) (hlt : k < (digits s).length)
    (he : e + (digits s).length = k) :
    ∃ t, Scans (signed negative ((digits s).take k ++ '.' :: (digits s).drop k)) t ∧
      t.Writes l negative ⟨s, e⟩ := by
  have hs : 0 < s := by
    rcases Nat.eq_zero_or_pos s with rfl | hs
    · rw [digits_zero, List.length_singleton] at hlt
      omega
    · exact hs
  have hafter : ∀ c ∈ (digits s).drop k, isDigit c = true :=
    fun c hc => isDigit_of_mem_digits (List.mem_of_mem_drop hc)
  have hne : (digits s).drop k ≠ [] := by
    simp
    omega
  refine ⟨_, scans_fraction negative (wholeDigits_take hs hk) hne hafter, ?_, fun _ => rfl⟩
  have hpower : (0 : Int) - ((digits s).drop k).length = e := by
    rw [List.length_drop]
    omega
  simp only [NumberText.real, NumberText.power, Option.getD_some, List.take_append_drop,
    ofDigits_digits, hpower]

variable {d : Scientific} (hd : Plain d)

include hd

theorem scans_place :
    ∃ t, Scans (signed negative (l.place (digits d.significand)
        (d.exponent + (digits d.significand).length - 1))) t ∧ t.Writes l negative d := by
  obtain ⟨s, e⟩ := d
  have hlen := length_digits_pos s
  simp only [Layout.place]
  split
  · exact scans_point_first l negative s (by omega)
  · rename_i hpower
    split
    · rename_i hshort
      obtain ⟨k, rfl⟩ : ∃ k : Nat, e = k := Int.eq_ofNat_of_zero_le (by omega)
      have hzeros : (k + (digits s).length - 1 : Int).toNat + 1 - (digits s).length = k := by
        omega
      rw [hzeros]
      exact scans_point_last l negative hd
    · rename_i hlong
      exact scans_point_within l negative (by omega) (by omega) (by omega)

theorem scans_withExponent :
    ∃ t, Scans (signed negative (Layout.withExponent (digits d.significand)
        (d.exponent + (digits d.significand).length - 1))) t ∧ t.Writes l negative d := by
  obtain ⟨s, e⟩ := d
  have hlen := length_digits_pos s
  have hwhole : WholeDigits ((digits s).take 1) := by
    rcases hd with hd | hd
    · simp only [Scientific.mk.injEq] at hd
      rw [hd.1]
      exact Or.inl (by simp)
    · exact wholeDigits_take hd (by omega)
  obtain ⟨p, hp⟩ : ∃ p, e + (digits s).length - 1 = p := ⟨_, rfl⟩
  have hafter : ∀ c ∈ (digits s).drop 1, isDigit c = true :=
    fun c hc => isDigit_of_mem_digits (List.mem_of_mem_drop hc)
  have hscans := scans_exponent negative hwhole hafter
    (digits_ne_nil p.natAbs) (fun _ => isDigit_of_mem_digits) (decide (p < 0))
  refine ⟨⟨negative, (digits s).take 1, if (digits s).drop 1 = [] then none else
    some ((digits s).drop 1), some (decide (p < 0), digits p.natAbs)⟩, ?_, ?_, by simp⟩
  · have htext : Layout.withExponent (digits s) p = (digits s).take 1 ++
        ((if (digits s).drop 1 = [] then [] else '.' :: (digits s).drop 1) ++
          'e' :: (if decide (p < 0) then '-' else '+') :: digits p.natAbs) := by
      simp only [Layout.withExponent, decide_eq_true_eq]
      cases (digits s).drop 1 with
      | nil => simp
      | cons c cs => simp
    simp only [hp]
    rw [htext]
    exact hscans
  · have hfraction : (if (digits s).drop 1 = [] then none else
        some ((digits s).drop 1)).getD [] = (digits s).drop 1 := by
      split
      · rename_i h
        exact h.symm
      · rfl
    have hsigned : (if p < 0 then -(p.natAbs : Int) else p.natAbs) = p := by
      split <;> omega
    have hpower : p - ((digits s).drop 1).length = e := by
      rw [List.length_drop]
      omega
    simp only [NumberText.real, NumberText.power, hfraction, decide_eq_true_eq,
      ofDigits_digits, hsigned, List.take_append_drop, hpower]

theorem scans_write : ∃ t, Scans (signed negative (l.write d)) t ∧ t.Writes l negative d := by
  simp only [Layout.write]
  split
  · exact scans_place l negative hd
  · exact scans_withExponent l negative hd

end Place

/-! ## Numerals -/

/-- The whole numbers of 64 bits, with or without a sign, and the finite ones. -/
def Numeral.Fits : Numeral → Prop
  | .whole i => -2 ^ 63 ≤ i ∧ i < 2 ^ 64
  | .real x => x.isFinite = true

theorem render_real (l : Layout) {x : Binary64} (hx : x.isFinite = true) :
    ∃ d, Plain d ∧ Binary64.ofDecimal (l.sign x) d.significand d.exponent = l.kept x ∧
      Numeral.render l (.real x) = signed (l.sign x) (l.write d) := by
  have hnan := Binary64.isNaN_eq_false hx
  have hsigned (cs : List Char) :
      (String.ofList (if l.sign x = true then '-' :: cs else cs)).toList =
        signed (l.sign x) cs := by
    rw [String.toList_ofList]
    rfl
  cases hz : x.isZero with
  | true =>
      refine ⟨⟨0, 0⟩, Or.inl rfl, ?_, ?_⟩
      · have hm : x.magnitude = 0 := by simpa [Binary64.isZero] using hz
        have hback := Binary64.ofMagnitude_magnitude x
        rw [hm] at hback
        cases hs : l.signedZero with
        | true =>
            simp only [Layout.sign, Layout.kept, hs, Bool.true_or, Bool.and_true, ↓reduceIte]
            exact hback
        | false =>
            simp only [Layout.sign, Layout.kept, hs, hz, Binary64.unsigned, Bool.not_true,
              Bool.or_self, Bool.and_false, Bool.false_eq_true, ↓reduceIte]
            rfl
      · rw [← hsigned]
        simp [Numeral.render, hx, Layout.render, hnan, hz, Layout.sign]
  | false =>
      have hback := Binary64.ofDecimal_shortest hx
      have hpos : 0 < x.shortest.significand := by
        rcases Nat.eq_zero_or_pos x.shortest.significand with h | h
        · rw [h] at hback
          have hzero : (Binary64.ofMagnitude x.isNegative 0).isZero = true := by
            cases x.isNegative <;> decide
          have hx0 : Binary64.ofMagnitude x.isNegative 0 = x := hback
          rw [hx0, hz] at hzero
          cases hzero
        · exact h
      refine ⟨x.shortest, Or.inr hpos, ?_, ?_⟩
      · simp only [Layout.sign, Layout.kept, hz, Binary64.unsigned, Bool.not_false,
          Bool.or_true, Bool.and_true, Bool.false_eq_true, ↓reduceIte, ite_self, hback]
      · rw [← hsigned]
        simp [Numeral.render, hx, Layout.render, hnan, hz, Layout.sign]

/-- In any layout a finite number is read as what is left of it. -/
theorem scans_real (l : Layout) {x : Binary64} (hx : x.isFinite = true) :
    ∃ t, Scans (Numeral.render l (.real x)) t ∧ t.real = l.kept x ∧
      (l.pointZero = true → (t.fraction.isSome || t.exponent.isSome) = true) := by
  obtain ⟨d, hd, hback, hrender⟩ := render_real l hx
  obtain ⟨t, hscans, hwrites⟩ := scans_write l (l.sign x) hd
  exact ⟨t, hrender ▸ hscans, hwrites.real.trans hback, hwrites.marked⟩

theorem toList_decimalInt (i : Int) :
    (decimalInt i).toList = signed (decide (i < 0)) (digits i.natAbs) := by
  unfold decimalInt
  split
  · rename_i h
    simp [signed, h, decimal]
  · rename_i h
    simp [signed, h, decimal]

theorem scans_render {n : Numeral} (hn : n.Fits) :
    ∃ t, Scans (n.render .artifact) t ∧ t.value = number n := by
  cases n with
  | whole i =>
      obtain ⟨hlow, hhigh⟩ := hn
      simp only [Numeral.render]
      rw [toList_decimalInt]
      refine ⟨_, scans_whole _ (wholeDigits_digits _), ?_⟩
      simp only [NumberText.value, Option.isSome_none, Bool.or_self, Bool.false_eq_true,
        ↓reduceIte, Option.getD_none, List.append_nil, ofDigits_digits, decide_eq_true_eq,
        twoTo_eq]
      by_cases hi : i < 0
      · have hbounds : 0 < i.natAbs ∧ i.natAbs ≤ 2 ^ 63 := by omega
        have hback : -(i.natAbs : Int) = i := by omega
        rw [if_pos hi, if_pos hbounds, hback]
      · have hbound : i.natAbs < 2 ^ 64 := by omega
        have hback : (i.natAbs : Int) = i := by omega
        rw [if_neg hi, if_pos hbound, hback]
  | real x =>
      obtain ⟨t, hscans, hreal, hmarked⟩ := scans_real .artifact hn
      refine ⟨t, hscans, ?_⟩
      have hkept : t.real = x := hreal
      have hfinite : x.isFinite = true := hn
      rw [NumberText.value_real (hmarked rfl), hkept, if_pos hfinite]

/-- In the canonical layout a finite number is read without the sign of zero. -/
theorem scans_canonical {x : Binary64} (hx : x.isFinite = true) :
    ∃ t, Scans (Numeral.render .canonical (.real x)) t ∧
      binary64? t.value = some x.unsigned := by
  obtain ⟨t, hscans, hreal, -⟩ := scans_real .canonical hx
  have hfinite := Layout.isFinite_kept .canonical hx
  rw [← hreal] at hfinite
  exact ⟨t, hscans, (NumberText.binary64?_value hfinite).trans (congrArg some hreal)⟩

/-- In the canonical layout both zeros are written alike. -/
theorem render_unsigned (x : Number.Binary64) :
    Numeral.render .canonical (.real x.unsigned) = Numeral.render .canonical (.real x) := by
  have hzero (y : Number.Binary64) (hy : y.isZero = true) :
      Numeral.render .canonical (.real y) = Number.Layout.canonical.write ⟨0, 0⟩ := by
    have hm : y.magnitude = 0 := by simpa [Number.Binary64.isZero] using hy
    have hfinite : y.isFinite = true := by
      rw [Number.Binary64.isFinite, hm]
      decide
    simp [Numeral.render, Number.Layout.render, hfinite, Number.Binary64.isNaN_eq_false hfinite,
      hy, Number.Layout.canonical]
  unfold Number.Binary64.unsigned
  split
  · rename_i hx
    rw [hzero x hx, hzero .zero (by decide)]
  · rfl

end Compliance.Json
