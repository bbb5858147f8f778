import Compliance.Proofs.Number.Layout

/-!
# Printed JSON reads back

Texts, numbers and containers are read back one by one, in either style.  What
a value needs for it: numerals that fit, no unreadable part, and no more
containers inside each other than the reader follows.
-/

namespace Compliance.Json

open Compliance.Number (isDigit)

/-! ## Texts -/

theorem hexValue?_hexDigit {d : Nat} (h : d < 16) : hexValue? (hexDigit d) = some d := by
  have hall : ∀ k : Fin 16, hexValue? (hexDigit k.1) = some k.1 := by decide
  exact hall ⟨d, h⟩

theorem readText_letter {c e : Char} (h : escaped? e = some c) (rest : List Char) :
    readText none ('\\' :: e :: rest) = (readText none rest).map (.push c) := by
  have hu : e ≠ 'u' := by
    rintro rfl
    simp [escaped?] at h
  rw [readText.eq_def]
  split
  · rename_i heq
    simp at heq
  · rename_i heq
    simp at heq
  · rename_i heq
    simp only [List.cons.injEq] at heq
    exact absurd heq.2.1 hu
  · rename_i heq
    simp only [List.cons.injEq, true_and] at heq
    obtain ⟨rfl, rfl⟩ := heq
    simp [h]
  · rename_i hne heq
    simp only [List.cons.injEq] at heq
    exact (hne e rest heq.1.symm heq.2.symm).elim

theorem readText_plain {c : Char} (hquote : c ≠ '"') (hslash : c ≠ '\\')
    (hcontrol : ¬ c.toNat < 0x20) (rest : List Char) :
    readText none (c :: rest) = (readText none rest).map (.push c) := by
  rw [readText.eq_def]
  split
  · rename_i heq
    cases heq
  · rename_i heq
    exact absurd (List.cons.inj heq).1 hquote
  · rename_i heq
    exact absurd (List.cons.inj heq).1 hslash
  · rename_i heq
    exact absurd (List.cons.inj heq).1 hslash
  · rename_i heq
    obtain ⟨rfl, rfl⟩ := List.cons.inj heq
    simp [hcontrol, hslash]

theorem readText_control {c : Char} (hcontrol : c.toNat < 0x20) (rest : List Char) :
    readText none ('\\' :: 'u' :: '0' :: '0' :: hexDigit (c.toNat / 16) ::
      hexDigit (c.toNat % 16) :: rest) = (readText none rest).map (.push c) := by
  have hhigh := hexValue?_hexDigit (d := c.toNat / 16) (by omega)
  have hlow := hexValue?_hexDigit (d := c.toNat % 16) (by omega)
  have hzero : hexValue? '0' = some 0 := rfl
  have hcode : c.toNat / 16 * 16 + c.toNat % 16 = c.toNat := by omega
  have hlead : ¬ (0xD800 ≤ c.toNat ∧ c.toNat < 0xDC00) := by omega
  have htrail : ¬ (0xDC00 ≤ c.toNat ∧ c.toNat < 0xE000) := by omega
  simp [readText, hexFour?, hhigh, hlow, hzero, hcode, hlead, htrail, Char.ofNat_toNat]

theorem readText_escape (c : Char) (rest : List Char) :
    readText none (escape c ++ rest) = (readText none rest).map (.push c) := by
  unfold escape
  split
  · rename_i h
    subst h
    exact readText_letter (e := '"') rfl rest
  split
  · rename_i h
    subst h
    exact readText_letter (e := '\\') rfl rest
  split
  · rename_i h
    subst h
    exact readText_letter (e := 'n') rfl rest
  split
  · rename_i h
    subst h
    exact readText_letter (e := 'r') rfl rest
  split
  · rename_i h
    subst h
    exact readText_letter (e := 't') rfl rest
  split
  · rename_i h
    subst h
    exact readText_letter (e := 'b') rfl rest
  split
  · rename_i h
    subst h
    exact readText_letter (e := 'f') rfl rest
  split
  · rename_i hcontrol
    exact readText_control hcontrol rest
  · rename_i hquote hslash _ _ _ _ _ hcontrol
    exact readText_plain hquote hslash hcontrol rest

theorem readText_escapeAll (cs rest : List Char) :
    readText none (escapeAll cs ++ '"' :: rest) = some (some cs, rest) := by
  induction cs with
  | nil => simp [readText]
  | cons c cs ih =>
      rw [escapeAll_cons, List.append_assoc, readText_escape, ih]
      rfl

/-! ## Blanks -/

theorem skipSpace_append {blanks : List Char} (h : ∀ c ∈ blanks, isSpace c = true)
    (cs : List Char) : skipSpace (blanks ++ cs) = skipSpace cs := by
  exact List.dropWhile_append_of_pos h

theorem skipSpace_cons {c : Char} (h : isSpace c = false) (cs : List Char) :
    skipSpace (c :: cs) = c :: cs := by
  simp [skipSpace, h]

theorem isSpace_of_mem_break {style : Style} {level : Nat} {c : Char}
    (h : c ∈ style.break level) : isSpace c = true := by
  cases style with
  | compact => simp [Style.break] at h
  | pretty =>
      rcases List.mem_cons.1 h with rfl | h
      · rfl
      · rw [List.eq_of_mem_replicate h]
        rfl

theorem stops_cons {c : Char} (h : isDigit c = false ∧ c ≠ '.' ∧ c ≠ 'e' ∧ c ≠ 'E')
    (rest : List Char) : Stops (c :: rest) := by
  rintro d ⟨⟩
  exact h

/-- Blanks in front of what ends any number end it too. -/
theorem stops_blanks {blanks rest : List Char} (hb : ∀ c ∈ blanks, isSpace c = true)
    (h : Stops rest) : Stops (blanks ++ rest) := by
  cases blanks with
  | nil => exact h
  | cons c cs =>
      have hc := hb c List.mem_cons_self
      simp only [isSpace, Bool.or_eq_true, beq_iff_eq] at hc
      apply stops_cons
      rcases hc with ((rfl | rfl) | rfl) | rfl
      all_goals decide

theorem skipSpace_closing {blanks : List Char} (hb : ∀ c ∈ blanks, isSpace c = true) {c : Char}
    (hc : isSpace c = false) (rest : List Char) :
    skipSpace (blanks ++ c :: rest) = c :: rest := by
  rw [skipSpace_append hb, skipSpace_cons hc]

/-! ## One value -/

/-- No value starts with a blank or with a closing bracket. -/
def Opens (cs : List Char) : Prop :=
  ∃ c rest, cs = c :: rest ∧ isSpace c = false ∧ c ≠ ']' ∧ c ≠ '\x7d'

/-- What is read as a number starts with a digit or a sign. -/
theorem head_of_readNumber {cs : List Char} {r : NumberText × List Char}
    (h : readNumber cs = some r) :
    ∃ c rest, cs = c :: rest ∧ (isDigit c = true ∨ c = '-') := by
  cases cs with
  | nil => simp [readNumber, readWhole, readDigits] at h
  | cons c rest =>
      refine ⟨c, rest, rfl, ?_⟩
      by_contra hc
      simp only [not_or, Bool.not_eq_true] at hc
      obtain ⟨hdigit, hsign⟩ := hc
      have hzero : c ≠ '0' := by
        rintro rfl
        simp [isDigit] at hdigit
      have hwhole : readWhole (c :: rest) = none := by
        simp [readWhole, hzero, readDigits, hdigit]
      simp [readNumber, hsign, hwhole] at h

theorem head_ne {c d : Char} (hc : isDigit c = true ∨ c = '-') (hd : isDigit d = false)
    (hsign : d ≠ '-') : c ≠ d := by
  rintro rfl
  rcases hc with h | h
  · rw [hd] at h
    cases h
  · exact hsign h

theorem isSpace_eq_false {c : Char} (hc : isDigit c = true ∨ c = '-') :
    isSpace c = false ∧ c ≠ ']' ∧ c ≠ '\x7d' := by
  have hdiffers (d : Char) := head_ne (d := d) hc
  refine ⟨?_, hdiffers ']' (by decide) (by decide), hdiffers '\x7d' (by decide) (by decide)⟩
  simp [isSpace, hdiffers ' ' (by decide) (by decide), hdiffers '\n' (by decide) (by decide),
    hdiffers '\t' (by decide) (by decide), hdiffers '\r' (by decide) (by decide)]

theorem readValue_number (fuel depth : Nat) {c : Char} {cs : List Char}
    (hc : isDigit c = true ∨ c = '-') :
    readValue (fuel + 1) depth (c :: cs) =
      (readNumber (c :: cs)).map fun (t, rest) => (t.value, rest) := by
  have hdiffers (d : Char) := head_ne (d := d) hc
  rw [readValue.eq_def]
  simp only
  split
  · rename_i heq
    exact absurd (List.cons.inj heq).1 (hdiffers _ (by decide) (by decide))
  · rename_i heq
    exact absurd (List.cons.inj heq).1 (hdiffers _ (by decide) (by decide))
  · rename_i heq
    exact absurd (List.cons.inj heq).1 (hdiffers _ (by decide) (by decide))
  · rename_i heq
    exact absurd (List.cons.inj heq).1 (hdiffers _ (by decide) (by decide))
  · rename_i heq
    exact absurd (List.cons.inj heq).1 (hdiffers _ (by decide) (by decide))
  · rename_i heq
    exact absurd (List.cons.inj heq).1 (hdiffers _ (by decide) (by decide))
  · rfl

theorem Opens.skipSpace {cs : List Char} (h : Opens cs) (rest : List Char) :
    skipSpace (cs ++ rest) = cs ++ rest := by
  obtain ⟨c, tail, rfl, hspace, -⟩ := h
  exact skipSpace_cons hspace _

theorem Opens.ne_closing {cs : List Char} (h : Opens cs) (rest tail : List Char) :
    cs ++ rest ≠ ']' :: tail ∧ cs ++ rest ≠ '\x7d' :: tail := by
  obtain ⟨c, front, rfl, -, hbracket, hbrace⟩ := h
  constructor
  · intro heq
    exact hbracket (List.cons.inj heq).1
  · intro heq
    exact hbrace (List.cons.inj heq).1

/-- Reading an array of items goes on with the items behind the bracket. -/
theorem readValue_array (fuel depth : Nat) {cs blanks : List Char}
    (hblanks : ∀ c ∈ blanks, isSpace c = true) (hcs : Opens cs) (rest : List Char) :
    readValue (fuel + 1) depth ('[' :: (blanks ++ (cs ++ rest))) =
      (readItems fuel (depth + 1) (cs ++ rest)).map fun (items, rest) =>
        (limited depth (array items), rest) := by
  have hskip : skipSpace (blanks ++ (cs ++ rest)) = cs ++ rest := by
    rw [skipSpace_append hblanks, hcs.skipSpace]
  rw [readValue]
  simp only [hskip]
  split
  · rename_i tail heq
    exact absurd heq (hcs.ne_closing rest tail).1
  · rfl

theorem readValue_object (fuel depth : Nat) {cs blanks : List Char}
    (hblanks : ∀ c ∈ blanks, isSpace c = true) (hcs : Opens cs) (rest : List Char) :
    readValue (fuel + 1) depth ('\x7b' :: (blanks ++ (cs ++ rest))) =
      (readMembers fuel (depth + 1) (cs ++ rest)).map fun (members, rest) =>
        (match members with
          | some members => limited depth (object members)
          | none => unreadable, rest) := by
  have hskip : skipSpace (blanks ++ (cs ++ rest)) = cs ++ rest := by
    rw [skipSpace_append hblanks, hcs.skipSpace]
  rw [readValue]
  simp only [hskip]
  split
  · rename_i tail heq
    exact absurd heq (hcs.ne_closing rest tail).2
  · rfl

theorem limited_of_lt {depth : Nat} (h : depth < maxDepth) (v : Json) : limited depth v = v :=
  if_pos h

/-- Wherever the text stands, the value is read from it as long as so many containers
can still be entered. -/
structure Reads (budget : Nat) (text : List Char) (v : Json) : Prop where
  opens : Opens text
  read : ∀ fuel depth rest, budget ≤ maxDepth - depth → Stops rest → 2 * text.length ≤ fuel →
    readValue fuel depth (text ++ rest) = some (v, rest)

theorem Reads.mono {budget more : Nat} {text : List Char} {v : Json} (h : Reads budget text v)
    (hm : budget ≤ more) : Reads more text v :=
  ⟨h.opens, fun fuel depth rest hb => h.read fuel depth rest (hm.trans hb)⟩

theorem Reads.ofText? {text : List Char} {v : Json} (h : Reads maxDepth text v) :
    ofText? (String.ofList text) = some v := by
  have hread := h.read (2 * text.length + 2) 0 [] (le_refl _) (by rintro c ⟨⟩) (by omega)
  have hskip := h.opens.skipSpace []
  rw [List.append_nil] at hread hskip
  rw [Json.ofText?, String.toList_ofList, ofChars?, hskip, hread]
  rfl

theorem Opens.exists_fuel {text : List Char} (h : Opens text) {fuel : Nat}
    (hf : 2 * text.length ≤ fuel) : ∃ n, fuel = n + 1 := by
  obtain ⟨c, rest, rfl, -⟩ := h
  rw [List.length_cons] at hf
  exact ⟨fuel - 1, by omega⟩

theorem reads_null : Reads 0 "null".toList null := by
  have hopens : Opens "null".toList := ⟨'n', _, rfl, by decide⟩
  refine ⟨hopens, fun fuel depth rest _ _ hfuel => ?_⟩
  obtain ⟨n, rfl⟩ := hopens.exists_fuel hfuel
  simp [readValue]

theorem reads_true : Reads 0 "true".toList (bool true) := by
  have hopens : Opens "true".toList := ⟨'t', _, rfl, by decide⟩
  refine ⟨hopens, fun fuel depth rest _ _ hfuel => ?_⟩
  obtain ⟨n, rfl⟩ := hopens.exists_fuel hfuel
  simp [readValue]

theorem reads_false : Reads 0 "false".toList (bool false) := by
  have hopens : Opens "false".toList := ⟨'f', _, rfl, by decide⟩
  refine ⟨hopens, fun fuel depth rest _ _ hfuel => ?_⟩
  obtain ⟨n, rfl⟩ := hopens.exists_fuel hfuel
  simp [readValue]

theorem reads_quote (s : String) : Reads 0 (quote s) (string s) := by
  have hopens : Opens (quote s) := ⟨'"', _, rfl, by decide⟩
  refine ⟨hopens, fun fuel depth rest _ _ hfuel => ?_⟩
  obtain ⟨n, rfl⟩ := hopens.exists_fuel hfuel
  simp [quote, readValue, readText_escapeAll s.toList rest]

theorem Scans.reads {text : List Char} {t : NumberText} (h : Scans text t) :
    Reads 0 text t.value := by
  have hstops : Stops [] := by rintro c ⟨⟩
  have hread := h [] hstops
  rw [List.append_nil] at hread
  obtain ⟨c, tail, rfl, hc⟩ := head_of_readNumber hread
  have hopens : Opens (c :: tail) := ⟨c, tail, rfl, isSpace_eq_false hc⟩
  refine ⟨hopens, fun fuel depth rest _ hrest hfuel => ?_⟩
  obtain ⟨n, rfl⟩ := hopens.exists_fuel hfuel
  rw [List.cons_append, readValue_number n depth hc, ← List.cons_append, h rest hrest]
  rfl

/-! ## Containers -/

/-- Texts with commas between them, and blanks behind each comma. -/
def separated (blanks : List Char) : List (List Char) → List Char
  | [] => []
  | [t] => t
  | t :: rest => t ++ ',' :: (blanks ++ separated blanks rest)

/-- A member of an object. -/
def memberText (blanks : List Char) (key : String) (text : List Char) : List Char :=
  quote key ++ ':' :: (blanks ++ text)

/-- The text is that of a member with this key, and its value is read. -/
def ReadsMember (budget : Nat) (space text : List Char) (m : String × Json) : Prop :=
  ∃ t, text = memberText space m.1 t ∧ Reads budget t m.2

theorem ReadsMember.opens {budget : Nat} {space text : List Char} {m : String × Json}
    (h : ReadsMember budget space text m) : Opens text := by
  obtain ⟨t, rfl, -⟩ := h
  exact ⟨'"', _, by rw [memberText, quote, List.cons_append], by decide⟩

theorem Opens.append {text : List Char} (h : Opens text) (rest : List Char) :
    Opens (text ++ rest) := by
  obtain ⟨c, tail, rfl, hc⟩ := h
  exact ⟨c, _, rfl, hc⟩

theorem Opens.separated {text : List Char} (h : Opens text) (blanks : List Char)
    (texts : List (List Char)) : Opens (separated blanks (text :: texts)) := by
  cases texts with
  | nil => exact h
  | cons t ts => exact h.append _

theorem isSpace_of_mem_nil : ∀ c ∈ ([] : List Char), isSpace c = true := by
  rintro c ⟨⟩

section Containers

variable {budget depth : Nat} {blanks lead closing : List Char}
  (hblanks : ∀ c ∈ blanks, isSpace c = true) (hlead : ∀ c ∈ lead, isSpace c = true)
  (hclosing : ∀ c ∈ closing, isSpace c = true)

include hblanks hlead hclosing

theorem readItems_separated (hbudget : budget ≤ maxDepth - depth) {text : List Char} {v : Json}
    {texts : List (List Char)} {vs : List Json}
    (h : List.Forall₂ (Reads budget) (text :: texts) (v :: vs)) {fuel : Nat}
    (hfuel : 2 * (separated blanks (text :: texts)).length + 1 ≤ fuel) (rest : List Char) :
    readItems fuel depth (lead ++ (separated blanks (text :: texts) ++
      (closing ++ ']' :: rest))) = some (v :: vs, rest) := by
  -- each item but the last is stopped by a comma, and is one step for the fuel
  induction texts generalizing text v vs lead fuel with
  | nil =>
      obtain ⟨hv, hnil⟩ := List.forall₂_cons.1 h
      cases hnil
      obtain ⟨fuel, rfl⟩ : ∃ n, fuel = n + 1 := ⟨fuel - 1, by omega⟩
      have hstops := stops_blanks hclosing (stops_cons (c := ']') (by decide) rest)
      simp only [separated] at hfuel ⊢
      rw [readItems, skipSpace_append hlead, hv.opens.skipSpace,
        hv.read fuel depth _ hbudget hstops (by omega)]
      simp [skipSpace_closing hclosing (c := ']') (by decide)]
  | cons t ts ih =>
      obtain ⟨hv, hvs⟩ := List.forall₂_cons.1 h
      cases hvs with
      | @cons _ w _ ws hw hws =>
          obtain ⟨fuel, rfl⟩ : ∃ n, fuel = n + 1 := ⟨fuel - 1, by omega⟩
          simp only [separated, List.length_append, List.length_cons] at hfuel
          have hrest : 2 * (separated blanks (t :: ts)).length + 1 ≤ fuel := by omega
          have hnext := ih hblanks (.cons hw hws) hrest
          have hstops := stops_cons (c := ',') (by decide) (blanks ++
            (separated blanks (t :: ts) ++ (closing ++ ']' :: rest)))
          simp only [separated, List.append_assoc, List.cons_append]
          rw [readItems, skipSpace_append hlead, hv.opens.skipSpace,
            hv.read fuel depth _ hbudget hstops (by omega)]
          simp [skipSpace_cons (c := ',') (by decide), hnext]

theorem readMembers_separated {space : List Char} (hspace : ∀ c ∈ space, isSpace c = true)
    (hbudget : budget ≤ maxDepth - depth) {text : List Char} {m : String × Json}
    {texts : List (List Char)} {ms : List (String × Json)}
    (h : List.Forall₂ (ReadsMember budget space) (text :: texts) (m :: ms)) {fuel : Nat}
    (hfuel : 2 * (separated blanks (text :: texts)).length + 1 ≤ fuel) (rest : List Char) :
    readMembers fuel depth (lead ++ (separated blanks (text :: texts) ++
      (closing ++ '\x7d' :: rest))) = some (some (m :: ms), rest) := by
  induction texts generalizing text m ms lead fuel with
  | nil =>
      obtain ⟨hm, hnil⟩ := List.forall₂_cons.1 h
      cases hnil
      obtain ⟨t, rfl, hv⟩ := hm
      obtain ⟨fuel, rfl⟩ : ∃ n, fuel = n + 1 := ⟨fuel - 1, by omega⟩
      have hstops := stops_blanks hclosing (stops_cons (c := '\x7d') (by decide) rest)
      have hafter := hv.opens.skipSpace (closing ++ '\x7d' :: rest)
      simp only [separated, memberText, List.length_append, List.length_cons] at hfuel
      rw [readMembers, skipSpace_append hlead]
      simp only [separated, memberText, quote, List.cons_append, List.append_assoc,
        List.nil_append, skipSpace_cons (c := '"') (by decide), readText_escapeAll,
        Option.bind_eq_bind, Option.bind_some, skipSpace_cons (c := ':') (by decide),
        skipSpace_append hspace, hafter, hv.read fuel depth _ hbudget hstops (by omega)]
      simp [skipSpace_closing hclosing (c := '\x7d') (by decide)]
  | cons u us ih =>
      obtain ⟨hm, hms⟩ := List.forall₂_cons.1 h
      cases hms with
      | @cons _ n _ ns hn hns =>
          obtain ⟨t, rfl, hv⟩ := hm
          obtain ⟨fuel, rfl⟩ : ∃ n, fuel = n + 1 := ⟨fuel - 1, by omega⟩
          simp only [separated, memberText, List.length_append, List.length_cons] at hfuel
          have hrest : 2 * (separated blanks (u :: us)).length + 1 ≤ fuel := by omega
          have hnext := ih hblanks (.cons hn hns) hrest
          have hstops := stops_cons (c := ',') (by decide) (blanks ++
            (separated blanks (u :: us) ++ (closing ++ '\x7d' :: rest)))
          have hafter := hv.opens.skipSpace (',' :: (blanks ++
            (separated blanks (u :: us) ++ (closing ++ '\x7d' :: rest))))
          rw [readMembers, skipSpace_append hlead]
          simp only [separated, memberText, quote, List.cons_append, List.append_assoc,
            List.nil_append, skipSpace_cons (c := '"') (by decide), readText_escapeAll,
            Option.bind_eq_bind, Option.bind_some, skipSpace_cons (c := ':') (by decide),
            skipSpace_append hspace, hafter, hv.read fuel depth _ hbudget hstops (by omega)]
          simp [skipSpace_cons (c := ',') (by decide), hnext]

theorem reads_array {texts : List (List Char)} {vs : List Json}
    (h : List.Forall₂ (Reads budget) texts vs) :
    Reads (budget + 1) ('[' :: (lead ++ (separated blanks texts ++ (closing ++ [']']))))
      (array vs) := by
  have hopens : Opens ('[' :: (lead ++ (separated blanks texts ++ (closing ++ [']'])))) :=
    ⟨'[', _, rfl, by decide⟩
  refine ⟨hopens, fun fuel depth rest hbudget _ hfuel => ?_⟩
  obtain ⟨n, rfl⟩ := hopens.exists_fuel hfuel
  have hlimited := limited_of_lt (show depth < maxDepth by omega)
  simp only [List.length_cons, List.length_append] at hfuel
  simp only [List.cons_append, List.append_assoc, List.nil_append]
  cases h with
  | nil =>
      simp [readValue, separated, skipSpace_append hlead, skipSpace_append hclosing,
        skipSpace_cons (c := ']') (by decide), hlimited]
  | @cons text v texts vs hv hvs =>
      have hfuel : 2 * (separated blanks (text :: texts)).length + 1 ≤ n := by omega
      have hitems := readItems_separated hblanks isSpace_of_mem_nil hclosing
        (show budget ≤ maxDepth - (depth + 1) by omega) (.cons hv hvs) hfuel rest
      rw [List.nil_append] at hitems
      rw [readValue_array n depth hlead (hv.opens.separated blanks texts), hitems]
      simp [hlimited]

theorem reads_object {space : List Char} (hspace : ∀ c ∈ space, isSpace c = true)
    {texts : List (List Char)} {ms : List (String × Json)}
    (h : List.Forall₂ (ReadsMember budget space) texts ms) :
    Reads (budget + 1)
      ('\x7b' :: (lead ++ (separated blanks texts ++ (closing ++ ['\x7d'])))) (object ms) := by
  have hopens : Opens ('\x7b' :: (lead ++ (separated blanks texts ++ (closing ++ ['\x7d'])))) :=
    ⟨'\x7b', _, rfl, by decide⟩
  refine ⟨hopens, fun fuel depth rest hbudget _ hfuel => ?_⟩
  obtain ⟨n, rfl⟩ := hopens.exists_fuel hfuel
  have hlimited := limited_of_lt (show depth < maxDepth by omega)
  simp only [List.length_cons, List.length_append] at hfuel
  simp only [List.cons_append, List.append_assoc, List.nil_append]
  cases h with
  | nil =>
      simp [readValue, separated, skipSpace_append hlead, skipSpace_append hclosing,
        skipSpace_cons (c := '\x7d') (by decide), hlimited]
  | @cons text m texts ms hm hms =>
      have hfuel : 2 * (separated blanks (text :: texts)).length + 1 ≤ n := by omega
      have hmembers := readMembers_separated hblanks isSpace_of_mem_nil hclosing hspace
        (show budget ≤ maxDepth - (depth + 1) by omega) (.cons hm hms) hfuel rest
      rw [List.nil_append] at hmembers
      rw [readValue_object n depth hlead (hm.opens.separated blanks texts), hmembers]
      simp [hlimited]

end Containers

/-! ## Printed values -/

mutual

/-- The value reads back with so many containers left to nest in. -/
def Printable (budget : Nat) : Json → Prop
  | null | bool _ | string _ => True
  | number n => n.Fits
  | array items => 0 < budget ∧ PrintableItems (budget - 1) items
  | object members => 0 < budget ∧ PrintableMembers (budget - 1) members
  | unreadable => False

def PrintableItems (budget : Nat) : List Json → Prop
  | [] => True
  | v :: rest => Printable budget v ∧ PrintableItems budget rest

def PrintableMembers (budget : Nat) : List (String × Json) → Prop
  | [] => True
  | (_, v) :: rest => Printable budget v ∧ PrintableMembers budget rest

end

theorem exists_colon (style : Style) :
    ∃ space, (∀ c ∈ space, isSpace c = true) ∧ style.colon = ':' :: space := by
  cases style with
  | compact => exact ⟨[], by simp, rfl⟩
  | pretty => exact ⟨[' '], by simp [isSpace], rfl⟩

theorem render_array (style : Style) (level : Nat) (v : Json) (rest : List Json) :
    render style level (array (v :: rest)) = '[' :: (style.break (level + 1) ++
      (separated (style.break (level + 1)) ((v :: rest).map (render style (level + 1))) ++
        (style.break level ++ [']']))) := by
  have hitems (level : Nat) : render style level v ++ renderItems style level rest =
      separated (style.break level) ((v :: rest).map (render style level)) := by
    induction rest generalizing v with
    | nil => simp [renderItems, separated]
    | cons w rest ih => simpa [renderItems, separated] using ih w
  rw [← hitems]
  simp [render]

theorem render_object (style : Style) (level : Nat) {space : List Char}
    (hcolon : style.colon = ':' :: space) (m : String × Json) (rest : List (String × Json)) :
    render style level (object (m :: rest)) = '\x7b' :: (style.break (level + 1) ++
      (separated (style.break (level + 1)) ((m :: rest).map fun m =>
          memberText space m.1 (render style (level + 1) m.2)) ++
        (style.break level ++ ['\x7d']))) := by
  have hmember (key : String) (text : List Char) :
      memberText space key text = quote key ++ (style.colon ++ text) := by
    simp [memberText, hcolon]
  have hmembers (level : Nat) :
      quote m.1 ++ (style.colon ++ (render style level m.2 ++ renderMembers style level rest)) =
        separated (style.break level) ((m :: rest).map fun m =>
          memberText space m.1 (render style level m.2)) := by
    simp only [hmember]
    induction rest generalizing m with
    | nil => simp [renderMembers, separated]
    | cons n rest ih => simpa [renderMembers, separated] using ih n
  rw [← hmembers]
  simp [render]

mutual

theorem reads_render (style : Style) (level : Nat) {budget : Nat} :
    ∀ v, Printable budget v → Reads budget (render style level v) v
  | null, _ => reads_null.mono (Nat.zero_le budget)
  | bool true, _ => reads_true.mono (Nat.zero_le budget)
  | bool false, _ => reads_false.mono (Nat.zero_le budget)
  | number n, hv => by
      obtain ⟨t, hscans, hvalue⟩ := scans_render hv
      have hreads := hscans.reads
      rw [hvalue] at hreads
      exact hreads.mono (Nat.zero_le budget)
  | string s, _ => (reads_quote s).mono (Nat.zero_le budget)
  | array items, hv => by
      rw [Printable] at hv
      obtain ⟨b, rfl⟩ : ∃ b, budget = b + 1 := ⟨budget - 1, by omega⟩
      have hitems := reads_renderItems style (level + 1) items hv.2
      cases items with
      | nil =>
          exact reads_array isSpace_of_mem_nil isSpace_of_mem_nil isSpace_of_mem_nil hitems
      | cons w ws =>
          rw [render_array]
          exact reads_array (fun _ => isSpace_of_mem_break) (fun _ => isSpace_of_mem_break)
            (fun _ => isSpace_of_mem_break) hitems
  | object members, hv => by
      rw [Printable] at hv
      obtain ⟨b, rfl⟩ : ∃ b, budget = b + 1 := ⟨budget - 1, by omega⟩
      obtain ⟨space, hspace, hcolon⟩ := exists_colon style
      have hmembers := reads_renderMembers style (level + 1) space members hv.2
      cases members with
      | nil =>
          exact reads_object isSpace_of_mem_nil isSpace_of_mem_nil isSpace_of_mem_nil hspace
            hmembers
      | cons m ms =>
          rw [render_object style level hcolon]
          exact reads_object (fun _ => isSpace_of_mem_break) (fun _ => isSpace_of_mem_break)
            (fun _ => isSpace_of_mem_break) hspace hmembers

theorem reads_renderItems (style : Style) (level : Nat) {budget : Nat} :
    ∀ vs, PrintableItems budget vs →
      List.Forall₂ (Reads budget) (vs.map (render style level)) vs
  | [], _ => .nil
  | v :: vs, hv => .cons (reads_render style level v hv.1) (reads_renderItems style level vs hv.2)

theorem reads_renderMembers (style : Style) (level : Nat) {budget : Nat} (space : List Char) :
    ∀ ms, PrintableMembers budget ms →
      List.Forall₂ (ReadsMember budget space)
        (ms.map fun m => memberText space m.1 (render style level m.2)) ms
  | [], _ => .nil
  | (_, v) :: ms, hv => .cons ⟨_, rfl, reads_render style level v hv.1⟩
      (reads_renderMembers style level space ms hv.2)

end

/-- A printed value reads back as itself. -/
theorem ofText?_print {v : Json} (hv : Printable maxDepth v) (style : Style) :
    ofText? (v.print style) = some v :=
  (reads_render style 0 v hv).ofText?

end Compliance.Json
