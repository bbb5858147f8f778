import Mathlib.Data.List.Nodup
import Mathlib.Data.List.Forall2
import Mathlib.Tactic.Common
import Compliance.Proofs.Suite.Entries
import Compliance.Suite.Effective

/-!
# Accepted configurations

What a configuration was found valid for holds when it is used: its patterns can be
read, its ids are distinct, and so entries are selected and made into checks without
these being found wrong.  More include patterns select more and more exclude patterns
less; their order and repetitions do not matter.
-/

namespace Compliance

variable {ε ε' α β γ : Type}

theorem bind_eq_ok {x : Except ε α} {f : α → Except ε β} {b : β} :
    x >>= f = .ok b ↔ ∃ a, x = .ok a ∧ f a = .ok b := by
  cases x <;> simp [bind, Except.bind]

theorem mapError_eq_ok {x : Except ε α} {f : ε → ε'} {a : α} :
    x.mapError f = .ok a ↔ x = .ok a := by
  cases x <;> simp [Except.mapError]

theorem forall₂_of_mapM {f : α → Except ε β} {xs : List α} {ys : List β}
    (h : xs.mapM f = .ok ys) : List.Forall₂ (fun x y => f x = .ok y) xs ys := by
  induction xs generalizing ys with
  | nil =>
      cases h
      exact .nil
  | cons x xs ih =>
      rw [List.mapM_cons] at h
      obtain ⟨y, hy, h⟩ := bind_eq_ok.1 h
      obtain ⟨rest, hrest, h⟩ := bind_eq_ok.1 h
      cases h
      exact .cons hy (ih hrest)

theorem error_of_mapM {f : α → Except ε β} {xs : List α} {err : ε}
    (h : xs.mapM f = .error err) : ∃ x ∈ xs, f x = .error err := by
  induction xs with
  | nil => cases h
  | cons x xs ih =>
      rw [List.mapM_cons] at h
      cases hx : f x with
      | error e =>
          simp only [hx, bind, Except.bind, Except.error.injEq] at h
          exact ⟨x, List.mem_cons_self, h ▸ hx⟩
      | ok y =>
          cases hrest : xs.mapM f with
          | ok ys => simp [hx, hrest, bind, Except.bind, pure, Except.pure] at h
          | error e =>
              simp only [hx, hrest, bind, Except.bind, Except.error.injEq] at h
              obtain ⟨z, hz, herr⟩ := ih (h ▸ hrest)
              exact ⟨z, List.mem_cons_of_mem x hz, herr⟩

theorem exists_of_forall₂ {R : α → β → Prop} {xs : List α} {ys : List β}
    (h : List.Forall₂ R xs ys) {i : Nat} {y : β} (hy : ys[i]? = some y) :
    ∃ x, xs[i]? = some x ∧ R x y := by
  induction h generalizing i with
  | nil => cases hy
  | @cons x y' xs ys hxy _ ih =>
      cases i with
      | zero =>
          cases hy
          exact ⟨x, rfl, hxy⟩
      | succ i => exact ih hy

theorem map_eq_map_of_forall₂ {R : α → β → Prop} {f : α → γ} {g : β → γ} {xs : List α}
    {ys : List β} (h : List.Forall₂ R xs ys) (hfg : ∀ x y, R x y → g y = f x) :
    ys.map g = xs.map f := by
  induction h with
  | nil => rfl
  | cons hfirst _ ih => rw [List.map_cons, List.map_cons, hfg _ _ hfirst, ih]

end Compliance

namespace Compliance.Suite

open Compliance.Check (TestCase)
open Compliance.Files (Tree)
open Compliance.Glob (Pattern)
open Compliance.Report (TestId)
open Compliance.Time (Timestamp)

/-! ## Patterns -/

/-- The text can be read as a pattern. -/
def IsPattern (text : String) : Prop :=
  ∃ p, Pattern.ofText text = .ok p

/-- The text is a pattern that accepts the id. -/
def accepts (text id : String) : Bool :=
  (Pattern.ofText text).toOption.any (·.accepts id)

theorem isPattern_of_readPatterns {texts : List String} {ps : List Pattern}
    (h : readPatterns texts = .ok ps) : ∀ text ∈ texts, IsPattern text := by
  induction texts generalizing ps with
  | nil => simp
  | cons text rest ih =>
      unfold readPatterns at h
      cases hp : Pattern.ofText text with
      | error e => simp [hp] at h
      | ok p =>
          cases hrest : readPatterns rest with
          | error e => simp [hp, hrest] at h
          | ok qs => exact List.forall_mem_cons.2 ⟨⟨p, hp⟩, ih hrest⟩

theorem exists_readPatterns {texts : List String} (h : ∀ text ∈ texts, IsPattern text) :
    ∃ ps, readPatterns texts = .ok ps ∧ ps.isEmpty = texts.isEmpty ∧
      ∀ id, anyAccepts ps id = texts.any (accepts · id) := by
  induction texts with
  | nil => exact ⟨[], rfl, rfl, fun _ => rfl⟩
  | cons text rest ih =>
      obtain ⟨⟨p, hp⟩, hrest⟩ := List.forall_mem_cons.1 h
      obtain ⟨ps, hps, -, hany⟩ := ih hrest
      refine ⟨p :: ps, by simp only [readPatterns, hp, hps], rfl, fun id => ?_⟩
      have hfirst : accepts text id = p.accepts id := by
        rw [accepts, hp]
        rfl
      rw [List.any_cons, ← hany, hfirst]
      rfl

theorem patternsOf_eq_ok [SetLimit] {texts : List String} {ps : List Pattern} :
    patternsOf texts = .ok ps ↔ readPatterns texts = .ok ps ∧ SetLimit.exceeded ps = none := by
  unfold patternsOf
  cases readPatterns texts with
  | error e => simp [bind, Except.bind]
  | ok qs =>
      simp only [bind, Except.bind, Except.ok.injEq]
      split
      · rename_i detail hdetail
        simp only [throw, throwThe, MonadExceptOf.throw, reduceCtorEq, false_iff, not_and]
        rintro rfl
        simp [hdetail]
      · rename_i hnone
        simp only [pure, Except.pure, Except.ok.injEq]
        constructor
        · rintro rfl
          exact ⟨rfl, hnone⟩
        · exact And.left

/-- An include pattern accepts the id, or there are none, and no exclude pattern
does. -/
def Chosen (includes excludes : List String) (id : String) : Prop :=
  (includes = [] ∨ ∃ text ∈ includes, accepts text id = true) ∧
    ∀ text ∈ excludes, accepts text id = false

instance (includes excludes : List String) (id : String) :
    Decidable (Chosen includes excludes id) :=
  inferInstanceAs (Decidable (_ ∧ _))

section Chosen

variable {includes excludes more : List String} {id : String}

theorem Chosen.of_fewer_excludes (h : Chosen includes more id) (hsub : excludes ⊆ more) :
    Chosen includes excludes id :=
  ⟨h.1, fun text htext => h.2 text (hsub htext)⟩

/-- Without include patterns everything is included, so that the first of them may
well take something away. -/
theorem Chosen.of_more_includes (h : Chosen includes excludes id) (hne : includes ≠ [])
    (hsub : includes ⊆ more) : Chosen more excludes id := by
  obtain ⟨text, htext, haccepts⟩ := h.1.resolve_left hne
  exact ⟨Or.inr ⟨text, hsub htext, haccepts⟩, h.2⟩

theorem chosen_congr {includes' excludes' : List String}
    (hin : ∀ text, text ∈ includes' ↔ text ∈ includes)
    (hex : ∀ text, text ∈ excludes' ↔ text ∈ excludes) :
    Chosen includes' excludes' id ↔ Chosen includes excludes id := by
  have hnil : includes' = [] ↔ includes = [] := by
    simp only [List.eq_nil_iff_forall_not_mem, hin]
  simp only [Chosen, hnil, hin, hex]

end Chosen

/-! ## Selections -/

namespace Config

variable {c : Config}

theorem repeatedId?_eq_none_iff {seen : List TestId} {entries : List Entry} :
    repeatedId? seen entries = none ↔
      (entries.map (·.id)).Nodup ∧ ∀ e ∈ entries, e.id ∉ seen := by
  induction entries generalizing seen with
  | nil => simp [repeatedId?]
  | cons e rest ih =>
      by_cases hseen : e.id ∈ seen
      · simp [repeatedId?, hseen]
      · simp only [repeatedId?, List.contains_iff_mem, hseen, ↓reduceIte, ih, List.map_cons,
          List.nodup_cons, List.mem_cons, not_or, forall_eq_or_imp, not_false_eq_true,
          true_and]
        constructor
        · rintro ⟨hnodup, hnew⟩
          refine ⟨⟨?_, hnodup⟩, fun d hd => (hnew d hd).2⟩
          intro hmem
          obtain ⟨d, hd, hid⟩ := List.mem_map.1 hmem
          exact (hnew d hd).1 hid
        · rintro ⟨⟨hfirst, hnodup⟩, hnew⟩
          refine ⟨hnodup, fun d hd => ⟨?_, hnew d hd⟩⟩
          intro hid
          exact hfirst (hid ▸ List.mem_map_of_mem hd)

theorem test_le_of_checkTimeouts (h : c.checkTimeouts = .ok ()) :
    c.settings.timeouts.test ≤ Check.Timeouts.maxTest := by
  unfold checkTimeouts at h
  split at h
  · cases h
  · rename_i hvalid
    exact (Check.Timeouts.validate_eq_ok_iff.1 hvalid).1.2

theorem nodup_of_checkIds (h : c.checkIds = .ok ()) : (c.entries.map (·.id)).Nodup := by
  unfold checkIds at h
  split at h
  · cases h
  · rename_i hnone
    exact (repeatedId?_eq_none_iff.1 hnone).1

/-- The same suite with other patterns. -/
def withPatterns (c : Config) (includes excludes : List String) : Config :=
  { c with settings := { c.settings with includes := includes, excludes := excludes } }

/-- The entries that the given patterns choose, in suite order. -/
def chosen (c : Config) (includes excludes : List String) : List Entry :=
  c.entries.filter fun e => Chosen includes excludes e.id.text

section Limit

variable [SetLimit]

/-- The times of a valid configuration are within bounds, and its ids are
distinct. -/
theorem bounded_of_validate (h : c.validate = .ok ()) :
    c.settings.timeouts.test ≤ Check.Timeouts.maxTest ∧ (c.entries.map (·.id)).Nodup := by
  obtain ⟨⟨⟩, -, h⟩ := bind_eq_ok.1 h
  obtain ⟨⟨⟩, htimeouts, h⟩ := bind_eq_ok.1 h
  obtain ⟨⟨⟩, hids, -⟩ := bind_eq_ok.1 h
  exact ⟨test_le_of_checkTimeouts htimeouts, nodup_of_checkIds hids⟩

theorem patterns_of_validate (h : c.validate = .ok ()) :
    ∃ includes excludes, patternsOf c.settings.includes = .ok includes ∧
      patternsOf c.settings.excludes = .ok excludes := by
  obtain ⟨⟨⟩, -, h⟩ := bind_eq_ok.1 h
  obtain ⟨⟨⟩, -, h⟩ := bind_eq_ok.1 h
  obtain ⟨⟨⟩, -, h⟩ := bind_eq_ok.1 h
  obtain ⟨includes, hin, h⟩ := bind_eq_ok.1 h
  obtain ⟨excludes, hex, -⟩ := bind_eq_ok.1 h
  exact ⟨includes, excludes, hin, hex⟩

theorem selected_of_patternsOf {includes excludes : List Pattern}
    (hin : patternsOf c.settings.includes = .ok includes)
    (hex : patternsOf c.settings.excludes = .ok excludes) :
    c.selected = .ok (c.chosen c.settings.includes c.settings.excludes) := by
  refine bind_eq_ok.2 ⟨includes, hin, bind_eq_ok.2 ⟨excludes, hex, ?_⟩⟩
  obtain ⟨hin, -⟩ := patternsOf_eq_ok.1 hin
  obtain ⟨hex, -⟩ := patternsOf_eq_ok.1 hex
  obtain ⟨ps, hps, hempty, hincluded⟩ := exists_readPatterns (isPattern_of_readPatterns hin)
  obtain ⟨qs, hqs, -, hexcluded⟩ := exists_readPatterns (isPattern_of_readPatterns hex)
  cases hin.symm.trans hps
  cases hex.symm.trans hqs
  refine congrArg Except.ok (List.filter_congr fun e _ => ?_)
  rw [Bool.eq_iff_iff, decide_eq_true_eq]
  simp [selects, Chosen, hempty, hincluded, hexcluded]

/-- A valid configuration selects without failing, whatever sets of patterns are
refused: selecting makes those that were made to check it. -/
theorem selected_of_validate (h : c.validate = .ok ()) :
    c.selected = .ok (c.chosen c.settings.includes c.settings.excludes) := by
  obtain ⟨includes, excludes, hin, hex⟩ := patterns_of_validate h
  exact selected_of_patternsOf hin hex

theorem isPattern_of_validate (h : c.validate = .ok ()) :
    (∀ text ∈ c.settings.includes, IsPattern text) ∧
      ∀ text ∈ c.settings.excludes, IsPattern text := by
  obtain ⟨includes, excludes, hin, hex⟩ := patterns_of_validate h
  exact ⟨isPattern_of_readPatterns (patternsOf_eq_ok.1 hin).1,
    isPattern_of_readPatterns (patternsOf_eq_ok.1 hex).1⟩

theorem sublist_of_selected {entries : List Entry} (h : c.selected = .ok entries) :
    entries.Sublist c.entries := by
  obtain ⟨includes, -, h⟩ := bind_eq_ok.1 h
  obtain ⟨excludes, -, h⟩ := bind_eq_ok.1 h
  cases h
  exact List.filter_sublist

end Limit

/-- Without a limit on sets, patterns need only be readable. -/
theorem selected_withPatterns (c : Config) {includes excludes : List String}
    (hin : ∀ text ∈ includes, IsPattern text) (hex : ∀ text ∈ excludes, IsPattern text) :
    (c.withPatterns includes excludes).selected = .ok (c.chosen includes excludes) := by
  obtain ⟨ps, hps, -, -⟩ := exists_readPatterns hin
  obtain ⟨qs, hqs, -, -⟩ := exists_readPatterns hex
  exact selected_of_patternsOf (c := c.withPatterns includes excludes)
    (patternsOf_eq_ok.2 ⟨hps, rfl⟩) (patternsOf_eq_ok.2 ⟨hqs, rfl⟩)

end Config

theorem Effective.validate_of_suiteConfig [SetLimit] {e : Effective} {c : Config}
    (h : e.suiteConfig = .ok c) : c.validate = .ok () := by
  obtain ⟨config, -, h⟩ := bind_eq_ok.1 h
  obtain ⟨⟨⟩, hvalid, h⟩ := bind_eq_ok.1 h
  cases h
  exact hvalid

/-! ## Checks of a selection -/

/-- Where ids are distinct, the checks are those of the entries, one by one. -/
theorem casesBehind_eq_mapM {seen : List TestId} {entries : List Entry}
    (hids : (entries.map (·.id)).Nodup) (hnew : ∀ e ∈ entries, e.id ∉ seen) :
    casesBehind seen entries = entries.mapM Entry.toCase := by
  induction entries generalizing seen with
  | nil => rfl
  | cons e rest ih =>
      rw [List.map_cons, List.nodup_cons] at hids
      have hfirst : ¬ (seen.contains e.id = true) := by
        simpa using hnew e List.mem_cons_self
      have hlater : ∀ d ∈ rest, d.id ∉ e.id :: seen := by
        intro d hd hmem
        rcases List.mem_cons.1 hmem with heq | hmem
        · exact hids.1 (heq ▸ List.mem_map_of_mem hd)
        · exact hnew d (List.mem_cons_of_mem e hd) hmem
      have hrest := ih hids.2 hlater
      rw [casesBehind, if_neg hfirst, List.mapM_cons]
      cases e.toCase with
      | error err => rfl
      | ok c =>
          simp only [hrest]
          cases rest.mapM Entry.toCase <;> rfl

theorem casesOf_eq_mapM {entries : List Entry} (hids : (entries.map (·.id)).Nodup) :
    casesOf entries = entries.mapM Entry.toCase :=
  casesBehind_eq_mapM hids (by simp)

theorem casesOf_ne_duplicateId {entries : List Entry} (hids : (entries.map (·.id)).Nodup)
    (id : TestId) : casesOf entries ≠ .error (.duplicateId id) := by
  intro h
  rw [casesOf_eq_mapM hids] at h
  obtain ⟨e, -, he⟩ := error_of_mapM h
  exact e.toCase_ne_duplicateId id he

theorem provides_of_casesOf {entries : List Entry} {cases : List TestCase}
    (hids : (entries.map (·.id)).Nodup) (h : casesOf entries = .ok cases) :
    List.Forall₂ Entry.Provides entries cases := by
  rw [casesOf_eq_mapM hids] at h
  exact (forall₂_of_mapM h).imp fun _ _ => Entry.provides_of_toCase

/-- The configuration that was accepted is the one that is used. -/
theorem Effective.suiteConfig_of_build [SetLimit] {t : Tree} {host suite : Option String}
    {overrides : Option Json} {now : Timestamp} {e : Effective}
    (h : Effective.build t host suite overrides now = .ok e) :
    ∃ c, e.suiteConfig = .ok c ∧ c.validate = .ok () := by
  obtain ⟨hosts, -, h⟩ := bind_eq_ok.1 h
  obtain ⟨suites, -, h⟩ := bind_eq_ok.1 h
  obtain ⟨c, hc, h⟩ := bind_eq_ok.1 h
  cases h
  exact ⟨c, hc, Effective.validate_of_suiteConfig hc⟩

/-- Whatever layers were accepted, the configuration selects without failing: exactly the
entries that its patterns choose, in suite order and with distinct ids.  More exclude
patterns select no more, more of the include patterns no less, and neither their order nor
repetitions count.  The selection has no id twice for the registry to refuse; if checks are
made of it, these are its entries' own, one by one, with what their kinds need and what
the entries require.  Sets of patterns may grow as large as they like here. -/
theorem Effective.selection_of_build {t : Tree} {host suite : Option String}
    {overrides : Option Json} {now : Timestamp} {e : Effective}
    (h : Effective.build t host suite overrides now = .ok e) :
    ∃ c, e.suiteConfig = .ok c ∧
      let includes := c.settings.includes
      let excludes := c.settings.excludes
      let entries := c.entries.filter fun e => Chosen includes excludes e.id.text
      c.selected = .ok entries ∧ (entries.map (·.id)).Nodup ∧
      (∀ others, excludes ⊆ others → (∀ text ∈ others, IsPattern text) →
        ∃ fewer, (c.withPatterns includes others).selected = .ok fewer ∧
          fewer.Sublist entries) ∧
      (∀ others, includes ≠ [] → includes ⊆ others → (∀ text ∈ others, IsPattern text) →
        ∃ more, (c.withPatterns others excludes).selected = .ok more ∧ entries.Sublist more) ∧
      (∀ includes' excludes', (∀ text, text ∈ includes' ↔ text ∈ includes) →
        (∀ text, text ∈ excludes' ↔ text ∈ excludes) →
        (c.withPatterns includes' excludes').selected = .ok entries) ∧
      (∀ id, casesOf entries ≠ .error (.duplicateId id)) ∧
      ∀ cases, casesOf entries = .ok cases →
        cases.map (·.id) = entries.map (·.id) ∧ List.Forall₂ Entry.Provides entries cases := by
  obtain ⟨c, hc, hvalid⟩ := Effective.suiteConfig_of_build h
  obtain ⟨hin, hex⟩ := Config.isPattern_of_validate hvalid
  refine ⟨c, hc, ?_⟩
  intro includes excludes entries
  have hids : (entries.map (·.id)).Nodup :=
    (Config.bounded_of_validate hvalid).2.sublist (List.filter_sublist.map _)
  refine ⟨Config.selected_of_validate hvalid, hids, fun others hsub hothers => ?_,
    fun others hne hsub hothers => ?_, fun includes' excludes' hin' hex' => ?_,
    casesOf_ne_duplicateId hids, fun cases hcases => ?_⟩
  · refine ⟨_, c.selected_withPatterns hin hothers, ?_⟩
    apply List.monotone_filter_right
    simpa using fun e (hchosen : Chosen _ _ _) => hchosen.of_fewer_excludes hsub
  · refine ⟨_, c.selected_withPatterns hothers hex, ?_⟩
    apply List.monotone_filter_right
    simpa using fun e (hchosen : Chosen _ _ _) => hchosen.of_more_includes hne hsub
  · have hin'' : ∀ text ∈ includes', IsPattern text :=
      fun text htext => hin text ((hin' text).1 htext)
    have hex'' : ∀ text ∈ excludes', IsPattern text :=
      fun text htext => hex text ((hex' text).1 htext)
    rw [c.selected_withPatterns hin'' hex'']
    refine congrArg Except.ok (List.filter_congr fun e _ => ?_)
    exact decide_eq_decide.2 (chosen_congr hin' hex')
  · have hprovides := provides_of_casesOf hids hcases
    exact ⟨map_eq_map_of_forall₂ hprovides fun _ _ h => h.id, hprovides⟩

/-- Overrides with three tests, the first of which is left out. -/
def radioLayer : Json :=
  .object [
    ("suite", .object [("exclude", .array [.string "*slow"]),
      ("include", .array [.string "ble.*", .string "wifi.*"])]),
    ("tests", .array [
      .object [("id", .string "wifi.Search#slow"),
        ("kind", .string "wifi_p2p_service_discovery")],
      .object [("id", .string "ble.Connect#plain"), ("kind", .string "ble_secure_connect"),
        ("params", .object [("address", .string "A"), ("secure", .bool false)])],
      .object [("id", .string "wifi.Search#any"),
        ("kind", .string "wifi_p2p_service_discovery"),
        ("params", .object [("query", .string "all")])]])]

def slowSearch : Entry where
  id := ⟨"wifi.Search", "slow", by decide⟩
  kind := .serviceDiscovery
  requires := .empty
  params := .null

def plainLink : Entry where
  id := ⟨"ble.Connect", "plain", by decide⟩
  kind := .connect
  requires := .empty
  params := .object [("address", .string "A"), ("secure", .bool false)]

def anySearch : Entry where
  id := ⟨"wifi.Search", "any", by decide⟩
  kind := .serviceDiscovery
  requires := .empty
  params := .object [("query", .string "all")]

def radioConfig : Config where
  settings := { Settings.default with includes := ["ble.*", "wifi.*"], excludes := ["*slow"] }
  reportDir := defaultReportDir
  entries := [slowSearch, plainLink, anySearch]

/-- What comes of the overrides is accepted. -/
theorem build_radioLayer : ∃ e,
    Effective.build .empty none none (some radioLayer) (.ofMillis 0) = .ok e ∧
      e.suiteConfig = .ok radioConfig := by
  have hvalid : radioConfig.validate = .ok () := by decide +kernel
  have hsuite : (Effective.ofLayers ([Effective.builtinLayer] ++
      Effective.overrideLayers (some radioLayer)) (.ofMillis 0)).suiteConfig =
        .ok radioConfig :=
    bind_eq_ok.2 ⟨radioConfig, rfl, bind_eq_ok.2 ⟨(), hvalid, rfl⟩⟩
  refine ⟨_, ?_, hsuite⟩
  exact bind_eq_ok.2 ⟨[], rfl, bind_eq_ok.2 ⟨[], rfl, bind_eq_ok.2 ⟨_, hsuite, rfl⟩⟩⟩

theorem filter_radioConfig :
    (radioConfig.entries.filter fun e =>
      Chosen ["ble.*", "wifi.*"] ["*slow"] e.id.text) = [plainLink, anySearch] := by
  have hslow : ¬ Chosen ["ble.*", "wifi.*"] ["*slow"] slowSearch.id.text := by decide +kernel
  have hplain : Chosen ["ble.*", "wifi.*"] ["*slow"] plainLink.id.text := by decide +kernel
  have hany : Chosen ["ble.*", "wifi.*"] ["*slow"] anySearch.id.text := by decide +kernel
  simp [radioConfig, hslow, hplain, hany]

/-- Of the three tests that the overrides add, the two that are not slow are selected and
made into checks. -/
theorem Effective.selection_of_build_radios : ∃ e,
    Effective.build .empty none none (some radioLayer) (.ofMillis 0) = .ok e ∧
      e.suiteConfig = .ok radioConfig ∧
      radioConfig.selected = .ok [plainLink, anySearch] ∧
      ∃ cases, casesOf [plainLink, anySearch] = .ok cases ∧
        List.Forall₂ Entry.Provides [plainLink, anySearch] cases := by
  obtain ⟨e, hbuild, hsuite⟩ := build_radioLayer
  obtain ⟨c, hc, hselected, -, -, -, -, -, hcases⟩ := Effective.selection_of_build hbuild
  cases hsuite.symm.trans hc
  rw [show (radioConfig.entries.filter fun e => Chosen radioConfig.settings.includes
    radioConfig.settings.excludes e.id.text) = _ from filter_radioConfig] at hselected hcases
  exact ⟨e, hbuild, hsuite, hselected, _, rfl, (hcases _ rfl).2⟩

end Compliance.Suite
