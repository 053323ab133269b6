import TestImpact.Proofs.Results
import TestImpact.Proofs.Table.Unquoted
import TestImpact.Settings.Effective
import TestImpact.Settings.Parser

/-!
# Valid settings

The values of a settings file are checked when the file is read: all of them pass
(`check_eq_ok_iff`), so whatever is taken from the file, and whatever is left as usual, is valid
(`EffectiveSettings.ofSettings_of_checked`). A value of the command line comes before that. Of these
the delimiter is checked and the extension is not. So everything but the extension is valid in the
end, and an extension that is blank gets through from the command line, and from nowhere else
(`resolve_valid_iff`).
-/

namespace TestImpact

/-- Whether a text has a character that is not blank. -/
def IsVisible (s : String) : Prop := ∃ c ∈ s.toList, Text.isBlank c = false

theorem trim_isEmpty_eq_false_iff {s : String} :
    (Text.trim s.toList).isEmpty = false ↔ IsVisible s := by
  rw [← Bool.not_eq_true, List.isEmpty_iff, Text.trim_eq_nil_iff]
  simp [IsVisible]

namespace Settings

/-- Settings whose values are all valid. -/
structure Checked (s : Settings) : Prop where
  extension : ∀ e ∈ s.detector.extension, IsVisible e
  pattern : ∀ p ∈ s.detector.signaturePattern, ∃ e, Expression.parse p = .ok e
  delimiter : ∀ d ∈ s.tables.delimiter, d ≠ ""
  separator : ∀ w ∈ s.tables.separator, ∃ c, separator? w = .ok c
  perPage : ∀ n ∈ s.hosting.perPage, 1 ≤ n ∧ n ≤ 100

theorem refuseIf_eq_ok_iff {α : Type} {bad : α → Bool} {fault : α → SettingFault} {x? : Option α} :
    refuseIf bad fault x? = .ok () ↔ ∀ x ∈ x?, bad x = false := by
  cases x? with
  | none => simp [refuseIf]
  | some x => cases h : bad x <;> simp [refuseIf, h]

theorem forM_eq_ok_iff {α : Type} {f : α → Except SettingFault Unit} {x? : Option α} :
    x?.forM f = .ok () ↔ ∀ x ∈ x?, f x = .ok () := by
  cases x? with
  | none => simp [Option.forM, pure, Except.pure]
  | some x => simp [Option.forM]

theorem checkPattern_eq_ok_iff {p : String} :
    checkPattern p = .ok () ↔ ∃ e, Expression.parse p = .ok e := by
  unfold checkPattern
  split
  · next e he => simp [he]
  · next cause he => simp [he]

/-- Checks one after the other pass when each does. -/
theorem seq_eq_ok_iff {ε α : Type} {x : Except ε Unit} {y : Except ε α} {a : α} :
    (x >>= fun _ => y) = .ok a ↔ x = .ok () ∧ y = .ok a := by
  rw [bind_eq_ok_iff]
  constructor
  · rintro ⟨⟨⟩, hx, hy⟩
    exact ⟨hx, hy⟩
  · rintro ⟨hx, hy⟩
    exact ⟨(), hx, hy⟩

/-- Settings pass exactly if all of their values are valid. -/
theorem check_eq_ok_iff {s : Settings} : s.check = .ok () ↔ s.Checked := by
  have hextension : ∀ e : String, (Text.trim e.toList).isEmpty = false ↔ IsVisible e :=
    fun _ => trim_isEmpty_eq_false_iff
  have hseparator : ∀ w, (separator? w >>= fun _ => pure ()) = .ok () ↔
      ∃ c, separator? w = .ok c := by
    intro w
    simp [bind_eq_ok_iff, pure, Except.pure]
  have hperPage : ∀ n : Nat, (decide (n < 1) || decide (100 < n)) = false ↔ 1 ≤ n ∧ n ≤ 100 := by
    intro n
    simp only [Bool.or_eq_false_iff, decide_eq_false_iff_not]
    omega
  have hdelimiter : ∀ d : String, d.isEmpty = false ↔ d ≠ "" := by
    intro d
    simp
  simp only [check, seq_eq_ok_iff, refuseIf_eq_ok_iff, forM_eq_ok_iff, checkPattern_eq_ok_iff,
    hextension, hseparator, hperPage, hdelimiter]
  constructor
  · rintro ⟨he, hp, hd, hs, hn⟩
    exact ⟨he, hp, hd, hs, hn⟩
  · rintro ⟨he, hp, hd, hs, hn⟩
    exact ⟨he, hp, hd, hs, hn⟩

/-- Settings that have been read and checked, from a text or from a file. -/
def Accepted (s : Settings) : Prop :=
  ∃ text, parse text = .ok s ∨ ∃ path, ofFile path text = .ok s

/-- A text is accepted exactly if it is a table of settings whose values are all valid. -/
theorem parse_eq_ok_iff {text : List Char} {s : Settings} :
    parse text = .ok s ↔
      ∃ fields, Toml.parse? text = some fields ∧ ofToml? (.table fields) = some s ∧ s.Checked := by
  unfold parse
  constructor
  · intro h
    split at h
    · cases h
    · next hread =>
      obtain ⟨fields, hfields, hs⟩ := Option.bind_eq_some_iff.mp hread
      split at h
      · next hcheck =>
        cases h
        exact ⟨fields, hfields, hs, check_eq_ok_iff.mp hcheck⟩
      · cases h
  · rintro ⟨fields, hfields, hs, hchecked⟩
    simp only [hfields, Option.bind_some, hs, check_eq_ok_iff.mpr hchecked]

/-- Settings that have been parsed have passed the checks. -/
theorem checked_of_parse {text : List Char} {s : Settings} (h : parse text = .ok s) :
    s.Checked := by
  obtain ⟨fields, -, -, hchecked⟩ := parse_eq_ok_iff.mp h
  exact hchecked

/-- The paths of the tables are not checked, so they may be moved. -/
theorem Checked.rebase {s : Settings} (h : s.Checked) (directory : String) :
    (s.rebase directory).Checked :=
  ⟨h.extension, h.pattern, h.delimiter, h.separator, h.perPage⟩

theorem Accepted.checked {s : Settings} (h : s.Accepted) : s.Checked := by
  obtain ⟨text, hparse | ⟨path, hfile⟩⟩ := h
  · exact checked_of_parse hparse
  · obtain ⟨raw, hparse, rfl⟩ := map_eq_ok_iff.mp hfile
    split
    · exact (checked_of_parse hparse).rebase _
    · exact checked_of_parse hparse

end Settings

namespace EffectiveSettings

/-- Settings that are valid but for the extension. -/
structure Sound (e : EffectiveSettings) : Prop where
  delimiter : e.format.delimiter ≠ ""
  separator : e.format.separator ≠ '"' ∧ e.format.separator ≠ '\n'
  perPage : 1 ≤ e.perPage ∧ e.perPage ≤ 100
  pattern : ∀ p ∈ e.signaturePattern, ∃ x, Expression.parse p = .ok x

/-- Settings that are valid. -/
structure Valid (e : EffectiveSettings) : Prop extends Sound e where
  extension : IsVisible e.detector.extension

/-- The usual values are valid. -/
theorem valid_usual : Valid {} where
  delimiter := by decide
  separator := by decide
  perPage := by decide
  pattern := by simp
  extension := ⟨'.', by decide, by decide⟩

theorem forall_getD {α : Type} {P : α → Prop} {x? : Option α} {usual : α}
    (h : ∀ x ∈ x?, P x) (husual : P usual) : P (x?.getD usual) := by
  cases x? with
  | none => exact husual
  | some x => exact h x rfl

/-- Settings are valid that take what has been checked, and the usual values where there is
nothing. -/
theorem valid_of_checked {s : Settings} (h : s.Checked) {e : EffectiveSettings}
    (hextension : e.detector.extension = s.detector.extension.getD ".java")
    (hpattern : e.signaturePattern = s.detector.signaturePattern)
    (hdelimiter : e.format.delimiter = s.tables.delimiter.getD "_")
    (hseparator : e.format.separator ≠ '"' ∧ e.format.separator ≠ '\n')
    (hperPage : e.perPage = s.hosting.perPage.getD 100) : e.Valid where
  delimiter := by
    rw [hdelimiter]
    exact forall_getD h.delimiter (by decide)
  separator := hseparator
  perPage := by
    rw [hperPage]
    exact forall_getD h.perPage (by decide)
  pattern := by
    rw [hpattern]
    exact h.pattern
  extension := by
    rw [hextension]
    exact forall_getD h.extension valid_usual.extension

/-- Settings that have been checked are taken over without a fault. -/
theorem exists_ofSettings {s : Settings} (h : s.Checked) :
    ∃ e, ofSettings s = .ok e ∧ e.Valid := by
  cases hs : s.tables.separator with
  | none =>
    rw [ofSettings, hs]
    exact ⟨_, rfl, valid_of_checked h rfl rfl rfl valid_usual.separator rfl⟩
  | some written =>
    obtain ⟨c, hc⟩ := h.separator written hs
    rw [ofSettings, hs]
    simp only [hc]
    exact ⟨_, rfl, valid_of_checked h rfl rfl rfl (Table.separator?_ne hc) rfl⟩

/-- Whatever the file says, the values of the command line are put over valid ones. -/
theorem exists_base {settings : Option Settings} (h : ∀ s ∈ settings, s.Accepted) :
    ∃ e : EffectiveSettings, e.Valid ∧ ∀ o, resolve settings o = e.override o := by
  cases settings with
  | none => exact ⟨{}, valid_usual, fun _ => rfl⟩
  | some s =>
    obtain ⟨e, he, hvalid⟩ := exists_ofSettings (h s rfl).checked
    refine ⟨e, hvalid, ?_⟩
    intro o
    rw [resolve]
    simp only [he]
    rfl

/-- Overriding fails for an empty delimiter and for nothing else. -/
theorem override_eq_error_iff {e : EffectiveSettings} {o : Overrides} {fault : SettingFault} :
    e.override o = .error fault ↔ o.delimiter = some "" ∧ fault = .emptyOverride := by
  unfold override
  split
  · next h => simp [h, eq_comm]
  · next h => simp [h]

/-- The delimiter of the command line is checked, and its extension is not. -/
theorem valid_of_override {e e' : EffectiveSettings} (h : e.Valid) {o : Overrides}
    (hoverride : e.override o = .ok e') :
    e'.Sound ∧ (e'.Valid ↔ ∀ x ∈ o.extension, IsVisible x) := by
  unfold override at hoverride
  split at hoverride
  · cases hoverride
  · next hdelimiter =>
    have hgiven : ∀ d ∈ o.delimiter, d ≠ "" := by
      rintro d hd rfl
      exact hdelimiter hd
    have hextension : e'.detector.extension = o.extension.getD e.detector.extension := by
      cases hoverride
      rfl
    have hsound : e'.Sound := by
      cases hoverride
      exact ⟨forall_getD hgiven h.delimiter, h.separator, h.perPage, h.pattern⟩
    refine ⟨hsound, ?_, ?_⟩
    · intro hvalid x hx
      have hvisible := hvalid.extension
      rwa [hextension, Option.mem_def.mp hx] at hvisible
    · intro hvisible
      refine ⟨hsound, ?_⟩
      rw [hextension]
      exact forall_getD hvisible h.extension

/-- Whatever settings and values of the command line come together, what holds in the end is valid,
or else a value of the command line is refused. -/
def AlwaysValid : Prop :=
  ∀ settings : Option Settings, (∀ s ∈ settings, s.Accepted) → ∀ o : Overrides,
    (∀ e, resolve settings o = .ok e → e.Valid) ∧
    ∀ fault, resolve settings o = .error fault →
      o.delimiter = some "" ∨ ∃ x ∈ o.extension, ¬ IsVisible x

/-- **What holds in the end is valid but for the extension.** That is valid if and only if the
command line does not give a blank one. Settings that have been accepted are never the reason why
nothing holds: the only value that is refused here is an empty delimiter of the command line. -/
theorem resolve_valid_iff {settings : Option Settings} (h : ∀ s ∈ settings, s.Accepted)
    (o : Overrides) :
    (∀ e, resolve settings o = .ok e →
      e.Sound ∧ (e.Valid ↔ ∀ x ∈ o.extension, IsVisible x)) ∧
    ∀ fault, resolve settings o = .error fault ↔
      o.delimiter = some "" ∧ fault = .emptyOverride := by
  obtain ⟨e, hvalid, hresolve⟩ := exists_base h
  rw [hresolve]
  exact ⟨fun e' he' => valid_of_override hvalid he', fun _ => override_eq_error_iff⟩

/-- The text of a settings file with a value in every section that is checked. -/
def kotlinFile : List Char :=
  ("[detector]\nextension = \".kt\"\n[tables]\ndelimiter = \"|\"\nfield_separator = \"tab\"\n" ++
    "[github]\nper_page = 30\n").toList

/-- What it says. -/
def kotlinSettings : Settings where
  detector := { extension := some ".kt" }
  tables := { delimiter := some "|", separator := some "tab" }
  hosting := { perPage := some 30 }

/-- Settings of another language: valid as they are, but not with an empty extension. -/
theorem resolve_valid_iff_kotlin :
    (∀ s ∈ some kotlinSettings, s.Accepted) ∧
    (∃ e, resolve (some kotlinSettings) {} = .ok e ∧ e.Valid) ∧
    (∃ e, resolve (some kotlinSettings) { extension := some " " } = .ok e ∧
      e.Sound ∧ ¬ e.Valid) ∧
    resolve (some kotlinSettings) { delimiter := some "" } = .error .emptyOverride := by
  have haccepted : ∀ s ∈ some kotlinSettings, s.Accepted := by
    rintro s ⟨⟩
    exact ⟨kotlinFile, .inl (by decide +kernel)⟩
  refine ⟨haccepted, ⟨_, rfl, ?_⟩, ⟨_, rfl, ?_⟩, ?_⟩
  · exact ((resolve_valid_iff haccepted {}).1 _ rfl).2.mpr (by simp)
  · obtain ⟨hsound, hvalid⟩ := (resolve_valid_iff haccepted { extension := some " " }).1 _ rfl
    refine ⟨hsound, mt hvalid.mp ?_⟩
    intro hvisible
    obtain ⟨c, hc, hblank⟩ := hvisible " " rfl
    obtain rfl : c = ' ' := by simpa using hc
    cases hblank
  · exact ((resolve_valid_iff haccepted { delimiter := some "" }).2 _).mpr ⟨rfl, rfl⟩

/-- An empty extension of the command line is taken, without any settings file. -/
theorem not_alwaysValid : ¬ AlwaysValid := by
  intro hclaim
  obtain ⟨hok, -⟩ := hclaim none (by simp) { extension := some "" }
  obtain ⟨c, hc, -⟩ := (hok _ rfl).extension
  cases hc

end EffectiveSettings

end TestImpact
