/-
  Z80.Proofs.Configuration

  The settings that a run finds.

  A run takes its settings from the file that its command line names, else from the user's own
  if there is one.  It finds settings exactly if the document in that file says something about
  them, or there is no such file (`Program.settings_eq_ok_iff`); what a document says is up to
  the format.

  In TOML an entry gives a value for one setting and may be missing (`Toml.Gives`), and a
  document says what its entries give (`Settings.Given.parse?_eq_some_iff`).
-/

import Z80.Program.Formats

namespace Z80

/-! ## The file of a run -/

namespace Program

/-- The file that a run takes its settings from: the one that is named, else the user's own if
    there is one. -/
inductive SettingsFile (c : CommandLine) (files : Files) (userSettings : Option String) :
    Option String → Prop where
  | named {path : String} (h : c.config = some path) :
    SettingsFile c files userSettings (some path)
  | own {path : String} (hnone : c.config = none) (h : userSettings = some path)
      (hfile : files.isFile path = true) : SettingsFile c files userSettings (some path)
  | absent (hnone : c.config = none) (h : ∀ path ∈ userSettings, files.isFile path = false) :
    SettingsFile c files userSettings none

/-- What the file of a run says about its settings; nothing if there is no such file. -/
inductive Configured (formats : Formats) (c : CommandLine) (files : Files)
    (userSettings : Option String) : Settings.Given → Prop where
  | absent (hpath : SettingsFile c files userSettings none) :
    Configured formats c files userSettings {}
  | file {path text : String} {bytes : ByteArray} {g : Settings.Given}
      (hpath : SettingsFile c files userSettings (some path))
      (hread : files.read path = .ok bytes) (htext : String.fromUTF8? bytes = some text)
      (hgiven : formats.settings text = .ok g) : Configured formats c files userSettings g

variable (formats : Formats) (c : CommandLine) (files : Files) (userSettings : Option String)

theorem settingsFile_settingsPath :
    SettingsFile c files userSettings (settingsPath c files userSettings) := by
  unfold settingsPath
  cases hconfig : c.config with
  | some path => exact .named hconfig
  | none =>
    cases huser : userSettings with
    | none => exact .absent hconfig (by simp)
    | some path =>
      show SettingsFile c files (some path) (if files.isFile path = true then some path else none)
      split
      case isTrue hfile => exact .own hconfig rfl hfile
      case isFalse hfile => exact .absent hconfig (by simpa using hfile)

variable {c files userSettings}

theorem SettingsFile.unique {path path' : Option String}
    (h : SettingsFile c files userSettings path) (h' : SettingsFile c files userSettings path') :
    path = path' := by
  cases h with
  | named h =>
    cases h' with
    | named h' => exact h.symm.trans h'
    | own hnone' => cases hnone'.symm.trans h
    | absent hnone' => cases hnone'.symm.trans h
  | own hnone h hfile =>
    cases h' with
    | named h' => cases hnone.symm.trans h'
    | own _ h' => exact h.symm.trans h'
    | absent _ h' => cases hfile.symm.trans (h' _ h)
  | absent hnone h =>
    cases h' with
    | named h' => cases hnone.symm.trans h'
    | own _ h' hfile' => cases (h _ h').symm.trans hfile'
    | absent => rfl

theorem settingsPath_eq_iff (path : Option String) :
    settingsPath c files userSettings = path ↔ SettingsFile c files userSettings path := by
  constructor
  · rintro rfl
    exact settingsFile_settingsPath c files userSettings
  · exact (settingsFile_settingsPath c files userSettings).unique

/-- Settings are found in what is read exactly if it is a text that says something about them. -/
theorem settingsIn_eq_ok_iff (path : String) (contents : Except FileError ByteArray)
    (s : Settings) :
    settingsIn formats path contents = .ok s ↔
      ∃ bytes text g, contents = .ok bytes ∧ String.fromUTF8? bytes = some text ∧
        formats.settings text = .ok g ∧ s = g.toSettings := by
  constructor
  · intro h
    cases contents with
    | error e => cases h
    | ok bytes =>
      rw [settingsIn] at h
      cases htext : String.fromUTF8? bytes with
      | none =>
        rw [htext] at h
        cases h
      | some text =>
        cases hgiven : formats.settings text with
        | error message =>
          simp only [htext, hgiven] at h
          cases h
        | ok g =>
          simp only [htext, hgiven] at h
          cases h
          exact ⟨bytes, text, g, rfl, htext, hgiven, rfl⟩
  · rintro ⟨bytes, text, g, rfl, htext, hgiven, rfl⟩
    simp only [settingsIn, htext, hgiven]

/-- A run finds settings exactly if its file says something about them. -/
theorem settings_eq_ok_iff (s : Settings) :
    settings formats c files userSettings = .ok s ↔
      ∃ g, Configured formats c files userSettings g ∧ s = g.toSettings := by
  constructor
  · intro h
    cases hpath : settingsPath c files userSettings with
    | none =>
      rw [settings, hpath] at h
      cases h
      exact ⟨{}, .absent ((settingsPath_eq_iff _).mp hpath), rfl⟩
    | some path =>
      rw [settings, hpath] at h
      obtain ⟨bytes, text, g, hread, htext, hgiven, rfl⟩ :=
        (settingsIn_eq_ok_iff formats _ _ _).mp h
      exact ⟨g, .file ((settingsPath_eq_iff _).mp hpath) hread htext hgiven, rfl⟩
  · rintro ⟨g, hconfigured, rfl⟩
    cases hconfigured with
    | absent hpath =>
      rw [settings, (settingsPath_eq_iff _).mpr hpath]
      rfl
    | file hpath hread htext hgiven =>
      rw [settings, (settingsPath_eq_iff _).mpr hpath]
      exact (settingsIn_eq_ok_iff formats _ _ _).mpr ⟨_, _, g, hread, htext, hgiven, rfl⟩

end Program

/-! ## Entries of a document -/

namespace Toml

/-- An entry gives a value: none if it is missing, else one that it stands for. -/
inductive Gives {α : Type} (StandsFor : Toml → α → Prop) : Option Toml → Option α → Prop where
  | missing : Gives StandsFor none none
  | there {v : Toml} {a : α} (h : StandsFor v a) : Gives StandsFor (some v) (some a)

/-- A value stands for a truth value. -/
def IsBool (v : Toml) (b : Bool) : Prop :=
  v = bool b

/-- A value stands for an address. -/
def IsWord (v : Toml) (w : Word) : Prop :=
  v = int w.toNat

/-- A value stands for a number of steps, below 2^64. -/
def IsSteps (v : Toml) (n : UInt64) : Prop :=
  v = int n.toNat

/-- A value stands for a speed: a floating-point number, or an integer as one. -/
def IsSpeed (v : Toml) (f : Float) : Prop :=
  v.float? = some f

variable {α : Type} {StandsFor : Toml → α → Prop} {read? : Toml → Option α} {field : Option Toml}
  {v : Toml}

theorem bool?_eq_some_iff (v : Toml) (b : Bool) : v.bool? = some b ↔ v.IsBool b := by
  cases v <;> simp [bool?, IsBool]

theorem float?_eq_some_iff (v : Toml) (f : Float) : v.float? = some f ↔ v.IsSpeed f := Iff.rfl

theorem natBelow?_eq_some_iff (bound : Nat) (v : Toml) (n : Nat) :
    v.natBelow? bound = some n ↔ v = int n ∧ n < bound := by
  cases v with
  | int i =>
    simp only [natBelow?, Option.ite_none_right_eq_some, Option.some.injEq, int.injEq]
    omega
  | _ => simp [natBelow?]

theorem word?_eq_some_iff (v : Toml) (w : Word) :
    (v.natBelow? 65536).map Nat.toUInt16 = some w ↔ v.IsWord w := by
  simp only [Option.map_eq_some_iff, natBelow?_eq_some_iff, IsWord]
  constructor
  · rintro ⟨n, ⟨rfl, hn⟩, rfl⟩
    have hround : n.toUInt16.toNat = n := UInt16.toNat_ofNat_of_lt' hn
    rw [hround]
  · rintro rfl
    exact ⟨w.toNat, ⟨rfl, w.toNat_lt⟩, UInt16.ofNat_toNat⟩

theorem steps?_eq_some_iff (v : Toml) (n : UInt64) :
    (v.natBelow? 0x10000000000000000).map Nat.toUInt64 = some n ↔ v.IsSteps n := by
  simp only [Option.map_eq_some_iff, natBelow?_eq_some_iff, IsSteps]
  constructor
  · rintro ⟨n, ⟨rfl, hn⟩, rfl⟩
    have hround : n.toUInt64.toNat = n := UInt64.toNat_ofNat_of_lt' hn
    rw [hround]
  · rintro rfl
    exact ⟨n.toNat, ⟨rfl, n.toNat_lt⟩, UInt64.ofNat_toNat⟩

/-- An entry that may be missing is read as what it gives. -/
theorem given?_eq_some_iff (h : ∀ v a, read? v = some a ↔ StandsFor v a) (given : Option α) :
    given? read? field = some given ↔ Gives StandsFor field given := by
  constructor
  · intro hread
    cases field with
    | none =>
      cases hread
      exact .missing
    | some v =>
      obtain ⟨a, ha, rfl⟩ := Option.map_eq_some_iff.mp hread
      exact .there ((h v a).mp ha)
  · intro hgives
    cases hgives with
    | missing => rfl
    | there hstands => exact Option.map_eq_some_iff.mpr ⟨_, (h _ _).mpr hstands, rfl⟩

end Toml

/-! ## Settings in a document -/

/-- A value of the clock gives a speed and whether to keep to it. -/
inductive Clock.IsGiven (v : Toml) : Option Float × Option Bool → Prop where
  | intro {field : String → Nat → Option Toml} {mhz : Option Float} {realtime : Option Bool}
      (hfields : v.fields? = some field) (hmhz : Toml.Gives Toml.IsSpeed (field "mhz" 0) mhz)
      (hrealtime : Toml.Gives Toml.IsBool (field "realtime" 1) realtime) :
      IsGiven v (mhz, realtime)

theorem Clock.given?_eq_some_iff (v : Toml) (k : Option Float × Option Bool) :
    Clock.given? v = some k ↔ Clock.IsGiven v k := by
  simp only [given?, Option.bind_eq_bind, Option.bind_eq_some_iff, Option.some.injEq,
    Toml.given?_eq_some_iff Toml.bool?_eq_some_iff,
    Toml.given?_eq_some_iff Toml.float?_eq_some_iff]
  constructor
  · rintro ⟨field, hfields, mhz, hmhz, realtime, hrealtime, rfl⟩
    exact .intro hfields hmhz hrealtime
  · rintro ⟨hfields, hmhz, hrealtime⟩
    exact ⟨_, hfields, _, hmhz, _, hrealtime, rfl⟩

namespace Settings.Given

/-- The entries of a document are all settings, and give what is said about them. -/
structure GivenBy (entries : Toml.Entries) (g : Given) : Prop where
  known : ∀ e ∈ entries, e.1 ∈ names
  clock : ∃ k, Toml.Gives Clock.IsGiven (entries.lookup "clock") k ∧
    (g.mhz, g.realtime) = k.getD (none, none)
  loadAddress : Toml.Gives Toml.IsWord (entries.lookup "load_address") g.loadAddress
  entryPoint : Toml.Gives Toml.IsWord (entries.lookup "entry_point") g.entryPoint
  maxSteps : Toml.Gives Toml.IsSteps (entries.lookup "max_steps") g.maxSteps
  stopOnHalt : Toml.Gives Toml.IsBool (entries.lookup "stop_on_halt") g.stopOnHalt

theorem any_unknown_iff (entries : Toml.Entries) :
    (entries.any fun e => !names.contains e.1) = true ↔ ¬∀ e ∈ entries, e.1 ∈ names := by
  simp

theorem ofEntries?_eq_some_iff (entries : Toml.Entries) (g : Given) :
    ofEntries? entries = some g ↔ GivenBy entries g := by
  unfold ofEntries?
  by_cases hknown : ∀ e ∈ entries, e.1 ∈ names
  · rw [if_neg (mt (any_unknown_iff entries).mp (not_not_intro hknown))]
    -- each entry is read by itself, so reading all of them splits into one part for each
    simp only [Option.bind_eq_bind, Option.bind_eq_some_iff, Option.some.injEq,
      Toml.given?_eq_some_iff Clock.given?_eq_some_iff,
      Toml.given?_eq_some_iff Toml.word?_eq_some_iff,
      Toml.given?_eq_some_iff Toml.steps?_eq_some_iff,
      Toml.given?_eq_some_iff Toml.bool?_eq_some_iff]
    constructor
    · rintro ⟨k, hclock, loadAddress, hload, entryPoint, hentry, maxSteps, hsteps, stopOnHalt,
        hstop, rfl⟩
      exact ⟨hknown, ⟨k, hclock, rfl⟩, hload, hentry, hsteps, hstop⟩
    · intro hg
      obtain ⟨k, hclock, hk⟩ := hg.clock
      refine ⟨k, hclock, _, hg.loadAddress, _, hg.entryPoint, _, hg.maxSteps, _, hg.stopOnHalt, ?_⟩
      rw [← hk]
  · rw [if_pos ((any_unknown_iff entries).mpr hknown)]
    constructor
    · intro h
      cases h
    · intro hg
      exact absurd hg.known hknown

/-- A text says what the entries of its document give. -/
theorem parse?_eq_some_iff (text : String) (g : Given) :
    parse? text = some g ↔ ∃ entries, Toml.parse? text = some entries ∧ GivenBy entries g := by
  simp only [parse?, Option.bind_eq_some_iff, ofEntries?_eq_some_iff]

end Settings.Given

end Z80
