import RemotePlay.Lib.Lines
import RemotePlay.Lib.OrderedMap
import RemotePlay.Lib.Run
import Mathlib.Data.List.Lex
import Mathlib.Data.Nat.Digits.Defs

/-!
# Config

The settings are a map from strings to strings. `load` reads a text file line
by line: it cuts off what stands behind a `#`, splits at the first `=`, trims
both parts and lets a later line win. `save` writes one line per setting and
escapes nothing. Whether a file opens, what it holds and what the clock reads
are inputs.
-/

namespace RemotePlay

open Lib

/-- The bytes of a `std::string`. -/
abbrev Text := List UInt8

/-- The order in which `std::map` keeps strings is bytewise. -/
instance linearOrderUInt8 : LinearOrder UInt8 where
  le_refl _ := UInt8.le_refl _
  le_trans _ _ _ := UInt8.le_trans
  lt_iff_le_not_ge a b := by
    rw [UInt8.lt_iff_toNat_lt, UInt8.le_iff_toNat_le, UInt8.le_iff_toNat_le]
    omega
  le_antisymm _ _ := UInt8.le_antisymm
  le_total := UInt8.le_total
  toDecidableLE := inferInstance

namespace Text

/-- A literal of ASCII characters. -/
def ofChars (cs : List Char) : Text := cs.map Char.toUInt8

/-- `std::to_string`. -/
def ofInt (n : Int) : Text :=
  let digits := if n = 0 then [48] else
    (Nat.digits 10 n.natAbs).reverse.map fun d => UInt8.ofNat (48 + d)
  if n < 0 then '-'.toUInt8 :: digits else digits

end Text

abbrev Settings := Finmap fun _ : Text => Text

structure Config where
  settings : Settings
  filename : Text
  lastLoadTime : Int

namespace Config

def newline : UInt8 := '\n'.toUInt8
def comment : UInt8 := '#'.toUInt8
def separator : UInt8 := '='.toUInt8

/-- The characters that `trim` removes. -/
def isBlank (c : UInt8) : Bool :=
  c = ' '.toUInt8 || c = '\t'.toUInt8 || c = '\r'.toUInt8 || c = newline

/-- A `Config` that has loaded nothing. -/
def fresh : Config := ⟨∅, [], 0⟩

/-! ## Reading and writing files -/

/-- The setting on a line of a file, if there is one. -/
def parseLine (line : Text) : Option (Text × Text) :=
  let line := line.takeWhile (· ≠ comment)
  match line.dropWhile (· ≠ separator) with
  | [] => none
  | _ :: value =>
    let key := trim isBlank (line.takeWhile (· ≠ separator))
    if key.isEmpty then none else some (key, trim isBlank value)

def loadLine (settings : Settings) (line : Text) : Settings :=
  match parseLine line with
  | none => settings
  | some (key, value) => settings.insert key value

/-- `file` is what the file holds, `none` when it does not open. -/
def load (config : Config) (filename : Text) (now : Int) (file : Option Text) : Config × Bool :=
  let config := { config with filename := filename, lastLoadTime := now }
  match file with
  | none => (config, false)
  | some text =>
    ({ config with settings := (lines newline text).foldl loadLine config.settings }, true)

/-- `lastWriteTime` is that of the file, `none` when it cannot be read. -/
def checkHotReload (config : Config) (lastWriteTime : Option Int) (now : Int)
    (file : Option Text) : Config :=
  if config.filename.isEmpty then config
  else
    match lastWriteTime with
    | none => config
    | some time =>
      if config.lastLoadTime < time then (config.load config.filename now file).1 else config

/-- The line that `save` writes for a setting, without its end. -/
def entryLine (entry : Text × Text) : Text := entry.1 ++ separator :: entry.2

/-- What the file holds afterwards, if it opens. -/
def save (config : Config) (opens : Bool) : Option Text :=
  if opens then some (unlines newline ((inOrder config.settings).map entryLine)) else none

/-! ## Setters -/

def setString (config : Config) (key value : Text) : Config :=
  { config with settings := config.settings.insert key value }

def setInt (config : Config) (key : Text) (value : Int) : Config :=
  config.setString key (.ofInt value)

def setBool (config : Config) (key : Text) (value : Bool) : Config :=
  config.setString key
    (.ofChars (if value then ['t', 'r', 'u', 'e'] else ['f', 'a', 'l', 's', 'e']))

/-! ## What a file can hold -/

/-- A setting that `load` reads back from the line that `save` writes for it. -/
structure Storable (entry : Text × Text) : Prop where
  key_ne : entry.1 ≠ []
  key_separator : separator ∉ entry.1
  key_comment : comment ∉ entry.1
  key_newline : newline ∉ entry.1
  key_trimmed : Trimmed isBlank entry.1
  value_comment : comment ∉ entry.2
  value_newline : newline ∉ entry.2
  value_trimmed : Trimmed isBlank entry.2

theorem parseLine_eq_some {line : Text} {entry : Text × Text} :
    parseLine line = some entry ↔
      ∃ key value, line.takeWhile (· ≠ comment) = key ++ separator :: value ∧
        separator ∉ key ∧ trim isBlank key ≠ [] ∧
          entry = (trim isBlank key, trim isBlank value) := by
  unfold parseLine
  generalize line.takeWhile (· ≠ comment) = shown
  constructor
  · intro h
    simp only at h
    split at h
    · cases h
    · next c value hdrop =>
      split at h
      · cases h
      · next hkey =>
        have hc : c = separator := by
          have hne : shown.dropWhile (fun c => decide (c ≠ separator)) ≠ [] := by
            rw [hdrop]
            exact List.cons_ne_nil c value
          have hnot := List.head_dropWhile_not _ hne
          simp only [hdrop, List.head_cons] at hnot
          simpa using hnot
        subst hc
        refine ⟨shown.takeWhile (· ≠ separator), value, ?_, ?_, ?_, (Option.some.inj h).symm⟩
        · rw [← hdrop, List.takeWhile_append_dropWhile]
        · intro hmem
          simpa using List.mem_takeWhile_imp hmem
        · simpa using hkey
  · rintro ⟨key, value, rfl, hsep, hkey, rfl⟩
    have hall : ∀ c ∈ key, decide (c ≠ separator) = true := fun c hc =>
      decide_eq_true fun heq => hsep (heq ▸ hc)
    simp only [List.dropWhile_append_of_pos hall, List.takeWhile_append_of_pos hall]
    simp [hkey]

theorem storable_of_parseLine {line : Text} (hline : newline ∉ line) {entry : Text × Text}
    (h : parseLine line = some entry) : Storable entry := by
  obtain ⟨key, value, hshown, hsep, hkey, rfl⟩ := parseLine_eq_some.mp h
  -- Both parts are cut from the line's text before any `#`.
  have hcut : ∀ c, c ∈ key ∨ c ∈ value → c ∈ line.takeWhile (· ≠ comment) := fun c hc => by
    rw [hshown, List.mem_append, List.mem_cons]
    exact hc.imp id .inr
  have hcomment : ∀ c, c ∈ key ∨ c ∈ value → c ≠ comment := fun c hc => by
    simpa using List.mem_takeWhile_imp (hcut c hc)
  have hnewline : ∀ c, c ∈ key ∨ c ∈ value → c ≠ newline := fun c hc heq =>
    hline (heq ▸ (List.takeWhile_prefix _).subset (hcut c hc))
  exact
    { key_ne := hkey
      key_separator := fun hm => hsep (mem_of_mem_trim hm)
      key_comment := fun hm => hcomment _ (.inl (mem_of_mem_trim hm)) rfl
      key_newline := fun hm => hnewline _ (.inl (mem_of_mem_trim hm)) rfl
      key_trimmed := trimmed_trim key
      value_comment := fun hm => hcomment _ (.inr (mem_of_mem_trim hm)) rfl
      value_newline := fun hm => hnewline _ (.inr (mem_of_mem_trim hm)) rfl
      value_trimmed := trimmed_trim value }

theorem parseLine_entryLine {entry : Text × Text} (h : Storable entry) :
    parseLine (entryLine entry) = some entry := by
  have hline : ∀ c ∈ entryLine entry, decide (c ≠ comment) = true := fun c hc => by
    rcases List.mem_append.mp hc with hc | hc
    · exact decide_eq_true fun heq => h.key_comment (heq ▸ hc)
    · rcases List.mem_cons.mp hc with rfl | hc
      · decide
      · exact decide_eq_true fun heq => h.value_comment (heq ▸ hc)
  have hkey := trim_eq_self_iff.mpr h.key_trimmed
  have hvalue := trim_eq_self_iff.mpr h.value_trimmed
  refine parseLine_eq_some.mpr ⟨entry.1, entry.2, ?_, h.key_separator, ?_, ?_⟩
  · exact List.takeWhile_eq_self_iff.mpr hline
  · rw [hkey]
    exact h.key_ne
  · rw [hkey, hvalue]

theorem newline_notMem_entryLine {entry : Text × Text} (h : Storable entry) :
    newline ∉ entryLine entry := by
  rw [entryLine, List.mem_append, List.mem_cons]
  rintro (hm | hm | hm)
  · exact h.key_newline hm
  · exact absurd hm (by decide)
  · exact h.value_newline hm

theorem foldl_loadLine (settings : Settings) (ls : List Text) :
    ls.foldl loadLine settings = insertAll settings (ls.filterMap parseLine) := by
  induction ls generalizing settings with
  | nil => rfl
  | cons line ls ih =>
    rw [List.foldl_cons, ih, List.filterMap_cons, loadLine]
    cases parseLine line <;> rfl

/-- What a fresh `Config` finds in a file. -/
def loaded (text : Text) : Settings := (lines newline text).foldl loadLine ∅

theorem load_fresh (filename : Text) (now : Int) (text : Text) :
    (fresh.load filename now (some text)).1.settings = loaded text := rfl

/-- Everything that was loaded can be stored. -/
theorem storable_of_loaded {text key value : Text} (h : (loaded text).lookup key = some value) :
    Storable (key, value) := by
  rw [loaded, foldl_loadLine] at h
  rcases mem_or_of_insertAll h with h | h
  · exact absurd h (by simp)
  · obtain ⟨line, hline, hparse⟩ := List.mem_filterMap.mp h
    exact storable_of_parseLine (not_mem_of_mem_lines hline) hparse

/-- What `save` writes when the file opens. -/
def saved (settings : Settings) : Text := unlines newline ((inOrder settings).map entryLine)

theorem save_eq (config : Config) : config.save true = some (saved config.settings) := rfl

theorem loaded_saved {settings : Settings}
    (h : ∀ key value, settings.lookup key = some value → Storable (key, value)) :
    loaded (saved settings) = settings := by
  have hstore : ∀ entry ∈ inOrder settings, Storable entry := fun entry hentry =>
    h entry.1 entry.2 (mem_inOrder.mp hentry)
  have hlines : lines newline (saved settings) = (inOrder settings).map entryLine := by
    refine lines_unlines fun l hl => ?_
    obtain ⟨entry, hentry, rfl⟩ := List.mem_map.mp hl
    exact newline_notMem_entryLine (hstore entry hentry)
  have hparse : ((inOrder settings).map entryLine).filterMap parseLine = inOrder settings := by
    rw [List.filterMap_map]
    have hcongr : ∀ entry ∈ inOrder settings, (parseLine ∘ entryLine) entry = some entry :=
      fun entry hentry => parseLine_entryLine (hstore entry hentry)
    rw [List.filterMap_congr hcongr, List.filterMap_some]
  rw [loaded, hlines, foldl_loadLine, hparse, insertAll_inOrder]

/-- A map survives being saved and loaded just when each of its settings can be stored. -/
theorem loaded_saved_iff {settings : Settings} :
    loaded (saved settings) = settings ↔
      ∀ key value, settings.lookup key = some value → Storable (key, value) := by
  refine ⟨fun h key value hlookup => ?_, loaded_saved⟩
  rw [← h] at hlookup
  exact storable_of_loaded hlookup

/-! ## Restarts -/

/-- A call of one of the setters. -/
inductive Setting where
  | setString (key value : Text)
  | setInt (key : Text) (value : Int)
  | setBool (key : Text) (value : Bool)

def apply (config : Config) : Setting → Config
  | .setString key value => config.setString key value
  | .setInt key value => config.setInt key value
  | .setBool key value => config.setBool key value

/-- A key on one line, without `=` and without surrounding blanks. -/
def ValidKey (key : Text) : Prop :=
  key ≠ [] ∧ newline ∉ key ∧ separator ∉ key ∧ Trimmed isBlank key

/-- A key that is valid, and a value on one line. -/
def Setting.SingleLine : Setting → Prop
  | .setString key value => ValidKey key ∧ newline ∉ value
  | .setInt key _ => ValidKey key
  | .setBool key _ => ValidKey key

instance (key : Text) : Decidable (ValidKey key) :=
  inferInstanceAs (Decidable (key ≠ [] ∧ newline ∉ key ∧ separator ∉ key ∧ Trimmed isBlank key))

instance : (s : Setting) → Decidable s.SingleLine
  | .setString key value => inferInstanceAs (Decidable (ValidKey key ∧ newline ∉ value))
  | .setInt key _ => inferInstanceAs (Decidable (ValidKey key))
  | .setBool key _ => inferInstanceAs (Decidable (ValidKey key))

theorem newline_notMem_ofInt (n : Int) : newline ∉ Text.ofInt n := by
  have hdigits : ∀ ds : List Nat, (∀ d ∈ ds, d < 10) →
      newline ∉ ds.reverse.map fun d => UInt8.ofNat (48 + d) := fun ds hds hmem => by
    obtain ⟨d, hd, heq⟩ := List.mem_map.mp hmem
    have hlt := hds d (List.mem_reverse.mp hd)
    have hnat := congrArg UInt8.toNat heq
    rw [UInt8.toNat_ofNat'] at hnat
    change (48 + d) % 2 ^ 8 = 10 at hnat
    omega
  have hall : newline ∉ (if n = 0 then [48] else
      (Nat.digits 10 n.natAbs).reverse.map fun d => UInt8.ofNat (48 + d) : Text) := by
    split
    · decide
    · exact hdigits _ fun d hd => Nat.digits_lt_base (by decide) hd
  unfold Text.ofInt
  simp only
  split
  · rw [List.mem_cons]
    rintro (heq | hmem)
    · exact absurd heq (by decide)
    · exact hall hmem
  · exact hall

/-- Every setting has a valid key and stands on one line. -/
def SingleLined (config : Config) : Prop :=
  ∀ key value, config.settings.lookup key = some value → ValidKey key ∧ newline ∉ value

theorem setString_singleLined {config : Config} (h : SingleLined config) {key value : Text}
    (hkey : ValidKey key) (hvalue : newline ∉ value) :
    SingleLined (config.setString key value) := by
  intro key' value' hlookup
  change (config.settings.insert key value).lookup key' = some value' at hlookup
  by_cases hk : key' = key
  · subst hk
    rw [Finmap.lookup_insert] at hlookup
    obtain rfl := Option.some.inj hlookup
    exact ⟨hkey, hvalue⟩
  · rw [Finmap.lookup_insert_of_ne _ hk] at hlookup
    exact h key' value' hlookup

theorem apply_singleLined {config : Config} {s : Setting} (h : SingleLined config)
    (hs : s.SingleLine) : SingleLined (config.apply s) := by
  cases s with
  | setString key value => exact setString_singleLined h hs.1 hs.2
  | setInt key value => exact setString_singleLined h hs (newline_notMem_ofInt value)
  | setBool key value => exact setString_singleLined h hs (by cases value <;> decide)

theorem run_singleLined {sets : List Setting} (h : ∀ s ∈ sets, s.SingleLine) :
    SingleLined (run apply fresh sets) := by
  have hfresh : SingleLined fresh := fun key value hlookup => absurd hlookup (by simp [fresh])
  exact run_invariant (fun _ _ => apply_singleLined) hfresh (along_of_forall h)

/-- **Which settings survive a restart.** Of the settings that the setters leave, all come back
when no key and no value has a `#` and no value begins or ends with a blank; else some do not. -/
theorem settings_survive_iff (filename : Text) (now : Int) {sets : List Setting}
    (h : ∀ s ∈ sets, s.SingleLine) :
    (fresh.load filename now ((run apply fresh sets).save true)).1.settings =
        (run apply fresh sets).settings ↔
      ∀ key value, (run apply fresh sets).settings.lookup key = some value →
        comment ∉ key ∧ comment ∉ value ∧ Trimmed isBlank value := by
  rw [save_eq, load_fresh, loaded_saved_iff]
  refine forall_congr' fun key => forall_congr' fun value => imp_congr_right fun hlookup => ?_
  obtain ⟨⟨hne, hnewline, hsep, htrim⟩, hvalue⟩ := run_singleLined h _ _ hlookup
  constructor
  · intro hstore
    exact ⟨hstore.key_comment, hstore.value_comment, hstore.value_trimmed⟩
  · rintro ⟨hkey, hcomment, htrimmed⟩
    exact ⟨hne, hsep, hkey, hnewline, htrim, hcomment, hvalue, htrimmed⟩

def username : Text := .ofChars ['u', 's', 'e', 'r', 'n', 'a', 'm', 'e']

/-- The user calls himself `C# fan`. -/
def renamed : List Setting := [.setString username (.ofChars ['C', '#', ' ', 'f', 'a', 'n'])]

theorem settings_survive_iff_renamed :
    (∀ s ∈ renamed, s.SingleLine) ∧
      ((fresh.load [] 0 ((run apply fresh renamed).save true)).1.settings =
          (run apply fresh renamed).settings ↔
        ∀ key value, (run apply fresh renamed).settings.lookup key = some value →
          comment ∉ key ∧ comment ∉ value ∧ Trimmed isBlank value) :=
  ⟨by decide, settings_survive_iff [] 0 (by decide)⟩

/-- After a restart he is called `C`. -/
theorem username_truncated :
    (∀ s ∈ renamed, s.SingleLine) ∧
      (fresh.load [] 0 ((run apply fresh renamed).save true)).1.settings.lookup username =
        some (.ofChars ['C']) ∧
      (fresh.load [] 0 ((run apply fresh renamed).save true)).1.settings ≠
        (run apply fresh renamed).settings := by
  have hloaded : (fresh.load [] 0 ((run apply fresh renamed).save true)).1.settings.lookup
      username = some (.ofChars ['C']) := by decide +kernel
  refine ⟨by decide, hloaded, fun heq => ?_⟩
  have hsaved : (run apply fresh renamed).settings.lookup username =
      some (.ofChars ['C', '#', ' ', 'f', 'a', 'n']) := Finmap.lookup_insert _
  rw [heq, hsaved] at hloaded
  exact absurd hloaded (by decide)

/-- **Loading normalises.** What a fresh `Config` finds in any file is saved to a file in which
the next fresh one finds the same. -/
theorem load_save_load (filename filename' : Text) (now now' : Int) (text : Text) :
    (fresh.load filename' now' ((fresh.load filename now (some text)).1.save true)).1.settings =
      (fresh.load filename now (some text)).1.settings := by
  rw [save_eq, load_fresh, load_fresh]
  exact loaded_saved fun key value => storable_of_loaded

end Config

end RemotePlay
