import RemotePlay.Common.SupportPackage
import RemotePlay.Lib.Lines

/-!
# The sanitised configuration

`Parsec_GenerateSupportPackage` copies `config.ini` line by line. Of a line with
a sensitive key word, in any letter case, it copies no more than what is left of
the first `=`. The key word is looked for in the whole line, the value included,
so a value can cause its own redaction but, after a sensitive key, never
prevent it. Files that differ only in such values have one copy.
-/

namespace RemotePlay.Common.SupportPackage

open Lib

/-- The texts of `sensitiveKeywords`. -/
def sensitiveKeywords : List (List Char) :=
  [['p', 'a', 's', 's', 'w', 'o', 'r', 'd'],
    ['s', 'e', 'c', 'r', 'e', 't'],
    ['t', 'o', 'k', 'e', 'n'],
    ['p', 'r', 'i', 'v', 'a', 't', 'e', '_', 'k', 'e', 'y'],
    ['t', 'x', '_', 'k', 'e', 'y'],
    ['r', 'x', '_', 'k', 'e', 'y'],
    ['c', 'r', 'e', 'd', 'e', 'n', 't', 'i', 'a', 'l'],
    ['a', 'u', 't', 'h', '_', 'k', 'e', 'y']]

def containsSensitiveKey (line : List Char) : Bool :=
  let lowerLine := line.map Char.toLower
  sensitiveKeywords.any fun kw => kw <:+: lowerLine

/-- ` [REDACTED]`, which replaces a value. -/
def redacted : List Char := [' ', '[', 'R', 'E', 'D', 'A', 'C', 'T', 'E', 'D', ']']

/-- `# [REDACTED LINE]`, which replaces a line. -/
def redactedLine : List Char :=
  ['#', ' ', '[', 'R', 'E', 'D', 'A', 'C', 'T', 'E', 'D', ' ', 'L', 'I', 'N', 'E', ']']

/-- What the copy has in place of a line. -/
def sanitizeLine (line : List Char) : List Char :=
  if containsSensitiveKey line then
    match line.findIdx? (· = '=') with
    | some eq => line.take (eq + 1) ++ redacted
    | none => redactedLine
  else line

/-- `Configuration/config.ini`, written from `config.ini`. -/
def sanitizeConfig (cfgIn : List Char) : List Char :=
  unlines '\n' ((lines '\n' cfgIn).map sanitizeLine)

/-! ## Lines that differ in a secret -/

/-- The text has a key word in some letter case. -/
def Sensitive (text : List Char) : Prop :=
  ∃ kw ∈ sensitiveKeywords, ∃ written, written <:+: text ∧ written.map Char.toLower = kw

/-- The two lines have the same text up to and including their first `=`, a sensitive one. -/
def SameSecretKey (line line' : List Char) : Prop :=
  ∃ key value value', '=' ∉ key ∧ Sensitive (key ++ ['=']) ∧
    line = key ++ '=' :: value ∧ line' = key ++ '=' :: value'

/-- The files differ in the values of sensitive keys only. -/
def DifferInSecrets (cfgIn cfgIn' : List Char) : Prop :=
  List.Forall₂ (fun line line' => line = line' ∨ SameSecretKey line line')
    (lines '\n' cfgIn) (lines '\n' cfgIn')

theorem containsSensitiveKey_iff {line : List Char} :
    containsSensitiveKey line = true ↔ Sensitive line := by
  simp only [containsSensitiveKey, List.any_eq_true, decide_eq_true_eq]
  constructor
  · rintro ⟨kw, hkw, pre, post, heq⟩
    -- the symbols that were lowered to the key word
    obtain ⟨rest, post', hsplit, hpre, -⟩ := List.append_eq_map_iff.mp heq
    obtain ⟨pre', written, rfl, -, hwritten⟩ := List.append_eq_map_iff.mp hpre.symm
    exact ⟨kw, hkw, written, ⟨pre', post', hsplit.symm⟩, hwritten⟩
  · rintro ⟨kw, hkw, written, hwritten, rfl⟩
    exact ⟨_, hkw, hwritten.map _⟩

/-- More text does not hide a key word. -/
theorem Sensitive.mono {text text' : List Char} (h : Sensitive text) (hsub : text <:+: text') :
    Sensitive text' := by
  obtain ⟨kw, hkw, written, hwritten, hlower⟩ := h
  exact ⟨kw, hkw, written, hwritten.trans hsub, hlower⟩

theorem findIdx?_separator {key : List Char} (hkey : '=' ∉ key) (value : List Char) :
    (key ++ '=' :: value).findIdx? (· = '=') = some key.length := by
  rw [List.findIdx?_append, List.findIdx?_eq_none_iff.mpr]
  · simp [List.findIdx?_cons]
  · intro c hc
    exact decide_eq_false fun h => hkey (h ▸ hc)

/-- **One line**: of a sensitive key the copy has the key, whatever the value. -/
theorem sanitizeLine_secret {key : List Char} (hkey : '=' ∉ key)
    (hsensitive : Sensitive (key ++ ['='])) (value : List Char) :
    sanitizeLine (key ++ '=' :: value) = key ++ '=' :: redacted := by
  have hprefix : key ++ ['='] <:+: key ++ '=' :: value :=
    ⟨[], value, by rw [List.nil_append, List.append_assoc, List.singleton_append]⟩
  have hfound := containsSensitiveKey_iff.mpr (hsensitive.mono hprefix)
  have htake : (key ++ '=' :: value).take (key.length + 1) = key ++ ['='] := by
    rw [List.take_append, List.take_of_length_le (Nat.le_succ _), Nat.add_sub_cancel_left]
    rfl
  simp only [sanitizeLine, hfound, if_true, findIdx?_separator hkey, htake, List.append_assoc,
    List.singleton_append]

theorem sanitizeLine_eq {line line' : List Char} (h : line = line' ∨ SameSecretKey line line') :
    sanitizeLine line = sanitizeLine line' := by
  rcases h with rfl | ⟨key, value, value', hkey, hsensitive, rfl, rfl⟩
  · rfl
  · rw [sanitizeLine_secret hkey hsensitive, sanitizeLine_secret hkey hsensitive]

/-- **The sanitised configuration** does not depend on the values of sensitive keys. -/
theorem sanitizeConfig_eq {cfgIn cfgIn' : List Char} (h : DifferInSecrets cfgIn cfgIn') :
    sanitizeConfig cfgIn = sanitizeConfig cfgIn' := by
  unfold sanitizeConfig
  unfold DifferInSecrets at h
  generalize lines '\n' cfgIn = ls at h ⊢
  generalize lines '\n' cfgIn' = ls' at h ⊢
  congr 1
  induction h with
  | nil => rfl
  | cons hline _ ih => rw [List.map_cons, List.map_cons, sanitizeLine_eq hline, ih]

/-- A line `p=1`, then a password in mixed case, of which one value has another `=`. -/
theorem sanitizeConfig_password :
    sanitizeConfig ['p', '=', '1', '\n', 'P', 'a', 's', 's', 'W', 'o', 'r', 'd', '=', 'a', '\n'] =
      sanitizeConfig
        ['p', '=', '1', '\n', 'P', 'a', 's', 's', 'W', 'o', 'r', 'd', '=', '=', ';'] := by
  refine sanitizeConfig_eq (.cons (.inl rfl) (.cons (.inr ?_) .nil))
  exact ⟨['P', 'a', 's', 's', 'W', 'o', 'r', 'd'], ['a'], ['=', ';'], by decide,
    ⟨_, List.mem_cons_self, ['P', 'a', 's', 's', 'W', 'o', 'r', 'd'], ⟨[], ['='], rfl⟩, rfl⟩,
    rfl, rfl⟩

end RemotePlay.Common.SupportPackage
