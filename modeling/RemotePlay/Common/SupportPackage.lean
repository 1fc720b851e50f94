import RemotePlay.Lib.Shell
import Mathlib.Data.List.Infix
import Mathlib.Data.List.TakeWhile

/-!
# The support package

`Parsec_GenerateSupportPackage` has the report directory packed by a shell
command that ends in the path it was given. `isSafePath` refuses some
characters of the shell and lets others through, of which blanks are the ones
that hand `tar` further arguments. A string is its bytes, each the character
with that code.
-/

namespace RemotePlay.Common.SupportPackage

open Lib

def forbidden : List Char := [';', '|', '&', '\x60', '$', '<', '>', '\x22', '\x27', '\r', '\n']

def isSafePath (path : List Char) : Bool :=
  if path.isEmpty || path.length > 512 then false
  -- path traversal
  else if ['.', '.'] <:+: path then false
  -- command injection characters
  else path.all fun c => c ∉ forbidden

def reportDir : List Char :=
  ['S', 'u', 'p', 'p', 'o', 'r', 't', 'R', 'e', 'p', 'o', 'r', 't']

def tarCmd (outPathStr : List Char) : List Char :=
  ['t', 'a', 'r', ' ', '-', 'c', 'z', 'f', ' '] ++ outPathStr ++ [' '] ++ reportDir

/-- What a function that takes a C string sees of a string. -/
def cStr (s : List Char) : List Char := s.takeWhile (· ≠ '\x00')

/-- `Parsec_GenerateSupportPackage` up to the line it passes to `system`, if it gets that far. -/
def generateSupportPackage (outputPath : Option (List Char)) : Option (List Char) :=
  match outputPath with
  | none => none
  | some outputPath =>
    let outPathStr := cStr outputPath
    if !isSafePath outPathStr then none
    else some (cStr (tarCmd outPathStr))

/-- The short options of `tar` that are followed by a value: of those used here, `f`. -/
def tarTakesValue (c : Char) : Bool := c = 'f'

/-- The shell runs `tar` with the path as one word, and `tar` takes it for the name of the archive
and has no other options. -/
structure ReadAsMeant (path : List Char) : Prop where
  words : Shell.command (cStr (tarCmd path)) =
    some [['t', 'a', 'r'], ['-', 'c', 'z', 'f'], path, reportDir]
  options : ∀ argv, Shell.command (cStr (tarCmd path)) = some argv →
    Shell.arguments tarTakesValue none argv.tail =
      [.option ['c'] none, .option ['z'] none, .option ['f'] (some path), .operand reportDir]

/-- Characters that `isSafePath` lets through and the shell does not take for themselves. -/
def special : List Char := ['\x00', ' ', '\t', '\\', '(', ')']

structure Clean (path : List Char) : Prop where
  chars : ∀ c ∈ path, c ∉ special
  hash : path.head? ≠ some '#'
  tilde : path.head? ≠ some '~'
  pattern : (Shell.bare path).pattern = false

/-! ## Safe characters -/

theorem nonempty_of_safe {path : List Char} (h : isSafePath path = true) : path ≠ [] := by
  rintro rfl
  cases h

theorem notMem_forbidden {path : List Char} (h : isSafePath path = true) :
    ∀ c ∈ path, c ∉ forbidden := by
  unfold isSafePath at h
  split at h
  · cases h
  · split at h
    · cases h
    · exact fun c hc => of_decide_eq_true (List.all_eq_true.mp h c hc)

/-- A character that is let through stands for itself, unless it is a special one. -/
theorem kind_of_safe {c : Char} (hsafe : c ∉ forbidden) :
    c ∉ special ↔ c ≠ '\x00' ∧ (Shell.kind c = .plain ∨ Shell.kind c = .hash) := by
  constructor
  · intro hspecial
    simp only [forbidden, special, List.mem_cons, not_or] at hsafe hspecial
    refine ⟨hspecial.1, ?_⟩
    by_cases hhash : c = '#'
    · exact .inr (by rw [hhash]; rfl)
    · exact .inl (by simp [Shell.kind, hsafe, hspecial, hhash])
  · rintro ⟨hnul, hkind⟩ hspecial
    simp only [special, List.mem_cons, List.not_mem_nil, or_false] at hspecial
    rcases hspecial with rfl | rfl | rfl | rfl | rfl | rfl
    · exact hnul rfl
    all_goals revert hkind; decide

theorem eq_hash {c : Char} (h : Shell.kind c = .hash) : c = '#' := by
  by_contra hne
  unfold Shell.kind at h
  split_ifs at h

/-! ## The line -/

theorem tarCmd_eq (path : List Char) :
    tarCmd path = 't' :: ['a', 'r'] ++ ' ' :: ('-' :: ['c', 'z', 'f'] ++ ' ' ::
      (path ++ ' ' :: reportDir)) := by
  simp [tarCmd]

theorem read_tarCmd (path : List Char) :
    Shell.tokens (tarCmd path) = (Shell.read .bare none (path ++ ' ' :: reportDir)).map
      ([.word (Shell.bare ['t', 'a', 'r']), .word (Shell.bare ['-', 'c', 'z', 'f'])] ++ ·) := by
  have htar : ∀ c ∈ ['a', 'r'], Shell.kind c = .plain ∨ Shell.kind c = .hash := by
    simp [Shell.kind]
  have hczf : ∀ c ∈ ['c', 'z', 'f'], Shell.kind c = .plain ∨ Shell.kind c = .hash := by
    simp [Shell.kind]
  have ht : Shell.kind 't' = .plain := rfl
  have hdash : Shell.kind '-' = .plain := rfl
  rw [tarCmd_eq, Shell.tokens, Shell.read_word ht htar, Shell.read_word hdash hczf, Option.map_map]
  rfl

theorem cStr_of_notMem {s : List Char} (h : '\x00' ∉ s) : cStr s = s := by
  refine List.takeWhile_eq_self_iff.mpr fun c hc => decide_eq_true ?_
  rintro rfl
  exact h hc

theorem ne_of_mem_cStr {s : List Char} : ∀ c ∈ cStr s, c ≠ '\x00' := by
  intro c hc
  have hne := List.mem_takeWhile_imp (p := fun c => c ≠ '\x00') hc
  exact of_decide_eq_true hne

theorem notMem_tarCmd {path : List Char} (h : '\x00' ∉ path) : '\x00' ∉ tarCmd path := by
  simp [tarCmd, reportDir, h]

/-- A path of characters that stand for themselves is read as one word. -/
theorem read_path {c : Char} {u : List Char} (hc : Shell.kind c = .plain)
    (hu : ∀ c ∈ u, Shell.kind c = .plain ∨ Shell.kind c = .hash) :
    Shell.read .bare none (c :: u ++ ' ' :: reportDir) =
      some [.word (Shell.bare (c :: u)), .word (Shell.bare reportDir)] := by
  have hlast : Shell.read .bare none reportDir = some [.word (Shell.bare reportDir)] := rfl
  rw [Shell.read_word hc hu, hlast]
  rfl

theorem options_of_words (path : List Char) :
    Shell.arguments tarTakesValue none [['-', 'c', 'z', 'f'], path, reportDir] =
      [.option ['c'] none, .option ['z'] none, .option ['f'] (some path),
        .operand reportDir] := by
  rfl

theorem readAsMeant_of_clean {path : List Char} (hsafe : isSafePath path = true)
    (h : Clean path) : ReadAsMeant path := by
  have hkinds : ∀ c ∈ path, c ≠ '\x00' ∧ (Shell.kind c = .plain ∨ Shell.kind c = .hash) :=
    fun c hc => (kind_of_safe (notMem_forbidden hsafe c hc)).mp (h.chars c hc)
  have hnul : '\x00' ∉ path := fun hc => (hkinds _ hc).1 rfl
  have hwords : Shell.command (cStr (tarCmd path)) =
      some [['t', 'a', 'r'], ['-', 'c', 'z', 'f'], path, reportDir] := by
    rw [cStr_of_notMem (notMem_tarCmd hnul), Shell.command_eq_some]
    refine ⟨[Shell.bare ['t', 'a', 'r'], Shell.bare ['-', 'c', 'z', 'f'], Shell.bare path,
      Shell.bare reportDir], ?_, ?_, by simp⟩
    · cases path with
      | nil => exact absurd rfl (nonempty_of_safe hsafe)
      | cons c u =>
        obtain ⟨hc, hu⟩ := List.forall_mem_cons.mp hkinds
        have hhash : Shell.kind c ≠ .hash := fun hk => h.hash (congrArg some (eq_hash hk))
        rw [read_tarCmd, read_path (hc.2.resolve_right hhash) fun c hc => (hu c hc).2]
        rfl
    · have hpath : (Shell.bare path).expands = false := by
        rw [Shell.Word.expands, Shell.tilde_bare, h.pattern, decide_eq_false h.tilde]
        rfl
      simp only [List.forall_mem_cons, hpath, true_and]
      decide
  refine ⟨hwords, fun argv hargv => ?_⟩
  rw [Option.some.inj (hargv.symm.trans hwords)]
  exact options_of_words path

/-- The line that is run for a clean path is the command that was meant. -/
theorem command_of_generateSupportPackage {outputPath line : List Char}
    (hline : generateSupportPackage (some outputPath) = some line)
    (h : Clean (cStr outputPath)) :
    Shell.command line =
      some [['t', 'a', 'r'], ['-', 'c', 'z', 'f'], cStr outputPath, reportDir] := by
  simp only [generateSupportPackage, Bool.not_eq_true'] at hline
  split at hline
  · cases hline
  · next hsafe =>
    rw [← Option.some.inj hline]
    exact (readAsMeant_of_clean (eq_true_of_ne_false hsafe) h).words

/-- If the line is read as meant, nothing of the path was spent on anything but its word. -/
theorem clean_of_readAsMeant {path : List Char} (hsafe : isSafePath path = true)
    (h : ReadAsMeant path) : Clean path := by
  obtain ⟨words, htokens, hexpands, htexts⟩ := Shell.command_eq_some.mp h.words
  obtain ⟨w1, w2, w3, w4, rfl⟩ : ∃ w1 w2 w3 w4, words = [w1, w2, w3, w4] :=
    List.length_eq_four.mp (by rw [← List.length_map, htexts]; rfl)
  simp only [List.map_cons, List.map_nil, List.cons.injEq, and_true] at htexts
  obtain ⟨-, -, h3, h4⟩ := htexts
  have hnul : '\x00' ∉ path := by
    intro hc
    have hletters := Shell.forall_letters (P := (· ≠ '\x00')) (by decide) htokens
      (List.forall_mem_nil _) ne_of_mem_cStr w3 (by simp)
    rw [← h3] at hc
    obtain ⟨l, hl, hlc⟩ := List.mem_map.mp hc
    exact hletters l hl hlc
  rw [cStr_of_notMem (notMem_tarCmd hnul), read_tarCmd] at htokens
  have hrest : Shell.read .bare none (path ++ ' ' :: reportDir) =
      some ([w3, w4].map Shell.Token.word) := by
    obtain ⟨toks, htoks, happend⟩ := Option.map_eq_some_iff.mp htokens
    rw [htoks]
    simp only [List.map_cons, List.map_nil, List.cons_append, List.nil_append,
      List.cons.injEq] at happend
    rw [happend.2.2]
    rfl
  have hweight : Shell.weight [w3, w4] =
      Shell.size none + (path ++ ' ' :: reportDir).length + 1 := by
    have h3' : w3.length = path.length := by rw [← h3, Shell.Word.text, List.length_map]
    have h4' : w4.length = reportDir.length := by rw [← h4, Shell.Word.text, List.length_map]
    rw [List.length_append, List.length_cons, Shell.weight_cons, Shell.weight_cons, h3', h4']
    simp only [Shell.weight, Shell.size, List.map_nil, List.sum_nil, Option.getD_none,
      List.length_nil]
    omega
  obtain ⟨hkinds, hcount, hhead⟩ := Shell.plain_of_weight_eq hrest hweight
  -- the one blank is the one behind the path
  have hblank : ∀ c ∈ path, Shell.kind c ≠ .blank := by
    have hspace : Shell.kind ' ' = .blank := rfl
    simp only [List.countP_append, List.countP_cons, hspace, decide_true, if_true,
      List.length_cons, List.length_nil] at hcount
    have hzero : path.countP (fun c => Shell.kind c = .blank) = 0 := by omega
    intro c hc hk
    exact List.countP_eq_zero.mp hzero c hc (decide_eq_true hk)
  have hplain : ∀ c ∈ path, Shell.kind c = .plain ∨ Shell.kind c = .hash := by
    intro c hc
    rcases hkinds c (List.mem_append_left _ hc) with hk | hk | hk
    · exact .inl hk
    · exact .inr hk
    · exact absurd hk (hblank c hc)
  have hchars : ∀ c ∈ path, c ∉ special := fun c hc =>
    (kind_of_safe (notMem_forbidden hsafe c hc)).mpr
      ⟨fun hc' => hnul (hc' ▸ hc), hplain c hc⟩
  cases path with
  | nil => exact absurd rfl (nonempty_of_safe hsafe)
  | cons c u =>
    have hc : Shell.kind c = .plain := hhead rfl c rfl
    rw [read_path hc (List.forall_mem_cons.mp hplain).2] at hrest
    simp only [List.map_cons, List.map_nil, Option.some.injEq, List.cons.injEq,
      Shell.Token.word.injEq, and_true] at hrest
    have hexpand := hexpands w3 (by simp)
    rw [← hrest.1, Shell.Word.expands, Shell.tilde_bare, Bool.or_eq_false_iff,
      decide_eq_false_iff_not] at hexpand
    refine ⟨hchars, fun hhash => ?_, hexpand.1, hexpand.2⟩
    rw [Option.some.inj hhash] at hc
    revert hc
    decide

/-- **A safe path stays one shell word** just when it has none of the characters that the shell
still does not take for themselves, does not begin like a comment or a home directory, and is no
pattern. -/
theorem readAsMeant_iff_clean {path : List Char} (hsafe : isSafePath path = true) :
    ReadAsMeant path ↔ Clean path :=
  ⟨clean_of_readAsMeant hsafe, readAsMeant_of_clean hsafe⟩

/-- The path that the tests accept. -/
theorem readAsMeant_test_package :
    ReadAsMeant "support_test_package.tar.gz".toList := by
  have hchars : ("support_test_package.tar.gz".toList.all fun c => c ∉ special) = true := by
    decide +kernel
  exact (readAsMeant_iff_clean (by decide +kernel)).mpr
    ⟨fun c hc => of_decide_eq_true (List.all_eq_true.mp hchars c hc), by decide +kernel,
      by decide +kernel, by decide +kernel⟩

def checkpoint : List Char := "a.tgz --checkpoint=1 --checkpoint-action=exec=id".toList

/-- The path is accepted, and `tar` gets two more words, both of them options. -/
theorem checkpoint_injects :
    isSafePath checkpoint = true ∧
    Shell.command (cStr (tarCmd checkpoint)) = some [['t', 'a', 'r'], ['-', 'c', 'z', 'f'],
      "a.tgz".toList, "--checkpoint=1".toList, "--checkpoint-action=exec=id".toList, reportDir] ∧
    Shell.arguments tarTakesValue none [['-', 'c', 'z', 'f'], "a.tgz".toList,
        "--checkpoint=1".toList, "--checkpoint-action=exec=id".toList, reportDir] =
      [.option ['c'] none, .option ['z'] none, .option ['f'] (some "a.tgz".toList),
        .option "checkpoint=1".toList none, .option "checkpoint-action=exec=id".toList none,
        .operand reportDir] ∧
    ¬ ReadAsMeant checkpoint := by
  have hwords : Shell.command (cStr (tarCmd checkpoint)) = some [['t', 'a', 'r'],
      ['-', 'c', 'z', 'f'], "a.tgz".toList, "--checkpoint=1".toList,
      "--checkpoint-action=exec=id".toList, reportDir] := by decide +kernel
  refine ⟨by decide +kernel, hwords, by decide +kernel, fun h => ?_⟩
  have hlength := congrArg List.length (Option.some.inj (hwords.symm.trans h.words))
  cases hlength

end RemotePlay.Common.SupportPackage
