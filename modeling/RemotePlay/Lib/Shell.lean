import Mathlib.Algebra.Ring.Nat
import Mathlib.Data.List.Basic
import Mathlib.Tactic.Common

/-!
# How a POSIX shell reads a line

`read` splits a line into words and operators as the shell's token recognition
does, with quoting and comments, and keeps for each letter of a word whether it
was quoted. A substitution (`$` or a backquote), an open quote and a backslash
with nothing behind it stop the reading. `command` is the simple command that a
line is, if none of its words is subject to tilde or pathname expansion, and
`arguments` is what a program makes of its words with `getopt`.
-/

namespace Lib.Shell

structure Letter where
  char : Char
  quoted : Bool
  deriving DecidableEq, Repr

abbrev Word := List Letter

def Word.text (w : Word) : List Char := w.map Letter.char

/-- A word without quoting. -/
def bare (s : List Char) : Word := s.map fun c => ⟨c, false⟩

inductive Token where
  | word (w : Word)
  /-- A character of an operator, or a newline. -/
  | operator (c : Char)
  deriving DecidableEq, Repr

/-- What an unquoted character is. -/
inductive Kind where
  | plain
  | blank
  | operator
  | backslash
  | single
  | double
  | substitution
  | hash
  deriving DecidableEq

def kind (c : Char) : Kind :=
  if c = ' ' ∨ c = '\t' then .blank
  else if c ∈ ['\n', ';', '&', '|', '<', '>', '(', ')'] then .operator
  else if c = '\\' then .backslash
  else if c = '\x27' then .single
  else if c = '\x22' then .double
  else if c = '$' ∨ c = '\x60' then .substitution
  else if c = '#' then .hash
  else .plain

inductive Mode where
  | bare
  /-- Behind an unquoted backslash. -/
  | escape
  | single
  | double
  /-- Behind a backslash between double quotes. -/
  | doubleEscape
  | comment

/-- The word so far with one letter more; `none` is between words. -/
def push (cur : Option Word) (c : Char) (quoted : Bool) : Option Word :=
  some (cur.getD [] ++ [⟨c, quoted⟩])

/-- The word so far, if there is one, as a token. -/
def flush : Option Word → List Token
  | none => []
  | some w => [.word w]

def read : Mode → Option Word → List Char → Option (List Token)
  | .bare, cur, [] => some (flush cur)
  | .comment, _, [] => some []
  | .escape, _, [] | .single, _, [] | .double, _, [] | .doubleEscape, _, [] => none
  | .bare, cur, c :: s =>
    match kind c with
    | .plain => read .bare (push cur c false) s
    | .hash => if cur = none then read .comment none s else read .bare (push cur c false) s
    | .blank => (read .bare none s).map (flush cur ++ ·)
    | .operator => (read .bare none s).map (flush cur ++ .operator c :: ·)
    | .backslash => read .escape cur s
    | .single => read .single (some (cur.getD [])) s
    | .double => read .double (some (cur.getD [])) s
    | .substitution => none
  | .escape, cur, c :: s =>
    -- a newline behind a backslash joins the lines
    if c = '\n' then read .bare cur s else read .bare (push cur c true) s
  | .single, cur, c :: s =>
    if kind c = .single then read .bare cur s else read .single (push cur c true) s
  | .double, cur, c :: s =>
    match kind c with
    | .double => read .bare cur s
    | .backslash => read .doubleEscape cur s
    | .substitution => none
    | _ => read .double (push cur c true) s
  | .doubleEscape, cur, c :: s =>
    match kind c with
    | .double | .backslash | .substitution => read .double (push cur c true) s
    | _ =>
      if c = '\n' then read .double cur s
      else read .double (push (push cur '\\' true) c true) s
  | .comment, _, c :: s =>
    if c = '\n' then (read .bare none s).map (.operator c :: ·) else read .comment none s

def tokens (line : List Char) : Option (List Token) := read .bare none line

/-! ## What the words hold -/

/-- The characters of a word so far. -/
def size (cur : Option Word) : Nat := (cur.getD []).length

@[simp] theorem size_push (cur : Option Word) (c : Char) (quoted : Bool) :
    size (push cur c quoted) = size cur + 1 := by simp [size, push]

@[simp] theorem size_open (cur : Option Word) : size (some (cur.getD [])) = size cur := rfl

/-- The letters of words, and one for the end of each. -/
def weight (words : List Word) : Nat := (words.map fun w => w.length + 1).sum

@[simp] theorem weight_cons (w : Word) (words : List Word) :
    weight (w :: words) = w.length + 1 + weight words := rfl

/-- What can come out of `s` behind the word so far. -/
def bound (cur : Option Word) (s : List Char) : Mode → Nat
  | .bare | .escape => size cur + s.length + 1
  | .single | .double | .comment => size cur + s.length
  | .doubleEscape => size cur + s.length + 1

theorem words_of_map_flush {cur : Option Word} {rest : Option (List Token)} {words : List Word}
    (h : rest.map (flush cur ++ ·) = some (words.map Token.word)) :
    ∃ words', rest = some (words'.map Token.word) ∧
      words = (match cur with | none => words' | some w => w :: words') := by
  obtain ⟨toks, rfl, htoks⟩ := Option.map_eq_some_iff.mp h
  cases cur with
  | none => exact ⟨words, by rw [← htoks]; rfl, rfl⟩
  | some w =>
    cases words with
    | nil => cases htoks
    | cons w' words' =>
      simp only [flush, List.cons_append, List.nil_append, List.map_cons, List.cons.injEq,
        Token.word.injEq] at htoks
      obtain ⟨rfl, rfl⟩ := htoks
      exact ⟨words', rfl, rfl⟩

theorem not_words_of_operator (toks : List Token) {rest : Option (List Token)} {c : Char}
    {words : List Word} :
    rest.map (toks ++ .operator c :: ·) ≠ some (words.map Token.word) := by
  intro h
  obtain ⟨toks', -, htoks⟩ := Option.map_eq_some_iff.mp h
  have hmem : Token.operator c ∈ words.map Token.word := by
    rw [← htoks]
    simp
  obtain ⟨w, -, hw⟩ := List.mem_map.mp hmem
  cases hw

/-- Reading makes no letters, and spends a character between two words. -/
theorem weight_le {m : Mode} {cur : Option Word} {s : List Char} {words : List Word}
    (h : read m cur s = some (words.map Token.word)) : weight words ≤ bound cur s m := by
  induction s generalizing m cur words with
  | nil =>
    cases m with
    | bare =>
      obtain ⟨_ | words', hrest, rfl⟩ :=
        words_of_map_flush (show (some []).map (flush cur ++ ·) = _ by rw [← h]; simp [read])
      · cases cur <;> simp [weight, bound, size]
      · cases hrest
    | comment =>
      cases words with
      | nil => exact Nat.zero_le _
      | cons w words => cases h
    | escape | single | double | doubleEscape => cases h
  | cons c s ih =>
    have hlen : (c :: s).length = s.length + 1 := rfl
    cases m with
    | bare =>
      rw [read] at h
      cases hk : kind c <;> rw [hk] at h <;> dsimp only at h
      case plain =>
        have hs := ih h
        simp only [bound, size_push] at hs ⊢
        omega
      case hash =>
        split at h <;> have hs := ih h <;> simp only [bound, size_push] at hs ⊢
        · simp only [size, Option.getD_none, List.length_nil] at hs
          omega
        · omega
      case blank =>
        obtain ⟨words', hrest, rfl⟩ := words_of_map_flush h
        have hs := ih hrest
        cases cur <;>
          simp only [bound, size, Option.getD_none, Option.getD_some, List.length_nil,
            weight_cons] at hs ⊢ <;> omega
      case operator => exact absurd h (not_words_of_operator _)
      case backslash =>
        have hs := ih h
        simp only [bound] at hs ⊢
        omega
      case single =>
        have hs := ih h
        simp only [bound, size_open] at hs ⊢
        omega
      case double =>
        have hs := ih h
        simp only [bound, size_open] at hs ⊢
        omega
      case substitution => cases h
    | escape =>
      rw [read] at h
      split at h <;> have hs := ih h <;> simp only [bound, size_push] at hs ⊢ <;> omega
    | single =>
      rw [read] at h
      split at h <;> have hs := ih h <;> simp only [bound, size_push] at hs ⊢ <;> omega
    | double =>
      rw [read] at h
      split at h
      case h_3 => cases h
      all_goals
        have hs := ih h
        simp only [bound, size_push] at hs ⊢
        omega
    | doubleEscape =>
      rw [read] at h
      split at h
      case h_4 =>
        split at h <;> have hs := ih h <;> simp only [bound, size_push] at hs ⊢ <;> omega
      all_goals
        have hs := ih h
        simp only [bound, size_push] at hs ⊢
        omega
    | comment =>
      rw [read] at h
      split at h
      · exact absurd h (not_words_of_operator [])
      · have hs := ih h
        simp only [bound, size, Option.getD_none, List.length_nil] at hs ⊢
        omega

/-- Where nothing but blanks between two words is spent, the line is its words. -/
theorem plain_of_weight_eq {cur : Option Word} {s : List Char} {words : List Word}
    (h : read .bare cur s = some (words.map Token.word))
    (hweight : weight words = size cur + s.length + 1) :
    (∀ c ∈ s, kind c = .plain ∨ kind c = .hash ∨ kind c = .blank) ∧
      words.length = s.countP (fun c => kind c = .blank) + 1 ∧
      (cur = none → ∀ c ∈ s.head?, kind c = .plain) := by
  induction s generalizing cur words with
  | nil =>
    refine ⟨List.forall_mem_nil _, ?_, fun _ c hc => by cases hc⟩
    obtain ⟨_ | words', hrest, rfl⟩ :=
      words_of_map_flush (show (some []).map (flush cur ++ ·) = _ by rw [← h]; simp [read])
    · cases cur with
      | none => simp [weight] at hweight
      | some w => rfl
    · cases hrest
  | cons c s ih =>
    have hlen : (c :: s).length = s.length + 1 := rfl
    rw [read] at h
    cases hk : kind c <;> rw [hk] at h <;> dsimp only at h
    case plain =>
      obtain ⟨hs, hcount, -⟩ := ih h (by rw [hweight, size_push]; omega)
      exact ⟨List.forall_mem_cons.mpr ⟨.inl hk, hs⟩, by simp [hcount, hk], by simp [hk]⟩
    case hash =>
      split at h
      · next hcur =>
        have hle := weight_le h
        simp only [bound, size, hcur, Option.getD_none, List.length_nil] at hle hweight
        omega
      · next hcur =>
        obtain ⟨hs, hcount, -⟩ := ih h (by rw [hweight, size_push]; omega)
        exact ⟨List.forall_mem_cons.mpr ⟨.inr (.inl hk), hs⟩, by simp [hcount, hk],
          fun hnone => absurd hnone hcur⟩
    case blank =>
      obtain ⟨words', hrest, rfl⟩ := words_of_map_flush h
      have hle := weight_le hrest
      simp only [bound, size, Option.getD_none, List.length_nil] at hle
      cases cur with
      | none =>
        simp only [size, Option.getD_none, List.length_nil] at hweight
        omega
      | some w =>
        simp only [size, Option.getD_some, weight_cons] at hweight
        have hweight' : weight words' = size none + s.length + 1 := by
          simp only [size, Option.getD_none, List.length_nil]
          omega
        obtain ⟨hs, hcount, -⟩ := ih hrest hweight'
        exact ⟨List.forall_mem_cons.mpr ⟨.inr (.inr hk), hs⟩, by simp [hcount, hk],
          fun hnone => by cases hnone⟩
    case operator => exact absurd h (not_words_of_operator _)
    case backslash =>
      have hle := weight_le h
      simp only [bound] at hle
      omega
    case single =>
      have hle := weight_le h
      simp only [bound, size_open] at hle
      omega
    case double =>
      have hle := weight_le h
      simp only [bound, size_open] at hle
      omega
    case substitution => cases h

/-- What holds of a line's characters, and of a backslash, holds of the letters of its words. -/
theorem forall_letters {P : Char → Prop} (hbackslash : P '\\') {m : Mode} {cur : Option Word}
    {s : List Char} {toks : List Token} (h : read m cur s = some toks)
    (hcur : ∀ l ∈ cur.getD [], P l.char) (hs : ∀ c ∈ s, P c) :
    ∀ w, Token.word w ∈ toks → ∀ l ∈ w, P l.char := by
  have hpush : ∀ {cur : Option Word} {c : Char} (quoted : Bool),
      (∀ l ∈ cur.getD [], P l.char) → P c → ∀ l ∈ (push cur c quoted).getD [], P l.char := by
    intro cur c quoted hcur hc l hl
    rcases List.mem_append.mp hl with hl | hl
    · exact hcur l hl
    · rw [List.mem_singleton.mp hl]
      exact hc
  have hflush : ∀ {cur : Option Word}, (∀ l ∈ cur.getD [], P l.char) →
      ∀ w, Token.word w ∈ flush cur → ∀ l ∈ w, P l.char := by
    intro cur hcur w hw
    cases cur with
    | none => cases hw
    | some v =>
      cases List.mem_singleton.mp hw
      exact hcur
  induction s generalizing m cur toks with
  | nil =>
    cases m <;> cases h
    · exact hflush hcur
    · exact fun w hw => by cases hw
  | cons c s ih =>
    obtain ⟨hc, hs⟩ := List.forall_mem_cons.mp hs
    cases m with
    | bare =>
      rw [read] at h
      cases hk : kind c <;> rw [hk] at h <;> dsimp only at h
      case plain => exact ih h (hpush _ hcur hc) hs
      case hash =>
        split at h
        · exact ih h (List.forall_mem_nil _) hs
        · exact ih h (hpush _ hcur hc) hs
      case blank =>
        obtain ⟨rest, hrest, rfl⟩ := Option.map_eq_some_iff.mp h
        intro w hw
        rcases List.mem_append.mp hw with hw | hw
        · exact hflush hcur w hw
        · exact ih hrest (List.forall_mem_nil _) hs w hw
      case operator =>
        obtain ⟨rest, hrest, rfl⟩ := Option.map_eq_some_iff.mp h
        intro w hw
        rcases List.mem_append.mp hw with hw | hw
        · exact hflush hcur w hw
        · rcases List.mem_cons.mp hw with hw | hw
          · cases hw
          · exact ih hrest (List.forall_mem_nil _) hs w hw
      case backslash => exact ih h hcur hs
      case single => exact ih h hcur hs
      case double => exact ih h hcur hs
      case substitution => cases h
    | escape =>
      rw [read] at h
      split at h
      · exact ih h hcur hs
      · exact ih h (hpush _ hcur hc) hs
    | single =>
      rw [read] at h
      split at h
      · exact ih h hcur hs
      · exact ih h (hpush _ hcur hc) hs
    | double =>
      rw [read] at h
      split at h
      · exact ih h hcur hs
      · exact ih h hcur hs
      · cases h
      · exact ih h (hpush _ hcur hc) hs
    | doubleEscape =>
      rw [read] at h
      split at h
      case h_4 =>
        split at h
        · exact ih h hcur hs
        · exact ih h (hpush _ (hpush _ hcur hbackslash) hc) hs
      all_goals exact ih h (hpush _ hcur hc) hs
    | comment =>
      rw [read] at h
      split at h
      · obtain ⟨rest, hrest, rfl⟩ := Option.map_eq_some_iff.mp h
        intro w hw
        rcases List.mem_cons.mp hw with hw | hw
        · cases hw
        · exact ih hrest (List.forall_mem_nil _) hs w hw
      · exact ih h (List.forall_mem_nil _) hs

/-- Plain characters make a word of themselves. -/
theorem read_plain {u : List Char} (hu : ∀ c ∈ u, kind c = .plain ∨ kind c = .hash) (w : Word)
    (s : List Char) : read .bare (some w) (u ++ s) = read .bare (some (w ++ bare u)) s := by
  induction u generalizing w with
  | nil => simp [bare]
  | cons c u ih =>
    obtain ⟨hc, hu⟩ := List.forall_mem_cons.mp hu
    have hpush : push (some w) c false = some (w ++ bare [c]) := rfl
    rw [List.cons_append, read]
    rcases hc with hk | hk <;> rw [hk] <;> dsimp only
    · rw [hpush, ih hu, List.append_assoc]
      rfl
    · rw [if_neg (by simp), hpush, ih hu, List.append_assoc]
      rfl

/-- A word without quoting in front of a blank. -/
theorem read_word {c : Char} {u : List Char} (hc : kind c = .plain)
    (hu : ∀ c ∈ u, kind c = .plain ∨ kind c = .hash) (s : List Char) :
    read .bare none (c :: u ++ ' ' :: s) =
      (read .bare none s).map (.word (bare (c :: u)) :: ·) := by
  have hpush : push none c false = some (bare [c]) := rfl
  rw [List.cons_append, read, hc]
  dsimp only
  rw [hpush, read_plain hu]
  rfl

/-! ## Expansions -/

/-- A tilde-prefix: an unquoted tilde in front, with nothing quoted up to the first slash. -/
def Word.tilde : Word → Bool
  | ⟨c, quoted⟩ :: w =>
    c = '~' && !quoted && (w.takeWhile fun l => l ≠ ⟨'/', false⟩).all fun l => !l.quoted
  | [] => false

/-- A closing bracket stands before the next slash. -/
def Word.closes : Word → Bool
  | [] => false
  | l :: w => l.char ≠ '/' && (l = ⟨']', false⟩ || closes w)

/-- What follows an opening bracket makes a bracket expression of it: at least one character, behind
an exclamation mark if there is one, and a closing bracket. -/
def Word.bracketed : Word → Bool
  | [] => false
  | l :: w =>
    if l = ⟨'!', false⟩ then
      match w with
      | [] => false
      | first :: w => first.char ≠ '/' && closes w
    else l.char ≠ '/' && closes w

/-- The word has an unquoted star, question mark or bracket expression. -/
def Word.pattern : Word → Bool
  | [] => false
  | l :: w =>
    l = ⟨'*', false⟩ || l = ⟨'?', false⟩ || (l = ⟨'[', false⟩ && Word.bracketed w) || pattern w

/-- The word is subject to tilde or pathname expansion. -/
def Word.expands (w : Word) : Bool := w.tilde || w.pattern

def Token.word? : Token → Option Word
  | .word w => some w
  | .operator _ => none

/-- The words of a line that is one simple command and is executed as it stands. -/
def command (line : List Char) : Option (List (List Char)) := do
  let toks ← tokens line
  let words ← toks.mapM Token.word?
  if words.any Word.expands then none else some (words.map Word.text)

theorem tilde_bare (s : List Char) : (bare s).tilde = decide (s.head? = some '~') := by
  cases s with
  | nil => rfl
  | cons c s =>
    have hall : ∀ w : Word, (∀ l ∈ w, l.quoted = false) →
        (w.takeWhile fun l => l ≠ ⟨'/', false⟩).all (fun l => !l.quoted) = true := by
      intro w hw
      refine List.all_eq_true.mpr fun l hl => ?_
      rw [hw l ((List.takeWhile_sublist _).subset hl)]
      rfl
    have hquoted : ∀ l ∈ bare s, l.quoted = false := by
      intro l hl
      obtain ⟨c, -, rfl⟩ := List.mem_map.mp hl
      rfl
    have htilde : (bare (c :: s)).tilde = (c = '~' && !false && true) :=
      congrArg (c = '~' && !false && ·) (hall (bare s) hquoted)
    rw [htilde]
    simp

@[simp] theorem text_bare (s : List Char) : (bare s).text = s := by
  simp [Word.text, bare, Function.comp_def]

theorem mapM_word {toks : List Token} {words : List Word}
    (h : toks.mapM Token.word? = some words) : toks = words.map Token.word := by
  induction toks generalizing words with
  | nil =>
    cases h
    rfl
  | cons tok toks ih =>
    cases tok with
    | operator c => simp [List.mapM_cons, Token.word?] at h
    | word w =>
      simp only [List.mapM_cons, Token.word?, Option.bind_eq_bind, Option.bind_some,
        Option.bind_eq_some_iff, Option.pure_def, Option.some.injEq] at h
      obtain ⟨words', hwords', rfl⟩ := h
      rw [List.map_cons, ← ih hwords']

theorem mapM_map_word (words : List Word) :
    (words.map Token.word).mapM Token.word? = some words := by
  induction words with
  | nil => rfl
  | cons w words ih => simp [List.mapM_cons, Token.word?, ih]

/-- A line is a command if it consists of words that are not expanded. -/
theorem command_eq_some {line : List Char} {argv : List (List Char)} :
    command line = some argv ↔
      ∃ words : List Word, tokens line = some (words.map Token.word) ∧
        (∀ w ∈ words, w.expands = false) ∧ words.map Word.text = argv := by
  unfold command
  constructor
  · intro h
    obtain ⟨toks, htoks, h⟩ := Option.bind_eq_some_iff.mp h
    obtain ⟨words, hwords, h⟩ := Option.bind_eq_some_iff.mp h
    split at h
    · cases h
    · next hexpands =>
      refine ⟨words, by rw [htoks, mapM_word hwords], fun w hw => ?_, Option.some.inj h⟩
      rw [List.any_eq_true, not_exists] at hexpands
      exact Bool.eq_false_iff.mpr fun hw' => hexpands w ⟨hw, hw'⟩
  · rintro ⟨words, htoks, hexpands, rfl⟩
    have hany : words.any Word.expands = false := by
      rw [List.any_eq_false]
      exact fun w hw => by rw [hexpands w hw]; exact Bool.false_ne_true
    rw [htoks, Option.bind_eq_bind, Option.bind_some, mapM_map_word]
    exact if_neg (by rw [hany]; exact Bool.false_ne_true)

/-! ## Arguments of a program -/

inductive Argument where
  | option (name : List Char) (value : Option (List Char))
  | operand (text : List Char)
  deriving DecidableEq, Repr

/-- The short options of one word, and the last of them if it takes the next word as its value. -/
def cluster (takesValue : Char → Bool) : List Char → List Argument × Option Char
  | [] => ([], none)
  | c :: cs =>
    if takesValue c then
      if cs.isEmpty then ([], some c) else ([.option [c] (some cs)], none)
    else
      let (options, pending) := cluster takesValue cs
      (.option [c] none :: options, pending)

/-- `getopt`, with options wherever they stand. -/
def arguments (takesValue : Char → Bool) : Option Char → List (List Char) → List Argument
  | none, [] => []
  | some c, [] => [.option [c] none]
  | some c, value :: words => .option [c] (some value) :: arguments takesValue none words
  | none, word :: words =>
    match word with
    | '-' :: '-' :: name =>
      if name.isEmpty then words.map .operand
      else .option name none :: arguments takesValue none words
    | '-' :: c :: cs =>
      let (options, pending) := cluster takesValue (c :: cs)
      options ++ arguments takesValue pending words
    | _ => .operand word :: arguments takesValue none words

end Lib.Shell
