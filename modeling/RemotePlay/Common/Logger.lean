import RemotePlay.Common.Config
import RemotePlay.Lib.Numbered

/-!
# Logger

The log goes to a base file; when that has grown to `m_maxFileSize`,
`rotateFiles` renames it to `base.1`, and the archives before it one number up,
after it has removed the one at the history limit. Every file operation
succeeds, and what a stream still buffers counts as in its file.
-/

namespace RemotePlay

open Lib

/-- The files of one base name. -/
structure LogFiles where
  /-- The file of that name, if it is there. -/
  base : Option Text
  /-- The files `base.n`. -/
  archives : Finmap fun _ : Int => Text

structure Logger where
  files : LogFiles
  /-- `m_file.is_open()`. -/
  isOpen : Bool
  currentFileSize : UInt64
  maxFileSize : UInt64
  maxFiles : Int

namespace Logger

/-- Opens the base file for appending, which makes it when it is not there. -/
def openFile (logger : Logger) : Logger :=
  let text := logger.files.base.getD []
  { logger with
    files := { logger.files with base := some text }
    isOpen := true
    currentFileSize := UInt64.ofNat text.length }

/-- Renames the base file to `base.1`, if it is there. -/
def archiveBase (files : LogFiles) : LogFiles :=
  match files.base with
  | none => files
  | some text => ⟨none, files.archives.insert 1 text⟩

def rotateFiles (logger : Logger) : Logger :=
  let historyLimit := logger.maxFiles
  let archives := logger.files.archives.erase historyLimit
  -- From the highest number down, a file that is there makes room for the one below it.
  let archives := pushUp (historyLimit - 1).toNat archives
  openFile
    { logger with files := archiveBase { logger.files with archives := archives }, isOpen := false }

/-- `m_file << logLine`, with the count of what has been written. -/
def append (logger : Logger) (logLine : Text) : Logger :=
  { logger with
    files := { logger.files with base := logger.files.base.map (· ++ logLine) }
    currentFileSize := logger.currentFileSize + UInt64.ofNat logLine.length }

def isFull (logger : Logger) : Bool := logger.maxFileSize ≤ logger.currentFileSize

/-- `logLine` is the record's text. -/
def writeRecord (logger : Logger) (logLine : Text) : Logger :=
  if logger.isOpen then
    let logger := logger.append logLine
    if logger.isFull then logger.rotateFiles else logger
  else logger

/-- The two settings of the files, as `Config` has them. -/
def loadConfig (logger : Logger) (maxLogFileSizeMb maxLogFiles : Int) : Logger :=
  { logger with
    maxFileSize := UInt64.ofInt maxLogFileSizeMb * 1024 * 1024
    maxFiles := maxLogFiles }

/-- A logger once `init` has opened a new base file and written the snapshot to it. -/
def start (maxFileSize : UInt64) (maxFiles : Int) (snapshot : Text) : Logger :=
  ⟨⟨some snapshot, ∅⟩, true, 0, maxFileSize, maxFiles⟩

/-- The logger rotates its files when it writes the line. -/
def rotates (logger : Logger) (logLine : Text) : Bool :=
  logger.isOpen && (logger.append logLine).isFull

/-! ## What a call does to the files -/

/-- The base file is open, with the text `text`, and the archives hold `history`, the newest
first. -/
structure Holds (logger : Logger) (text : Text) (history : List Text) : Prop where
  isOpen : logger.isOpen = true
  base : logger.files.base = some text
  archives : Numbers logger.files.archives history

variable {logger : Logger} {text : Text} {history : List Text}

theorem start_holds (maxFileSize : UInt64) (maxFiles : Int) (snapshot : Text) :
    (start maxFileSize maxFiles snapshot).Holds snapshot [] :=
  ⟨rfl, rfl, numbers_empty⟩

theorem loadConfig_holds (h : logger.Holds text history) (mb maxFiles : Int) :
    (logger.loadConfig mb maxFiles).Holds text history :=
  ⟨h.isOpen, h.base, h.archives⟩

theorem append_holds (h : logger.Holds text history) (logLine : Text) :
    (logger.append logLine).Holds (text ++ logLine) history := by
  refine ⟨h.isOpen, ?_, h.archives⟩
  show logger.files.base.map (· ++ logLine) = _
  rw [h.base]
  rfl

/-- The base file becomes the newest archive; the archive at the limit is gone, or the newest one
where the limit is not positive. -/
theorem rotateFiles_holds (h : logger.Holds text history) :
    logger.rotateFiles.Holds [] (text :: history.eraseIdx (logger.maxFiles - 1).toNat) := by
  have harchive : archiveBase { logger.files with
      archives := pushUp (logger.maxFiles - 1).toNat
        (logger.files.archives.erase logger.maxFiles) } =
      ⟨none, (pushUp (logger.maxFiles - 1).toNat
        (logger.files.archives.erase logger.maxFiles)).insert 1 text⟩ := by
    simp only [archiveBase, h.base]
  simp only [rotateFiles, harchive]
  exact ⟨rfl, rfl, numbers_rotate h.archives logger.maxFiles text⟩

theorem rotateFiles_maxFiles (logger : Logger) : logger.rotateFiles.maxFiles = logger.maxFiles :=
  rfl

theorem writeRecord_rotates {logLine : Text} (hrot : logger.rotates logLine = true) :
    logger.writeRecord logLine = (logger.append logLine).rotateFiles := by
  obtain ⟨hopen, hfull⟩ := Bool.and_eq_true_iff.mp hrot
  simp only [writeRecord, hopen, hfull, if_true]

theorem writeRecord_appends (h : logger.Holds text history) {logLine : Text}
    (hrot : logger.rotates logLine = false) :
    logger.writeRecord logLine = logger.append logLine := by
  have hfull : (logger.append logLine).isFull = false := by
    simpa only [rotates, h.isOpen, Bool.true_and] using hrot
  simp only [writeRecord, h.isOpen, hfull, if_true, Bool.false_eq_true, if_false]

/-! ## Order and loss -/

/-- The files that are rotated out of the base name while the lines are written, in this order. -/
def rotated : Logger → List Text → List Text
  | _, [] => []
  | logger, logLine :: logLines =>
    (if logger.rotates logLine then ((logger.append logLine).files.base).toList else []) ++
      rotated (logger.writeRecord logLine) logLines

/-- The texts of `base.n`, …, `base.1` and `base`, one after the other. -/
def concatenated (files : LogFiles) : Nat → Text
  | 0 => files.base.getD []
  | n + 1 => (files.archives.lookup ((n : Int) + 1)).getD [] ++ concatenated files n

theorem concatenated_eq (h : logger.Holds text history) {n : Nat} (hn : n ≤ history.length) :
    concatenated logger.files n = (history.take n).reverse.flatten ++ text := by
  induction n with
  | zero => simp [concatenated, h.base]
  | succ n ih =>
    have hlookup : logger.files.archives.lookup ((n : Int) + 1) = some history[n] := by
      rw [h.archives, if_pos (by omega)]
      have hidx : ((n : Int) + 1 - 1).toNat = n := by omega
      rw [hidx, List.getElem?_eq_getElem (by omega)]
    rw [concatenated, hlookup, ih (by omega), ← List.take_concat_get' _ _ (by omega),
      List.reverse_append, List.flatten_append, List.append_assoc]
    simp

/-- A rotation keeps the newest `limit` texts of all that were rotated out. -/
theorem eraseIdx_newest (parts : List Text) (text : Text) {limit : Int} (hlimit : 1 ≤ limit) :
    text :: (parts.reverse.take limit.toNat).eraseIdx (limit - 1).toNat =
      (parts ++ [text]).reverse.take limit.toNat := by
  obtain ⟨n, rfl⟩ : ∃ n : Nat, limit = (n : Int) + 1 := ⟨(limit - 1).toNat, by omega⟩
  have hpred : ((n : Int) + 1 - 1).toNat = n := by omega
  have hsucc : ((n : Int) + 1).toNat = n + 1 := by omega
  rw [hpred, hsucc, List.reverse_append, List.reverse_singleton, List.singleton_append,
    List.take_succ_cons, List.eraseIdx_eq_take_drop_succ, List.take_take,
    Nat.min_eq_left (by omega)]
  have hdrop : (parts.reverse.take (n + 1)).drop (n + 1) = [] :=
    List.drop_eq_nil_of_le (List.length_take_le _ _)
  rw [hdrop, List.append_nil]

/-- With `parts` rotated out before, what the files hold after the lines. -/
theorem run_holds {limit : Int} (hlimit : 1 ≤ limit) (logLines : List Text) {logger : Logger}
    {text : Text} {parts : List Text} (h : logger.Holds text (parts.reverse.take limit.toNat))
    (hfiles : logger.maxFiles = limit) :
    ∃ text', (run writeRecord logger logLines).Holds text'
        ((parts ++ rotated logger logLines).reverse.take limit.toNat) ∧
      parts.flatten ++ text ++ logLines.flatten =
        (parts ++ rotated logger logLines).flatten ++ text' := by
  induction logLines generalizing logger text parts with
  | nil =>
    refine ⟨text, ?_, by simp [rotated]⟩
    rw [rotated, List.append_nil]
    exact h
  | cons logLine logLines ih =>
    have happ := append_holds h logLine
    cases hrot : logger.rotates logLine with
    | true =>
      have hnext : (logger.writeRecord logLine).Holds []
          ((parts ++ [text ++ logLine]).reverse.take limit.toNat) := by
        have hrotate := rotateFiles_holds happ
        rw [show (logger.append logLine).maxFiles = limit from hfiles,
          eraseIdx_newest parts _ hlimit] at hrotate
        rw [writeRecord_rotates hrot]
        exact hrotate
      have hfiles' : (logger.writeRecord logLine).maxFiles = limit := by
        rw [writeRecord_rotates hrot]
        exact hfiles
      obtain ⟨text', hrun, hall⟩ := ih hnext hfiles'
      have hout : rotated logger (logLine :: logLines) =
          [text ++ logLine] ++ rotated (logger.writeRecord logLine) logLines := by
        rw [rotated, if_pos hrot, happ.base]
        rfl
      refine ⟨text', ?_, ?_⟩
      · rw [hout, ← List.append_assoc]
        exact hrun
      · rw [hout, ← List.append_assoc, ← hall]
        simp
    | false =>
      have hnext : (logger.writeRecord logLine).Holds (text ++ logLine)
          (parts.reverse.take limit.toNat) := by
        rw [writeRecord_appends h hrot]
        exact happ
      have hfiles' : (logger.writeRecord logLine).maxFiles = limit := by
        rw [writeRecord_appends h hrot]
        exact hfiles
      obtain ⟨text', hrun, hall⟩ := ih hnext hfiles'
      have hout : rotated logger (logLine :: logLines) =
          rotated (logger.writeRecord logLine) logLines := by
        rw [rotated, hrot]
        rfl
      refine ⟨text', ?_, ?_⟩
      · rw [hout]
        exact hrun
      · rw [hout, ← hall]
        simp

/-- **Rotation keeps the order and loses only the oldest.** With a fixed limit of at least 1,
after `k` rotations the archives are `base.1` to `base.kept`, where `kept` is the smaller of `k`
and the limit; they and the base file hold all that was written but for the oldest `k - kept`
of the files that were rotated out. -/
theorem rotation_keeps_order {limit : Int} (hlimit : 1 ≤ limit) (maxFileSize : UInt64)
    (snapshot : Text) (logLines : List Text) :
    let logger := start maxFileSize limit snapshot
    let parts := rotated logger logLines
    let kept := min parts.length limit.toNat
    let files := (run writeRecord logger logLines).files
    (∀ i : Int, i ∈ files.archives ↔ 1 ≤ i ∧ i ≤ kept) ∧
      snapshot ++ logLines.flatten =
        (parts.take (parts.length - kept)).flatten ++ concatenated files kept := by
  intro logger parts kept files
  have hstart : logger.Holds snapshot (([] : List Text).reverse.take limit.toNat) := by
    rw [List.reverse_nil, List.take_nil]
    exact start_holds maxFileSize limit snapshot
  obtain ⟨text, hrun, hall⟩ := run_holds hlimit logLines hstart rfl
  change (run writeRecord logger logLines).Holds text (parts.reverse.take limit.toNat) at hrun
  change snapshot ++ logLines.flatten = parts.flatten ++ text at hall
  have hlength : (parts.reverse.take limit.toNat).length = kept := by
    rw [List.length_take, List.length_reverse, Nat.min_comm]
  constructor
  · intro i
    rw [hrun.archives.mem_iff, hlength]
  · have hnewest : (parts.reverse.take limit.toNat).reverse = parts.drop (parts.length - kept) := by
      rw [List.take_reverse, List.reverse_reverse]
      congr 1
      omega
    rw [concatenated_eq hrun hlength.ge, List.take_of_length_le hlength.le, hnewest, hall,
      ← List.append_assoc, ← List.flatten_append, List.take_append_drop]

/-- A smallest file size of one byte, a limit of 2 and three lines: the first is lost. -/
theorem rotation_keeps_order_three :
    (1 : Int) ≤ 2 ∧
      ((∀ i : Int, i ∈ (run writeRecord (start 1 2 []) [[65], [66], [67]]).files.archives ↔
          1 ≤ i ∧ i ≤ ((min (rotated (start 1 2 []) [[65], [66], [67]]).length (2 : Int).toNat :
            Nat) : Int)) ∧
        ([] : Text) ++ [[65], [66], [67]].flatten =
          ((rotated (start 1 2 []) [[65], [66], [67]]).take
              ((rotated (start 1 2 []) [[65], [66], [67]]).length -
                min (rotated (start 1 2 []) [[65], [66], [67]]).length (2 : Int).toNat)).flatten ++
            concatenated (run writeRecord (start 1 2 []) [[65], [66], [67]]).files
              (min (rotated (start 1 2 []) [[65], [66], [67]]).length (2 : Int).toNat)) :=
  ⟨by decide, rotation_keeps_order (by decide) 1 [] [[65], [66], [67]]⟩

/-! ## Retention -/

inductive LogEvent where
  | writeRecord (logLine : Text)
  | loadConfig (maxLogFileSizeMb maxLogFiles : Int)

def step (logger : Logger) : LogEvent → Logger
  | .writeRecord logLine => logger.writeRecord logLine
  | .loadConfig maxLogFileSizeMb maxLogFiles => logger.loadConfig maxLogFileSizeMb maxLogFiles

/-- The files are rotated at the event. -/
def rotatesAt (logger : Logger) : LogEvent → Bool
  | .writeRecord logLine => logger.rotates logLine
  | .loadConfig _ _ => false

/-- No more archives than the limit allows. -/
def Bounded (logger : Logger) : Prop := (logger.files.archives.keys.card : Int) ≤ logger.maxFiles

theorem step_holds (h : logger.Holds text history) (e : LogEvent) :
    ∃ text history, (logger.step e).Holds text history := by
  cases e with
  | loadConfig mb maxFiles => exact ⟨text, history, loadConfig_holds h mb maxFiles⟩
  | writeRecord logLine =>
    have happ := append_holds h logLine
    show ∃ text history, (logger.writeRecord logLine).Holds text history
    cases hrot : logger.rotates logLine with
    | true => rw [writeRecord_rotates hrot]; exact ⟨_, _, rotateFiles_holds happ⟩
    | false => rw [writeRecord_appends h hrot]; exact ⟨_, _, happ⟩

/-- The archives are within the limit after a rotation just when they were before it. -/
theorem rotateFiles_bounded_iff (h : logger.Holds text history) :
    logger.rotateFiles.Bounded ↔
      1 ≤ logger.maxFiles ∧ ∀ i ∈ logger.files.archives, i ≤ logger.maxFiles := by
  have hbelow : (∀ i ∈ logger.files.archives, i ≤ logger.maxFiles) ↔
      history.length = 0 ∨ (history.length : Int) ≤ logger.maxFiles := by
    constructor
    · intro hall
      by_cases hlen : history.length = 0
      · exact .inl hlen
      · exact .inr (hall _ (h.archives.mem_iff.mpr ⟨by omega, le_refl _⟩))
    · intro hlen i hi
      have := h.archives.mem_iff.mp hi
      omega
  rw [Bounded, (rotateFiles_holds h).archives.card_keys, rotateFiles_maxFiles, hbelow,
    List.length_cons, List.length_eraseIdx]
  split <;> omega

/-- **When retention holds.** After every rotation of a run there are no more archives than the
limit allows just when at every rotation the limit is at least 1 and no archive is numbered
above it. -/
theorem retention_iff (maxFileSize : UInt64) (maxFiles : Int) (snapshot : Text)
    (es : List LogEvent) :
    Along step (fun logger e => logger.rotatesAt e = true → (logger.step e).Bounded)
        (start maxFileSize maxFiles snapshot) es ↔
      Along step (fun logger e => logger.rotatesAt e = true →
        1 ≤ logger.maxFiles ∧ ∀ i ∈ logger.files.archives, i ≤ logger.maxFiles)
        (start maxFileSize maxFiles snapshot) es := by
  have hstep : ∀ logger e, (∃ text history, Holds logger text history) →
      ∃ text history, (logger.step e).Holds text history :=
    fun logger e ⟨_, _, h⟩ => step_holds h e
  refine along_congr hstep ?_ ⟨snapshot, [], start_holds maxFileSize maxFiles snapshot⟩ es
  rintro logger e ⟨text, history, h⟩
  cases e with
  | loadConfig mb files =>
    exact iff_of_true (absurd · Bool.false_ne_true) (absurd · Bool.false_ne_true)
  | writeRecord logLine =>
    refine imp_congr_right fun hrot => ?_
    show (logger.writeRecord logLine).Bounded ↔ _
    rw [writeRecord_rotates hrot]
    exact rotateFiles_bounded_iff (append_holds h logLine)

/-- Three archives under a limit of 5, which is then lowered to 2. -/
def lowered : List LogEvent :=
  [.loadConfig 0 5, .writeRecord [65], .writeRecord [66], .writeRecord [67], .loadConfig 0 2]

/-- The next rotation leaves three archives. -/
theorem lowered_limit_exceeded :
    (run step (start 104857600 5 []) lowered).rotatesAt (.writeRecord [68]) = true ∧
      ((run step (start 104857600 5 []) lowered).step (.writeRecord [68])).maxFiles = 2 ∧
      ((run step (start 104857600 5 []) lowered).step
        (.writeRecord [68])).files.archives.keys.card = 3 ∧
      ¬Along step (fun logger e => logger.rotatesAt e = true → (logger.step e).Bounded)
        (start 104857600 5 []) (lowered ++ [.writeRecord [68]]) := by
  have hcard : ((run step (start 104857600 5 []) lowered).step
      (.writeRecord [68])).files.archives.keys.card = 3 := by decide +kernel
  have hrot : (run step (start 104857600 5 []) lowered).rotatesAt (.writeRecord [68]) = true := by
    decide +kernel
  have hmax : ((run step (start 104857600 5 []) lowered).step (.writeRecord [68])).maxFiles = 2 := by
    decide +kernel
  refine ⟨hrot, hmax, hcard, fun hall => ?_⟩
  obtain ⟨-, -, -, -, -, hlast, -⟩ := hall
  have hbound : ((run step (start 104857600 5 []) lowered).step (.writeRecord [68])).Bounded :=
    hlast hrot
  rw [Bounded, hcard, hmax] at hbound
  exact absurd hbound (by decide)

end Logger

end RemotePlay
