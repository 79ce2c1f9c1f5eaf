import FdpBench.SuiBench.TrackedObjects
import FdpBench.Lib.BinaryFloat
import FdpBench.Lib.Trace

/-!
# The memory monitor of the Sui load generator

Every 500 ms a monitor task reads `/proc/meminfo` with `get_memory_usage_pct`, classifies the
usage against three thresholds and stores the level in an atomic that each worker loads at the
top of its loop.  The file is its text, and the `f64` arithmetic rounds as `BinaryFloat.round`.
A file without `MemAvailable:` reads as full: from then on no worker creates an object.
-/

namespace FdpBench
namespace SuiBench

open BinaryFloat CappedTable

/-! ## Reading `/proc/meminfo` -/

/-- `char::is_whitespace`: the characters with the Unicode `White_Space` property. -/
def isWhitespace (c : Char) : Bool :=
  c.toNat == 32 || (9 ≤ c.toNat && c.toNat ≤ 13) || c.toNat == 0x85 || c.toNat == 0xA0 ||
    c.toNat == 0x1680 || (0x2000 ≤ c.toNat && c.toNat ≤ 0x200A) || c.toNat == 0x2028 ||
    c.toNat == 0x2029 || c.toNat == 0x202F || c.toNat == 0x205F || c.toNat == 0x3000

/-- The end of a line of `BufRead::lines`: a `'\r'` before the `'\n'` is dropped. -/
def stripCr (line : List Char) : List Char :=
  if line.getLast? = some '\r' then line.dropLast else line

/-- `BufRead::lines` on the rest of a text, in a line begun with `current` (reversed): each line
ends at a `'\n'`, and a last line without one is kept as it is when it is not empty. -/
def linesFrom : List Char → List Char → List (List Char)
  | [], current => if current = [] then [] else [current.reverse]
  | c :: rest, current =>
      if c = '\n' then stripCr current.reverse :: linesFrom rest []
      else linesFrom rest (c :: current)

/-- `BufRead::lines`. -/
def lines (text : List Char) : List (List Char) :=
  linesFrom text []

/-- `str::split_whitespace` on the rest of a line, in a word begun with `current` (reversed): the
words between runs of whitespace, none of them empty. -/
def wordsFrom : List Char → List Char → List (List Char)
  | [], current => if current = [] then [] else [current.reverse]
  | c :: rest, current =>
      if isWhitespace c then
        if current = [] then wordsFrom rest [] else current.reverse :: wordsFrom rest []
      else wordsFrom rest (c :: current)

/-- `str::split_whitespace`. -/
def splitWhitespace (line : List Char) : List (List Char) :=
  wordsFrom line []

/-- The digits of `u64::from_str` after its optional sign: one or more ASCII digits whose value
is below `2 ^ 64`. -/
def parseDigits (digits : List Char) : Option Nat :=
  if digits ≠ [] ∧ digits.all Char.isDigit ∧ Nat.ofDigitChars 10 digits 0 < 2 ^ 64 then
    some (Nat.ofDigitChars 10 digits 0)
  else none

/-- `str::parse::<u64>`: an optional leading `'+'`, then the digits. -/
def parseU64 (text : List Char) : Option Nat :=
  if text.head? = some '+' then parseDigits text.tail else parseDigits text

/-- `line.split_whitespace().nth(1).and_then(|s| s.parse().ok()).unwrap_or(0)`. -/
def fieldValue (line : List Char) : Nat :=
  (((splitWhitespace line)[1]?).bind parseU64).getD 0

/-- `str::starts_with`. -/
def startsWith (line key : List Char) : Bool :=
  line.take key.length == key

/-- `"MemTotal:"`. -/
def memTotalKey : List Char := ['M', 'e', 'm', 'T', 'o', 't', 'a', 'l', ':']

/-- `"MemAvailable:"`. -/
def memAvailableKey : List Char := ['M', 'e', 'm', 'A', 'v', 'a', 'i', 'l', 'a', 'b', 'l', 'e', ':']

/-- One line of the loop of `get_memory_usage_pct`: a `MemTotal:` line sets the total, else a
`MemAvailable:` line sets the available memory. -/
def readMeminfoLine (values : Nat × Nat) (line : List Char) : Nat × Nat :=
  if startsWith line memTotalKey then (fieldValue line, values.2)
  else if startsWith line memAvailableKey then (values.1, fieldValue line)
  else values

/-- The loop over the lines, which breaks once both values are positive. -/
def readMeminfoLoop : List (List Char) → Nat × Nat → Nat × Nat
  | [], values => values
  | line :: rest, values =>
      let values := readMeminfoLine values line
      if 0 < values.1 ∧ 0 < values.2 then values else readMeminfoLoop rest values

/-- The end of `get_memory_usage_pct`: `0.0` without a positive total, else
`total.saturating_sub(available) as f64 / total as f64`. -/
def usageOf (values : Nat × Nat) : ℚ :=
  if values.1 = 0 then 0
  else round binary64 (round binary64 (values.1 - values.2 : ℕ) / round binary64 values.1)

/-- `get_memory_usage_pct`; `none` is a file that cannot be opened. -/
def getMemoryUsagePct : Option (List Char) → ℚ
  | none => 0
  | some text => usageOf (readMeminfoLoop (lines text) (0, 0))

/-! ## The levels -/

def memPressureNormal : Nat := 0

def memPressureLight : Nat := 1

def memPressureHeavy : Nat := 2

def memPressureEmergency : Nat := 3

/-- `--memory-threshold`, `--memory-critical` and `--memory-emergency`, as `f64` values. -/
structure Thresholds where
  threshold : ℚ
  critical : ℚ
  emergency : ℚ

/-- The defaults `0.75`, `0.85` and `0.92`, each parsed to the nearest `f64`. -/
def defaultThresholds : Thresholds :=
  ⟨round binary64 (75 / 100), round binary64 (85 / 100), round binary64 (92 / 100)⟩

/-- The monitor's level for one reading. -/
def memoryPressureLevel (thresholds : Thresholds) (usage : ℚ) : Nat :=
  if thresholds.emergency ≤ usage then memPressureEmergency
  else if thresholds.critical ≤ usage then memPressureHeavy
  else if thresholds.threshold ≤ usage then memPressureLight
  else memPressureNormal

/-! ## The monitor and the workers -/

/-- The atomic `memory_pressure` and the states of the workers, by index. -/
structure Benchmark where
  memoryPressure : Nat
  workers : Nat → WorkerState

/-- What happens next: the monitor reads `/proc/meminfo`, or a worker runs one iteration of its
loop with its draws and the node's answers. -/
inductive Event where
  | monitor (meminfo : Option (List Char))
  | iterate (worker : Nat) (doCreate : Bool) (startIdx : Nat)
      (node : Transaction → Except String Response)

/-- The monitor stores the level of its reading; a worker runs at the level it loads. -/
def benchmarkStep (thresholds : Thresholds) (useBlobs : Bool) (batchSize : Nat)
    (benchmark : Benchmark) : Event → Benchmark
  | .monitor meminfo =>
      { benchmark with
        memoryPressure := memoryPressureLevel thresholds (getMemoryUsagePct meminfo) }
  | .iterate worker doCreate startIdx node =>
      { benchmark with
        workers := Function.update benchmark.workers worker
          (runWorkerIteration useBlobs batchSize
            ⟨benchmark.memoryPressure, doCreate, startIdx, node⟩ (benchmark.workers worker)) }

/-- An iteration of worker `index` runs that worker at the stored level and no other. -/
theorem benchmarkStep_iterate_workers (thresholds : Thresholds) (useBlobs : Bool)
    (batchSize : Nat) (benchmark : Benchmark) (index : Nat) (doCreate : Bool) (startIdx : Nat)
    (node : Transaction → Except String Response) (worker : Nat) :
    (benchmarkStep thresholds useBlobs batchSize benchmark
        (.iterate index doCreate startIdx node)).workers worker =
      if worker = index then
        runWorkerIteration useBlobs batchSize
          ⟨benchmark.memoryPressure, doCreate, startIdx, node⟩ (benchmark.workers index)
      else benchmark.workers worker := by
  rw [benchmarkStep]
  dsimp only
  rw [Function.update_apply]

/-! ## Lines and words -/

theorem linesFrom_append_newline {line : List Char} (no_newline : '\n' ∉ line)
    (rest current : List Char) :
    linesFrom (line ++ '\n' :: rest) current =
      stripCr (current.reverse ++ line) :: linesFrom rest [] := by
  induction line generalizing current with
  | nil => simp [linesFrom]
  | cons c line induction =>
      have other : c ≠ '\n' := fun same => no_newline (same ▸ List.mem_cons_self)
      rw [List.cons_append, linesFrom, if_neg other,
        induction (fun member => no_newline (List.mem_cons_of_mem c member))]
      simp

/-- Lines each ended by a `'\n'` are read back, each without a `'\r'` before its `'\n'`. -/
theorem lines_flatMap {written : List (List Char)} (no_newline : ∀ line ∈ written, '\n' ∉ line)
    (after : List Char) :
    lines (written.flatMap (· ++ ['\n']) ++ after) = written.map stripCr ++ lines after := by
  induction written with
  | nil => rfl
  | cons line written induction =>
      have rest := induction fun other member => no_newline other (List.mem_cons_of_mem line member)
      rw [List.flatMap_cons, List.append_assoc, List.append_assoc, List.singleton_append, lines,
        linesFrom_append_newline (no_newline line List.mem_cons_self)]
      rw [lines] at rest
      simp [rest]

theorem wordsFrom_blank {blank : List Char} (all_blank : ∀ c ∈ blank, isWhitespace c)
    (rest : List Char) : wordsFrom (blank ++ rest) [] = wordsFrom rest [] := by
  induction blank with
  | nil => rfl
  | cons c blank induction =>
      rw [List.cons_append, wordsFrom, if_pos (all_blank c List.mem_cons_self), if_pos rfl]
      exact induction fun other member => all_blank other (List.mem_cons_of_mem c member)

theorem wordsFrom_word {word : List Char} (no_blank : ∀ c ∈ word, isWhitespace c = false)
    {c : Char} (blank : isWhitespace c) (rest current : List Char)
    (nonempty : current.reverse ++ word ≠ []) :
    wordsFrom (word ++ c :: rest) current = (current.reverse ++ word) :: wordsFrom rest [] := by
  induction word generalizing current with
  | nil =>
      rw [List.nil_append, wordsFrom, if_pos blank, if_neg (by simpa using nonempty)]
      simp
  | cons d word induction =>
      rw [List.cons_append, wordsFrom, if_neg (by simp [no_blank d List.mem_cons_self]),
        induction (fun other member => no_blank other (List.mem_cons_of_mem d member))
          (d :: current) (by simp)]
      simp

/-! ## The kernel's lines -/

/-- A line as the kernel writes it into `/proc/meminfo`: the key, a run of spaces, the value in
decimal and the unit. -/
def meminfoLine (key : List Char) (gap value : Nat) : List Char :=
  key ++ ' ' :: (List.replicate gap ' ' ++ Nat.toDigits 10 value ++ [' ', 'k', 'B'])

theorem parseU64_toDigits {value : Nat} (fits : value < 2 ^ 64) :
    parseU64 (Nat.toDigits 10 value) = some value := by
  have digits : ∀ c ∈ Nat.toDigits 10 value, c.isDigit :=
    fun c member => Nat.isDigit_of_mem_toDigits (by norm_num) (by norm_num) member
  have unsigned : (Nat.toDigits 10 value).head? ≠ some '+' := fun head =>
    absurd (digits '+' (List.mem_of_mem_head? head)) (by decide)
  rw [parseU64, if_neg unsigned, parseDigits, Nat.ofDigitChars_ten_toDigits,
    if_pos ⟨Nat.toDigits_ne_nil, List.all_eq_true.mpr digits, fits⟩]

theorem splitWhitespace_meminfoLine {key : List Char} (nonempty : key ≠ [])
    (no_blank : ∀ c ∈ key, isWhitespace c = false) (gap value : Nat) :
    splitWhitespace (meminfoLine key gap value) = [key, Nat.toDigits 10 value, ['k', 'B']] := by
  have digits_no_blank : ∀ c ∈ Nat.toDigits 10 value, isWhitespace c = false := by
    intro c member
    have digit := Nat.isDigit_of_mem_toDigits (by norm_num) (by norm_num) member
    simp only [Char.isDigit, Bool.and_eq_true, decide_eq_true_eq] at digit
    simp only [isWhitespace, Bool.or_eq_false_iff, beq_eq_false_iff_ne, Bool.and_eq_false_iff,
      decide_eq_false_iff_not, not_le]
    have bounds : 48 ≤ c.toNat ∧ c.toNat ≤ 57 := ⟨digit.1, digit.2⟩
    omega
  have spaces : ∀ c ∈ List.replicate gap ' ', isWhitespace c := fun c member => by
    rw [List.eq_of_mem_replicate member]
    decide
  rw [splitWhitespace, meminfoLine, wordsFrom_word no_blank rfl _ [] (by simpa using nonempty),
    List.append_assoc, wordsFrom_blank spaces,
    wordsFrom_word digits_no_blank rfl _ [] (by simp [Nat.toDigits_ne_nil])]
  rfl

theorem fieldValue_meminfoLine {key : List Char} (nonempty : key ≠ [])
    (no_blank : ∀ c ∈ key, isWhitespace c = false) (gap : Nat) {value : Nat}
    (fits : value < 2 ^ 64) : fieldValue (meminfoLine key gap value) = value := by
  rw [fieldValue, splitWhitespace_meminfoLine nonempty no_blank]
  simp [parseU64_toDigits fits]

theorem newline_not_mem_meminfoLine {key : List Char} (no_newline : '\n' ∉ key) (gap value : Nat) :
    '\n' ∉ meminfoLine key gap value := by
  have not_digit : '\n' ∉ Nat.toDigits 10 value := fun member =>
    absurd (Nat.isDigit_of_mem_toDigits (by norm_num) (by norm_num) member) (by decide)
  simp [meminfoLine, no_newline, not_digit, List.mem_replicate]

theorem stripCr_meminfoLine (key : List Char) (gap value : Nat) :
    stripCr (meminfoLine key gap value) = meminfoLine key gap value := by
  have last : (meminfoLine key gap value).getLast? = some 'B' := by
    rw [meminfoLine, show key ++ ' ' :: (List.replicate gap ' ' ++ Nat.toDigits 10 value ++
      [' ', 'k', 'B']) = (key ++ ' ' :: (List.replicate gap ' ' ++ Nat.toDigits 10 value)) ++
        [' ', 'k', 'B'] by simp, List.getLast?_append]
    rfl
  rw [stripCr, last, if_neg (by decide)]

theorem memTotalKey_no_blank : ∀ c ∈ memTotalKey, isWhitespace c = false := by
  simp [memTotalKey, isWhitespace]

theorem memAvailableKey_no_blank : ∀ c ∈ memAvailableKey, isWhitespace c = false := by
  simp [memAvailableKey, isWhitespace]

theorem startsWith_append (key rest : List Char) : startsWith (key ++ rest) key := by
  simp [startsWith]

theorem startsWith_memAvailableKey_append (rest : List Char) :
    startsWith (memAvailableKey ++ rest) memTotalKey = false := by
  rw [startsWith, List.take_append_of_le_length (by decide)]
  decide

/-- A line that starts with a key once its `'\r'` is dropped starts with it before. -/
theorem startsWith_stripCr {line key : List Char} (starts : startsWith (stripCr line) key) :
    startsWith line key := by
  rw [stripCr] at starts
  split at starts
  · simp only [startsWith, beq_iff_eq, List.dropLast_eq_take, List.take_take] at starts ⊢
    have length := congrArg List.length starts
    rw [List.length_take] at length
    rw [Nat.min_eq_left (by omega)] at starts
    exact starts
  · exact starts

/-! ## The loop -/

theorem readMeminfoLoop_cons (line : List Char) (rest : List (List Char)) (values : Nat × Nat) :
    readMeminfoLoop (line :: rest) values =
      if 0 < (readMeminfoLine values line).1 ∧ 0 < (readMeminfoLine values line).2 then
        readMeminfoLine values line
      else readMeminfoLoop rest (readMeminfoLine values line) :=
  rfl

/-- Lines with neither key leave the loop's values as they are. -/
theorem readMeminfoLoop_skip {others : List (List Char)}
    (skipped : ∀ line ∈ others,
      startsWith line memTotalKey = false ∧ startsWith line memAvailableKey = false)
    (rest : List (List Char)) {values : Nat × Nat} (unfinished : ¬(0 < values.1 ∧ 0 < values.2)) :
    readMeminfoLoop (others ++ rest) values = readMeminfoLoop rest values := by
  induction others with
  | nil => rfl
  | cons line others induction =>
      have neither := skipped line List.mem_cons_self
      have unchanged : readMeminfoLine values line = values := by
        rw [readMeminfoLine, if_neg (by simp [neither.1]), if_neg (by simp [neither.2])]
      rw [List.cons_append, readMeminfoLoop_cons, unchanged, if_neg unfinished]
      exact induction fun other member => skipped other (List.mem_cons_of_mem line member)

/-- The loop over a file in the kernel's format stops at its `MemAvailable:` line with both
values. -/
theorem readMeminfoLoop_meminfo {total available : Nat} (total_pos : 0 < total)
    (available_pos : 0 < available) (total_fits : total < 2 ^ 64)
    (available_fits : available < 2 ^ 64) (gap gap' : Nat) {before between : List (List Char)}
    (skipped : ∀ line ∈ before ++ between,
      startsWith line memTotalKey = false ∧ startsWith line memAvailableKey = false)
    (after : List (List Char)) :
    readMeminfoLoop (before ++ meminfoLine memTotalKey gap total ::
      (between ++ meminfoLine memAvailableKey gap' available :: after)) (0, 0) =
        (total, available) := by
  have total_line : readMeminfoLine (0, 0) (meminfoLine memTotalKey gap total) = (total, 0) := by
    rw [readMeminfoLine, meminfoLine, if_pos (startsWith_append _ _), ← meminfoLine,
      fieldValue_meminfoLine (by decide) memTotalKey_no_blank gap total_fits]
  have available_line :
      readMeminfoLine (total, 0) (meminfoLine memAvailableKey gap' available) =
        (total, available) := by
    rw [readMeminfoLine, meminfoLine, if_neg (by simp [startsWith_memAvailableKey_append]),
      if_pos (startsWith_append _ _), ← meminfoLine,
      fieldValue_meminfoLine (by decide) memAvailableKey_no_blank gap' available_fits]
  rw [readMeminfoLoop_skip (fun line member => skipped line (List.mem_append_left _ member)) _
      (by simp), readMeminfoLoop_cons, total_line, if_neg (by simp),
    readMeminfoLoop_skip (fun line member => skipped line (List.mem_append_right _ member)) _
      (by simp), readMeminfoLoop_cons, available_line, if_pos ⟨total_pos, available_pos⟩]

/-! ## The usage -/

theorem usageOf_mem_unit (values : Nat × Nat) : 0 ≤ usageOf values ∧ usageOf values ≤ 1 := by
  rw [usageOf]
  split
  case isTrue => norm_num
  case isFalse nonzero =>
    have total_pos : (0 : ℚ) < values.1 := by exact_mod_cast Nat.pos_of_ne_zero nonzero
    have total_rounded := @round_pos binary64 _ total_pos
    have used_nonneg : (0 : ℚ) ≤ (values.1 - values.2 : ℕ) := Nat.cast_nonneg _
    have used_le : round binary64 (values.1 - values.2 : ℕ) ≤ round binary64 values.1 :=
      round_mono used_nonneg (by exact_mod_cast Nat.sub_le values.1 values.2)
    have ratio_nonneg := div_nonneg (@round_nonneg binary64 _ used_nonneg) total_rounded.le
    have ratio_le_one := (div_le_one total_rounded).mpr used_le
    exact ⟨round_nonneg ratio_nonneg, (round_mono ratio_nonneg ratio_le_one).trans_eq round_one⟩

theorem getMemoryUsagePct_mem_unit (meminfo : Option (List Char)) :
    0 ≤ getMemoryUsagePct meminfo ∧ getMemoryUsagePct meminfo ≤ 1 := by
  cases meminfo with
  | none => norm_num [getMemoryUsagePct]
  | some text => exact usageOf_mem_unit _

/-- For a file in the kernel's format, with any other lines before and between its `MemTotal:` and
`MemAvailable:` lines and any text after them, `get_memory_usage_pct` returns
`(total - available) as f64 / total as f64`. -/
theorem getMemoryUsagePct_of_meminfo {total available : Nat} (total_pos : 0 < total)
    (available_pos : 0 < available) (total_fits : total < 2 ^ 64)
    (available_fits : available < 2 ^ 64) (gap gap' : Nat) {before between : List (List Char)}
    (others : ∀ line ∈ before ++ between, '\n' ∉ line ∧
      startsWith line memTotalKey = false ∧ startsWith line memAvailableKey = false)
    (after : List Char) :
    getMemoryUsagePct (some ((before ++ meminfoLine memTotalKey gap total ::
        (between ++ [meminfoLine memAvailableKey gap' available])).flatMap (· ++ ['\n']) ++
          after)) =
      round binary64 (round binary64 (total - available : ℕ) / round binary64 total) := by
  have no_newline : ∀ line ∈ before ++ meminfoLine memTotalKey gap total ::
      (between ++ [meminfoLine memAvailableKey gap' available]), '\n' ∉ line := by
    intro line member
    simp only [List.mem_append, List.mem_cons, List.not_mem_nil, or_false] at member
    rcases member with before_line | rfl | between_line | rfl
    · exact (others line (List.mem_append_left _ before_line)).1
    · exact newline_not_mem_meminfoLine (by decide) gap total
    · exact (others line (List.mem_append_right _ between_line)).1
    · exact newline_not_mem_meminfoLine (by decide) gap' available
  have skipped : ∀ line ∈ before.map stripCr ++ between.map stripCr,
      startsWith line memTotalKey = false ∧ startsWith line memAvailableKey = false := by
    intro line member
    rw [← List.map_append, List.mem_map] at member
    obtain ⟨written, member, rfl⟩ := member
    obtain ⟨-, not_total, not_available⟩ := others written member
    exact ⟨Bool.eq_false_iff.mpr fun starts => by simp [startsWith_stripCr starts] at not_total,
      Bool.eq_false_iff.mpr fun starts => by simp [startsWith_stripCr starts] at not_available⟩
  rw [getMemoryUsagePct, lines_flatMap no_newline]
  simp only [List.map_append, List.map_cons, List.map_nil, stripCr_meminfoLine,
    List.append_assoc, List.cons_append, List.nil_append]
  rw [readMeminfoLoop_meminfo total_pos available_pos total_fits available_fits gap gap' skipped,
    usageOf, if_neg total_pos.ne']

theorem getMemoryUsagePct_of_meminfo_half :
    getMemoryUsagePct (some (([] ++ meminfoLine memTotalKey 7 16 ::
        ([['M', 'e', 'm', 'F', 'r', 'e', 'e', ':', ' ', '3', ' ', 'k', 'B']] ++
          [meminfoLine memAvailableKey 3 8])).flatMap (· ++ ['\n']) ++ [])) =
      round binary64 (round binary64 (16 - 8 : ℕ) / round binary64 16) :=
  getMemoryUsagePct_of_meminfo (by decide) (by decide) (by decide) (by decide) 7 3
    (by decide) []

/-! ## The levels -/

theorem memoryPressureLevel_le (thresholds : Thresholds) (usage : ℚ) :
    memoryPressureLevel thresholds usage ≤ memPressureEmergency := by
  unfold memoryPressureLevel
  split_ifs <;> decide

/-! ## A file without `MemAvailable:` -/

/-- A `/proc/meminfo` with a `MemTotal:` line, each with a positive value, and no `MemAvailable:`
line, as kernels before 3.14 write it. -/
def WithoutMemAvailable (text : List Char) : Prop :=
  (∃ line ∈ lines text, startsWith line memTotalKey) ∧
    ∀ line ∈ lines text,
      startsWith line memAvailableKey = false ∧ (startsWith line memTotalKey → 0 < fieldValue line)

instance : DecidablePred WithoutMemAvailable := fun text => by
  unfold WithoutMemAvailable
  infer_instance

theorem readMeminfoLoop_without_available {written : List (List Char)}
    (no_available : ∀ line ∈ written, startsWith line memAvailableKey = false)
    (totals : ∀ line ∈ written, startsWith line memTotalKey → 0 < fieldValue line)
    {values : Nat × Nat} (none_available : values.2 = 0)
    (total : 0 < values.1 ∨ ∃ line ∈ written, startsWith line memTotalKey) :
    0 < (readMeminfoLoop written values).1 ∧ (readMeminfoLoop written values).2 = 0 := by
  induction written generalizing values with
  | nil =>
      simp only [List.not_mem_nil, false_and, exists_false, or_false] at total
      exact ⟨total, none_available⟩
  | cons line written induction =>
      have later_available :=
        fun other member => no_available other (List.mem_cons_of_mem line member)
      have later_totals := fun other member => totals other (List.mem_cons_of_mem line member)
      rw [readMeminfoLoop_cons]
      by_cases total_line : startsWith line memTotalKey
      · have read : readMeminfoLine values line = (fieldValue line, values.2) := by
          rw [readMeminfoLine, if_pos total_line]
        rw [read, if_neg (by simp [none_available])]
        exact induction later_available later_totals none_available
          (.inl (totals line List.mem_cons_self total_line))
      · have read : readMeminfoLine values line = values := by
          rw [readMeminfoLine, if_neg total_line,
            if_neg (by simp [no_available line List.mem_cons_self])]
        rw [read, if_neg (by simp [none_available])]
        refine induction later_available later_totals none_available ?_
        rcases total with positive | ⟨other, member, starts⟩
        · exact .inl positive
        · rcases List.mem_cons.mp member with rfl | later
          · exact absurd starts total_line
          · exact .inr ⟨other, later, starts⟩

/-- Without a `MemAvailable:` line the available memory stays `0`, and the usage reads `1.0`. -/
theorem getMemoryUsagePct_without_memAvailable {text : List Char}
    (without : WithoutMemAvailable text) : getMemoryUsagePct (some text) = 1 := by
  obtain ⟨has_total, each⟩ := without
  obtain ⟨total_pos, none_available⟩ := @readMeminfoLoop_without_available (lines text)
    (fun line member => (each line member).1) (fun line member => (each line member).2) (0, 0)
    rfl (.inr has_total)
  have total_rounded := @round_pos binary64 _
    (show (0 : ℚ) < (readMeminfoLoop (lines text) (0, 0)).1 by exact_mod_cast total_pos)
  rw [getMemoryUsagePct, usageOf, if_neg total_pos.ne', none_available, Nat.sub_zero,
    div_self total_rounded.ne', round_one]

theorem memoryPressureLevel_defaultThresholds_one :
    memoryPressureLevel defaultThresholds 1 = memPressureEmergency := by
  have below : round binary64 (92 / 100) ≤ 1 :=
    (round_mono (by norm_num) (by norm_num : (92 / 100 : ℚ) ≤ 1)).trans_eq round_one
  rw [memoryPressureLevel, if_pos (show defaultThresholds.emergency ≤ 1 from below)]

/-! ## The workers at the emergency level -/

/-- An update batch keeps the ids of the tracked objects, whether it succeeds or fails. -/
theorem objectIds_afterOperation_update (useBlobs : Bool) (batchSize startIdx : Nat)
    (state : WorkerState) (node : Transaction → Except String Response) :
    objectIds (afterOperation state
      (workerOperation useBlobs false batchSize startIdx state node)).objects =
        objectIds state.objects := by
  cases result : workerOperation useBlobs false batchSize startIdx state node with
  | error failure => rfl
  | ok outcome =>
      obtain ⟨next, created, updated⟩ := outcome
      have update : ∃ function batch,
          executeUpdate function batch state startIdx node = .ok (next, created, updated) := by
        cases useBlobs
        · exact ⟨_, _, result⟩
        · exact ⟨_, _, result⟩
      obtain ⟨function, batch, update⟩ := update
      obtain ⟨-, response, -, -, after, -⟩ := executeUpdate_eq_ok update
      have next_eq : (afterExecute applyMutated state response).1 = next := congrArg Prod.fst after
      rw [afterOperation, ← next_eq, objectIds_afterExecute_applyMutated]

/-- At the emergency level an iteration of `run_worker` drops objects and runs an update batch or
nothing, so the ids it keeps are a sublist of those it had. -/
theorem runWorkerIteration_emergency_sublist (useBlobs : Bool) (batchSize : Nat)
    (doCreate : Bool) (startIdx : Nat) (node : Transaction → Except String Response)
    (state : WorkerState) :
    (objectIds (runWorkerIteration useBlobs batchSize
      ⟨memPressureEmergency, doCreate, startIdx, node⟩ state).objects).Sublist
        (objectIds state.objects) := by
  have dropped := (dropTrackedObjects_sublist (pressureThrottle memPressureEmergency).1
    state.objects).map TrackedObject.id
  rw [runWorkerIteration]
  dsimp only
  rw [if_pos (by decide)]
  split
  case isFalse creating => exact (creating rfl).elim
  case isTrue =>
    split
    · exact dropped
    · rw [objectIds_afterOperation_update]
      exact dropped

/-- The events that keep the emergency level: worker iterations, and readings classified at it. -/
def KeepsEmergency (thresholds : Thresholds) : Event → Prop
  | .monitor meminfo =>
      memoryPressureLevel thresholds (getMemoryUsagePct meminfo) = memPressureEmergency
  | .iterate _ _ _ _ => True

/-- At the emergency level, an event that keeps it leaves every worker's ids a sublist of what
they were. -/
theorem benchmarkStep_emergency {thresholds : Thresholds} (useBlobs : Bool) (batchSize : Nat)
    {event : Event} (keeps : KeepsEmergency thresholds event) {benchmark : Benchmark}
    (emergency : benchmark.memoryPressure = memPressureEmergency) :
    (benchmarkStep thresholds useBlobs batchSize benchmark event).memoryPressure =
        memPressureEmergency ∧
      ∀ worker, (objectIds ((benchmarkStep thresholds useBlobs batchSize benchmark
        event).workers worker).objects).Sublist (objectIds (benchmark.workers worker).objects) := by
  cases event with
  | monitor meminfo => exact ⟨keeps, fun worker => List.Sublist.refl _⟩
  | iterate index doCreate startIdx node =>
      refine ⟨emergency, fun worker => ?_⟩
      rw [benchmarkStep_iterate_workers]
      split
      case isTrue same =>
        rw [same, emergency]
        exact runWorkerIteration_emergency_sublist useBlobs batchSize doCreate startIdx node _
      case isFalse => exact List.Sublist.refl _

/-- The events of a run on a kernel without `MemAvailable:`: every reading is such a file. -/
def ReadsWithoutMemAvailable : Event → Prop
  | .monitor (some text) => WithoutMemAvailable text
  | .monitor none => False
  | .iterate _ _ _ _ => True

/-- With the default thresholds, a reading of a `/proc/meminfo` without `MemAvailable:` sets the
emergency level, and as long as every reading is such a file, every worker's tracked ids only
shrink: no worker tracks a new object again. -/
theorem workers_never_create_without_memAvailable (useBlobs : Bool) (batchSize : Nat)
    {text : List Char} (without : WithoutMemAvailable text) {events : List Event}
    (readings : ∀ event ∈ events, ReadsWithoutMemAvailable event) (benchmark : Benchmark)
    (worker : Nat) :
    (objectIds ((Trace.run (benchmarkStep defaultThresholds useBlobs batchSize) benchmark
      (.monitor (some text) :: events)).workers worker).objects).Sublist
        (objectIds (benchmark.workers worker).objects) := by
  have keeps : ∀ event ∈ events, KeepsEmergency defaultThresholds event := by
    intro event member
    have reads := readings event member
    cases event with
    | monitor meminfo =>
        cases meminfo with
        | none => exact reads.elim
        | some later =>
            rw [KeepsEmergency, getMemoryUsagePct_without_memAvailable reads]
            exact memoryPressureLevel_defaultThresholds_one
    | iterate => trivial
  have first : (benchmarkStep defaultThresholds useBlobs batchSize benchmark
      (.monitor (some text))).memoryPressure = memPressureEmergency := by
    rw [benchmarkStep]
    dsimp only
    rw [getMemoryUsagePct_without_memAvailable without, memoryPressureLevel_defaultThresholds_one]
  rw [Trace.run_cons]
  refine (@Trace.run_invariant_of_allowed Benchmark Event
    (benchmarkStep defaultThresholds useBlobs batchSize)
    (fun current => current.memoryPressure = memPressureEmergency ∧ ∀ worker,
      (objectIds (current.workers worker).objects).Sublist
        (objectIds (benchmark.workers worker).objects))
    (KeepsEmergency defaultThresholds) ?_ events keeps _ ⟨first, fun worker => ?_⟩).2 worker
  · intro current event kept ⟨emergency, shrunk⟩
    obtain ⟨still, step⟩ := benchmarkStep_emergency useBlobs batchSize kept emergency
    exact ⟨still, fun worker => (step worker).trans (shrunk worker)⟩
  · exact List.Sublist.refl _

/-- A worker tracking one object, on a kernel without `MemAvailable:`: its create iteration after
the first reading keeps no new object, although the node reports one created. -/
theorem workers_never_create_without_memAvailable_one_object :
    (objectIds ((Trace.run (benchmarkStep defaultThresholds false 10)
      ⟨memPressureNormal, fun _ => ⟨⟨9, 1, 0⟩, [⟨1, 1, 0⟩]⟩⟩
      [.monitor (some (meminfoLine memTotalKey 0 4096 ++ ['\n'])),
        .iterate 0 true 0 (fun _ => .ok ⟨some ⟨9, 1, 0⟩, some [.created ⟨7, 1, 0⟩]⟩),
        .monitor (some (meminfoLine memTotalKey 0 4096 ++ ['\n']))]).workers 0).objects).Sublist
      [1] :=
  workers_never_create_without_memAvailable false 10 (by decide)
    (fun event member => by
      simp only [List.mem_cons, List.not_mem_nil, or_false] at member
      rcases member with rfl | rfl
      · trivial
      · exact (by decide : WithoutMemAvailable (meminfoLine memTotalKey 0 4096 ++ ['\n'])))
    _ 0

/-! ## Every interleaving of the monitor and the workers -/

/-- One move of the benchmark, with a node whose answers report only new objects as created: a
reading of the monitor, or one iteration of any worker. -/
inductive BenchmarkMove (thresholds : Thresholds) (useBlobs : Bool) (batchSize : Nat) :
    Benchmark → Benchmark → Prop
  | monitor (benchmark : Benchmark) (meminfo : Option (List Char)) :
      BenchmarkMove thresholds useBlobs batchSize benchmark
        (benchmarkStep thresholds useBlobs batchSize benchmark (.monitor meminfo))
  | iterate (benchmark : Benchmark) (worker : Nat) (doCreate : Bool) (startIdx : Nat)
      {node : Transaction → Except String Response}
      (fresh : FreshAnswers (benchmark.workers worker).objects node) :
      BenchmarkMove thresholds useBlobs batchSize benchmark
        (benchmarkStep thresholds useBlobs batchSize benchmark
          (.iterate worker doCreate startIdx node))

/-- The benchmarks reached from the normal level and workers each reachable by its own steps,
such as the empty workers of fresh mode or the reloaded ones of load mode. -/
def BenchmarkReachable (thresholds : Thresholds) (useBlobs : Bool) (batchSize : Nat) :
    Benchmark → Prop :=
  Trace.Reachable (BenchmarkMove thresholds useBlobs batchSize) fun start =>
    start.memoryPressure = memPressureNormal ∧ ∀ worker, Reachable (start.workers worker)

/-- A move keeps the atomic at one of the four levels and every worker reachable by its own
steps. -/
theorem BenchmarkMove.preserves {thresholds : Thresholds} {useBlobs : Bool} {batchSize : Nat}
    {benchmark next : Benchmark} (move : BenchmarkMove thresholds useBlobs batchSize benchmark next)
    (level : benchmark.memoryPressure ≤ memPressureEmergency)
    (workers : ∀ worker, Reachable (benchmark.workers worker)) :
    next.memoryPressure ≤ memPressureEmergency ∧ ∀ worker, Reachable (next.workers worker) := by
  cases move with
  | monitor meminfo => exact ⟨memoryPressureLevel_le thresholds _, workers⟩
  | iterate index doCreate startIdx fresh =>
      refine ⟨level, fun worker => ?_⟩
      rw [benchmarkStep_iterate_workers]
      split
      case isTrue same =>
        subst same
        obtain ⟨start, empty, path⟩ := workers worker
        exact ⟨start, empty, path.trans (runWorkerIteration_steps useBlobs batchSize _ _ fresh)⟩
      case isFalse => exact workers worker

/-- In every interleaving of the monitor's readings and the iterations of any number of workers,
the atomic holds one of the four levels and every worker tracks distinct ids, at most
`MAX_TRACKED_OBJECTS_PER_WORKER` of them. -/
theorem benchmarkReachable_valid {thresholds : Thresholds} {useBlobs : Bool} {batchSize : Nat}
    {benchmark : Benchmark} (reach : BenchmarkReachable thresholds useBlobs batchSize benchmark) :
    benchmark.memoryPressure ≤ memPressureEmergency ∧
      ∀ worker, Valid maxTrackedObjectsPerWorker (objectIds (benchmark.workers worker).objects) := by
  have invariant := @Trace.Reachable.invariant _ _ _
    (fun current => current.memoryPressure ≤ memPressureEmergency ∧
      ∀ worker, Reachable (current.workers worker))
    (fun start initial => ⟨by rw [initial.1]; decide, initial.2⟩)
    (fun _ _ holds move => move.preserves holds.1 holds.2) _ reach
  exact ⟨invariant.1, fun worker => (invariant.2 worker).valid⟩

theorem benchmarkReachable_valid_after_reading :
    (benchmarkStep defaultThresholds false 10 ⟨memPressureNormal, fun _ => ⟨⟨9, 1, 0⟩, []⟩⟩
        (.monitor none)).memoryPressure ≤ memPressureEmergency ∧
      ∀ worker, Valid maxTrackedObjectsPerWorker (objectIds ((benchmarkStep defaultThresholds
        false 10 ⟨memPressureNormal, fun _ => ⟨⟨9, 1, 0⟩, []⟩⟩ (.monitor none)).workers
          worker).objects) :=
  benchmarkReachable_valid ((Trace.Reachable.of_initial
    ⟨rfl, fun _ => Trace.Reachable.of_initial rfl⟩).tail (.monitor _ none))

end SuiBench
end FdpBench
