/-
  ArgusManager.Monitor.Meminfo
  ────────────────────────────
  **The two readers of `/proc/meminfo`**: `parse_meminfo` of the memory
  monitor (`src/monitor/memory.rs`) and `read_meminfo`, which serves the
  script's `sys.meminfo` (`src/lua_policy.rs`).

  The first stops at the first value it cannot parse and once it has both
  fields; the second reads every line and takes 0 for what it cannot parse.
  On files with one line for each field they agree, whatever else the file
  has (`meminfo_readers_agree`).
-/
import ArgusManager.Lib.Decimal
import ArgusManager.Lib.Lines
import ArgusManager.Monitor.Memory
import ArgusManager.Monitor.ProcStat

namespace ArgusManager

open StrScan

/-! ## §1. The monitor's reader. -/

/-- `x * y` of `u64`s. -/
def Build.mul (b : Build) (x y : Nat) : Option Nat :=
  if x * y < 2 ^ 64 then some (x * y) else b.overflow (x * y % 2 ^ 64)

/-- `trim_end_matches("kB")`, of the text read backwards. -/
def trimKb : Text → Text
  | 'B' :: 'k' :: s => trimKb s
  | s => s

/-- `parse_kb_value`. -/
def parseKbValue (s : Text) : Option Nat :=
  parseUnsigned 64 (trim (trimKb (trim s).reverse).reverse)

inductive MeminfoError where
  | unreadable (error : String)
  /-- The number of a line does not parse. -/
  | parseInt (value : Text)
  | totalNotFound
  | availableNotFound
  deriving DecidableEq, Repr

/-- The loop of `parse_meminfo`, with the two fields as far as they are
known. -/
def scanMeminfo : List Text → Option Nat → Option Nat →
    Except MeminfoError (Option Nat × Option Nat)
  | [], total, available => .ok (total, available)
  | line :: lines, total, available =>
      match stripPrefix "MemTotal:".toList line with
      | some val =>
          match parseKbValue val with
          | none => .error (.parseInt val)
          | some kb =>
              if available.isSome then .ok (some kb, available)
              else scanMeminfo lines (some kb) available
      | none =>
          match stripPrefix "MemAvailable:".toList line with
          | some val =>
              match parseKbValue val with
              | none => .error (.parseInt val)
              | some kb =>
                  if total.isSome then .ok (total, some kb)
                  else scanMeminfo lines total (some kb)
          | none =>
              if total.isSome && available.isSome then .ok (total, available)
              else scanMeminfo lines total available

/-- `parse_meminfo`; `none` is a panic. -/
def parseMeminfo (b : Build) (file : Except String Text) :
    Option (Except MeminfoError Meminfo) :=
  match file with
  | .error e => some (.error (.unreadable e))
  | .ok content =>
      match scanMeminfo (lines content) none none with
      | .error e => some (.error e)
      | .ok (none, _) => some (.error .totalNotFound)
      | .ok (some _, none) => some (.error .availableNotFound)
      | .ok (some totalKb, some availableKb) =>
          (b.mul totalKb 1024).bind fun total =>
            (b.mul availableKb 1024).map fun available =>
              .ok { total, available }

/-! ## §2. The script's reader. -/

/-- `parse_meminfo_value`. -/
def parseMeminfoValue (s : Text) : Nat :=
  ((splitWhitespace s).head?.bind (parseUnsigned 64)).getD 0

/-- What `sys.meminfo` returns, in kilobytes. -/
structure SysMeminfo where
  total : Nat
  available : Nat
  free : Nat
  deriving DecidableEq, Repr

/-- One line of the loop of `read_meminfo`. -/
def SysMeminfo.line (info : SysMeminfo) (line : Text) : SysMeminfo :=
  match stripPrefix "MemTotal:".toList line with
  | some rest => { info with total := parseMeminfoValue rest }
  | none =>
      match stripPrefix "MemAvailable:".toList line with
      | some rest => { info with available := parseMeminfoValue rest }
      | none =>
          match stripPrefix "MemFree:".toList line with
          | some rest => { info with free := parseMeminfoValue rest }
          | none => info

/-- `read_meminfo`. -/
def readMeminfo (file : Except String Text) : SysMeminfo :=
  match file with
  | .error _ => ⟨0, 0, 0⟩
  | .ok content => (lines content).foldl SysMeminfo.line ⟨0, 0, 0⟩

/-! ## §3. What a kernel writes. -/

/-- One line: a key, blanks and a number of kilobytes. -/
structure MeminfoField where
  key : Text
  pad : Nat
  kb : Nat

namespace MeminfoField

/-- The part behind the colon. -/
def value (f : MeminfoField) : Text :=
  List.replicate f.pad ' ' ++ numeral f.kb ++ " kB".toList

def line (f : MeminfoField) : Text := f.key ++ ':' :: f.value

/-- A key is one word, and the number of bytes fits. -/
structure Wellformed (f : MeminfoField) : Prop where
  no_colon : ':' ∉ f.key
  no_newline : '\n' ∉ f.key
  fits : f.kb * 1024 < 2 ^ 64

end MeminfoField

abbrev memTotal : Text := "MemTotal".toList
abbrev memAvailable : Text := "MemAvailable".toList
abbrev memFree : Text := "MemFree".toList

/-- A line of the file. -/
inductive MeminfoLine where
  | field (f : MeminfoField)
  /-- Of a key that neither reader asks for; `HugePages_Total` has no `kB`. -/
  | other (text : Text)

namespace MeminfoLine

def text : MeminfoLine → Text
  | .field f => f.line
  | .other text => text

def key? : MeminfoLine → Option Text
  | .field f => some f.key
  | .other _ => none

/-- What the line says of a key. -/
def value? (key : Text) : MeminfoLine → Option Text
  | .field f => if f.key = key then some f.value else none
  | .other _ => none

def kb? (key : Text) : MeminfoLine → Option Nat
  | .field f => if f.key = key then some f.kb else none
  | .other _ => none

/-- Other lines say anything, but none of the three keys. -/
def Wellformed : MeminfoLine → Prop
  | .field f => f.Wellformed
  | .other text =>
      '\n' ∉ text ∧ text.getLast? ≠ some '\r'
        ∧ ∀ key ∈ [memTotal, memAvailable, memFree], ¬ key ++ [':'] <+: text

end MeminfoLine

/-- The file with these lines. -/
def meminfoText (file : List MeminfoLine) : Text :=
  file.flatMap fun l => l.text ++ ['\n']

/-- The number that a key has. -/
def kbOf (key : Text) (file : List MeminfoLine) : Option Nat :=
  file.findSome? (MeminfoLine.kb? key)

theorem blank_replicate (n : Nat) : Blank (List.replicate n ' ') := by
  intro c hc
  rw [List.eq_of_mem_replicate hc]
  rfl

/-- Both readers read the number of a line. -/
theorem parseKbValue_value {f : MeminfoField} (hf : f.Wellformed) :
    parseKbValue f.value = some f.kb := by
  have hlt : f.kb < 2 ^ 64 := by
    have := hf.fits
    omega
  have htrimmed : Trimmed (numeral f.kb ++ " kB".toList) := by
    refine ⟨?_, ?_⟩
    · intro c hc
      rw [List.head?_append_of_ne_nil _ (numeral_ne_nil _)] at hc
      exact (trimmed_numeral f.kb).1 c hc
    · intro c hc
      have hlast : (numeral f.kb ++ " kB".toList).getLast? = some 'B' := by
        simp
      rw [hlast] at hc
      rw [← Option.some.inj hc]
      rfl
  have htrim : trim f.value = numeral f.kb ++ " kB".toList := by
    unfold MeminfoField.value
    rw [List.append_assoc, trim_eq,
      List.dropWhile_append_of_pos (blank_replicate f.pad), ← trim_eq]
    exact trim_of_trimmed htrimmed
  have hkb : trimKb (numeral f.kb ++ " kB".toList).reverse
      = (numeral f.kb ++ [' ']).reverse := by
    rw [List.reverse_append, List.reverse_append]
    show trimKb ('B' :: 'k' :: ' ' :: (numeral f.kb).reverse) = _
    rfl
  have hone : Blank [' '] := blank_replicate 1
  unfold parseKbValue
  rw [htrim, hkb, List.reverse_reverse,
    trim_append_blank (trimmed_numeral _) (numeral_ne_nil _) hone]
  exact parseUnsigned_numeral hlt

theorem parseMeminfoValue_value {f : MeminfoField} (hf : f.Wellformed) :
    parseMeminfoValue f.value = f.kb := by
  have hlt : f.kb < 2 ^ 64 := by
    have := hf.fits
    omega
  have hword : ∀ c ∈ numeral f.kb, isWhitespace c = false := fun c hc =>
    not_isWhitespace_of_isNumeral
      (isNumeral_of_isDigit (isDigit_of_mem_numeral hc))
  unfold parseMeminfoValue MeminfoField.value
  rw [List.append_assoc, splitWhitespace_blank (blank_replicate f.pad)]
  have hsplit : splitWhitespace (numeral f.kb ++ " kB".toList)
      = numeral f.kb :: splitWhitespace "kB".toList :=
    splitWhitespace_word hword (numeral_ne_nil _) rfl _
  rw [hsplit]
  show ((parseUnsigned 64 (numeral f.kb)).getD 0) = f.kb
  rw [parseUnsigned_numeral hlt]
  rfl

/-- A line starts with a key and a colon exactly if it is the key's. -/
theorem stripPrefix_line {f : MeminfoField} (hf : f.Wellformed) {key : Text}
    (hkey : ':' ∉ key) :
    stripPrefix (key ++ [':']) f.line
      = if f.key = key then some f.value else none := by
  split
  next heq =>
    have hline : f.line = (key ++ [':']) ++ f.value := by
      unfold MeminfoField.line
      rw [heq, List.append_assoc]
      rfl
    rw [hline, stripPrefix_append]
  next hne =>
    cases hstrip : stripPrefix (key ++ [':']) f.line with
    | none => rfl
    | some rest =>
        -- the first colon of the line is the one behind its key
        have hline := stripPrefix_eq_some hstrip
        unfold MeminfoField.line at hline
        rw [List.append_assoc] at hline
        have hcut := congrArg (List.takeWhile (· ≠ ':')) hline
        have hown : ∀ k rest : Text, ':' ∉ k →
            (k ++ ':' :: rest).takeWhile (· ≠ ':') = k := by
          intro k rest hk
          have hall : ∀ c ∈ k, decide (c ≠ ':') = true := by
            intro c hc
            have hne : c ≠ ':' := fun h => hk (h ▸ hc)
            simpa using hne
          rw [List.takeWhile_append_of_pos hall]
          simp
        rw [hown f.key _ hf.no_colon] at hcut
        exact absurd (hcut.trans (hown key rest hkey)) hne

/-- What a reader finds on a line behind one of the three keys. -/
theorem stripPrefix_text {l : MeminfoLine} (hl : l.Wellformed) (key : Text)
    (hkey : key ∈ [memTotal, memAvailable, memFree]) :
    stripPrefix (key ++ [':']) l.text = l.value? key := by
  cases l with
  | field f =>
      have hword : ∀ k ∈ [memTotal, memAvailable, memFree], ':' ∉ k := by
        decide
      exact stripPrefix_line hl (hword key hkey)
  | other text => exact stripPrefix_eq_none (hl.2.2 key hkey)

/-! ## §4. What the readers make of it. -/

theorem kbOf_field (key : Text) (f : MeminfoField)
    (file : List MeminfoLine) :
    kbOf key (.field f :: file)
      = if f.key = key then some f.kb else kbOf key file := by
  unfold kbOf
  by_cases h : f.key = key
  · simp [MeminfoLine.kb?, h]
  · simp [MeminfoLine.kb?, h]

theorem kbOf_other (key text : Text) (file : List MeminfoLine) :
    kbOf key (.other text :: file) = kbOf key file := rfl

/-- The keys of the fields. -/
def meminfoKeys (file : List MeminfoLine) : List Text :=
  file.filterMap MeminfoLine.key?

theorem meminfoKeys_field (f : MeminfoField) (file : List MeminfoLine) :
    meminfoKeys (.field f :: file) = f.key :: meminfoKeys file := rfl

theorem kbOf_eq_none {key : Text} {file : List MeminfoLine}
    (h : key ∉ meminfoKeys file) : kbOf key file = none := by
  induction file with
  | nil => rfl
  | cons l file ih =>
      cases l with
      | field f =>
          rw [meminfoKeys_field] at h
          have hne : f.key ≠ key := fun heq => h (heq ▸ List.mem_cons_self)
          rw [kbOf_field, if_neg hne]
          exact ih fun hmem => h (List.mem_cons_of_mem _ hmem)
      | other text => exact ih h

/-- A file with one line for each field. -/
structure MeminfoWellformed (file : List MeminfoLine) : Prop where
  each : ∀ l ∈ file, l.Wellformed
  nodup : (meminfoKeys file).Nodup

theorem MeminfoWellformed.field {f : MeminfoField} {file : List MeminfoLine}
    (h : MeminfoWellformed (.field f :: file)) :
    f.Wellformed ∧ MeminfoWellformed file ∧ f.key ∉ meminfoKeys file := by
  obtain ⟨hnew, hnodup⟩ := List.nodup_cons.mp h.nodup
  exact ⟨h.each (.field f) List.mem_cons_self,
    ⟨fun l hl => h.each l (List.mem_cons_of_mem _ hl), hnodup⟩, hnew⟩

theorem MeminfoWellformed.other {text : Text} {file : List MeminfoLine}
    (h : MeminfoWellformed (.other text :: file)) : MeminfoWellformed file :=
  ⟨fun l hl => h.each l (List.mem_cons_of_mem _ hl), h.nodup⟩

/-- **The monitor's loop** ends with the two fields, as far as the file has
them. -/
theorem scanMeminfo_lines {file : List MeminfoLine}
    (h : MeminfoWellformed file) {total available : Option Nat}
    (htotal : total.isSome → memTotal ∉ meminfoKeys file)
    (havailable : available.isSome → memAvailable ∉ meminfoKeys file)
    (hopen : (total.isSome && available.isSome) = false) :
    scanMeminfo (file.map MeminfoLine.text) total available
      = .ok (total.or (kbOf memTotal file),
          available.or (kbOf memAvailable file)) := by
  induction file generalizing total available with
  | nil => simp [scanMeminfo, kbOf]
  | cons l file ih =>
      have hl := h.each l List.mem_cons_self
      have hisTotal : stripPrefix "MemTotal:".toList l.text
          = l.value? memTotal := stripPrefix_text hl memTotal (by simp)
      have hisAvailable : stripPrefix "MemAvailable:".toList l.text
          = l.value? memAvailable :=
        stripPrefix_text hl memAvailable (by simp)
      rw [List.map_cons, scanMeminfo, hisTotal, hisAvailable]
      cases l with
      | other text =>
          -- neither key: the loop goes on
          rw [kbOf_other, kbOf_other]
          dsimp only [MeminfoLine.value?]
          rw [if_neg (by rw [hopen]; simp)]
          exact ih h.other htotal havailable hopen
      | field f =>
          obtain ⟨hf, hrest, hnew⟩ := h.field
          rw [meminfoKeys_field] at htotal havailable
          rw [kbOf_field, kbOf_field]
          dsimp only [MeminfoLine.value?]
          by_cases hT : f.key = memTotal
          · have hA : f.key ≠ memAvailable := by
              rw [hT]
              decide
            have hnone : total = none := by
              rw [← Option.not_isSome_iff_eq_none]
              intro hsome
              exact htotal hsome (by rw [← hT]; exact List.mem_cons_self)
            rw [if_pos hT, if_pos hT, hnone]
            dsimp only
            rw [parseKbValue_value hf, if_neg hA]
            dsimp only
            cases available with
            | some kb => rfl
            | none =>
                rw [if_neg (by simp), ih hrest (fun _ => hT ▸ hnew)
                  (fun hs => absurd hs (by simp)) rfl]
                rfl
          · rw [if_neg hT, if_neg hT]
            dsimp only
            by_cases hA : f.key = memAvailable
            · have hnone : available = none := by
                rw [← Option.not_isSome_iff_eq_none]
                intro hsome
                exact havailable hsome
                  (by rw [← hA]; exact List.mem_cons_self)
              rw [if_pos hA, if_pos hA, hnone]
              dsimp only
              rw [parseKbValue_value hf]
              dsimp only
              cases total with
              | some kb => rfl
              | none =>
                  rw [if_neg (by simp), ih hrest
                    (fun hs => absurd hs (by simp)) (fun _ => hA ▸ hnew) rfl]
                  rfl
            · rw [if_neg hA, if_neg hA]
              dsimp only
              rw [if_neg (by rw [hopen]; simp)]
              refine ih hrest (fun hs hmem => ?_) (fun hs hmem => ?_) hopen
              · exact htotal hs (List.mem_cons_of_mem _ hmem)
              · exact havailable hs (List.mem_cons_of_mem _ hmem)

/-- **The script's loop** ends with the three fields; 0 stands for what the
file lacks. -/
theorem foldl_line {file : List MeminfoLine}
    (h : MeminfoWellformed file) (info : SysMeminfo) :
    (file.map MeminfoLine.text).foldl SysMeminfo.line info
      = { total := (kbOf memTotal file).getD info.total
          available := (kbOf memAvailable file).getD info.available
          free := (kbOf memFree file).getD info.free } := by
  induction file generalizing info with
  | nil => rfl
  | cons l file ih =>
      have hl := h.each l List.mem_cons_self
      have hisTotal : stripPrefix "MemTotal:".toList l.text
          = l.value? memTotal := stripPrefix_text hl memTotal (by simp)
      have hisAvailable : stripPrefix "MemAvailable:".toList l.text
          = l.value? memAvailable :=
        stripPrefix_text hl memAvailable (by simp)
      have hisFree : stripPrefix "MemFree:".toList l.text
          = l.value? memFree := stripPrefix_text hl memFree (by simp)
      rw [List.map_cons, List.foldl_cons, SysMeminfo.line, hisTotal,
        hisAvailable, hisFree]
      cases l with
      | other text =>
          rw [kbOf_other, kbOf_other, kbOf_other]
          exact ih h.other info
      | field f =>
          obtain ⟨hf, hrest, hnew⟩ := h.field
          rw [ih hrest, kbOf_field, kbOf_field, kbOf_field]
          dsimp only [MeminfoLine.value?]
          by_cases hT : f.key = memTotal
          · have hA : f.key ≠ memAvailable := by rw [hT]; decide
            have hF : f.key ≠ memFree := by rw [hT]; decide
            rw [hT] at hnew
            rw [if_pos hT, if_pos hT]
            dsimp only
            rw [parseMeminfoValue_value hf, kbOf_eq_none hnew, if_neg hA,
              if_neg hF]
            rfl
          · rw [if_neg hT, if_neg hT]
            dsimp only
            by_cases hA : f.key = memAvailable
            · have hF : f.key ≠ memFree := by rw [hA]; decide
              rw [hA] at hnew
              rw [if_pos hA, if_pos hA]
              dsimp only
              rw [parseMeminfoValue_value hf, kbOf_eq_none hnew, if_neg hF]
              rfl
            · rw [if_neg hA, if_neg hA]
              dsimp only
              by_cases hF : f.key = memFree
              · rw [hF] at hnew
                rw [if_pos hF, if_pos hF]
                dsimp only
                rw [parseMeminfoValue_value hf, kbOf_eq_none hnew]
                rfl
              · rw [if_neg hF, if_neg hF]

/-- What `parse_meminfo` returns for two such numbers. -/
def meminfoResult : Option Nat → Option Nat → Except MeminfoError Meminfo
  | none, _ => .error .totalNotFound
  | some _, none => .error .availableNotFound
  | some t, some a => .ok { total := t * 1024, available := a * 1024 }

theorem MeminfoField.Wellformed.no_break {f : MeminfoField}
    (hf : f.Wellformed) : '\n' ∉ f.line := by
  unfold MeminfoField.line MeminfoField.value
  intro hmem
  rcases List.mem_append.mp hmem with hkey | hvalue
  · exact hf.no_newline hkey
  · rcases List.mem_cons.mp hvalue with hcolon | hvalue
    · exact absurd hcolon (by decide)
    · rcases List.mem_append.mp hvalue with hvalue | hkb
      · rcases List.mem_append.mp hvalue with hpad | hnum
        · exact absurd (List.eq_of_mem_replicate hpad) (by decide)
        · exact absurd (isDigit_of_mem_numeral hnum) (by decide)
      · exact absurd hkb (by decide)

theorem MeminfoLine.Wellformed.no_break {l : MeminfoLine}
    (hl : l.Wellformed) : '\n' ∉ l.text := by
  cases l with
  | field f => exact MeminfoField.Wellformed.no_break hl
  | other text => exact hl.1

theorem MeminfoLine.Wellformed.fits {l : MeminfoLine} (hl : l.Wellformed) :
    Break.lf.Fits l.text := by
  cases l with
  | field f =>
      have hlast : f.line.getLast? = some 'B' := by
        unfold MeminfoField.line MeminfoField.value
        rw [← List.cons_append, ← List.append_assoc]
        exact List.getLast?_append_of_ne_nil _ (by simp)
      show f.line.getLast? ≠ some '\r'
      rw [hlast]
      decide
  | other text => exact hl.2.1

/-- The lines of the file are those it was written with. -/
theorem lines_meminfoText {file : List MeminfoLine}
    (h : ∀ l ∈ file, l.Wellformed) :
    lines (meminfoText file) = file.map MeminfoLine.text := by
  have hlines := lines_terminated MeminfoLine.text (fun _ => Break.lf) file
    [] (fun l hl => (h l hl).no_break) (fun l hl => (h l hl).fits)
  rw [List.append_nil, lines_nil, List.append_nil] at hlines
  exact hlines

theorem kbOf_fits {key : Text} {file : List MeminfoLine}
    (h : ∀ l ∈ file, l.Wellformed) {kb : Nat}
    (hkb : kbOf key file = some kb) : kb * 1024 < 2 ^ 64 := by
  obtain ⟨l, hl, hsome⟩ := List.exists_of_findSome?_eq_some hkb
  cases l with
  | field f =>
      have hf : f.Wellformed := h _ hl
      dsimp only [MeminfoLine.kb?] at hsome
      split at hsome
      next =>
        rw [← Option.some.inj hsome]
        exact hf.fits
      next => exact absurd hsome (by simp)
  | other text => exact absurd hsome (by simp [MeminfoLine.kb?])

theorem Build.mul_of_fits {b : Build} {x y : Nat} (h : x * y < 2 ^ 64) :
    b.mul x y = some (x * y) := if_pos h

/-- **The two readers agree** on every file with one line for each field and
any other lines in between: the monitor's numbers are 1024 times the script's,
and where a field is missing the monitor's cycle fails while the script sees a
0. -/
theorem meminfo_readers_agree (b : Build) {file : List MeminfoLine}
    (h : MeminfoWellformed file) :
    parseMeminfo b (.ok (meminfoText file))
        = some (meminfoResult (kbOf memTotal file) (kbOf memAvailable file))
      ∧ readMeminfo (.ok (meminfoText file))
        = { total := (kbOf memTotal file).getD 0
            available := (kbOf memAvailable file).getD 0
            free := (kbOf memFree file).getD 0 } := by
  have hlines := lines_meminfoText h.each
  refine ⟨?_, ?_⟩
  · have hscan : scanMeminfo (file.map MeminfoLine.text) none none
        = .ok (kbOf memTotal file, kbOf memAvailable file) :=
      scanMeminfo_lines h (by simp) (by simp) rfl
    unfold parseMeminfo
    dsimp only
    rw [hlines, hscan]
    cases ht : kbOf memTotal file with
    | none => rfl
    | some t =>
        cases ha : kbOf memAvailable file with
        | none => rfl
        | some a =>
            dsimp only
            rw [Build.mul_of_fits (kbOf_fits h.each ht),
              Build.mul_of_fits (kbOf_fits h.each ha)]
            rfl
  · show (lines (meminfoText file)).foldl SysMeminfo.line ⟨0, 0, 0⟩ = _
    rw [hlines]
    exact foldl_line h ⟨0, 0, 0⟩

theorem meminfo_readers_agree_two :
    ∃ file, MeminfoWellformed file
      ∧ parseMeminfo .debug (.ok (meminfoText file))
          = some (meminfoResult (some 16) none)
      ∧ readMeminfo (.ok (meminfoText file))
          = { total := 16, available := 0, free := 8 } := by
  have h : MeminfoWellformed [.field ⟨memTotal, 8, 16⟩,
      .other "HugePages_Total:       0".toList, .field ⟨memFree, 9, 8⟩] :=
    { each := by
        intro l hl
        rcases List.mem_cons.mp hl with rfl | hl
        · exact ⟨by decide, by decide, by decide⟩
        · rcases List.mem_cons.mp hl with rfl | hl
          · exact ⟨by decide, by decide, by decide⟩
          · rw [List.mem_singleton.mp hl]
            exact ⟨by decide, by decide, by decide⟩
      nodup := by decide }
  exact ⟨_, h, meminfo_readers_agree .debug h⟩

end ArgusManager
