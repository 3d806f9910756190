import Mathlib.Data.List.DropRight
import OsConfig.Common.Streams
import OsConfig.ComplianceEngine.Indicators
import OsConfig.Library.Assignments

/-!
# Kernel parameters

A kernel parameter has a value in the running system and one in the stored
configuration, which is the last that the configuration files assign. The audit
prints all files and goes through the lines from the last to the first. A line is
taken apart only if a pattern is found in it, but every assignment to a name that
the procedure is asked for has the pattern.
-/

namespace OsConfig.ComplianceEngine.SysctlValue

open ByteString
open Assignments (lastValue valueFor)

section Model

def trimWhiteSpaces (text : ByteString) : ByteString :=
  (text.dropWhile isSpace).rdropWhile isSpace

/-- `[a-zA-Z0-9_]` -/
def isNameStart (byte : UInt8) : Bool :=
  isAlnum byte || byte = 95

/-- `[\.a-zA-Z0-9_-]` -/
def isNameByte (byte : UInt8) : Bool :=
  isAlnum byte || byte = 95 || byte = 46 || byte = 45

/-- `text.find(part) != npos` -/
def containsPart (part text : ByteString) : Bool :=
  text.tails.any fun rest => part.isPrefixOf rest

def isValidSysctlName (name : ByteString) : Bool :=
  !name.isEmpty && !containsPart (bytes "..") name &&
    name.all fun byte => isNameByte byte || byte = 47

def isValidFilePath (path : ByteString) : Bool :=
  path.head? = some 47 && !containsPart (bytes "..") path

/-- The text before a `=` ends in `[a-zA-Z0-9_]+[\.a-zA-Z0-9_-]+` and white space. -/
def endsInName (text : ByteString) : Bool :=
  ((text.rdropWhile isSpace).rtakeWhile isNameByte).dropLast.any isNameStart

/-- `regex_search` for `\s*([a-zA-Z0-9_]+[\.a-zA-Z0-9_-]+)\s*=\s*(.*)`. -/
def matchesNameValue (line : ByteString) : Bool :=
  (List.range line.length).any fun position =>
    (line.drop position).head? = some 61 && endsInName (line.take position)

/-- What is before the first `=` and behind it, without white space around. -/
def splitAssignment (line : ByteString) : ByteString × ByteString :=
  (trimWhiteSpaces (line.takeWhile (· ≠ 61)), trimWhiteSpaces ((line.dropWhile (· ≠ 61)).drop 1))

/-- The value that a line of the configuration gives to the name, as a round of the loop
computes it. -/
def lineValue (sysctlName line : ByteString) : Option ByteString :=
  let line := line.takeWhile (· ≠ 35)
  if line = [] then none
  else if matchesNameValue line then
    if 61 ∈ line then
      let (name, value) := splitAssignment line
      if name = sysctlName then some value else none
    else
      none
  else
    none

/-- The loop over the lines from the last on: the value that it finds and the lines before. -/
def findValue (sysctlName : ByteString) (lines : List ByteString) :
    Option (ByteString × List ByteString) :=
  match lines with
  | [] => none
  | line :: before =>
      match lineValue sysctlName line with
      | some value => some (value, before)
      | none => findValue sysctlName before

/-- `regex_search` for `^\s*#\s*(\/.*\.conf)$`. -/
def isFileName (line : ByteString) : Bool :=
  match line.dropWhile isSpace with
  | 35 :: rest =>
      let path := rest.dropWhile isSpace
      path.head? = some 47 && 13 ∉ path && (bytes ".conf").isSuffixOf path
  | _ => false

/-- The file that the lines from the last on belong to. -/
def findFileName (lines : List ByteString) : ByteString :=
  match lines.find? isFileName with
  | none => []
  | some line => ((line.dropWhile (· ≠ 35)).drop 1).dropWhile (· ≠ 47)

/-- What the search in the stored configuration comes to. -/
inductive Stored where
  | correct
  | unexpected (value fileName : ByteString)
  | missing
  deriving DecidableEq

/-- The stored configuration, as `--cat-config` prints it. -/
def checkStored (matchesValue : ByteString → Bool) (sysctlName configurations : ByteString) :
    Stored :=
  match findValue sysctlName (getLines configurations).reverse with
  | none => .missing
  | some (value, before) =>
      if matchesValue value then .correct else .unexpected value (findFileName before)

structure SysctlValueParams where
  sysctlName : ByteString
  /-- `regex_search` with the pattern, and the pattern as text. -/
  matchesValue : ByteString → Bool
  value : ByteString

/-- What the audit asks the system for. -/
structure SysctlContext where
  getFileContents : ByteString → Result ByteString
  executeCommand : ByteString → Result ByteString

/-- What the audit returns, with the indicators that it adds. -/
structure SysctlReport where
  result : Result Status
  indicators : List Indicator

/-- `return indicators.Compliant(message)` and the like, behind the indicators before. -/
def SysctlReport.ending (indicators : List Indicator) (status : Status) (message : ByteString) :
    SysctlReport where
  result := .ok status
  indicators := indicators ++ [{ message, status }]

/-- The last part of the audit, for a name that is not in the stored configuration. -/
def auditUfw (context : SysctlContext) (params : SysctlValueParams) (indicators : List Indicator) :
    SysctlReport :=
  let ending := SysctlReport.ending indicators
  let name := params.sysctlName
  let sysctlPath := name.map fun byte => if byte = 46 then 47 else byte
  match context.getFileContents (bytes "/etc/default/ufw") with
  | .error failure =>
      ending .nonCompliant (bytes "Failed to read /etc/default/ufw: " ++ failure.message)
  | .ok ufwDefaults =>
      let settings := (getLines ufwDefaults).find? fun line => startsWith line (bytes "IPT_SYSCTL=")
      let sysctlFile := (settings.getD []).drop (bytes "IPT_SYSCTL=").length
      if sysctlFile = [] then
        ending .nonCompliant (bytes "Failed to find IPT_SYSCTL in /etc/default/ufw")
      else if isValidFilePath (trimWhiteSpaces sysctlFile) = false then
        ending .nonCompliant (bytes "Invalid sysctl file path in /etc/default/ufw")
      else
        match context.getFileContents (trimWhiteSpaces sysctlFile) with
        | .error failure =>
            ending .nonCompliant
              (bytes "Failed to read ufw sysctl config file: " ++ failure.message)
        | .ok contents =>
            let assigns := fun line => startsWith line (sysctlPath ++ bytes "=")
            match (getLines contents).find? assigns with
            | none =>
                ending .nonCompliant (bytes "Value not found in UFW configuration for '" ++ name ++
                  bytes "'")
            | some line =>
                let value := line.drop (name.length + 1)
                if params.matchesValue value then
                  ending .compliant
                    (bytes "Correct value for '" ++ name ++ bytes "' in UFW configuration")
                else
                  ending .nonCompliant (bytes "Expected '" ++ name ++ bytes "', got '" ++ value ++
                    bytes "' in UFW configuration")

def auditStored (context : SysctlContext) (params : SysctlValueParams) (configurations : ByteString)
    (indicators : List Indicator) : SysctlReport :=
  let name := params.sysctlName
  match checkStored params.matchesValue name configurations with
  | .correct =>
      .ending indicators .compliant
        (bytes "Correct value for '" ++ name ++ bytes "' in stored configuration")
  | .unexpected value fileName =>
      .ending indicators .nonCompliant (bytes "Expected '" ++ name ++ bytes "' got '" ++ value ++
        bytes "' found in: '" ++ fileName ++ bytes "'")
  | .missing =>
      auditUfw context params (indicators ++
        [{ message := bytes "Expected '" ++ name ++ bytes "' not found in stored sysctl configuration"
           status := .nonCompliant }])

/-- The places that `systemd-sysctl` can be in. -/
def systemdSysctlLocations : List ByteString :=
  [bytes "/lib/systemd/systemd-sysctl", bytes "/usr/lib/systemd/systemd-sysctl"]

/-- `AuditSysctlValue`. The last character of a value in `/proc/sys` is dropped if it is a
newline; no value there is empty. -/
def auditSysctlValue (context : SysctlContext) (params : SysctlValueParams) : SysctlReport :=
  let name := params.sysctlName
  if isValidSysctlName name = false then
    { result := .error { message := bytes "Invalid sysctl name: " ++ name, code := Errno.EINVAL }
      indicators := [] }
  else
    let sysctlPath := name.map fun byte => if byte = 46 then 47 else byte
    match context.getFileContents (bytes "/proc/sys/" ++ sysctlPath) with
    | .error failure =>
        if failure.code = Errno.ENOENT then
          .ending [] .notApplicable
            (bytes "Sysctl '" ++ name ++ bytes "' not found in runtime configuration")
        else
          { result := .error failure, indicators := [] }
    | .ok output =>
        let sysctlOutput := if output.getLast? = some 10 then output.dropLast else output
        if params.matchesValue sysctlOutput = false then
          .ending [] .nonCompliant (bytes "Expected '" ++ name ++ bytes "' value '" ++
            params.value ++ bytes "' got '" ++ sysctlOutput ++ bytes "' in runtime configuration")
        else
          let indicators : List Indicator :=
            [{ message := bytes "Correct value for '" ++ name ++ bytes "' in runtime configuration"
               status := .compliant }]
          let runs := fun location => (context.executeCommand (location ++ bytes " --version")).isOk
          match systemdSysctlLocations.find? runs with
          | none =>
              { result := .error
                  { message := bytes "Cannot find systemd-sysctl command", code := Errno.ENOENT }
                indicators }
          | some systemdSysctl =>
              match context.executeCommand (systemdSysctl ++ bytes " --cat-config") with
              | .error failure => { result := .error failure, indicators }
              | .ok configurations => auditStored context params configurations indicators

end Model

section Patterns

variable {name line text blanks : ByteString}

theorem rdropWhile_append_blanks (text : ByteString) (areSpaces : ∀ byte ∈ blanks, isSpace byte) :
    (text ++ blanks).rdropWhile isSpace = text.rdropWhile isSpace := by
  have spaces : ∀ byte ∈ blanks.reverse, isSpace byte = true :=
    fun byte mem => areSpaces byte (List.mem_reverse.mp mem)
  rw [List.rdropWhile, List.reverse_append, List.dropWhile_append_of_pos spaces]
  rfl

theorem rtakeWhile_append_run (text : ByteString) {run : ByteString}
    (nameBytes : ∀ byte ∈ run, isNameByte byte) :
    (text ++ run).rtakeWhile isNameByte = text.rtakeWhile isNameByte ++ run := by
  have letters : ∀ byte ∈ run.reverse, isNameByte byte = true :=
    fun byte mem => nameBytes byte (List.mem_reverse.mp mem)
  rw [List.rtakeWhile, List.reverse_append, List.takeWhile_append_of_pos letters,
    List.reverse_append, List.reverse_reverse]
  rfl

theorem isSpace_of_isNameByte {byte : UInt8} (letter : isNameByte byte = true) :
    isSpace byte = false := by
  revert byte
  decide +kernel

theorem isNameByte_of_isNameStart {byte : UInt8} (letter : isNameStart byte = true) :
    isNameByte byte = true := by
  unfold isNameStart at letter
  unfold isNameByte
  simp [letter]

/-- The end of a text is a name exactly if it can be taken apart as the pattern says. -/
theorem endsInName_iff : endsInName text = true ↔
    ∃ before word tail blanks, text = before ++ (word ++ tail) ++ blanks ∧
      (word ≠ [] ∧ ∀ byte ∈ word, isNameStart byte) ∧
      (tail ≠ [] ∧ ∀ byte ∈ tail, isNameByte byte) ∧ ∀ byte ∈ blanks, isSpace byte := by
  constructor
  · intro ends
    unfold endsInName at ends
    rcases List.any_eq_true.mp ends with ⟨start, mem, isStart⟩
    rcases List.append_of_mem mem with ⟨earlier, later, run_eq⟩
    have text_eq := List.rdropWhile_append_rtakeWhile (p := isSpace) (l := text)
    have core_eq := List.rdropWhile_append_rtakeWhile (p := isNameByte)
      (l := text.rdropWhile isSpace)
    generalize text.rdropWhile isSpace = core at run_eq text_eq core_eq
    have nameBytes : ∀ byte ∈ core.rtakeWhile isNameByte, isNameByte byte :=
      fun byte => List.mem_rtakeWhile_imp
    generalize core.rtakeWhile isNameByte = run at run_eq core_eq nameBytes
    have someRun : run ≠ [] := by
      rintro rfl
      simp at run_eq
    have run_parts : run = earlier ++ ([start] ++ (later ++ [run.getLast someRun])) := by
      conv_lhs => rw [← List.dropLast_append_getLast someRun, run_eq]
      simp
    refine ⟨core.rdropWhile isNameByte ++ earlier, [start], later ++ [run.getLast someRun],
      text.rtakeWhile isSpace, ?_, ⟨by simp, by simpa using isStart⟩, ⟨by simp, ?_⟩,
      fun byte => List.mem_rtakeWhile_imp⟩
    · rw [List.append_assoc (core.rdropWhile isNameByte), ← run_parts, core_eq, text_eq]
    · intro byte mem
      refine nameBytes byte ?_
      rw [run_parts]
      exact List.mem_append_right _ (List.mem_append_right _ mem)
  · rintro ⟨before, word, tail, blanks, rfl, ⟨someWord, wordBytes⟩, ⟨someTail, tailBytes⟩, areSpaces⟩
    have letters : ∀ byte ∈ word ++ tail, isNameByte byte := by
      intro byte mem
      rcases List.mem_append.mp mem with first | second
      · exact isNameByte_of_isNameStart (wordBytes byte first)
      · exact tailBytes byte second
    have core_eq : (before ++ (word ++ tail)).rdropWhile isSpace = before ++ (word ++ tail) := by
      rw [List.rdropWhile_eq_self_iff]
      intro nonempty white
      have last_mem : (before ++ (word ++ tail)).getLast nonempty ∈ word ++ tail := by
        rw [List.getLast_append_of_right_ne_nil _ _ (by simp [someTail])]
        exact List.getLast_mem _
      have black := isSpace_of_isNameByte (letters _ last_mem)
      rw [black] at white
      cases white
    rw [endsInName, rdropWhile_append_blanks _ areSpaces, core_eq, rtakeWhile_append_run _ letters,
      ← List.append_assoc, List.dropLast_append_of_ne_nil someTail, List.any_append,
      List.any_append]
    have found : word.any isNameStart = true := by
      cases word with
      | nil => exact absurd rfl someWord
      | cons byte rest => simp [wordBytes byte (by simp)]
    rw [found, Bool.or_true, Bool.true_or]

/-- What the pattern finds in a line. -/
theorem matchesNameValue_iff : matchesNameValue line = true ↔
    ∃ before word tail blanks rest, line = before ++ (word ++ tail) ++ blanks ++ 61 :: rest ∧
      (word ≠ [] ∧ ∀ byte ∈ word, isNameStart byte) ∧
      (tail ≠ [] ∧ ∀ byte ∈ tail, isNameByte byte) ∧ ∀ byte ∈ blanks, isSpace byte := by
  unfold matchesNameValue
  rw [List.any_eq_true]
  constructor
  · rintro ⟨position, -, found⟩
    rw [Bool.and_eq_true, decide_eq_true_eq] at found
    rcases found with ⟨equals, ends⟩
    rcases endsInName_iff.mp ends with ⟨before, word, tail, blanks, front_eq, parts⟩
    rcases List.head?_eq_some_iff.mp equals with ⟨rest, rest_eq⟩
    refine ⟨before, word, tail, blanks, rest, ?_, parts⟩
    rw [← front_eq, ← rest_eq, List.take_append_drop]
  · rintro ⟨before, word, tail, blanks, rest, rfl, parts⟩
    refine ⟨(before ++ (word ++ tail) ++ blanks).length, ?_, ?_⟩
    · simp only [List.mem_range, List.length_append, List.length_cons]
      omega
    · rw [List.drop_left, List.take_left, Bool.and_eq_true]
      exact ⟨by simp, endsInName_iff.mpr ⟨before, word, tail, blanks, rfl, parts⟩⟩

theorem exists_blanks (text : ByteString) :
    ∃ front back, text = front ++ trimWhiteSpaces text ++ back ∧ ∀ byte ∈ back, isSpace byte := by
  refine ⟨text.takeWhile isSpace, (text.dropWhile isSpace).rtakeWhile isSpace, ?_,
    fun byte => List.mem_rtakeWhile_imp⟩
  rw [trimWhiteSpaces, List.append_assoc, List.rdropWhile_append_rtakeWhile,
    List.takeWhile_append_dropWhile]

end Patterns

section Stored

variable {name line : ByteString}

/-- A name of at least two characters that the pattern finds whole. -/
structure IsSysctlName (name : ByteString) : Prop where
  long : 2 ≤ name.length
  start : ∀ byte ∈ name.head?, isNameStart byte
  nameBytes : ∀ byte ∈ name, isNameByte byte

instance (name : ByteString) : Decidable (IsSysctlName name) :=
  letI (byte? : Option UInt8) : Decidable (∀ byte ∈ byte?, isNameStart byte) :=
    Option.decidableForallMem byte?
  decidable_of_iff (2 ≤ name.length ∧ (∀ byte ∈ name.head?, isNameStart byte) ∧
      ∀ byte ∈ name, isNameByte byte)
    ⟨fun ⟨long, start, nameBytes⟩ => ⟨long, start, nameBytes⟩,
      fun named => ⟨named.long, named.start, named.nameBytes⟩⟩

/-- The assignment that a line makes, comments aside. -/
def assignment (line : ByteString) : Option (ByteString × ByteString) :=
  let line := line.takeWhile (· ≠ 35)
  if 61 ∈ line then some (splitAssignment line) else none

/-- The assignments of the stored configuration, in turn. -/
def assignments (configurations : ByteString) : List (ByteString × ByteString) :=
  (getLines configurations).filterMap assignment

theorem matchesNameValue_of_name (named : IsSysctlName (splitAssignment line).1)
    (assigns : 61 ∈ line) : matchesNameValue line = true := by
  rcases exists_blanks (line.takeWhile (· ≠ 61)) with ⟨front, back, before_eq, areSpaces⟩
  have line_eq : line = line.takeWhile (· ≠ 61) ++ 61 :: (line.dropWhile (· ≠ 61)).drop 1 := by
    rcases List.eq_append_cons_of_mem assigns with ⟨before, rest, rfl, unassigned⟩
    have kept : ∀ byte ∈ before, decide (byte ≠ 61) = true := by
      intro byte mem
      rw [decide_eq_true_iff]
      rintro rfl
      exact unassigned mem
    rw [List.takeWhile_append_of_pos kept, List.dropWhile_append_of_pos kept]
    simp
  unfold splitAssignment at named
  dsimp only at named
  generalize trimWhiteSpaces (line.takeWhile (· ≠ 61)) = name at named before_eq
  cases name with
  | nil => exact absurd named.long (by decide)
  | cons first others =>
      cases others with
      | nil => exact absurd named.long (by simp)
      | cons second others =>
          refine matchesNameValue_iff.mpr ⟨front, [first], second :: others, back,
            (line.dropWhile (· ≠ 61)).drop 1, ?_, ⟨by simp, ?_⟩, ⟨by simp, ?_⟩, areSpaces⟩
          · rw [List.singleton_append, ← before_eq, ← line_eq]
          · intro byte mem
            rw [List.mem_singleton.mp mem]
            exact named.start first rfl
          · exact fun byte mem => named.nameBytes byte (List.mem_cons_of_mem _ mem)

theorem lineValue_eq (named : IsSysctlName name) (line : ByteString) :
    lineValue name line = (assignment line).bind (valueFor name) := by
  unfold lineValue assignment
  dsimp only
  generalize line.takeWhile (· ≠ 35) = line
  by_cases assigns : 61 ∈ line
  · have some_line : line ≠ [] := List.ne_nil_of_mem assigns
    simp only [if_neg some_line, if_pos assigns, Option.bind_some, valueFor]
    by_cases same : (splitAssignment line).1 = name
    · rw [if_pos (matchesNameValue_of_name (same ▸ named) assigns)]
    · rw [if_neg same]
      split <;> rfl
  · rw [if_neg assigns, if_neg assigns, Option.bind_none]
    split
    · rfl
    · split <;> rfl

theorem findValue_fst (name : ByteString) (lines : List ByteString) :
    (findValue name lines).map Prod.fst = lines.findSome? (lineValue name) := by
  induction lines with
  | nil => rfl
  | cons line before ih =>
      rw [findValue, List.findSome?_cons]
      cases lineValue name line with
      | none => exact ih
      | some value => rfl

theorem findValue_lastValue (named : IsSysctlName name) (configurations : ByteString) :
    (findValue name (getLines configurations).reverse).map Prod.fst =
      lastValue name (assignments configurations) := by
  have rounds : lineValue name = fun line => (assignment line).bind (valueFor name) :=
    funext (lineValue_eq named)
  rw [findValue_fst, rounds, ← Assignments.findSome?_reverse_valueFor, assignments,
    ← List.filterMap_reverse, ← List.head?_filterMap, ← List.head?_filterMap,
    List.filterMap_filterMap]

theorem checkStored_correct_iff {matchesValue : ByteString → Bool} (named : IsSysctlName name)
    (configurations : ByteString) :
    checkStored matchesValue name configurations = .correct ↔
      ∃ value, lastValue name (assignments configurations) = some value ∧
        matchesValue value = true := by
  rw [← findValue_lastValue named, checkStored]
  rcases findValue name (getLines configurations).reverse with _ | ⟨value, before⟩
  · simp
  · cases correct : matchesValue value <;> simp [correct]

variable {context : SysctlContext} {params : SysctlValueParams} {configurations : ByteString}
  {indicators : List Indicator}

def storedCompliant (params : SysctlValueParams) (indicators : List Indicator) : SysctlReport :=
  .ending indicators .compliant
    (bytes "Correct value for '" ++ params.sysctlName ++ bytes "' in stored configuration")

/-- The part about the firewall adds one indicator. -/
theorem length_auditUfw (context : SysctlContext) (params : SysctlValueParams)
    (indicators : List Indicator) :
    (auditUfw context params indicators).indicators.length = indicators.length + 1 := by
  have one : ∀ (status : Status) (message : ByteString),
      (SysctlReport.ending indicators status message).indicators.length = indicators.length + 1 := by
    intro status message
    simp [SysctlReport.ending]
  unfold auditUfw
  dsimp only
  split
  · exact one _ _
  · split
    · exact one _ _
    · split
      · exact one _ _
      · split
        · exact one _ _
        · split
          · exact one _ _
          · split
            · exact one _ _
            · exact one _ _

theorem auditStored_eq_storedCompliant_iff :
    auditStored context params configurations indicators = storedCompliant params indicators ↔
      checkStored params.matchesValue params.sysctlName configurations = .correct := by
  unfold auditStored
  dsimp only
  split
  next => exact iff_of_true rfl ‹_›
  next stored_eq =>
    rw [stored_eq]
    simp [storedCompliant, SysctlReport.ending]
  next stored_eq =>
    rw [stored_eq]
    refine iff_of_false (fun same => ?_) (by simp)
    have lengths := congrArg (fun report => report.indicators.length) same
    simp [length_auditUfw, storedCompliant, SysctlReport.ending] at lengths

/-- The stored configuration is reported as correct exactly if something is assigned to the name
and what is assigned last matches. Assignments to other names have no influence. -/
theorem auditStored_compliant_iff (named : IsSysctlName params.sysctlName) :
    (auditStored context params configurations indicators = storedCompliant params indicators ↔
      ∃ value, lastValue params.sysctlName (assignments configurations) = some value ∧
        params.matchesValue value = true) ∧
    ∀ others : ByteString,
      (assignments others).filter (fun entry => entry.1 = params.sysctlName) =
        (assignments configurations).filter (fun entry => entry.1 = params.sysctlName) →
      (auditStored context params others indicators = storedCompliant params indicators ↔
        auditStored context params configurations indicators =
          storedCompliant params indicators) := by
  constructor
  · rw [auditStored_eq_storedCompliant_iff, checkStored_correct_iff named]
  · intro others same
    rw [auditStored_eq_storedCompliant_iff, auditStored_eq_storedCompliant_iff,
      checkStored_correct_iff named, checkStored_correct_iff named, lastValue, lastValue, same]

def forwardingParams : SysctlValueParams where
  sysctlName := bytes "net.ipv4.ip_forward"
  matchesValue := (· == bytes "0")
  value := bytes "^0$"

/-- Of two assignments the second counts, and a line that extends the name changes nothing. -/
theorem auditStored_compliant_forwarding :
    auditStored { getFileContents := .ok, executeCommand := .ok } forwardingParams
        (bytes "net.ipv4.ip_forward=1\n net.ipv4.ip_forward = 0 # off\nnet.ipv4.ip_forward_x=1\n")
        [] =
      storedCompliant forwardingParams [] :=
  (auditStored_compliant_iff (by decide +kernel)).1.mpr ⟨bytes "0", by decide +kernel, rfl⟩

end Stored

end OsConfig.ComplianceEngine.SysctlValue
