import OsConfig.Common.CommandUtils
import OsConfig.Common.Reasons
import OsConfig.Common.FileUtils.Comments
import OsConfig.Common.FileUtils.JoinedLines

/-!
# Core dumps

The audit looks for a limit of zero among the lines of `limits.conf` that mention
the hard limit, whatever blanks they use, and for a setting in `sysctl.conf`. The
remediation replaces what is marked by other texts: in `limits.conf` by a single
blank, and in `sysctl.conf` a new line that is not closed goes to the place of an
old one.
-/

namespace OsConfig.Asb

open CommonUtils CommandUtils ByteString

def etcSecurityLimitsConf : ByteString := bytes "/etc/security/limits.conf"

def sysCtlConf : ByteString := bytes "/etc/sysctl.d/99-sysctl.conf"

/-- `g_hardCoreZero` -/
def hardCoreZero : ByteString := bytes "*\thard\tcore\t0\n"

/-- `g_fsSuidDumpable` -/
def fsSuidDumpable : ByteString := bytes "fs.suid_dumpable = 0"

/-- The marker of the remediation in `limits.conf`. -/
def hardCore : ByteString := bytes "hard core"

/-- The marker of the remediation in `sysctl.conf`. -/
def suidDumpable : ByteString := bytes "fs.suid_dumpable"

section Commands

/-- `grep -v '^[[:space:]]*#'` -/
def isUncommented (line : ByteString) : Bool :=
  (line.dropWhile isSpace).head? ≠ some 35

/-- The text starts with `hard[[:space:]]\+core`. -/
def startsHardCore (text : ByteString) : Bool :=
  let behind := text.drop 4
  bytes "hard" <+: text && (behind.head?.any isSpace && bytes "core" <+: behind.dropWhile isSpace)

/-- `grep 'hard[[:space:]]\+core'` -/
def mentionsHardCore (line : ByteString) : Bool :=
  line.tails.any startsHardCore

/-- `tr '\t' ' '` -/
def untabbed (line : ByteString) : ByteString :=
  line.map fun byte => if byte = 9 then 32 else byte

/-- `tr -s ' '`; the flag says that a blank stands in front. -/
def squeezed : Bool → ByteString → ByteString
  | _, [] => []
  | blank, byte :: rest =>
      if blank && byte = 32 then squeezed true rest else byte :: squeezed (byte = 32) rest

/-- `cut -d' ' -f4`, which leaves a line without a blank as it is. -/
def fourthField (line : ByteString) : ByteString :=
  if 32 ∈ line then (line.splitOn 32).getD 3 [] else line

/-- What the pipeline makes of some lines. -/
def limitsOutput (lines : List ByteString) : ByteString :=
  let found := (lines.map (Lines.chomp 10)).filter fun line =>
    isUncommented line && mentionsHardCore line
  found.flatMap fun line => fourthField (squeezed false (untabbed line)) ++ [10]

/-- What `ExecuteCommand` captures of an output, with blanks for line ends and special characters.
No text is captured if there is no output. -/
def capturedText (charSigned : Bool) (output : ByteString) : Option ByteString :=
  if output = [] then none else some (image charSigned ⟨true, true, 0, true⟩ output)

/-- The text that the command for `limits.conf` results in. -/
def limitsText (charSigned : Bool) (fs : FileSystem) : Option ByteString :=
  match fs.read etcSecurityLimitsConf with
  | some content => capturedText charSigned (limitsOutput (textLines content))
  | none => capturedText charSigned
      (bytes "grep: /etc/security/limits.conf: No such file or directory\n")

end Commands

def startsWithZero (textResult : ByteString) : Bool :=
  (removeTrailingBlanks (removePrefixBlanks textResult)).head? = some 48

def limitsConfPresent : ByteString :=
  bytes "'*hard core 0' is present uncommented in '/etc/security/limits.conf'"

def limitsConfAbsent : ByteString :=
  bytes "'*hard core 0' is not present or is commented out in '/etc/security/limits.conf'"

def underLimitsDPresent : ByteString :=
  bytes "'*hard core 0' is present uncommented in a file under '/etc/security/limits.d/'"

def underLimitsDAbsent : ByteString :=
  bytes "'*hard core 0' is not present in any file, " ++
    bytes "or is commented out under '/etc/security/limits.d/'"

def limitsAbsent : ByteString :=
  bytes "'*hard core 0' is not present uncommented in '/etc/security/limits.conf' " ++
    bytes "or in any file under '/etc/security/limits.d/'"

/-- The second half of the check, for what `limits.conf` does not limit. -/
def checkUnderLimitsD (underLimitsD : Option ByteString) (reason : Option ByteString) :
    ℤ × Option ByteString :=
  match underLimitsD with
  | some textResult =>
      if startsWithZero textResult then (0, captureSuccessReason reason underLimitsDPresent)
      else (enoent, captureReason reason underLimitsDAbsent)
  | none => (enoent, captureReason none limitsAbsent)

/-- `CheckCoreDumpsHardLimitIsDisabledForAllUsers`, with the text that the command for the files in
`limits.d` results in. -/
def checkCoreDumpsHardLimitIsDisabledForAllUsers (charSigned : Bool)
    (underLimitsD : Option ByteString) (reason : Option ByteString) (fs : FileSystem) :
    ℤ × Option ByteString :=
  let (status, reason) : ℤ × Option ByteString :=
    match limitsText charSigned fs with
    | some textResult =>
        if startsWithZero textResult then
          (0, captureSuccessReason reason limitsConfPresent)
        else (enoent, captureReason reason limitsConfAbsent)
    | none => (enoent, reason)
  if status ≠ 0 then checkUnderLimitsD underLimitsD reason
  else (status, reason)

/-- `CheckLineFoundNotCommentedOut` with the reason that it captures. -/
def captureLineFoundNotCommentedOut (fileName : ByteString) (commentMark : UInt8)
    (text : ByteString) (reason : Option ByteString) (fs : FileSystem) : ℤ × Option ByteString :=
  let place := bytes "'" ++ text ++ bytes "' found in '" ++ fileName ++
    bytes "' and it's not commented out with '" ++ [commentMark] ++ bytes "'"
  let noPlace := bytes "'" ++ text ++ bytes "' not found in '" ++ fileName ++
    bytes "' or it's commented out with '" ++ [commentMark] ++ bytes "'"
  let result := checkLineFoundNotCommentedOut fileName commentMark text fs
  if !fs.fileExists fileName then
    (result, captureReason reason
      (bytes "'" ++ fileName ++ bytes "' not found to look for '" ++ text ++ bytes "'"))
  else if result = 0 then (result, captureSuccessReason reason place)
  else if result = eexist then (result, captureReason reason noPlace)
  else (result, reason)

def auditEnsureCoreDumpsAreRestricted (charSigned : Bool) (underLimitsD : Option ByteString)
    (fs : FileSystem) : Option ByteString :=
  let (status, reason) :=
    checkCoreDumpsHardLimitIsDisabledForAllUsers charSigned underLimitsD none fs
  if status ≠ 0 then reason
  else (captureLineFoundNotCommentedOut sysCtlConf 35 fsSuidDumpable reason fs).2

/-- `RemediateEnsureCoreDumpsAreRestricted`, with the numbers that `rand` returns. -/
def remediateEnsureCoreDumpsAreRestricted (charSigned : Bool) (underLimitsD : Option ByteString)
    (random random' : ℕ) (fs : FileSystem) : ℤ × FileSystem :=
  if (checkCoreDumpsHardLimitIsDisabledForAllUsers charSigned underLimitsD none fs).1 = 0 ∧
      checkLineFoundNotCommentedOut sysCtlConf 35 fsSuidDumpable fs = 0 then
    (0, fs)
  else
    let (status, fs) := replaceMarkedLinesInFile etcSecurityLimitsConf hardCore
      (some hardCoreZero) 35 random fs
    if status = 0 then
      if !fs.fileExists sysCtlConf then
        let (saved, fs) := saveToFile sysCtlConf .write fsSuidDumpable fs
        (if saved then 0 else enoent, fs)
      else replaceMarkedLinesInFile sysCtlConf suidDumpable (some fsSuidDumpable) 35 random' fs
    else (status, fs)

section Limits

variable {charSigned : Bool}

def firstVisible (charSigned : Bool) (output : ByteString) : Option UInt8 :=
  output.find? fun byte => filtered charSigned ⟨true, true, 0, true⟩ byte ≠ 32

theorem startsWithZero_iff (textResult : ByteString) :
    startsWithZero textResult = true ↔ textResult.find? (· ≠ 32) = some 48 := by
  have first : (removeTrailingBlanks (removePrefixBlanks textResult)).head? =
      textResult.find? (· ≠ 32) := by
    rw [removePrefixBlanks, removePrefix, List.find?_eq_head?_dropWhile_not]
    simp only [ne_eq, decide_not, Bool.not_not]
    cases behind : textResult.dropWhile (fun byte => decide (byte = 32)) with
    | nil => rfl
    | cons byte rest =>
        have visible : byte ≠ 32 := by
          have stops := List.head?_dropWhile_not (fun byte => decide (byte = (32 : UInt8)))
            textResult
          rw [behind] at stops
          simpa using stops
        have some_left : removeTrailingBlanks (byte :: rest) ≠ [] := by
          intro nothing
          rw [removeTrailingBlanks, List.rdropWhile_eq_nil_iff] at nothing
          exact visible (by simpa using nothing byte List.mem_cons_self)
        rcases List.rdropWhile_prefix (fun byte => decide (byte = (32 : UInt8))) (byte :: rest) with
          ⟨blanks, whole⟩
        rw [← List.head?_append_of_ne_nil _ some_left, removeTrailingBlanks, whole]
  rw [startsWithZero, first, decide_eq_true_iff]

theorem filtered_eq_zero_iff (byte : UInt8) :
    filtered charSigned ⟨true, true, 0, true⟩ byte = 48 ↔ byte = 48 := by
  rw [filtered]
  split
  next special =>
    refine iff_of_false (by decide) ?_
    rintro rfl
    revert special
    cases charSigned <;> decide
  next plain => rfl

theorem any_startsWithZero_iff (output : ByteString) :
    (capturedText charSigned output).any startsWithZero = true ↔
      firstVisible charSigned output = some 48 := by
  rw [capturedText]
  split
  next nothing =>
    rw [nothing]
    simp [firstVisible]
  next something =>
    rw [Option.any_some, startsWithZero_iff, image, kept, if_pos rfl, List.find?_map, firstVisible]
    simp only [Function.comp_def]
    cases output.find? fun byte =>
        decide (filtered charSigned ⟨true, true, 0, true⟩ byte ≠ 32) with
    | none => simp
    | some byte => simp [filtered_eq_zero_iff]

theorem firstVisible_append (front back : ByteString) :
    firstVisible charSigned (front ++ back) =
      (firstVisible charSigned front).or (firstVisible charSigned back) :=
  List.find?_append

theorem limitsOutput_append (front back : List ByteString) :
    limitsOutput (front ++ back) = limitsOutput front ++ limitsOutput back := by
  simp only [limitsOutput, List.map_append, List.filter_append, List.flatMap_append]

/-- The line that the remediation writes is one that the audit wants. -/
theorem limitsOutput_hardCoreZero : limitsOutput [hardCoreZero] = [48, 10] := by
  rw [hardCoreZero, bytes_ofList]
  decide +kernel

theorem firstVisible_hardCoreZero :
    firstVisible charSigned (limitsOutput [hardCoreZero]) = some 48 := by
  rw [limitsOutput_hardCoreZero]
  cases charSigned <;> decide

/-- What the audit thinks of lines among which there is the one that the remediation writes: the
lines in front of it decide. -/
theorem firstVisible_limitsOutput_iff (front back : List ByteString) :
    firstVisible charSigned (limitsOutput (front ++ [hardCoreZero] ++ back)) = some 48 ↔
      ∀ byte, firstVisible charSigned (limitsOutput front) = some byte → byte = 48 := by
  rw [limitsOutput_append, limitsOutput_append, firstVisible_append, firstVisible_append,
    firstVisible_hardCoreZero]
  cases firstVisible charSigned (limitsOutput front) with
  | none => simp
  | some byte => simp

end Limits

section Auditing

variable {charSigned : Bool} {underLimitsD : Option ByteString} {fs : FileSystem}

/-- A limit of zero comes first in `limits.conf`, or else in the files under `limits.d`. -/
def IsLimited (charSigned : Bool) (underLimitsD : Option ByteString) (lines : List ByteString) :
    Prop :=
  firstVisible charSigned (limitsOutput lines) = some 48 ∨
    underLimitsD.any startsWithZero = true

theorem passed_underLimitsDAbsent : passed underLimitsDAbsent = false := by
  rw [underLimitsDAbsent, bytes_ofList]
  rfl

theorem passed_limitsAbsent : passed limitsAbsent = false := by
  rw [limitsAbsent, bytes_ofList]
  rfl

theorem checkUnderLimitsD_spec (reason : Option ByteString) :
    ((checkUnderLimitsD underLimitsD reason).1 = 0 ↔ underLimitsD.any startsWithZero = true) ∧
      ((checkUnderLimitsD underLimitsD reason).2.any passed = true ↔
        underLimitsD.any startsWithZero = true) := by
  cases underLimitsD with
  | none => simp [checkUnderLimitsD, enoent, any_passed_captureReason none passed_limitsAbsent]
  | some textResult =>
      cases zero : startsWithZero textResult with
      | true => simp [checkUnderLimitsD, zero, any_passed_captureSuccessReason]
      | false =>
          simp [checkUnderLimitsD, zero, enoent,
            any_passed_captureReason reason passed_underLimitsDAbsent]

theorem checkCoreDumps_spec {content : ByteString}
    (held : fs.read etcSecurityLimitsConf = some content) :
    ((checkCoreDumpsHardLimitIsDisabledForAllUsers charSigned underLimitsD none fs).1 = 0 ↔
        IsLimited charSigned underLimitsD (textLines content)) ∧
      ((checkCoreDumpsHardLimitIsDisabledForAllUsers charSigned underLimitsD none fs).2.any passed =
          true ↔ IsLimited charSigned underLimitsD (textLines content)) := by
  have text : limitsText charSigned fs =
      capturedText charSigned (limitsOutput (textLines content)) := by rw [limitsText, held]
  rw [IsLimited, ← any_startsWithZero_iff, checkCoreDumpsHardLimitIsDisabledForAllUsers, text]
  cases capturedText charSigned (limitsOutput (textLines content)) with
  | none =>
      simp only [Option.any_none, Bool.false_eq_true, false_or]
      exact checkUnderLimitsD_spec none
  | some textResult =>
      cases zero : startsWithZero textResult with
      | true => simp [zero, any_passed_captureSuccessReason]
      | false =>
          simp only [Option.any_some, zero, Bool.false_eq_true, if_false, false_or]
          exact checkUnderLimitsD_spec _

/-- A reason that starts with a quote is none of a success. -/
theorem passed_quote (text : ByteString) : passed (bytes "'" ++ text) = false := by
  have quote : bytes "'" = [39] := by decide
  have differs : ¬securityAuditPass <+: 39 :: text := by
    rintro ⟨behind, same⟩
    cases same
  rw [quote, passed]
  exact decide_eq_false differs

/-- The audit passes exactly if both of its checks do. -/
theorem audit_passed_iff {limits sysctl : ByteString}
    (limitsHeld : fs.read etcSecurityLimitsConf = some limits)
    (sysctlHeld : fs.read sysCtlConf = some sysctl) :
    (auditEnsureCoreDumpsAreRestricted charSigned underLimitsD fs).any passed = true ↔
      IsLimited charSigned underLimitsD (textLines limits) ∧
        checkLineFoundNotCommentedOut sysCtlConf 35 fsSuidDumpable fs = 0 := by
  have check := @checkCoreDumps_spec charSigned underLimitsD fs limits limitsHeld
  have present : fs.fileExists sysCtlConf = true :=
    FileSystem.fileExists_iff.mpr ⟨sysctl, sysctlHeld⟩
  have some_text : fsSuidDumpable ≠ [] := by
    rw [fsSuidDumpable, bytes_ofList]
    decide
  rw [auditEnsureCoreDumpsAreRestricted]
  by_cases limited : IsLimited charSigned underLimitsD (textLines limits)
  · simp only [check.1.mpr limited, ne_eq, not_true_eq_false, if_false, limited, true_and]
    rw [captureLineFoundNotCommentedOut]
    simp only [present, Bool.not_true, Bool.false_eq_true, if_false]
    rcases checkLineFoundNotCommentedOut_cases 35 sysctlHeld some_text with ⟨-, result⟩ | ⟨-, result⟩
    · simp [result, any_passed_captureSuccessReason]
    · have failed : eexist ≠ 0 := by simp [eexist]
      simp only [result, failed, if_false, if_true, iff_false, List.append_assoc]
      rw [any_passed_captureReason _ (passed_quote _)]
      exact Bool.false_ne_true
  · have fails : (checkCoreDumpsHardLimitIsDisabledForAllUsers charSigned underLimitsD none fs).1 ≠
        0 := fun zero => limited (check.1.mp zero)
    simp only [fails, ne_eq, not_false_eq_true, if_true, limited, false_and, iff_false]
    exact fun passes => limited (check.2.mp passes)

end Auditing

section Keeping

variable {marker newline : ByteString} {lines : List ByteString} {content : ByteString}

def unrelated (marker : ByteString) (lines : List ByteString) : List ByteString :=
  lines.filter fun line => !decide (marker <:+: line)

/-- Every unrelated line is still a line of its own, in the original order. -/
def KeepsUnrelated (marker before after : ByteString) : Prop :=
  (unrelated marker (textLines before)).Sublist (textLines after)

theorem unmarked_of_unrelated {line : ByteString} (other : (!decide (marker <:+: line)) = true) :
    isMarked marker 35 line = false := by
  rw [Bool.not_eq_true', decide_eq_false_iff_not] at other
  simp [isMarked, other]

/-- A replacement that does not end in a newline keeps the unrelated lines exactly if the line that
it is joined with is none of them. -/
theorem sublist_joined_unrelated_iff (related : marker <:+: newline) (lines : List ByteString) :
    (unrelated marker lines).Sublist
        (frontLines marker lines ++ joinedLines newline (backLines marker lines)) ↔
      ∀ line rest, backLines marker lines = line :: rest → marker <:+: line := by
  have contains (line : ByteString) : (!decide (marker <:+: newline ++ line)) = false := by
    simpa using related.trans (List.infix_append [] newline line)
  rw [unrelated, sublist_joined_iff contains]
  simp only [Bool.not_eq_false', decide_eq_true_eq]
  exact and_iff_right fun line _ other => unmarked_of_unrelated other

theorem sublist_replacedLines (lines : List ByteString) :
    (unrelated marker lines).Sublist (replacedLines marker newline 35 lines) := by
  rw [replacedLines_eq, List.append_assoc]
  apply sublist_of_unmarked fun line _ other => unmarked_of_unrelated other
  exact List.filter_sublist.trans (List.sublist_append_right _ _)

end Keeping

section Remediating

variable {charSigned : Bool} {underLimitsD : Option ByteString} {fs : FileSystem}
  {limits sysctl : ByteString} {random random' : ℕ}

theorem named_etcSecurityLimitsConf : (basename etcSecurityLimitsConf).head? ≠ some 126 := by
  rw [etcSecurityLimitsConf, bytes_ofList]
  decide

theorem sysCtlConf_apart : fs.entry sysCtlConf ≠ fs.entry etcSecurityLimitsConf := by
  intro same
  rw [FileSystem.entry, FileSystem.entry, Prod.mk.injEq] at same
  have names := same.2
  revert names
  rw [sysCtlConf, etcSecurityLimitsConf]
  repeat rw [bytes_ofList]
  decide

/-- What the remediation leaves in the two files if it does anything. -/
theorem remediate_spec (limitsHeld : fs.read etcSecurityLimitsConf = some limits)
    (sysctlHeld : fs.read sysCtlConf = some sysctl) (limitsText : IsText limits)
    (sysctlText : IsText sysctl)
    (free : fs.read (replacingLinesName etcSecurityLimitsConf random) = none)
    (free' : fs.read (replacingLinesName sysCtlConf random') = none)
    (needed :
      ¬((checkCoreDumpsHardLimitIsDisabledForAllUsers charSigned underLimitsD none fs).1 = 0 ∧
        checkLineFoundNotCommentedOut sysCtlConf 35 fsSuidDumpable fs = 0)) :
    ∃ after, remediateEnsureCoreDumpsAreRestricted charSigned underLimitsD random random' fs =
        (0, after) ∧
      after.read etcSecurityLimitsConf =
        some (replacedLines hardCore hardCoreZero 35 (textLines limits)).flatten ∧
      after.read sysCtlConf =
        some (replacedLines suidDumpable fsSuidDumpable 35 (textLines sysctl)).flatten := by
  have temporary :=
    @entry_replacingLinesName_ne fs _ named_etcSecurityLimitsConf sysCtlConf random'
  have limitsWritten : replaceMarkedLinesInFile etcSecurityLimitsConf hardCore (some hardCoreZero) 35
      random fs = (0, fs.write etcSecurityLimitsConf
        (replacedLines hardCore hardCoreZero 35 (fgetsLines limits)).flatten) :=
    replaceMarkedLinesInFile_eq limitsHeld limitsText free (by decide) (by decide) (by decide)
      (by decide)
  rw [fgetsLines_eq limitsText] at limitsWritten
  generalize written_eq : fs.write etcSecurityLimitsConf
    (replacedLines hardCore hardCoreZero 35 (textLines limits)).flatten = written at limitsWritten
  have stillHeld : written.read sysCtlConf = some sysctl := by
    rw [← written_eq, FileSystem.read_write_of_ne sysCtlConf_apart, sysctlHeld]
  have stillFree : written.read (replacingLinesName sysCtlConf random') = none := by
    rw [← written_eq, FileSystem.read_write_of_ne temporary, free']
  have sysctlWritten : replaceMarkedLinesInFile sysCtlConf suidDumpable (some fsSuidDumpable) 35
      random' written = (0, written.write sysCtlConf
        (replacedLines suidDumpable fsSuidDumpable 35 (fgetsLines sysctl)).flatten) :=
    replaceMarkedLinesInFile_eq stillHeld sysctlText stillFree (by decide) (by decide) (by decide)
      (by decide)
  rw [fgetsLines_eq sysctlText] at sysctlWritten
  have present : written.fileExists sysCtlConf = true :=
    FileSystem.fileExists_iff.mpr ⟨sysctl, stillHeld⟩
  refine ⟨written.write sysCtlConf
    (replacedLines suidDumpable fsSuidDumpable 35 (textLines sysctl)).flatten, ?_, ?_, ?_⟩
  · rw [remediateEnsureCoreDumpsAreRestricted, if_neg needed, limitsWritten]
    simp only [if_true, present, Bool.not_true, Bool.false_eq_true, if_false]
    rw [sysctlWritten]
  · have apart : written.entry etcSecurityLimitsConf ≠ written.entry sysCtlConf :=
      sysCtlConf_apart.symm
    rw [FileSystem.read_write_of_ne apart, ← written_eq, FileSystem.read_write_self]
  · exact FileSystem.read_write_self

theorem plain_fsSuidDumpable : fsSuidDumpable ≠ [] ∧ 10 ∉ fsSuidDumpable ∧ 0 ∉ fsSuidDumpable := by
  rw [fsSuidDumpable, bytes_ofList]
  decide

theorem suidDumpable_infix : suidDumpable <:+: fsSuidDumpable := by
  rw [fsSuidDumpable, suidDumpable]
  repeat rw [bytes_ofList]
  decide

theorem isTextLine_hardCoreZero : IsTextLine hardCoreZero := by
  have line : hardCoreZero = bytes "*\thard\tcore\t0" ++ [10] := by decide
  exact ⟨by decide, ⟨_, line, by decide, by decide⟩⟩

theorem fgetsLines_hardCoreZero : fgetsLines hardCoreZero = [hardCoreZero] :=
  isTextLine_hardCoreZero.fgetsLines_eq

theorem fgetsLines_fsSuidDumpable : fgetsLines fsSuidDumpable = [fsSuidDumpable] := by
  rw [fsSuidDumpable, bytes_ofList]
  decide +kernel

/-- The text with the new setting. -/
theorem flatten_replacedLines (lines : List ByteString) :
    (replacedLines suidDumpable fsSuidDumpable 35 lines).flatten =
      (frontLines suidDumpable lines).flatten ++
        (fsSuidDumpable ++ (backLines suidDumpable lines).flatten) := by
  rw [replacedLines_eq, fgetsLines_fsSuidDumpable, List.flatten_append, List.flatten_append,
    List.flatten_singleton, List.append_assoc]

theorem isTextLine_of_mem_textLines (text : IsText limits) :
    ∀ line ∈ textLines limits, IsTextLine line := by
  rw [← fgetsLines_eq text]
  exact fun _ => text.isTextLine

/-- The setting that the remediation writes is found. -/
theorem checkLineFound_replaced (text : IsText sysctl)
    (held : fs.read sysCtlConf =
      some (replacedLines suidDumpable fsSuidDumpable 35 (textLines sysctl)).flatten) :
    checkLineFoundNotCommentedOut sysCtlConf 35 fsSuidDumpable fs = 0 := by
  have proper := isTextLine_of_mem_textLines text
  have fronts := @isTextLine_of_mem_frontLines suidDumpable _ proper
  have backs := @isTextLine_of_mem_backLines suidDumpable _ proper
  rw [flatten_replacedLines] at held
  have noNul : 0 ∉ (frontLines suidDumpable (textLines sysctl)).flatten ++
      (fsSuidDumpable ++ (backLines suidDumpable (textLines sysctl)).flatten) := by
    rw [List.mem_append, List.mem_append, not_or, not_or]
    exact ⟨(isText_flatten fronts).noNul, plain_fsSuidDumpable.2.2, (isText_flatten backs).noNul⟩
  have found : foundUncommented 35 fsSuidDumpable [] 0
      ((frontLines suidDumpable (textLines sysctl)).flatten ++
        (fsSuidDumpable ++ (backLines suidDumpable (textLines sysctl)).flatten)) = true := by
    apply foundUncommented_of_exists (by decide) plain_fsSuidDumpable.1 plain_fsSuidDumpable.2.1
      (Nat.zero_le _) rfl
    rw [List.nil_append, lineBefore_flatten fronts]
    exact List.not_mem_nil
  rcases checkLineFoundNotCommentedOut_cases 35 held plain_fsSuidDumpable.1 with
    ⟨-, result⟩ | ⟨lost, -⟩
  · exact result
  · rw [ByteString.cString_of_not_mem noNul, found] at lost
    cases lost

/-- A successful remediation makes the audit pass and keeps all unrelated lines exactly if nothing
was to be done; or if no other limit comes in front of the new one, or a file under `limits.d` has
one of zero, and no unrelated line goes on behind the new setting. -/
theorem remediation_keeps_iff (charSigned : Bool) (underLimitsD : Option ByteString)
    (limitsHeld : fs.read etcSecurityLimitsConf = some limits)
    (sysctlHeld : fs.read sysCtlConf = some sysctl) (limitsText : IsText limits)
    (sysctlText : IsText sysctl)
    (free : fs.read (replacingLinesName etcSecurityLimitsConf random) = none)
    (free' : fs.read (replacingLinesName sysCtlConf random') = none) :
    ∃ after limits' sysctl',
      remediateEnsureCoreDumpsAreRestricted charSigned underLimitsD random random' fs = (0, after) ∧
      after.read etcSecurityLimitsConf = some limits' ∧ after.read sysCtlConf = some sysctl' ∧
      ((auditEnsureCoreDumpsAreRestricted charSigned underLimitsD after).any passed = true ∧
          KeepsUnrelated hardCore limits limits' ∧ KeepsUnrelated suidDumpable sysctl sysctl' ↔
        IsLimited charSigned underLimitsD (textLines limits) ∧
            foundUncommented 35 fsSuidDumpable [] 0 sysctl = true ∨
          ((∀ byte, firstVisible charSigned
                (limitsOutput (frontLines hardCore (textLines limits))) = some byte → byte = 48) ∨
              underLimitsD.any startsWithZero = true) ∧
            ∀ line rest, backLines suidDumpable (textLines sysctl) = line :: rest →
              suidDumpable <:+: line) := by
  have limited := (@checkCoreDumps_spec charSigned underLimitsD fs limits limitsHeld).1
  have found : checkLineFoundNotCommentedOut sysCtlConf 35 fsSuidDumpable fs = 0 ↔
      foundUncommented 35 fsSuidDumpable [] 0 sysctl = true := by
    have same := ByteString.cString_of_not_mem sysctlText.noNul
    rcases checkLineFoundNotCommentedOut_cases 35 sysctlHeld plain_fsSuidDumpable.1 with
      ⟨found, result⟩ | ⟨lost, result⟩
    · rw [same] at found
      exact iff_of_true result found
    · rw [same] at lost
      simp [result, lost, eexist]
  by_cases idle : (checkCoreDumpsHardLimitIsDisabledForAllUsers charSigned underLimitsD none fs).1 =
      0 ∧ checkLineFoundNotCommentedOut sysCtlConf 35 fsSuidDumpable fs = 0
  · refine ⟨fs, limits, sysctl, if_pos idle, limitsHeld, sysctlHeld, ?_⟩
    rw [audit_passed_iff limitsHeld sysctlHeld, ← limited, ← found]
    exact iff_of_true ⟨idle, List.filter_sublist, List.filter_sublist⟩ (.inl idle)
  · rcases @remediate_spec charSigned underLimitsD fs limits sysctl random random' limitsHeld
      sysctlHeld limitsText sysctlText free free' idle with
      ⟨after, remediated, limitsAfter, sysctlAfter⟩
    refine ⟨after, _, _, remediated, limitsAfter, sysctlAfter, ?_⟩
    have limitsLines :
        textLines (replacedLines hardCore hardCoreZero 35 (textLines limits)).flatten =
          replacedLines hardCore hardCoreZero 35 (textLines limits) := by
      have newText : IsText hardCoreZero := isTextLine_hardCoreZero.isText
      rw [← fgetsLines_eq limitsText, ← fgetsLines_eq (isText_replacedLines limitsText newText),
        fgetsLines_replacedLines limitsText newText]
    have sysctlLines : textLines (replacedLines suidDumpable fsSuidDumpable 35
        (textLines sysctl)).flatten = frontLines suidDumpable (textLines sysctl) ++
          joinedLines fsSuidDumpable (backLines suidDumpable (textLines sysctl)) := by
      have proper := isTextLine_of_mem_textLines sysctlText
      rw [flatten_replacedLines, ← List.append_assoc]
      exact textLines_joined (isTextLine_of_mem_frontLines proper)
        (isTextLine_of_mem_backLines proper) plain_fsSuidDumpable.1 plain_fsSuidDumpable.2.1
    have passes := @audit_passed_iff charSigned underLimitsD _ _ _ limitsAfter sysctlAfter
    rw [passes, limitsLines, KeepsUnrelated, KeepsUnrelated, limitsLines, sysctlLines,
      sublist_joined_unrelated_iff suidDumpable_infix, and_iff_left (checkLineFound_replaced sysctlText
        sysctlAfter), and_iff_right (sublist_replacedLines _), ← limited, ← found,
      or_iff_right idle, IsLimited, replacedLines_eq, fgetsLines_hardCoreZero,
      firstVisible_limitsOutput_iff]

def twoFiles (limits sysctl : ByteString) : FileSystem :=
  (oneFile etcSecurityLimitsConf limits).write sysCtlConf sysctl

theorem read_twoFiles (limits sysctl : ByteString) :
    (twoFiles limits sysctl).read etcSecurityLimitsConf = some limits ∧
      (twoFiles limits sysctl).read sysCtlConf = some sysctl ∧
      ∀ fileName random,
        (twoFiles limits sysctl).read (replacingLinesName fileName random) = none := by
  have named : (basename sysCtlConf).head? ≠ some 126 := by
    rw [sysCtlConf, bytes_ofList]
    decide
  refine ⟨?_, FileSystem.read_write_self, fun fileName random => ?_⟩
  · rw [twoFiles, FileSystem.read_write_of_ne sysCtlConf_apart.symm]
    exact FileSystem.read_write_self
  · rw [twoFiles, FileSystem.read_write_of_ne (entry_replacingLinesName_ne named _ _)]
    exact FileSystem.read_write_of_ne (entry_replacingLinesName_ne named_etcSecurityLimitsConf _ _)

theorem isTextLine_concat {body : ByteString} (plain : 10 ∉ body) (noNul : 0 ∉ body)
    (short : body.length < lineMax) : IsTextLine (body ++ [10]) :=
  ⟨by simpa using noNul, ⟨body, rfl, plain, short⟩⟩

theorem remediation_keeps_iff_appended :
    ∃ after limits' sysctl',
      remediateEnsureCoreDumpsAreRestricted true none 1 2
        (twoFiles (bytes "# limits" ++ [10]) (bytes "kernel.panic = 1" ++ [10])) = (0, after) ∧
      after.read etcSecurityLimitsConf = some limits' ∧ after.read sysCtlConf = some sysctl' ∧
      (auditEnsureCoreDumpsAreRestricted true none after).any passed = true ∧
      KeepsUnrelated hardCore (bytes "# limits" ++ [10]) limits' ∧
      KeepsUnrelated suidDumpable (bytes "kernel.panic = 1" ++ [10]) sysctl' := by
  rcases read_twoFiles (bytes "# limits" ++ [10]) (bytes "kernel.panic = 1" ++ [10]) with
    ⟨limitsHeld, sysctlHeld, free⟩
  rcases remediation_keeps_iff true none limitsHeld sysctlHeld
    (isTextLine_concat (by decide) (by decide) (by decide)).isText
    (isTextLine_concat (by decide) (by decide) (by decide)).isText (free _ 1) (free _ 2) with
    ⟨after, limits', sysctl', remediated, limitsAfter, sysctlAfter, keeps⟩
  refine ⟨after, limits', sysctl', remediated, limitsAfter, sysctlAfter,
    keeps.mpr (.inr ⟨.inl ?_, ?_⟩)⟩
  · have silent : firstVisible true (limitsOutput
        (frontLines hardCore (textLines (bytes "# limits" ++ [10])))) = none := by decide +kernel
    rw [silent]
    simp
  · have nothing : backLines suidDumpable (textLines (bytes "kernel.panic = 1" ++ [10])) = [] := by
      decide +kernel
    rw [nothing]
    simp

/-- The setting behind the replaced one goes on with it on one line. -/
theorem next_setting_joined :
    ¬∀ (limits sysctl : ByteString) (fs : FileSystem) (random random' : ℕ),
      IsText limits → IsText sysctl → fs.read etcSecurityLimitsConf = some limits →
      fs.read sysCtlConf = some sysctl →
      fs.read (replacingLinesName etcSecurityLimitsConf random) = none →
      fs.read (replacingLinesName sysCtlConf random') = none →
      ∀ after sysctl',
        remediateEnsureCoreDumpsAreRestricted true none random random' fs = (0, after) →
        after.read sysCtlConf = some sysctl' → KeepsUnrelated suidDumpable sysctl sysctl' := by
  intro all
  let sysctl := bytes "fs.suid_dumpable = 1" ++ [10] ++ (bytes "kernel.panic = 1" ++ [10])
  have limitsText : IsText (bytes "# limits" ++ [10]) :=
    (isTextLine_concat (by decide) (by decide) (by decide)).isText
  have sysctlText : IsText sysctl := by
    have lines : sysctl = [bytes "fs.suid_dumpable = 1" ++ [10],
        bytes "kernel.panic = 1" ++ [10]].flatten := by decide
    rw [lines]
    refine isText_flatten fun line mem => ?_
    simp only [List.mem_cons, List.not_mem_nil, or_false] at mem
    rcases mem with rfl | rfl
    · exact isTextLine_concat (by decide) (by decide) (by decide)
    · exact isTextLine_concat (by decide) (by decide) (by decide)
  rcases read_twoFiles (bytes "# limits" ++ [10]) sysctl with ⟨limitsHeld, sysctlHeld, free⟩
  have needed : ¬((checkCoreDumpsHardLimitIsDisabledForAllUsers true none none
      (twoFiles (bytes "# limits" ++ [10]) sysctl)).1 = 0 ∧ checkLineFoundNotCommentedOut sysCtlConf
        35 fsSuidDumpable (twoFiles (bytes "# limits" ++ [10]) sysctl) = 0) := by
    decide +kernel
  rcases remediate_spec limitsHeld sysctlHeld limitsText sysctlText (free _ 1) (free _ 2)
    needed with ⟨after, remediated, -, sysctlAfter⟩
  have kept := all _ sysctl _ 1 2 limitsText sysctlText limitsHeld sysctlHeld (free _ 1) (free _ 2)
    after _ remediated sysctlAfter
  revert kept
  rw [KeepsUnrelated]
  decide +kernel

end Remediating

end OsConfig.Asb
